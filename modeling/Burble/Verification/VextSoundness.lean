import Mathlib.Data.List.Forall2
import Burble.Bytes
import Burble.HashChain
import Burble.Separated
import Burble.Verification.Vext

namespace Burble.Verification

open Base16 (encode16 decode16)

namespace Vext

/-- What `create_header` is called with, apart from the chain. -/
structure Post where
  body : String
  authorId : String
  timestamp : DateTime
  attestationId : Option String

/-- A run of `create_header` calls on one channel, each from the chain the one before left. -/
structure ChannelRun where
  channelId : String
  posts : List Post

/-- The text whose digest is the article hash, after its prefix. -/
def articleText (body authorId : String) (timestamp : DateTime) : String :=
  s!"{body}|{authorId}|{timestamp.toIso8601}"

def Post.text (post : Post) : String := articleText post.body post.authorId post.timestamp

def FeedArticle.text (article : FeedArticle) : String :=
  articleText article.body article.authorId article.timestamp

def Post.triple (post : Post) : String × String × DateTime := (post.body, post.authorId, post.timestamp)

def FeedArticle.triple (article : FeedArticle) : String × String × DateTime :=
  (article.body, article.authorId, article.timestamp)

variable (crypto : ServerCrypto)

/-- The headers of the calls, in order. -/
def headersFrom (chainState : ChainState) : List Post → List VerificationHeader
  | [] => []
  | post :: rest =>
    let (header, next) := createHeader crypto post.body post.authorId post.timestamp chainState post.attestationId
    header :: headersFrom next rest

def ChannelRun.headers (run : ChannelRun) : List VerificationHeader :=
  headersFrom crypto (initChain run.channelId) run.posts

/-- What the server has put its key to: the chain hashes of its runs, on whichever channels,
and the proof hashes of its attestations. -/
def Signed (runs : List ChannelRun) (attested : List String) (message : String) : Prop :=
  (∃ run ∈ runs, ∃ header ∈ run.headers crypto, message = header.chainHash) ∨
    ∃ text ∈ attested, message = encode16 (crypto.sha256 s!"avow:{text}")

/-- No two texts have one digest, none is known for the genesis constant, and only what the
server has signed passes for signed. -/
structure Ideal (runs : List ChannelRun) (attested : List String) : Prop where
  injective : Function.Injective crypto.sha256
  rooted : ∀ data, encode16 (crypto.sha256 data) ≠ genesisHash
  unforgeable : ∀ message signature, crypto.verify message signature = true → Signed crypto runs attested message

/-- The chain hash over digests as bytes. -/
def chainLink (text : String) (previous : List UInt8) (position : Nat) : List UInt8 :=
  let article := encode16 (crypto.sha256 ("vext:article:" ++ text))
  crypto.sha256 s!"vext:chain:{article}|{encode16 previous}|{position}"

def genesis : List UInt8 := List.replicate 32 0

theorem encode16_genesis : encode16 genesis = genesisHash := by decide

variable {crypto}

theorem hashArticle_eq (body authorId : String) (timestamp : DateTime) :
    hashArticle crypto body authorId timestamp =
      encode16 (crypto.sha256 ("vext:article:" ++ articleText body authorId timestamp)) := by
  simp only [hashArticle, articleText, toString, String.append_assoc]

theorem hex_plain (bytes : List UInt8) : '|' ∉ (encode16 bytes).toList :=
  Base16.encode16_free (by decide) bytes

theorem chainText_toList (articleHash previousHash : String) (position : Nat) :
    (s!"vext:chain:{articleHash}|{previousHash}|{position}").toList = "vext:chain:".toList ++
      (articleHash.toList ++ '|' :: (previousHash.toList ++ '|' :: (toString position).toList)) := by
  simp [toString]

theorem chainLink_binding {runs : List ChannelRun} {attested : List String} (ideal : Ideal crypto runs attested) :
    HashChain.Binding (chainLink crypto) genesis := by
  refine ⟨fun {text previous position text' previous' position'} same => ?_, fun text previous position same => ?_⟩
  · have texts := congrArg String.toList (ideal.injective same)
    rw [chainText_toList, chainText_toList] at texts
    obtain ⟨articles, rest⟩ := split_at_first (hex_plain _) (hex_plain _) (List.append_cancel_left texts)
    obtain ⟨previouses, -⟩ := split_at_first (hex_plain _) (hex_plain _) rest
    have digests := ideal.injective (Base16.encode16_injective (String.toList_inj.mp articles))
    have articleTexts : "vext:article:".toList ++ text.toList = "vext:article:".toList ++ text'.toList := by
      rw [← String.toList_append, ← String.toList_append, digests]
    exact ⟨String.toList_inj.mp (List.append_cancel_left articleTexts),
      Base16.encode16_injective (String.toList_inj.mp previouses)⟩
  · exact ideal.rooted _ ((congrArg encode16 same).trans encode16_genesis)

/-- An article that verifies shows the digest of its text, linked to the hash before it and signed. -/
theorem verifyArticle_ok {article : FeedArticle} {previous : List UInt8}
    (verified : verifyArticle crypto article.body article.authorId article.timestamp article.header (encode16 previous) =
      .ok ()) :
    article.header.chainHash = encode16 (chainLink crypto article.text previous article.header.chainPosition) ∧
      ∃ signature, crypto.verify article.header.chainHash signature = true := by
  unfold verifyArticle at verified
  dsimp only at verified
  split_ifs at verified with content continuity linked genuine
  refine ⟨?_, ?_⟩
  · rw [← not_not.mp linked, hashArticle_eq]
    rfl
  · unfold verifySignature at genuine
    split at genuine
    next bytes _ => exact ⟨bytes, genuine⟩
    next => cases genuine

/-- A feed that verifies is a chain, and every link of it is signed. -/
theorem verifyFrom_ok {articles : List FeedArticle} {previous : List UInt8} {position count : Nat}
    (verified : verifyFrom crypto (encode16 previous) position articles = .ok count) :
    count = position + articles.length ∧ ∃ items : List (String × Nat × List UInt8),
      HashChain.Linked (chainLink crypto) previous items ∧ items.map Prod.fst = articles.map FeedArticle.text ∧
      ∀ item ∈ items, ∃ signature, crypto.verify (encode16 item.2.2) signature = true := by
  induction articles generalizing previous position with
  | nil =>
    cases verified
    exact ⟨rfl, [], trivial, rfl, fun _ member => absurd member List.not_mem_nil⟩
  | cons article rest ih =>
    unfold verifyFrom at verified
    split at verified
    next atArticle =>
      obtain ⟨hash, signature⟩ := verifyArticle_ok atArticle
      rw [hash] at verified signature
      obtain ⟨total, items, linked, texts, signatures⟩ := ih verified
      refine ⟨by rw [total, List.length_cons]; omega,
        (article.text, article.header.chainPosition, chainLink crypto article.text previous article.header.chainPosition) :: items,
        ⟨rfl, linked⟩, by rw [List.map_cons, List.map_cons, texts], fun item member => ?_⟩
      rcases List.mem_cons.mp member with rfl | later
      · exact signature
      · exact signatures item later
    next => cases verified

theorem verifySignature_sign {chainHash : String}
    (signs : crypto.verify chainHash (crypto.sign chainHash) = true) :
    verifySignature crypto chainHash (signChainHash crypto chainHash) = true := by
  rw [verifySignature, signChainHash, Base16.decode16_encode16]
  exact signs

/-- An article verifies with a header made for it exactly if it has the digest of the post. -/
theorem verifyArticle_created {post : Post} {chainState : ChainState} {article : FeedArticle}
    (header : article.header =
      (createHeader crypto post.body post.authorId post.timestamp chainState post.attestationId).1)
    (signs : crypto.verify article.header.chainHash (crypto.sign article.header.chainHash) = true) :
    verifyArticle crypto article.body article.authorId article.timestamp article.header chainState.latestHash =
      if crypto.sha256 ("vext:article:" ++ article.text) = crypto.sha256 ("vext:article:" ++ post.text) then .ok ()
      else .error .hashMismatch := by
  have signature := verifySignature_sign signs
  have same : hashArticle crypto article.body article.authorId article.timestamp = article.header.articleHash ↔
      crypto.sha256 ("vext:article:" ++ article.text) = crypto.sha256 ("vext:article:" ++ post.text) := by
    rw [header, hashArticle_eq]
    dsimp only [createHeader]
    rw [hashArticle_eq]
    exact Base16.encode16_injective.eq_iff
  unfold verifyArticle
  by_cases content : hashArticle crypto article.body article.authorId article.timestamp = article.header.articleHash
  · rw [if_neg (not_not.mpr content), if_pos (same.mp content), content]
    rw [header] at signature ⊢
    simp only [createHeader, ne_eq, not_true_eq_false, ↓reduceIte] at signature ⊢
    exact if_pos signature
  · rw [if_pos content, if_neg (mt same.mpr content)]

/-- A feed with the headers of a run verifies if its texts are the ones posted. -/
theorem verifyFrom_headers (chainState : ChainState) (posts : List Post) {articles : List FeedArticle}
    (texts : articles.map FeedArticle.text = posts.map Post.text)
    (headers : articles.map FeedArticle.header = headersFrom crypto chainState posts)
    (signs : ∀ header ∈ headersFrom crypto chainState posts,
      crypto.verify header.chainHash (crypto.sign header.chainHash) = true) (position : Nat) :
    verifyFrom crypto chainState.latestHash position articles = .ok (position + articles.length) := by
  induction articles generalizing chainState posts position with
  | nil => rfl
  | cons article rest ih =>
    cases posts with
    | nil => cases texts
    | cons post later =>
      rw [List.map_cons, List.map_cons, List.cons.injEq] at texts
      rw [List.map_cons, headersFrom, List.cons.injEq] at headers
      rw [headersFrom, List.forall_mem_cons] at signs
      have verified := verifyArticle_created headers.1 (headers.1 ▸ signs.1)
      rw [texts.1, if_pos rfl] at verified
      have onward := ih _ _ texts.2 headers.2 signs.2 (position + 1)
      unfold verifyFrom
      rw [verified]
      dsimp only
      rw [headers.1, List.length_cons, show position + (rest.length + 1) = position + 1 + rest.length by omega]
      exact onward

/-- And only if they are, as no other text has the digest of a post. -/
theorem texts_of_verifyFrom (injective : Function.Injective crypto.sha256) {chainState : ChainState} {posts : List Post}
    {articles : List FeedArticle} (headers : articles.map FeedArticle.header = headersFrom crypto chainState posts)
    (signs : ∀ header ∈ headersFrom crypto chainState posts,
      crypto.verify header.chainHash (crypto.sign header.chainHash) = true) {position count : Nat}
    (verified : verifyFrom crypto chainState.latestHash position articles = .ok count) :
    articles.map FeedArticle.text = posts.map Post.text := by
  induction articles generalizing chainState posts position with
  | nil =>
    cases posts with
    | nil => rfl
    | cons post later => cases headers
  | cons article rest ih =>
    cases posts with
    | nil => cases headers
    | cons post later =>
      rw [List.map_cons, headersFrom, List.cons.injEq] at headers
      rw [headersFrom, List.forall_mem_cons] at signs
      rw [verifyFrom, verifyArticle_created headers.1 (headers.1 ▸ signs.1)] at verified
      by_cases same : crypto.sha256 ("vext:article:" ++ article.text) = crypto.sha256 ("vext:article:" ++ post.text)
      · rw [if_pos same] at verified
        dsimp only at verified
        rw [headers.1] at verified
        have texts := congrArg String.toList (injective same)
        rw [String.toList_append, String.toList_append] at texts
        have text : article.text = post.text := String.toList_inj.mp (List.append_cancel_left texts)
        rw [List.map_cons, List.map_cons, text, ih headers.2 signs.2 verified]
      · rw [if_neg same] at verified
        cases verified

/-- The chain hashes of a run are the digests of its chain. -/
theorem headersFrom_hashes (crypto : ServerCrypto) (channelId : String) (position : Nat) (previous : List UInt8) (posts : List Post) :
    (headersFrom crypto ⟨channelId, position, encode16 previous⟩ posts).map VerificationHeader.chainHash =
      (HashChain.hashes (chainLink crypto) previous position (posts.map Post.text)).map encode16 := by
  induction posts generalizing position previous with
  | nil => rfl
  | cons post rest ih =>
    have hash : hashChainLink crypto (hashArticle crypto post.body post.authorId post.timestamp) (encode16 previous)
        (position + 1) = encode16 (chainLink crypto post.text previous (position + 1)) := by
      rw [hashArticle_eq]
      rfl
    simp only [headersFrom, createHeader, List.map_cons, HashChain.hashes, hash, ih]

theorem chainHash_link {run : ChannelRun} {header : VerificationHeader} (member : header ∈ run.headers crypto) :
    ∃ digest ∈ HashChain.hashes (chainLink crypto) genesis 0 (run.posts.map Post.text),
      header.chainHash = encode16 digest := by
  have hashes := headersFrom_hashes crypto run.channelId 0 genesis run.posts
  rw [encode16_genesis] at hashes
  have listed : header.chainHash ∈ (run.headers crypto).map VerificationHeader.chainHash := List.mem_map_of_mem member
  rw [ChannelRun.headers, initChain, hashes] at listed
  obtain ⟨digest, among, equal⟩ := List.mem_map.mp listed
  exact ⟨digest, among, equal.symm⟩

/-- An attestation's proof hash is no chain hash, as their texts begin differently. -/
theorem chainLink_ne_avow (injective : Function.Injective crypto.sha256)
    (text attestation : String) (previous : List UInt8) (position : Nat) :
    encode16 (chainLink crypto text previous position) ≠ encode16 (crypto.sha256 s!"avow:{attestation}") := by
  intro same
  have texts := congrArg String.toList (injective (Base16.encode16_injective same))
  rw [chainText_toList] at texts
  simp [toString] at texts

/-- A link that is signed belongs to a run. -/
theorem signed_link {runs : List ChannelRun} {attested : List String} (ideal : Ideal crypto runs attested)
    {text : String} {previous : List UInt8} {position : Nat}
    (signed : Signed crypto runs attested (encode16 (chainLink crypto text previous position))) :
    ∃ run ∈ runs, chainLink crypto text previous position ∈
      HashChain.hashes (chainLink crypto) genesis 0 (run.posts.map Post.text) := by
  rcases signed with ⟨run, among, header, made, same⟩ | ⟨attestation, _, same⟩
  · obtain ⟨digest, listed, equal⟩ := chainHash_link made
    refine ⟨run, among, ?_⟩
    rwa [Base16.encode16_injective (same.trans equal)]
  · exact absurd same (chainLink_ne_avow ideal.injective text attestation previous position)

theorem articleText_toList (body authorId : String) (timestamp : DateTime) :
    (articleText body authorId timestamp).toList =
      body.toList ++ '|' :: (authorId.toList ++ '|' :: timestamp.toIso8601.toList) := by
  simp [articleText, toString]

/-- Without a bar in the author ids an article text tells body, author and timestamp. -/
theorem articleText_inj {body body' authorId authorId' : String} {timestamp timestamp' : DateTime}
    (plain : '|' ∉ authorId.toList) (plain' : '|' ∉ authorId'.toList)
    (same : articleText body authorId timestamp = articleText body' authorId' timestamp') :
    body = body' ∧ authorId = authorId' ∧ timestamp = timestamp' := by
  have texts := congrArg String.toList same
  rw [articleText_toList, articleText_toList, ← List.cons_append, ← List.append_assoc, ← List.cons_append,
    ← List.append_assoc] at texts
  obtain ⟨fronts, dates⟩ := split_at_last timestamp.toIso8601_plain timestamp'.toIso8601_plain texts
  obtain ⟨bodies, authors⟩ := split_at_last plain plain' fronts
  exact ⟨String.toList_inj.mp bodies, String.toList_inj.mp authors,
    DateTime.toIso8601_injective (String.toList_inj.mp dates)⟩

theorem triples_prefix {articles : List FeedArticle} {posts : List Post}
    (texts : articles.map FeedArticle.text <+: posts.map Post.text)
    (shown : ∀ article ∈ articles, '|' ∉ article.authorId.toList) (posted : ∀ post ∈ posts, '|' ∉ post.authorId.toList) :
    articles.map FeedArticle.triple <+: posts.map Post.triple := by
  induction articles generalizing posts with
  | nil => exact List.nil_prefix
  | cons article rest ih =>
    cases posts with
    | nil => exact absurd texts.length_le (by simp)
    | cons post later =>
      rw [List.map_cons, List.map_cons, List.cons_prefix_cons] at texts
      obtain ⟨body, author, date⟩ := articleText_inj (shown article List.mem_cons_self)
        (posted post List.mem_cons_self) texts.1
      rw [List.map_cons, List.map_cons, List.cons_prefix_cons]
      refine ⟨by rw [FeedArticle.triple, Post.triple, body, author, date], ih texts.2 ?_ ?_⟩
      · exact fun other member => shown other (List.mem_cons_of_mem _ member)
      · exact fun other member => posted other (List.mem_cons_of_mem _ member)

/-- A feed that verifies shows, in order, texts that were posted from the start of one
channel on, and where no author id holds a bar, their bodies, authors and timestamps. -/
theorem verified_feed_beginning {runs : List ChannelRun} {attested : List String} (ideal : Ideal crypto runs attested)
    {articles : List FeedArticle} {count : Nat} (verified : verifyFeed crypto articles = .ok count) :
    count = articles.length ∧ (articles = [] ∨ ∃ run ∈ runs,
      articles.map FeedArticle.text <+: run.posts.map Post.text ∧
      ((∀ article ∈ articles, '|' ∉ article.authorId.toList) → (∀ post ∈ run.posts, '|' ∉ post.authorId.toList) →
        articles.map FeedArticle.triple <+: run.posts.map Post.triple)) := by
  rw [verifyFeed, ← encode16_genesis] at verified
  obtain ⟨total, items, linked, texts, signatures⟩ := verifyFrom_ok verified
  refine ⟨by omega, ?_⟩
  rcases List.eq_nil_or_concat items with rfl | ⟨front, last, rfl⟩
  · exact .inl (List.map_eq_nil_iff.mp texts.symm)
  right
  rw [List.concat_eq_append] at linked texts signatures
  obtain ⟨text, position, hash⟩ := last
  obtain ⟨signature, genuine⟩ := signatures (text, position, hash) (List.mem_append_right _ (List.mem_singleton.mpr rfl))
  have atHash := (HashChain.linked_append.mp linked).2
  have signed := ideal.unforgeable _ _ genuine
  rw [atHash] at signed
  obtain ⟨run, among, member⟩ := signed_link ideal signed
  have ends : ((front ++ [(text, position, hash)]).map fun item => item.2.2).getLastD genesis ∈
      HashChain.hashes (chainLink crypto) genesis 0 (run.posts.map Post.text) := by
    rw [List.map_append, List.map_singleton, List.getLastD_concat, atHash]
    exact member
  have posted := HashChain.prefix_of_member (chainLink_binding ideal) linked ends
  rw [texts] at posted
  exact ⟨run, among, posted, triples_prefix posted⟩

/-- A feed shown for a channel that verifies is the start of a run on that channel. -/
def BoundTo (crypto : ServerCrypto) (runs : List ChannelRun) (channelId : String) (articles : List FeedArticle) : Prop :=
  (verifyFeed crypto articles).isOk = true →
    ∃ run ∈ runs, run.channelId = channelId ∧ articles.map FeedArticle.triple <+: run.posts.map Post.triple

instance (crypto : ServerCrypto) (runs : List ChannelRun) (channelId : String) (articles : List FeedArticle) :
    Decidable (BoundTo crypto runs channelId articles) := inferInstanceAs (Decidable (_ → _))

/-- Texts are their own digests, after a byte that is not zero. -/
def textDigest (data : String) : List UInt8 := 1 :: utf8 data

/-- The key that has signed the chain hashes of these runs, and nothing else. -/
def symbolCrypto (runs : List ChannelRun) : ServerCrypto where
  sha256 := textDigest
  sign message := utf8 message
  verify message signature := decide (signature = utf8 message ∧
    message ∈ runs.flatMap fun run => (run.headers ⟨textDigest, utf8, fun _ _ => false⟩).map VerificationHeader.chainHash)

theorem symbolCrypto_ideal (runs : List ChannelRun) : Ideal (symbolCrypto runs) runs [] := by
  refine ⟨fun one other same => utf8_injective (List.cons.inj same).2, fun data same => ?_,
    fun message signature genuine => .inl ?_⟩
  · rw [← encode16_genesis] at same
    exact absurd (List.cons.inj (Base16.encode16_injective same)).1 (by decide)
  · obtain ⟨-, member⟩ := of_decide_eq_true genuine
    obtain ⟨run, among, member⟩ := List.mem_flatMap.mp member
    have hashes (crypto : ServerCrypto) : (run.headers crypto).map VerificationHeader.chainHash =
        (HashChain.hashes (chainLink crypto) genesis 0 (run.posts.map Post.text)).map encode16 := by
      rw [← headersFrom_hashes crypto run.channelId, encode16_genesis]
      rfl
    rw [hashes, show chainLink ⟨textDigest, utf8, fun _ _ => false⟩ = chainLink (symbolCrypto runs) from rfl,
      ← hashes] at member
    obtain ⟨header, made, same⟩ := List.mem_map.mp member
    exact ⟨run, among, header, made, same.symm⟩

def noon : DateTime := .firstOfMarch

/-- Bob posts a line to one channel. -/
def bobsRun : ChannelRun := ⟨"general", [⟨"yes|no", "bob", noon, none⟩]⟩

def bobsHeader : VerificationHeader :=
  (createHeader (symbolCrypto [bobsRun]) "yes|no" "bob" noon (initChain "general") none).1

/-- His first line as it is, and with its end moved into the author's id. -/
def genuineLine : FeedArticle := ⟨"yes|no", "bob", noon, bobsHeader⟩

def reattributedLine : FeedArticle := ⟨"yes", "no|bob", noon, bobsHeader⟩

theorem signed_by_bob : ∀ header ∈ bobsRun.headers (symbolCrypto [bobsRun]),
    (symbolCrypto [bobsRun]).verify header.chainHash ((symbolCrypto [bobsRun]).sign header.chainHash) = true := by
  intro header made
  refine decide_eq_true ⟨rfl, List.mem_flatMap.mpr ⟨bobsRun, List.mem_singleton.mpr rfl, ?_⟩⟩
  rw [List.mem_singleton.mp made]
  exact List.mem_singleton.mpr rfl

theorem genuineLine_verified : verifyFeed (symbolCrypto [bobsRun]) [genuineLine] = .ok 1 :=
  verifyFrom_headers (initChain "general") bobsRun.posts rfl rfl signed_by_bob 0

/-- Shown for another channel, or in another's name, his line verifies. -/
theorem transplanted_and_reattributed : Ideal (symbolCrypto [bobsRun]) [bobsRun] [] ∧
    ¬ BoundTo (symbolCrypto [bobsRun]) [bobsRun] "random" [genuineLine] ∧
    ¬ BoundTo (symbolCrypto [bobsRun]) [bobsRun] "general" [reattributedLine] := by
  have reattributed : verifyFeed (symbolCrypto [bobsRun]) [reattributedLine] = .ok 1 :=
    verifyFrom_headers (initChain "general") bobsRun.posts (by decide +kernel) rfl signed_by_bob 0
  refine ⟨symbolCrypto_ideal _, fun bound => ?_, fun bound => ?_⟩
  · obtain ⟨run, among, channel, -⟩ := bound (by rw [genuineLine_verified]; rfl)
    rw [List.mem_singleton.mp among] at channel
    exact absurd channel (by decide)
  · obtain ⟨run, among, -, triples⟩ := bound (by rw [reattributed]; rfl)
    rw [List.mem_singleton.mp among] at triples
    exact absurd triples (by decide)

theorem verified_feed_beginning_bob :
    ∃ run ∈ [bobsRun], [genuineLine].map FeedArticle.triple <+: run.posts.map Post.triple := by
  rcases (verified_feed_beginning (symbolCrypto_ideal [bobsRun]) genuineLine_verified).2 with
    none | ⟨run, among, -, triples⟩
  · cases none
  · refine ⟨run, among, triples (by decide) ?_⟩
    rw [List.mem_singleton.mp among]
    decide

end Vext
end Burble.Verification
