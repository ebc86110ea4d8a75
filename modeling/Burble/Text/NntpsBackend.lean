import Burble.FiniteMap
import Burble.Verification.Vext
import Burble.Verification.VextSoundness

namespace Burble.Text

open Verification (ServerCrypto DateTime)
open Verification.Vext

/-- An NNTP article with its Vext header. `sender` is the `from` field. -/
structure Article where
  messageId : String
  subject : String
  sender : String
  date : DateTime
  body : String
  references : List String
  newsgroup : String
  xVextHeader : Option VerificationHeader
  xVextHash : String

/-- The state of the backend; articles are kept newest first. -/
structure Backend where
  articles : FiniteMap String (List Article)
  roomMap : FiniteMap String String
  pins : FiniteMap String (List String)
  vextChains : FiniteMap String ChainState

structure PostOptions where
  replyTo : Option String
  subject : Option String

/-- The arguments of `post_message`, with the clock and the random message id it draws. -/
structure PostCall where
  roomId : String
  userId : String
  displayName : String
  body : String
  opts : PostOptions
  timestamp : DateTime
  messageId : String

inductive Request
  | post (call : PostCall)
  | pin (roomId messageId : String)

/-- The shortest run of dots up to an `@`; a dot is any character but a newline. -/
def untilAt : List Char → Option (List Char)
  | [] => none
  | c :: rest => if c = '@' then some [] else if c = '\n' then none else (untilAt rest).map (c :: ·)

/-- `(.+?)@` from here on. -/
def lazyRun : List Char → Option (List Char)
  | [] => none
  | c :: rest => if c = '\n' then none else (untilAt rest).map (c :: ·)

/-- What the first match of `<(.+?)@` captures. -/
def findAuthor : List Char → Option (List Char)
  | [] => none
  | c :: rest => if c = '<' then (lazyRun rest).or (findAuthor rest) else findAuthor rest

/-- The user id in a `from` field. -/
def extractAuthor (sender : String) : String :=
  match findAuthor sender.toList with
  | some uid => String.ofList uid
  | none => "unknown"

def fromHeader (displayName userId : String) : String := s!"{displayName} <{userId}@burble.local>"

namespace Backend

def init : Backend := ⟨∅, ∅, ∅, ∅⟩

variable (s : Backend)

def roomToNewsgroup (roomId : String) : String := (s.roomMap.lookup roomId).getD s!"burble.room.{roomId}"

def chainOf (roomId : String) : ChainState := (s.vextChains.lookup roomId).getD (initChain roomId)

def post (crypto : ServerCrypto) (call : PostCall) : Backend :=
  let newsgroup := s.roomToNewsgroup call.roomId
  let (vextHeader, newChainState) :=
    createHeader crypto call.body call.userId call.timestamp (s.chainOf call.roomId) none
  let article : Article :=
    { messageId := call.messageId, subject := call.opts.subject.getD "", sender := fromHeader call.displayName call.userId,
      date := call.timestamp, body := call.body, references := call.opts.replyTo.toList, newsgroup,
      xVextHeader := some vextHeader, xVextHash := vextHeader.articleHash }
  { s with
    articles := s.articles.insert newsgroup (article :: (s.articles.lookup newsgroup).getD [])
    vextChains := s.vextChains.insert call.roomId newChainState }

def pin (roomId messageId : String) : Backend :=
  { s with pins := s.pins.insert roomId (messageId :: (s.pins.lookup roomId).getD []) }

def handle (crypto : ServerCrypto) : Request → Backend
  | .post call => s.post crypto call
  | .pin roomId messageId => s.pin roomId messageId

/-- The articles of a room as `verify_feed` hands them to Vext, oldest first. -/
def feed (roomId : String) : List FeedArticle :=
  ((s.articles.lookup (s.roomToNewsgroup roomId)).getD []).reverse.filterMap fun article =>
    article.xVextHeader.map fun header => ⟨article.body, extractAuthor article.sender, article.date, header⟩

def verifyFeed (crypto : ServerCrypto) (roomId : String) : Except (List (Nat × VerificationError)) Nat :=
  Verification.Vext.verifyFeed crypto (s.feed roomId)

end Backend
end Burble.Text

namespace Burble.Text

open Verification (ServerCrypto DateTime)
open Verification.Vext

/-- An `@` follows on the same line, after one character at least. -/
def Catches (text : List Char) : Prop := ∃ run after, text = run ++ '@' :: after ∧ run ≠ [] ∧ '\n' ∉ run

theorem untilAt_eq_some {text run : List Char} :
    untilAt text = some run ↔ (∃ after, text = run ++ '@' :: after) ∧ '@' ∉ run ∧ '\n' ∉ run := by
  induction text generalizing run with
  | nil => simp [untilAt]
  | cons c rest ih =>
    unfold untilAt
    by_cases at_ : c = '@'
    · rw [if_pos at_]
      constructor
      · rintro ⟨⟩
        exact ⟨⟨rest, by rw [at_]; rfl⟩, List.not_mem_nil, List.not_mem_nil⟩
      · rintro ⟨⟨after, split⟩, free, -⟩
        cases run with
        | nil => rfl
        | cons d tail =>
          obtain ⟨rfl, -⟩ := List.cons.inj split
          exact absurd (at_ ▸ List.mem_cons_self) free
    · rw [if_neg at_]
      by_cases newline : c = '\n'
      · rw [if_pos newline]
        refine ⟨fun none => (by cases none), fun ⟨⟨after, split⟩, _, line⟩ => ?_⟩
        cases run with
        | nil => exact absurd (List.cons.inj split).1 at_
        | cons d tail => exact absurd ((List.cons.inj split).1 ▸ newline ▸ List.mem_cons_self) line
      · rw [if_neg newline, Option.map_eq_some_iff]
        constructor
        · rintro ⟨tail, found, rfl⟩
          obtain ⟨⟨after, split⟩, free, line⟩ := ih.mp found
          refine ⟨⟨after, by rw [split]; rfl⟩, ?_, ?_⟩
          · exact fun member => (List.mem_cons.mp member).elim (fun same => at_ same.symm) free
          · exact fun member => (List.mem_cons.mp member).elim (fun same => newline same.symm) line
        · rintro ⟨⟨after, split⟩, free, line⟩
          cases run with
          | nil => exact absurd (List.cons.inj split).1 at_
          | cons d tail =>
            obtain ⟨rfl, tails⟩ := List.cons.inj split
            exact ⟨tail, ih.mpr ⟨⟨after, tails⟩, fun member => free (List.mem_cons_of_mem _ member),
              fun member => line (List.mem_cons_of_mem _ member)⟩, rfl⟩

theorem lazyRun_eq_some {text run : List Char} : lazyRun text = some run ↔
    (∃ after, text = run ++ '@' :: after) ∧ run ≠ [] ∧ '\n' ∉ run ∧ '@' ∉ run.tail := by
  cases text with
  | nil => simp [lazyRun]
  | cons c rest =>
    rw [lazyRun]
    by_cases newline : c = '\n'
    · rw [if_pos newline]
      refine ⟨fun none => (by cases none), fun ⟨⟨after, split⟩, nonempty, line, _⟩ => ?_⟩
      cases run with
      | nil => exact absurd rfl nonempty
      | cons d tail => exact absurd ((List.cons.inj split).1 ▸ newline ▸ List.mem_cons_self) line
    · rw [if_neg newline, Option.map_eq_some_iff]
      constructor
      · rintro ⟨tail, found, rfl⟩
        obtain ⟨⟨after, split⟩, free, line⟩ := untilAt_eq_some.mp found
        refine ⟨⟨after, by rw [split]; rfl⟩, List.cons_ne_nil _ _, ?_, free⟩
        exact fun member => (List.mem_cons.mp member).elim (fun same => newline same.symm) line
      · rintro ⟨⟨after, split⟩, nonempty, line, free⟩
        cases run with
        | nil => exact absurd rfl nonempty
        | cons d tail =>
          obtain ⟨rfl, tails⟩ := List.cons.inj split
          exact ⟨tail, untilAt_eq_some.mpr ⟨⟨after, tails⟩, free, fun member => line (List.mem_cons_of_mem _ member)⟩, rfl⟩

theorem untilAt_isSome (run after : List Char) (line : '\n' ∉ run) : (untilAt (run ++ '@' :: after)).isSome = true := by
  induction run with
  | nil => rfl
  | cons c tail ih =>
    have later := ih fun member => line (List.mem_cons_of_mem _ member)
    have here : c ≠ '\n' := fun same => line (same ▸ List.mem_cons_self)
    rw [List.cons_append, untilAt, if_neg here]
    split
    · rfl
    · rw [Option.isSome_map, later]

theorem lazyRun_isSome {text : List Char} : (lazyRun text).isSome = true ↔ Catches text := by
  constructor
  · intro some
    obtain ⟨run, found⟩ := Option.isSome_iff_exists.mp some
    obtain ⟨⟨after, split⟩, nonempty, line, -⟩ := lazyRun_eq_some.mp found
    exact ⟨run, after, split, nonempty, line⟩
  · rintro ⟨run, after, rfl, nonempty, line⟩
    cases run with
    | nil => exact absurd rfl nonempty
    | cons c tail =>
      have here : c ≠ '\n' := fun same => line (same ▸ List.mem_cons_self)
      rw [List.cons_append, lazyRun, if_neg here, Option.isSome_map]
      exact untilAt_isSome tail after fun member => line (List.mem_cons_of_mem _ member)

/-- No `<` in the first part catches, in the text as a whole. -/
def Quiet (before text : List Char) : Prop :=
  ∀ front back, before = front ++ '<' :: back → ¬ Catches (back ++ text)

theorem quiet_cons {c : Char} {before text : List Char} :
    Quiet (c :: before) text ↔ (c = '<' → ¬ Catches (before ++ text)) ∧ Quiet before text := by
  constructor
  · intro quiet
    refine ⟨?_, fun front back split => quiet (c :: front) back (by rw [split]; rfl)⟩
    rintro rfl
    exact quiet [] before rfl
  · rintro ⟨here, later⟩ front back split
    cases front with
    | nil =>
      obtain ⟨rfl, rfl⟩ := List.cons.inj split
      exact here rfl
    | cons d tail => exact later tail back (List.cons.inj split).2

/-- The run is what the first `<` that catches anything catches. -/
def Captured (text run : List Char) : Prop :=
  ∃ before after, text = before ++ '<' :: (run ++ '@' :: after) ∧ Quiet before ('<' :: (run ++ '@' :: after)) ∧
    run ≠ [] ∧ '\n' ∉ run ∧ '@' ∉ run.tail

theorem captured_bracket {rest run : List Char} : Captured ('<' :: rest) run ↔
    lazyRun rest = some run ∨ ¬ Catches rest ∧ Captured rest run := by
  constructor
  · rintro ⟨before, after, split, quiet, nonempty, line, free⟩
    cases before with
    | nil => exact .inl (lazyRun_eq_some.mpr ⟨⟨after, (List.cons.inj split).2⟩, nonempty, line, free⟩)
    | cons c tail =>
      obtain ⟨bracket, rests⟩ := List.cons.inj split
      obtain ⟨here, later⟩ := quiet_cons.mp quiet
      exact .inr ⟨rests ▸ here bracket.symm, tail, after, rests, later, nonempty, line, free⟩
  · rintro (found | ⟨quiet, before, after, split, later, nonempty, line, free⟩)
    · obtain ⟨⟨after, split⟩, nonempty, line, free⟩ := lazyRun_eq_some.mp found
      refine ⟨[], after, by rw [split]; rfl, fun front back none => ?_, nonempty, line, free⟩
      exact absurd none (by simp)
    · exact ⟨'<' :: before, after, by rw [split]; rfl, quiet_cons.mpr ⟨fun _ => split ▸ quiet, later⟩, nonempty, line, free⟩

theorem captured_other {c : Char} {rest run : List Char} (other : c ≠ '<') :
    Captured (c :: rest) run ↔ Captured rest run := by
  constructor
  · rintro ⟨before, after, split, quiet, nonempty, line, free⟩
    cases before with
    | nil => exact absurd (List.cons.inj split).1 other
    | cons d tail => exact ⟨tail, after, (List.cons.inj split).2, (quiet_cons.mp quiet).2, nonempty, line, free⟩
  · rintro ⟨before, after, split, quiet, nonempty, line, free⟩
    exact ⟨c :: before, after, by rw [split]; rfl, quiet_cons.mpr ⟨fun same => absurd same other, quiet⟩, nonempty,
      line, free⟩

theorem findAuthor_eq_some {text run : List Char} : findAuthor text = some run ↔ Captured text run := by
  induction text with
  | nil =>
    refine ⟨fun none => (by cases none), fun ⟨before, after, split, _⟩ => ?_⟩
    exact absurd split (by simp)
  | cons c rest ih =>
    rw [findAuthor]
    by_cases bracket : c = '<'
    · rw [if_pos bracket, bracket, captured_bracket, ← ih, ← lazyRun_isSome]
      cases lazyRun rest <;> simp
    · rw [if_neg bracket, captured_other bracket, ih]

theorem findAuthor_isSome {back : List Char} (catches : Catches back) (front : List Char) :
    (findAuthor (front ++ '<' :: back)).isSome = true := by
  induction front with
  | nil => rw [List.nil_append, findAuthor, if_pos rfl, Option.isSome_or, lazyRun_isSome.mpr catches, Bool.true_or]
  | cons c tail ih =>
    rw [List.cons_append, findAuthor]
    split
    · rw [Option.isSome_or, ih, Bool.or_true]
    · exact ih

/-- In `name <uid@burble.local>` the first `<` that an `@` follows on the same line, after one
character at least, is directly followed by the user id and an `@`, and the user id has a
character, no newline, and no `@` but for its first character. -/
def ReadsBack (displayName userId : String) : Prop :=
  Captured (fromHeader displayName userId).toList userId.toList

theorem fromHeader_toList (displayName userId : String) : (fromHeader displayName userId).toList =
    (displayName.toList ++ [' ']) ++ '<' :: (userId.toList ++ '@' :: "burble.local>".toList) := by
  simp [fromHeader, toString]

/-- The author is read back exactly then. -/
theorem extractAuthor_eq_iff (displayName userId : String) :
    extractAuthor (fromHeader displayName userId) = userId ↔ ReadsBack displayName userId := by
  rw [ReadsBack, ← findAuthor_eq_some, extractAuthor]
  cases found : findAuthor (fromHeader displayName userId).toList with
  | some run =>
    dsimp only
    rw [Option.some.injEq, ← String.toList_inj, String.toList_ofList]
  | none =>
    -- were the id `unknown` itself, it would be captured
    refine ⟨fun unknown => ?_, fun none => (by cases none)⟩
    dsimp only at unknown
    subst unknown
    have catches : Catches ("unknown".toList ++ '@' :: "burble.local>".toList) :=
      ⟨_, _, rfl, by decide, by decide⟩
    have some := findAuthor_isSome catches (displayName.toList ++ [' '])
    rw [← fromHeader_toList, found] at some
    cases some

/-- Ordinary ids and names without an angle bracket are read back. -/
theorem readsBack_of_plain {displayName userId : String} (name : '<' ∉ displayName.toList) (nonempty : userId ≠ "")
    (line : '\n' ∉ userId.toList) (free : '@' ∉ userId.toList) : ReadsBack displayName userId := by
  refine ⟨displayName.toList ++ [' '], "burble.local>".toList, fromHeader_toList .., ?_, ?_, line, ?_⟩
  · intro front back split
    have member : '<' ∈ displayName.toList ++ [' '] := by rw [split]; simp
    rcases List.mem_append.mp member with inside | space
    · exact absurd inside name
    · exact absurd space (by decide)
  · exact fun none => nonempty (String.toList_inj.mp none)
  · exact fun member => free (List.mem_of_mem_tail member)

/-- The posts of a sequence of requests that go to a room. -/
def postsTo (roomId : String) (requests : List Request) : List PostCall :=
  requests.filterMap fun request =>
    match request with
    | .post call => if call.roomId = roomId then some call else none
    | .pin _ _ => none

/-- The post as Vext sees it. -/
def PostCall.toPost (call : PostCall) : Post := ⟨call.body, call.userId, call.timestamp, none⟩

variable (crypto : ServerCrypto)

/-- The chain after some posts. -/
def chainAfter (chainState : ChainState) : List PostCall → ChainState
  | [] => chainState
  | call :: rest =>
    chainAfter (createHeader crypto call.body call.userId call.timestamp chainState none).2 rest

/-- The articles of some posts, from a state of the chain on. -/
def articlesFrom (newsgroup : String) (chainState : ChainState) : List PostCall → List Article
  | [] => []
  | call :: rest =>
    let (vextHeader, newChainState) := createHeader crypto call.body call.userId call.timestamp chainState none
    { messageId := call.messageId, subject := call.opts.subject.getD "",
      sender := fromHeader call.displayName call.userId, date := call.timestamp, body := call.body,
      references := call.opts.replyTo.toList, newsgroup, xVextHeader := some vextHeader,
      xVextHash := vextHeader.articleHash } :: articlesFrom newsgroup newChainState rest

variable {crypto}

theorem chainAfter_append (chainState : ChainState) (calls : List PostCall) (call : PostCall) :
    chainAfter crypto chainState (calls ++ [call]) =
      (createHeader crypto call.body call.userId call.timestamp (chainAfter crypto chainState calls) none).2 := by
  induction calls generalizing chainState with
  | nil => rfl
  | cons first rest ih => exact ih _

theorem articlesFrom_append (newsgroup : String) (chainState : ChainState) (calls : List PostCall) (call : PostCall) :
    articlesFrom crypto newsgroup chainState (calls ++ [call]) = articlesFrom crypto newsgroup chainState calls ++
      articlesFrom crypto newsgroup (chainAfter crypto chainState calls) [call] := by
  induction calls generalizing chainState with
  | nil => rfl
  | cons first rest ih => exact congrArg _ (ih _)

def newsgroupOf (roomId : String) : String := s!"burble.room.{roomId}"

theorem newsgroupOf_inj {roomId other : String} (same : newsgroupOf roomId = newsgroupOf other) : roomId = other := by
  have texts := congrArg String.toList same
  simp only [newsgroupOf, toString, String.toList_append] at texts
  exact String.toList_inj.mp (List.append_cancel_left texts)

/-- Each room's articles and chain are those of the posts to it. -/
structure Backend.Holds (crypto : ServerCrypto) (s : Backend) (requests : List Request) : Prop where
  unmapped : s.roomMap = ∅
  chains : ∀ roomId, s.chainOf roomId = chainAfter crypto (initChain roomId) (postsTo roomId requests)
  stored : ∀ roomId, ((s.articles.lookup (newsgroupOf roomId)).getD []).reverse =
    articlesFrom crypto (newsgroupOf roomId) (initChain roomId) (postsTo roomId requests)

namespace Backend
variable {s : Backend} {requests : List Request}

theorem Holds.post (holds : s.Holds crypto requests) (call : PostCall) :
    (s.post crypto call).Holds crypto (requests ++ [.post call]) := by
  have group : s.roomToNewsgroup call.roomId = newsgroupOf call.roomId := by
    rw [roomToNewsgroup, holds.unmapped]
    rfl
  have posts (roomId : String) : postsTo roomId (requests ++ [.post call]) =
      postsTo roomId requests ++ if call.roomId = roomId then [call] else [] := by
    rw [postsTo, List.filterMap_append]
    by_cases here : call.roomId = roomId
    · rw [if_pos here]
      exact congrArg _ (by simp [here])
    · rw [if_neg here]
      exact congrArg _ (by simp [here])
  refine ⟨holds.unmapped, fun roomId => ?_, fun roomId => ?_⟩
  · rw [posts]
    by_cases here : call.roomId = roomId
    · subst here
      rw [if_pos rfl, chainAfter_append, ← holds.chains, chainOf, Backend.post]
      simp only [AList.lookup_insert, Option.getD_some]
    · rw [if_neg here, List.append_nil, ← holds.chains, chainOf, Backend.post]
      simp only [AList.lookup_insert_ne (Ne.symm here)]
      rfl
  · rw [posts]
    by_cases here : call.roomId = roomId
    · subst here
      rw [if_pos rfl, articlesFrom_append, ← holds.stored, ← holds.chains, Backend.post, group]
      simp only [AList.lookup_insert, Option.getD_some, List.reverse_cons]
      rfl
    · have apart : newsgroupOf roomId ≠ newsgroupOf call.roomId := fun same => here (newsgroupOf_inj same).symm
      rw [if_neg here, List.append_nil, ← holds.stored, Backend.post]
      simp only [group, AList.lookup_insert_ne apart]

theorem holds_of_requests (crypto : ServerCrypto) (requests : List Request) :
    (requests.foldl (fun s request => s.handle crypto request) init).Holds crypto requests := by
  induction requests using List.reverseRecOn with
  | nil => exact ⟨rfl, fun _ => rfl, fun _ => rfl⟩
  | append_singleton past request ih =>
    rw [List.foldl_append, List.foldl_cons, List.foldl_nil]
    cases request with
    | post call => exact ih.post call
    | pin roomId messageId =>
      have posts (room : String) : postsTo room (past ++ [.pin roomId messageId]) = postsTo room past := by
        rw [postsTo, List.filterMap_append]
        exact List.append_nil _
      exact ⟨ih.unmapped, fun room => by rw [posts]; exact ih.chains room, fun room => by rw [posts]; exact ih.stored room⟩

end Backend

/-- The articles of some posts, as the verifier reads them. -/
def readArticles (articles : List Article) : List FeedArticle :=
  articles.filterMap fun article =>
    article.xVextHeader.map fun header => ⟨article.body, extractAuthor article.sender, article.date, header⟩

theorem readArticles_headers (newsgroup : String) (chainState : ChainState) (calls : List PostCall) :
    (readArticles (articlesFrom crypto newsgroup chainState calls)).map FeedArticle.header =
      headersFrom crypto chainState (calls.map PostCall.toPost) := by
  induction calls generalizing chainState with
  | nil => rfl
  | cons call rest ih => exact congrArg _ (ih _)

theorem readArticles_texts (newsgroup : String) (chainState : ChainState) (calls : List PostCall) :
    (readArticles (articlesFrom crypto newsgroup chainState calls)).map FeedArticle.text =
      calls.map fun call => articleText call.body (extractAuthor (fromHeader call.displayName call.userId)) call.timestamp := by
  induction calls generalizing chainState with
  | nil => rfl
  | cons call rest ih => exact congrArg _ (ih _)

theorem articleText_author_inj {body authorId other : String} {timestamp : DateTime}
    (same : articleText body authorId timestamp = articleText body other timestamp) : authorId = other := by
  have texts := congrArg String.toList same
  rw [articleText_toList, articleText_toList] at texts
  exact String.toList_inj.mp (List.append_cancel_right (List.cons.inj (List.append_cancel_left texts)).2)

/-- The feed verifies exactly if each author is extracted from the article's `from` field. -/
theorem verifies_iff_extracted (injective : Function.Injective crypto.sha256)
    (signs : ∀ message, crypto.verify message (crypto.sign message) = true) (requests : List Request)
    (roomId : String) :
    (requests.foldl (fun s request => s.handle crypto request) Backend.init).verifyFeed crypto roomId =
        .ok (postsTo roomId requests).length ↔
      ∀ call ∈ postsTo roomId requests, extractAuthor (fromHeader call.displayName call.userId) = call.userId := by
  have holds := Backend.holds_of_requests crypto requests
  generalize requests.foldl (fun s request => s.handle crypto request) Backend.init = s at holds ⊢
  have group : s.roomToNewsgroup roomId = newsgroupOf roomId := by
    rw [Backend.roomToNewsgroup, holds.unmapped]
    rfl
  have feed : s.feed roomId = readArticles
      (articlesFrom crypto (newsgroupOf roomId) (initChain roomId) (postsTo roomId requests)) := by
    rw [Backend.feed, group, holds.stored]
    rfl
  have headers : (readArticles (articlesFrom crypto _ _ _)).map FeedArticle.header = _ :=
    readArticles_headers (newsgroupOf roomId) (initChain roomId) (postsTo roomId requests)
  have texts : (readArticles (articlesFrom crypto _ _ _)).map FeedArticle.text = _ :=
    readArticles_texts (newsgroupOf roomId) (initChain roomId) (postsTo roomId requests)
  rw [← feed] at headers texts
  have size : (s.feed roomId).length = (postsTo roomId requests).length := by
    rw [← List.length_map FeedArticle.text, texts, List.length_map]
  have posted : ((postsTo roomId requests).map PostCall.toPost).map Post.text =
      (postsTo roomId requests).map fun call => articleText call.body call.userId call.timestamp := by
    rw [List.map_map]
    rfl
  have agrees : (s.feed roomId).map FeedArticle.text = ((postsTo roomId requests).map PostCall.toPost).map Post.text ↔
      ∀ call ∈ postsTo roomId requests, extractAuthor (fromHeader call.displayName call.userId) = call.userId := by
    rw [texts, posted, List.map_inj_left]
    refine forall₂_congr fun call _ => ?_
    exact ⟨articleText_author_inj, fun same => by rw [same]⟩
  rw [← agrees, Backend.verifyFeed]
  constructor
  · exact fun verified => texts_of_verifyFrom injective headers (fun header _ => signs _) verified
  · intro same
    rw [← size, ← Nat.zero_add (s.feed roomId).length]
    exact verifyFrom_headers (initChain roomId) _ same headers (fun header _ => signs _) 0

/-- After any requests, a room's feed verifies with as many messages as were posted exactly
if the author of every post is read back from its article. -/
theorem posted_room_verifies_iff (injective : Function.Injective crypto.sha256)
    (signs : ∀ message, crypto.verify message (crypto.sign message) = true) (requests : List Request)
    (roomId : String) :
    (requests.foldl (fun s request => s.handle crypto request) Backend.init).verifyFeed crypto roomId =
        .ok (postsTo roomId requests).length ↔
      ∀ call ∈ postsTo roomId requests, ReadsBack call.displayName call.userId := by
  rw [verifies_iff_extracted injective signs]
  exact forall₂_congr fun call _ => extractAuthor_eq_iff call.displayName call.userId

/-- Texts are their own digests and signatures. -/
def openCrypto : ServerCrypto := ⟨textDigest, utf8, fun message signature => decide (signature = utf8 message)⟩

theorem openCrypto_injective : Function.Injective openCrypto.sha256 :=
  fun _ _ same => utf8_injective (List.cons.inj same).2

theorem openCrypto_signs (message : String) : openCrypto.verify message (openCrypto.sign message) = true :=
  decide_eq_true rfl

/-- A post under a display name. -/
def posting (displayName : String) : Request :=
  .post ⟨"lounge", "ann", displayName, "hello", ⟨none, none⟩, noon, "<0a1b@burble.local>"⟩

/-- Ann's heart is taken for the bracket of her address. -/
theorem hearted_post_unverified : ¬ ∀ (requests : List Request) (roomId : String),
    (requests.foldl (fun s request => s.handle openCrypto request) Backend.init).verifyFeed openCrypto roomId =
      .ok (postsTo roomId requests).length := by
  intro always
  have read := (verifies_iff_extracted openCrypto_injective openCrypto_signs [posting "Ann <3"] "lounge").mp (always _ _)
  exact absurd read (by decide +kernel)

theorem posted_room_verifies_iff_ann :
    (([posting "Ann"].foldl (fun s request => s.handle openCrypto request) Backend.init).verifyFeed openCrypto "lounge" =
      .ok 1) := by
  refine (posted_room_verifies_iff openCrypto_injective openCrypto_signs [posting "Ann"] "lounge").mpr ?_
  intro call member
  rw [List.mem_singleton.mp (show call ∈ [_] from member)]
  exact readsBack_of_plain (by decide) (by decide) (by decide) (by decide)

end Burble.Text
