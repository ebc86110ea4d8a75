import Burble.Bolt.PacketHandling

namespace Burble.Bolt
variable {config : Config} {secret : String} {w after : World} {reads : Reads} {src : String} {data : List UInt8}

/-- A careful packet leaves the table, prunes it, or has the nonce of the bolt it authorises recorded. -/
theorem receive_cases (enabled : config.enabled = some secret)
    (careful : Careful config secret w (.receive reads src data)) :
    (acceptedStamp config secret reads data w.nonces = none ∧
      ((handlePacket config reads src data w.nonces).2 = w.nonces ∨
        (handlePacket config reads src data w.nonces).2 = prune reads.record w.nonces)) ∨
    ∃ stamp, carriedStamp config secret data = some stamp ∧ withinWindow reads.window stamp.ts = true ∧
      (∀ expiry, w.nonces.lookup stamp.nonce = some expiry → expiry < reads.record) ∧
      acceptedStamp config secret reads data w.nonces = some stamp ∧
      (handlePacket config reads src data w.nonces).2 =
        (prune reads.record w.nonces).insert stamp.nonce (stamp.ts + windowMs) := by
  obtain ⟨readable, valid⟩ := careful
  rcases handlePacket_cases enabled reads src data w.nonces with
    ⟨none, ⟨_, handled, _⟩, _⟩ | ⟨none, raises, handled, _⟩ | ⟨stamp, carried, inTime, decided⟩
  · exact .inl ⟨none, .inl (by rw [handled])⟩
  · exact .inl ⟨none, .inl (by rw [handled, readable raises])⟩
  · rcases decided with ⟨none, handled, _⟩ | ⟨some, free, packet, decoded, handled⟩
    · exact .inl ⟨none, .inr (by rw [handled])⟩
    · have named := (valid stamp carried inTime).2 free
      rcases dispatch_cases reads src
          ((prune reads.record w.nonces).insert stamp.nonce (stamp.ts + windowMs)) decoded carried with
        ⟨notification, _, _, announced⟩ | ⟨unnamed, _⟩
      · exact .inr ⟨stamp, carried, inTime, free, some, by rw [handled, announced]⟩
      · rw [named] at unnamed
        cases unnamed

/-- Signed nonces and senders have no colon, accepted stamps are signed and differ, and the nonce of
an accepted stamp stays on record until its window is over. -/
structure World.Sound (w : World) : Prop where
  plainNonce : ∀ stamp ∈ w.signed, ':' ∉ stamp.nonce.toList
  plainSender : ∀ stamp ∈ w.signed, ':' ∉ stamp.sender.toList
  signed : ∀ stamp ∈ w.accepted, stamp ∈ w.signed
  once : (w.accepted.map Stamp.text).Nodup
  onRecord : ∀ stamp ∈ w.accepted,
    stamp.ts + windowMs < w.clock ∨ w.nonces.lookup stamp.nonce = some (stamp.ts + windowMs)

theorem World.Sound.start (clock : Int) : (World.init clock).Sound where
  plainNonce _ member := absurd member List.not_mem_nil
  plainSender _ member := absurd member List.not_mem_nil
  signed _ member := absurd member List.not_mem_nil
  once := .nil
  onRecord _ member := absurd member List.not_mem_nil

theorem World.Sound.sign (sound : w.Sound) {ts : Int} {random : List UInt8} {payload : JsonMap}
    (careful : Careful config secret w (.sign ts random payload)) :
    (w.next config secret (.sign ts random payload)).Sound := by
  have kept {stamp : Stamp} (member : stamp ∈ w.signed) : stamp ∈ w.signed ++ (signedStamp ts random payload).toList :=
    List.mem_append_left _ member
  have fresh {stamp : Stamp} (member : stamp ∈ (signedStamp ts random payload).toList) :
      ':' ∉ stamp.nonce.toList ∧ ':' ∉ stamp.sender.toList := by
    rw [Option.mem_toList, signedStamp, Option.map_eq_some_iff] at member
    obtain ⟨sender, atSender, rfl⟩ := member
    exact ⟨Base64.urlEncode64_free (by decide) random, careful sender atSender⟩
  refine ⟨fun stamp member => ?_, fun stamp member => ?_, fun stamp member => kept (sound.signed stamp member),
    sound.once, sound.onRecord⟩
  · rcases List.mem_append.mp member with old | new
    · exact sound.plainNonce stamp old
    · exact (fresh new).1
  · rcases List.mem_append.mp member with old | new
    · exact sound.plainSender stamp old
    · exact (fresh new).2

/-- An entry that is pruned has run out. -/
theorem onRecord_pruned {stamp : Stamp} {clock now : Int} {nonces : Nonces} (later : clock ≤ now)
    (held : stamp.ts + windowMs < clock ∨ nonces.lookup stamp.nonce = some (stamp.ts + windowMs)) :
    stamp.ts + windowMs < now ∨ (prune now nonces).lookup stamp.nonce = some (stamp.ts + windowMs) := by
  rcases held with past | entry
  · exact .inl (by omega)
  · by_cases live : now ≤ stamp.ts + windowMs
    · right
      rw [prune_lookup, entry, Option.filter_some_pos (by simpa using live)]
    · exact .inl (Int.not_le.mp live)

theorem World.Sound.receive (sound : w.Sound) (enabled : config.enabled = some secret)
    (possible : Possible config secret w (.receive reads src data))
    (careful : Careful config secret w (.receive reads src data)) :
    (w.next config secret (.receive reads src data)).Sound := by
  obtain ⟨since, onward, unforged⟩ := possible
  have later : w.clock ≤ reads.record := by omega
  rcases receive_cases enabled careful with ⟨none, table⟩ | ⟨stamp, carried, inTime, free, some, table⟩
  · have same : w.accepted ++ (acceptedStamp config secret reads data w.nonces).toList = w.accepted := by
      rw [none, Option.toList_none, List.append_nil]
    refine ⟨sound.plainNonce, sound.plainSender, ?_, ?_, ?_⟩
    · simp only [World.next, same]
      exact sound.signed
    · simp only [World.next, same]
      exact sound.once
    · intro earlier member
      simp only [World.next, same] at member ⊢
      have held := sound.onRecord earlier member
      rcases table with table | table
      · rw [table]
        exact held.imp_left fun past => by omega
      · rw [table]
        exact onRecord_pruned later held
  -- the stamp is signed, and its text is read only one way
  have isSigned : stamp ∈ w.signed := by
    obtain ⟨signed, member, same⟩ := unforged stamp carried
    rwa [← Stamp.text_inj (sound.plainNonce _ member) (sound.plainSender _ member) same]
  have early : reads.window ≤ stamp.ts + windowMs := by
    simp only [withinWindow, decide_eq_true_eq] at inTime
    omega
  -- an earlier bolt with the stamp would still be on record, and would be found
  have unused : stamp ∉ w.accepted := by
    intro used
    rcases sound.onRecord stamp used with past | entry
    · omega
    · have inside := ((careful.2 stamp carried inTime).1 (by rw [entry]; rfl))
      have gone := free _ entry
      omega
  refine ⟨sound.plainNonce, sound.plainSender, ?_, ?_, ?_⟩
  · intro other member
    simp only [World.next, some, Option.toList_some, List.mem_append, List.mem_singleton] at member
    rcases member with before | rfl
    · exact sound.signed other before
    · exact isSigned
  · simp only [World.next, some, Option.toList_some, List.map_append, List.map_singleton]
    refine List.nodup_append.mpr ⟨sound.once, List.nodup_singleton _, ?_⟩
    rintro text before _ member rfl
    obtain ⟨earlier, used, same⟩ := List.mem_map.mp before
    rw [List.mem_singleton] at member
    have isSame := Stamp.text_inj (sound.plainNonce _ isSigned) (sound.plainSender _ isSigned)
      (member.symm.trans same.symm)
    exact unused (isSame ▸ used)
  · intro other member
    simp only [World.next, some, Option.toList_some, List.mem_append, List.mem_singleton] at member ⊢
    rw [table, FiniteMap.lookup_insert_if]
    by_cases sameNonce : other.nonce = stamp.nonce
    · rw [if_pos sameNonce]
      rcases member with before | rfl
      · left
        rcases sound.onRecord other before with past | entry
        · omega
        · exact free _ (sameNonce ▸ entry)
      · exact .inr rfl
    · rw [if_neg sameNonce]
      rcases member with before | rfl
      · exact onRecord_pruned later (sound.onRecord other before)
      · exact absurd rfl sameNonce

/-- Over a run with no signed colon, no replay caught by the end of its window, and no nonce lost to
a crash: each tag authorises one bolt at most, and what is accepted was signed. -/
theorem single_use_of_careful (enabled : config.enabled = some secret) {clock : Int} {events : List Event}
    (run : Run (Guarded (Careful config secret) (Takes config secret)) (World.init clock) events w) : w.SingleUse := by
  have sound : w.Sound := by
    refine run.invariant (World.Sound.start clock) fun {before event after} sound taken => ?_
    obtain ⟨careful, possible, rfl⟩ := taken
    cases event with
    | sign ts random payload => exact sound.sign careful
    | receive reads src data => exact sound.receive enabled possible careful
  exact ⟨sound.once, sound.signed⟩

section Runs

/-- Sixteen sums over the text, in the place of HMAC-SHA256. -/
def checksum : Hmac := fun secret text =>
  (List.range 16).map fun i =>
    ((secret ++ text).toList.foldl (fun sum char => (sum * 31 + char.toNat + i) % 256) i).toUInt8

def asciiBytes (text : String) : List UInt8 := text.toList.map fun char => char.toNat.toUInt8

/-- The JSON texts of the runs below and what they decode to. -/
structure Sample where
  text : String
  json : Json

/-- A bolt from `sender` that shows `nonce` with the MAC of `signed`, all of the time 0. -/
def sampleBolt (sender nonce : String) (signed : Stamp) : Sample :=
  let mac := computeMac checksum "s3cret" signed
  { text := "\x7b\"from\":\"" ++ sender ++ "\",\"spa\":\x7b\"ts\":0,\"nonce\":\"" ++ nonce ++ "\",\"mac\":\"" ++ mac ++
      "\"\x7d\x7d",
    json := .object [("from", .string sender),
      ("spa", .object [("ts", .integer 0), ("nonce", .string nonce), ("mac", .string mac)])] }

def zeros : List UInt8 := List.replicate 12 0

def plainStamp : Stamp := ⟨0, Base64.urlEncode64 zeros, "alice"⟩
def colonStamp : Stamp := ⟨0, Base64.urlEncode64 zeros, "a:b"⟩

def plainBolt : Sample := sampleBolt "alice" plainStamp.nonce plainStamp
def colonBolt : Sample := sampleBolt "a:b" colonStamp.nonce colonStamp

/-- The bolt of `a:b` with the first part of the sender moved into the nonce. -/
def shiftedBolt : Sample := sampleBolt "b" (colonStamp.nonce ++ ":a") colonStamp

def noObject : Sample := ⟨"[]", .array []⟩

/-- A listener with a secret, and a JSON decoder for the given texts. -/
def sampleConfig (samples : List Sample) : Config where
  secret := some "s3cret"
  hmac := checksum
  decodeJson bytes := (samples.find? fun sample => asciiBytes sample.text = bytes).map Sample.json

def runConfig : Config := sampleConfig [plainBolt, colonBolt, shiftedBolt, noObject]

def Sample.packet (sample : Sample) : List UInt8 :=
  (encode (fun _ => asciiBytes sample.text) sample.json ⟨none, none, false, false⟩).getD []

/-- The packet of a sample arrives, with the two clock readings of its verification. -/
def arrives (first second : Int) (sample : Sample) : Event :=
  .receive ⟨first, second, second⟩ "10.0.0.9" sample.packet

def signs (sender : String) : Event := .sign 0 zeros (AList.singleton "from" (.string sender))

/-- One signing, and two bolts accepted for it: by moving the colon of a sender, by the end of the
window between two clock readings, and by a crash of the listener in between. -/
def shifting : List Event := [signs "a:b", arrives 0 0 colonBolt, arrives 1 1 shiftedBolt]
def straddling : List Event := [signs "alice", arrives 0 0 plainBolt, arrives 30000 30001 plainBolt]
def crashing : List Event := [signs "alice", arrives 0 0 plainBolt, arrives 1 1 noObject, arrives 2 2 plainBolt]

/-- Take the events that are possible. -/
def World.advance (config : Config) (secret : String) (w : World) (event : Event) : Option World :=
  if Possible config secret w event then some (w.next config secret event) else none

theorem advance_takes {event : Event} (taken : w.advance config secret event = some after) :
    Takes config secret w event after := by
  unfold World.advance at taken
  split at taken
  next possible => exact ⟨possible, Option.some.inj taken⟩
  next => cases taken

theorem World.advance_run {clock : Int} {events : List Event}
    (played : play (World.advance config secret) events (World.init clock) = some w) :
    Run (Takes config secret) (World.init clock) events w :=
  (play_run played).mono advance_takes

/-- Each of the three runs is possible, and leaves a log that is not single use. -/
theorem log_repeats : ∀ events ∈ [shifting, straddling, crashing],
    ∃ w, Run (Takes runConfig "s3cret") (World.init 0) events w ∧ ¬ w.SingleUse := by
  have broken : ∀ events ∈ [shifting, straddling, crashing],
      ((play (World.advance runConfig "s3cret") events (World.init 0)).any fun w => !decide w.SingleUse) = true := by
    decide +kernel
  intro events member
  obtain ⟨w, played, twice⟩ := (Option.any_eq_true ..).mp (broken events member)
  exact ⟨w, World.advance_run played, by simpa using twice⟩

/-- In each of the three runs one tag authorises two bolts. -/
theorem tag_used_twice :
    (∃ w, Run (Takes runConfig "s3cret") (World.init 0) shifting w ∧ ¬ w.SingleUse) ∧
    (∃ w, Run (Takes runConfig "s3cret") (World.init 0) straddling w ∧ ¬ w.SingleUse) ∧
    (∃ w, Run (Takes runConfig "s3cret") (World.init 0) crashing w ∧ ¬ w.SingleUse) :=
  ⟨log_repeats _ (by simp), log_repeats _ (by simp), log_repeats _ (by simp)⟩

/-- A bolt is accepted, and its replay at the very end of the window is refused. -/
def replaying : List Event := [signs "alice", arrives 0 0 plainBolt, arrives 30000 30000 plainBolt]

theorem single_use_of_careful_replaying :
    ∃ w, Run (Guarded (Careful runConfig "s3cret") (Takes runConfig "s3cret")) (World.init 0) replaying w ∧
      w.accepted = [plainStamp] ∧ w.SingleUse := by
  have once : ((play (fun w event => if Careful runConfig "s3cret" w event then
      World.advance runConfig "s3cret" w event else none) replaying (World.init 0)).any fun w =>
        decide (w.accepted = [plainStamp])) = true := by decide +kernel
  obtain ⟨w, played, accepted⟩ := (Option.any_eq_true ..).mp once
  have run : Run (Guarded (Careful runConfig "s3cret") (Takes runConfig "s3cret")) (World.init 0) replaying w :=
    (play_run_guarded played).mono fun taken => ⟨taken.1, advance_takes taken.2⟩
  exact ⟨w, run, by simpa using accepted, single_use_of_careful (by decide) run⟩

end Runs
end Burble.Bolt
