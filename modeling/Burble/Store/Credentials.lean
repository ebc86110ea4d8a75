import Burble.Runs
import Burble.FiniteMap

namespace Burble.Store

abbrev OctadId := String

/-- The fields of a document's content that the magic links and the invites use. -/
structure Fields where
  email : Option String := none
  consumed : Option Bool := none
  token : Option String := none
  serverId : Option String := none
  maxUses : Option Int := none
  uses : Option Int := none
  deriving DecidableEq, Repr

/-- An octad of the document store: its name, the fields of its document and
its expiry, in microseconds. -/
structure Octad where
  name : String
  fields : Fields
  timestamp : Option Int
  deriving DecidableEq, Repr

structure Invite where
  token : String
  serverId : String
  maxUses : Option Int
  expiresAt : Int
  deriving DecidableEq, Repr

structure AcceptedInvite where
  token : Option String
  serverId : Option String
  maxUses : Int
  uses : Int
  deriving DecidableEq, Repr

inductive Refusal
  | invalidToken | expired | exhausted
  deriving DecidableEq, Repr

inductive Reply
  | email (email : Option String)
  | invite (invite : AcceptedInvite)
  | error (reason : Refusal)
  deriving DecidableEq, Repr

/-- The documents of the external store. -/
abbrev Octads := FiniteMap OctadId Octad

def magicName (token : String) : String := "magic:" ++ token

def inviteName (token : String) : String := "invite:" ++ token

/-- The input of `Octad.create` for a magic link, good for fifteen minutes. -/
def magicLinkOctad (downcase : String → String) (token email : String) (now : Int) : Octad where
  name := magicName token
  fields := { email := some (downcase email), consumed := some false }
  timestamp := some (now + 15 * 60 * 1000000)

def Invite.limit (invite : Invite) : Int := invite.maxUses.getD 1

def inviteOctad (invite : Invite) : Octad where
  name := inviteName invite.token
  fields := { token := some invite.token, serverId := some invite.serverId, maxUses := some invite.limit, uses := some 0 }
  timestamp := some invite.expiresAt

/-- What a search answers with: the octads named, as they are stored now. -/
def Octads.read (octads : Octads) (ids : List OctadId) : List (OctadId × Octad) :=
  ids.filterMap fun id => (octads.lookup id).map fun octad => (id, octad)

def findByName (results : List (OctadId × Octad)) (name : String) : Option (OctadId × Octad) :=
  results.find? fun result => decide (result.2.name = name)

/-- The octad a text search leads to. A search may fail, and it may miss octads. -/
def Octads.found (octads : Octads) (search : Option (List OctadId)) (name : String) : Option (OctadId × Octad) :=
  search.bind fun ids => findByName (octads.read ids) name

def expired (now : Int) : Option Int → Bool
  | none => true
  | some expiresAt => decide (expiresAt < now)

def markConsumed (fields : Fields) : Fields := { fields with consumed := some true }

/-- The reply to a consumption, and the update it sends. -/
abbrev Consumption := Reply × Option (OctadId × Fields)

def consumeMagicLink (now : Int) : Option (OctadId × Octad) → Consumption
  | none => (.error .invalidToken, none)
  | some (id, octad) =>
    if octad.fields.consumed = some true then (.error .invalidToken, none)
    else if expired now octad.timestamp then (.error .expired, none)
    else (.email octad.fields.email, some (id, markConsumed octad.fields))

def handleInviteResult (now : Int) : Option (OctadId × Octad) → Consumption
  | none => (.error .invalidToken, none)
  | some (id, octad) =>
    let fields := octad.fields
    let uses := fields.uses.getD 0
    let maxUses := fields.maxUses.getD 1
    if expired now octad.timestamp then (.error .expired, none)
    else if maxUses ≤ uses then (.error .exhausted, none)
    else (.invite ⟨fields.token, fields.serverId, maxUses, uses + 1⟩, some (id, { fields with uses := some (uses + 1) }))

/-- `Octad.update` where it succeeds. -/
def Octads.update (octads : Octads) (id : OctadId) (fields : Fields) : Octads :=
  match octads.lookup id with
  | some octad => octads.insert id { octad with fields }
  | none => octads

/-- What the calls of one consumption meet: the answer to the search, the
clock, and whether the store takes the update. -/
structure Meets where
  search : Option (List OctadId)
  now : Int
  applied : Bool

inductive Label
  | storeMagicLink (token email : String) (now : Int) (created : Option OctadId)
  | storeInvite (invite : Invite) (created : Option OctadId)
  | consumeMagicLink (token : String) (meets : Meets)
  | consumeInvite (token : String) (meets : Meets)

/-- The documents, and what has been reported of each: the uses a credential
was issued with, each success told to a caller, and each update that failed. -/
structure World where
  octads : Octads
  issued : FiniteMap OctadId Nat
  accepted : List OctadId
  lost : List OctadId

namespace World

def init : World := ⟨∅, ∅, [], []⟩

def create (w : World) (octad : Octad) (uses : Nat) : Option OctadId → Option World
  | none => some w
  | some id =>
    if w.octads.lookup id = none then
      some { w with octads := w.octads.insert id octad, issued := w.issued.insert id uses }
    else none

/-- A success is reported whether or not the store took the update. -/
def spend (w : World) (id : OctadId) (fields : Fields) (applied : Bool) : World where
  octads := if applied then w.octads.update id fields else w.octads
  issued := w.issued
  accepted := w.accepted ++ [id]
  lost := if applied then w.lost else w.lost ++ [id]

def consume (w : World) (consumption : Consumption) (applied : Bool) : World :=
  match consumption.2 with
  | none => w
  | some update => w.spend update.1 update.2 applied

def next (downcase : String → String) (w : World) : Label → Option World
  | .storeMagicLink token email now created => w.create (magicLinkOctad downcase token email now) 1 created
  | .storeInvite invite created => w.create (inviteOctad invite) invite.limit.toNat created
  | .consumeMagicLink token meets =>
    some (w.consume (consumeMagicLink meets.now (w.octads.found meets.search (magicName token))) meets.applied)
  | .consumeInvite token meets =>
    some (w.consume (handleInviteResult meets.now (w.octads.found meets.search (inviteName token))) meets.applied)

def Step (downcase : String → String) (w : World) (label : Label) (after : World) : Prop :=
  w.next downcase label = some after

end World
end Burble.Store

namespace Burble.Store

theorem magicName_ne_inviteName (token other : String) : magicName token ≠ inviteName other := by
  intro same
  have chars := congrArg String.toList same
  simp [magicName, inviteName, String.toList_append] at chars

/-- The uses an octad has on record. -/
def Octad.recorded (octad : Octad) : Nat :=
  if octad.fields.consumed = some true then 1 else (octad.fields.uses.getD 0).toNat

/-- An octad made by `store_magic_link` or `store_invite` for a number of uses, or an update of one. -/
inductive Octad.IsCredential : Octad → Nat → Prop
  | magicLink (token : String) (email : Option String) (consumed : Bool) (timestamp : Option Int) :
      IsCredential ⟨magicName token, { email, consumed := some consumed }, timestamp⟩ 1
  | invite (name : String) (token serverId : Option String) (maxUses : Int) (uses : Nat) (timestamp : Option Int) :
      IsCredential ⟨inviteName name, { token, serverId, maxUses := some maxUses, uses := some uses }, timestamp⟩
        maxUses.toNat

section Reads
variable {octads : Octads} {search : Option (List OctadId)} {name : String} {id : OctadId} {octad : Octad}

theorem Octads.found_sound (found : octads.found search name = some (id, octad)) :
    octads.lookup id = some octad ∧ octad.name = name := by
  obtain ⟨ids, _, first⟩ := Option.bind_eq_some_iff.mp found
  obtain ⟨other, _, read⟩ := List.mem_filterMap.mp (List.mem_of_find?_eq_some first)
  obtain ⟨stored, there, same⟩ := Option.map_eq_some_iff.mp read
  cases same
  exact ⟨there, by simpa using List.find?_some first⟩

/-- A consumption is refused, or it is a spending that the checks have passed. -/
theorem consumeMagicLink_cases (now : Int) (found : Option (OctadId × Octad)) :
    ((consumeMagicLink now found).2 = none ∧ ∀ result ∈ found, result.2.fields.consumed = some true ∨
      expired now result.2.timestamp = true) ∨
    ∃ id octad, found = some (id, octad) ∧ octad.fields.consumed ≠ some true ∧ expired now octad.timestamp = false ∧
      (consumeMagicLink now found).2 = some (id, markConsumed octad.fields) := by
  cases found with
  | none => exact .inl ⟨rfl, by simp⟩
  | some result =>
    obtain ⟨id, octad⟩ := result
    by_cases used : octad.fields.consumed = some true
    · exact .inl ⟨by simp [consumeMagicLink, used], by simp [used]⟩
    by_cases past : expired now octad.timestamp = true
    · exact .inl ⟨by simp [consumeMagicLink, used, past], by simp [past]⟩
    · exact .inr ⟨id, octad, rfl, used, by simpa using past, by simp [consumeMagicLink, used, past]⟩

theorem handleInviteResult_cases (now : Int) (found : Option (OctadId × Octad)) :
    ((handleInviteResult now found).2 = none ∧ ∀ result ∈ found, expired now result.2.timestamp = true ∨
      result.2.fields.maxUses.getD 1 ≤ result.2.fields.uses.getD 0) ∨
    ∃ id octad, found = some (id, octad) ∧ expired now octad.timestamp = false ∧
      octad.fields.uses.getD 0 < octad.fields.maxUses.getD 1 ∧
      (handleInviteResult now found).2 =
        some (id, { octad.fields with uses := some (octad.fields.uses.getD 0 + 1) }) := by
  cases found with
  | none => exact .inl ⟨rfl, by simp⟩
  | some result =>
    obtain ⟨id, octad⟩ := result
    by_cases past : expired now octad.timestamp = true
    · exact .inl ⟨by simp [handleInviteResult, past], by simp [past]⟩
    by_cases spent : octad.fields.maxUses.getD 1 ≤ octad.fields.uses.getD 0
    · exact .inl ⟨by simp [handleInviteResult, past, spent], by simp [spent]⟩
    · exact .inr ⟨id, octad, rfl, by simpa using past, by omega, by simp [handleInviteResult, past, spent]⟩

end Reads

namespace World

/-- Each credential has been reported spent at most as often as it was issued for. -/
def SingleUse (w : World) : Prop :=
  ∀ id uses, w.issued.lookup id = some uses → w.accepted.count id ≤ uses

/-- A credential that passes its checks has a use left when the updates of it that failed are counted
with the uses on record. -/
def Covered (w : World) : Label → Prop
  | .consumeMagicLink token meets =>
    ∀ found ∈ w.octads.found meets.search (magicName token),
      found.2.fields.consumed ≠ some true → expired meets.now found.2.timestamp = false → w.lost.count found.1 = 0
  | .consumeInvite token meets =>
    ∀ found ∈ w.octads.found meets.search (inviteName token),
      expired meets.now found.2.timestamp = false → found.2.fields.uses.getD 0 < found.2.fields.maxUses.getD 1 →
        found.2.fields.uses.getD 0 + w.lost.count found.1 < found.2.fields.maxUses.getD 1
  | _ => True

/-- What has been reported of an octad is on record, or its update was lost. -/
def Accounted (w : World) : Prop :=
  ∀ id, match w.octads.lookup id with
    | some octad => ∃ uses, w.issued.lookup id = some uses ∧ octad.IsCredential uses ∧
        w.accepted.count id = octad.recorded + w.lost.count id
    | none => w.issued.lookup id = none ∧ w.accepted.count id = 0 ∧ w.lost.count id = 0

variable {downcase : String → String} {w after : World}

theorem Accounted.create {octad : Octad} {uses : Nat} {created : Option OctadId} (accounted : w.Accounted)
    (isNew : octad.IsCredential uses) (unused : octad.recorded = 0) (made : w.create octad uses created = some after) :
    after.Accounted ∧ (w.SingleUse → after.SingleUse) := by
  cases created with
  | none => cases made; exact ⟨accounted, id⟩
  | some fresh =>
    obtain ⟨free, ⟨⟩⟩ := Option.ite_none_right_eq_some.mp made
    have nothing := accounted fresh
    rw [free] at nothing
    refine ⟨fun id => ?_, fun single id limit => ?_⟩
    · by_cases same : id = fresh
      · subst same
        simp only [AList.lookup_insert]
        exact ⟨uses, rfl, isNew, by rw [unused, nothing.2.1, nothing.2.2]⟩
      · simp only [AList.lookup_insert_ne same]
        exact accounted id
    · intro given
      by_cases same : id = fresh
      · subst same
        simp only [nothing.2.1, Nat.zero_le]
      · simp only [AList.lookup_insert_ne same] at given
        exact single id limit given

/-- One more success for an octad: either the record of it grows, or the lost updates do. -/
theorem Accounted.spend {id : OctadId} {octad : Octad} {fields : Fields} {uses : Nat} (accounted : w.Accounted)
    (stored : w.octads.lookup id = some octad) (issued : w.issued.lookup id = some uses)
    (still : Octad.IsCredential { octad with fields } uses)
    (grown : Octad.recorded { octad with fields } = octad.recorded + 1) (applied : Bool) :
    (w.spend id fields applied).Accounted ∧
      (w.SingleUse → ((w.spend id fields applied).SingleUse ↔ octad.recorded + w.lost.count id < uses)) := by
  have before := accounted id
  rw [stored] at before
  obtain ⟨same, isSame, isCredential, count⟩ := before
  cases issued.symm.trans isSame
  have own : (w.accepted ++ [id]).count id = w.accepted.count id + 1 := by simp
  have others (other : OctadId) (different : other ≠ id) (list : List OctadId) :
      (list ++ [id]).count other = list.count other := by
    simp [List.count_append, List.count_eq_zero, different]
  refine ⟨fun other => ?_, fun single => ⟨fun after => ?_, fun room => ?_⟩⟩
  · by_cases sameId : other = id
    · subst sameId
      cases applied with
      | true =>
        simp only [World.spend, if_true, Octads.update, stored, AList.lookup_insert, own]
        exact ⟨uses, issued, still, by omega⟩
      | false =>
        simp only [World.spend, Bool.false_eq_true, if_false, stored, own]
        exact ⟨uses, issued, isCredential, by simp; omega⟩
    · cases applied with
      | true =>
        simp only [World.spend, if_true, Octads.update, stored, AList.lookup_insert_ne sameId, others other sameId]
        exact accounted other
      | false =>
        simp only [World.spend, Bool.false_eq_true, if_false, others other sameId]
        exact accounted other
  · have now := after id uses issued
    simp only [World.spend, own] at now
    omega
  · intro other limit given
    by_cases sameId : other = id
    · subst sameId
      cases issued.symm.trans given
      simp only [World.spend, own]
      omega
    · simp only [World.spend, others other sameId]
      exact single other limit given

theorem Accounted.stored {id : OctadId} {octad : Octad} (accounted : w.Accounted)
    (stored : w.octads.lookup id = some octad) :
    ∃ uses, w.issued.lookup id = some uses ∧ octad.IsCredential uses := by
  have known := accounted id
  rw [stored] at known
  obtain ⟨uses, issued, isCredential, _⟩ := known
  exact ⟨uses, issued, isCredential⟩

theorem Accounted.consumeMagicLink (accounted : w.Accounted) (token : String) (meets : Meets) :
    let consumption := Store.consumeMagicLink meets.now (w.octads.found meets.search (magicName token))
    (w.consume consumption meets.applied).Accounted ∧
      (w.SingleUse → (w.Covered (.consumeMagicLink token meets) ↔ (w.consume consumption meets.applied).SingleUse)) := by
  intro consumption
  rcases consumeMagicLink_cases meets.now (w.octads.found meets.search (magicName token)) with
    ⟨refused, why⟩ | ⟨id, octad, found, unused, current, update⟩
  · have same : w.consume consumption meets.applied = w := by simp only [World.consume, consumption, refused]
    rw [same]
    refine ⟨accounted, fun single => iff_of_true (fun result member fresh current => ?_) single⟩
    rcases why result member with used | past
    · exact absurd used fresh
    · rw [current] at past
      cases past
  · obtain ⟨stored, named⟩ := Octads.found_sound found
    obtain ⟨uses, issued, isCredential⟩ := accounted.stored stored
    have same : w.consume consumption meets.applied = w.spend id (markConsumed octad.fields) meets.applied := by
      simp only [World.consume, consumption, update]
    rw [same]
    cases isCredential with
    | invite => exact absurd named.symm (magicName_ne_inviteName _ _)
    | magicLink name email consumed timestamp =>
      obtain rfl : consumed = false := by simpa using unused
      have spent := accounted.spend stored issued (.magicLink name email true timestamp) rfl meets.applied
      refine ⟨spent.1, fun single => (Iff.trans ?_ (spent.2 single).symm)⟩
      constructor
      · intro covered
        have none := covered _ found unused current
        simp only [Octad.recorded] at none ⊢
        simp [none]
      · intro room result member _ _
        cases found.symm.trans member
        simp only [Octad.recorded] at room ⊢
        simp at room
        simpa using room

theorem Accounted.consumeInvite (accounted : w.Accounted) (token : String) (meets : Meets) :
    let consumption := handleInviteResult meets.now (w.octads.found meets.search (inviteName token))
    (w.consume consumption meets.applied).Accounted ∧
      (w.SingleUse → (w.Covered (.consumeInvite token meets) ↔ (w.consume consumption meets.applied).SingleUse)) := by
  intro consumption
  rcases handleInviteResult_cases meets.now (w.octads.found meets.search (inviteName token)) with
    ⟨refused, why⟩ | ⟨id, octad, found, current, left, update⟩
  · have same : w.consume consumption meets.applied = w := by simp only [World.consume, consumption, refused]
    rw [same]
    refine ⟨accounted, fun single => iff_of_true (fun result member current left => ?_) single⟩
    rcases why result member with past | spent
    · rw [current] at past
      cases past
    · omega
  · obtain ⟨stored, named⟩ := Octads.found_sound found
    obtain ⟨uses, issued, isCredential⟩ := accounted.stored stored
    have same : w.consume consumption meets.applied =
        w.spend id { octad.fields with uses := some (octad.fields.uses.getD 0 + 1) } meets.applied := by
      simp only [World.consume, consumption, update]
    rw [same]
    cases isCredential with
    | magicLink => exact absurd named (magicName_ne_inviteName _ _)
    | invite name token serverId maxUses uses timestamp =>
      have spent := accounted.spend stored issued (.invite name token serverId maxUses (uses + 1) timestamp)
        (by simp [Octad.recorded]) meets.applied
      refine ⟨spent.1, fun single => (Iff.trans ?_ (spent.2 single).symm)⟩
      simp only [Option.getD_some] at left
      constructor
      · intro covered
        have room := covered _ found current (by simpa using left)
        simp [Octad.recorded] at room ⊢
        omega
      · intro room result member _ _
        cases found.symm.trans member
        simp [Octad.recorded] at room ⊢
        omega

theorem Accounted.next {label : Label} (accounted : w.Accounted) (taken : w.Step downcase label after) :
    after.Accounted ∧ (w.SingleUse → (w.Covered label ↔ after.SingleUse)) := by
  cases label with
  | storeMagicLink token email now created =>
    obtain ⟨still, single⟩ := accounted.create (.magicLink token (some (downcase email)) false _) rfl taken
    exact ⟨still, fun before => iff_of_true trivial (single before)⟩
  | storeInvite invite created =>
    obtain ⟨still, single⟩ :=
      accounted.create (.invite invite.token (some invite.token) (some invite.serverId) invite.limit 0 _) rfl taken
    exact ⟨still, fun before => iff_of_true trivial (single before)⟩
  | consumeMagicLink token meets => cases taken; exact accounted.consumeMagicLink token meets
  | consumeInvite token meets => cases taken; exact accounted.consumeInvite token meets

/-- Single-use credentials stay single-use exactly as long as the updates the store has failed leave
room for each success. -/
theorem single_use_iff_covered {downcase : String → String} {labels : List Label} {last : World} :
    Run (Within SingleUse (Step downcase)) init labels last ↔ Run (Guarded Covered (Step downcase)) init labels last :=
  Run.within_iff_guarded Accounted ⟨fun _ => ⟨rfl, rfl, rfl⟩, fun _ _ given => by cases given⟩
    (fun accounted taken => (accounted.next taken).1) (fun accounted single taken => (accounted.next taken).2 single)

/-- A magic link is consumed, the update fails, and the link is consumed again. -/
def sampleLabels : List Label :=
  [.storeMagicLink "t" "a@b.c" 0 (some "octad"), .consumeMagicLink "t" ⟨some ["octad"], 5, false⟩,
    .consumeMagicLink "t" ⟨some ["octad"], 6, true⟩]

theorem spent_twice : ∃ last, Run (Step String.toLower) init sampleLabels last ∧ ¬ last.SingleUse := by
  refine ⟨_, play_run rfl, fun single => ?_⟩
  exact absurd (single "octad" 1 rfl) (by decide)

end World
end Burble.Store
