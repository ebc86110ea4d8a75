import Mathlib.Data.List.Forall2
import Burble.Bytes
import Burble.Verification.Avow

namespace Burble.Verification.Avow

/-- The attestation a call has made, once it has. -/
def Point.made : Point → Option Attestation
  | .whereis (.append attestation) => some attestation
  | .whereis (.chain attestation) => some attestation
  | .create (.append attestation) => some attestation
  | .create (.chain attestation) => some attestation
  | .lookupChain attestation => some attestation
  | .insert attestation _ => some attestation
  | .returned attestation => some attestation
  | _ => none

/-- A call on the entity has come back with the attestation. -/
def Returned (state : AvowState) (key : ChainKey) (caller : Nat) (attestation : Attestation) : Prop :=
  ∃ request, state.calls.lookup caller = some ⟨request, .returned attestation⟩ ∧ request.key = key

/-- The stored chain holds what the calls on the entity came back with, for each call once and
for no other, and is accepted. -/
structure Kept (host : Host) (state : AvowState) (key : ChainKey) (callers : List Nat) : Prop where
  once : callers.Nodup
  all : ∀ caller attestation, Returned state key caller attestation → caller ∈ callers
  stored : List.Forall₂ (Returned state key) callers (state.chain key)
  accepted : ∃ last, verifyChain host (state.chain key) = .ok last

def ChainKept (host : Host) (state : AvowState) (key : ChainKey) : Prop := ∃ callers, Kept host state key callers

/-- What makes an attestation one the server has built. -/
structure Attestation.Built (host : Host) (attestation : Attestation) : Prop where
  proofHash : attestation.proofHash = computeProofHash host attestation
  signature : attestation.signature = signAttestation host attestation.proofHash

variable {host : Host}

theorem Request.built (request : Request) (random : List UInt8) (timestamp : DateTime) (previous : Option String) :
    (request.build host random timestamp previous).Built host := by
  cases request <;> exact ⟨rfl, rfl⟩

theorem Unchained.built (request : Unchained) (random : List UInt8) (timestamp : DateTime) :
    (request.build host random timestamp).Built host := by
  cases request <;> exact ⟨rfl, rfl⟩

theorem Attestation.Built.genuine {attestation : Attestation} (built : attestation.Built host)
    (signs : ∀ message, host.verify message (host.sign message) = true) : attestation.Genuine host := by
  refine ⟨built.proofHash.symm, ?_⟩
  rw [built.signature, verifySignature, Vext.verifySignature, signAttestation, Base16.decode16_encode16]
  exact signs _

/-- A write puts the chain there and comes back. Anything else leaves the chains, whether the
call has come back, and what it has made. -/
theorem access_cases {table after : ChainTable} {key : ChainKey} {point next : Point}
    (moved : access table key point = (after, next)) :
    (∃ attestation chain, point = .insert attestation chain ∧ next = .returned attestation ∧
      ∀ other, chainAt after other = if other = key then chain ++ [attestation] else chainAt table other) ∨
    ((∀ other, chainAt after other = chainAt table other) ∧
      (∀ attestation, next = .returned attestation ↔ point = .returned attestation) ∧
      ∀ attestation, next.made = some attestation → point.made = some attestation) := by
  have ready (stage : Stage) : (∀ attestation, stage.ready ≠ .returned attestation) ∧
      stage.ready.made = (Point.whereis stage).made := by
    cases stage <;> exact ⟨by simp [Stage.ready], rfl⟩
  cases point with
  | whereis stage =>
    cases moved
    refine .inr ⟨fun _ => rfl, fun attestation => ?_, fun attestation => ?_⟩
    · refine iff_of_false ?_ (by simp)
      split
      · exact (ready stage).1 attestation
      · simp
    · split
      · rw [(ready stage).2]
        exact id
      · cases stage <;> exact id
  | create stage =>
    refine .inr ?_
    cases table with
    | some chains =>
      cases moved
      exact ⟨fun _ => rfl, by simp, by simp [Point.made]⟩
    | none =>
      cases moved
      refine ⟨fun other => by simp [chainAt], fun attestation => ?_, fun attestation => ?_⟩
      · exact iff_of_false ((ready stage).1 attestation) (by simp)
      · rw [(ready stage).2]
        cases stage <;> exact id
  | lookupHead =>
    cases moved
    refine .inr ⟨fun _ => rfl, fun attestation => ?_, fun attestation => ?_⟩
    · split <;> simp
    · split <;> simp [Point.made]
  | lookupChain made =>
    cases moved
    refine .inr ⟨fun _ => rfl, fun attestation => ?_, fun attestation => ?_⟩
    · split <;> simp
    · split <;> simp [Point.made]
  | insert made chain =>
    cases table with
    | some chains =>
      cases moved
      exact .inl ⟨made, chain, rfl, rfl, fun other => chainAt_insert chains key other _⟩
    | none =>
      cases moved
      exact .inr ⟨fun _ => rfl, by simp, by simp [Point.made]⟩
  | build previous =>
    cases moved
    exact .inr ⟨fun _ => rfl, fun _ => Iff.rfl, fun _ => id⟩
  | returned made =>
    cases moved
    exact .inr ⟨fun _ => rfl, fun _ => Iff.rfl, fun _ => id⟩
  | raised =>
    cases moved
    exact .inr ⟨fun _ => rfl, fun _ => Iff.rfl, fun _ => id⟩

/-- Everything the server has issued, and what a call has made is among it. -/
structure Issued (host : Host) (state : AvowState) : Prop where
  built : ∀ attestation ∈ state.issued, attestation.Built host
  made : ∀ caller call attestation, state.calls.lookup caller = some call →
    call.point.made = some attestation → attestation ∈ state.issued

theorem Issued.start : Issued host .start where
  built _ member := absurd member List.not_mem_nil
  made _ _ _ found := by cases found

theorem Moves.lookup {before after : AvowState} {caller other : Nat} {call : Call} {point : Point}
    (moves : Moves before after caller call point) : after.calls.lookup other =
      if other = caller then some { call with point } else before.calls.lookup other := by
  rw [moves.calls, FiniteMap.lookup_insert_if]

theorem Issued.step {before after : AvowState} {label : AvowLabel} (issued : Issued host before)
    (taken : avowStep host before label = some after) : Issued host after := by
  rcases avowStep_cases taken with ⟨caller, request, _, free, rfl⟩ | ⟨caller, call, point, _, moves, moved, same⟩ |
    ⟨caller, call, random, timestamp, previous, _, _, moves, _, grown⟩ | ⟨request, random, timestamp, _, rfl⟩
  · refine ⟨issued.built, fun other found made held holds => ?_⟩
    rw [FiniteMap.lookup_insert_if] at held
    split_ifs at held with self
    · cases held
      cases holds
    · exact issued.made other found made held holds
  · refine ⟨same ▸ issued.built, fun other found made held holds => ?_⟩
    rw [moves.lookup] at held
    rw [same]
    split_ifs at held with self
    · cases held
      rcases access_cases moved with ⟨_, chain, atPoint, rfl, _⟩ | ⟨_, _, earlier⟩
      · cases holds
        exact issued.made caller call made moves.found (by rw [atPoint, Point.made])
      · exact issued.made caller call made moves.found (earlier made holds)
    · exact issued.made other found made held holds
  · refine ⟨fun attestation member => ?_, fun other found made held holds => ?_⟩
    · rw [grown, List.mem_append, List.mem_singleton] at member
      rcases member with old | rfl
      · exact issued.built attestation old
      · exact Request.built _ _ _ _
    · rw [moves.lookup] at held
      rw [grown]
      split_ifs at held with self
      · cases held
        cases holds
        exact List.mem_append_right _ List.mem_cons_self
      · exact List.mem_append_left _ (issued.made other found made held holds)
  · refine ⟨fun attestation member => ?_, fun other found made held holds => ?_⟩
    · rcases List.mem_append.mp member with old | now
      · exact issued.built attestation old
      · rw [List.mem_singleton.mp now]
        exact request.built random timestamp
    · exact List.mem_append_left _ (issued.made other found made held holds)

/-- Whether other calls have come back, and with what, is left as it was. -/
theorem Moves.returned_iff {before after : AvowState} {caller : Nat} {call : Call} {point : Point}
    (moves : Moves before after caller call point)
    (same : ∀ attestation, point = .returned attestation ↔ call.point = .returned attestation) (key : ChainKey)
    (other : Nat) (attestation : Attestation) :
    Returned after key other attestation ↔ Returned before key other attestation := by
  obtain ⟨asked, earlier⟩ := call
  simp only [Returned, moves.lookup]
  split
  next self =>
    subst self
    simp only [moves.found, Option.some.injEq, Call.mk.injEq, same attestation]
  next => exact Iff.rfl

theorem Kept.same {before after : AvowState} {key : ChainKey} {callers : List Nat}
    (kept : Kept host before key callers) (chain : after.chain key = before.chain key)
    (returned : ∀ caller attestation, Returned after key caller attestation ↔ Returned before key caller attestation) :
    Kept host after key callers := by
  have relation : Returned after key = Returned before key :=
    funext fun caller => funext fun attestation => propext (returned caller attestation)
  refine ⟨kept.once, ?_, ?_, ?_⟩
  · rw [relation]
    exact kept.all
  · rw [relation, chain]
    exact kept.stored
  · rw [chain]
    exact kept.accepted

theorem exists_related {α β : Type} {relation : α → β → Prop} {left : List α} {right : List β} {item : α}
    (related : List.Forall₂ relation left right) (member : item ∈ left) : ∃ other ∈ right, relation item other := by
  induction related with
  | nil => cases member
  | cons here _ ih =>
    rcases List.mem_cons.mp member with rfl | later
    · exact ⟨_, List.mem_cons_self, here⟩
    · obtain ⟨other, among, relates⟩ := ih later
      exact ⟨other, List.mem_cons_of_mem _ among, relates⟩

/-- A write of what was read and one more, by a call that has not come back yet. -/
theorem Kept.append {before after : AvowState} {key : ChainKey} {callers : List Nat} {caller : Nat} {call : Call}
    {attestation : Attestation} (kept : Kept host before key callers)
    (moves : Moves before after caller call (.returned attestation)) (atKey : call.request.key = key)
    (pending : ∀ other, call.point ≠ .returned other) (genuine : attestation.Genuine host)
    (follows : attestation.previousAttestation = chainHead (before.chain key))
    (chain : after.chain key = before.chain key ++ [attestation]) : Kept host after key (callers ++ [caller]) := by
  have fresh (other : Attestation) : ¬ Returned before key caller other := by
    rintro ⟨request, found, _⟩
    rw [moves.found] at found
    cases found
    exact pending other rfl
  have absent : caller ∉ callers := fun member => by
    obtain ⟨other, _, returned⟩ := exists_related kept.stored member
    exact fresh other returned
  have earlier {other : Nat} {found : Attestation} (returned : Returned before key other found) :
      Returned after key other found := by
    obtain ⟨request, held, same⟩ := returned
    refine ⟨request, ?_, same⟩
    rw [moves.lookup, if_neg, held]
    rintro rfl
    exact fresh found ⟨request, held, same⟩
  refine ⟨?_, fun other found returned => ?_, ?_, ?_⟩
  · exact List.nodup_append.mpr ⟨kept.once, List.nodup_singleton _, fun other member _ last same =>
      absent (List.mem_singleton.mp last ▸ same ▸ member)⟩
  · obtain ⟨request, held, same⟩ := returned
    rw [moves.lookup] at held
    split_ifs at held with self
    · exact List.mem_append_right _ (List.mem_singleton.mpr self)
    · exact List.mem_append_left _ (kept.all other found ⟨request, held, same⟩)
  · rw [chain]
    refine List.rel_append (kept.stored.imp fun _ _ => earlier) (List.Forall₂.cons ⟨call.request, ?_, atKey⟩ .nil)
    rw [moves.lookup, if_pos rfl]
  · rw [chain]
    exact verifyChain_append kept.accepted genuine follows

theorem ChainKept.step {before after : AvowState} {label : AvowLabel} {key : ChainKey}
    (signs : ∀ message, host.verify message (host.sign message) = true) (issued : Issued host before)
    (kept : ChainKept host before key) (undisturbed : Undisturbed before label)
    (taken : avowStep host before label = some after) : ChainKept host after key := by
  obtain ⟨callers, kept⟩ := kept
  rcases avowStep_cases taken with ⟨caller, request, _, free, rfl⟩ | ⟨caller, call, point, rfl, moves, moved, _⟩ |
    ⟨caller, call, random, timestamp, previous, _, building, moves, table, _⟩ | ⟨request, random, timestamp, _, rfl⟩
  · refine ⟨callers, kept.same rfl fun other attestation => ?_⟩
    simp only [Returned, FiniteMap.lookup_insert_if]
    split
    next self =>
      subst self
      simp [free]
    next => exact Iff.rfl
  · rcases access_cases moved with ⟨attestation, chain, inserting, rfl, written⟩ | ⟨chains, returned, _⟩
    · obtain ⟨current, follows⟩ : Point.Current _ (.insert attestation chain) :=
        inserting ▸ undisturbed call moves.found
      have pending (other : Attestation) : call.point ≠ .returned other := by
        rw [inserting]
        exact Point.noConfusion
      by_cases atKey : call.request.key = key
      · subst atKey
        subst current
        have genuine := (issued.built attestation (issued.made caller call attestation moves.found
          (by rw [inserting, Point.made]))).genuine signs
        exact ⟨callers ++ [caller], kept.append moves rfl pending genuine follows (by
          rw [AvowState.chain, written, if_pos rfl, AvowState.chain])⟩
      · refine ⟨callers, kept.same (by rw [AvowState.chain, written, if_neg (Ne.symm atKey), AvowState.chain])
          fun other found => ?_⟩
        simp only [Returned, moves.lookup]
        split
        next self =>
          subst self
          refine iff_of_false ?_ ?_
          · rintro ⟨request, held, same⟩
            cases held
            exact atKey same
          · rintro ⟨request, held, _⟩
            rw [moves.found] at held
            cases held
            exact pending found rfl
        next => exact Iff.rfl
    · exact ⟨callers, kept.same (chains key) (moves.returned_iff returned key)⟩
  · refine ⟨callers, kept.same (by rw [AvowState.chain, table, AvowState.chain]) (moves.returned_iff ?_ key)⟩
    intro attestation
    rw [building]
    simp
  · exact ⟨callers, kept.same rfl fun _ _ => Iff.rfl⟩

theorem ChainKept.start (key : ChainKey) : ChainKept host .start key := by
  refine ⟨[], List.nodup_nil, fun caller attestation returned => ?_, .nil, ⟨none, rfl⟩⟩
  obtain ⟨_, found, _⟩ := returned
  cases found

/-- Texts stand for their digests and signatures, and `inspect` shows plain texts as they are. -/
def plainHost : Host where
  sha256 := utf8
  sign := utf8
  verify message signature := decide (signature = utf8 message)
  inspect metadata := "%\x7b" ++ ", ".intercalate (metadata.map fun entry =>
    entry.1 ++ ": " ++ match entry.2 with
      | .nil => "nil"
      | .atom name => ":" ++ name
      | .text value => "\"" ++ value ++ "\"") ++ "\x7d"

theorem plainHost_signs (message : String) : plainHost.verify message (plainHost.sign message) = true :=
  decide_eq_true rfl

def noonUtc : DateTime := .firstOfMarch

def annJoins : Request := .attestJoin "ann" "lobby" (.atom "direct_join") none none

def annLeaves : Request := .attestLeave "ann" "lobby" (.atom "voluntary") none

/-- As long as no other call on the entity writes between a call's first read and its write,
the stored chain holds what every call came back with, each once, and is accepted. -/
theorem chain_kept_of_undisturbed (signs : ∀ message, host.verify message (host.sign message) = true)
    {labels : List AvowLabel} {last : AvowState}
    (run : Run (Guarded Undisturbed fun before label after => avowStep host before label = some after)
      .start labels last) (key : ChainKey) : ChainKept host last key := by
  have both : Issued host last ∧ ChainKept host last key := by
    induction run with
    | start => exact ⟨.start, .start key⟩
    | next _ taken ih =>
      obtain ⟨undisturbed, taken⟩ := taken
      exact ⟨ih.1.step taken, ih.2.step signs ih.1 undisturbed taken⟩
  exact both.2

/-- Two calls one after the other. -/
theorem join_then_leave_kept : ∃ labels last, Run (Guarded Undisturbed fun before label after =>
    avowStep plainHost before label = some after) .start labels last ∧
    (last.chain annLeaves.key).length = 2 ∧ ChainKept plainHost last annLeaves.key := by
  obtain ⟨joined, middle, first, _, chain, calls⟩ := serve plainHost .start 0 annJoins [1] noonUtc rfl
  have free : middle.calls.lookup 1 = none := by
    rw [calls, AList.lookup_insert_ne (by decide)]
    rfl
  obtain ⟨left, last, second, _, chain', -⟩ := serve plainHost middle 1 annLeaves [2] noonUtc free
  have joins : (middle.chain annLeaves.key).length = 1 := congrArg List.length chain
  have run := first.append second
  exact ⟨_, last, run, by rw [chain', List.length_append, joins, List.length_singleton],
    chain_kept_of_undisturbed plainHost_signs run _⟩

/-- What is left of a call when its `chain_head` has read. -/
def completes (caller : Nat) (random : List UInt8) : List AvowLabel :=
  [.build caller random noonUtc, .advance caller, .advance caller, .advance caller, .advance caller]

/-- Two joins from two tabs, the second reading before the first writes. -/
def joinTwice : List AvowLabel :=
  [.call 0 annJoins, .call 1 annJoins, .advance 0, .advance 0, .advance 0, .advance 1, .advance 1] ++
    (completes 0 [1]).dropLast ++ completes 1 [2] ++ [.advance 0]

def hasReturned (state : AvowState) (caller : Nat) : Bool :=
  (state.calls.lookup caller).any fun call => match call with
    | ⟨request, .returned _⟩ => request.key = annJoins.key
    | _ => false

theorem returned_of_hasReturned {state : AvowState} {caller : Nat} (back : hasReturned state caller = true) :
    ∃ attestation, Returned state annJoins.key caller attestation := by
  obtain ⟨⟨request, point⟩, found, same⟩ := (Option.any_eq_true _ _).mp back
  cases point with
  | returned attestation => exact ⟨attestation, request, found, of_decide_eq_true same⟩
  | _ => cases same

/-- Both calls come back, and one attestation is stored. -/
theorem join_lost : (∀ message, plainHost.verify message (plainHost.sign message) = true) ∧
    ∃ last, AvowRun plainHost .start joinTwice last ∧ ¬ ChainKept plainHost last annJoins.key := by
  have played : ((play (avowStep plainHost) joinTwice .start).any fun last =>
      decide ((last.chain annJoins.key).length = 1) && hasReturned last 0 && hasReturned last 1) = true := by
    decide +kernel
  obtain ⟨last, ends, facts⟩ := (Option.any_eq_true _ _).mp played
  simp only [Bool.and_eq_true, decide_eq_true_eq] at facts
  obtain ⟨⟨one, first⟩, second⟩ := facts
  refine ⟨plainHost_signs, last, play_run ends, ?_⟩
  rintro ⟨callers, kept⟩
  obtain ⟨_, firstBack⟩ := returned_of_hasReturned first
  obtain ⟨_, secondBack⟩ := returned_of_hasReturned second
  have pair : ([0, 1] : List Nat).length ≤ callers.length :=
    (List.subperm_of_subset (by decide) fun caller member => by
      rcases List.mem_pair.mp member with rfl | rfl
      · exact kept.all _ _ firstBack
      · exact kept.all _ _ secondBack).length_le
  rw [kept.stored.length_eq, one] at pair
  exact absurd pair (by decide)

end Burble.Verification.Avow
