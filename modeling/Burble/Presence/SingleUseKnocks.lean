import Mathlib.Algebra.Order.Group.Int
import Burble.Runs
import Burble.Presence.BleSpa

namespace Burble.Presence

/-- One call of `verify_knock` with the replay check on, and its verdict. -/
structure Attempt where
  payload : List UInt8
  roomSecret : List UInt8
  now : Int
  verdict : Verdict
  deriving DecidableEq

def Attempt.frame (attempt : Attempt) : Frame := Frame.read attempt.payload

def Verifies (hmac : Hmac) (before : Nonces) (attempt : Attempt) (after : Nonces) : Prop :=
  verifyKnock hmac attempt.payload attempt.roomSecret attempt.now true before = (attempt.verdict, after)

/-- The attempt shows the knock of a room secret, a time and a nonce, and is accepted. -/
def Attempt.accepts (hmac : Hmac) (roomSecret : List UInt8) (ts : Nat) (nonce6 : List UInt8) (attempt : Attempt) : Bool :=
  attempt.roomSecret = roomSecret ∧ attempt.payload = encodeKnock hmac roomSecret ts nonce6 ∧ attempt.verdict = .ok

variable {hmac : Hmac} {before after nonces : Nonces} {attempt : Attempt} {history : List Attempt}

/-- An attempt is refused and at most prunes the ledger, or it is a knock in time whose nonce is then recorded. -/
theorem verifies_cases (taken : Verifies hmac before attempt after) :
    (attempt.verdict ≠ .ok ∧ (after = before ∨ after = prune attempt.now before)) ∨
      attempt.verdict = .ok ∧ withinWindow attempt.frame.ts attempt.now = true ∧
      attempt.payload = encodeKnock hmac attempt.roomSecret attempt.frame.ts attempt.frame.nonce ∧
      (∀ expiry, before.lookup attempt.frame.nonce = some expiry → expiry < attempt.now) ∧
      after = (prune attempt.now before).insert attempt.frame.nonce (attempt.frame.ts + windowS) := by
  unfold Verifies at taken
  rcases verifyKnock_cases hmac attempt.payload attempt.roomSecret attempt.now before with
    ⟨reason, refused⟩ | ⟨_, isKnock, inTime, records⟩
  · obtain ⟨verdict, same⟩ := Prod.mk.inj (taken.symm.trans refused)
    exact .inl ⟨fun isOk => (by cases verdict.symm.trans isOk), .inl same⟩
  · rcases recordNonce_cases attempt.frame.nonce attempt.frame.ts attempt.now before with
      ⟨replayed, _⟩ | ⟨recorded, free⟩
    · obtain ⟨verdict, same⟩ := Prod.mk.inj (taken.symm.trans (records.trans replayed))
      exact .inl ⟨fun isOk => (by cases verdict.symm.trans isOk), .inr same⟩
    · obtain ⟨verdict, same⟩ := Prod.mk.inj (taken.symm.trans (records.trans recorded))
      exact .inr ⟨verdict, inTime, isKnock, free, same⟩

/-- The ledger after a history of attempts: every entry is of an accepted nonce, and that of an accepted
knock is there until its window is over. -/
structure Recorded (history : List Attempt) (clock : Int) (nonces : Nonces) : Prop where
  used {nonce : List UInt8} {expiry : Int} : nonces.lookup nonce = some expiry →
    ∃ attempt ∈ history, attempt.verdict = .ok ∧ attempt.frame.nonce = nonce
  kept : ∀ attempt ∈ history, attempt.verdict = .ok → attempt.frame.ts + windowS < clock ∨
    nonces.lookup attempt.frame.nonce = some (attempt.frame.ts + windowS)

namespace Recorded
variable {clock now : Int}

theorem start (clock : Int) : Recorded [] clock ∅ where
  used found := by cases found
  kept _ member := absurd member List.not_mem_nil

theorem later (recorded : Recorded history clock nonces) (onward : clock ≤ now) : Recorded history now nonces where
  used := recorded.used
  kept attempt member isOk := (recorded.kept attempt member isOk).imp_left fun past => by omega

theorem pruned (recorded : Recorded history now nonces) : Recorded history now (prune now nonces) where
  used {nonce expiry} found := by
    rw [prune_lookup] at found
    exact recorded.used (Option.filter_eq_some_iff.mp found).1
  kept attempt member isOk := by
    rcases recorded.kept attempt member isOk with past | entry
    · exact .inl past
    · by_cases elapsed : attempt.frame.ts + windowS < now
      · exact .inl elapsed
      · right
        rw [prune_lookup, entry, Option.filter_some_pos (by simpa using elapsed)]

theorem refused (recorded : Recorded history clock nonces) (isRefused : attempt.verdict ≠ .ok) :
    Recorded (history ++ [attempt]) clock nonces where
  used found := by
    obtain ⟨earlier, member, isOk, same⟩ := recorded.used found
    exact ⟨earlier, List.mem_append_left _ member, isOk, same⟩
  kept earlier member isOk := by
    rcases List.mem_append.mp member with old | new
    · exact recorded.kept earlier old isOk
    · exact absurd (List.mem_singleton.mp new ▸ isOk) isRefused

theorem accepted (recorded : Recorded history now nonces) (isOk : attempt.verdict = .ok)
    (free : ∀ expiry, nonces.lookup attempt.frame.nonce = some expiry → expiry < now) :
    Recorded (history ++ [attempt]) now (nonces.insert attempt.frame.nonce (attempt.frame.ts + windowS)) where
  used {nonce expiry} found := by
    rw [FiniteMap.lookup_insert_if] at found
    split at found
    next same => exact ⟨attempt, by simp, isOk, same.symm⟩
    next =>
      obtain ⟨earlier, member, isOk, same⟩ := recorded.used found
      exact ⟨earlier, List.mem_append_left _ member, isOk, same⟩
  kept earlier member earlierOk := by
    rw [FiniteMap.lookup_insert_if]
    rcases List.mem_append.mp member with old | new
    · rcases recorded.kept earlier old earlierOk with past | entry
      · exact .inl past
      · by_cases same : earlier.frame.nonce = attempt.frame.nonce
        · exact .inl (free _ (same ▸ entry))
        · rw [if_neg same]
          exact .inr entry
    · cases List.mem_singleton.mp new
      exact .inr (if_pos rfl)

/-- The step lemma: an attempt no earlier than the ones before. -/
theorem verifies (recorded : Recorded history clock before) (taken : Verifies hmac before attempt after)
    (onward : clock ≤ attempt.now) : Recorded (history ++ [attempt]) attempt.now after := by
  have now := recorded.later onward
  rcases verifies_cases taken with ⟨isRefused, rfl | rfl⟩ | ⟨isOk, _, _, free, rfl⟩
  · exact now.refused isRefused
  · exact now.pruned.refused isRefused
  · refine now.pruned.accepted isOk fun expiry found => ?_
    rw [prune_lookup] at found
    exact free expiry (Option.filter_eq_some_iff.mp found).1

/-- A knock is not accepted again: its nonce is still recorded while it is in time. -/
theorem unused (recorded : Recorded history clock before) (taken : Verifies hmac before attempt after)
    (onward : clock ≤ attempt.now) (isOk : attempt.verdict = .ok) {earlier : Attempt} (member : earlier ∈ history)
    (earlierOk : earlier.verdict = .ok) : earlier.frame ≠ attempt.frame := by
  intro same
  rcases verifies_cases taken with ⟨isRefused, _⟩ | ⟨_, inTime, _, free, _⟩
  · exact isRefused isOk
  · have early : (attempt.now - attempt.frame.ts).natAbs ≤ windowS := of_decide_eq_true inTime
    rcases recorded.kept earlier member earlierOk with past | entry
    · rw [same] at past
      omega
    · rw [same] at entry
      have elapsed := free _ entry
      omega

end Recorded

theorem run_recorded (run : Run (Verifies hmac) ∅ history nonces)
    (ordered : history.Pairwise fun one other => one.now ≤ other.now) {clock : Int}
    (reached : ∀ attempt ∈ history, attempt.now ≤ clock) : Recorded history clock nonces := by
  induction run generalizing clock with
  | start => exact .start clock
  | @next earlier current attempt after _ taken ih =>
    obtain ⟨past, _, between⟩ := List.pairwise_append.mp ordered
    have recorded := ih past fun other member => between other member attempt List.mem_cons_self
    exact (recorded.verifies taken le_rfl).later (reached attempt (by simp))

/-- No two accepted attempts show one frame. -/
theorem run_once (run : Run (Verifies hmac) ∅ history nonces)
    (ordered : history.Pairwise fun one other => one.now ≤ other.now) (roomSecret : List UInt8) (ts : Nat)
    (nonce6 : List UInt8) : history.countP (Attempt.accepts hmac roomSecret ts nonce6) ≤ 1 := by
  induction run with
  | start => exact Nat.zero_le 1
  | @next earlier current attempt after run taken ih =>
    obtain ⟨past, _, between⟩ := List.pairwise_append.mp ordered
    rw [List.countP_append, List.countP_singleton]
    split
    next accepts =>
      obtain ⟨_, shown, isOk⟩ := of_decide_eq_true accepts
      have recorded := run_recorded run past fun other member => between other member attempt List.mem_cons_self
      have none : earlier.countP (Attempt.accepts hmac roomSecret ts nonce6) = 0 := by
        refine List.countP_eq_zero.mpr fun other member accepted => ?_
        obtain ⟨_, same, otherOk⟩ := of_decide_eq_true accepted
        exact recorded.unused taken le_rfl isOk member otherOk (congrArg Frame.read (same.trans shown.symm))
      omega
    next => exact ih past

/-- In every run of verifications in order of time, whatever is shown: every knock of a room secret, a time
and a nonce is accepted at most once; a knock whose nonce was not accepted before is accepted exactly when
its time, of at most 32 bits, is within the window; and nothing is accepted but the knocks of the room
secret it is verified under. -/
theorem knocks_single_use (run : Run (Verifies hmac) ∅ history nonces)
    (ordered : history.Pairwise fun one other => one.now ≤ other.now) :
    (∀ roomSecret ts nonce6, history.countP (Attempt.accepts hmac roomSecret ts nonce6) ≤ 1) ∧
    (∀ past attempt later, history = past ++ attempt :: later → ∀ ts nonce6, nonce6.length = 6 → ts < 2 ^ 32 →
      attempt.payload = encodeKnock hmac attempt.roomSecret ts nonce6 →
      (∀ earlier ∈ past, earlier.verdict = .ok → earlier.frame.nonce ≠ nonce6) →
      (attempt.verdict = .ok ↔ |attempt.now - (ts : Int)| ≤ 30)) ∧
    ∀ attempt ∈ history, attempt.verdict = .ok →
      attempt.payload = encodeKnock hmac attempt.roomSecret attempt.frame.ts attempt.frame.nonce := by
  refine ⟨run_once run ordered, ?_, ?_⟩
  · rintro past attempt later rfl ts nonce6 six fits shown unused
    obtain ⟨before, front, rest⟩ := run.split
    obtain ⟨after, taken, _⟩ := Run.cons_iff.mp rest
    obtain ⟨early, _, between⟩ := List.pairwise_append.mp ordered
    have recorded := run_recorded front early fun other member => between other member attempt List.mem_cons_self
    have decided := verifyKnock_encodeKnock hmac attempt.roomSecret six fits attempt.now true before
    rw [← shown] at decided
    have verdict := congrArg Prod.fst (taken.symm.trans decided)
    by_cases inTime : withinWindow ts attempt.now = true
    · have within : |attempt.now - (ts : Int)| ≤ 30 := by
        rw [Int.abs_eq_natAbs]
        exact of_decide_eq_true inTime
      rw [if_pos inTime] at verdict
      rcases recordNonce_cases nonce6 ts attempt.now before with ⟨_, expiry, found, _⟩ | ⟨recorded, _⟩
      · obtain ⟨earlier, member, isOk, same⟩ := recorded.used found
        exact absurd same (unused earlier member isOk)
      · rw [recorded] at verdict
        exact ⟨fun _ => within, fun _ => verdict⟩
    · have outside : ¬ |attempt.now - (ts : Int)| ≤ 30 := by
        rw [Int.abs_eq_natAbs]
        exact fun within => inTime (decide_eq_true within)
      rw [if_neg inTime] at verdict
      exact ⟨fun isOk => (by cases isOk.symm.trans verdict), fun within => absurd within outside⟩
  · intro attempt member isOk
    obtain ⟨past, later, rfl⟩ := List.append_of_mem member
    obtain ⟨before, _, rest⟩ := run.split
    obtain ⟨after, taken, _⟩ := Run.cons_iff.mp rest
    rcases verifies_cases taken with ⟨isRefused, _⟩ | ⟨_, _, isKnock, _⟩
    · exact absurd isOk isRefused
    · exact isKnock

/-- Verify payloads one after the other. -/
def verifyAll (hmac : Hmac) : List (List UInt8 × List UInt8 × Int) → Nonces → List Attempt × Nonces
  | [], nonces => ([], nonces)
  | (payload, roomSecret, now) :: rest, nonces =>
    let (verdict, next) := verifyKnock hmac payload roomSecret now true nonces
    let (history, last) := verifyAll hmac rest next
    (⟨payload, roomSecret, now, verdict⟩ :: history, last)

theorem verifyAll_run (calls : List (List UInt8 × List UInt8 × Int)) (nonces : Nonces) :
    Run (Verifies hmac) nonces (verifyAll hmac calls nonces).1 (verifyAll hmac calls nonces).2 := by
  induction calls generalizing nonces with
  | nil => exact .start
  | cons call rest ih => exact Run.cons_iff.mpr ⟨_, rfl, ih _⟩

/-- A digest that shows the secret and the end of the message. -/
def openHmac : Hmac where
  digest secret message := ((secret ++ message.reverse).take 32).rightpad 32 0
  length secret message := by simp

/-- A knock stamped 20 seconds ahead is shown twice, the second time at the end of its window. -/
def knockedTwice : List Attempt :=
  let knock := encodeKnock openHmac [7] 1020 [1, 2, 3, 4, 5, 6]
  (verifyAll openHmac [(knock, [7], 1000), (knock, [7], 1050)] ∅).1

theorem knocks_single_use_knockedTwice :
    knockedTwice.map Attempt.verdict = [.ok, .error .replayedNonce] ∧
      knockedTwice.countP (Attempt.accepts openHmac [7] 1020 [1, 2, 3, 4, 5, 6]) ≤ 1 :=
  ⟨by decide +kernel, (knocks_single_use (verifyAll_run _ ∅) (by decide +kernel)).1 [7] 1020 [1, 2, 3, 4, 5, 6]⟩

end Burble.Presence
