import Mathlib.Data.List.Nodup
import Mathlib.Data.List.Perm.Subperm
import Burble.Runs
import Burble.E2EE.FrameReplay

namespace Burble.E2EE.ReplayWindow

/-- A call on a replay window. -/
inductive Call
  | wouldAccept (counter : Nat)
  | accept (counter : Nat)

/-- A call as it was answered. -/
structure Answered where
  call : Call
  answer : Bool

/-- What one call leaves, and its answer. -/
def call (w : ReplayWindow) : Call → ReplayWindow × Bool
  | .wouldAccept counter => (w, w.wouldAccept counter)
  | .accept counter => w.accept counter

def Answers (before : ReplayWindow) (e : Answered) (after : ReplayWindow) : Prop := before.call e.call = (after, e.answer)

def Answered.accepted : Answered → Option Nat
  | ⟨.accept counter, true⟩ => some counter
  | _ => none

/-- The counters that were ever accepted. -/
def acceptedIn (history : List Answered) : List Nat := history.filterMap Answered.accepted

/-- The highest of some counters, -1 for none. -/
def highestOf (counters : List Nat) : Int := counters.foldl (fun (top : Int) (counter : Nat) => max top counter) (-1)

section Highest
variable {counters : List Nat} {counter : Nat}

theorem highestOf_append : highestOf (counters ++ [counter]) = max (highestOf counters) counter := by
  rw [highestOf, List.foldl_append]
  rfl

theorem le_highestOf (member : counter ∈ counters) : (counter : Int) ≤ highestOf counters := by
  induction counters using List.reverseRecOn with
  | nil => cases member
  | append_singleton front last ih =>
    rw [highestOf_append]
    rcases List.mem_append.mp member with before | same
    · exact (ih before).trans (le_max_left _ _)
    · exact List.mem_singleton.mp same ▸ le_max_right _ _

end Highest

/-- A window against all the counters it ever accepted. -/
structure Exact (w : ReplayWindow) (accepted : List Nat) : Prop where
  highest : w.highest = highestOf accepted
  seen : ∀ counter, counter ∈ w.seen ↔ counter ∈ accepted ∧ highestOf accepted - w.width < counter
  distinct : w.seen.Nodup

section Exactness
variable {w after : ReplayWindow} {accepted : List Nat} {counter size : Nat}

theorem create_exact (created : create size = .ok w) : w.width = size ∧ w.Exact [] := by
  unfold create at created
  split at created
  next => cases created
  next =>
    cases created
    refine ⟨rfl, rfl, fun counter => ?_, List.nodup_nil⟩
    simp

/-- A counter would be accepted exactly when it is new and inside the window. -/
theorem Exact.wouldAccept_iff (exact : w.Exact accepted) :
    w.wouldAccept counter = true ↔ counter ∉ accepted ∧ highestOf accepted - w.width < counter := by
  rw [ReplayWindow.wouldAccept_iff, exact.seen, exact.highest]
  constructor
  · rintro ⟨unseen, near⟩
    have inside : highestOf accepted - w.width < counter := by omega
    exact ⟨fun member => unseen ⟨member, inside⟩, inside⟩
  · rintro ⟨new, inside⟩
    exact ⟨fun seen => new seen.1, by omega⟩

theorem accept_answer (w : ReplayWindow) (counter : Nat) : (w.accept counter).2 = w.wouldAccept counter := by
  unfold accept
  split
  next accepts => split <;> exact accepts.symm
  next refuses => exact ((Bool.not_eq_true _).mp refuses).symm

/-- A counter above all others moves the window up to it. -/
theorem accept_higher (accepts : w.wouldAccept counter = true) (higher : w.highest < counter) :
    ∃ near : Nat → Bool, (w.accept counter).1 = ⟨w.width, (counter :: w.seen).filter near, counter⟩ ∧
      ∀ other : Nat, near other = true ↔ (counter : Int) - w.width < other := by
  refine ⟨fun other => decide ((counter : Int) - w.width + 1 ≤ other), ?_, fun other => ?_⟩
  · rw [accept, if_pos accepts, if_pos higher]
  · rw [decide_eq_true_iff]
    omega

theorem accept_lower (accepts : w.wouldAccept counter = true) (lower : ¬ w.highest < counter) :
    (w.accept counter).1 = ⟨w.width, counter :: w.seen, w.highest⟩ := by
  rw [accept, if_pos accepts, if_neg lower]

/-- The step lemma: an accepted counter is remembered, and what falls behind the window is forgotten. -/
theorem Exact.accept (exact : w.Exact accepted) (accepts : w.wouldAccept counter = true) :
    (w.accept counter).1.Exact (accepted ++ [counter]) := by
  obtain ⟨new, inside⟩ := exact.wouldAccept_iff.mp accepts
  have fresh : counter ∉ w.seen := fun seen => new ((exact.seen counter).mp seen).1
  have distinct : (counter :: w.seen).Nodup := List.nodup_cons.mpr ⟨fresh, exact.distinct⟩
  have listed (other : Nat) : other ∈ counter :: w.seen ↔
      other ∈ accepted ++ [counter] ∧ (other = counter ∨ highestOf accepted - w.width < other) := by
    rw [List.mem_cons, exact.seen, List.mem_append, List.mem_singleton]
    constructor
    · rintro (rfl | ⟨member, near⟩)
      · exact ⟨.inr rfl, .inl rfl⟩
      · exact ⟨.inl member, .inr near⟩
    · rintro ⟨member | same, near⟩
      · exact near.imp_right fun near => ⟨member, near⟩
      · exact .inl same
  have before := exact.highest
  by_cases higher : w.highest < counter
  · obtain ⟨near, made, inWindow⟩ := accept_higher accepts higher
    have top : highestOf (accepted ++ [counter]) = counter := by
      rw [highestOf_append]
      omega
    rw [made]
    refine ⟨top.symm, fun other => ?_, distinct.filter near⟩
    rw [List.mem_filter, listed, inWindow, top]
    refine ⟨fun found => ⟨found.1.1, found.2⟩, fun ⟨member, close⟩ => ⟨⟨member, ?_⟩, close⟩⟩
    change (counter : Int) - w.width < other at close
    omega
  · have top : highestOf (accepted ++ [counter]) = highestOf accepted := by
      rw [highestOf_append]
      omega
    rw [accept_lower accepts higher]
    refine ⟨before.trans top.symm, fun other => ?_, distinct⟩
    rw [listed, top]
    refine and_congr_right fun _ => ⟨?_, .inr⟩
    rintro (rfl | near)
    · exact inside
    · exact near

theorem accept_highest (w : ReplayWindow) (counter : Nat) : w.highest ≤ (w.accept counter).1.highest := by
  unfold ReplayWindow.accept
  split
  · split
    next higher => exact higher.le
    next => exact le_refl _
  · exact le_refl _

/-- What is remembered fits into the window. -/
theorem Exact.size_le (exact : w.Exact accepted) : w.seen.length ≤ w.width := by
  let inside := (List.range w.width).map fun behind : Nat => highestOf accepted - (behind : Int)
  have distinct : (w.seen.map fun counter : Nat => (counter : Int)).Nodup := exact.distinct.map Int.ofNat_injective
  have subset : (w.seen.map fun counter : Nat => (counter : Int)) ⊆ inside := by
    intro value member
    obtain ⟨counter, seen, rfl⟩ := List.mem_map.mp member
    obtain ⟨old, near⟩ := (exact.seen counter).mp seen
    have below := le_highestOf old
    refine List.mem_map.mpr ⟨(highestOf accepted - counter).toNat, List.mem_range.mpr ?_, ?_⟩ <;> omega
  have shorter := (List.subperm_of_subset distinct subset).length_le
  simpa only [inside, List.length_map, List.length_range] using shorter

end Exactness

section Calls
variable {start w after : ReplayWindow} {history : List Answered} {e : Answered} {size : Nat}

theorem Exact.answers (exact : w.Exact (acceptedIn history)) (taken : Answers w e after) :
    after.width = w.width ∧ after.Exact (acceptedIn (history ++ [e])) := by
  obtain ⟨call, answer⟩ := e
  have more : acceptedIn (history ++ [⟨call, answer⟩]) =
      acceptedIn history ++ (Answered.accepted ⟨call, answer⟩).toList := by
    rw [acceptedIn, List.filterMap_append]
    cases found : Answered.accepted ⟨call, answer⟩ <;> simp [acceptedIn, found]
  rw [more]
  cases call with
  | wouldAccept counter =>
    cases taken
    exact ⟨rfl, by simpa [Answered.accepted] using exact⟩
  | accept counter =>
    have made : w.accept counter = (after, answer) := taken
    have same : after = (w.accept counter).1 := by rw [made]
    have asked : w.wouldAccept counter = answer := by rw [← accept_answer, made]
    refine ⟨same ▸ accept_width counter, ?_⟩
    cases answer with
    | true => exact same ▸ exact.accept asked
    | false =>
      have kept : after = w := by
        rw [same, ReplayWindow.accept, if_neg (by simp [asked])]
      simpa [Answered.accepted, kept] using exact

theorem run_exact (created : create size = .ok start) (run : Run Answers start history w) :
    w.width = size ∧ w.Exact (acceptedIn history) := by
  induction run with
  | start => exact create_exact created
  | next _ taken ih =>
    obtain ⟨width, exact⟩ := ih
    obtain ⟨kept, exact'⟩ := exact.answers taken
    exact ⟨kept.trans width, exact'⟩

/-- After any calls on a window: a counter is accepted exactly when it never was and is inside the window, `wouldAccept`
says so beforehand and changes nothing, exactly the accepted counters inside the window are remembered, at most as
many as the window is wide, and the highest one never falls. -/
theorem window_exact (created : create size = .ok start) (run : Run Answers start history w) :
    (∀ counter, (w.call (.accept counter)).2 = true ↔
      counter ∉ acceptedIn history ∧ highestOf (acceptedIn history) - size < counter) ∧
    (∀ counter, w.call (.wouldAccept counter) = (w, (w.call (.accept counter)).2)) ∧
    (∀ counter, counter ∈ w.seen ↔ counter ∈ acceptedIn history ∧ highestOf (acceptedIn history) - size < counter) ∧
    (w.seen.Nodup ∧ w.seen.length ≤ size) ∧
    w.highest = highestOf (acceptedIn history) ∧ ∀ call, w.highest ≤ (w.call call).1.highest := by
  obtain ⟨width, exact⟩ := run_exact created run
  have answer (counter : Nat) : (w.call (.accept counter)).2 = w.wouldAccept counter := accept_answer w counter
  subst width
  refine ⟨fun counter => ?_, fun counter => by rw [answer]; rfl, exact.seen, ⟨exact.distinct, exact.size_le⟩,
    exact.highest, fun call => ?_⟩
  · rw [answer]
    exact exact.wouldAccept_iff
  · cases call with
    | wouldAccept => exact le_refl _
    | accept counter => exact accept_highest w counter

end Calls

section Sample

/-- Make calls one after the other. -/
def answerAll : List Call → ReplayWindow → List Answered × ReplayWindow
  | [], w => ([], w)
  | made :: rest, w =>
    let (history, last) := answerAll rest (w.call made).1
    (⟨made, (w.call made).2⟩ :: history, last)

theorem answerAll_run (calls : List Call) (w : ReplayWindow) : Run Answers w (answerAll calls w).1 (answerAll calls w).2 := by
  induction calls generalizing w with
  | nil => exact .start
  | cons made rest ih => exact Run.cons_iff.mpr ⟨_, rfl, ih _⟩

/-- The window of four moves from 5 to 7 while 3 and 6 arrive late, so 3 is forgotten. -/
def sliding : List Call := [.accept 5, .accept 3, .wouldAccept 4, .accept 7, .accept 6, .accept 6]

theorem window_exact_sliding : ((answerAll sliding ⟨4, [], -1⟩).2.call (.accept 3)).2 = false ∧
    ((answerAll sliding ⟨4, [], -1⟩).2.call (.accept 4)).2 = true ∧ (answerAll sliding ⟨4, [], -1⟩).2.seen.length ≤ 4 := by
  have created : create 4 = .ok ⟨4, [], -1⟩ := rfl
  have highest : highestOf (acceptedIn (answerAll sliding ⟨4, [], -1⟩).1) = 7 := rfl
  obtain ⟨accepts, _, _, ⟨_, small⟩, _⟩ := window_exact created (answerAll_run sliding ⟨4, [], -1⟩)
  refine ⟨Bool.eq_false_iff.mpr fun again => ?_, (accepts 4).mpr ⟨by decide, by rw [highest]; decide⟩, small⟩
  have behind := ((accepts 3).mp again).2
  rw [highest] at behind
  exact absurd behind (by decide)

end Sample

end Burble.E2EE.ReplayWindow
