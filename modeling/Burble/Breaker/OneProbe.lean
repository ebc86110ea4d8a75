import Burble.Runs
import Burble.Breaker.CircuitBreaker

namespace Burble.Breaker

/-- Callers of a breaker, with how often it was opened and re-opened, how often it had been when each call
read that, and the calls that were admitted since it became half open. -/
structure Watched where
  callers : Callers
  openings : Nat
  readAt : Caller → Nat
  probes : List Caller

namespace Watched

abbrev breaker (watched : Watched) : CircuitBreaker := watched.callers.breaker

abbrev phase (watched : Watched) : Caller → Phase := watched.callers.phase

def start (breaker : CircuitBreaker) : Watched := ⟨⟨breaker, fun _ => .idle⟩, 0, fun _ => 0, []⟩

/-- What is seen of an operation. -/
def observe (config : Config) (before : Watched) (caller : Caller) (callers : Callers) : Watched :=
  match before.phase caller with
  | .readOpenedAt _ =>
    { before with callers := callers, readAt := Function.update before.readAt caller before.openings }
  | .checkState failures openedAt =>
    if stateOf config failures openedAt before.breaker.now ≠ .opened ∧ before.breaker.state config = .halfOpen then
      { before with callers := callers, probes := before.probes ++ [caller] }
    else { before with callers := callers }
  | .deleteOpenedAt _ => { before with callers := callers, probes := [] }
  | .insertOpenedAt _ => { before with callers := callers, openings := before.openings + 1, probes := [] }
  | _ => { before with callers := callers }

def next (config : Config) (before : Watched) (action : Action) : Option Watched :=
  (before.callers.next config action).map fun callers =>
    match action with
    | .operate caller => observe config before caller callers
    | _ => { before with callers := callers }

def Step (config : Config) (before : Watched) (action : Action) (after : Watched) : Prop :=
  before.next config action = some after

/-- A call is in progress from its admission until its result is recorded. -/
def Admitted : Phase → Prop
  | .running | .insertFailures .recordSuccess | .deleteOpenedAt .recordSuccess | .updateCounter | .readClock
  | .insertOpenedAt _ => True
  | _ => False

/-- Only resets and the calls that were admitted since the breaker became half open close it. -/
def ClosedByProbe (config : Config) (before : Watched) (action : Action) (after : Watched) : Prop :=
  before.breaker.state config ≠ .closed → after.breaker.state config = .closed →
    ∃ caller, action = .operate caller ∧
      (caller ∈ before.probes ∨ before.phase caller = .insertFailures .reset ∨
        before.phase caller = .deleteOpenedAt .reset)

/-- When a call is admitted by a breaker that is half open, those that were before it have their results
recorded. A success is recorded while the entry that its check read stands, if there is one, and else while the
failures are below the threshold. The failure of a call that was admitted by a breaker that is half open is
counted while the failures are at the threshold. -/
def UndisturbedAt (config : Config) (before : Watched) (caller : Caller) : Phase → Prop
  | .checkState failures openedAt =>
    stateOf config failures openedAt before.breaker.now ≠ .opened → before.breaker.state config = .halfOpen →
      ∀ probe ∈ before.probes, before.phase probe = .returned
  | .insertFailures .recordSuccess =>
    before.breaker.openedAt = none → before.breaker.failures.getD 0 < config.failureThreshold
  | .deleteOpenedAt .recordSuccess => before.breaker.openedAt ≠ none → before.readAt caller = before.openings
  | .updateCounter => caller ∈ before.probes → config.failureThreshold ≤ before.breaker.failures.getD 0 + 1
  | _ => True

def Undisturbed (config : Config) (before : Watched) : Action → Prop
  | .operate caller => UndisturbedAt config before caller (before.phase caller)
  | _ => True

/-- What holds of the calls as long as they are undisturbed. -/
structure Kept (watched : Watched) : Prop where
  read : ∀ caller, watched.readAt caller ≤ watched.openings
  fresh : ∀ caller failures openedAt, watched.phase caller = .checkState failures openedAt →
    watched.breaker.openedAt ≠ none → watched.readAt caller = watched.openings → openedAt = watched.breaker.openedAt
  admitted : ∀ caller, Admitted (watched.phase caller) → watched.breaker.openedAt ≠ none →
    watched.readAt caller = watched.openings → caller ∈ watched.probes
  busy : ∀ caller ∈ watched.probes, Admitted (watched.phase caller)
  one : watched.probes.length ≤ 1

variable {config : Config} {before after : Watched} {caller : Caller} {action : Action}

theorem start_kept (breaker : CircuitBreaker) : (start breaker).Kept where
  read := fun _ => Nat.le_refl 0
  fresh := fun _ _ _ checked => by cases checked
  admitted := fun _ progress => progress.elim
  busy := fun _ member => by cases member
  one := Nat.zero_le 1

theorem observe_callers (callers : Callers) : (observe config before caller callers).callers = callers := by
  unfold observe
  split
  · rfl
  · split <;> rfl
  · rfl
  · rfl
  · rfl

theorem step_operate (taken : Step config before (.operate caller) after) :
    ∃ breaker phase, operate config before.breaker (before.phase caller) = some (breaker, phase) ∧
      after = observe config before caller { before.callers.goto caller phase with breaker := breaker } := by
  obtain ⟨callers, made, rfl⟩ := Option.map_eq_some_iff.mp taken
  obtain ⟨⟨breaker, phase⟩, operated, rfl⟩ := Option.map_eq_some_iff.mp made
  exact ⟨breaker, phase, operated, rfl⟩

/-- Only an operation changes an entry. -/
theorem step_entries (taken : Step config before action after) (operates : ¬ ∃ caller, action = .operate caller) :
    after.breaker.failures = before.breaker.failures ∧ after.breaker.openedAt = before.breaker.openedAt := by
  obtain ⟨callers, made, rfl⟩ := Option.map_eq_some_iff.mp taken
  cases action with
  | operate caller => exact absurd ⟨caller, rfl⟩ operates
  | tick | withBreaker | reset | finish =>
    obtain ⟨_, ⟨⟩⟩ := Option.ite_none_right_eq_some.mp made
    exact ⟨rfl, rfl⟩

namespace Kept

/-- A step of a caller that neither reads nor writes the entry. -/
theorem goto (kept : before.Kept) {callers : Callers} {phase : Phase}
    (phases : callers.phase = Function.update before.phase caller phase)
    (entry : callers.breaker.openedAt = before.breaker.openedAt)
    (unchecked : ∀ failures openedAt, phase ≠ .checkState failures openedAt)
    (admission : Admitted phase → before.breaker.openedAt ≠ none → before.readAt caller = before.openings →
      caller ∈ before.probes)
    (busy : caller ∈ before.probes → Admitted phase) : Kept { before with callers := callers } := by
  constructor <;> dsimp only [Watched.phase, Watched.breaker] <;> try rw [phases]
  case read => exact kept.read
  case one => exact kept.one
  case fresh =>
    rw [entry]
    intro other failures openedAt
    rcases eq_or_ne other caller with rfl | elsewhere
    · rw [Function.update_self]
      exact fun checked => absurd checked (unchecked failures openedAt)
    · rw [Function.update_of_ne elsewhere]
      exact kept.fresh other failures openedAt
  case admitted =>
    rw [entry]
    intro other
    rcases eq_or_ne other caller with rfl | elsewhere
    · rw [Function.update_self]
      exact admission
    · rw [Function.update_of_ne elsewhere]
      exact kept.admitted other
  case busy =>
    intro other member
    rcases eq_or_ne other caller with rfl | elsewhere
    · rw [Function.update_self]
      exact busy member
    · rw [Function.update_of_ne elsewhere]
      exact kept.busy other member

/-- A caller that is not in progress is none of the calls that were admitted. -/
theorem wait (kept : before.Kept) {callers : Callers} {phase : Phase}
    (phases : callers.phase = Function.update before.phase caller phase)
    (entry : callers.breaker.openedAt = before.breaker.openedAt)
    (unchecked : ∀ failures openedAt, phase ≠ .checkState failures openedAt)
    (outside : ¬ Admitted (before.phase caller)) (outside' : ¬ Admitted phase) :
    Kept { before with callers := callers } :=
  kept.goto phases entry unchecked (fun progress => absurd progress outside')
    fun member => absurd (kept.busy caller member) outside

theorem proceed (kept : before.Kept) {callers : Callers} {phase : Phase}
    (phases : callers.phase = Function.update before.phase caller phase)
    (entry : callers.breaker.openedAt = before.breaker.openedAt)
    (unchecked : ∀ failures openedAt, phase ≠ .checkState failures openedAt)
    (progress : Admitted (before.phase caller)) (progress' : Admitted phase) :
    Kept { before with callers := callers } :=
  kept.goto phases entry unchecked (fun _ => kept.admitted caller progress) fun _ => progress'

theorem outside (kept : before.Kept) (idle : ¬ Admitted (before.phase caller)) : caller ∉ before.probes :=
  fun member => idle (kept.busy caller member)

theorem readOpenedAt (kept : before.Kept) {failures : Nat} (here : before.phase caller = .readOpenedAt failures) :
    Kept { before with
      callers := before.callers.goto caller (.checkState failures before.breaker.openedAt)
      readAt := Function.update before.readAt caller before.openings } := by
  have outside : caller ∉ before.probes := kept.outside (by simp [here, Admitted])
  constructor <;> dsimp only [Watched.phase, Callers.goto]
  case one => exact kept.one
  case read =>
    intro other
    rcases eq_or_ne other caller with rfl | elsewhere
    · exact Nat.le_of_eq (Function.update_self ..)
    · rw [Function.update_of_ne elsewhere]
      exact kept.read other
  case fresh =>
    intro other seen openedAt
    rcases eq_or_ne other caller with rfl | elsewhere
    · rw [Function.update_self]
      rintro ⟨⟩ _ _
      rfl
    · rw [Function.update_of_ne elsewhere, Function.update_of_ne elsewhere]
      exact kept.fresh other seen openedAt
  case admitted =>
    intro other
    rcases eq_or_ne other caller with rfl | elsewhere
    · rw [Function.update_self]
      exact fun progress => progress.elim
    · rw [Function.update_of_ne elsewhere, Function.update_of_ne elsewhere]
      exact kept.admitted other
  case busy =>
    intro other member
    rw [Function.update_of_ne (by
      rintro rfl
      exact outside member)]
    exact kept.busy other member

/-- The first call that is admitted by a breaker that is half open. -/
theorem firstAdmitted (kept : before.Kept) (none : before.probes = []) : Kept { before with
    callers := before.callers.goto caller .running
    probes := [caller] } := by
  constructor <;> dsimp only [Watched.phase, Callers.goto]
  case one => exact Nat.le_refl 1
  case read => exact kept.read
  case fresh =>
    intro other failures openedAt
    rcases eq_or_ne other caller with rfl | elsewhere
    · rw [Function.update_self]
      nofun
    · rw [Function.update_of_ne elsewhere]
      exact kept.fresh other failures openedAt
  case admitted =>
    intro other
    rcases eq_or_ne other caller with rfl | elsewhere
    · exact fun _ _ _ => List.mem_singleton_self other
    · rw [Function.update_of_ne elsewhere]
      intro progress some same
      have member := kept.admitted other progress some same
      rw [none] at member
      cases member
  case busy =>
    intro other member
    cases List.mem_singleton.mp member
    rw [Function.update_self]
    trivial

/-- A call that is admitted before the breaker is half open did not see the entry that stands. -/
theorem checkState (kept : before.Kept) {failures : Nat} {openedAt : Option Int}
    (here : before.phase caller = .checkState failures openedAt)
    (undisturbed : Undisturbed config before (.operate caller)) :
    (observe config before caller (before.callers.goto caller
      (if stateOf config failures openedAt before.breaker.now = .opened then .rejected else .running))).Kept := by
  have waiting : ¬ Admitted (before.phase caller) := by simp [here, Admitted]
  rw [Undisturbed, here, UndisturbedAt] at undisturbed
  rw [observe, here]
  by_cases rejected : stateOf config failures openedAt before.breaker.now = .opened
  · rw [if_pos rejected]
    dsimp only
    rw [if_neg fun both => both.1 rejected]
    exact kept.wait rfl rfl (by simp) waiting (by simp [Admitted])
  · rw [if_neg rejected]
    dsimp only
    by_cases half : before.breaker.state config = .halfOpen
    · have none : before.probes = [] := List.eq_nil_iff_forall_not_mem.mpr fun probe member => by
        have progress := kept.busy probe member
        rw [undisturbed rejected half probe member] at progress
        exact progress
      rw [if_pos ⟨rejected, half⟩, none]
      exact kept.firstAdmitted none
    · rw [if_neg fun both => half both.2]
      refine kept.goto rfl rfl (by simp) (fun _ some same => ?_) fun member => absurd (kept.busy caller member) waiting
      have seen := kept.fresh caller failures openedAt here some same
      obtain ⟨time, entry⟩ := Option.ne_none_iff_exists'.mp some
      rw [seen, entry] at rejected
      have now := halfOpen_of_admitted rejected
      rw [CircuitBreaker.state, entry] at half
      exact absurd now half

theorem operate (kept : before.Kept) (undisturbed : Undisturbed config before (.operate caller))
    (taken : Step config before (.operate caller) after) : after.Kept := by
  obtain ⟨breaker, phase, operated, rfl⟩ := step_operate taken
  cases here : before.phase caller with
  | idle | rejected | running | returned =>
    rw [here] at operated
    cases operated
  | readFailures =>
    rw [here] at operated
    cases operated
    rw [observe, here]
    exact kept.wait rfl rfl (by simp) (by simp [here, Admitted]) (by simp [Admitted])
  | readOpenedAt failures =>
    rw [here] at operated
    cases operated
    rw [observe, here]
    exact kept.readOpenedAt here
  | checkState failures openedAt =>
    rw [here] at operated
    cases operated
    exact kept.checkState here undisturbed
  | insertFailures closing =>
    rw [here] at operated
    cases operated
    rw [observe, here]
    cases closing with
    | recordSuccess => exact kept.proceed rfl rfl (by simp) (by simp [here, Admitted]) (by simp [Admitted])
    | reset => exact kept.wait rfl rfl (by simp) (by simp [here, Admitted]) (by simp [Admitted])
  | deleteOpenedAt closing =>
    rw [here] at operated
    cases operated
    rw [observe, here]
    exact ⟨kept.read, fun _ _ _ _ some => absurd rfl some, fun _ _ some => absurd rfl some,
      fun _ member => (by cases member), Nat.zero_le 1⟩
  | updateCounter =>
    rw [here] at operated
    cases operated
    rw [observe, here]
    rw [Undisturbed, here, UndisturbedAt] at undisturbed
    by_cases reached : before.breaker.failures.getD 0 + 1 ≥ config.failureThreshold
    · rw [if_pos reached]
      exact kept.proceed rfl rfl (by simp) (by simp [here, Admitted]) (by simp [Admitted])
    · rw [if_neg reached]
      exact kept.goto rfl rfl (by simp) (fun progress => progress.elim) fun member => absurd (undisturbed member) reached
  | readClock =>
    rw [here] at operated
    cases operated
    rw [observe, here]
    exact kept.proceed rfl rfl (by simp) (by simp [here, Admitted]) (by simp [Admitted])
  | insertOpenedAt now =>
    rw [here] at operated
    cases operated
    rw [observe, here]
    exact ⟨fun other => Nat.le_succ_of_le (kept.read other),
      fun other _ _ _ _ same => absurd (kept.read other) (by dsimp only at same; omega),
      fun other _ _ same => absurd (kept.read other) (by dsimp only at same; omega),
      fun _ member => (by cases member), Nat.zero_le 1⟩

theorem step (kept : before.Kept) (undisturbed : Undisturbed config before action)
    (taken : Step config before action after) : after.Kept := by
  cases action with
  | operate caller => exact kept.operate undisturbed taken
  | tick now =>
    obtain ⟨callers, made, rfl⟩ := Option.map_eq_some_iff.mp taken
    obtain ⟨_, ⟨⟩⟩ := Option.ite_none_right_eq_some.mp made
    exact ⟨kept.read, kept.fresh, kept.admitted, kept.busy, kept.one⟩
  | withBreaker caller =>
    obtain ⟨callers, made, rfl⟩ := Option.map_eq_some_iff.mp taken
    obtain ⟨idle, ⟨⟩⟩ := Option.ite_none_right_eq_some.mp made
    exact kept.wait rfl rfl (by simp) (by simp [idle, Admitted]) (by simp [Admitted])
  | reset caller =>
    obtain ⟨callers, made, rfl⟩ := Option.map_eq_some_iff.mp taken
    obtain ⟨idle, ⟨⟩⟩ := Option.ite_none_right_eq_some.mp made
    exact kept.wait rfl rfl (by simp) (by simp [idle, Admitted]) (by simp [Admitted])
  | finish caller result =>
    obtain ⟨callers, made, rfl⟩ := Option.map_eq_some_iff.mp taken
    obtain ⟨running, ⟨⟩⟩ := Option.ite_none_right_eq_some.mp made
    exact kept.proceed rfl rfl (by cases result <;> simp [classifyAndRecord]) (by simp [running, Admitted])
      (by cases result <;> simp [classifyAndRecord, Admitted])

theorem closedByProbe (kept : before.Kept) (undisturbed : Undisturbed config before action)
    (taken : Step config before action after) : ClosedByProbe config before action after := by
  intro notClosed closed
  by_cases operates : ∃ caller, action = .operate caller
  case neg =>
    obtain ⟨failures, openedAt⟩ := step_entries taken operates
    have parts := state_closed_iff.mp closed
    rw [failures, openedAt] at parts
    exact (notClosed (state_closed_iff.mpr parts)).elim
  obtain ⟨caller, rfl⟩ := operates
  obtain ⟨breaker, phase, operated, rfl⟩ := step_operate taken
  rw [Watched.breaker, observe_callers] at closed
  refine ⟨caller, rfl, ?_⟩
  rw [Undisturbed] at undisturbed
  cases here : before.phase caller with
  | idle | rejected | running | returned =>
    rw [here] at operated
    cases operated
  | readFailures | readOpenedAt | checkState | readClock =>
    rw [here] at operated
    cases operated
    exact absurd closed notClosed
  | insertFailures closing =>
    cases closing with
    | reset => exact .inr (.inl rfl)
    | recordSuccess =>
      rw [here] at operated undisturbed
      rw [UndisturbedAt] at undisturbed
      cases operated
      have none := (state_closed_iff.mp closed).1
      exact (notClosed (state_closed_iff.mpr ⟨none, undisturbed none⟩)).elim
  | deleteOpenedAt closing =>
    cases closing with
    | reset => exact .inr (.inr rfl)
    | recordSuccess =>
      rw [here] at operated undisturbed
      rw [UndisturbedAt] at undisturbed
      cases operated
      have below := (state_closed_iff.mp closed).2
      have some : before.breaker.openedAt ≠ none := fun none =>
        notClosed (state_closed_iff.mpr ⟨none, below⟩)
      exact .inl (kept.admitted caller (by rw [here]; trivial) some (undisturbed some))
  | updateCounter =>
    rw [here] at operated
    cases operated
    obtain ⟨none, below⟩ := state_closed_iff.mp closed
    exact (notClosed (state_closed_iff.mpr ⟨none, Nat.lt_of_succ_lt below⟩)).elim
  | insertOpenedAt now =>
    rw [here] at operated
    cases operated
    cases (state_closed_iff.mp closed).1

end Kept

/-- As long as the calls are undisturbed, a breaker that is half open admits one of them until it is closed or
re-opened, and is only closed by that one or by a reset. -/
theorem one_probe (config : Config) (breaker : CircuitBreaker) {actions : List Action} {last : Watched}
    (run : Run (Guarded (Undisturbed config) (Step config)) (start breaker) actions last) :
    Run (fun before action after => Step config before action after ∧ ClosedByProbe config before action after ∧
      after.probes.length ≤ 1) (start breaker) actions last := by
  have all : last.Kept ∧ Run (fun before action after => Step config before action after ∧
      ClosedByProbe config before action after ∧ after.probes.length ≤ 1) (start breaker) actions last := by
    induction run with
    | start => exact ⟨start_kept breaker, .start⟩
    | next _ taken ih =>
      have kept := ih.1.step taken.1 taken.2
      exact ⟨kept, ih.2.next ⟨taken.2, ih.1.closedByProbe taken.1 taken.2, kept.one⟩⟩
  exact all.2

section Samples

instance (config : Config) (before : Watched) (caller : Caller) :
    (phase : Phase) → Decidable (UndisturbedAt config before caller phase)
  | .checkState failures openedAt => inferInstanceAs (Decidable (
      stateOf config failures openedAt before.breaker.now ≠ .opened → before.breaker.state config = .halfOpen →
        ∀ probe ∈ before.probes, before.phase probe = .returned))
  | .insertFailures .recordSuccess => inferInstanceAs (Decidable (
      before.breaker.openedAt = none → before.breaker.failures.getD 0 < config.failureThreshold))
  | .deleteOpenedAt .recordSuccess =>
    inferInstanceAs (Decidable (before.breaker.openedAt ≠ none → before.readAt caller = before.openings))
  | .updateCounter => inferInstanceAs (Decidable (
      caller ∈ before.probes → config.failureThreshold ≤ before.breaker.failures.getD 0 + 1))
  | .insertFailures .reset | .deleteOpenedAt .reset | .idle | .readFailures | .readOpenedAt _ | .rejected | .running
  | .readClock | .insertOpenedAt _ | .returned => .isTrue trivial

instance (config : Config) (before : Watched) : (action : Action) → Decidable (Undisturbed config before action)
  | .operate caller =>
    inferInstanceAs (Decidable (UndisturbedAt config before caller (before.phase caller)))
  | .tick _ | .withBreaker _ | .reset _ | .finish _ _ => .isTrue trivial

def sampleConfig : Config := ⟨1, 50⟩

def fresh : CircuitBreaker := ⟨none, none, 0⟩

/-- A caller up to the protected call. -/
def admission (caller : Caller) : List Action :=
  [.withBreaker caller, .operate caller, .operate caller, .operate caller]

def failure (caller : Caller) : List Action :=
  [.finish caller .errorTuple, .operate caller, .operate caller, .operate caller]

def success (caller : Caller) : List Action := [.finish caller .other, .operate caller, .operate caller]

/-- A breaker that is opened, probed and closed. -/
theorem probed : ∃ last : Watched, last.breaker = ⟨some 0, none, 50⟩ ∧
    Run (fun before action after => Step sampleConfig before action after ∧
      ClosedByProbe sampleConfig before action after ∧ after.probes.length ≤ 1) (start fresh)
      (admission 0 ++ failure 0 ++ [.tick 50] ++ admission 1 ++ success 1) last :=
  ⟨_, rfl, one_probe sampleConfig fresh (play_run_guarded rfl)⟩

/-- A breaker that is half open admits two calls, and one that has just been opened is closed by a call that was
admitted before. -/
theorem second_probe :
    (∃ watched : Watched, Reachable (Step sampleConfig) (start fresh) watched ∧
      watched.breaker.state sampleConfig = .halfOpen ∧ watched.probes = [1, 2] ∧
      watched.phase 1 = .running ∧ watched.phase 2 = .running) ∧
    ∃ before after : Watched, Reachable (Step sampleConfig) (start fresh) before ∧
      Step sampleConfig before (.operate 1) after ∧ before.breaker.state sampleConfig = .opened ∧
      after.breaker.state sampleConfig = .closed ∧ before.probes = [] ∧
      before.phase 1 = .deleteOpenedAt .recordSuccess := by
  constructor
  · exact ⟨_, ⟨admission 0 ++ failure 0 ++ [.tick 50] ++ admission 1 ++ admission 2, play_run rfl⟩, rfl, rfl, rfl, rfl⟩
  · have played : ∃ before : Watched, play (next sampleConfig)
        (admission 0 ++ admission 1 ++ failure 0 ++ [.finish 1 .other, .operate 1]) (start fresh) = some before ∧
        ∃ after : Watched, before.next sampleConfig (.operate 1) = some after ∧
          before.breaker.state sampleConfig = .opened ∧ after.breaker.state sampleConfig = .closed ∧
          before.probes = [] ∧ before.phase 1 = .deleteOpenedAt .recordSuccess :=
      ⟨_, rfl, _, rfl, rfl, rfl, rfl, rfl⟩
    obtain ⟨before, played, after, taken, rest⟩ := played
    exact ⟨before, after, ⟨_, play_run played⟩, taken, rest⟩

end Samples

end Watched
end Burble.Breaker
