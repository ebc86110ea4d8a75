import Burble.Runs
import Burble.Compose.Executor
import Burble.Compose.PlanOrder

namespace Burble.SelurCompose

section Steps
variable {opts : ExecOpts} {state after : Execution} {event : ExecEvent}

/-- An operation that neither starts a container nor waits for one. -/
def Op.isQuick : Op → Bool
  | runContainer _ => false
  | waitHealthy _ => false
  | _ => true

/-- What one step of an execution that has not failed does. -/
inductive Advances (opts : ExecOpts) (state : Execution) : ExecEvent → Execution → Prop
  | failed (error : DriverError) : Advances opts state (.failed error) (state.fail error)
  | quick {op : Op} {rest : List Op} {event : ExecEvent} (report : ExecReport) (head : state.ops = op :: rest)
      (quick : op.isQuick) (silent : ∀ service id, event ≠ .started service id)
      (outside : ∀ now, event ≠ .waitEntered now) (unseen : ∀ id found now, event ≠ .inspected id found now) :
      Advances opts state event { state with ops := rest, report := report }
  | started {spec : RunSpec} {rest : List Op} (id : ContainerId) (report : ExecReport) (head : state.ops = .runContainer spec :: rest) :
      Advances opts state (.started spec.service id)
        { state with ops := rest, containerIds := AList.insert spec.service id state.containerIds, report := report }
  | waits {spec : WaitHealthySpec} {rest : List Op} (now : Nat) (head : state.ops = .waitHealthy spec :: rest)
      (fresh : state.deadline = none) (order : state.clock ≤ now) :
      Advances opts state (.waitEntered now) { state with deadline := some (now + waitTimeout opts), clock := now }
  | inspected {spec : WaitHealthySpec} {rest : List Op} {deadline : Nat} (found : ContainerState) (now : Nat)
      (head : state.ops = .waitHealthy spec :: rest) (waiting : state.deadline = some deadline) (order : state.clock ≤ now) :
      Advances opts state (.inspected (state.waitedId spec) found now) (state.poll opts spec.service rest deadline found now)

theorem Execution.next_cases (taken : state.next opts event = some after) :
    (∃ service code, event = .exited service code ∧ after = state) ∨ (state.failed = none ∧ Advances opts state event after) := by
  unfold Execution.next at taken
  split at taken
  · split at taken
    · exact .inl ⟨_, _, rfl, (Option.some.inj taken).symm⟩
    · cases taken
  split at taken
  · cases taken
  next going =>
    refine .inr ⟨Option.not_isSome_iff_eq_none.mp going, ?_⟩
    split at taken
    -- the operation that is next, with what the driver answers
    next head _ =>
      cases taken
      exact .quick _ head rfl nofun nofun nofun
    next head _ =>
      cases taken
      exact .quick _ head rfl nofun nofun nofun
    next head _ =>
      split at taken
      · cases taken
        exact .quick _ head rfl nofun nofun nofun
      · cases taken
    next head _ =>
      split at taken
      · cases taken
      · cases taken
        exact .quick _ head rfl nofun nofun nofun
    next head _ =>
      split at taken
      · cases taken
        exact .quick _ head rfl nofun nofun nofun
      · cases taken
    next head _ =>
      split at taken
      · cases taken
      · cases taken
        exact .quick _ head rfl nofun nofun nofun
    next head _ =>
      split at taken
      next same =>
        subst same
        cases taken
        exact .started _ _ head
      · cases taken
    next head _ =>
      split at taken
      next entered =>
        cases taken
        exact .waits _ head entered.1 entered.2
      · cases taken
    next head _ =>
      split at taken
      · cases taken
      next waiting =>
        split at taken
        next asked =>
          obtain ⟨rfl, order⟩ := asked
          cases taken
          exact .inspected _ _ head waiting order
        · cases taken
    next =>
      split at taken
      · cases taken
      · cases taken
        exact .failed _
    next head _ =>
      cases taken
      exact .quick _ head rfl nofun nofun nofun
    next head _ =>
      cases taken
      exact .quick _ head rfl nofun nofun nofun
    next =>
      split at taken
      · cases taken
      · cases taken
        exact .failed _
    next =>
      split at taken
      · cases taken
      · cases taken
        exact .failed _
    next =>
      cases taken
      exact .failed _
    next => cases taken

end Steps

section Smooth

/-- An execution that is going on, outside of any wait. -/
def Execution.Between (state : Execution) (ops : List Op) : Prop :=
  state.ops = ops ∧ state.failed = none ∧ state.deadline = none

/-- Each inspection is the first of its wait, is there at once and finds this health. -/
def Prompt (opts : ExecOpts) (health : Option HealthState) (state : Execution) (event : ExecEvent) : Prop :=
  ∀ id found now, event = .inspected id found now → found.health = health ∧ state.deadline = some (now + waitTimeout opts)

/-- Events by which an operation is carried out, without any container that exits. -/
structure CarriesOut (opts : ExecOpts) (health : Option HealthState) (before : Execution) (op : Op) (events : List ExecEvent)
    (after : Execution) : Prop where
  run : Run (Guarded (Prompt opts health) (Execution.step opts)) before events after
  quiet : ∀ service code, .exited service code ∉ events
  starts : ∀ spec, op = .runContainer spec → ∃ id, .started spec.service id ∈ events

theorem carriesOut_single {opts : ExecOpts} {health : Option HealthState} {before after : Execution} {op : Op} (event : ExecEvent)
    (taken : Execution.step opts before event after) (quiet : ∀ service code, event ≠ .exited service code)
    (unseen : ∀ id found now, event ≠ .inspected id found now)
    (starts : ∀ spec, op = .runContainer spec → ∃ id, event = .started spec.service id) :
    CarriesOut opts health before op [event] after where
  run := .single ⟨fun id found now same => absurd same (unseen id found now), taken⟩
  quiet service code member := quiet service code (List.mem_singleton.mp member).symm
  starts spec same := by
    obtain ⟨id, equal⟩ := starts spec same
    exact ⟨id, List.mem_singleton.mpr equal.symm⟩

/-- A health that ends a wait. -/
def Passes (health : Option HealthState) : Prop := ∀ state ∈ health, state.status = .healthy

theorem Execution.poll_passes {opts : ExecOpts} {state : Execution} {found : ContainerState} (passes : Passes found.health)
    (service : String) (rest : List Op) (deadline now : Nat) :
    state.poll opts service rest deadline found now = { state with ops := rest, deadline := none, clock := now } := by
  unfold Execution.poll
  cases seen : found.health with
  | none => rfl
  | some health =>
    have healthy := passes health seen
    simp only [healthy]

/-- Whatever the operation is, the driver can answer so that it is carried out. -/
theorem exists_carriesOut (opts : ExecOpts) {health : Option HealthState} (passes : Passes health) {before : Execution}
    {op : Op} {rest : List Op} (between : before.Between (op :: rest)) :
    ∃ events after, CarriesOut opts health before op events after ∧ after.Between rest := by
  obtain ⟨ops, report, containerIds, deadline, clock, failed⟩ := before
  obtain ⟨rfl, rfl, rfl⟩ := between
  cases op with
  | createNetwork spec =>
    exact ⟨_, _, carriesOut_single .networkCreated rfl nofun nofun nofun, rfl, rfl, rfl⟩
  | createVolume spec =>
    exact ⟨_, _, carriesOut_single .volumeCreated rfl nofun nofun nofun, rfl, rfl, rfl⟩
  | buildImage spec =>
    by_cases skips : opts.noBuild = true
    · exact ⟨_, _, carriesOut_single .skipped (if_pos skips) nofun nofun nofun, rfl, rfl, rfl⟩
    · exact ⟨_, _, carriesOut_single (.imageBuilt "") (if_neg skips) nofun nofun nofun, rfl, rfl, rfl⟩
  | pullImage spec =>
    by_cases skips : opts.noPull = true
    · exact ⟨_, _, carriesOut_single .skipped (if_pos skips) nofun nofun nofun, rfl, rfl, rfl⟩
    · exact ⟨_, _, carriesOut_single (.imagePulled "") (if_neg skips) nofun nofun nofun, rfl, rfl, rfl⟩
  | runContainer spec =>
    refine ⟨_, _, carriesOut_single (.started spec.service spec.containerName) (if_pos rfl) nofun nofun ?_, rfl, rfl, rfl⟩
    rintro _ ⟨⟩
    exact ⟨_, rfl⟩
  | waitHealthy spec =>
    let entered : Execution := ⟨.waitHealthy spec :: rest, report, containerIds, some (clock + waitTimeout opts), clock, none⟩
    let found : ContainerState := ⟨spec.containerName, "running", 1, 0, health⟩
    have enters : Execution.step opts ⟨.waitHealthy spec :: rest, report, containerIds, none, clock, none⟩
        (.waitEntered clock) entered := if_pos ⟨rfl, Nat.le_refl clock⟩
    have inspects : Execution.step opts entered (.inspected (entered.waitedId spec) found clock)
        (entered.poll opts spec.service rest (clock + waitTimeout opts) found clock) := if_pos ⟨rfl, Nat.le_refl clock⟩
    rw [Execution.poll_passes passes] at inspects
    have prompt : Prompt opts health entered (.inspected (entered.waitedId spec) found clock) := by
      rintro _ _ _ ⟨⟩
      exact ⟨rfl, rfl⟩
    exact ⟨[.waitEntered clock, .inspected (entered.waitedId spec) found clock], _,
      ⟨(Run.single ⟨nofun, enters⟩).next ⟨prompt, inspects⟩, by simp, nofun⟩, rfl, rfl, rfl⟩
  | stopContainer spec =>
    exact ⟨_, _, carriesOut_single .stopped rfl nofun nofun nofun, rfl, rfl, rfl⟩
  | removeContainer spec =>
    exact ⟨_, _, carriesOut_single .removed rfl nofun nofun nofun, rfl, rfl, rfl⟩

theorem exists_smooth (opts : ExecOpts) {health : Option HealthState} (passes : Passes health) {ops : List Op}
    {before : Execution} (between : before.Between ops) :
    ∃ events after, Run (Guarded (Prompt opts health) (Execution.step opts)) before events after ∧ after.Between [] ∧
      (∀ service code, .exited service code ∉ events) ∧
      ∀ spec, .runContainer spec ∈ ops → ∃ id, .started spec.service id ∈ events := by
  induction ops generalizing before with
  | nil =>
    exact ⟨[], before, .start, between, fun _ _ => List.not_mem_nil, fun _ member => absurd member List.not_mem_nil⟩
  | cons op rest ih =>
    obtain ⟨first, middle, carried, next⟩ := exists_carriesOut opts passes between
    obtain ⟨later, after, run, ended, quiet, starts⟩ := ih next
    refine ⟨first ++ later, after, carried.run.append run, ended, fun service code member => ?_, fun spec member => ?_⟩
    · exact (List.mem_append.mp member).elim (carried.quiet service code) (quiet service code)
    · rcases List.mem_cons.mp member with same | among
      · obtain ⟨id, started⟩ := carried.starts spec same.symm
        exact ⟨id, List.mem_append_left _ started⟩
      · obtain ⟨id, started⟩ := starts spec among
        exact ⟨id, List.mem_append_right _ started⟩

theorem run_prompt {opts : ExecOpts} {health : Option HealthState} {first last : Execution} {events : List ExecEvent}
    (run : Run (Guarded (Prompt opts health) (Execution.step opts)) first events last) {id : ContainerId} {found : ContainerState}
    {now : Nat} (member : .inspected id found now ∈ events) : found.health = health := by
  obtain ⟨front, back, rfl⟩ := List.append_of_mem member
  obtain ⟨_, -, onward⟩ := run.split
  obtain ⟨_, ⟨prompt, -⟩, -⟩ := Run.cons_iff.mp onward
  exact (prompt id found now rfl).1

/-- Every active service of a plan is started in some execution whose inspections all find this health, and in which
no container exits. -/
theorem exists_started {serviceHash : Service → Except String String} {compose : Compose} {planOpts : PlanOptions} {planned : Plan}
    (opts : ExecOpts) {health : Option HealthState} (passes : Passes health) (made : plan serviceHash compose planOpts = .ok planned)
    {name : String} (active : name ∈ (compose.services.filterValues (Service.active planOpts.profiles)).keys) (clock : Nat) :
    ∃ events last id, Run (Guarded (Prompt opts health) (Execution.step opts)) (begin planned clock) events last ∧
      (∀ service code, .exited service code ∉ events) ∧ .started name id ∈ events := by
  have one := plan_runs made name
  rw [if_pos active] at one
  obtain ⟨op, member, runs⟩ := exists_of_countP (by rw [one]; exact Nat.one_pos)
  obtain ⟨events, last, run, -, quiet, starts⟩ :=
    exists_smooth opts passes (show (begin planned clock).Between planned.ops from ⟨rfl, rfl, rfl⟩)
  cases op with
  | runContainer spec =>
    obtain ⟨id, started⟩ := starts spec member
    rw [of_decide_eq_true runs] at started
    exact ⟨events, last, id, run, quiet, started⟩
  | _ => cases runs

end Smooth

end Burble.SelurCompose
