import Burble.Compose.Executions

namespace Burble.SelurCompose

/-- What an inspection reports. -/
def ContainerState.Reports (found : ContainerState) (status : HealthStatus) : Prop :=
  found.health.map HealthState.status = some status

def nanoseconds (duration : Duration) : Nanoseconds := duration * 1000000

/-- The time a service's own settings allow it to become healthy; what is not set is as for every service. -/
def Healthcheck.allowed (check : Healthcheck) : Nanoseconds :=
  check.startPeriod.getD 0 +
    check.interval.getD (nanoseconds waitInterval) * ((check.retries.map UInt32.toNat).getD waitRetries + 1) +
    nanoseconds timeoutSlack

/-- The executor waits for a service, and has since this time. -/
def Execution.Waits (opts : ExecOpts) (state : Execution) (dep : String) (entered : Nat) : Prop :=
  ∃ spec rest, state.ops = .waitHealthy spec :: rest ∧ spec.service = dep ∧ state.deadline = some (entered + waitTimeout opts)

/-- An inspection of a service that is waited for finds information on its health, and finds it healthy in time or not at all. -/
def Timely (opts : ExecOpts) (dep : String) (allowed : Nanoseconds) (state : Execution) (event : ExecEvent) : Prop :=
  ∀ entered id found now, state.Waits opts dep entered → event = .inspected id found now →
    found.health ≠ none ∧ (found.Reports .healthy → nanoseconds (now - entered) < allowed)

/-- The container of a service was started, then waited for, and found healthy in time. -/
def FoundHealthy (dep : String) (allowed : Nanoseconds) (past : List ExecEvent) : Prop :=
  ∃ front entered middle id found now back,
    past = front ++ .waitEntered entered :: middle ++ .inspected id found now :: back ∧
    .started dep id ∈ front ∧ found.Reports .healthy ∧ nanoseconds (now - entered) < allowed

def ExecEvent.isInspected : ExecEvent → Bool
  | inspected _ _ _ => true
  | _ => false

section Invariant
variable {opts : ExecOpts} {dep : String} {allowed : Nanoseconds} {activeServices : ActiveServices} {ops done : List Op}
  {past : List ExecEvent} {state after : Execution} {event : ExecEvent}

/-- The wait that is going on: since when, and after which starts and inspections. -/
structure Waiting (opts : ExecOpts) (past : List ExecEvent) (state : Execution) (spec : WaitHealthySpec) (entered : Nat)
    (front middle : List ExecEvent) : Prop where
  head : ∃ rest, state.ops = .waitHealthy spec :: rest
  deadline : state.deadline = some (entered + waitTimeout opts)
  split : past = front ++ .waitEntered entered :: middle
  ids : ∀ name id, state.containerIds.lookup name = some id → .started name id ∈ front
  polled : state.failed = none → entered + middle.countP ExecEvent.isInspected * defaultPollInterval ≤ state.clock ∧
    state.clock < entered + waitTimeout opts + defaultPollInterval

/-- What an execution has done of its operations, and what it saw. -/
structure Accounted (opts : ExecOpts) (dep : String) (allowed : Nanoseconds) (ops : List Op) (past : List ExecEvent)
    (state : Execution) (done : List Op) : Prop where
  split : ops = done ++ state.ops
  started : ∀ name id, .started name id ∈ past → ∃ op ∈ done, op.runs name = true
  ids : ∀ name id, state.containerIds.lookup name = some id → .started name id ∈ past
  ran : ∀ op ∈ done, ∀ name, op.runs name = true → (state.containerIds.lookup name).isSome
  found : ∀ op ∈ done, op.waits dep = true → FoundHealthy dep allowed past
  waiting : state.deadline = none ∨ ∃ spec entered front middle, Waiting opts past state spec entered front middle

theorem FoundHealthy.mono {more : List ExecEvent} (found : FoundHealthy dep allowed past) : FoundHealthy dep allowed (past ++ more) := by
  obtain ⟨front, entered, middle, id, state, now, back, rfl, rest⟩ := found
  exact ⟨front, entered, middle, id, state, now, back ++ more, by simp, rest⟩

theorem accounted_begin (planned : Plan) (clock : Nat) : Accounted opts dep allowed planned.ops [] (begin planned clock) [] where
  split := rfl
  started := nofun
  ids := nofun
  ran := nofun
  found := nofun
  waiting := .inl rfl

/-- An event by which nothing is done. -/
theorem Accounted.idle (accounted : Accounted opts dep allowed ops past state done) (same : after.ops = state.ops)
    (sameIds : after.containerIds = state.containerIds) (sameDeadline : after.deadline = state.deadline)
    (clock : after.failed = none → after.clock = state.clock ∧ state.failed = none)
    (silent : ∀ service id, event ≠ .started service id) (unseen : event.isInspected = false) :
    Accounted opts dep allowed ops (past ++ [event]) after done where
  split := same ▸ accounted.split
  started name id member := by
    rcases List.mem_append.mp member with earlier | now
    · exact accounted.started name id earlier
    · exact absurd (List.mem_singleton.mp now).symm (silent name id)
  ids name id held := List.mem_append_left _ (accounted.ids name id (sameIds ▸ held))
  ran op member name runs := sameIds ▸ accounted.ran op member name runs
  found op member waits := (accounted.found op member waits).mono
  waiting := by
    rcases accounted.waiting with none | ⟨spec, entered, front, middle, waiting⟩
    · exact .inl (sameDeadline.trans none)
    · refine .inr ⟨spec, entered, front, middle ++ [event], ?_⟩
      exact {
        head := same ▸ waiting.head
        deadline := sameDeadline.trans waiting.deadline
        split := by rw [waiting.split]; simp
        ids := fun name id held => waiting.ids name id (sameIds ▸ held)
        polled := fun going => by
          obtain ⟨clock, before⟩ := clock going
          rw [List.countP_append, List.countP_singleton, unseen, clock]
          exact waiting.polled before }

theorem Accounted.idle_ops (accounted : Accounted opts dep allowed ops past state done) {op : Op} {rest : List Op}
    (head : state.ops = op :: rest) (other : ∀ name, op.waits name = false) : state.deadline = none := by
  rcases accounted.waiting with none | ⟨spec, entered, front, middle, waiting⟩
  · exact none
  · obtain ⟨_, waits⟩ := waiting.head
    cases head.symm.trans waits
    have same := other spec.service
    simp [Op.waits] at same

/-- An operation that is carried out, at most by the start of its own container. -/
theorem Accounted.carried (accounted : Accounted opts dep allowed ops past state done) {op : Op} {rest : List Op}
    (head : state.ops = op :: rest) (sameOps : after.ops = rest) (deadline : after.deadline = none)
    (started : ∀ name id, event = .started name id → op.runs name = true)
    (ids : ∀ name id, after.containerIds.lookup name = some id → state.containerIds.lookup name = some id ∨ event = .started name id)
    (kept : ∀ name, (state.containerIds.lookup name).isSome → (after.containerIds.lookup name).isSome)
    (ran : ∀ name, op.runs name = true → (after.containerIds.lookup name).isSome)
    (found : op.waits dep = true → FoundHealthy dep allowed (past ++ [event])) :
    Accounted opts dep allowed ops (past ++ [event]) after (done ++ [op]) where
  split := by rw [accounted.split, head, sameOps]; simp
  started name id member := by
    rcases List.mem_append.mp member with earlier | now
    · obtain ⟨op', among, runs⟩ := accounted.started name id earlier
      exact ⟨op', List.mem_append_left _ among, runs⟩
    · exact ⟨op, by simp, started name id (List.mem_singleton.mp now).symm⟩
  ids name id held := by
    rcases ids name id held with before | same
    · exact List.mem_append_left _ (accounted.ids name id before)
    · exact List.mem_append_right _ (List.mem_singleton.mpr same.symm)
  ran op' member name runs := by
    rcases List.mem_append.mp member with earlier | now
    · exact kept name (accounted.ran op' earlier name runs)
    · cases List.mem_singleton.mp now
      exact ran name runs
  found op' member waits := by
    rcases List.mem_append.mp member with earlier | now
    · exact (accounted.found op' earlier waits).mono
    · cases List.mem_singleton.mp now
      exact found waits
  waiting := .inl deadline

/-- What one turn of the polling loop comes to. -/
theorem Execution.poll_cases (opts : ExecOpts) (state : Execution) (service : String) (rest : List Op) (deadline : Nat)
    (found : ContainerState) (now : Nat) :
    ((found.health = none ∨ found.Reports .healthy) ∧
      state.poll opts service rest deadline found now = { state with ops := rest, deadline := none, clock := now }) ∨
    (∃ error, ((∃ streak, found.health = some ⟨.unhealthy, streak⟩ ∧ error = .unhealthy service streak) ∨
        ¬ found.Reports .unhealthy ∧ deadline ≤ now ∧ error = .healthcheckTimeout service (waitTimeout opts)) ∧
      ¬ found.Reports .healthy ∧ state.poll opts service rest deadline found now = { state with clock := now, failed := some error }) ∨
    (now < deadline ∧ ¬ found.Reports .healthy ∧ ¬ found.Reports .unhealthy ∧
      state.poll opts service rest deadline found now = { state with clock := now + defaultPollInterval }) := by
  unfold Execution.poll ContainerState.Reports
  cases seen : found.health with
  | none => exact .inl ⟨.inl rfl, rfl⟩
  | some health =>
    obtain ⟨status, streak⟩ := health
    cases status with
    | healthy => exact .inl ⟨.inr rfl, rfl⟩
    | unhealthy => exact .inr (.inl ⟨_, .inl ⟨streak, rfl, rfl⟩, by simp, rfl⟩)
    | starting | none | unknown =>
      by_cases late : deadline ≤ now
      · exact .inr (.inl ⟨_, .inr ⟨by simp, late, rfl⟩, by simp, if_pos late⟩)
      · exact .inr (.inr ⟨not_le.mp late, by simp, by simp, if_neg late⟩)

/-- The container that is waited for is the one that was started. -/
theorem Waiting.started {spec : WaitHealthySpec} {entered : Nat} {front middle : List ExecEvent}
    (waiting : Waiting opts past state spec entered front middle) (accounted : Accounted opts dep allowed ops past state done)
    (prepared : EachAfter (Prepared activeServices) [] ops) : .started spec.service (state.waitedId spec) ∈ front := by
  obtain ⟨rest, head⟩ := waiting.head
  have split : ops = done ++ .waitHealthy spec :: rest := head ▸ accounted.split
  obtain ⟨op, member, runs⟩ := prepared.at_split split
  obtain ⟨id, held⟩ := Option.isSome_iff_exists.mp (accounted.ran op (by simpa using member) spec.service runs)
  have same : state.waitedId spec = id := by rw [Execution.waitedId, held, Option.getD_some]
  exact same ▸ waiting.ids spec.service id held

theorem Accounted.step (accounted : Accounted opts dep allowed ops past state done)
    (prepared : EachAfter (Prepared activeServices) [] ops) (timely : Timely opts dep allowed state event)
    (taken : Execution.step opts state event after) : ∃ done, Accounted opts dep allowed ops (past ++ [event]) after done := by
  rcases Execution.next_cases taken with ⟨service, code, rfl, rfl⟩ | ⟨going, advances⟩
  · exact ⟨done, accounted.idle rfl rfl rfl (fun going => ⟨rfl, going⟩) nofun rfl⟩
  cases advances with
  | failed error => exact ⟨done, accounted.idle rfl rfl rfl nofun nofun rfl⟩
  | @quick op rest _ report head quick silent outside unseen =>
    have other (name : String) : op.waits name = false ∧ op.runs name = false := by cases op <;> cases quick <;> exact ⟨rfl, rfl⟩
    refine ⟨_, accounted.carried head rfl (accounted.idle_ops head fun name => (other name).1) ?_ ?_ ?_ ?_ ?_⟩
    · exact fun name id same => absurd same (silent name id)
    · exact fun name id held => .inl held
    · exact fun name held => held
    · exact fun name runs => by rw [(other name).2] at runs; cases runs
    · exact fun waits => by rw [(other dep).1] at waits; cases waits
  | @started spec rest id report head =>
    refine ⟨_, accounted.carried head rfl (accounted.idle_ops head fun _ => rfl) ?_ ?_ ?_ ?_ nofun⟩
    · rintro name id' ⟨⟩
      exact decide_eq_true rfl
    · intro name id' held
      rw [FiniteMap.lookup_insert_if] at held
      split at held
      next same =>
        cases held
        exact .inr (by rw [same])
      next => exact .inl held
    · intro name held
      rw [FiniteMap.lookup_insert_if]
      split
      · rfl
      · exact held
    · intro name runs
      rw [FiniteMap.lookup_insert_if, if_pos (of_decide_eq_true runs).symm]
      rfl
  | @waits spec rest now head fresh order =>
    refine ⟨done, accounted.split, fun name id member => ?_, fun name id held => ?_, accounted.ran, fun op member waits => ?_, .inr ?_⟩
    · exact accounted.started name id (by simpa using member)
    · exact List.mem_append_left _ (accounted.ids name id held)
    · exact (accounted.found op member waits).mono
    · exact ⟨spec, now, past, [], ⟨rest, head⟩, rfl, rfl, accounted.ids, fun _ => ⟨by simp, by simp [defaultPollInterval, seconds]; omega⟩⟩
  | @inspected spec rest deadline found now head waits order =>
    rcases accounted.waiting with none | ⟨other, entered, front, middle, waiting⟩
    · cases waits.symm.trans none
    obtain ⟨_, same⟩ := waiting.head
    cases head.symm.trans same
    obtain rfl : entered + waitTimeout opts = deadline := Option.some.inj (waiting.deadline.symm.trans waits)
    have start := waiting.started accounted prepared
    have polls : (middle ++ [ExecEvent.inspected (state.waitedId spec) found now]).countP ExecEvent.isInspected =
        middle.countP ExecEvent.isInspected + 1 := by
      rw [List.countP_append]
      rfl
    have goesOn (clock : Nat) (failed : Option DriverError) (held : failed = .none → now < entered + waitTimeout opts ∧
        clock = now + defaultPollInterval) : ∃ done, Accounted opts dep allowed ops
          (past ++ [.inspected (state.waitedId spec) found now]) { state with clock := clock, failed := failed } done := by
      refine ⟨done, accounted.split, fun name id member => ?_, fun name id held => ?_, accounted.ran, fun op member waits => ?_, .inr ?_⟩
      · exact accounted.started name id (by simpa using member)
      · exact List.mem_append_left _ (accounted.ids name id held)
      · exact (accounted.found op member waits).mono
      · refine ⟨spec, entered, front, middle ++ [.inspected (state.waitedId spec) found now], waiting.head, waiting.deadline, ?_,
          waiting.ids, fun going' => ?_⟩
        · rw [waiting.split]
          simp
        · obtain ⟨early, ticks⟩ := held going'
          obtain ⟨enough, -⟩ := waiting.polled going
          rw [polls, Nat.add_mul]
          dsimp only
          omega
    rcases state.poll_cases opts spec.service rest (entered + waitTimeout opts) found now with
      ⟨passes, turn⟩ | ⟨error, -, -, turn⟩ | ⟨early, -, -, turn⟩
    · rw [turn]
      refine ⟨_, accounted.carried head rfl rfl nofun (fun name id held => .inl held) (fun name held => held) nofun fun ours => ?_⟩
      have service : spec.service = dep := of_decide_eq_true ours
      have answered := timely entered _ found now ⟨spec, rest, head, service, waits⟩ rfl
      have healthy : found.Reports .healthy := passes.resolve_left answered.1
      refine ⟨front, entered, middle, state.waitedId spec, found, now, [], ?_, service ▸ start, healthy, answered.2 healthy⟩
      rw [waiting.split]
    · rw [turn]
      exact goesOn now (some error) nofun
    · rw [turn]
      exact goesOn _ state.failed fun _ => ⟨early, rfl⟩

theorem run_accounted {planned : Plan} {clock : Nat} {events : List ExecEvent} {last : Execution}
    (prepared : EachAfter (Prepared activeServices) [] planned.ops)
    (run : Run (Guarded (Timely opts dep allowed) (Execution.step opts)) (begin planned clock) events last) :
    ∃ done, Accounted opts dep allowed planned.ops events last done := by
  induction run with
  | start => exact ⟨[], accounted_begin planned clock⟩
  | next _ taken ih =>
    obtain ⟨done, accounted⟩ := ih
    exact accounted.step prepared taken.1 taken.2

/-- An execution that has failed stays so, and starts nothing. -/
theorem run_failed {error : DriverError} {later : List ExecEvent} {last : Execution} (run : Run (Execution.step opts) state later last)
    (failed : state.failed = some error) : last.failed = some error ∧ ∀ name id, .started name id ∉ later := by
  induction run with
  | start => exact ⟨failed, fun _ _ => List.not_mem_nil⟩
  | next _ taken ih =>
    obtain ⟨still, none⟩ := ih
    rcases Execution.next_cases taken with ⟨service, code, rfl, rfl⟩ | ⟨going, -⟩
    · refine ⟨still, fun name id member => ?_⟩
      rcases List.mem_append.mp member with earlier | now
      · exact none name id earlier
      · cases List.mem_singleton.mp now
    · cases still.symm.trans going

end Invariant

section Gating
variable {serviceHash : Service → Except String String} {compose : Compose} {planOpts : PlanOptions} {planned : Plan}
  {opts : ExecOpts} {clock : Nat} {events : List ExecEvent} {last : Execution} {name dep : String} {check : Healthcheck}

/-- An active service depends on the health of another one, which declares an enabled healthcheck. -/
structure HealthDependency (activeServices : ActiveServices) (name dep : String) (check : Healthcheck) : Prop where
  active : name ∈ activeServices.keys
  depends : (dep, .healthyBefore) ∈ depsOf (activeServices.get name)
  declared : (activeServices.get dep).healthcheck = some check
  enabled : check.disable = false

theorem depsOf_healthy {service : Service} (depends : (dep, .healthyBefore) ∈ depsOf service) : dep ∈ healthyDependencies service := by
  unfold depsOf at depends
  unfold healthyDependencies
  split at depends
  · cases depends
  · obtain ⟨_, _, same⟩ := List.mem_map.mp depends
    cases same
  next entries whole =>
    obtain ⟨entry, member, same⟩ := List.mem_map.mp depends
    rw [Prod.mk.injEq] at same
    rw [whole]
    refine List.mem_map.mpr ⟨entry, List.mem_filter.mpr ⟨member, ?_⟩, same.1⟩
    have kind := same.2
    cases condition : entry.2.condition <;> rw [condition] at kind <;> cases kind
    rfl

/-- While a service is waited for, what depends on its health was not started. -/
theorem not_started_yet (inOrder : InOrder (compose.services.filterValues (Service.active planOpts.profiles)) planned.ops)
    (depends : HealthDependency (compose.services.filterValues (Service.active planOpts.profiles)) name dep check)
    {before : Execution} {past : List ExecEvent} {done : List Op} {entered : Nat} {allowed : Nanoseconds}
    (accounted : Accounted opts dep allowed planned.ops past before done) (waits : before.Waits opts dep entered) (id : ContainerId) :
    .started name id ∉ past := by
  intro member
  obtain ⟨spec, rest, head, service, -⟩ := waits
  obtain ⟨op, among, runs⟩ := accounted.started name id member
  obtain ⟨front, back, rfl⟩ := List.append_of_mem among
  cases op with
  | runContainer run =>
    have same : run.service = name := of_decide_eq_true runs
    have split : planned.ops = front ++ .runContainer run :: (back ++ before.ops) := by
      rw [accounted.split]
      simp
    obtain ⟨-, -, healthy⟩ := inOrder.prepared.at_split split
    obtain ⟨wait, earlier, first⟩ := healthy dep (same ▸ depsOf_healthy depends.depends)
    have one : planned.ops.countP (Op.waits dep) ≤ 1 := by
      rw [inOrder.waits dep]
      split <;> omega
    have again : Op.waits dep (.waitHealthy spec) = true := decide_eq_true service
    have positive : 0 < front.countP (Op.waits dep) := List.countP_pos_iff.mpr ⟨wait, by simpa using earlier, first⟩
    rw [split, head, List.countP_append, List.countP_cons, List.countP_append, List.countP_cons_of_pos again] at one
    omega
  | _ => cases runs

/-- A wait answered by an inspection fails when the service is unhealthy or its own time is over, and not before. -/
theorem Execution.Waits.answered {before after : Execution} {entered now : Nat} {id : ContainerId} {found : ContainerState}
    (own : nanoseconds (waitTimeout opts) = check.allowed) (waits : before.Waits opts dep entered)
    (taken : Execution.step opts before (.inspected id found now) after) :
    (found.Reports .unhealthy ∨ ¬ found.Reports .healthy ∧ found.health ≠ none ∧ check.allowed ≤ nanoseconds (now - entered) →
      ∃ error, after.failed = some error) ∧
    (¬ found.Reports .unhealthy → nanoseconds (now - entered) < check.allowed → after.failed = none) := by
  obtain ⟨spec, rest, head, service, deadline⟩ := waits
  have timeout : nanoseconds (now - entered) < check.allowed ↔ now < entered + waitTimeout opts := by
    have positive : 0 < waitTimeout opts := Nat.lt_of_lt_of_le (by decide : 0 < timeoutSlack) (Nat.le_add_left _ _)
    have waited {now entered time : Nat} (some : 0 < time) : now - entered < time ↔ now < entered + time := by omega
    rw [← own]
    exact (Nat.mul_lt_mul_right (by decide)).trans (waited positive)
  rcases Execution.next_cases taken with ⟨_, _, same, -⟩ | ⟨going, advances⟩
  · cases same
  cases advances with
  | quick _ _ _ _ _ unseen => exact absurd rfl (unseen _ _ _)
  | inspected _ _ head' waiting order =>
    cases head.symm.trans head'
    cases deadline.symm.trans waiting
    rcases before.poll_cases opts spec.service rest (entered + waitTimeout opts) found now with
      ⟨passes, turn⟩ | ⟨error, reason, unwell, turn⟩ | ⟨early, unwell, unsure, turn⟩
    · rw [turn]
      refine ⟨fun bad => ?_, fun _ _ => going⟩
      rcases passes with none | healthy
      · rcases bad with unhealthy | ⟨-, informed, -⟩
        · rw [ContainerState.Reports, none] at unhealthy
          cases unhealthy
        · exact absurd none informed
      · rcases bad with unhealthy | ⟨ill, -⟩
        · cases healthy.symm.trans unhealthy
        · exact absurd healthy ill
    · rw [turn]
      refine ⟨fun _ => ⟨error, rfl⟩, fun well inTime => ?_⟩
      rcases reason with ⟨streak, ill, -⟩ | ⟨-, late, -⟩
      · exact absurd (by rw [ContainerState.Reports, ill]; rfl) well
      · exact absurd (timeout.mp inTime) (not_lt.mpr late)
    · rw [turn]
      refine ⟨fun bad => ?_, fun _ _ => going⟩
      rcases bad with unhealthy | ⟨-, -, late⟩
      · exact absurd unhealthy unsure
      · exact absurd (timeout.mpr early) (not_lt.mpr late)

/-- Where the executor's settings are the service's own, and inspections tell its health in time, a service that
depends on the health of another is started only after that one was found healthy; an execution that finds it
unhealthy, or not healthy when its own time is over, returns an error without starting the service, and gives up no
earlier; and a wait takes only so many inspections. -/
theorem health_gated (made : plan serviceHash compose planOpts = .ok planned)
    (depends : HealthDependency (compose.services.filterValues (Service.active planOpts.profiles)) name dep check)
    (own : nanoseconds (waitTimeout opts) = check.allowed)
    (run : Run (Guarded (Timely opts dep check.allowed) (Execution.step opts)) (begin planned clock) events last) :
    (∀ front id back, events = front ++ .started name id :: back → FoundHealthy dep check.allowed front) ∧
    (∀ past id found now later before entered, events = past ++ .inspected id found now :: later →
      Run (Execution.step opts) (begin planned clock) past before → before.Waits opts dep entered →
      (found.Reports .unhealthy ∨ ¬ found.Reports .healthy ∧ check.allowed ≤ nanoseconds (now - entered) →
        (∃ error, last.result = some (.error error)) ∧ ∀ id, .started name id ∉ events) ∧
      (later = [] → ¬ found.Reports .unhealthy → nanoseconds (now - entered) < check.allowed → last.failed = none)) ∧
    ∀ entered, last.failed = none → last.Waits opts dep entered → ∃ front middle, events = front ++ .waitEntered entered :: middle ∧
      middle.countP ExecEvent.isInspected * defaultPollInterval < waitTimeout opts + defaultPollInterval := by
  have inOrder := plan_inOrder made
  refine ⟨?_, ?_, ?_⟩
  · rintro front id back rfl
    obtain ⟨before, past, onward⟩ := run.split
    obtain ⟨after, ⟨-, taken⟩, -⟩ := Run.cons_iff.mp onward
    obtain ⟨done, accounted⟩ := run_accounted inOrder.prepared past
    rcases Execution.next_cases taken with ⟨_, _, same, -⟩ | ⟨-, advances⟩
    · cases same
    cases advances with
    | quick _ _ _ silent => exact absurd rfl (silent _ _)
    | @started spec rest _ _ head =>
      have split : planned.ops = done ++ .runContainer spec :: rest := head ▸ accounted.split
      obtain ⟨-, -, healthy⟩ := inOrder.prepared.at_split split
      obtain ⟨wait, member, first⟩ := healthy dep (depsOf_healthy depends.depends)
      exact accounted.found wait (by simpa using member) first
  · rintro past id found now later before entered rfl earlier waits
    obtain ⟨before', past', onward⟩ := run.split
    have same : before' = before :=
      (past'.mono fun taken => taken.2).unique (fun one other => Option.some.inj (one.symm.trans other)) earlier
    subst same
    obtain ⟨after, ⟨timely, taken⟩, rest⟩ := Run.cons_iff.mp onward
    obtain ⟨done, accounted⟩ := run_accounted inOrder.prepared past'
    obtain ⟨fails, keeps⟩ := waits.answered own taken
    have informed := (timely entered id found now waits rfl).1
    refine ⟨fun bad => ?_, fun none unharmed inTime => ?_⟩
    · obtain ⟨error, failed⟩ := fails (bad.imp_right fun late => ⟨late.1, informed, late.2⟩)
      obtain ⟨still, quiet⟩ := run_failed (rest.mono fun taken => taken.2) failed
      refine ⟨⟨error, by rw [Execution.result, still]⟩, fun id member => ?_⟩
      rcases List.mem_append.mp member with front | back
      · exact not_started_yet inOrder depends accounted waits id front
      · rcases List.mem_cons.mp back with same | behind
        · cases same
        · exact quiet name id behind
    · subst none
      cases Run.nil_iff.mp rest
      exact keeps unharmed inTime
  · intro entered going waits
    obtain ⟨done, accounted⟩ := run_accounted inOrder.prepared run
    obtain ⟨spec, rest, head, service, deadline⟩ := waits
    rcases accounted.waiting with none | ⟨other, entered', front, middle, waiting⟩
    · cases none.symm.trans deadline
    have same := Option.some.inj (waiting.deadline.symm.trans deadline)
    obtain rfl : entered' = entered := Nat.add_right_cancel same
    obtain ⟨enough, early⟩ := waiting.polled going
    exact ⟨front, middle, waiting.split, by omega⟩

end Gating

section Sample

def dbCheck : Healthcheck := { test := .shell "pg_isready" }

/-- A service that waits for a database which declares a healthcheck. -/
def webAfterHealthyDb : Compose :=
  { projectName := none
    services := AList.insert "web" (web .serviceHealthy) (AList.singleton "db" { db with healthcheck := some dbCheck }) }

theorem webAfterHealthyDb_planned : ∃ planned, plan (fun _ => .ok "") webAfterHealthyDb ⟨[], none, []⟩ = .ok planned := by
  have planned : (plan (fun _ => .ok "") webAfterHealthyDb ⟨[], none, []⟩).isOk = true := by decide +kernel
  cases made : plan (fun _ => .ok "") webAfterHealthyDb ⟨[], none, []⟩ with
  | error reason => rw [made] at planned; cases planned
  | ok found => exact ⟨found, rfl⟩

theorem web_depends : HealthDependency (webAfterHealthyDb.services.filterValues (Service.active [])) "web" "db" dbCheck :=
  ⟨by decide, by decide, by decide, rfl⟩

/-- With the settings of every service, the web is started after its database was found healthy. -/
theorem web_health_gated : ∃ planned events last id,
    plan (fun _ => .ok "") webAfterHealthyDb ⟨[], none, []⟩ = .ok planned ∧
    Run (Execution.step ⟨false, false, none⟩) (begin planned 0) events last ∧ .started "web" id ∈ events ∧
    ∀ front id back, events = front ++ .started "web" id :: back → FoundHealthy "db" dbCheck.allowed front := by
  obtain ⟨planned, made⟩ := webAfterHealthyDb_planned
  have passes : Passes (some ⟨.healthy, 0⟩) := by
    rintro _ ⟨⟩
    rfl
  obtain ⟨events, last, id, run, -, started⟩ := exists_started ⟨false, false, none⟩ passes made web_depends.active 0
  have timely : Run (Guarded (Timely ⟨false, false, none⟩ "db" dbCheck.allowed) (Execution.step ⟨false, false, none⟩))
      (begin planned 0) events last := by
    refine run.mono fun {before event after} taken => ⟨fun entered id found now waits same => ?_, taken.2⟩
    obtain ⟨health, deadline⟩ := taken.1 id found now same
    obtain ⟨_, _, _, _, since⟩ := waits
    have same : now = entered := Nat.add_right_cancel (Option.some.inj (deadline.symm.trans since))
    refine ⟨by rw [health]; nofun, fun _ => ?_⟩
    rw [same, Nat.sub_self]
    decide
  have own : nanoseconds (waitTimeout ⟨false, false, none⟩) = dbCheck.allowed := by decide
  exact ⟨planned, events, last, id, made, run.mono fun taken => taken.2, started, (health_gated made web_depends own timely).1⟩

/-- Where inspections find no information on health, the web is started although its database was never found healthy. -/
theorem web_started_unchecked : ∃ planned events last id,
    plan (fun _ => .ok "") webAfterHealthyDb ⟨[], none, []⟩ = .ok planned ∧
    HealthDependency (webAfterHealthyDb.services.filterValues (Service.active [])) "web" "db" dbCheck ∧
    Run (Execution.step ⟨false, false, none⟩) (begin planned 0) events last ∧ .started "web" id ∈ events ∧
    ∀ id found now, .inspected id found now ∈ events → ¬ found.Reports .healthy := by
  obtain ⟨planned, made⟩ := webAfterHealthyDb_planned
  have passes : Passes none := nofun
  obtain ⟨events, last, id, run, -, started⟩ := exists_started ⟨false, false, none⟩ passes made web_depends.active 0
  refine ⟨planned, events, last, id, made, web_depends, run.mono fun taken => taken.2, started, fun id found now member healthy => ?_⟩
  rw [ContainerState.Reports, run_prompt run member] at healthy
  cases healthy

end Sample

end Burble.SelurCompose
