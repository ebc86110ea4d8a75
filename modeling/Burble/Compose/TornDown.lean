import Burble.Fallible
import Burble.Compose.Podman
import Burble.Compose.Executions
import Burble.Compose.PlanClosure

namespace Burble.SelurCompose
open Stateful (Moves)

structure Container where
  id : ContainerId
  labels : List (String × String)
  deriving DecidableEq

def Container.Belongs (project : String) (container : Container) : Prop :=
  ("io.podman.compose.project", project) ∈ container.labels

/-- The commands that neither start nor remove a container. -/
inductive Keeps : List String → Prop
  | build (spec : BuildSpec) : Keeps (buildArgv spec)
  | pull (image : String) : Keeps (pullArgv image)
  | network (spec : NetworkSpec) : Keeps (networkCreateArgv spec)
  | volume (spec : VolumeSpec) : Keeps (volumeCreateArgv spec)
  | inspect (id : ContainerId) : Keeps (inspectArgv id)
  | stop (id : ContainerId) (graceSecs : Nat) : Keeps (stopArgv id graceSecs)
  | ps (project : String) : Keeps (psArgv project)

section Engine
variable {Engine : Type} (cli : PodmanCli Engine) (containers : Engine → List Container)

/-- What `ps` prints of the containers there are. -/
def Lists (found : List Container) (project stdout : String) : Prop :=
  (trimmed stdout = "" ∨ trimmed stdout = "null") ∧ (∀ container ∈ found, ¬ container.Belongs project) ∨
    (trimmed stdout ≠ "" ∧ trimmed stdout ≠ "null") ∧ ∃ items, cli.psJson stdout = .ok items ∧
      (items.map PodmanPsJson.id).Nodup ∧
      ∀ id, id ∈ items.map PodmanPsJson.id ↔ ∃ container ∈ found, container.Belongs project ∧ container.id = id

/-- `podman`, as it is documented, on an engine that holds these containers. -/
structure Documented : Prop where
  distinct (engine : Engine) : ((containers engine).map Container.id).Nodup
  keeps {argv : List String} (quiet : Keeps argv) (engine : Engine) :
    containers (cli.process (cli.patchArgv argv) engine).2 = containers engine
  -- a container that is created stays also where it cannot be started
  run {words : List String} {found : List Options.Setting × List String} (engine : Engine)
    (reads : Options.read runOptions words = some found) (image : found.2 ≠ []) :
    containers (cli.process (cli.binary :: "run" :: words) engine).2 = containers engine ∨
      ∃ id, containers (cli.process (cli.binary :: "run" :: words) engine).2 =
        ⟨id, (Asked.of found).labels⟩ :: containers engine
  rm {id : ContainerId} {engine : Engine} (there : id ∈ (containers engine).map Container.id) :
    containers (cli.process (cli.patchArgv (rmArgv id false)) engine).2 = containers engine ∨
      containers (cli.process (cli.patchArgv (rmArgv id false)) engine).2 = (containers engine).filter (·.id ≠ id)
  removed {id : ContainerId} {engine after : Engine} {code : Option Int} {stdout stderr : String}
    (done : cli.process (cli.patchArgv (rmArgv id false)) engine = (.ended code stdout stderr, after))
    (gone : code = some 0 ∨ PodmanCli.missing stderr = true) : id ∉ (containers after).map Container.id
  ps {project stdout stderr : String} {engine after : Engine} (named : project ≠ "")
    (done : cli.process (cli.patchArgv (psArgv project)) engine = (.ended (some 0) stdout stderr, after)) :
    Lists cli (containers engine) project stdout

variable {cli containers} (documented : Documented cli containers)

/-- The same containers are there. -/
def Same (containers : Engine → List Container) (before after : Engine) : Prop := containers after = containers before

include documented in
theorem Documented.runPodman_moves {argv : List String} (quiet : Keeps argv) :
    Moves (Same containers) (cli.runPodman argv) := documented.keeps quiet

theorem moves_bind {One Other : Type} {first : Driven Engine One} {next : One → Driven Engine Other}
    (front : Moves (Same containers) first) (back : ∀ given, Moves (Same containers) (next given)) :
    Moves (Same containers) (first >>= next) := Moves.bind (fun one other => other.trans one) front back

theorem moves_pure {One : Type} (given : One) : Moves (Same containers) (pure given : Driven Engine One) :=
  Moves.pure (show ∀ engine, Same containers engine engine from fun _ => rfl) given

theorem moves_throw {One : Type} (error : DriverError) : Moves (Same containers) (throw error : Driven Engine One) :=
  Moves.throw (show ∀ engine, Same containers engine engine from fun _ => rfl) error

include documented in
theorem Documented.inspect_moves (id : ContainerId) : Moves (Same containers) (cli.inspect id) := by
  refine moves_bind (documented.runPodman_moves (.inspect id)) fun stdout => ?_
  split
  · exact moves_throw _
  · exact moves_throw _
  · exact moves_pure _

include documented in
/-- The containers are as they were, but for operations that start or remove them. -/
theorem Documented.perform_same {opts : ExecOpts} {state : Execution} {now : Nat} {op : Op} {engine : Engine}
    (runs : ∀ spec, op ≠ .runContainer spec) (removes : ∀ spec, op ≠ .removeContainer spec) :
    containers (cli.perform opts state now op engine).2 = containers engine := by
  cases op with
  | createNetwork spec => exact documented.keeps (.network spec) engine
  | createVolume spec => exact documented.keeps (.volume spec) engine
  | buildImage spec =>
    rw [PodmanCli.perform]
    split
    · rfl
    · exact moves_bind (documented.runPodman_moves (.build spec)) (fun _ => moves_pure _) engine
  | pullImage spec =>
    rw [PodmanCli.perform]
    split
    · rfl
    · exact moves_bind (documented.runPodman_moves (.pull spec.image)) (fun _ => moves_pure _) engine
  | waitHealthy spec =>
    rw [PodmanCli.perform]
    split
    · rfl
    · exact documented.inspect_moves _ engine
  | stopContainer spec =>
    exact moves_bind (documented.runPodman_moves (.stop spec.containerName spec.timeoutSecs)) (fun _ => moves_pure _) engine
  | runContainer spec => exact absurd rfl (runs spec)
  | removeContainer spec => exact absurd rfl (removes spec)

include documented in
/-- A run starts at most one container, that carries the labels it was planned with. -/
theorem Documented.perform_run {opts : ExecOpts} {state : Execution} {now : Nat} {spec : RunSpec} {engine : Engine}
    (image : Options.Positional spec.image) (keys : ∀ key ∈ spec.labels.keys, '=' ∉ key.toList) :
    containers (cli.perform opts state now (.runContainer spec) engine).2 = containers engine ∨
      ∃ id, containers (cli.perform opts state now (.runContainer spec) engine).2 =
        ⟨id, byKey spec.labels⟩ :: containers engine := by
  have reads : Options.read runOptions ((runArgv cli.entrypointJson spec).drop 2) =
      some (runSettings cli.entrypointJson spec, spec.image :: spec.command.getD []) := by
    rw [read_runArgv, Options.read_positional (by rintro word ⟨⟩; exact image), Option.map_some, List.append_nil]
  have asked := documented.run engine reads (List.cons_ne_nil _ _)
  rw [asked_of_runSettings keys] at asked
  exact asked

theorem runPodman_eq {argv : List String} {engine after : Engine} {ended : Finished}
    (done : cli.process (cli.patchArgv argv) engine = (ended, after)) :
    cli.runPodman argv engine = (ended.output (cli.patchArgv argv), after) := by
  change ((cli.process (cli.patchArgv argv) engine).1.output _, (cli.process (cli.patchArgv argv) engine).2) = _
  rw [done]

theorem output_ok {argv : List String} {ended : Finished} {stdout : String} (succeeded : ended.output argv = .ok stdout) :
    ∃ stderr, ended = .ended (some 0) stdout stderr := by
  cases ended with
  | unstarted reason => cases succeeded
  | ended code printed stderr =>
    rw [Finished.output] at succeeded
    split at succeeded
    next zero =>
      cases succeeded
      exact ⟨stderr, by rw [zero]⟩
    next => cases succeeded

include documented in
/-- At most that container is removed, and it is where `rm` succeeds. -/
theorem Documented.rm_containers {id : ContainerId} {engine after : Engine} {result : Except DriverError Unit}
    (there : id ∈ (containers engine).map Container.id) (done : cli.rm id false engine = (result, after)) :
    (∀ container ∈ containers after, container ∈ containers engine) ∧
      (∀ container ∈ containers engine, container.id ≠ id → container ∈ containers after) ∧
      (result = .ok () → id ∉ (containers after).map Container.id) := by
  have either := documented.rm there
  rcases process : cli.process (cli.patchArgv (rmArgv id false)) engine with ⟨ended, state⟩
  have called := runPodman_eq process
  obtain ⟨rfl, rfl⟩ : PodmanCli.forgiving PodmanCli.missing (ended.output (cli.patchArgv (rmArgv id false))) = result ∧
      state = after := by
    rw [PodmanCli.rm, PodmanCli.calling, called] at done
    exact Prod.mk.inj done
  rw [process] at either
  refine ⟨?_, ?_, ?_⟩
  · intro container found
    rcases either with same | less
    · rwa [same] at found
    · rw [less] at found
      exact (List.mem_filter.mp found).1
  · intro container found other
    rcases either with same | less
    · rwa [same]
    · rw [less]
      exact List.mem_filter.mpr ⟨found, decide_eq_true other⟩
  · intro succeeded
    cases ended with
    | unstarted reason => cases succeeded
    | ended code stdout stderr =>
      refine documented.removed process ?_
      by_contra neither
      rw [not_or] at neither
      rw [Finished.output, if_neg neither.1, PodmanCli.forgiving, if_neg neither.2] at succeeded
      cases succeeded

include documented in
/-- One turn removes at most that container, and it does where it succeeds. -/
theorem Documented.takeDown_containers {graceSecs : Nat} {summary : ContainerSummary} {engine after : Engine}
    {result : Except DriverError Unit} (there : summary.id ∈ (containers engine).map Container.id)
    (done : cli.takeDown graceSecs summary engine = (result, after)) :
    (∀ container ∈ containers after, container ∈ containers engine) ∧
      (∀ container ∈ containers engine, container.id ≠ summary.id → container ∈ containers after) ∧
      (result = .ok () → summary.id ∉ (containers after).map Container.id) := by
  have stops : Moves (Same containers) (cli.stop summary.id graceSecs) :=
    moves_bind (documented.runPodman_moves (.stop summary.id graceSecs)) fun _ => moves_pure _
  have same := stops engine
  rcases Stateful.bind_cases done with ⟨_, stopped, stop, remove⟩ | ⟨_, stop, rfl⟩
  · rw [stop] at same
    change containers stopped = containers engine at same
    rw [← same] at there ⊢
    exact documented.rm_containers there remove
  · rw [stop] at same
    change containers after = containers engine at same
    rw [same]
    exact ⟨fun _ found => found, fun _ found _ => found, nofun⟩

include documented in
/-- The containers after some have been stopped and removed in turn, as far as that went. -/
theorem Documented.loop_containers {graceSecs : Nat} {listed : List ContainerSummary} {engine after : Engine}
    {result : Except DriverError Unit} (distinct : (listed.map ContainerSummary.id).Nodup)
    (there : ∀ id ∈ listed.map ContainerSummary.id, id ∈ (containers engine).map Container.id)
    (done : listed.forM (cli.takeDown graceSecs) engine = (result, after)) :
    (∀ container ∈ containers after, container ∈ containers engine) ∧
      (∀ container ∈ containers engine, container.id ∉ listed.map ContainerSummary.id → container ∈ containers after) ∧
      (result = .ok () → ∀ container ∈ containers after, container.id ∉ listed.map ContainerSummary.id) := by
  induction listed generalizing engine with
  | nil =>
    cases done
    exact ⟨fun _ found => found, fun _ found _ => found, fun _ _ _ => List.not_mem_nil⟩
  | cons summary rest ih =>
    rw [List.map_cons, List.nodup_cons] at distinct
    change (cli.takeDown graceSecs summary >>= fun _ => rest.forM (cli.takeDown graceSecs)) engine = _ at done
    rcases Stateful.bind_cases done with ⟨_, middle, turn, later⟩ | ⟨_, turn, rfl⟩
    · obtain ⟨fewer, left, gone⟩ := documented.takeDown_containers (there summary.id List.mem_cons_self) turn
      -- those that are still to be removed are others, and still there
      have still : ∀ id ∈ rest.map ContainerSummary.id, id ∈ (containers middle).map Container.id := by
        intro id member
        obtain ⟨container, found, rfl⟩ := List.mem_map.mp (there id (List.mem_cons_of_mem _ member))
        exact List.mem_map_of_mem (left container found fun equal => distinct.1 (equal ▸ member))
      obtain ⟨within, kept, cleared⟩ := ih distinct.2 still later
      refine ⟨fun container found => fewer container (within container found), ?_, ?_⟩
      · intro container found other
        rw [List.map_cons, List.mem_cons, not_or] at other
        exact kept container (left container found other.1) other.2
      · intro succeeded container found member
        rcases List.mem_cons.mp member with equal | among
        · exact gone rfl (equal ▸ List.mem_map_of_mem (within container found))
        · exact cleared succeeded container found among
    · obtain ⟨fewer, left, _⟩ := documented.takeDown_containers (there summary.id List.mem_cons_self) turn
      refine ⟨fewer, fun container found other => left container found fun equal => ?_, nofun⟩
      exact other (equal ▸ List.mem_cons_self)

include documented in
/-- What `ps` answers, where it does. -/
theorem Documented.ps_containers {project : String} (named : project ≠ "") {engine after : Engine}
    {result : Except DriverError (List ContainerSummary)} (done : cli.ps project engine = (result, after)) :
    containers after = containers engine ∧ ∀ listed, result = .ok listed → (listed.map ContainerSummary.id).Nodup ∧
      ∀ id, id ∈ listed.map ContainerSummary.id ↔
        ∃ container ∈ containers engine, container.Belongs project ∧ container.id = id := by
  have keeps := documented.keeps (.ps project) engine
  rcases process : cli.process (cli.patchArgv (psArgv project)) engine with ⟨ended, state⟩
  have called := runPodman_eq process
  rw [process] at keeps
  change containers state = containers engine at keeps
  rcases Stateful.bind_cases done with ⟨stdout, middle, printed, read⟩ | ⟨reason, failed, rfl⟩
  · obtain ⟨output, rfl⟩ := Prod.mk.inj (called.symm.trans printed)
    obtain ⟨stderr, rfl⟩ := output_ok output
    split at read
    next empty =>
      cases read
      refine ⟨keeps, ?_⟩
      rintro _ ⟨⟩
      simp only [Bool.or_eq_true, decide_eq_true_eq] at empty
      rcases documented.ps named process with ⟨_, none⟩ | ⟨printed, _⟩
      · refine ⟨List.nodup_nil, fun id => ⟨fun member => absurd member List.not_mem_nil, ?_⟩⟩
        rintro ⟨container, found, belongs, rfl⟩
        exact absurd belongs (none container found)
      · exact (empty.elim printed.1 printed.2).elim
    next some =>
      simp only [Bool.or_eq_true, decide_eq_true_eq, not_or] at some
      rcases documented.ps named process with ⟨empty, _⟩ | ⟨_, items, parsed, distinct, exactly⟩
      · exact (empty.elim some.1 some.2).elim
      · rw [parsed] at read
        cases read
        refine ⟨keeps, ?_⟩
        rintro _ ⟨⟩
        have ids : (items.map PodmanPsJson.intoSummary).map ContainerSummary.id = items.map PodmanPsJson.id := List.map_map
        rw [ids]
        exact ⟨distinct, exactly⟩
  · obtain ⟨_, rfl⟩ := Prod.mk.inj (called.symm.trans failed)
    exact ⟨keeps, nofun⟩

include documented in
/-- What `down` removes are containers of its project, and where it succeeds all of them. -/
theorem Documented.down_containers {project : String} (named : project ≠ "") {graceSecs : Nat} {engine after : Engine}
    {result : Except DriverError Unit} (done : cli.down project graceSecs engine = (result, after)) :
    (∀ container ∈ containers after, container ∈ containers engine) ∧
      (∀ container ∈ containers engine, ¬ container.Belongs project → container ∈ containers after) ∧
      (result = .ok () → ∀ container ∈ containers after, ¬ container.Belongs project) := by
  rcases Stateful.bind_cases done with ⟨listed, middle, asked, loop⟩ | ⟨reason, failed, rfl⟩
  · obtain ⟨same, answer⟩ := documented.ps_containers named asked
    obtain ⟨distinct, exactly⟩ := answer listed rfl
    have reversed : listed.reverse.map ContainerSummary.id = (listed.map ContainerSummary.id).reverse := List.map_reverse
    have found := documented.loop_containers (by rwa [reversed, List.nodup_reverse]) ?_ loop
    · simp only [reversed, List.mem_reverse, exactly] at found
      rw [same] at found
      refine ⟨found.1, fun container there other => found.2.1 container there ?_, fun succeeded container there belongs => ?_⟩
      · rintro ⟨listed, among, belongs, equal⟩
        have one := List.inj_on_of_nodup_map (documented.distinct engine) among there equal
        exact other (one ▸ belongs)
      · exact found.2.2 succeeded container there ⟨container, found.1 container there, belongs, rfl⟩
    · intro id member
      rw [reversed, List.mem_reverse, exactly] at member
      obtain ⟨container, there, _, rfl⟩ := member
      rw [same]
      exact List.mem_map_of_mem there
  · rw [(documented.ps_containers named failed).1]
    exact ⟨fun _ found => found, fun _ found _ => found, nofun⟩

end Engine

section Planned
variable {serviceHash : Service → Except String String}

/-- An operation by which a plan starts containers of its own project only. -/
def Op.StartsFor (serviceHash : Service → Except String String) (projectName : String) : Op → Prop
  | runContainer spec => ∃ name service, runSpec serviceHash projectName name service = .ok spec
  | stopContainer _ | removeContainer _ => False
  | _ => True

theorem waveOps_startsFor {projectName : String} {activeServices : ActiveServices} {waves : List (List String)}
    {emitted : List String} {ops : List Op}
    (made : waveOps serviceHash projectName activeServices waves emitted = .ok ops) {op : Op} (member : op ∈ ops) :
    op.StartsFor serviceHash projectName := by
  induction waves generalizing emitted ops with
  | nil =>
    cases made
    cases member
  | cons names rest ih =>
    obtain ⟨runs, later, some, others, rfl⟩ := waveOps_cons made
    rcases List.mem_append.mp member with now | after
    · rcases List.mem_append.mp now with wait | run
      · rcases emitWait_ops wait with none | ⟨dep, _, rfl⟩
        · cases none
        · exact trivial
      · obtain ⟨name, _, built⟩ := Fallible.mapM_mem some run
        obtain ⟨found, hashed, same⟩ := Fallible.bind_ok.mp built
        cases same
        exact ⟨name, _, hashed⟩
    · exact ih others after

theorem plan_startsFor {compose : Compose} {options : PlanOptions} {planned : Plan}
    (made : plan serviceHash compose options = .ok planned) {op : Op} (member : op ∈ planned.ops) :
    op.StartsFor serviceHash planned.projectName := by
  obtain ⟨activeServices, _, made⟩ := Fallible.bind_ok.mp made
  split at made
  · cases made
  · obtain ⟨_, _, made⟩ := Fallible.bind_ok.mp made
    obtain ⟨graph, _, made⟩ := Fallible.bind_ok.mp made
    obtain ⟨waves, _, made⟩ := Fallible.bind_ok.mp made
    obtain ⟨runs, emitted, made⟩ := Fallible.bind_ok.mp made
    cases made
    rcases List.mem_append.mp member with front | later
    · have prepares := isPreparation_of_mem front
      cases op with
      | runContainer spec => cases prepares
      | stopContainer spec => cases prepares
      | removeContainer spec => cases prepares
      | _ => trivial
    · exact waveOps_startsFor emitted later

/-- A container with the labels of a plan's run is of the plan's project and no other. -/
theorem labelled_belongs {projectName name : String} {service : Service} {spec : RunSpec}
    (made : runSpec serviceHash projectName name service = .ok spec) (id : ContainerId) (project : String) :
    Container.Belongs project ⟨id, byKey spec.labels⟩ ↔ project = projectName := by
  obtain ⟨configHash, labels⟩ := runSpec_labels made
  have found : spec.labels.lookup "io.podman.compose.project" = some projectName := by
    rw [labels, AList.lookup_insert_ne (by decide), AList.lookup_insert_ne (by decide)]
    rfl
  rw [Container.Belongs, (byKey_perm spec.labels).mem_iff, FiniteMap.mem_toList, found, Option.some.injEq]
  exact eq_comm

end Planned

/-- What remains to be done is the end of what there was. -/
theorem Execution.next_ops {opts : ExecOpts} {state after : Execution} {event : ExecEvent}
    (taken : state.next opts event = some after) : after.ops <:+ state.ops := by
  rcases Execution.next_cases taken with ⟨_, _, _, rfl⟩ | ⟨_, advances⟩
  · exact List.suffix_rfl
  · cases advances with
    | failed error => exact List.suffix_rfl
    | quick report head =>
      rw [head]
      exact List.suffix_cons _ _
    | started id report head =>
      rw [head]
      exact List.suffix_cons _ _
    | waits now head => exact List.suffix_rfl
    | inspected found now head =>
      rw [Execution.poll]
      split
      · rw [head]
        exact List.suffix_cons _ _
      · split
        · rw [head]
          exact List.suffix_cons _ _
        · exact List.suffix_rfl
        · split
          · exact List.suffix_rfl
          · exact List.suffix_rfl

theorem told_cases {Engine Answer : Type} (event : Answer → ExecEvent) (call : Driven Engine Answer) (engine : Engine) :
    (∃ answer, (PodmanCli.told event call engine).1 = event answer) ∨
      ∃ error, (PodmanCli.told event call engine).1 = .failed error := by
  unfold PodmanCli.told
  rcases call.run engine with ⟨result, after⟩
  cases result with
  | ok answer => exact .inl ⟨answer, rfl⟩
  | error error => exact .inr ⟨error, rfl⟩

/-- The executor takes whatever it is told of the call that it makes. -/
theorem perform_taken {Engine : Type} (cli : PodmanCli Engine) {opts : ExecOpts} {state : Execution} {op : Op}
    {rest : List Op} {now : Nat} (going : state.failed = none) (head : state.ops = op :: rest) (order : state.clock ≤ now)
    (engine : Engine) : ∃ after, state.next opts (cli.perform opts state now op engine).1 = some after := by
  obtain ⟨ops, report, containerIds, deadline, clock, failed⟩ := state
  obtain rfl : ops = op :: rest := head
  obtain rfl : failed = none := going
  cases op with
  | createNetwork spec | createVolume spec | stopContainer spec | removeContainer spec =>
    rw [PodmanCli.perform]
    rcases told_cases _ _ engine with ⟨answer, same⟩ | ⟨error, same⟩
    all_goals
      rw [same]
      exact ⟨_, rfl⟩
  | buildImage spec | pullImage spec =>
    rw [PodmanCli.perform]
    split
    next skips => exact ⟨_, if_pos skips⟩
    next takes =>
      rcases told_cases _ _ engine with ⟨answer, same⟩ | ⟨error, same⟩
      all_goals
        rw [same]
        exact ⟨_, if_neg takes⟩
  | runContainer spec =>
    rw [PodmanCli.perform]
    rcases told_cases _ _ engine with ⟨answer, same⟩ | ⟨error, same⟩
    · rw [same]
      exact ⟨_, if_pos rfl⟩
    · rw [same]
      exact ⟨_, rfl⟩
  | waitHealthy spec =>
    rw [PodmanCli.perform]
    cases deadline with
    | none => exact ⟨_, if_pos ⟨rfl, order⟩⟩
    | some deadline =>
      rw [if_neg (Option.some_ne_none deadline)]
      rcases told_cases _ _ engine with ⟨answer, same⟩ | ⟨error, same⟩
      · rw [same]
        exact ⟨_, if_pos ⟨rfl, order⟩⟩
      · rw [same]
        exact ⟨_, rfl⟩

/-- A command with the plan it has loaded, and `down` with what it returns. -/
inductive Command
  | up (planned : Plan) (opts : ExecOpts) (clock : Nat)
  | down (project : String) (graceSecs : Nat) (result : Except DriverError Unit)

/-- No image is taken for an option, and no project is without a name. -/
def Command.Plain : Command → Prop
  | up planned _ _ => ∀ spec, .runContainer spec ∈ planned.ops → Options.Positional spec.image
  | down project _ _ => project ≠ ""

section History
variable {Engine : Type} (serviceHash : Service → Except String String) (cli : PodmanCli Engine)

/-- An `up` ends where its plan is done, where the driver fails, or anywhere it is stopped. -/
inductive Does : Engine → Command → Engine → Prop
  | up {compose : Compose} {options : PlanOptions} {planned : Plan} {opts : ExecOpts} {clock : Nat} {times : List Nat}
      {before after : Engine} {last : Execution} (made : plan serviceHash compose options = .ok planned)
      (run : Run (cli.Deploys opts) (begin planned clock, before) times (last, after)) :
      Does before (.up planned opts clock) after
  | down {project : String} {graceSecs : Nat} {result : Except DriverError Unit} {before after : Engine}
      (done : cli.down project graceSecs before = (result, after)) : Does before (.down project graceSecs result) after

variable {serviceHash cli} {containers : Engine → List Container} (documented : Documented cli containers)

include documented in
/-- An operation of a plan removes nothing, and starts a container of the plan's project at most. -/
theorem Documented.perform_planned {projectName : String} {opts : ExecOpts} {state : Execution} {now : Nat} {op : Op}
    {engine : Engine} (starts : op.StartsFor serviceHash projectName)
    (image : ∀ spec, op = .runContainer spec → Options.Positional spec.image) :
    (∀ container ∈ containers engine, container ∈ containers (cli.perform opts state now op engine).2) ∧
      ∀ container ∈ containers (cli.perform opts state now op engine).2, container ∈ containers engine ∨
        ∀ project, container.Belongs project ↔ project = projectName := by
  have kept (same : containers (cli.perform opts state now op engine).2 = containers engine) :
      (∀ container ∈ containers engine, container ∈ containers (cli.perform opts state now op engine).2) ∧
        ∀ container ∈ containers (cli.perform opts state now op engine).2, container ∈ containers engine ∨
          ∀ project, container.Belongs project ↔ project = projectName := by
    rw [same]
    exact ⟨fun _ found => found, fun _ found => .inl found⟩
  cases op with
  | runContainer spec =>
    obtain ⟨name, service, made⟩ := starts
    rcases documented.perform_run (image spec rfl) (runSpec_keys made) with same | ⟨id, more⟩
    · exact kept same
    · rw [more]
      refine ⟨fun _ found => List.mem_cons_of_mem _ found, fun container found => ?_⟩
      rcases List.mem_cons.mp found with rfl | earlier
      · exact .inr (labelled_belongs made id)
      · exact .inl earlier
  | removeContainer spec => exact starts.elim
  | _ => exact kept (documented.perform_same nofun nofun)

include documented in
/-- However far an `up` gets, it removes nothing, and all that it starts is of its project. -/
theorem Documented.deploys_containers {compose : Compose} {options : PlanOptions} {planned : Plan} {opts : ExecOpts}
    {clock : Nat} {times : List Nat} {before : Engine} {last : Execution × Engine}
    (made : plan serviceHash compose options = .ok planned)
    (images : ∀ spec, .runContainer spec ∈ planned.ops → Options.Positional spec.image)
    (run : Run (cli.Deploys opts) (begin planned clock, before) times last) :
    last.1.ops <:+ planned.ops ∧ (∀ container ∈ containers before, container ∈ containers last.2) ∧
      ∀ container ∈ containers last.2, container ∈ containers before ∨
        ∀ project, container.Belongs project ↔ project = planned.projectName := by
  induction run with
  | start => exact ⟨List.suffix_rfl, fun _ found => found, fun _ found => .inl found⟩
  | next _ taken ih =>
    obtain ⟨left, kept, origin⟩ := ih
    obtain ⟨op, rest, head, next, moved⟩ := taken
    have member : op ∈ planned.ops := left.subset (head ▸ List.mem_cons_self)
    obtain ⟨stays, started⟩ := documented.perform_planned (plan_startsFor made member)
      (fun spec same => images spec (same ▸ member))
    rw [moved] at stays started
    refine ⟨(Execution.next_ops next).trans left, fun container found => stays container (kept container found), ?_⟩
    intro container found
    rcases started container found with earlier | ours
    · exact origin container earlier
    · exact .inr ours

include documented in
/-- Where there is no container of a project, only an `up` of it brings one. -/
theorem Documented.none_brought {history : List Command} {first last : Engine} {project : String}
    (run : Run (Does serviceHash cli) first history last) (plain : ∀ command ∈ history, command.Plain)
    (none : ∀ container ∈ containers first, ¬ container.Belongs project)
    (others : ∀ planned opts clock, .up planned opts clock ∈ history → planned.projectName ≠ project) :
    ∀ container ∈ containers last, ¬ container.Belongs project := by
  induction run with
  | start => exact none
  | next _ taken ih =>
    have still := ih (fun command member => plain command (List.mem_append_left _ member))
      fun planned opts clock member => others planned opts clock (List.mem_append_left _ member)
    have inOrder := plain _ (List.mem_append_right _ List.mem_cons_self)
    intro container found
    cases taken with
    | up made run =>
      rcases (documented.deploys_containers made inOrder run).2.2 container found with earlier | other
      · exact still container earlier
      · rw [other]
        exact (others _ _ _ (List.mem_append_right _ List.mem_cons_self)).symm
    | down done => exact still container ((documented.down_containers inOrder done).1 container found)

end History

section Sample

/-- The labels of the one container there is, if any. -/
abbrev Slot := Option (List (String × String))

def Slot.containers (slot : Slot) : List Container := (slot.map fun labels => ⟨"c0", labels⟩).toList

/-- Whether the container passes a filter by project. -/
def Slot.passes (slot : Slot) (filter : String) : Bool :=
  (slot.getD []).any fun entry => entry.1 = "io.podman.compose.project" ∧ projectFilter entry.2 = filter

/-- An engine with room for one container. -/
def Slot.process (argv : List String) (slot : Slot) : Finished × Slot :=
  let words := argv.drop 2
  if argv[1]? = some "run" then
    match slot, Options.read runOptions words with
    | none, some found =>
      if found.2 = [] then (.ended (some 125) "" "Error: an image is required", none)
      else (.ended (some 0) "c0\n" "", some (Asked.of found).labels)
    | slot, _ => (.ended (some 125) "" "Error: no room", slot)
  else if argv[1]? = some "rm" then
    if slot.isSome ∧ words = ["c0"] then (.ended (some 0) "c0\n" "", none)
    else (.ended (some 1) "" "Error: no such container", slot)
  else if argv[1]? = some "ps" then
    (.ended (some 0) (if slot.passes (words.getD 2 "") then "[\x7b\"Id\":\"c0\"\x7d]\n" else "[]\n") "", slot)
  else (.ended (some 0) "" "", slot)

def slotCli : PodmanCli Slot where
  binary := "podman"
  process := Slot.process
  entrypointJson := fun words => "[" ++ ",".intercalate words ++ "]"
  inspectJson := fun text => .error text
  psJson := fun text =>
    if text = "[]\n" then .ok []
    else if text = "[\x7b\"Id\":\"c0\"\x7d]\n" then .ok [⟨"c0", [], "", "", none, ∅⟩]
    else .error text

theorem Slot.passes_iff {slot : Slot} {project : String} :
    slot.passes (projectFilter project) = true ↔ ∃ container ∈ slot.containers, container.Belongs project := by
  have same (other : String) : projectFilter other = projectFilter project ↔ other = project :=
    ⟨fun equal => String.append_right_inj _ |>.mp equal, congrArg projectFilter⟩
  cases slot with
  | none => simp [Slot.passes, Slot.containers]
  | some labels => simp [Slot.passes, Slot.containers, Container.Belongs, same]

theorem slot_documented : Documented slotCli Slot.containers where
  distinct slot := by
    cases slot with
    | none => exact List.nodup_nil
    | some labels => exact List.nodup_singleton _
  keeps quiet slot := by
    cases quiet
    all_goals rfl
  run {words found} slot reads image := by
    cases slot with
    | none =>
      refine .inr ⟨"c0", ?_⟩
      change Slot.containers (Slot.process ("podman" :: "run" :: words) none).2 = _
      simp only [Slot.process, List.drop_succ_cons, List.drop_zero, List.getElem?_cons_succ, List.getElem?_cons_zero,
        if_true, reads, if_neg image]
      rfl
    | some labels => exact .inl rfl
  rm {id slot} there := by
    cases slot with
    | none => exact absurd there List.not_mem_nil
    | some labels =>
      obtain rfl : id = "c0" := List.mem_singleton.mp there
      exact .inr rfl
  removed {id slot after code stdout stderr} done gone := by
    cases slot with
    | none =>
      cases done
      exact List.not_mem_nil
    | some labels =>
      by_cases same : id = "c0"
      · subst same
        cases done
        exact List.not_mem_nil
      · have failed : Slot.process ["podman", "rm", id] (some labels) =
            (.ended (some 1) "" "Error: no such container", some labels) := by
          simp [Slot.process, same]
        cases failed.symm.trans done
        exact fun member => same (List.mem_singleton.mp member)
  ps {project stdout stderr slot after} named done := by
    change Slot.process (psArgv project) slot = _ at done
    obtain ⟨rfl, rfl⟩ : (if slot.passes (projectFilter project) then "[\x7b\"Id\":\"c0\"\x7d]\n" else "[]\n") = stdout ∧
        slot = after := by
      simp [Slot.process, psArgv] at done
      exact ⟨done.1.1, done.2⟩
    refine .inr ?_
    by_cases passes : slot.passes (projectFilter project) = true
    · rw [if_pos passes]
      refine ⟨by decide +kernel, [⟨"c0", [], "", "", none, ∅⟩], rfl, by decide, fun id => ?_⟩
      obtain ⟨container, found, belongs⟩ := Slot.passes_iff.mp passes
      cases slot with
      | none => cases found
      | some labels =>
        obtain rfl : container = ⟨"c0", labels⟩ := List.mem_singleton.mp found
        refine ⟨fun member => ⟨_, found, belongs, (List.mem_singleton.mp member).symm⟩, ?_⟩
        rintro ⟨other, among, _, rfl⟩
        exact List.mem_singleton.mpr (congrArg Container.id (List.mem_singleton.mp among))
    · rw [if_neg passes]
      refine ⟨by decide +kernel, [], rfl, List.nodup_nil, fun id => ⟨fun member => absurd member List.not_mem_nil, ?_⟩⟩
      rintro ⟨container, found, belongs, -⟩
      exact absurd (Slot.passes_iff.mpr ⟨container, found, belongs⟩) passes

/-- The container of a service that runs. -/
def webContainer : Container := ⟨"c0", [("io.podman.compose.project", "shop"), ("io.podman.compose.service", "web")]⟩

theorem web_down : slotCli.down "shop" 10 (some webContainer.labels) = (.ok (), none) := by
  with_unfolding_all rfl

end Sample

end Burble.SelurCompose
