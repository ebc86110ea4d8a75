import Burble.Readers
import Burble.Compose.Executor
import Mathlib.Data.List.Infix
import Mathlib.Data.String.Basic
import Burble.Compose.EnvFiles

namespace Burble.SelurCompose
open Options (Setting Kind Positional)
open Interp (isWhiteSpace trim trimEnd linesFrom)

/-! The arguments of `podman`, each list as it is pushed together. -/

/-- The entries of a `BTreeMap` in the order of their keys. -/
def byKey (entries : FiniteMap String String) : List (String × String) :=
  entries.toList.mergeSort fun one other => decide (one.1 ≤ other.1)

def keyVal (entry : String × String) : String := entry.1 ++ "=" ++ entry.2

/-- One option for each text. -/
def optionEach (name : String) (texts : List String) : List String := texts.flatMap fun text => [name, text]

def buildArgv (spec : BuildSpec) : List String :=
  ["podman", "build"] ++ (if spec.noCache then ["--no-cache"] else []) ++ ["--tag", spec.tag] ++
    optionEach "--file" spec.dockerfile.toList ++ optionEach "--target" spec.target.toList ++
    optionEach "--build-arg" ((byKey spec.args).map keyVal) ++ [spec.context]

def pullArgv (image : String) : List String := ["podman", "pull", image]

def networkCreateArgv (spec : NetworkSpec) : List String :=
  ["podman", "network", "create"] ++ optionEach "--driver" spec.driver.toList ++
    optionEach "--label" ((byKey spec.labels).map keyVal) ++ [spec.name]

def volumeCreateArgv (spec : VolumeSpec) : List String :=
  ["podman", "volume", "create"] ++ optionEach "--driver" spec.driver.toList ++
    optionEach "--label" ((byKey spec.labels).map keyVal) ++ [spec.name]

/-- The networks that are asked for: the mode, or else those by name. -/
def RunSpec.networkArgs (spec : RunSpec) : List String :=
  match spec.networkMode with
  | some mode => [mode]
  | none => spec.networks

def RunSpec.restartArgs (spec : RunSpec) : List String :=
  if spec.restart ≠ "" ∧ spec.restart ≠ "no" then [spec.restart] else []

section Entrypoints
variable (toJson : List String → String)

def runArgv (spec : RunSpec) : List String :=
  ["podman", "run", "--detach", "--name", spec.containerName] ++ optionEach "--network" spec.networkArgs ++
    optionEach "--restart" spec.restartArgs ++ optionEach "--env" spec.environment ++ optionEach "--volume" spec.volumes ++
    optionEach "--publish" spec.ports ++ optionEach "--label" ((byKey spec.labels).map keyVal) ++
    optionEach "--entrypoint" (spec.entrypoint.map toJson).toList ++ [spec.image] ++ spec.command.getD []

end Entrypoints

def stopArgv (id : ContainerId) (graceSecs : Nat) : List String :=
  ["podman", "stop", "--time", toString graceSecs, id]

def rmArgv (id : ContainerId) (force : Bool) : List String :=
  ["podman", "rm"] ++ (if force then ["--force"] else []) ++ [id]

def inspectArgv (id : ContainerId) : List String := ["podman", "inspect", "--format", "json", id]

def healthcheckRunArgv (id : ContainerId) : List String := ["podman", "healthcheck", "run", id]

def logsArgv (id : ContainerId) (follow : Bool) : List String :=
  ["podman", "logs"] ++ (if follow then ["--follow"] else []) ++ ["--timestamps", id]

def projectFilter (project : String) : String := "label=io.podman.compose.project=" ++ project

def psArgv (project : String) : List String :=
  ["podman", "ps", "--all", "--filter", projectFilter project, "--format", "json"]

def networkLsArgv (project : String) : List String :=
  ["podman", "network", "ls", "--filter", projectFilter project, "--format", "json"]

def volumeLsArgv (project : String) : List String :=
  ["podman", "volume", "ls", "--filter", projectFilter project, "--format", "json"]

/-! What `podman run` is told. -/

/-- The options of `podman run` that are used, as its manual has them. -/
def runOptions : String → Option Kind
  | "detach" => some .flag
  | "name" | "network" | "restart" | "env" | "volume" | "publish" | "label" | "entrypoint" => some .valued
  | _ => none

/-- What a container is asked for. -/
structure Asked where
  detached : Bool
  names : List String
  networks : List String
  restart : List String
  environment : List String
  volumes : List String
  ports : List String
  labels : List (String × String)
  entrypoint : List String
  image : Option String
  command : List String
  deriving DecidableEq

/-- The text before the first `=`, and the one behind it. -/
def splitLabel (label : String) : String × String :=
  (String.ofList (label.toList.takeWhile (· ≠ '=')), String.ofList ((label.toList.dropWhile (· ≠ '=')).drop 1))

/-- What settings and the words behind them ask for. -/
def Asked.of (found : List Setting × List String) : Asked where
  detached := Setting.flag "detach" ∈ found.1
  names := Options.values "name" found.1
  networks := Options.values "network" found.1
  restart := Options.values "restart" found.1
  environment := Options.values "env" found.1
  volumes := Options.values "volume" found.1
  ports := Options.values "publish" found.1
  labels := (Options.values "label" found.1).map splitLabel
  entrypoint := Options.values "entrypoint" found.1
  image := found.2.head?
  command := found.2.tail

/-- What a specification asks for. No policy and the policy `no` are the same. -/
def RunSpec.asked (toJson : List String → String) (spec : RunSpec) : Asked where
  detached := true
  names := [spec.containerName]
  networks := spec.networkArgs
  restart := spec.restartArgs
  environment := spec.environment
  volumes := spec.volumes
  ports := spec.ports
  labels := byKey spec.labels
  entrypoint := (spec.entrypoint.map toJson).toList
  image := some spec.image
  command := spec.command.getD []

section Reading
variable (toJson : List String → String) (spec : RunSpec)

def runSettings : List Setting :=
  [.flag "detach"] ++ [spec.containerName].map (.value "name") ++ spec.networkArgs.map (.value "network") ++
    spec.restartArgs.map (.value "restart") ++ spec.environment.map (.value "env") ++ spec.volumes.map (.value "volume") ++
    spec.ports.map (.value "publish") ++ ((byKey spec.labels).map keyVal).map (.value "label") ++
    (spec.entrypoint.map toJson).toList.map (.value "entrypoint")

theorem optionEach_eq (name : String) (texts : List String) :
    optionEach ("--" ++ name) texts = (texts.map (.value name)).flatMap Setting.words := by
  rw [optionEach, List.flatMap_map]
  rfl

/-- The arguments are those settings, with the image and the command behind them. -/
theorem runArgv_eq : runArgv toJson spec =
    ["podman", "run"] ++ Options.write (runSettings toJson spec) (spec.image :: spec.command.getD []) := by
  simp only [runArgv, Options.write, runSettings, List.flatMap_append, ← optionEach_eq]
  simp only [optionEach, String.reduceAppend, List.append_assoc, List.cons_append, List.nil_append]
  rfl

/-- Every option is one of `podman run`. -/
theorem runSettings_known : ∀ setting ∈ runSettings toJson spec,
    setting.name ≠ "" ∧ runOptions setting.name = some setting.kind := by
  have each {name : String} {texts : List String} (known : name ≠ "" ∧ runOptions name = some .valued) :
      ∀ setting ∈ texts.map (Setting.value name), setting.name ≠ "" ∧ runOptions setting.name = some setting.kind := by
    intro setting member
    obtain ⟨text, -, rfl⟩ := List.mem_map.mp member
    exact known
  simp only [runSettings, List.forall_mem_append]
  refine ⟨⟨⟨⟨⟨⟨⟨⟨?_, each ?_⟩, each ?_⟩, each ?_⟩, each ?_⟩, each ?_⟩, each ?_⟩, each ?_⟩, each ?_⟩
  · intro setting member
    rw [List.mem_singleton.mp member]
    decide
  all_goals decide

theorem read_runArgv : Options.read runOptions ((runArgv toJson spec).drop 2) =
    (Options.read runOptions (spec.image :: spec.command.getD [])).map fun found =>
      (runSettings toJson spec ++ found.1, found.2) := by
  rw [runArgv_eq]
  exact Options.read_settings (fun setting member => (runSettings_known toJson spec setting member).1)
    (fun setting member => (runSettings_known toJson spec setting member).2) _

variable {toJson spec}

/-- A label's text is taken apart at the first `=`, which is not in its key. -/
theorem splitLabel_keyVal {entry : String × String} (free : '=' ∉ entry.1.toList) : splitLabel (keyVal entry) = entry := by
  have spelled : (keyVal entry).toList = entry.1.toList ++ '=' :: entry.2.toList := by
    simp [keyVal]
  have key : ∀ c ∈ entry.1.toList, decide (c ≠ '=') = true := fun c member => decide_eq_true fun same => free (same ▸ member)
  rw [splitLabel, spelled, List.takeWhile_append_of_pos key, List.dropWhile_append_of_pos key]
  simp

theorem byKey_perm (entries : FiniteMap String String) : (byKey entries).Perm entries.toList := List.mergeSort_perm _ _

theorem labels_split (keys : ∀ key ∈ spec.labels.keys, '=' ∉ key.toList) :
    ((byKey spec.labels).map keyVal).map splitLabel = byKey spec.labels := by
  have each : ∀ entry ∈ byKey spec.labels, (splitLabel ∘ keyVal) entry = id entry := by
    intro entry member
    refine splitLabel_keyVal (keys entry.1 ?_)
    rw [← FiniteMap.keys_toList]
    exact List.mem_map_of_mem ((byKey_perm spec.labels).mem_iff.mp member)
  rw [List.map_map, List.map_congr_left each, List.map_id]

/-- What the settings of a specification ask for. -/
theorem asked_of_runSettings (keys : ∀ key ∈ spec.labels.keys, '=' ∉ key.toList) :
    Asked.of (runSettings toJson spec, spec.image :: spec.command.getD []) = spec.asked toJson := by
  have flag (wanted : String) : Options.values wanted [Setting.flag "detach"] = [] := rfl
  simp (disch := decide) only [Asked.of, RunSpec.asked, runSettings, Options.values_append, flag, Options.values_same,
    Options.values_other, List.nil_append, List.append_nil, labels_split keys]
  simp

end Reading

theorem runSpec_labels {serviceHash : Service → Except String String} {projectName name : String} {service : Service}
    {spec : RunSpec} (made : runSpec serviceHash projectName name service = .ok spec) :
    ∃ configHash, spec.labels = AList.insert "io.podman.compose.config-hash" configHash
      (AList.insert "io.podman.compose.service" name (projectLabel projectName)) := by
  unfold runSpec at made
  split at made
  · cases made
  · cases made
    exact ⟨_, rfl⟩

theorem runSpec_keys {serviceHash : Service → Except String String} {projectName name : String} {service : Service}
    {spec : RunSpec} (made : runSpec serviceHash projectName name service = .ok spec) :
    ∀ key ∈ spec.labels.keys, '=' ∉ key.toList := by
  obtain ⟨configHash, labels⟩ := runSpec_labels made
  have keys : spec.labels.keys =
      ["io.podman.compose.config-hash", "io.podman.compose.service", "io.podman.compose.project"] := by
    rw [labels]
    rfl
  rw [keys]
  decide

/-- A service of one image. -/
def webService : Service := { (default : Service) with image := some "nginx" }

/-- What comes of a process: it cannot be started, or it ends with a code, and none where a signal ended it. -/
inductive Finished
  | unstarted (reason : String)
  | ended (code : Option Int) (stdout stderr : String)

def Finished.output (argv : List String) : Finished → Except DriverError String
  | unstarted reason => .error (.io reason)
  | ended code stdout stderr => if code = some 0 then .ok stdout else .error (.podman argv (code.getD (-1)) stderr)

/-- Whether a text contains another. -/
def contains (text part : String) : Bool := decide (part.toList <:+: text.toList)

def trimmed (text : String) : String := String.ofList (trim text.toList)

/-- `str::parse` to sixteen bits: digits, perhaps behind a plus. -/
def parseU16 (text : List Char) : Option UInt16 :=
  let digits := if text.head? = some '+' then text.tail else text
  let value := digits.foldl (fun number c => 10 * number + (c.toNat - '0'.toNat)) 0
  if digits ≠ [] ∧ digits.all Char.isDigit ∧ value < 2 ^ 16 then some (UInt16.ofNat value) else none

def isPunctuation (c : Char) : Bool := c ∈ [',', '.', ';', ':']

/-- The port that a word ends in. -/
def privilegedPort (token : List Char) : Option UInt16 :=
  let token := (token.reverse.dropWhile isPunctuation).reverse
  (parseU16 ((token.splitOn ':').getLast?.getD [])).filter (· < 1024)

def detectPrivilegedPort (stderr : String) : Option UInt16 :=
  if contains stderr "permission denied" || contains stderr "EACCES" then
    ((stderr.toList.splitOnP isWhiteSpace).filter (· ≠ [])).findSome? privilegedPort
  else none

def HealthStatus.from (text : String) : HealthStatus :=
  match text with
  | "healthy" => healthy
  | "unhealthy" => unhealthy
  | "starting" => starting
  | "none" => none
  | other => unknown other

structure PodmanHealthJson where
  status : String
  failingStreak : Nat

structure PodmanStateJson where
  status : String
  pid : Nat
  exitCode : Int
  health : Option PodmanHealthJson

structure PodmanContainerJson where
  name : String
  state : PodmanStateJson

def PodmanContainerJson.intoContainerState (found : PodmanContainerJson) : ContainerState where
  name := found.name
  status := found.state.status
  pid := found.state.pid
  exitCode := found.state.exitCode
  health := found.state.health.map fun health => ⟨.from health.status, health.failingStreak⟩

structure PodmanPortJson where
  hostIp : String
  containerPort : UInt16
  hostPort : UInt16
  protocol : String

structure PodmanPsJson where
  id : String
  names : List String
  image : String
  state : String
  ports : Option (List PodmanPortJson)
  labels : FiniteMap String String

structure ContainerSummary where
  id : String
  name : String
  image : String
  state : String
  ports : List String
  service : Option String

def PodmanPortJson.text (port : PodmanPortJson) : String :=
  if port.hostIp = "" then s!"{port.hostPort}:{port.containerPort}/{port.protocol}"
  else s!"{port.hostIp}:{port.hostPort}:{port.containerPort}/{port.protocol}"

def PodmanPsJson.intoSummary (found : PodmanPsJson) : ContainerSummary where
  id := found.id
  name := found.names.head?.getD ""
  image := found.image
  state := found.state
  ports := (found.ports.getD []).map PodmanPortJson.text
  service := found.labels.lookup "io.podman.compose.service"

/-- A call that uses the engine, and leaves it behind whether it fails or not. -/
abbrev Driven (Engine : Type) := ExceptT DriverError (StateM Engine)

/-- The driver, with what it takes from elsewhere: the processes of `podman` and the readers of JSON. -/
structure PodmanCli (Engine : Type) where
  binary : String
  process : List String → Engine → Finished × Engine
  entrypointJson : List String → String
  inspectJson : String → Except String (List PodmanContainerJson)
  psJson : String → Except String (List PodmanPsJson)

namespace PodmanCli
variable {Engine : Type} (cli : PodmanCli Engine)

def patchArgv : List String → List String
  | [] => []
  | _ :: rest => cli.binary :: rest

/-- `run_podman` with the arguments of this binary. -/
def runPodman (argv : List String) : Driven Engine String := fun engine =>
  let argv := cli.patchArgv argv
  let (ended, after) := cli.process argv engine
  (ended.output argv, after)

/-- A call with what is made of its outcome. -/
def calling {Answer : Type} (read : Except DriverError String → Except DriverError Answer) (argv : List String) :
    Driven Engine Answer := fun engine =>
  let (result, after) := cli.runPodman argv engine
  (read result, after)

/-- A failure is forgiven by what it prints. -/
def forgiving (forgiven : String → Bool) : Except DriverError String → Except DriverError Unit
  | .ok _ => .ok ()
  | .error (.podman argv code stderr) => if forgiven stderr then .ok () else .error (.podman argv code stderr)
  | .error error => .error error

def build (spec : BuildSpec) : Driven Engine ImageId := do
  let stdout ← cli.runPodman (buildArgv spec)
  return String.ofList (trim (((linesFrom [] stdout.toList).filter (· ≠ [])).getLast?.getD []))

def pull (image : String) : Driven Engine ImageId := do
  let stdout ← cli.runPodman (pullArgv image)
  return trimmed stdout

def createNetwork (spec : NetworkSpec) : Driven Engine Unit :=
  cli.calling (forgiving fun stderr => contains stderr "already exists") (networkCreateArgv spec)

def createVolume (spec : VolumeSpec) : Driven Engine Unit :=
  cli.calling (forgiving fun stderr => contains stderr "already exists") (volumeCreateArgv spec)

/-- A failure over a privileged port is told from the others. -/
def startedOr (service : String) : Except DriverError String → Except DriverError ContainerId
  | .ok stdout => .ok (trimmed stdout)
  | .error (.podman argv code stderr) =>
    match detectPrivilegedPort stderr with
    | some port => .error (.privilegedPort service port)
    | none => .error (.podman argv code stderr)
  | .error error => .error error

def run (spec : RunSpec) : Driven Engine ContainerId :=
  cli.calling (startedOr spec.service) (runArgv cli.entrypointJson spec)

/-- The first of what an inspection finds. -/
def inspect (id : ContainerId) : Driven Engine ContainerState := do
  let stdout ← cli.runPodman (inspectArgv id)
  match cli.inspectJson stdout with
  | .error reason => throw (.json reason)
  | .ok [] => throw (.podman (cli.patchArgv (inspectArgv id)) 0 "empty inspect response")
  | .ok (item :: _) => return item.intoContainerState

def healthcheckRun (id : ContainerId) : Driven Engine HealthState := do
  -- its own answer is ignored, and the state is asked for again
  cli.calling (fun _ => .ok ()) (healthcheckRunArgv id)
  let state ← cli.inspect id
  return state.health.getD ⟨.none, 0⟩

def stop (id : ContainerId) (graceSecs : Nat) : Driven Engine Unit := do
  let _ ← cli.runPodman (stopArgv id graceSecs)

def missing (stderr : String) : Bool := contains stderr "no such container" || contains stderr "No such container"

def rm (id : ContainerId) (force : Bool) : Driven Engine Unit := cli.calling (forgiving missing) (rmArgv id force)

def ps (project : String) : Driven Engine (List ContainerSummary) := do
  let stdout ← cli.runPodman (psArgv project)
  if trimmed stdout = "" || trimmed stdout = "null" then return []
  match cli.psJson stdout with
  | .error reason => throw (.json reason)
  | .ok items => return items.map PodmanPsJson.intoSummary

/-- One turn of `down`. -/
def takeDown (graceSecs : Nat) (container : ContainerSummary) : Driven Engine Unit := do
  cli.stop container.id graceSecs
  cli.rm container.id false

/-- `down` on a project: what is listed is stopped and removed, the last first. -/
def down (project : String) (graceSecs : Nat) : Driven Engine Unit := do
  let containers ← cli.ps project
  containers.reverse.forM (cli.takeDown graceSecs)

/-- What the executor gets to know of a call. -/
def told {Answer : Type} (event : Answer → ExecEvent) (call : Driven Engine Answer) (engine : Engine) : ExecEvent × Engine :=
  let (result, after) := call.run engine
  (match result with
    | .ok answer => event answer
    | .error error => .failed error, after)

/-- The call that the executor makes for its next operation, read at some time. -/
def perform (opts : ExecOpts) (state : Execution) (now : Nat) : Op → Engine → ExecEvent × Engine
  | .createNetwork spec => told (fun _ => .networkCreated) (cli.createNetwork spec)
  | .createVolume spec => told (fun _ => .volumeCreated) (cli.createVolume spec)
  | .buildImage spec => if opts.noBuild then fun engine => (.skipped, engine) else told .imageBuilt (cli.build spec)
  | .pullImage spec => if opts.noPull then fun engine => (.skipped, engine) else told .imagePulled (cli.pull spec.image)
  | .runContainer spec => told (.started spec.service) (cli.run spec)
  | .waitHealthy spec =>
    if state.deadline = none then fun engine => (.waitEntered now, engine)
    else told (fun found => .inspected (state.waitedId spec) found now) (cli.inspect (state.waitedId spec))
  | .stopContainer spec => told (fun _ => .stopped) (cli.stop spec.containerName spec.timeoutSecs)
  | .removeContainer spec => told (fun _ => .removed) (cli.rm spec.containerName spec.force)

/-- The executor and the engine, where the executor takes what it is told. -/
def Deploys (opts : ExecOpts) (before : Execution × Engine) (now : Nat) (after : Execution × Engine) : Prop :=
  ∃ op rest, before.1.ops = op :: rest ∧
    before.1.next opts (cli.perform opts before.1 now op before.2).1 = some after.1 ∧
    (cli.perform opts before.1 now op before.2).2 = after.2

end PodmanCli

end Burble.SelurCompose
