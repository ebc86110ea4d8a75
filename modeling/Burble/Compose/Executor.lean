import Burble.Runs
import Burble.Compose.Plan

namespace Burble.SelurCompose

abbrev ImageId := String
abbrev ContainerId := String

/-- Milliseconds. -/
abbrev Duration := Nat

def seconds (count : Nat) : Duration := count * 1000

inductive HealthStatus
  | healthy
  | starting
  | unhealthy
  | none
  | unknown (text : String)
  deriving DecidableEq, Repr

structure HealthState where
  status : HealthStatus
  failingStreak : Nat
  deriving DecidableEq

structure ContainerState where
  name : String
  status : String
  pid : Nat
  exitCode : Int
  health : Option HealthState
  deriving DecidableEq

inductive DriverError
  | podman (argv : List String) (code : Int) (stderr : String)
  | healthcheckTimeout (service : String) (timeout : Duration)
  | unhealthy (service : String) (streak : Nat)
  | privilegedPort (service : String) (port : UInt16)
  | io (reason : String)
  | json (reason : String)
  deriving DecidableEq

structure ExecOpts where
  noBuild : Bool
  noPull : Bool
  healthcheckStartPeriod : Option Duration

structure ExecReport where
  containers : FiniteMap String ContainerId
  imagesBuilt : Nat
  imagesPulled : Nat
  networksCreated : Nat
  volumesCreated : Nat

instance : Inhabited ExecReport := ⟨⟨∅, 0, 0, 0, 0⟩⟩

/-- A plan that is being executed. The deadline is there while a wait is going on. -/
structure Execution where
  ops : List Op
  report : ExecReport
  containerIds : FiniteMap String ContainerId
  deadline : Option Nat
  clock : Nat
  failed : Option DriverError

/-- What the driver answers, with the time where it is read, and what the containers do by
themselves. -/
inductive ExecEvent
  | skipped
  | networkCreated
  | volumeCreated
  | imageBuilt (id : ImageId)
  | imagePulled (id : ImageId)
  | started (service : String) (id : ContainerId)
  | waitEntered (now : Nat)
  | inspected (id : ContainerId) (state : ContainerState) (now : Nat)
  | stopped
  | removed
  | failed (error : DriverError)
  | exited (service : String) (code : Int)

def defaultPollInterval : Duration := seconds 2

def timeoutSlack : Duration := seconds 5

def waitInterval : Duration := seconds 30

def waitRetries : Nat := 3

def waitTimeout (opts : ExecOpts) : Duration :=
  opts.healthcheckStartPeriod.getD 0 + waitInterval * (waitRetries + 1) + timeoutSlack

/-- The container to be waited for. -/
def Execution.waitedId (state : Execution) (spec : WaitHealthySpec) : ContainerId :=
  (state.containerIds.lookup spec.service).getD spec.containerName

def begin (plan : Plan) (clock : Nat) : Execution := ⟨plan.ops, default, ∅, none, clock, none⟩

def Execution.fail (state : Execution) (error : DriverError) : Execution := { state with failed := some error }

/-- One turn of the polling loop, from the answer of an inspection. -/
def Execution.poll (opts : ExecOpts) (state : Execution) (service : String) (rest : List Op) (deadline : Nat)
    (found : ContainerState) (now : Nat) : Execution :=
  match found.health with
  | none => { state with ops := rest, deadline := none, clock := now }
  | some health =>
    match health.status with
    | .healthy => { state with ops := rest, deadline := none, clock := now }
    | .unhealthy => { state with clock := now, failed := some (.unhealthy service health.failingStreak) }
    | _ =>
      if deadline ≤ now then { state with clock := now, failed := some (.healthcheckTimeout service (waitTimeout opts)) }
      else { state with clock := now + min waitInterval defaultPollInterval }

def Execution.next (opts : ExecOpts) (state : Execution) : ExecEvent → Option Execution
  | .exited service _ => if service ∈ state.containerIds.keys then some state else none
  | event =>
    if state.failed.isSome then none
    else
      match state.ops, event with
      | .createNetwork _ :: rest, .networkCreated =>
        some { state with ops := rest, report := { state.report with networksCreated := state.report.networksCreated + 1 } }
      | .createVolume _ :: rest, .volumeCreated =>
        some { state with ops := rest, report := { state.report with volumesCreated := state.report.volumesCreated + 1 } }
      | .buildImage _ :: rest, .skipped => if opts.noBuild then some { state with ops := rest } else none
      | .buildImage _ :: rest, .imageBuilt _ =>
        if opts.noBuild then none
        else some { state with ops := rest, report := { state.report with imagesBuilt := state.report.imagesBuilt + 1 } }
      | .pullImage _ :: rest, .skipped => if opts.noPull then some { state with ops := rest } else none
      | .pullImage _ :: rest, .imagePulled _ =>
        if opts.noPull then none
        else some { state with ops := rest, report := { state.report with imagesPulled := state.report.imagesPulled + 1 } }
      | .runContainer spec :: rest, .started service id =>
        if service = spec.service then
          some { state with
            ops := rest
            containerIds := AList.insert spec.service id state.containerIds
            report := { state.report with containers := AList.insert spec.service id state.report.containers } }
        else none
      | .waitHealthy _ :: _, .waitEntered now =>
        if state.deadline = none ∧ state.clock ≤ now then
          some { state with deadline := some (now + waitTimeout opts), clock := now }
        else none
      | .waitHealthy spec :: rest, .inspected id found now =>
        match state.deadline with
        | none => none
        | some deadline =>
          if id = state.waitedId spec ∧ state.clock ≤ now then
            some (state.poll opts spec.service rest deadline found now)
          else none
      | .waitHealthy _ :: _, .failed error => if state.deadline = none then none else some (state.fail error)
      | .stopContainer _ :: rest, .stopped => some { state with ops := rest }
      | .removeContainer _ :: rest, .removed => some { state with ops := rest }
      | .buildImage _ :: _, .failed error => if opts.noBuild then none else some (state.fail error)
      | .pullImage _ :: _, .failed error => if opts.noPull then none else some (state.fail error)
      | _ :: _, .failed error => some (state.fail error)
      | _, _ => none

def Execution.step (opts : ExecOpts) (before : Execution) (event : ExecEvent) (after : Execution) : Prop :=
  before.next opts event = some after

/-- What the executor returns, once it does. -/
def Execution.result (state : Execution) : Option (Except DriverError ExecReport) :=
  match state.failed with
  | some error => some (.error error)
  | none => if state.ops.isEmpty then some (.ok state.report) else none

end Burble.SelurCompose
