import Burble.Json

namespace Burble.SelurCompose

/-- A path, as it is displayed. -/
abbrev PathBuf := String

structure Build where
  context : PathBuf
  dockerfile : Option PathBuf
  args : FiniteMap String String
  target : Option String
  labels : FiniteMap String String
  noCache : Bool

inductive StringOrList
  | string (text : String)
  | list (items : List String)
  deriving DecidableEq

inductive ServiceEnv
  | empty
  | list (items : List String)
  | map (entries : FiniteMap String (Option String))

structure PortLong where
  hostIp : Option String
  target : UInt16
  published : Option String
  protocol : Option String
  deriving DecidableEq

inductive PortBinding
  | short (text : String)
  | long (port : PortLong)
  deriving DecidableEq

structure BindOptions where
  propagation : Option String
  createHostPath : Bool
  deriving DecidableEq

structure VolumeOptions where
  nocopy : Bool
  deriving DecidableEq

structure MountLong where
  mountType : String
  source : Option PathBuf
  target : PathBuf
  readOnly : Bool
  bind : Option BindOptions := none
  volume : Option VolumeOptions := none
  deriving DecidableEq

inductive MountSpec
  | short (text : String)
  | long (mount : MountLong)
  deriving DecidableEq

inductive NetworkMode
  | bridge
  | host
  | none
  | container (id : String)
  | custom (name : String)
  deriving DecidableEq

inductive DependsCondition
  | serviceStarted
  | serviceHealthy
  | serviceCompletedSuccessfully
  deriving DecidableEq, Repr

structure DependsOnSpec where
  condition : DependsCondition
  restart : Bool
  deriving DecidableEq

inductive DependsOn
  | empty
  | list (names : List String)
  | map (entries : FiniteMap String DependsOnSpec)

inductive RestartPolicy
  | no
  | always
  | onFailure
  | unlessStopped
  deriving DecidableEq, Repr

/-- A duration of the schema, to the nanosecond. -/
abbrev Nanoseconds := Nat

inductive HealthcheckTest
  | shell (text : String)
  | exec (items : List String)
  deriving DecidableEq

structure Healthcheck where
  test : HealthcheckTest
  interval : Option Nanoseconds := none
  timeout : Option Nanoseconds := none
  retries : Option UInt32 := none
  startPeriod : Option Nanoseconds := none
  disable : Bool := false
  deriving DecidableEq

structure SecretRefLong where
  source : String
  target : Option PathBuf := none
  uid : Option String := none
  gid : Option String := none
  mode : Option UInt32 := none
  deriving DecidableEq

inductive SecretRef
  | name (name : String)
  | long (ref : SecretRefLong)
  deriving DecidableEq

/-- A reference to a config has the forms of one to a secret. -/
abbrev ConfigRef := SecretRef

structure Service where
  image : Option String := none
  build : Option Build := none
  command : Option StringOrList := none
  entrypoint : Option StringOrList := none
  environment : ServiceEnv := .empty
  envFile : List PathBuf := []
  ports : List PortBinding := []
  volumes : List MountSpec := []
  networks : List String := []
  networkMode : Option NetworkMode := none
  dependsOn : DependsOn := .empty
  healthcheck : Option Healthcheck := none
  restart : RestartPolicy := .no
  profiles : List String := []
  secrets : List SecretRef := []
  configs : List ConfigRef := []
  user : Option String := none
  workingDir : Option String := none
  hostname : Option String := none
  capAdd : List String := []
  capDrop : List String := []
  init : Option Bool := none
  stopSignal : Option String := none
  stopGracePeriod : Option Nanoseconds := none

instance : Inhabited Service := ⟨{}⟩

structure Ipam where
  driver : Option String := none
  config : List (FiniteMap String String) := []

structure Network where
  driver : Option String := none
  driverOpts : FiniteMap String String := ∅
  external : Bool := false
  name : Option String := none
  ipam : Option Ipam := none
  labels : FiniteMap String String := ∅
  internal : Bool := false

structure Volume where
  driver : Option String := none
  driverOpts : FiniteMap String String := ∅
  external : Bool := false
  name : Option String := none
  labels : FiniteMap String String := ∅

structure Secret where
  file : Option PathBuf := none
  external : Bool := false
  name : Option String := none
  deriving DecidableEq

/-- A config is declared as a secret is. -/
abbrev Config := Secret

/-- The project of a compose file; the table of the project holds its name alone. -/
structure Compose where
  projectName : Option String
  services : FiniteMap String Service
  networks : FiniteMap String Network := ∅
  volumes : FiniteMap String Volume := ∅
  secrets : FiniteMap String Secret := ∅
  configs : FiniteMap String Config := ∅
  extensions : FiniteMap String Json := ∅

end Burble.SelurCompose
