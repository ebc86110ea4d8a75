import Burble.Compose.Serialize

namespace Burble

/-- The map of a list of entries with different keys. -/
def FiniteMap.ofList {Item : Type} (entries : List (String × Item)) : FiniteMap String Item :=
  entries.foldr (fun entry items => AList.insert entry.1 entry.2 items) ∅

namespace SelurCompose

/-! The serde deserialisation of the schema from a TOML value. -/

def readString : Json → Except String String
  | .string text => .ok text
  | _ => .error "expected a string"

def readBool : Json → Except String Bool
  | .bool value => .ok value
  | _ => .error "expected a boolean"

def readU16 : Json → Except String UInt16
  | .integer value => if 0 ≤ value ∧ value < 65536 then .ok (UInt16.ofNat value.toNat) else .error "expected u16"
  | _ => .error "expected u16"

def readU32 : Json → Except String UInt32
  | .integer value => if 0 ≤ value ∧ value < 4294967296 then .ok (UInt32.ofNat value.toNat) else .error "expected u32"
  | _ => .error "expected u32"

section Shapes
variable {Item : Type} (read : Json → Except String Item)

def readList : Json → Except String (List Item)
  | .array items => items.mapM read
  | _ => .error "expected a sequence"

def readTable : Json → Except String (FiniteMap String Item)
  | .object entries => do
    let items ← entries.mapM fun (_, value) => read value
    return FiniteMap.ofList ((entries.map Prod.fst).zip items)
  | _ => .error "expected a map"

/-- A field that is absent by default. -/
def readOptional (value : Option Json) : Except String (Option Item) := value.mapM read

def readRequired (key : String) : Option Json → Except String Item
  | some value => read value
  | none => .error s!"missing field {key}"

def readOr (default : Item) : Option Json → Except String Item
  | some value => read value
  | none => .ok default

end Shapes

/-- The entries of a table that has no other fields. -/
def readFields (known : List String) : Json → Except String (List (String × Json))
  | .object entries =>
    match entries.find? fun entry => entry.1 ∉ known with
    | some entry => .error s!"unknown field {entry.1}"
    | none => .ok entries
  | _ => .error "expected a table"

def StringOrList.ofJson : Json → Except String StringOrList
  | .string text => .ok (.string text)
  | .array items => do return .list (← items.mapM readString)
  | _ => .error "data did not match any variant of untagged enum StringOrList"

def ServiceEnv.ofJson : Json → Except String ServiceEnv
  | .array items => do return .list (← items.mapM readString)
  | .object entries => do return .map (← readTable (fun value => do return some (← readString value)) (.object entries))
  | _ => .error "data did not match any variant of untagged enum EnvMap"

def Build.ofJson (json : Json) : Except String Build := do
  let entries ← readFields ["context", "dockerfile", "args", "target", "labels", "no_cache"] json
  return {
    context := ← readRequired readString "context" (entries.lookup "context")
    dockerfile := ← readOptional readString (entries.lookup "dockerfile")
    args := ← readOr (readTable readString) ∅ (entries.lookup "args")
    target := ← readOptional readString (entries.lookup "target")
    labels := ← readOr (readTable readString) ∅ (entries.lookup "labels")
    noCache := ← readOr readBool false (entries.lookup "no_cache") }

def PortLong.ofJson (json : Json) : Except String PortLong := do
  let entries ← readFields ["host_ip", "target", "published", "protocol"] json
  return {
    hostIp := ← readOptional readString (entries.lookup "host_ip")
    target := ← readRequired readU16 "target" (entries.lookup "target")
    published := ← readOptional readString (entries.lookup "published")
    protocol := ← readOptional readString (entries.lookup "protocol") }

def PortBinding.ofJson : Json → Except String PortBinding
  | .string text => .ok (.short text)
  | .integer value => .ok (.short (toString value))
  | .object entries => do return .long (← PortLong.ofJson (.object entries))
  | _ => .error "expected a string or table for a port binding"

def BindOptions.ofJson (json : Json) : Except String BindOptions := do
  let entries ← readFields ["propagation", "create_host_path"] json
  return {
    propagation := ← readOptional readString (entries.lookup "propagation")
    createHostPath := ← readOr readBool false (entries.lookup "create_host_path") }

def VolumeOptions.ofJson (json : Json) : Except String VolumeOptions := do
  let entries ← readFields ["nocopy"] json
  return { nocopy := ← readOr readBool false (entries.lookup "nocopy") }

def MountLong.ofJson (json : Json) : Except String MountLong := do
  let entries ← readFields ["type", "source", "target", "read_only", "bind", "volume"] json
  return {
    mountType := ← readRequired readString "type" (entries.lookup "type")
    source := ← readOptional readString (entries.lookup "source")
    target := ← readRequired readString "target" (entries.lookup "target")
    readOnly := ← readOr readBool false (entries.lookup "read_only")
    bind := ← readOptional BindOptions.ofJson (entries.lookup "bind")
    volume := ← readOptional VolumeOptions.ofJson (entries.lookup "volume") }

def MountSpec.ofJson : Json → Except String MountSpec
  | .string text => .ok (.short text)
  | .object entries => do return .long (← MountLong.ofJson (.object entries))
  | _ => .error "expected a string or table for a volume mount"

def NetworkMode.ofText (text : String) : NetworkMode :=
  if text = "bridge" then .bridge
  else if text = "host" then .host
  else if text = "none" then .none
  else if "container:".toList <+: text.toList then .container (String.ofList (text.toList.drop "container:".length))
  else .custom text

def NetworkMode.ofJson (json : Json) : Except String NetworkMode := do return NetworkMode.ofText (← readString json)

def DependsCondition.ofJson (json : Json) : Except String DependsCondition := do
  let text ← readString json
  if text = "service_started" then return .serviceStarted
  else if text = "service_healthy" then return .serviceHealthy
  else if text = "service_completed_successfully" then return .serviceCompletedSuccessfully
  else .error s!"unknown variant {text}"

def DependsOnSpec.ofJson (json : Json) : Except String DependsOnSpec := do
  let entries ← readFields ["condition", "restart"] json
  return {
    condition := ← readRequired DependsCondition.ofJson "condition" (entries.lookup "condition")
    restart := ← readOr readBool false (entries.lookup "restart") }

def DependsOn.ofJson : Json → Except String DependsOn
  | .array items => do return .list (← items.mapM readString)
  | .object entries => do return .map (← readTable DependsOnSpec.ofJson (.object entries))
  | _ => .error "data did not match any variant of untagged enum DependsOn"

def RestartPolicy.ofJson (json : Json) : Except String RestartPolicy := do
  let text ← readString json
  if text = "no" then return .no
  else if text = "always" then return .always
  else if text = "on-failure" then return .onFailure
  else if text = "unless-stopped" then return .unlessStopped
  else .error s!"unknown variant {text}"

def HealthcheckTest.ofJson : Json → Except String HealthcheckTest
  | .string text => .ok (.shell text)
  | .array items => do return .exec (← items.mapM readString)
  | _ => .error "data did not match any variant of untagged enum HealthcheckTest"

def SecretRefLong.ofJson (json : Json) : Except String SecretRefLong := do
  let entries ← readFields ["source", "target", "uid", "gid", "mode"] json
  return {
    source := ← readRequired readString "source" (entries.lookup "source")
    target := ← readOptional readString (entries.lookup "target")
    uid := ← readOptional readString (entries.lookup "uid")
    gid := ← readOptional readString (entries.lookup "gid")
    mode := ← readOptional readU32 (entries.lookup "mode") }

def SecretRef.ofJson : Json → Except String SecretRef
  | .string secret => .ok (.name secret)
  | .object entries => do return .long (← SecretRefLong.ofJson (.object entries))
  | _ => .error "data did not match any variant of untagged enum SecretRef"

section Durations
variable (parseDuration : String → Except String Nanoseconds)

def readDuration (json : Json) : Except String Nanoseconds := do parseDuration (← readString json)

def Healthcheck.ofJson (json : Json) : Except String Healthcheck := do
  let entries ← readFields ["test", "interval", "timeout", "retries", "start_period", "disable"] json
  return {
    test := ← readRequired HealthcheckTest.ofJson "test" (entries.lookup "test")
    interval := ← readOptional (readDuration parseDuration) (entries.lookup "interval")
    timeout := ← readOptional (readDuration parseDuration) (entries.lookup "timeout")
    retries := ← readOptional readU32 (entries.lookup "retries")
    startPeriod := ← readOptional (readDuration parseDuration) (entries.lookup "start_period")
    disable := ← readOr readBool false (entries.lookup "disable") }

def Service.fieldNames : List String :=
  ["image", "build", "command", "entrypoint", "environment", "env_file", "ports", "volumes", "networks", "network_mode",
   "depends_on", "healthcheck", "restart", "profiles", "secrets", "configs", "user", "working_dir", "hostname", "cap_add",
   "cap_drop", "init", "stop_signal", "stop_grace_period"]

def Service.ofJson (json : Json) : Except String Service := do
  let entries ← readFields Service.fieldNames json
  return {
    image := ← readOptional readString (entries.lookup "image")
    build := ← readOptional Build.ofJson (entries.lookup "build")
    command := ← readOptional StringOrList.ofJson (entries.lookup "command")
    entrypoint := ← readOptional StringOrList.ofJson (entries.lookup "entrypoint")
    environment := ← readOr ServiceEnv.ofJson .empty (entries.lookup "environment")
    envFile := ← readOr (readList readString) [] (entries.lookup "env_file")
    ports := ← readOr (readList PortBinding.ofJson) [] (entries.lookup "ports")
    volumes := ← readOr (readList MountSpec.ofJson) [] (entries.lookup "volumes")
    networks := ← readOr (readList readString) [] (entries.lookup "networks")
    networkMode := ← readOptional NetworkMode.ofJson (entries.lookup "network_mode")
    dependsOn := ← readOr DependsOn.ofJson .empty (entries.lookup "depends_on")
    healthcheck := ← readOptional (Healthcheck.ofJson parseDuration) (entries.lookup "healthcheck")
    restart := ← readOr RestartPolicy.ofJson .no (entries.lookup "restart")
    profiles := ← readOr (readList readString) [] (entries.lookup "profiles")
    secrets := ← readOr (readList SecretRef.ofJson) [] (entries.lookup "secrets")
    configs := ← readOr (readList SecretRef.ofJson) [] (entries.lookup "configs")
    user := ← readOptional readString (entries.lookup "user")
    workingDir := ← readOptional readString (entries.lookup "working_dir")
    hostname := ← readOptional readString (entries.lookup "hostname")
    capAdd := ← readOr (readList readString) [] (entries.lookup "cap_add")
    capDrop := ← readOr (readList readString) [] (entries.lookup "cap_drop")
    init := ← readOptional readBool (entries.lookup "init")
    stopSignal := ← readOptional readString (entries.lookup "stop_signal")
    stopGracePeriod := ← readOptional (readDuration parseDuration) (entries.lookup "stop_grace_period") }

def Ipam.ofJson (json : Json) : Except String Ipam := do
  let entries ← readFields ["driver", "config"] json
  return {
    driver := ← readOptional readString (entries.lookup "driver")
    config := ← readOr (readList (readTable readString)) [] (entries.lookup "config") }

def Network.ofJson (json : Json) : Except String Network := do
  let entries ← readFields ["driver", "driver_opts", "external", "name", "ipam", "labels", "internal"] json
  return {
    driver := ← readOptional readString (entries.lookup "driver")
    driverOpts := ← readOr (readTable readString) ∅ (entries.lookup "driver_opts")
    external := ← readOr readBool false (entries.lookup "external")
    name := ← readOptional readString (entries.lookup "name")
    ipam := ← readOptional Ipam.ofJson (entries.lookup "ipam")
    labels := ← readOr (readTable readString) ∅ (entries.lookup "labels")
    internal := ← readOr readBool false (entries.lookup "internal") }

def Volume.ofJson (json : Json) : Except String Volume := do
  let entries ← readFields ["driver", "driver_opts", "external", "name", "labels"] json
  return {
    driver := ← readOptional readString (entries.lookup "driver")
    driverOpts := ← readOr (readTable readString) ∅ (entries.lookup "driver_opts")
    external := ← readOr readBool false (entries.lookup "external")
    name := ← readOptional readString (entries.lookup "name")
    labels := ← readOr (readTable readString) ∅ (entries.lookup "labels") }

def Secret.ofJson (json : Json) : Except String Secret := do
  let entries ← readFields ["file", "external", "name"] json
  return {
    file := ← readOptional readString (entries.lookup "file")
    external := ← readOr readBool false (entries.lookup "external")
    name := ← readOptional readString (entries.lookup "name") }

def readProject (json : Json) : Except String String := do
  let entries ← readFields ["name"] json
  readRequired readString "name" (entries.lookup "name")

def Compose.fieldNames : List String := ["project", "services", "networks", "volumes", "secrets", "configs"]

/-- Unknown tables of the root are extensions. -/
def Compose.ofJson : Json → Except String Compose
  | .object entries => do
    return {
      projectName := ← readOptional readProject (entries.lookup "project")
      services := ← readOr (readTable (Service.ofJson parseDuration)) ∅ (entries.lookup "services")
      networks := ← readOr (readTable Network.ofJson) ∅ (entries.lookup "networks")
      volumes := ← readOr (readTable Volume.ofJson) ∅ (entries.lookup "volumes")
      secrets := ← readOr (readTable Secret.ofJson) ∅ (entries.lookup "secrets")
      configs := ← readOr (readTable Secret.ofJson) ∅ (entries.lookup "configs")
      extensions := FiniteMap.ofList (entries.filter fun entry => entry.1 ∉ Compose.fieldNames) }
  | _ => .error "expected a table"

end Durations

end SelurCompose

end Burble
