import Burble.Base16
import Burble.Compose.Plan

namespace Burble.SelurCompose

/-! The serde serialisation of the schema. A skipped field has no value. -/

abbrev Fields := List (String × Option Json)

/-- The entries of the fields that are not skipped. -/
def Fields.entries (fields : Fields) : List (String × Json) :=
  fields.filterMap fun (key, value) => value.map fun value => (key, value)

def Fields.toJson (fields : Fields) : Json := .object fields.entries

/-- A field that is skipped when it is false. -/
def flag (value : Bool) : Option Json := if value then some (.bool true) else none

/-- A list that is skipped when it is empty. -/
def listJson {Item : Type} (toJson : Item → Json) (items : List Item) : Option Json :=
  if items.isEmpty then none else some (.array (items.map toJson))

def tableJson {Item : Type} (toJson : Item → Json) (entries : FiniteMap String Item) : Json :=
  .object (entries.toList.map fun (key, value) => (key, toJson value))

/-- A table that is skipped when it is empty. -/
def mapJson {Item : Type} (toJson : Item → Json) (entries : FiniteMap String Item) : Option Json :=
  if entries.size = 0 then none else some (tableJson toJson entries)

def StringOrList.toJson : StringOrList → Json
  | string text => .string text
  | list items => .array (items.map .string)

/-- The form without variables is skipped. A variable without a value is `null`, or skipped where the format has none. -/
def ServiceEnv.toJson (nothing : Option Json) : ServiceEnv → Option Json
  | empty => none
  | list items => some (.array (items.map .string))
  | map entries => some (.object (entries.toList.filterMap fun (key, value) =>
      (value.elim nothing fun text => some (.string text)).map fun value => (key, value)))

def Build.fields (build : Build) : Fields :=
  [("context", some (.string build.context)),
   ("dockerfile", build.dockerfile.map .string),
   ("args", mapJson .string build.args),
   ("target", build.target.map .string),
   ("labels", mapJson .string build.labels),
   ("no_cache", flag build.noCache)]

def Build.toJson (build : Build) : Json := build.fields.toJson

def PortLong.fields (port : PortLong) : Fields :=
  [("host_ip", port.hostIp.map .string),
   ("target", some (.integer port.target.toNat)),
   ("published", port.published.map .string),
   ("protocol", port.protocol.map .string)]

def PortLong.toJson (port : PortLong) : Json := port.fields.toJson

def PortBinding.toJson : PortBinding → Json
  | short text => .string text
  | long port => port.toJson

def BindOptions.fields (bind : BindOptions) : Fields :=
  [("propagation", bind.propagation.map .string), ("create_host_path", flag bind.createHostPath)]

def BindOptions.toJson (bind : BindOptions) : Json := bind.fields.toJson

def VolumeOptions.fields (volume : VolumeOptions) : Fields :=
  [("nocopy", flag volume.nocopy)]

def VolumeOptions.toJson (volume : VolumeOptions) : Json := volume.fields.toJson

def MountLong.fields (mount : MountLong) : Fields :=
  [("type", some (.string mount.mountType)),
   ("source", mount.source.map .string),
   ("target", some (.string mount.target)),
   ("read_only", flag mount.readOnly),
   ("bind", mount.bind.map BindOptions.toJson),
   ("volume", mount.volume.map VolumeOptions.toJson)]

def MountLong.toJson (mount : MountLong) : Json := mount.fields.toJson

def MountSpec.toJson : MountSpec → Json
  | short text => .string text
  | long mount => mount.toJson

def NetworkMode.toJson (mode : NetworkMode) : Json := .string mode.text

def DependsCondition.text : DependsCondition → String
  | serviceStarted => "service_started"
  | serviceHealthy => "service_healthy"
  | serviceCompletedSuccessfully => "service_completed_successfully"

def DependsOnSpec.fields (spec : DependsOnSpec) : Fields :=
  [("condition", some (.string spec.condition.text)), ("restart", flag spec.restart)]

def DependsOnSpec.toJson (spec : DependsOnSpec) : Json := spec.fields.toJson

/-- The form without dependencies is skipped. -/
def DependsOn.toJson : DependsOn → Option Json
  | empty => none
  | list names => some (.array (names.map .string))
  | map entries => some (tableJson DependsOnSpec.toJson entries)

def HealthcheckTest.toJson : HealthcheckTest → Json
  | shell text => .string text
  | exec items => .array (items.map .string)

def SecretRefLong.fields (ref : SecretRefLong) : Fields :=
  [("source", some (.string ref.source)),
   ("target", ref.target.map .string),
   ("uid", ref.uid.map .string),
   ("gid", ref.gid.map .string),
   ("mode", ref.mode.map fun mode => .integer mode.toNat)]

def SecretRefLong.toJson (ref : SecretRefLong) : Json := ref.fields.toJson

def SecretRef.toJson : SecretRef → Json
  | name secret => .string secret
  | long ref => ref.toJson

section Durations
variable (formatDuration : Nanoseconds → String) (nothing : Option Json)

def durationJson (duration : Nanoseconds) : Json := .string (formatDuration duration)

def Healthcheck.fields (check : Healthcheck) : Fields :=
  [("test", some check.test.toJson),
   ("interval", check.interval.map (durationJson formatDuration)),
   ("timeout", check.timeout.map (durationJson formatDuration)),
   ("retries", check.retries.map fun retries => .integer retries.toNat),
   ("start_period", check.startPeriod.map (durationJson formatDuration)),
   ("disable", flag check.disable)]

def Healthcheck.toJson (check : Healthcheck) : Json := (check.fields formatDuration).toJson

def Service.fields (service : Service) : Fields :=
  [("image", service.image.map .string),
   ("build", service.build.map Build.toJson),
   ("command", service.command.map StringOrList.toJson),
   ("entrypoint", service.entrypoint.map StringOrList.toJson),
   ("environment", service.environment.toJson nothing),
   ("env_file", listJson .string service.envFile),
   ("ports", listJson PortBinding.toJson service.ports),
   ("volumes", listJson MountSpec.toJson service.volumes),
   ("networks", listJson .string service.networks),
   ("network_mode", service.networkMode.map NetworkMode.toJson),
   ("depends_on", service.dependsOn.toJson),
   ("healthcheck", service.healthcheck.map (Healthcheck.toJson formatDuration)),
   ("restart", some (.string service.restart.text)),
   ("profiles", listJson .string service.profiles),
   ("secrets", listJson SecretRef.toJson service.secrets),
   ("configs", listJson SecretRef.toJson service.configs),
   ("user", service.user.map .string),
   ("working_dir", service.workingDir.map .string),
   ("hostname", service.hostname.map .string),
   ("cap_add", listJson .string service.capAdd),
   ("cap_drop", listJson .string service.capDrop),
   ("init", service.init.map .bool),
   ("stop_signal", service.stopSignal.map .string),
   ("stop_grace_period", service.stopGracePeriod.map (durationJson formatDuration))]

def Service.toJson (service : Service) : Json := (service.fields formatDuration nothing).toJson

def Ipam.fields (ipam : Ipam) : Fields :=
  [("driver", ipam.driver.map .string), ("config", listJson (tableJson .string) ipam.config)]

def Ipam.toJson (ipam : Ipam) : Json := ipam.fields.toJson

def Network.fields (network : Network) : Fields :=
  [("driver", network.driver.map .string),
   ("driver_opts", mapJson .string network.driverOpts),
   ("external", flag network.external),
   ("name", network.name.map .string),
   ("ipam", network.ipam.map Ipam.toJson),
   ("labels", mapJson .string network.labels),
   ("internal", flag network.internal)]

def Network.toJson (network : Network) : Json := network.fields.toJson

def Volume.fields (volume : Volume) : Fields :=
  [("driver", volume.driver.map .string),
   ("driver_opts", mapJson .string volume.driverOpts),
   ("external", flag volume.external),
   ("name", volume.name.map .string),
   ("labels", mapJson .string volume.labels)]

def Volume.toJson (volume : Volume) : Json := volume.fields.toJson

def Secret.fields (secret : Secret) : Fields :=
  [("file", secret.file.map .string), ("external", flag secret.external), ("name", secret.name.map .string)]

def Secret.toJson (secret : Secret) : Json := secret.fields.toJson

def projectJson (name : String) : Json := .object [("name", .string name)]

def Compose.fields (compose : Compose) : Fields :=
  [("project", compose.projectName.map projectJson),
   ("services", mapJson (Service.toJson formatDuration nothing) compose.services),
   ("networks", mapJson Network.toJson compose.networks),
   ("volumes", mapJson Volume.toJson compose.volumes),
   ("secrets", mapJson Secret.toJson compose.secrets),
   ("configs", mapJson Secret.toJson compose.configs)]

/-- Extension tables follow the other fields. -/
def Compose.entries (compose : Compose) : List (String × Json) :=
  (compose.fields formatDuration nothing).entries ++ compose.extensions.toList

/-- The hash of a service: the digest of the canonical bytes of its JSON form. Canonicaliser and digest are given. -/
def serviceHash (toJcs : Json → Except String (List UInt8)) (sha256 : List UInt8 → List UInt8) (service : Service) :
    Except String String := do
  let canonical ← toJcs (service.toJson formatDuration (some .null))
  return Base16.encode16 (sha256 canonical)

end Durations

end Burble.SelurCompose
