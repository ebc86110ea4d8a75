import Burble.Walk
import Burble.Compose.Lexer
import Burble.Compose.Schema

namespace Burble.SelurCompose

def visitProject (name : String) (env : EnvMap) : Except InterpError String := expand name env

def visitStringOrList (sol : StringOrList) (env : EnvMap) : Except InterpError StringOrList :=
  match sol with
  | .string text => do return .string (← expand text env)
  | .list items => do return .list (← items.mapM (expand · env))

def visitEnvMap (entries : ServiceEnv) (env : EnvMap) : Except InterpError ServiceEnv :=
  match entries with
  | .empty => .ok .empty
  | .list items => do return .list (← items.mapM (expand · env))
  | .map entries => do return .map (← entries.mapValuesM fun value => value.mapM (expand · env))

/-- The context and the Containerfile are paths and stay. -/
def visitBuild (build : Build) (env : EnvMap) : Except InterpError Build := do
  return { build with
    args := ← build.args.mapValuesM (expand · env)
    target := ← build.target.mapM (expand · env)
    labels := ← build.labels.mapValuesM (expand · env) }

def visitMount (mount : MountSpec) (env : EnvMap) : Except InterpError MountSpec :=
  match mount with
  | .short text => do return .short (← expand text env)
  | .long mount => .ok (.long mount)

def visitNetworkMode (mode : NetworkMode) (env : EnvMap) : Except InterpError NetworkMode :=
  match mode with
  | .custom name => do return .custom (← expand name env)
  | .container id => do return .container (← expand id env)
  | other => .ok other

/-- Dependencies are identifiers and stay. -/
def visitDependsOn (dependsOn : DependsOn) (_ : EnvMap) : Except InterpError DependsOn := .ok dependsOn

def visitHealthcheckTest (test : HealthcheckTest) (env : EnvMap) : Except InterpError HealthcheckTest :=
  match test with
  | .shell text => do return .shell (← expand text env)
  | .exec items => do return .exec (← items.mapM (expand · env))

def visitHealthcheck (check : Healthcheck) (env : EnvMap) : Except InterpError Healthcheck := do
  return { check with test := ← visitHealthcheckTest check.test env }

def visitNetwork (network : Network) (env : EnvMap) : Except InterpError Network := do
  return { network with
    driver := ← network.driver.mapM (expand · env)
    driverOpts := ← network.driverOpts.mapValuesM (expand · env)
    name := ← network.name.mapM (expand · env)
    labels := ← network.labels.mapValuesM (expand · env) }

def visitVolume (volume : Volume) (env : EnvMap) : Except InterpError Volume := do
  return { volume with
    driver := ← volume.driver.mapM (expand · env)
    driverOpts := ← volume.driverOpts.mapValuesM (expand · env)
    name := ← volume.name.mapM (expand · env)
    labels := ← volume.labels.mapValuesM (expand · env) }

def visitSecret (secret : Secret) (env : EnvMap) : Except InterpError Secret := do
  return { secret with name := ← secret.name.mapM (expand · env) }

def visitConfigDef (config : Config) (env : EnvMap) : Except InterpError Config := visitSecret config env

def visitSecretRef (ref : SecretRef) (env : EnvMap) : Except InterpError SecretRef :=
  match ref with
  | .name name => do return .name (← expand name env)
  | .long ref => do
    return .long { ref with
      source := ← expand ref.source env
      uid := ← ref.uid.mapM (expand · env)
      gid := ← ref.gid.mapM (expand · env) }

def visitConfigRef (ref : ConfigRef) (env : EnvMap) : Except InterpError ConfigRef := visitSecretRef ref env

/-- Ports, paths of env files, the restart policy, `init` and the grace period stay. -/
def visitService (service : Service) (env : EnvMap) : Except InterpError Service := do
  return { service with
    image := ← service.image.mapM (expand · env)
    build := ← service.build.mapM (visitBuild · env)
    command := ← service.command.mapM (visitStringOrList · env)
    entrypoint := ← service.entrypoint.mapM (visitStringOrList · env)
    environment := ← visitEnvMap service.environment env
    volumes := ← service.volumes.mapM (visitMount · env)
    networks := ← service.networks.mapM (expand · env)
    networkMode := ← service.networkMode.mapM (visitNetworkMode · env)
    dependsOn := ← visitDependsOn service.dependsOn env
    healthcheck := ← service.healthcheck.mapM (visitHealthcheck · env)
    profiles := ← service.profiles.mapM (expand · env)
    secrets := ← service.secrets.mapM (visitSecretRef · env)
    configs := ← service.configs.mapM (visitConfigRef · env)
    user := ← service.user.mapM (expand · env)
    workingDir := ← service.workingDir.mapM (expand · env)
    hostname := ← service.hostname.mapM (expand · env)
    capAdd := ← service.capAdd.mapM (expand · env)
    capDrop := ← service.capDrop.mapM (expand · env)
    stopSignal := ← service.stopSignal.mapM (expand · env) }

/-- Extension tables stay. -/
def visitCompose (compose : Compose) (env : EnvMap) : Except InterpError Compose := do
  return { compose with
    projectName := ← compose.projectName.mapM (visitProject · env)
    services := ← compose.services.mapValuesM (visitService · env)
    networks := ← compose.networks.mapValuesM (visitNetwork · env)
    volumes := ← compose.volumes.mapValuesM (visitVolume · env)
    secrets := ← compose.secrets.mapValuesM (visitSecret · env)
    configs := ← compose.configs.mapValuesM (visitConfigDef · env) }

/-- `interpolate`. -/
def interpolate (compose : Compose) (env : EnvMap) : Except InterpError Compose := visitCompose compose env

end Burble.SelurCompose
