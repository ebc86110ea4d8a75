import Burble.Bytes
import Burble.Compose.Deserialize
import Burble.Compose.Visit

namespace Burble.SelurCompose

/-- What is taken from other crates: `toml`, `humantime`, the JSON canonicaliser and SHA-256. -/
structure Crates where
  parseToml : String → Except String Json
  printToml : Json → Except String String
  parseDuration : String → Except String Nanoseconds
  formatDuration : Nanoseconds → String
  toJcs : Json → Except String (List UInt8)
  sha256 : List UInt8 → List UInt8

inductive LoadError
  | read (reason : String)
  | toml (reason : String)
  | missingImageOrBuild (service : String)
  | interp (reason : InterpError)
  | plan (reason : PlanError)

structure Loaded where
  compose : Compose
  plan : Plan

def validate (compose : Compose) : Except LoadError Unit :=
  match compose.services.toList.find? fun entry => entry.2.image.isNone && entry.2.build.isNone with
  | some entry => .error (.missingImageOrBuild entry.1)
  | none => .ok ()

section Commands
variable (crates : Crates)

def parseStr (text : String) : Except LoadError Compose := do
  let json ← (crates.parseToml text).mapError .toml
  let compose ← (Compose.ofJson crates.parseDuration json).mapError .toml
  validate compose
  return compose

/-- The bytes of a compose file that are read. -/
def readLimit : Nat := 5 * 1024 * 1024

def Crates.hash : Service → Except String String := serviceHash crates.formatDuration crates.toJcs crates.sha256

/-- Load a compose file of these bytes in an environment. -/
def load (file : List UInt8) (env : EnvMap) (opts : PlanOptions) : Except LoadError Loaded :=
  match ofUtf8 (file.take readLimit) with
  | none => .error (.read "stream did not contain valid UTF-8")
  | some text => do
    let compose ← parseStr crates text
    let compose ← (interpolate compose env).mapError .interp
    let planned ← (plan crates.hash compose opts).mapError .plan
    return { compose, plan := planned }

/-- The value that `config` prints. TOML has no `null`, and the extension tables are removed. -/
def configValue (compose : Compose) : Json :=
  .object ((compose.entries crates.formatDuration none).filter fun entry => ¬ "x-".toList <+: entry.1.toList)

def config (compose : Compose) : Except String String := crates.printToml (configValue crates compose)

end Commands

end Burble.SelurCompose
