import Mathlib.Data.List.Perm.Basic
import Burble.Json
import Burble.Walk
import Burble.Compose.SchemaRoundTrip

namespace Burble

/-- Two maps that are equal up to the order of entries. -/
def FiniteMap.Same {Item : Type} (entries others : FiniteMap String Item) : Prop := entries.entries.Perm others.entries

namespace SelurCompose
open Fallible (Alike)

/-! Reading does not depend on the order of keys. -/

section Shapes
variable {Item : Type}

/-- A reader that reads values alike that differ in the order of keys. -/
def IgnoresOrder (read : Json → Except String Item) (related : Item → Item → Prop) : Prop :=
  ∀ {json other : Json}, json.Reordered other → Alike related (read json) (read other)

theorem readString_ignoresOrder : IgnoresOrder readString Eq := by
  intro json other same
  cases same with
  | array | object => exact fun _ done => nomatch done
  | _ => exact .refl

theorem readBool_ignoresOrder : IgnoresOrder readBool Eq := by
  intro json other same
  cases same with
  | array | object => exact fun _ done => nomatch done
  | _ => exact .refl

theorem readU16_ignoresOrder : IgnoresOrder readU16 Eq := by
  intro json other same
  cases same with
  | array | object => exact fun _ done => nomatch done
  | _ => exact .refl

theorem readU32_ignoresOrder : IgnoresOrder readU32 Eq := by
  intro json other same
  cases same with
  | array | object => exact fun _ done => nomatch done
  | _ => exact .refl

section Fields
variable {read : Json → Except String Item} {related : Item → Item → Prop} {found found' : Option Json}

theorem readOptional_alike (ignores : IgnoresOrder read related) (same : Option.Rel Json.Reordered found found') :
    Alike (Option.Rel related) (readOptional read found) (readOptional read found') := by
  cases same with
  | none => exact .of_ok .none
  | some same => exact (ignores same).bind fun _ _ alike => .of_ok (.some alike)

theorem readOptional_same (ignores : IgnoresOrder read Eq) (same : Option.Rel Json.Reordered found found') :
    Alike Eq (readOptional read found) (readOptional read found') := by
  cases same with
  | none => exact .refl
  | some same => exact (ignores same).next fun _ => .refl

theorem readRequired_same {key : String} (ignores : IgnoresOrder read Eq)
    (same : Option.Rel Json.Reordered found found') :
    Alike Eq (readRequired read key found) (readRequired read key found') := by
  cases same with
  | none => exact .refl
  | some same => exact ignores same

theorem readOr_alike {default : Item} (ignores : IgnoresOrder read related) (alike : related default default)
    (same : Option.Rel Json.Reordered found found') :
    Alike related (readOr read default found) (readOr read default found') := by
  cases same with
  | none => exact .of_ok alike
  | some same => exact ignores same

end Fields

variable {read : Json → Except String Item}

theorem readList_ignoresOrder (ignores : IgnoresOrder read Eq) : IgnoresOrder (readList read) Eq := by
  intro json other same
  cases same with
  | array each => exact Alike.mapM each fun _ _ same => ignores same
  | object => exact fun _ done => nomatch done
  | _ => exact .refl

/-- An entry and what is read of it. -/
def EntryRead (read : Json → Except String Item) (entry : String × Json) (result : String × Item) : Prop :=
  result.1 = entry.1 ∧ read entry.2 = .ok result.2

theorem entriesRead_of_mapM {entries : List (String × Json)} {items : List Item}
    (done : entries.mapM (fun entry => read entry.2) = .ok items) :
    List.Forall₂ (EntryRead read) entries ((entries.map Prod.fst).zip items) := by
  have paired := Fallible.mapM_ok done
  clear done
  induction paired with
  | nil => exact .nil
  | cons first _ ih => exact .cons ⟨rfl, first⟩ ih

/-- Entries that are reordered inside are read to the same results. -/
theorem mapM_of_entriesRead (ignores : IgnoresOrder read Eq) {entries others : List (String × Json)}
    {results : List (String × Item)} (keys : entries.map Prod.fst = others.map Prod.fst)
    (each : List.Forall₂ Json.Reordered (entries.map Prod.snd) (others.map Prod.snd))
    (readings : List.Forall₂ (EntryRead read) entries results) :
    others.mapM (fun entry => read entry.2) = .ok (results.map Prod.snd) ∧
      others.map Prod.fst = results.map Prod.fst := by
  induction readings generalizing others with
  | nil =>
    cases others with
    | nil => exact ⟨rfl, rfl⟩
    | cons => cases keys
  | @cons entry result entries results first _ ih =>
    cases others with
    | nil => cases keys
    | cons other rest =>
      rw [List.map_cons, List.map_cons, List.cons.injEq] at keys
      rw [List.map_cons, List.map_cons, List.forall₂_cons] at each
      obtain ⟨later, named⟩ := ih keys.2 each.2
      obtain ⟨item, here, same⟩ := ignores each.1 _ first.2
      cases same
      refine ⟨?_, ?_⟩
      · rw [List.mapM_cons, here, later]
        rfl
      · rw [List.map_cons, List.map_cons, named, ← keys.1, first.1]

theorem zip_map (results : List (String × Item)) : (results.map Prod.fst).zip (results.map Prod.snd) = results := by
  rw [List.zip_map']
  exact List.map_id _

theorem readTable_ignoresOrder (ignores : IgnoresOrder read Eq) : IgnoresOrder (readTable read) FiniteMap.Same := by
  intro json other same
  cases same with
  | @object entries others moved distinct moves keys each =>
    intro table done
    obtain ⟨items, all, made⟩ := Fallible.bind_ok.mp done
    cases made
    obtain ⟨results, readings, permuted⟩ := List.perm_comp_forall₂ moves.symm (entriesRead_of_mapM all)
    obtain ⟨all', named⟩ := mapM_of_entriesRead ignores keys each readings
    refine ⟨FiniteMap.ofList results, Fallible.bind_ok.mpr ⟨_, all', ?_⟩, ?_⟩
    · change Except.ok (FiniteMap.ofList _) = _
      rw [named, zip_map]
    · have length : items.length = entries.length := (Fallible.mapM_ok all).length_eq.symm
      have first : ((entries.map Prod.fst).zip items).map Prod.fst = entries.map Prod.fst :=
        List.map_fst_zip (by rw [List.length_map, length])
      have distinct' : (((entries.map Prod.fst).zip items).map Prod.fst).Nodup := by
        rw [first]
        exact distinct
      have distinct'' : (results.map Prod.fst).Nodup := ((permuted.map Prod.fst).nodup_iff).mpr distinct'
      rw [FiniteMap.Same, FiniteMap.ofList_entries distinct', FiniteMap.ofList_entries distinct'']
      exact (permuted.map _).symm
  | _ => exact fun _ done => nomatch done

/-- The fields of a table are read where they are. -/
theorem readFields_alike {known : List String} {json other : Json} (same : json.Reordered other) :
    Alike (fun entries others => Json.Reordered (.object entries) (.object others)) (readFields known json)
      (readFields known other) := by
  cases same with
  | @object entries others moved distinct moves keys each =>
    intro fields done
    have whole := Json.Reordered.object distinct moves keys each
    rw [readFields] at done
    split at done
    · cases done
    next unknown =>
      cases done
      refine ⟨others, ?_, whole⟩
      have none : others.find? (fun entry => entry.1 ∉ known) = none := by
        refine List.find?_eq_none.mpr fun entry member => ?_
        have key := whole.keys_perm.mem_iff.mpr (List.mem_map_of_mem member)
        obtain ⟨entry', member', same⟩ := List.mem_map.mp key
        have known' := List.find?_eq_none.mp unknown entry' member'
        rwa [same] at known'
      rw [readFields, none]
  | _ =>
    intro _ done
    cases done

end Shapes

section Parts

theorem StringOrList.ignoresOrder : IgnoresOrder StringOrList.ofJson Eq := by
  intro json other same
  cases same with
  | array each => exact (Alike.mapM each fun _ _ same => readString_ignoresOrder same).next fun _ => .refl
  | object => exact fun _ done => nomatch done
  | _ => exact .refl

theorem HealthcheckTest.ignoresOrder : IgnoresOrder HealthcheckTest.ofJson Eq := by
  intro json other same
  cases same with
  | array each => exact (Alike.mapM each fun _ _ same => readString_ignoresOrder same).next fun _ => .refl
  | object => exact fun _ done => nomatch done
  | _ => exact .refl

theorem NetworkMode.ignoresOrder : IgnoresOrder NetworkMode.ofJson Eq :=
  fun same => (readString_ignoresOrder same).next fun _ => .refl

theorem RestartPolicy.ignoresOrder : IgnoresOrder RestartPolicy.ofJson Eq :=
  fun same => (readString_ignoresOrder same).next fun _ => .refl

theorem DependsCondition.ignoresOrder : IgnoresOrder DependsCondition.ofJson Eq :=
  fun same => (readString_ignoresOrder same).next fun _ => .refl

theorem readDuration_ignoresOrder (parseDuration : String → Except String Nanoseconds) :
    IgnoresOrder (readDuration parseDuration) Eq :=
  fun same => (readString_ignoresOrder same).next fun _ => .refl

theorem PortLong.ignoresOrder : IgnoresOrder PortLong.ofJson Eq := by
  intro json other same
  refine (readFields_alike same).bind fun entries others moved => ?_
  refine (readOptional_same readString_ignoresOrder (moved.lookup "host_ip")).next fun hostIp => ?_
  refine (readRequired_same readU16_ignoresOrder (moved.lookup "target")).next fun target => ?_
  refine (readOptional_same readString_ignoresOrder (moved.lookup "published")).next fun published => ?_
  refine (readOptional_same readString_ignoresOrder (moved.lookup "protocol")).next fun protocol => ?_
  exact .refl

theorem PortBinding.ignoresOrder : IgnoresOrder PortBinding.ofJson Eq := by
  intro json other same
  cases same with
  | array => exact fun _ done => nomatch done
  | object distinct moves keys each => exact (PortLong.ignoresOrder (.object distinct moves keys each)).next fun _ => .refl
  | _ => exact .refl

theorem BindOptions.ignoresOrder : IgnoresOrder BindOptions.ofJson Eq := by
  intro json other same
  refine (readFields_alike same).bind fun entries others moved => ?_
  refine (readOptional_same readString_ignoresOrder (moved.lookup "propagation")).next fun _ => ?_
  refine (readOr_alike readBool_ignoresOrder rfl (moved.lookup "create_host_path")).next fun _ => ?_
  exact .refl

theorem VolumeOptions.ignoresOrder : IgnoresOrder VolumeOptions.ofJson Eq := by
  intro json other same
  refine (readFields_alike same).bind fun entries others moved => ?_
  refine (readOr_alike readBool_ignoresOrder rfl (moved.lookup "nocopy")).next fun _ => ?_
  exact .refl

theorem MountLong.ignoresOrder : IgnoresOrder MountLong.ofJson Eq := by
  intro json other same
  refine (readFields_alike same).bind fun entries others moved => ?_
  refine (readRequired_same readString_ignoresOrder (moved.lookup "type")).next fun _ => ?_
  refine (readOptional_same readString_ignoresOrder (moved.lookup "source")).next fun _ => ?_
  refine (readRequired_same readString_ignoresOrder (moved.lookup "target")).next fun _ => ?_
  refine (readOr_alike readBool_ignoresOrder rfl (moved.lookup "read_only")).next fun _ => ?_
  refine (readOptional_same BindOptions.ignoresOrder (moved.lookup "bind")).next fun _ => ?_
  refine (readOptional_same VolumeOptions.ignoresOrder (moved.lookup "volume")).next fun _ => ?_
  exact .refl

theorem MountSpec.ignoresOrder : IgnoresOrder MountSpec.ofJson Eq := by
  intro json other same
  cases same with
  | array => exact fun _ done => nomatch done
  | object distinct moves keys each => exact (MountLong.ignoresOrder (.object distinct moves keys each)).next fun _ => .refl
  | _ => exact .refl

theorem DependsOnSpec.ignoresOrder : IgnoresOrder DependsOnSpec.ofJson Eq := by
  intro json other same
  refine (readFields_alike same).bind fun entries others moved => ?_
  refine (readRequired_same DependsCondition.ignoresOrder (moved.lookup "condition")).next fun _ => ?_
  refine (readOr_alike readBool_ignoresOrder rfl (moved.lookup "restart")).next fun _ => ?_
  exact .refl

theorem SecretRefLong.ignoresOrder : IgnoresOrder SecretRefLong.ofJson Eq := by
  intro json other same
  refine (readFields_alike same).bind fun entries others moved => ?_
  refine (readRequired_same readString_ignoresOrder (moved.lookup "source")).next fun _ => ?_
  refine (readOptional_same readString_ignoresOrder (moved.lookup "target")).next fun _ => ?_
  refine (readOptional_same readString_ignoresOrder (moved.lookup "uid")).next fun _ => ?_
  refine (readOptional_same readString_ignoresOrder (moved.lookup "gid")).next fun _ => ?_
  refine (readOptional_same readU32_ignoresOrder (moved.lookup "mode")).next fun _ => ?_
  exact .refl

theorem SecretRef.ignoresOrder : IgnoresOrder SecretRef.ofJson Eq := by
  intro json other same
  cases same with
  | array => exact fun _ done => nomatch done
  | object distinct moves keys each =>
    exact (SecretRefLong.ignoresOrder (.object distinct moves keys each)).next fun _ => .refl
  | _ => exact .refl

theorem Healthcheck.ignoresOrder (parseDuration : String → Except String Nanoseconds) :
    IgnoresOrder (Healthcheck.ofJson parseDuration) Eq := by
  intro json other same
  refine (readFields_alike same).bind fun entries others moved => ?_
  refine (readRequired_same HealthcheckTest.ignoresOrder (moved.lookup "test")).next fun _ => ?_
  refine (readOptional_same (readDuration_ignoresOrder parseDuration) (moved.lookup "interval")).next fun _ => ?_
  refine (readOptional_same (readDuration_ignoresOrder parseDuration) (moved.lookup "timeout")).next fun _ => ?_
  refine (readOptional_same readU32_ignoresOrder (moved.lookup "retries")).next fun _ => ?_
  refine (readOptional_same (readDuration_ignoresOrder parseDuration) (moved.lookup "start_period")).next fun _ => ?_
  refine (readOr_alike readBool_ignoresOrder rfl (moved.lookup "disable")).next fun _ => ?_
  exact .refl

end Parts

/-! What is read of a service, where the order of keys is forgotten. -/

structure Build.Same (build other : Build) : Prop where
  context : build.context = other.context
  dockerfile : build.dockerfile = other.dockerfile
  args : build.args.Same other.args
  target : build.target = other.target
  labels : build.labels.Same other.labels
  noCache : build.noCache = other.noCache

def ServiceEnv.Same : ServiceEnv → ServiceEnv → Prop
  | map entries, map others => entries.Same others
  | environment, other => environment = other

def DependsOn.Same : DependsOn → DependsOn → Prop
  | map entries, map others => entries.Same others
  | dependsOn, other => dependsOn = other

/-- Services that are equal in every field. -/
structure Service.Same (service other : Service) : Prop where
  image : service.image = other.image
  build : Option.Rel Build.Same service.build other.build
  command : service.command = other.command
  entrypoint : service.entrypoint = other.entrypoint
  environment : service.environment.Same other.environment
  envFile : service.envFile = other.envFile
  ports : service.ports = other.ports
  volumes : service.volumes = other.volumes
  networks : service.networks = other.networks
  networkMode : service.networkMode = other.networkMode
  dependsOn : service.dependsOn.Same other.dependsOn
  healthcheck : service.healthcheck = other.healthcheck
  restart : service.restart = other.restart
  profiles : service.profiles = other.profiles
  secrets : service.secrets = other.secrets
  configs : service.configs = other.configs
  user : service.user = other.user
  workingDir : service.workingDir = other.workingDir
  hostname : service.hostname = other.hostname
  capAdd : service.capAdd = other.capAdd
  capDrop : service.capDrop = other.capDrop
  init : service.init = other.init
  stopSignal : service.stopSignal = other.stopSignal
  stopGracePeriod : service.stopGracePeriod = other.stopGracePeriod

theorem Build.ignoresOrder : IgnoresOrder Build.ofJson Build.Same := by
  have table : IgnoresOrder (readTable readString) FiniteMap.Same := readTable_ignoresOrder readString_ignoresOrder
  have empty : FiniteMap.Same (∅ : FiniteMap String String) ∅ := List.Perm.refl _
  intro json other same
  refine (readFields_alike same).bind fun entries others moved => ?_
  refine (readRequired_same readString_ignoresOrder (moved.lookup "context")).next fun context => ?_
  refine (readOptional_same readString_ignoresOrder (moved.lookup "dockerfile")).next fun dockerfile => ?_
  refine (readOr_alike table empty (moved.lookup "args")).bind fun args args' sameArgs => ?_
  refine (readOptional_same readString_ignoresOrder (moved.lookup "target")).next fun target => ?_
  refine (readOr_alike table empty (moved.lookup "labels")).bind fun labels labels' sameLabels => ?_
  refine (readOr_alike readBool_ignoresOrder rfl (moved.lookup "no_cache")).next fun noCache => ?_
  exact .of_ok ⟨rfl, rfl, sameArgs, rfl, sameLabels, rfl⟩

theorem ServiceEnv.ignoresOrder : IgnoresOrder ServiceEnv.ofJson ServiceEnv.Same := by
  have value : IgnoresOrder (fun value => do return some (← readString value)) Eq :=
    fun same => (readString_ignoresOrder same).next fun _ => .refl
  intro json other same
  cases same with
  | array each =>
    exact (Alike.mapM each fun _ _ same => readString_ignoresOrder same).next fun items =>
      .of_ok (show ServiceEnv.Same (.list items) (.list items) from rfl)
  | object distinct moves keys each =>
    exact (readTable_ignoresOrder value (.object distinct moves keys each)).bind fun entries others same =>
      .of_ok (show ServiceEnv.Same (.map entries) (.map others) from same)
  | _ => exact fun _ done => nomatch done

theorem DependsOn.ignoresOrder : IgnoresOrder DependsOn.ofJson DependsOn.Same := by
  intro json other same
  cases same with
  | array each =>
    exact (Alike.mapM each fun _ _ same => readString_ignoresOrder same).next fun items =>
      .of_ok (show DependsOn.Same (.list items) (.list items) from rfl)
  | object distinct moves keys each =>
    exact (readTable_ignoresOrder DependsOnSpec.ignoresOrder (.object distinct moves keys each)).bind
      fun entries others same => .of_ok (show DependsOn.Same (.map entries) (.map others) from same)
  | _ => exact fun _ done => nomatch done

/-- A service is read as the same service whatever the order of keys. -/
theorem Service.ignoresOrder (parseDuration : String → Except String Nanoseconds) :
    IgnoresOrder (Service.ofJson parseDuration) Service.Same := by
  have texts : IgnoresOrder (readList readString) Eq := readList_ignoresOrder readString_ignoresOrder
  have noVariables : ServiceEnv.Same .empty .empty := rfl
  have noDependencies : DependsOn.Same .empty .empty := rfl
  have duration : IgnoresOrder (readDuration parseDuration) Eq := readDuration_ignoresOrder parseDuration
  intro json other same
  refine (readFields_alike same).bind fun entries others moved => ?_
  refine (readOptional_same readString_ignoresOrder (moved.lookup "image")).next fun _ => ?_
  refine (readOptional_alike Build.ignoresOrder (moved.lookup "build")).bind fun build build' sameBuild => ?_
  refine (readOptional_same StringOrList.ignoresOrder (moved.lookup "command")).next fun _ => ?_
  refine (readOptional_same StringOrList.ignoresOrder (moved.lookup "entrypoint")).next fun _ => ?_
  refine (readOr_alike ServiceEnv.ignoresOrder noVariables (moved.lookup "environment")).bind
    fun environment environment' sameEnvironment => ?_
  refine (readOr_alike texts rfl (moved.lookup "env_file")).next fun _ => ?_
  refine (readOr_alike (readList_ignoresOrder PortBinding.ignoresOrder) rfl (moved.lookup "ports")).next fun _ => ?_
  refine (readOr_alike (readList_ignoresOrder MountSpec.ignoresOrder) rfl (moved.lookup "volumes")).next fun _ => ?_
  refine (readOr_alike texts rfl (moved.lookup "networks")).next fun _ => ?_
  refine (readOptional_same NetworkMode.ignoresOrder (moved.lookup "network_mode")).next fun _ => ?_
  refine (readOr_alike DependsOn.ignoresOrder noDependencies (moved.lookup "depends_on")).bind
    fun dependsOn dependsOn' sameDependsOn => ?_
  refine (readOptional_same (Healthcheck.ignoresOrder parseDuration) (moved.lookup "healthcheck")).next fun _ => ?_
  refine (readOr_alike RestartPolicy.ignoresOrder rfl (moved.lookup "restart")).next fun _ => ?_
  refine (readOr_alike texts rfl (moved.lookup "profiles")).next fun _ => ?_
  refine (readOr_alike (readList_ignoresOrder SecretRef.ignoresOrder) rfl (moved.lookup "secrets")).next fun _ => ?_
  refine (readOr_alike (readList_ignoresOrder SecretRef.ignoresOrder) rfl (moved.lookup "configs")).next fun _ => ?_
  refine (readOptional_same readString_ignoresOrder (moved.lookup "user")).next fun _ => ?_
  refine (readOptional_same readString_ignoresOrder (moved.lookup "working_dir")).next fun _ => ?_
  refine (readOptional_same readString_ignoresOrder (moved.lookup "hostname")).next fun _ => ?_
  refine (readOr_alike texts rfl (moved.lookup "cap_add")).next fun _ => ?_
  refine (readOr_alike texts rfl (moved.lookup "cap_drop")).next fun _ => ?_
  refine (readOptional_same readBool_ignoresOrder (moved.lookup "init")).next fun _ => ?_
  refine (readOptional_same readString_ignoresOrder (moved.lookup "stop_signal")).next fun _ => ?_
  refine (readOptional_same duration (moved.lookup "stop_grace_period")).next fun _ => ?_
  exact .of_ok
    { image := rfl, build := sameBuild, command := rfl, entrypoint := rfl, environment := sameEnvironment
      envFile := rfl, ports := rfl, volumes := rfl, networks := rfl, networkMode := rfl, dependsOn := sameDependsOn
      healthcheck := rfl, restart := rfl, profiles := rfl, secrets := rfl, configs := rfl, user := rfl
      workingDir := rfl, hostname := rfl, capAdd := rfl, capDrop := rfl, init := rfl, stopSignal := rfl
      stopGracePeriod := rfl }

end SelurCompose

end Burble
