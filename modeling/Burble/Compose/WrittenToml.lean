import Burble.Json
import Burble.Compose.SchemaRoundTrip

namespace Burble

/-- The values a TOML text can hold: without `null`, with integers of 64 bits, and no key twice in a table. -/
inductive Json.IsToml : Json → Prop
  | bool (value : Bool) : IsToml (.bool value)
  | integer {value : Int} (range : -9223372036854775808 ≤ value ∧ value < 9223372036854775808) : IsToml (.integer value)
  | float (text : String) : IsToml (.float text)
  | string (text : String) : IsToml (.string text)
  | array {items : List Json} (each : ∀ item ∈ items, IsToml item) : IsToml (.array items)
  | object {entries : List (String × Json)} (distinct : (entries.map Prod.fst).Nodup)
      (each : ∀ entry ∈ entries, IsToml entry.2) : IsToml (.object entries)

theorem Json.IsToml.reordered {json : Json} (toml : json.IsToml) : json.Reordered json := by
  induction toml with
  | bool value => exact .bool value
  | integer => exact .integer _
  | float text => exact .float text
  | string text => exact .string text
  | array _ ih => exact .array (List.forall₂_same.mpr ih)
  | object distinct _ ih =>
    refine .object distinct (.refl _) rfl (List.forall₂_same.mpr fun value member => ?_)
    obtain ⟨entry, listed, rfl⟩ := List.mem_map.mp member
    exact ih entry listed

namespace SelurCompose

/-! What the schema writes is TOML. -/

section Writing
variable {Item : Type} {toJson : Item → Json}

theorem Fields.keys_entries (fields : Fields) : (fields.entries.map Prod.fst).Sublist (fields.map Prod.fst) := by
  unfold Fields.entries
  induction fields with
  | nil => exact .slnil
  | cons field rest ih =>
    obtain ⟨name, value⟩ := field
    cases value with
    | none => exact .cons _ ih
    | some value => exact .cons_cons _ ih

/-- Each field that is not skipped is TOML. -/
def Fields.AllToml (fields : Fields) : Prop := ∀ field ∈ fields, ∀ value ∈ field.2, value.IsToml

theorem Fields.AllToml.entries {fields : Fields} (all : fields.AllToml) : ∀ entry ∈ fields.entries, entry.2.IsToml := by
  intro entry member
  obtain ⟨⟨name, value⟩, listed, made⟩ := List.mem_filterMap.mp member
  obtain ⟨value, rfl, rfl⟩ := Option.map_eq_some_iff.mp made
  exact all _ listed value rfl

theorem Fields.isToml {fields : Fields} (distinct : (fields.map Prod.fst).Nodup) (all : fields.AllToml) : fields.toJson.IsToml :=
  .object (distinct.sublist fields.keys_entries) all.entries

theorem Fields.allToml_nil : Fields.AllToml [] := nofun

theorem Fields.allToml_cons {name : String} {value : Option Json} {rest : Fields} :
    Fields.AllToml ((name, value) :: rest) ↔ (∀ inner ∈ value, inner.IsToml) ∧ rest.AllToml := List.forall_mem_cons

theorem some_isToml {json : Json} (toml : json.IsToml) : ∀ value ∈ some json, value.IsToml := by
  rintro _ ⟨⟩
  exact toml

theorem map_isToml (each : ∀ item, (toJson item).IsToml) (item : Option Item) : ∀ value ∈ item.map toJson, value.IsToml := by
  intro value member
  obtain ⟨inner, -, rfl⟩ := Option.map_eq_some_iff.mp member
  exact each inner

theorem flag_isToml (value : Bool) : ∀ json ∈ flag value, json.IsToml := by
  intro json member
  cases value with
  | false => cases member
  | true =>
    cases member
    exact .bool true

theorem arrayJson_isToml (each : ∀ item, (toJson item).IsToml) (items : List Item) : (Json.array (items.map toJson)).IsToml := by
  refine .array fun value member => ?_
  obtain ⟨item, -, rfl⟩ := List.mem_map.mp member
  exact each item

theorem listJson_isToml (each : ∀ item, (toJson item).IsToml) (items : List Item) : ∀ value ∈ listJson toJson items, value.IsToml := by
  intro value member
  rw [listJson] at member
  split at member
  · cases member
  · cases member
    exact arrayJson_isToml each items

theorem tableJson_isToml {entries : FiniteMap String Item} (each : ∀ entry ∈ entries.toList, (toJson entry.2).IsToml) :
    (tableJson toJson entries).IsToml := by
  refine .object ?_ fun entry member => ?_
  · rw [List.map_map]
    exact FiniteMap.distinct_keys entries
  · obtain ⟨inner, listed, rfl⟩ := List.mem_map.mp member
    exact each inner listed

theorem mapJson_isToml {entries : FiniteMap String Item} (each : ∀ entry ∈ entries.toList, (toJson entry.2).IsToml) :
    ∀ value ∈ mapJson toJson entries, value.IsToml := by
  intro value member
  rw [mapJson] at member
  split at member
  · cases member
  · cases member
    exact tableJson_isToml each

theorem strings_isToml (items : List String) : (Json.array (items.map .string)).IsToml := arrayJson_isToml .string items

theorem integer_isToml {value : Nat} (small : value < 4294967296) : (Json.integer value).IsToml := .integer (by omega)

end Writing

section Parts

theorem StringOrList.isToml (value : StringOrList) : value.toJson.IsToml := by
  cases value with
  | string text => exact .string text
  | list items => exact strings_isToml items

theorem Build.isToml (build : Build) : build.toJson.IsToml := by
  refine Fields.isToml (by simp [Build.fields]) ?_
  simp only [Build.fields, Fields.allToml_cons, Fields.allToml_nil, and_true]
  exact ⟨some_isToml (.string _), map_isToml .string _, mapJson_isToml fun _ _ => .string _, map_isToml .string _,
    mapJson_isToml fun _ _ => .string _, flag_isToml _⟩

theorem PortBinding.isToml (port : PortBinding) : port.toJson.IsToml := by
  cases port with
  | short text => exact .string text
  | long port =>
    refine Fields.isToml (by simp [PortLong.fields]) ?_
    simp only [PortLong.fields, Fields.allToml_cons, Fields.allToml_nil, and_true]
    have small := port.target.toNat_lt
    exact ⟨map_isToml .string _, some_isToml (integer_isToml (by omega)), map_isToml .string _, map_isToml .string _⟩

theorem BindOptions.isToml (bind : BindOptions) : bind.toJson.IsToml := by
  refine Fields.isToml (by simp [BindOptions.fields]) ?_
  simp only [BindOptions.fields, Fields.allToml_cons, Fields.allToml_nil, and_true]
  exact ⟨map_isToml .string _, flag_isToml _⟩

theorem VolumeOptions.isToml (volume : VolumeOptions) : volume.toJson.IsToml := by
  refine Fields.isToml (by simp [VolumeOptions.fields]) ?_
  simp only [VolumeOptions.fields, Fields.allToml_cons, Fields.allToml_nil, and_true]
  exact flag_isToml _

theorem MountSpec.isToml (mount : MountSpec) : mount.toJson.IsToml := by
  cases mount with
  | short text => exact .string text
  | long mount =>
    refine Fields.isToml (by simp [MountLong.fields]) ?_
    simp only [MountLong.fields, Fields.allToml_cons, Fields.allToml_nil, and_true]
    exact ⟨some_isToml (.string _), map_isToml .string _, some_isToml (.string _), flag_isToml _,
      map_isToml BindOptions.isToml _, map_isToml VolumeOptions.isToml _⟩

theorem DependsOnSpec.isToml (spec : DependsOnSpec) : spec.toJson.IsToml := by
  refine Fields.isToml (by simp [DependsOnSpec.fields]) ?_
  simp only [DependsOnSpec.fields, Fields.allToml_cons, Fields.allToml_nil, and_true]
  exact ⟨some_isToml (.string _), flag_isToml _⟩

theorem DependsOn.isToml (dependsOn : DependsOn) : ∀ value ∈ dependsOn.toJson, value.IsToml := by
  cases dependsOn with
  | empty => exact fun _ member => by cases member
  | list names => exact some_isToml (strings_isToml names)
  | map entries => exact some_isToml (tableJson_isToml fun entry _ => entry.2.isToml)

/-- Variables that all have values are TOML. -/
theorem ServiceEnv.isToml {environment : ServiceEnv} (total : environment.Total) :
    ∀ value ∈ environment.toJson none, value.IsToml := by
  cases environment with
  | empty => exact fun _ member => by cases member
  | list items => exact some_isToml (strings_isToml items)
  | map entries =>
    rw [ServiceEnv.toJson_total total]
    exact some_isToml (tableJson_isToml fun _ _ => .string _)

theorem HealthcheckTest.isToml (test : HealthcheckTest) : test.toJson.IsToml := by
  cases test with
  | shell text => exact .string text
  | exec items => exact strings_isToml items

theorem SecretRef.isToml (ref : SecretRef) : ref.toJson.IsToml := by
  cases ref with
  | name secret => exact .string secret
  | long ref =>
    refine Fields.isToml (by simp [SecretRefLong.fields]) ?_
    simp only [SecretRefLong.fields, Fields.allToml_cons, Fields.allToml_nil, and_true]
    exact ⟨some_isToml (.string _), map_isToml .string _, map_isToml .string _, map_isToml .string _,
      map_isToml (fun mode => integer_isToml mode.toNat_lt) _⟩

section Durations
variable (formatDuration : Nanoseconds → String)

theorem Healthcheck.isToml (check : Healthcheck) : (check.toJson formatDuration).IsToml := by
  refine Fields.isToml (by simp [Healthcheck.fields]) ?_
  simp only [Healthcheck.fields, Fields.allToml_cons, Fields.allToml_nil, and_true]
  exact ⟨some_isToml check.test.isToml, map_isToml (fun _ => .string _) _, map_isToml (fun _ => .string _) _,
    map_isToml (fun retries => integer_isToml retries.toNat_lt) _, map_isToml (fun _ => .string _) _, flag_isToml _⟩

theorem Service.isToml {service : Service} (total : service.environment.Total) : (service.toJson formatDuration none).IsToml := by
  refine Fields.isToml (by simp [Service.fields]) ?_
  simp only [Service.fields, Fields.allToml_cons, Fields.allToml_nil, and_true]
  exact ⟨map_isToml .string _, map_isToml Build.isToml _, map_isToml StringOrList.isToml _, map_isToml StringOrList.isToml _,
    ServiceEnv.isToml total, listJson_isToml .string _, listJson_isToml PortBinding.isToml _, listJson_isToml MountSpec.isToml _,
    listJson_isToml .string _, map_isToml (fun _ => .string _) _, service.dependsOn.isToml,
    map_isToml (Healthcheck.isToml formatDuration) _, some_isToml (.string _), listJson_isToml .string _,
    listJson_isToml SecretRef.isToml _, listJson_isToml SecretRef.isToml _, map_isToml .string _, map_isToml .string _,
    map_isToml .string _, listJson_isToml .string _, listJson_isToml .string _, map_isToml .bool _, map_isToml .string _,
    map_isToml (fun _ => .string _) _⟩

theorem Ipam.isToml (ipam : Ipam) : ipam.toJson.IsToml := by
  refine Fields.isToml (by simp [Ipam.fields]) ?_
  simp only [Ipam.fields, Fields.allToml_cons, Fields.allToml_nil, and_true]
  exact ⟨map_isToml .string _, listJson_isToml (fun _ => tableJson_isToml fun _ _ => .string _) _⟩

theorem Network.isToml (network : Network) : network.toJson.IsToml := by
  refine Fields.isToml (by simp [Network.fields]) ?_
  simp only [Network.fields, Fields.allToml_cons, Fields.allToml_nil, and_true]
  exact ⟨map_isToml .string _, mapJson_isToml fun _ _ => .string _, flag_isToml _, map_isToml .string _,
    map_isToml Ipam.isToml _, mapJson_isToml fun _ _ => .string _, flag_isToml _⟩

theorem Volume.isToml (volume : Volume) : volume.toJson.IsToml := by
  refine Fields.isToml (by simp [Volume.fields]) ?_
  simp only [Volume.fields, Fields.allToml_cons, Fields.allToml_nil, and_true]
  exact ⟨map_isToml .string _, mapJson_isToml fun _ _ => .string _, flag_isToml _, map_isToml .string _,
    mapJson_isToml fun _ _ => .string _⟩

theorem Secret.isToml (secret : Secret) : secret.toJson.IsToml := by
  refine Fields.isToml (by simp [Secret.fields]) ?_
  simp only [Secret.fields, Fields.allToml_cons, Fields.allToml_nil, and_true]
  exact ⟨map_isToml .string _, flag_isToml _, map_isToml .string _⟩

theorem projectJson_isToml (name : String) : (projectJson name).IsToml :=
  .object (by simp) fun entry member => by
    cases List.mem_singleton.mp member
    exact .string name

/-- The document of a project. -/
def Compose.toJson (compose : Compose) : Json := .object (compose.entries formatDuration none)

/-- A project whose variables all have values and whose extensions are TOML is written as TOML. -/
theorem Compose.isToml {compose : Compose} (total : ∀ entry ∈ compose.services.toList, entry.2.environment.Total)
    (names : ∀ entry ∈ compose.extensions.toList, entry.1 ∉ Compose.fieldNames)
    (extensions : ∀ entry ∈ compose.extensions.toList, entry.2.IsToml) : (compose.toJson formatDuration).IsToml := by
  have known : (compose.fields formatDuration none).map Prod.fst = Compose.fieldNames := rfl
  have all : (compose.fields formatDuration none).AllToml := by
    simp only [Compose.fields, Fields.allToml_cons, Fields.allToml_nil, and_true]
    exact ⟨map_isToml projectJson_isToml _,
      mapJson_isToml fun entry member => Service.isToml formatDuration (total entry member),
      mapJson_isToml fun entry _ => entry.2.isToml, mapJson_isToml fun entry _ => entry.2.isToml,
      mapJson_isToml fun entry _ => entry.2.isToml, mapJson_isToml fun entry _ => entry.2.isToml⟩
  refine .object ?_ fun entry member => ?_
  · rw [Compose.entries, List.map_append, List.nodup_append]
    have keys := (compose.fields formatDuration none).keys_entries
    rw [known] at keys
    have distinct : Compose.fieldNames.Nodup := by decide
    refine ⟨distinct.sublist keys, FiniteMap.distinct_keys _, fun key field other extension same => ?_⟩
    obtain ⟨entry, member, rfl⟩ := List.mem_map.mp extension
    exact names entry member (same ▸ keys.subset field)
  · rcases List.mem_append.mp member with field | extension
    · exact all.entries entry field
    · exact extensions entry extension

end Durations

end Parts

end SelurCompose

end Burble
