import Burble.Compose.ReadingOrder
import Burble.Compose.ConfigReload
import Burble.Compose.WrittenToml

namespace Burble

/-- Two maps with the same keys and related values. -/
def FiniteMap.Related {Item Other : Type} (related : Item → Other → Prop) (entries : FiniteMap String Item)
    (others : FiniteMap String Other) : Prop := ∀ key, Option.Rel related (entries.lookup key) (others.lookup key)

theorem FiniteMap.lookup_ofList {Item : Type} (entries : List (String × Item)) (key : String) :
    (FiniteMap.ofList entries).lookup key = entries.lookup key := by
  induction entries with
  | nil => rfl
  | cons entry rest ih =>
    change (AList.insert entry.1 entry.2 (FiniteMap.ofList rest)).lookup key = _
    rw [FiniteMap.lookup_insert_if, ih, List.lookup_cons]
    by_cases same : key = entry.1
    · rw [if_pos same, beq_iff_eq.mpr same]
    · rw [if_neg same, beq_eq_false_iff_ne.mpr same]

namespace SelurCompose
open Fallible (Alike)

/-! What is read of a project, where the order of keys is forgotten. -/

section Tables
variable {Item : Type} {read : Json → Except String Item} {related : Item → Item → Prop}

theorem readList_related (ignores : IgnoresOrder read related) : IgnoresOrder (readList read) (List.Forall₂ related) := by
  intro json other same
  cases same with
  | array each => exact Alike.mapM_related each fun _ _ same => ignores same
  | object => exact fun _ done => nomatch done
  | _ => exact fun _ done => nomatch done

/-- What is read of a field, where it is there. -/
def FieldRead (read : Json → Except String Item) : Option Json → Option Item → Prop :=
  Option.Rel fun value item => read value = .ok item

theorem FieldRead.unique {value : Option Json} {item other : Option Item} (one : FieldRead read value item)
    (two : FieldRead read value other) : item = other := by
  cases one with
  | none => cases two; rfl
  | some here =>
    cases two with
    | some there => exact congrArg some (Except.ok.inj (here.symm.trans there))

theorem FieldRead.alike (ignores : IgnoresOrder read related) {value value' : Option Json} {item : Option Item}
    (one : FieldRead read value item) (same : Option.Rel Json.Reordered value value') :
    ∃ item', FieldRead read value' item' ∧ Option.Rel related item item' := by
  cases one with
  | none =>
    cases same
    exact ⟨none, .none, .none⟩
  | some here =>
    cases same with
    | some same =>
      obtain ⟨item', there, alike⟩ := ignores same _ here
      exact ⟨some item', .some there, .some alike⟩

/-- A table that is read holds what is read of its entries. -/
theorem readTable_lookup {entries : List (String × Json)} {table : FiniteMap String Item}
    (done : readTable read (.object entries) = .ok table) (key : String) :
    FieldRead read (entries.lookup key) (table.lookup key) := by
  obtain ⟨items, all, made⟩ := Fallible.bind_ok.mp done
  cases made
  have each := Fallible.mapM_ok all
  have length : (entries.map Prod.fst).length = items.length := by rw [List.length_map, each.length_eq]
  rw [FiniteMap.lookup_ofList]
  refine lookup_related (List.map_fst_zip length.le).symm ?_ key
  rw [List.map_snd_zip length.ge, List.forall₂_map_left_iff]
  exact each

/-- Tables whose entries are read to related items are read alike, whatever the order of keys. -/
theorem readTable_related (ignores : IgnoresOrder read related) :
    IgnoresOrder (readTable read) (FiniteMap.Related related) := by
  intro json other same
  cases same with
  | @object entries others moved distinct moves keys each =>
    intro table done
    have whole := Json.Reordered.object distinct moves keys each
    have distinct' : (others.map Prod.fst).Nodup := whole.keys_perm.nodup_iff.mp distinct
    have field (key : String) := (readTable_lookup done key).alike ignores (whole.lookup key)
    have reads : ∀ entry ∈ others, ∃ item, read entry.2 = .ok item := by
      rintro ⟨key, value⟩ member
      obtain ⟨item, there, -⟩ := field key
      rw [lookup_of_mem distinct' member] at there
      cases there with
      | some there => exact ⟨_, there⟩
    obtain ⟨items, all⟩ := Fallible.mapM_of_each reads
    have done' : readTable read (.object others) = .ok _ := Fallible.bind_ok.mpr ⟨items, all, rfl⟩
    refine ⟨_, done', fun key => ?_⟩
    obtain ⟨item, there, alike⟩ := field key
    rwa [there.unique (readTable_lookup done' key)] at alike
  | _ => exact fun _ done => nomatch done

end Tables

/-! Projects that are equal but for the order of their entries. -/

structure Ipam.Same (ipam other : Ipam) : Prop where
  driver : ipam.driver = other.driver
  config : List.Forall₂ FiniteMap.Same ipam.config other.config

structure Network.Same (network other : Network) : Prop where
  driver : network.driver = other.driver
  driverOpts : network.driverOpts.Same other.driverOpts
  external : network.external = other.external
  name : network.name = other.name
  ipam : Option.Rel Ipam.Same network.ipam other.ipam
  labels : network.labels.Same other.labels
  internal : network.internal = other.internal

structure Volume.Same (volume other : Volume) : Prop where
  driver : volume.driver = other.driver
  driverOpts : volume.driverOpts.Same other.driverOpts
  external : volume.external = other.external
  name : volume.name = other.name
  labels : volume.labels.Same other.labels

/-- Projects that are equal in every field. -/
structure Compose.Same (compose other : Compose) : Prop where
  projectName : compose.projectName = other.projectName
  services : FiniteMap.Related Service.Same compose.services other.services
  networks : FiniteMap.Related Network.Same compose.networks other.networks
  volumes : FiniteMap.Related Volume.Same compose.volumes other.volumes
  secrets : FiniteMap.Related Eq compose.secrets other.secrets
  configs : FiniteMap.Related Eq compose.configs other.configs
  extensions : FiniteMap.Related Json.Reordered compose.extensions other.extensions

section Reading

theorem Ipam.ignoresOrder : IgnoresOrder Ipam.ofJson Ipam.Same := by
  have table : IgnoresOrder (readTable readString) FiniteMap.Same := readTable_ignoresOrder readString_ignoresOrder
  intro json other same
  refine (readFields_alike same).bind fun entries others moved => ?_
  refine (readOptional_same readString_ignoresOrder (moved.lookup "driver")).next fun driver => ?_
  refine (readOr_alike (readList_related table) .nil (moved.lookup "config")).bind fun _ _ config => ?_
  exact .of_ok ⟨rfl, config⟩

theorem Network.ignoresOrder : IgnoresOrder Network.ofJson Network.Same := by
  have table : IgnoresOrder (readTable readString) FiniteMap.Same := readTable_ignoresOrder readString_ignoresOrder
  have empty : FiniteMap.Same (∅ : FiniteMap String String) ∅ := List.Perm.refl _
  intro json other same
  refine (readFields_alike same).bind fun entries others moved => ?_
  refine (readOptional_same readString_ignoresOrder (moved.lookup "driver")).next fun _ => ?_
  refine (readOr_alike table empty (moved.lookup "driver_opts")).bind fun _ _ driverOpts => ?_
  refine (readOr_alike readBool_ignoresOrder rfl (moved.lookup "external")).next fun _ => ?_
  refine (readOptional_same readString_ignoresOrder (moved.lookup "name")).next fun _ => ?_
  refine (readOptional_alike Ipam.ignoresOrder (moved.lookup "ipam")).bind fun _ _ ipam => ?_
  refine (readOr_alike table empty (moved.lookup "labels")).bind fun _ _ labels => ?_
  refine (readOr_alike readBool_ignoresOrder rfl (moved.lookup "internal")).next fun _ => ?_
  exact .of_ok ⟨rfl, driverOpts, rfl, rfl, ipam, labels, rfl⟩

theorem Volume.ignoresOrder : IgnoresOrder Volume.ofJson Volume.Same := by
  have table : IgnoresOrder (readTable readString) FiniteMap.Same := readTable_ignoresOrder readString_ignoresOrder
  have empty : FiniteMap.Same (∅ : FiniteMap String String) ∅ := List.Perm.refl _
  intro json other same
  refine (readFields_alike same).bind fun entries others moved => ?_
  refine (readOptional_same readString_ignoresOrder (moved.lookup "driver")).next fun _ => ?_
  refine (readOr_alike table empty (moved.lookup "driver_opts")).bind fun _ _ driverOpts => ?_
  refine (readOr_alike readBool_ignoresOrder rfl (moved.lookup "external")).next fun _ => ?_
  refine (readOptional_same readString_ignoresOrder (moved.lookup "name")).next fun _ => ?_
  refine (readOr_alike table empty (moved.lookup "labels")).bind fun _ _ labels => ?_
  exact .of_ok ⟨rfl, driverOpts, rfl, rfl, labels⟩

theorem Secret.ignoresOrder : IgnoresOrder Secret.ofJson Eq := by
  intro json other same
  refine (readFields_alike same).bind fun entries others moved => ?_
  refine (readOptional_same readString_ignoresOrder (moved.lookup "file")).next fun _ => ?_
  refine (readOr_alike readBool_ignoresOrder rfl (moved.lookup "external")).next fun _ => ?_
  refine (readOptional_same readString_ignoresOrder (moved.lookup "name")).next fun _ => ?_
  exact .refl

theorem readProject_ignoresOrder : IgnoresOrder readProject Eq := by
  intro json other same
  refine (readFields_alike same).bind fun entries others moved => ?_
  exact readRequired_same readString_ignoresOrder (moved.lookup "name")

/-- The entries of other names keep their places. -/
theorem lookup_filter_keys (entries : List (String × Json)) (known : List String) (key : String) :
    (entries.filter fun entry => entry.1 ∉ known).lookup key = if key ∈ known then none else entries.lookup key := by
  induction entries with
  | nil => simp
  | cons entry rest ih =>
    by_cases other : entry.1 ∈ known
    · rw [List.filter_cons_of_neg (by simpa using other), ih, List.lookup_cons]
      split
      · rfl
      next absent =>
        have differs : key ≠ entry.1 := fun same => absent (same ▸ other)
        rw [beq_eq_false_iff_ne.mpr differs]
    · rw [List.filter_cons_of_pos (by simpa using other), List.lookup_cons, List.lookup_cons, ih]
      by_cases same : key = entry.1
      · have fresh : key ∉ known := fun member => other (same ▸ member)
        rw [beq_iff_eq.mpr same, if_neg fresh, if_neg fresh]
      · rw [beq_eq_false_iff_ne.mpr same]

/-- A project is read as the same project whatever the order of keys. -/
theorem Compose.ignoresOrder (parseDuration : String → Except String Nanoseconds) :
    IgnoresOrder (Compose.ofJson parseDuration) Compose.Same := by
  have empty {Item : Type} {related : Item → Item → Prop} : FiniteMap.Related related ∅ ∅ := fun _ => .none
  intro json other same
  cases same with
  | @object entries others moved distinct moves keys each =>
    have whole := Json.Reordered.object distinct moves keys each
    refine (readOptional_same readProject_ignoresOrder (whole.lookup "project")).next fun _ => ?_
    refine (readOr_alike (readTable_related (Service.ignoresOrder parseDuration)) empty (whole.lookup "services")).bind
      fun _ _ services => ?_
    refine (readOr_alike (readTable_related Network.ignoresOrder) empty (whole.lookup "networks")).bind fun _ _ networks => ?_
    refine (readOr_alike (readTable_related Volume.ignoresOrder) empty (whole.lookup "volumes")).bind fun _ _ volumes => ?_
    refine (readOr_alike (readTable_related Secret.ignoresOrder) empty (whole.lookup "secrets")).bind fun _ _ secrets => ?_
    refine (readOr_alike (readTable_related Secret.ignoresOrder) empty (whole.lookup "configs")).bind fun _ _ configs => ?_
    refine .of_ok ⟨rfl, services, networks, volumes, secrets, configs, fun key => ?_⟩
    rw [FiniteMap.lookup_ofList, FiniteMap.lookup_ofList, lookup_filter_keys, lookup_filter_keys]
    split
    · exact .none
    · exact whole.lookup key
  | _ => exact fun _ done => nomatch done

end Reading

end SelurCompose

end Burble

namespace Burble.SelurCompose

section RoundTrip
variable {crates : Crates} {text : String} {compose : Compose}

/-- Serialise a project. -/
def toToml (crates : Crates) (compose : Compose) : Except String String := crates.printToml (compose.toJson crates.formatDuration)

/-- The toml crate prints a value, and reads what it prints as that value up to the order of keys. -/
def Crates.Keeps (crates : Crates) (json : Json) : Prop :=
  json.IsToml → ∃ text back, crates.printToml json = .ok text ∧ crates.parseToml text = .ok back ∧ json.Reordered back

theorem Compose.ofJson_reread {json : Json} {parseDuration : String → Except String Nanoseconds}
    (done : Compose.ofJson parseDuration json = .ok compose) : compose.services.mapValues Service.reread = compose.services := by
  cases json with
  | object fields =>
    simp only [Compose.ofJson, Fallible.bind_ok] at done
    obtain ⟨project, -, services, read, networks, -, volumes, -, secrets, -, configs, -, same⟩ := done
    cases same
    refine mapValues_eq_self.mpr fun entry member => ?_
    obtain ⟨value, made⟩ := readOr_table_mem read member
    exact Service.ofJson_reread made
  | _ => cases done

theorem Compose.ofJson_extensions {json : Json} {parseDuration : String → Except String Nanoseconds}
    (toml : json.IsToml) (done : Compose.ofJson parseDuration json = .ok compose) :
    ∀ entry ∈ compose.extensions.toList, entry.2.IsToml := by
  cases toml with
  | object distinct each =>
    simp only [Compose.ofJson, Fallible.bind_ok] at done
    obtain ⟨project, -, services, -, networks, -, volumes, -, secrets, -, configs, -, same⟩ := done
    cases same
    exact fun entry member => each entry (List.mem_of_mem_filter (FiniteMap.mem_ofList member))
  | _ => cases done

theorem Compose.Same.validate {other : Compose} (same : compose.Same other) (valid : SelurCompose.validate compose = .ok ()) :
    SelurCompose.validate other = .ok () := by
  have imaged := validate_ok.mp valid
  refine validate_ok.mpr fun ⟨name, service'⟩ member => ?_
  have alike := same.services name
  rw [FiniteMap.mem_toList.mp member] at alike
  cases found : compose.services.lookup name with
  | none => rw [found] at alike; cases alike
  | some service =>
    rw [found] at alike
    cases alike with
    | some alike =>
      have before := imaged (name, service) (FiniteMap.mem_toList.mpr found)
      have builds : service'.build.isSome = service.build.isSome := by
        rcases service with ⟨_, _ | _⟩ <;> rcases service' with ⟨_, _ | _⟩ <;> cases alike.build <;> rfl
      rwa [← alike.image, builds]

end RoundTrip

section Sample

/-- A service of a short port, a joined network mode and no dependencies, and an extension. -/
def portText : String :=
  "x-owner = \"ops\"\n[services.web]\nnetwork_mode = \"container:db\"\nports = [8080]\ndepends_on = []\nimage = \"web\"\n"

def portValue : Json :=
  .object [("x-owner", .string "ops"), ("services", .object [("web", .object [("network_mode", .string "container:db"),
    ("ports", .array [.integer 8080]), ("depends_on", .array []), ("image", .string "web")])])]

def printedText : String :=
  "x-owner = \"ops\"\n\n[services.web]\nimage = \"web\"\nports = [\"8080\"]\nnetwork_mode = \"container:db\"\n" ++
    "depends_on = []\nrestart = \"no\"\n"

def printedServices : Json :=
  .object [("web", .object [("image", .string "web"), ("ports", .array [.string "8080"]),
    ("network_mode", .string "container:db"), ("depends_on", .array []), ("restart", .string "no")])]

theorem portValue_isToml : portValue.IsToml := by
  have port : (Json.array [.integer 8080]).IsToml := .array fun item member => by
    cases List.mem_singleton.mp member
    exact .integer (by decide)
  have web : (Json.object [("network_mode", .string "container:db"), ("ports", .array [.integer 8080]),
      ("depends_on", .array []), ("image", .string "web")]).IsToml := by
    refine .object (by decide) ?_
    simp only [List.forall_mem_cons]
    exact ⟨.string _, port, .array nofun, .string _, nofun⟩
  refine .object (by decide) ?_
  simp only [List.forall_mem_cons]
  exact ⟨.string _, .object (by decide) (List.forall_mem_singleton.mpr web), nofun⟩

def parsePort (text : String) : Except String Json :=
  if text = portText then .ok portValue
  else if text = printedText then .ok (.object [("x-owner", .string "ops"), ("services", printedServices)])
  else .error "expected a port"

def printPort : Json → Except String String
  | .object [("services", .object [("web", .object _)]), ("x-owner", .string "ops")] => .ok printedText
  | _ => .error "expected a port"

def portCrates : Crates := ⟨parsePort, printPort, parseNanoseconds, printNanoseconds, flatJcs, userDigest⟩

end Sample

end Burble.SelurCompose
