import Burble.Walk
import Burble.Compose.Deserialize

namespace Burble

theorem FiniteMap.ofList_entries {Item : Type} {entries : List (String × Item)} (distinct : (entries.map Prod.fst).Nodup) :
    (FiniteMap.ofList entries).entries = entries.map fun entry => ⟨entry.1, entry.2⟩ := by
  induction entries with
  | nil => rfl
  | cons entry rest ih =>
    rw [List.map_cons, List.nodup_cons] at distinct
    change List.kinsert entry.1 entry.2 (FiniteMap.ofList rest).entries = _
    have absent : entry.1 ∉ ((FiniteMap.ofList rest).entries).keys := by
      rw [ih distinct.2, List.keys, List.map_map]
      exact distinct.1
    rw [List.kinsert, List.kerase_of_notMem_keys absent, ih distinct.2, List.map_cons]

theorem FiniteMap.ofList_toList {Item : Type} (entries : FiniteMap String Item) :
    FiniteMap.ofList entries.toList = entries := by
  refine AList.ext ?_
  rw [FiniteMap.ofList_entries (FiniteMap.distinct_keys entries), FiniteMap.toList, List.map_map]
  exact List.map_id _

theorem FiniteMap.mapValues_id {Item : Type} (entries : FiniteMap String Item) : entries.mapValues id = entries :=
  AList.ext (List.map_id _)

namespace SelurCompose

section Fields

theorem Fields.lookup_entries {fields : Fields} (distinct : (fields.map Prod.fst).Nodup) (key : String) :
    fields.entries.lookup key = (fields.lookup key).join := by
  unfold Fields.entries
  induction fields with
  | nil => rfl
  | cons field rest ih =>
    obtain ⟨name, value⟩ := field
    rw [List.map_cons, List.nodup_cons] at distinct
    have later := ih distinct.2
    by_cases same : key = name
    · subst same
      have absent : rest.lookup key = none := List.lookup_eq_none_iff.mpr fun entry member => by
        rw [bne_iff_ne]
        rintro rfl
        exact distinct.1 (List.mem_map.mpr ⟨entry, member, rfl⟩)
      cases value with
      | none => simpa [absent] using later
      | some value => simp
    · have differs : (key == name) = false := beq_eq_false_iff_ne.mpr same
      cases value with
      | none => simpa [List.lookup_cons, differs] using later
      | some value => simpa [List.lookup_cons, differs] using later

/-- A table written with all fields that are known is read field by field. -/
theorem readFields_toJson {known : List String} {fields : Fields} (names : fields.map Prod.fst = known)
    (distinct : known.Nodup) : ∃ entries, readFields known fields.toJson = .ok entries ∧
      ∀ key, entries.lookup key = (fields.lookup key).join := by
  subst names
  refine ⟨fields.entries, ?_, fun key => Fields.lookup_entries distinct key⟩
  rw [Fields.toJson, readFields]
  split
  next entry found =>
    have unknown := List.find?_some found
    obtain ⟨⟨name, value⟩, member, made⟩ := List.mem_filterMap.mp (List.mem_of_find?_eq_some found)
    obtain ⟨value, rfl, rfl⟩ := Option.map_eq_some_iff.mp made
    exact absurd (List.mem_map_of_mem member) (of_decide_eq_true unknown)
  next => rfl

/-- A field that is read where it is found. -/
theorem readAt {Item : Type} {read : Option Json → Except String Item} {found value : Option Json} {item : Item}
    (looked : found = value) (done : read value = .ok item) : read found = .ok item := looked ▸ done

end Fields

section Shapes
variable {Item : Type} {read : Json → Except String Item} {toJson : Item → Json} {change : Item → Item}

theorem mapM_of_ok {Given Result : Type} {call : Given → Except String Result} {result : Given → Result}
    {items : List Given} (each : ∀ item ∈ items, call item = .ok (result item)) :
    items.mapM call = .ok (items.map result) := by
  induction items with
  | nil => rfl
  | cons item rest ih =>
    rw [List.mapM_cons, each item List.mem_cons_self, ih fun other member => each other (List.mem_cons_of_mem _ member)]
    rfl

theorem readOptional_map {item : Option Item} (back : ∀ inner ∈ item, read (toJson inner) = .ok (change inner)) :
    readOptional read (item.map toJson) = .ok (item.map change) := by
  cases item with
  | none => rfl
  | some inner =>
    change (read (toJson inner) >>= fun value => .ok (some value)) = _
    rw [back inner rfl]
    rfl

theorem readOr_listJson {items : List Item} (back : ∀ item ∈ items, read (toJson item) = .ok (change item)) :
    readOr (readList read) [] (listJson toJson items) = .ok (items.map change) := by
  unfold listJson
  split
  next empty => rw [List.isEmpty_iff.mp empty]; rfl
  next =>
    change (items.map toJson).mapM read = _
    rw [List.mapM_map]
    exact mapM_of_ok back

theorem readTable_tableJson {entries : FiniteMap String Item}
    (back : ∀ entry ∈ entries.toList, read (toJson entry.2) = .ok (change entry.2)) :
    readTable read (tableJson toJson entries) = .ok (entries.mapValues change) := by
  have values : (entries.toList.map fun entry => (entry.1, toJson entry.2)).mapM (fun entry => read entry.2) =
      .ok (entries.toList.map fun entry => change entry.2) := by
    rw [List.mapM_map]
    exact mapM_of_ok back
  have pairs : ((entries.toList.map fun entry => (entry.1, toJson entry.2)).map Prod.fst).zip
      (entries.toList.map fun entry => change entry.2) = (entries.mapValues change).toList := by
    rw [List.map_map, List.zip_map']
    simp only [FiniteMap.toList, FiniteMap.mapValues, List.map_map, Function.comp_def]
  refine Fallible.bind_ok.mpr ⟨_, values, ?_⟩
  change Except.ok (FiniteMap.ofList _) = _
  exact (congrArg (Except.ok ∘ FiniteMap.ofList) pairs).trans (congrArg Except.ok (FiniteMap.ofList_toList _))

theorem readOr_mapJson {entries : FiniteMap String Item}
    (back : ∀ entry ∈ entries.toList, read (toJson entry.2) = .ok (change entry.2)) :
    readOr (readTable read) ∅ (mapJson toJson entries) = .ok (entries.mapValues change) := by
  unfold mapJson
  split
  next empty =>
    rw [FiniteMap.size_eq_zero.mp empty]
    rfl
  next => exact readTable_tableJson back

theorem readOr_flag (value : Bool) : readOr readBool false (flag value) = .ok value := by
  cases value <;> rfl

end Shapes

theorem readStrings (items : List String) : readOr (readList readString) [] (listJson .string items) = .ok items := by
  have back : readOr (readList readString) [] (listJson .string items) = .ok (items.map id) :=
    readOr_listJson fun _ _ => rfl
  rwa [List.map_id] at back

theorem readTexts (entries : FiniteMap String String) :
    readOr (readTable readString) ∅ (mapJson .string entries) = .ok entries := by
  have back : readOr (readTable readString) ∅ (mapJson .string entries) = .ok (entries.mapValues id) :=
    readOr_mapJson fun _ _ => rfl
  rw [back, FiniteMap.mapValues_id]

theorem readOptionalString (item : Option String) : readOptional readString (item.map .string) = .ok item := by
  cases item <;> rfl

theorem Build.ofJson_toJson (build : Build) : Build.ofJson build.toJson = .ok build := by
  obtain ⟨entries, read, looked⟩ := readFields_toJson
    (show build.fields.map Prod.fst = ["context", "dockerfile", "args", "target", "labels", "no_cache"] from rfl) (by decide)
  refine Fallible.bind_ok.mpr ⟨entries, read, ?_⟩
  refine Fallible.bind_ok.mpr ⟨build.context, readAt (looked "context") rfl, ?_⟩
  refine Fallible.bind_ok.mpr ⟨_, readAt (looked "dockerfile") (readOptionalString build.dockerfile), ?_⟩
  refine Fallible.bind_ok.mpr ⟨_, readAt (looked "args") (readTexts build.args), ?_⟩
  refine Fallible.bind_ok.mpr ⟨_, readAt (looked "target") (readOptionalString build.target), ?_⟩
  refine Fallible.bind_ok.mpr ⟨_, readAt (looked "labels") (readTexts build.labels), ?_⟩
  refine Fallible.bind_ok.mpr ⟨_, readAt (looked "no_cache") (readOr_flag build.noCache), ?_⟩
  rfl

theorem readU16_toNat (value : UInt16) : readU16 (.integer value.toNat) = .ok value := by
  have small := value.toNat_lt
  rw [readU16, if_pos ⟨Int.natCast_nonneg _, by omega⟩, Int.toNat_natCast, UInt16.ofNat_toNat]

theorem readU32_toNat (value : UInt32) : readU32 (.integer value.toNat) = .ok value := by
  have small := value.toNat_lt
  rw [readU32, if_pos ⟨Int.natCast_nonneg _, by omega⟩, Int.toNat_natCast, UInt32.ofNat_toNat]

/-- An optional field whose values are read back. -/
theorem readOptional_some {Item : Type} {read : Json → Except String Item} {toJson : Item → Json}
    (back : ∀ item, read (toJson item) = .ok item) (item : Option Item) :
    readOptional read (item.map toJson) = .ok item := by
  cases item with
  | none => rfl
  | some inner => exact Fallible.bind_ok.mpr ⟨inner, back inner, rfl⟩

theorem readItems {Item : Type} {read : Json → Except String Item} {toJson : Item → Json}
    (back : ∀ item, read (toJson item) = .ok item) (items : List Item) :
    readOr (readList read) [] (listJson toJson items) = .ok items := by
  have all : readOr (readList read) [] (listJson toJson items) = .ok (items.map id) :=
    readOr_listJson fun item _ => back item
  rwa [List.map_id] at all

theorem StringOrList.ofJson_toJson (value : StringOrList) : StringOrList.ofJson value.toJson = .ok value := by
  cases value with
  | string text => rfl
  | list items =>
    have back : (items.map Json.string).mapM readString = .ok (items.map id) := by
      rw [List.mapM_map]
      exact mapM_of_ok fun item _ => rfl
    exact Fallible.bind_ok.mpr ⟨items, by rw [back, List.map_id], rfl⟩

theorem HealthcheckTest.ofJson_toJson (test : HealthcheckTest) : HealthcheckTest.ofJson test.toJson = .ok test := by
  cases test with
  | shell text => rfl
  | exec items =>
    have back : (items.map Json.string).mapM readString = .ok (items.map id) := by
      rw [List.mapM_map]
      exact mapM_of_ok fun item _ => rfl
    exact Fallible.bind_ok.mpr ⟨items, by rw [back, List.map_id], rfl⟩

theorem PortLong.ofJson_toJson (port : PortLong) : PortLong.ofJson port.toJson = .ok port := by
  obtain ⟨entries, read, looked⟩ := readFields_toJson
    (show port.fields.map Prod.fst = ["host_ip", "target", "published", "protocol"] from rfl) (by decide)
  refine Fallible.bind_ok.mpr ⟨entries, read, ?_⟩
  refine Fallible.bind_ok.mpr ⟨_, readAt (looked "host_ip") (readOptionalString port.hostIp), ?_⟩
  have target : readRequired readU16 "target" (some (.integer port.target.toNat)) = .ok port.target :=
    readU16_toNat port.target
  refine Fallible.bind_ok.mpr ⟨_, readAt (looked "target") target, ?_⟩
  refine Fallible.bind_ok.mpr ⟨_, readAt (looked "published") (readOptionalString port.published), ?_⟩
  refine Fallible.bind_ok.mpr ⟨_, readAt (looked "protocol") (readOptionalString port.protocol), ?_⟩
  rfl

theorem PortBinding.ofJson_toJson (port : PortBinding) : PortBinding.ofJson port.toJson = .ok port := by
  cases port with
  | short text => rfl
  | long port => exact Fallible.bind_ok.mpr ⟨port, port.ofJson_toJson, rfl⟩

theorem BindOptions.ofJson_toJson (bind : BindOptions) : BindOptions.ofJson bind.toJson = .ok bind := by
  obtain ⟨entries, read, looked⟩ := readFields_toJson
    (show bind.fields.map Prod.fst = ["propagation", "create_host_path"] from rfl) (by decide)
  refine Fallible.bind_ok.mpr ⟨entries, read, ?_⟩
  refine Fallible.bind_ok.mpr ⟨_, readAt (looked "propagation") (readOptionalString bind.propagation), ?_⟩
  refine Fallible.bind_ok.mpr ⟨_, readAt (looked "create_host_path") (readOr_flag bind.createHostPath), ?_⟩
  rfl

theorem VolumeOptions.ofJson_toJson (volume : VolumeOptions) : VolumeOptions.ofJson volume.toJson = .ok volume := by
  obtain ⟨entries, read, looked⟩ := readFields_toJson
    (show volume.fields.map Prod.fst = ["nocopy"] from rfl) (by decide)
  refine Fallible.bind_ok.mpr ⟨entries, read, ?_⟩
  refine Fallible.bind_ok.mpr ⟨_, readAt (looked "nocopy") (readOr_flag volume.nocopy), ?_⟩
  rfl

theorem MountLong.ofJson_toJson (mount : MountLong) : MountLong.ofJson mount.toJson = .ok mount := by
  obtain ⟨entries, read, looked⟩ := readFields_toJson
    (show mount.fields.map Prod.fst = ["type", "source", "target", "read_only", "bind", "volume"] from rfl) (by decide)
  refine Fallible.bind_ok.mpr ⟨entries, read, ?_⟩
  refine Fallible.bind_ok.mpr ⟨mount.mountType, readAt (looked "type") rfl, ?_⟩
  refine Fallible.bind_ok.mpr ⟨_, readAt (looked "source") (readOptionalString mount.source), ?_⟩
  refine Fallible.bind_ok.mpr ⟨mount.target, readAt (looked "target") rfl, ?_⟩
  refine Fallible.bind_ok.mpr ⟨_, readAt (looked "read_only") (readOr_flag mount.readOnly), ?_⟩
  refine Fallible.bind_ok.mpr ⟨_, readAt (looked "bind") (readOptional_some BindOptions.ofJson_toJson mount.bind), ?_⟩
  refine Fallible.bind_ok.mpr ⟨_, readAt (looked "volume") (readOptional_some VolumeOptions.ofJson_toJson mount.volume), ?_⟩
  rfl

theorem MountSpec.ofJson_toJson (mount : MountSpec) : MountSpec.ofJson mount.toJson = .ok mount := by
  cases mount with
  | short text => rfl
  | long mount => exact Fallible.bind_ok.mpr ⟨mount, mount.ofJson_toJson, rfl⟩

theorem DependsOnSpec.ofJson_toJson (spec : DependsOnSpec) : DependsOnSpec.ofJson spec.toJson = .ok spec := by
  obtain ⟨entries, read, looked⟩ := readFields_toJson
    (show spec.fields.map Prod.fst = ["condition", "restart"] from rfl) (by decide)
  have condition : readRequired DependsCondition.ofJson "condition" (some (.string spec.condition.text)) =
      .ok spec.condition := by cases spec.condition <;> rfl
  refine Fallible.bind_ok.mpr ⟨entries, read, ?_⟩
  refine Fallible.bind_ok.mpr ⟨_, readAt (looked "condition") condition, ?_⟩
  refine Fallible.bind_ok.mpr ⟨_, readAt (looked "restart") (readOr_flag spec.restart), ?_⟩
  rfl

theorem SecretRefLong.ofJson_toJson (ref : SecretRefLong) : SecretRefLong.ofJson ref.toJson = .ok ref := by
  obtain ⟨entries, read, looked⟩ := readFields_toJson
    (show ref.fields.map Prod.fst = ["source", "target", "uid", "gid", "mode"] from rfl) (by decide)
  refine Fallible.bind_ok.mpr ⟨entries, read, ?_⟩
  refine Fallible.bind_ok.mpr ⟨ref.source, readAt (looked "source") rfl, ?_⟩
  refine Fallible.bind_ok.mpr ⟨_, readAt (looked "target") (readOptionalString ref.target), ?_⟩
  refine Fallible.bind_ok.mpr ⟨_, readAt (looked "uid") (readOptionalString ref.uid), ?_⟩
  refine Fallible.bind_ok.mpr ⟨_, readAt (looked "gid") (readOptionalString ref.gid), ?_⟩
  refine Fallible.bind_ok.mpr ⟨_, readAt (looked "mode") (readOptional_some readU32_toNat ref.mode), ?_⟩
  rfl

theorem SecretRef.ofJson_toJson (ref : SecretRef) : SecretRef.ofJson ref.toJson = .ok ref := by
  cases ref with
  | name secret => rfl
  | long ref => exact Fallible.bind_ok.mpr ⟨ref, ref.ofJson_toJson, rfl⟩

theorem RestartPolicy.ofJson_text (policy : RestartPolicy) : RestartPolicy.ofJson (.string policy.text) = .ok policy := by
  cases policy <;> rfl

theorem DependsOn.ofJson_toJson (dependsOn : DependsOn) : readOr DependsOn.ofJson .empty dependsOn.toJson = .ok dependsOn := by
  cases dependsOn with
  | empty => rfl
  | list names =>
    have back : (names.map Json.string).mapM readString = .ok (names.map id) := by
      rw [List.mapM_map]
      exact mapM_of_ok fun item _ => rfl
    exact Fallible.bind_ok.mpr ⟨names, by rw [back, List.map_id], rfl⟩
  | map entries =>
    have back : readTable DependsOnSpec.ofJson (tableJson DependsOnSpec.toJson entries) = .ok (entries.mapValues id) :=
      readTable_tableJson fun entry _ => entry.2.ofJson_toJson
    exact Fallible.bind_ok.mpr ⟨entries, by rw [← tableJson, back, FiniteMap.mapValues_id], rfl⟩

/-- A network mode is read as another of the same text. -/
theorem NetworkMode.text_ofText (text : String) : (NetworkMode.ofText text).text = text := by
  unfold NetworkMode.ofText
  split
  next same => exact same.symm
  split
  next same => exact same.symm
  split
  next same => exact same.symm
  split
  next begins =>
    obtain ⟨id, split⟩ := begins
    have dropped : text.toList.drop "container:".length = id := by
      rw [← split]
      rfl
    rw [dropped]
    refine String.toList_inj.mp ?_
    change ("container:" ++ String.ofList id).toList = text.toList
    rw [← split, String.toList_append]
    exact congrArg ("container:".toList ++ ·) String.toList_ofList
  next => rfl

/-- The mode that a service has after it is written and read. -/
def NetworkMode.reread (mode : NetworkMode) : NetworkMode := NetworkMode.ofText mode.text

theorem NetworkMode.text_reread (mode : NetworkMode) : mode.reread.text = mode.text := NetworkMode.text_ofText mode.text

def Service.reread (service : Service) : Service :=
  { service with networkMode := service.networkMode.map NetworkMode.reread }

/-- Every variable has a value, as it has in TOML. -/
def ServiceEnv.Total : ServiceEnv → Prop
  | map entries => ∀ entry ∈ entries.toList, entry.2.isSome
  | _ => True

theorem ServiceEnv.toJson_total {entries : FiniteMap String (Option String)} (total : (ServiceEnv.map entries).Total)
    (nothing : Option Json) :
    (ServiceEnv.map entries).toJson nothing = some (tableJson (fun value => .string (value.getD "")) entries) := by
  refine congrArg (some ∘ Json.object) ?_
  rw [← List.filterMap_eq_map]
  refine List.filterMap_congr fun entry member => ?_
  obtain ⟨text, given⟩ := Option.isSome_iff_exists.mp (total entry member)
  change (entry.2.elim nothing fun text => some (Json.string text)).map _ = some (entry.1, Json.string (entry.2.getD ""))
  rw [given]
  rfl

theorem ServiceEnv.ofJson_toJson {environment : ServiceEnv} (total : environment.Total) (nothing : Option Json) :
    readOr ServiceEnv.ofJson .empty (environment.toJson nothing) = .ok environment := by
  cases environment with
  | empty => rfl
  | list items =>
    have back : (items.map Json.string).mapM readString = .ok (items.map id) := by
      rw [List.mapM_map]
      exact mapM_of_ok fun item _ => rfl
    exact Fallible.bind_ok.mpr ⟨items, by rw [back, List.map_id], rfl⟩
  | map entries =>
    have same : entries.mapValues (fun value => some (value.getD "")) = entries.mapValues id :=
      FiniteMap.mapValues_eq_iff.mpr fun entry member => by
        obtain ⟨text, given⟩ := Option.isSome_iff_exists.mp (total entry member)
        rw [given]
        rfl
    have back : readTable (fun value => do return some (← readString value))
        (tableJson (fun value => .string (value.getD "")) entries) = .ok (entries.mapValues fun value => some (value.getD "")) :=
      readTable_tableJson fun entry _ => rfl
    rw [same, FiniteMap.mapValues_id] at back
    rw [ServiceEnv.toJson_total total]
    exact Fallible.bind_ok.mpr ⟨entries, back, rfl⟩

section Durations
variable {formatDuration : Nanoseconds → String} {parseDuration : String → Except String Nanoseconds}
  (round : ∀ duration, parseDuration (formatDuration duration) = .ok duration)

include round

theorem readOptionalDuration (duration : Option Nanoseconds) :
    readOptional (readDuration parseDuration) (duration.map (durationJson formatDuration)) = .ok duration :=
  readOptional_some (fun duration => round duration) duration

theorem Healthcheck.ofJson_toJson (check : Healthcheck) :
    Healthcheck.ofJson parseDuration (check.toJson formatDuration) = .ok check := by
  obtain ⟨entries, read, looked⟩ := readFields_toJson
    (show (check.fields formatDuration).map Prod.fst =
      ["test", "interval", "timeout", "retries", "start_period", "disable"] from rfl) (by decide)
  have test : readRequired HealthcheckTest.ofJson "test" (some check.test.toJson) = .ok check.test :=
    check.test.ofJson_toJson
  refine Fallible.bind_ok.mpr ⟨entries, read, ?_⟩
  refine Fallible.bind_ok.mpr ⟨_, readAt (looked "test") test, ?_⟩
  refine Fallible.bind_ok.mpr ⟨_, readAt (looked "interval") (readOptionalDuration round check.interval), ?_⟩
  refine Fallible.bind_ok.mpr ⟨_, readAt (looked "timeout") (readOptionalDuration round check.timeout), ?_⟩
  refine Fallible.bind_ok.mpr ⟨_, readAt (looked "retries") (readOptional_some readU32_toNat check.retries), ?_⟩
  refine Fallible.bind_ok.mpr ⟨_, readAt (looked "start_period") (readOptionalDuration round check.startPeriod), ?_⟩
  refine Fallible.bind_ok.mpr ⟨_, readAt (looked "disable") (readOr_flag check.disable), ?_⟩
  rfl

theorem Service.ofJson_toJson {service : Service} (total : service.environment.Total) (nothing : Option Json) :
    Service.ofJson parseDuration (service.toJson formatDuration nothing) = .ok service.reread := by
  obtain ⟨entries, read, looked⟩ := readFields_toJson
    (show (service.fields formatDuration nothing).map Prod.fst = Service.fieldNames from rfl) (by decide)
  have restart : readOr RestartPolicy.ofJson .no (some (.string service.restart.text)) = .ok service.restart :=
    service.restart.ofJson_text
  have mode : readOptional NetworkMode.ofJson (service.networkMode.map NetworkMode.toJson) =
      .ok (service.networkMode.map NetworkMode.reread) := readOptional_map fun mode _ => rfl
  have init : readOptional readBool (service.init.map .bool) = .ok service.init :=
    by cases service.init <;> rfl
  refine Fallible.bind_ok.mpr ⟨entries, read, ?_⟩
  refine Fallible.bind_ok.mpr ⟨_, readAt (looked "image") (readOptionalString service.image), ?_⟩
  refine Fallible.bind_ok.mpr ⟨_, readAt (looked "build") (readOptional_some Build.ofJson_toJson service.build), ?_⟩
  refine Fallible.bind_ok.mpr ⟨_, readAt (looked "command") (readOptional_some StringOrList.ofJson_toJson service.command), ?_⟩
  refine Fallible.bind_ok.mpr
    ⟨_, readAt (looked "entrypoint") (readOptional_some StringOrList.ofJson_toJson service.entrypoint), ?_⟩
  refine Fallible.bind_ok.mpr ⟨_, readAt (looked "environment") (ServiceEnv.ofJson_toJson total nothing), ?_⟩
  refine Fallible.bind_ok.mpr ⟨_, readAt (looked "env_file") (readStrings service.envFile), ?_⟩
  refine Fallible.bind_ok.mpr ⟨_, readAt (looked "ports") (readItems PortBinding.ofJson_toJson service.ports), ?_⟩
  refine Fallible.bind_ok.mpr ⟨_, readAt (looked "volumes") (readItems MountSpec.ofJson_toJson service.volumes), ?_⟩
  refine Fallible.bind_ok.mpr ⟨_, readAt (looked "networks") (readStrings service.networks), ?_⟩
  refine Fallible.bind_ok.mpr ⟨_, readAt (looked "network_mode") mode, ?_⟩
  refine Fallible.bind_ok.mpr ⟨_, readAt (looked "depends_on") service.dependsOn.ofJson_toJson, ?_⟩
  refine Fallible.bind_ok.mpr
    ⟨_, readAt (looked "healthcheck") (readOptional_some (Healthcheck.ofJson_toJson round) service.healthcheck), ?_⟩
  refine Fallible.bind_ok.mpr ⟨_, readAt (looked "restart") restart, ?_⟩
  refine Fallible.bind_ok.mpr ⟨_, readAt (looked "profiles") (readStrings service.profiles), ?_⟩
  refine Fallible.bind_ok.mpr ⟨_, readAt (looked "secrets") (readItems SecretRef.ofJson_toJson service.secrets), ?_⟩
  refine Fallible.bind_ok.mpr ⟨_, readAt (looked "configs") (readItems SecretRef.ofJson_toJson service.configs), ?_⟩
  refine Fallible.bind_ok.mpr ⟨_, readAt (looked "user") (readOptionalString service.user), ?_⟩
  refine Fallible.bind_ok.mpr ⟨_, readAt (looked "working_dir") (readOptionalString service.workingDir), ?_⟩
  refine Fallible.bind_ok.mpr ⟨_, readAt (looked "hostname") (readOptionalString service.hostname), ?_⟩
  refine Fallible.bind_ok.mpr ⟨_, readAt (looked "cap_add") (readStrings service.capAdd), ?_⟩
  refine Fallible.bind_ok.mpr ⟨_, readAt (looked "cap_drop") (readStrings service.capDrop), ?_⟩
  refine Fallible.bind_ok.mpr ⟨_, readAt (looked "init") init, ?_⟩
  refine Fallible.bind_ok.mpr ⟨_, readAt (looked "stop_signal") (readOptionalString service.stopSignal), ?_⟩
  refine Fallible.bind_ok.mpr
    ⟨_, readAt (looked "stop_grace_period") (readOptionalDuration round service.stopGracePeriod), ?_⟩
  rfl

omit round in
theorem Ipam.ofJson_toJson (ipam : Ipam) : Ipam.ofJson ipam.toJson = .ok ipam := by
  obtain ⟨entries, read, looked⟩ := readFields_toJson
    (show ipam.fields.map Prod.fst = ["driver", "config"] from rfl) (by decide)
  have table (entries : FiniteMap String String) : readTable readString (tableJson .string entries) = .ok entries := by
    have back : readTable readString (tableJson .string entries) = .ok (entries.mapValues id) :=
      readTable_tableJson fun _ _ => rfl
    rw [back, FiniteMap.mapValues_id]
  refine Fallible.bind_ok.mpr ⟨entries, read, ?_⟩
  refine Fallible.bind_ok.mpr ⟨_, readAt (looked "driver") (readOptionalString ipam.driver), ?_⟩
  refine Fallible.bind_ok.mpr ⟨_, readAt (looked "config") (readItems table ipam.config), ?_⟩
  rfl

omit round in
theorem Network.ofJson_toJson (network : Network) : Network.ofJson network.toJson = .ok network := by
  obtain ⟨entries, read, looked⟩ := readFields_toJson
    (show network.fields.map Prod.fst =
      ["driver", "driver_opts", "external", "name", "ipam", "labels", "internal"] from rfl) (by decide)
  refine Fallible.bind_ok.mpr ⟨entries, read, ?_⟩
  refine Fallible.bind_ok.mpr ⟨_, readAt (looked "driver") (readOptionalString network.driver), ?_⟩
  refine Fallible.bind_ok.mpr ⟨_, readAt (looked "driver_opts") (readTexts network.driverOpts), ?_⟩
  refine Fallible.bind_ok.mpr ⟨_, readAt (looked "external") (readOr_flag network.external), ?_⟩
  refine Fallible.bind_ok.mpr ⟨_, readAt (looked "name") (readOptionalString network.name), ?_⟩
  refine Fallible.bind_ok.mpr ⟨_, readAt (looked "ipam") (readOptional_some Ipam.ofJson_toJson network.ipam), ?_⟩
  refine Fallible.bind_ok.mpr ⟨_, readAt (looked "labels") (readTexts network.labels), ?_⟩
  refine Fallible.bind_ok.mpr ⟨_, readAt (looked "internal") (readOr_flag network.internal), ?_⟩
  rfl

omit round in
theorem Volume.ofJson_toJson (volume : Volume) : Volume.ofJson volume.toJson = .ok volume := by
  obtain ⟨entries, read, looked⟩ := readFields_toJson
    (show volume.fields.map Prod.fst = ["driver", "driver_opts", "external", "name", "labels"] from rfl) (by decide)
  refine Fallible.bind_ok.mpr ⟨entries, read, ?_⟩
  refine Fallible.bind_ok.mpr ⟨_, readAt (looked "driver") (readOptionalString volume.driver), ?_⟩
  refine Fallible.bind_ok.mpr ⟨_, readAt (looked "driver_opts") (readTexts volume.driverOpts), ?_⟩
  refine Fallible.bind_ok.mpr ⟨_, readAt (looked "external") (readOr_flag volume.external), ?_⟩
  refine Fallible.bind_ok.mpr ⟨_, readAt (looked "name") (readOptionalString volume.name), ?_⟩
  refine Fallible.bind_ok.mpr ⟨_, readAt (looked "labels") (readTexts volume.labels), ?_⟩
  rfl

omit round in
theorem Secret.ofJson_toJson (secret : Secret) : Secret.ofJson secret.toJson = .ok secret := by
  obtain ⟨entries, read, looked⟩ := readFields_toJson
    (show secret.fields.map Prod.fst = ["file", "external", "name"] from rfl) (by decide)
  refine Fallible.bind_ok.mpr ⟨entries, read, ?_⟩
  refine Fallible.bind_ok.mpr ⟨_, readAt (looked "file") (readOptionalString secret.file), ?_⟩
  refine Fallible.bind_ok.mpr ⟨_, readAt (looked "external") (readOr_flag secret.external), ?_⟩
  refine Fallible.bind_ok.mpr ⟨_, readAt (looked "name") (readOptionalString secret.name), ?_⟩
  rfl

omit round in
/-- A table that is skipped when it is empty, of items that are read back. -/
theorem readValues {Item : Type} {read : Json → Except String Item} {toJson : Item → Json}
    (back : ∀ item, read (toJson item) = .ok item) (entries : FiniteMap String Item) :
    readOr (readTable read) ∅ (mapJson toJson entries) = .ok entries := by
  have all : readOr (readTable read) ∅ (mapJson toJson entries) = .ok (entries.mapValues id) :=
    readOr_mapJson fun entry _ => back entry.2
  rw [all, FiniteMap.mapValues_id]

/-- A project that is written, with other extensions, is read with its network modes read again. -/
theorem Compose.ofJson_fields {compose : Compose} (total : ∀ entry ∈ compose.services.toList, entry.2.environment.Total)
    (nothing : Option Json) {extensions : List (String × Json)}
    (extends_ : ∀ entry ∈ extensions, entry.1 ∉ Compose.fieldNames) :
    Compose.ofJson parseDuration (.object ((compose.fields formatDuration nothing).entries ++ extensions)) =
      .ok { compose with
        services := compose.services.mapValues Service.reread, extensions := FiniteMap.ofList extensions } := by
  have distinct : ((compose.fields formatDuration nothing).map Prod.fst).Nodup := by
    change Compose.fieldNames.Nodup
    decide
  have looked (key : String) (known : key ∈ Compose.fieldNames) :
      ((compose.fields formatDuration nothing).entries ++ extensions).lookup key =
        ((compose.fields formatDuration nothing).lookup key).join := by
    have absent : extensions.lookup key = none := List.lookup_eq_none_iff.mpr fun entry member => by
      rw [bne_iff_ne]
      rintro rfl
      exact extends_ entry member known
    rw [List.lookup_append, absent, Option.or_none, Fields.lookup_entries distinct]
  have back (name : String) : readProject (projectJson name) = .ok name := rfl
  have project := readOptional_some back compose.projectName
  have services : readOr (readTable (Service.ofJson parseDuration)) ∅
      (mapJson (Service.toJson formatDuration nothing) compose.services) =
        .ok (compose.services.mapValues Service.reread) :=
    readOr_mapJson fun entry member => Service.ofJson_toJson round (total entry member) nothing
  have left : ((compose.fields formatDuration nothing).entries ++ extensions).filter (fun entry =>
      entry.1 ∉ Compose.fieldNames) = extensions := by
    have none : (compose.fields formatDuration nothing).entries.filter (fun entry => entry.1 ∉ Compose.fieldNames) = [] := by
      refine List.filter_eq_nil_iff.mpr fun entry member => ?_
      obtain ⟨⟨name, value⟩, listed, made⟩ := List.mem_filterMap.mp member
      obtain ⟨value, rfl, rfl⟩ := Option.map_eq_some_iff.mp made
      have known : name ∈ Compose.fieldNames := List.mem_map_of_mem (f := Prod.fst) listed
      simpa using known
    have all : extensions.filter (fun entry => entry.1 ∉ Compose.fieldNames) = extensions :=
      List.filter_eq_self.mpr fun entry member => by simpa using extends_ entry member
    rw [List.filter_append, none, all, List.nil_append]
  refine Fallible.bind_ok.mpr ⟨_, readAt (looked "project" (by decide)) project, ?_⟩
  refine Fallible.bind_ok.mpr ⟨_, readAt (looked "services" (by decide)) services, ?_⟩
  refine Fallible.bind_ok.mpr
    ⟨_, readAt (looked "networks" (by decide)) (readValues Network.ofJson_toJson compose.networks), ?_⟩
  refine Fallible.bind_ok.mpr
    ⟨_, readAt (looked "volumes" (by decide)) (readValues Volume.ofJson_toJson compose.volumes), ?_⟩
  refine Fallible.bind_ok.mpr
    ⟨_, readAt (looked "secrets" (by decide)) (readValues Secret.ofJson_toJson compose.secrets), ?_⟩
  refine Fallible.bind_ok.mpr
    ⟨_, readAt (looked "configs" (by decide)) (readValues Secret.ofJson_toJson compose.configs), ?_⟩
  rw [left]
  rfl

end Durations

end SelurCompose

end Burble
