import Burble.Compose.PlanOrder

namespace Burble.SelurCompose

/-- What `podman run --network` takes for the name of a network. -/
def isNetworkName (mode : String) : Bool :=
  !(mode = "bridge" || mode = "host" || mode = "none" || mode.startsWith "container:")

/-- A mount's source, as `validate_references` reads it. -/
def mountSource (text : String) : String := String.ofList (text.toList.takeWhile fun c => c != ':')

def isVolumeName (source : String) : Bool := !(source = "" || source.startsWith "." || source.startsWith "/")

def RunSpec.attachedNetworks (spec : RunSpec) : List String := spec.networks ++ spec.networkMode.toList.filter isNetworkName

def RunSpec.attachedVolumes (spec : RunSpec) : List String := (spec.volumes.map mountSource).filter isVolumeName

/-- The operation creates a network. -/
def Op.createsNetwork (name : String) : Op → Prop
  | createNetwork spec => spec.name = name
  | _ => False

def Op.createsVolume (name : String) : Op → Prop
  | createVolume spec => spec.name = name
  | _ => False

/-- What a run attaches to has been created, or the project declares it external. -/
def Attached (compose : Compose) (past : List Op) : Op → Prop
  | .runContainer spec =>
    (∀ name ∈ spec.attachedNetworks, (∃ op ∈ past, op.createsNetwork name) ∨
      ∃ network, compose.networks.lookup name = some network ∧ network.external = true) ∧
    ∀ name ∈ spec.attachedVolumes, (∃ op ∈ past, op.createsVolume name) ∨
      ∃ volume, compose.volumes.lookup name = some volume ∧ volume.external = true
  | _ => True

/-- The references of a service that are not checked: the implicit network is declared, a custom
network mode is a declared network, and the source of a long mount, up to a colon, is a path or a
declared volume. -/
structure Service.Refers (compose : Compose) (service : Service) : Prop where
  defaultNetwork : service.networkMode = none → "default" ∈ service.networks → "default" ∈ compose.networks.keys
  mode : ∀ mode, service.networkMode = some mode → isNetworkName mode.text = true → mode.text ∈ compose.networks.keys
  longMounts : ∀ mount, .long mount ∈ service.volumes → isVolumeName (mountSource (mount.source.getD "")) = true →
    mountSource (mount.source.getD "") ∈ compose.volumes.keys

variable {compose : Compose}

section Validation

theorem validateReferences_ok {activeServices : ActiveServices} {done : Unit}
    (checked : validateReferences compose activeServices = .ok done) {name : String} {service : Service}
    (active : activeServices.lookup name = some service) :
    (∀ network ∈ service.networks, checkNetwork compose name network = .ok ()) ∧
      ∀ mount ∈ service.volumes, checkMount compose name mount = .ok () := by
  have each := Fallible.forM_ok checked (name, service) (FiniteMap.mem_toList.mpr active)
  obtain ⟨_, networks, volumes⟩ := Fallible.bind_ok.mp each
  exact ⟨Fallible.forM_ok networks, Fallible.forM_ok volumes⟩

theorem checkNetwork_ok {service network : String} (checked : checkNetwork compose service network = .ok ()) :
    network = "default" ∨ network ∈ compose.networks.keys := by
  rw [checkNetwork] at checked
  by_cases implicit : network = "default"
  · exact .inl implicit
  rw [if_neg implicit] at checked
  by_cases undeclared : compose.networks.size ≠ 0 ∧ network ∉ compose.networks.keys
  · rw [if_pos undeclared] at checked
    cases checked
  rw [if_neg undeclared] at checked
  by_cases empty : compose.networks.size = 0
  · rw [if_pos empty] at checked
    cases checked
  · exact .inr (not_not.mp fun missing => undeclared ⟨empty, missing⟩)

theorem checkMount_short_ok {service text : String} (checked : checkMount compose service (.short text) = .ok ())
    (named : isVolumeName (mountSource text) = true) : mountSource text ∈ compose.volumes.keys := by
  simp only [checkMount] at checked
  split at checked
  next => cases checked
  next passed =>
    simp only [isVolumeName, Bool.not_eq_true', Bool.or_eq_false_iff, decide_eq_false_iff_not] at named
    simp only [mountSource] at named ⊢
    simpa [named.1.2, named.2] using passed

end Validation

theorem mountSource_append (source target : String) : mountSource (source ++ ":" ++ target) = mountSource source := by
  simp only [mountSource, String.toList_append]
  congr 1
  induction source.toList with
  | nil => simp
  | cons first rest ih => by_cases colon : first = ':' <;> simp_all

theorem mountSource_long (mount : MountLong) :
    mountSource (MountSpec.text (.long mount)) = mountSource (mount.source.getD "") := by
  simp only [MountSpec.text]
  split
  · exact (congrArg mountSource (by simp [toString, String.append_assoc])).trans (mountSource_append _ (mount.target ++ ":ro"))
  · exact mountSource_append _ _

section Runs
variable {serviceHash : Service → Except String String} {projectName name : String} {service : Service} {spec : RunSpec}

theorem runSpec_attached (made : runSpec serviceHash projectName name service = .ok spec) :
    spec.attachedNetworks = (if service.networkMode.isSome then [] else service.networks) ++
        (service.networkMode.map NetworkMode.text).toList.filter isNetworkName ∧
      spec.attachedVolumes = ((service.volumes.map MountSpec.text).map mountSource).filter isVolumeName := by
  rw [runSpec] at made
  split at made
  · cases made
  · cases made
    exact ⟨rfl, rfl⟩

/-- Of a service that has passed the checks, a run attaches only to what is declared if and only if
the references that are not checked are. -/
theorem attached_declared_iff (networks : ∀ network ∈ service.networks, checkNetwork compose name network = .ok ())
    (volumes : ∀ mount ∈ service.volumes, checkMount compose name mount = .ok ())
    (made : runSpec serviceHash projectName name service = .ok spec) :
    ((∀ network ∈ spec.attachedNetworks, network ∈ compose.networks.keys) ∧
      ∀ volume ∈ spec.attachedVolumes, volume ∈ compose.volumes.keys) ↔ service.Refers compose := by
  obtain ⟨attachedNetworks, attachedVolumes⟩ := runSpec_attached made
  rw [attachedNetworks, attachedVolumes]
  constructor
  · rintro ⟨declared, stored⟩
    refine ⟨fun noMode implicit => ?_, fun mode given isName => ?_, fun mount listed isName => ?_⟩
    · exact declared "default" (by simp [noMode, implicit])
    · exact declared mode.text (by simp [given, isName])
    · rw [← mountSource_long] at isName ⊢
      exact stored _ (List.mem_filter.mpr ⟨List.mem_map_of_mem (List.mem_map_of_mem listed), isName⟩)
  · intro refers
    refine ⟨fun network member => ?_, fun volume member => ?_⟩
    · cases given : service.networkMode with
      | none =>
        have listed : network ∈ service.networks := by simpa [given] using member
        rcases checkNetwork_ok (networks network listed) with rfl | declared
        · exact refers.defaultNetwork given listed
        · exact declared
      | some mode =>
        obtain ⟨rfl, isName⟩ : network = mode.text ∧ isNetworkName network = true := by simpa [given] using member
        exact refers.mode mode given isName
    · obtain ⟨source, isName⟩ := List.mem_filter.mp member
      obtain ⟨text, written, rfl⟩ := List.mem_map.mp source
      obtain ⟨mount, listed, rfl⟩ := List.mem_map.mp written
      cases mount with
      | short text => exact checkMount_short_ok (volumes _ listed) isName
      | long mount =>
        rw [mountSource_long] at isName ⊢
        exact refers.longMounts mount listed isName

/-- A run in the waves is that of one of their services. -/
theorem waveOps_runContainer {activeServices : ActiveServices} {waves : List (List String)} {emitted : List String}
    {ops : List Op} (made : waveOps serviceHash projectName activeServices waves emitted = .ok ops)
    (member : .runContainer spec ∈ ops) :
    ∃ name ∈ waves.flatten, runSpec serviceHash projectName name (activeServices.get name) = .ok spec := by
  induction waves generalizing emitted ops with
  | nil =>
    cases made
    cases member
  | cons names rest ih =>
    obtain ⟨runs, later, some, others, rfl⟩ := waveOps_cons made
    rcases List.mem_append.mp member with now | after
    · rcases List.mem_append.mp now with wait | run
      · rcases emitWait_ops wait with none | ⟨dep, _, same⟩
        · cases none
        · cases same
      · obtain ⟨name, among, built⟩ := Fallible.mapM_mem some run
        obtain ⟨found, hashed, same⟩ := Fallible.bind_ok.mp built
        cases same
        exact ⟨name, List.mem_append_left _ among, hashed⟩
    · obtain ⟨name, among, hashed⟩ := ih others after
      exact ⟨name, List.mem_append_right _ among, hashed⟩

/-- The waves neither create networks nor volumes. -/
theorem waveOps_not_isPreparation {activeServices : ActiveServices} {waves : List (List String)}
    {emitted : List String} {ops : List Op}
    (made : waveOps serviceHash projectName activeServices waves emitted = .ok ops) {op : Op} (member : op ∈ ops) :
    op.isPreparation = false := by
  induction waves generalizing emitted ops with
  | nil =>
    cases made
    cases member
  | cons names rest ih =>
    obtain ⟨runs, later, some, others, rfl⟩ := waveOps_cons made
    rcases List.mem_append.mp member with now | after
    · rcases List.mem_append.mp now with wait | run
      · rcases emitWait_ops wait with none | ⟨dep, _, rfl⟩
        · cases none
        · rfl
      · obtain ⟨name, _, built⟩ := Fallible.mapM_mem some run
        obtain ⟨found, _, same⟩ := Fallible.bind_ok.mp built
        cases same
        rfl
    · exact ih others after

end Runs

section Planning
variable {serviceHash : Service → Except String String} {opts : PlanOptions} {planned : Plan}

/-- The operations before those of the waves. -/
def preparations (projectName : String) (compose : Compose) (activeServices : ActiveServices) : List Op :=
  networkOps projectName compose ++ volumeOps projectName compose ++ imageOps projectName activeServices

theorem mem_networkOps (projectName : String) {name : String} :
    (∃ op ∈ networkOps projectName compose, op.createsNetwork name) ↔ name ∈ compose.networks.keys := by
  rw [← AList.mem_keys, ← AList.lookup_isSome]
  simp only [networkOps, List.mem_map, Option.isSome_iff_exists, ← FiniteMap.mem_toList]
  constructor
  · rintro ⟨_, ⟨⟨found, network⟩, listed, rfl⟩, rfl⟩
    exact ⟨network, listed⟩
  · rintro ⟨network, listed⟩
    exact ⟨_, ⟨(name, network), listed, rfl⟩, rfl⟩

theorem mem_volumeOps (projectName : String) {name : String} :
    (∃ op ∈ volumeOps projectName compose, op.createsVolume name) ↔ name ∈ compose.volumes.keys := by
  rw [← AList.mem_keys, ← AList.lookup_isSome]
  simp only [volumeOps, List.mem_map, Option.isSome_iff_exists, ← FiniteMap.mem_toList]
  constructor
  · rintro ⟨_, ⟨⟨found, volume⟩, listed, rfl⟩, rfl⟩
    exact ⟨volume, listed⟩
  · rintro ⟨volume, listed⟩
    exact ⟨_, ⟨(name, volume), listed, rfl⟩, rfl⟩

theorem imageOps_creates {projectName : String} {activeServices : ActiveServices} {op : Op}
    (member : op ∈ imageOps projectName activeServices) (name : String) :
    ¬ op.createsNetwork name ∧ ¬ op.createsVolume name := by
  obtain ⟨⟨service, found⟩, _, made⟩ := List.mem_filterMap.mp member
  change imageOp projectName service found = some op at made
  rw [imageOp] at made
  split at made
  · cases made
    exact ⟨id, id⟩
  · cases made
    exact ⟨id, id⟩
  · cases made

theorem preparations_networks {projectName : String} {activeServices : ActiveServices} (name : String) :
    (∃ op ∈ preparations projectName compose activeServices, op.createsNetwork name) ↔ name ∈ compose.networks.keys := by
  rw [← mem_networkOps projectName]
  constructor
  · rintro ⟨op, member, creates⟩
    rcases List.mem_append.mp member with front | image
    · rcases List.mem_append.mp front with network | volume
      · exact ⟨op, network, creates⟩
      · obtain ⟨_, _, rfl⟩ := List.mem_map.mp volume
        exact creates.elim
    · exact absurd creates (imageOps_creates image name).1
  · rintro ⟨op, member, creates⟩
    exact ⟨op, List.mem_append_left _ (List.mem_append_left _ member), creates⟩

theorem preparations_volumes {projectName : String} {activeServices : ActiveServices} (name : String) :
    (∃ op ∈ preparations projectName compose activeServices, op.createsVolume name) ↔ name ∈ compose.volumes.keys := by
  rw [← mem_volumeOps projectName]
  constructor
  · rintro ⟨op, member, creates⟩
    rcases List.mem_append.mp member with front | image
    · rcases List.mem_append.mp front with network | volume
      · obtain ⟨_, _, rfl⟩ := List.mem_map.mp network
        exact creates.elim
      · exact ⟨op, volume, creates⟩
    · exact absurd creates (imageOps_creates image name).2
  · rintro ⟨op, member, creates⟩
    exact ⟨op, List.mem_append_left _ (List.mem_append_right _ member), creates⟩

/-- Operations other than preparations create nothing more. -/
theorem creates_append {creates : Op → Prop} {past front : List Op}
    (only : ∀ op, creates op → op.isPreparation = true) (others : ∀ op ∈ front, op.isPreparation = false) :
    (∃ op ∈ past ++ front, creates op) ↔ ∃ op ∈ past, creates op := by
  constructor
  · rintro ⟨op, member, made⟩
    rcases List.mem_append.mp member with before | later
    · exact ⟨op, before, made⟩
    · exact absurd (only op made) (by rw [others op later]; exact Bool.false_ne_true)
  · rintro ⟨op, member, made⟩
    exact ⟨op, List.mem_append_left _ member, made⟩

theorem Attached.mono {past more : List Op} {op : Op} (attached : Attached compose past op) :
    Attached compose (past ++ more) op := by
  cases op with
  | runContainer spec =>
    refine ⟨fun name member => (attached.1 name member).imp_left ?_, fun name member => (attached.2 name member).imp_left ?_⟩
    all_goals
      rintro ⟨op, among, creates⟩
      exact ⟨op, List.mem_append_left _ among, creates⟩
  | _ => trivial

/-- A run's attachments, after operations that create all that is declared and nothing else. -/
theorem attached_iff {past : List Op} {spec : RunSpec}
    (networks : ∀ name, (∃ op ∈ past, op.createsNetwork name) ↔ name ∈ compose.networks.keys)
    (volumes : ∀ name, (∃ op ∈ past, op.createsVolume name) ↔ name ∈ compose.volumes.keys) :
    Attached compose past (.runContainer spec) ↔ (∀ name ∈ spec.attachedNetworks, name ∈ compose.networks.keys) ∧
      ∀ name ∈ spec.attachedVolumes, name ∈ compose.volumes.keys := by
  have network (name : String) : (∃ found, compose.networks.lookup name = some found ∧ found.external = true) →
      name ∈ compose.networks.keys := fun ⟨_, found, _⟩ => AList.mem_keys.mp (AList.lookup_isSome.mp (by rw [found]; rfl))
  have volume (name : String) : (∃ found, compose.volumes.lookup name = some found ∧ found.external = true) →
      name ∈ compose.volumes.keys := fun ⟨_, found, _⟩ => AList.mem_keys.mp (AList.lookup_isSome.mp (by rw [found]; rfl))
  simp only [Attached, networks, volumes]
  refine and_congr ?_ ?_
  · exact forall₂_congr fun name _ => ⟨fun either => either.elim id (network name), .inl⟩
  · exact forall₂_congr fun name _ => ⟨fun either => either.elim id (volume name), .inl⟩

/-- What a plan runs are the active services, each of them, and all that is created is created before. -/
theorem plan_runContainers (made : plan serviceHash compose opts = .ok planned) :
    ∃ projectName runs, planned.ops =
        preparations projectName compose (compose.services.filterValues (Service.active opts.profiles)) ++ runs ∧
      (∀ op ∈ runs, op.isPreparation = false) ∧
      (∀ spec, .runContainer spec ∈ runs → ∃ name service,
        (compose.services.filterValues (Service.active opts.profiles)).lookup name = some service ∧
        runSpec serviceHash projectName name service = .ok spec) ∧
      ∀ name service, (compose.services.filterValues (Service.active opts.profiles)).lookup name = some service →
        ∃ spec, .runContainer spec ∈ runs ∧ runSpec serviceHash projectName name service = .ok spec := by
  obtain ⟨projectName, graph, waves, runs, _, built, levelled, emitted, ops⟩ := plan_ok made
  have counted := plan_runs made
  generalize compose.services.filterValues (Service.active opts.profiles) = activeServices at *
  obtain ⟨final, levels, all⟩ := topologicalWaves_levels built levelled
  have names := names_perm levels all
  rw [(buildGraph_built built).sameNames] at names
  have active (spec : RunSpec) (member : .runContainer spec ∈ runs) : ∃ name service,
      activeServices.lookup name = some service ∧ runSpec serviceHash projectName name service = .ok spec := by
    obtain ⟨name, among, hashed⟩ := waveOps_runContainer emitted member
    obtain ⟨service, found⟩ := Option.isSome_iff_exists.mp (AList.lookup_isSome.mpr (AList.mem_keys.mpr (names.mem_iff.mp among)))
    rw [ActiveServices.get, found, Option.getD_some] at hashed
    exact ⟨name, service, found, hashed⟩
  refine ⟨projectName, runs, ops, fun op member => waveOps_not_isPreparation emitted member, active, ?_⟩
  intro name service found
  have known : name ∈ activeServices.keys := AList.mem_keys.mp (AList.lookup_isSome.mp (by rw [found]; rfl))
  have once := counted name
  rw [if_pos known] at once
  obtain ⟨op, member, isRun⟩ := exists_of_countP (by rw [once]; exact Nat.one_pos)
  cases op with
  | runContainer spec =>
    rw [ops] at member
    rcases List.mem_append.mp member with front | later
    · cases isPreparation_of_mem front
    · obtain ⟨other, same, there, hashed⟩ := active spec later
      obtain rfl : other = name := (runSpec_ok hashed).1.symm.trans (of_decide_eq_true isRun)
      cases found.symm.trans there
      exact ⟨spec, later, hashed⟩
  | _ => cases isRun

theorem declared_iff_refers (made : plan serviceHash compose opts = .ok planned) {projectName name : String}
    {service : Service} {spec : RunSpec}
    (found : (compose.services.filterValues (Service.active opts.profiles)).lookup name = some service)
    (hashed : runSpec serviceHash projectName name service = .ok spec) :
    ((∀ network ∈ spec.attachedNetworks, network ∈ compose.networks.keys) ∧
      ∀ volume ∈ spec.attachedVolumes, volume ∈ compose.volumes.keys) ↔ service.Refers compose := by
  obtain ⟨_, _, _, _, checked, _⟩ := plan_ok made
  obtain ⟨passed, mounted⟩ := validateReferences_ok checked found
  exact attached_declared_iff passed mounted hashed

theorem refers_of_attached (made : plan serviceHash compose opts = .ok planned)
    (attached : EachAfter (Attached compose) [] planned.ops) {name : String} {service : Service}
    (found : (compose.services.filterValues (Service.active opts.profiles)).lookup name = some service) :
    service.Refers compose := by
  obtain ⟨projectName, runs, ops, others, _, each⟩ := plan_runContainers made
  rw [ops, EachAfter.append_iff] at attached
  obtain ⟨spec, member, hashed⟩ := each name service found
  obtain ⟨front, back, split⟩ := List.append_of_mem member
  have quiet (op : Op) (before : op ∈ front) : op.isPreparation = false :=
    others op (split ▸ List.mem_append_left _ before)
  refine (declared_iff_refers made found hashed).mp
    ((attached_iff (fun name => ?_) fun name => ?_).mp (attached.2.at_split split))
  · refine (creates_append (fun op made => ?_) quiet).trans (preparations_networks name)
    cases op <;> first | rfl | exact made.elim
  · refine (creates_append (fun op made => ?_) quiet).trans (preparations_volumes name)
    cases op <;> first | rfl | exact made.elim

theorem attached_of_refers (made : plan serviceHash compose opts = .ok planned)
    (refers : ∀ name service, (compose.services.filterValues (Service.active opts.profiles)).lookup name = some service →
      service.Refers compose) : EachAfter (Attached compose) [] planned.ops := by
  obtain ⟨projectName, runs, ops, _, active, _⟩ := plan_runContainers made
  rw [ops]
  refine EachAfter.append_iff.mpr
    ⟨EachAfter.of_forall Attached.mono fun op member => ?_, EachAfter.of_forall Attached.mono fun op member => ?_⟩
  · have prepares := isPreparation_of_mem member
    cases op with
    | runContainer spec => cases prepares
    | _ => trivial
  · cases op with
    | runContainer spec =>
      obtain ⟨name, service, found, hashed⟩ := active spec member
      exact (attached_iff preparations_networks preparations_volumes).mpr
        ((declared_iff_refers made found hashed).mpr (refers name service found))
    | _ => trivial

/-- All that a run attaches to is created before it or declared external, exactly where the references
that `validate_references` leaves out are to declared networks and volumes. -/
theorem plan_attached_iff (made : plan serviceHash compose opts = .ok planned) :
    EachAfter (Attached compose) [] planned.ops ↔
      ∀ name service, (compose.services.filterValues (Service.active opts.profiles)).lookup name = some service →
        service.Refers compose :=
  ⟨fun attached _ _ found => refers_of_attached made attached found, attached_of_refers made⟩

end Planning

section Sample

/-- A service on the implicit network. -/
def onDefault : Service := { (default : Service) with image := some "app", networks := ["default"] }

def defaultNetwork : FiniteMap String Network := AList.singleton "default" {}

def appOn (declared : Bool) : Compose :=
  { projectName := none, services := AList.singleton "app" onDefault,
    networks := if declared then defaultNetwork else ∅ }

theorem appOn_planned (declared : Bool) :
    ∃ planned, plan (fun _ => .ok "") (appOn declared) ⟨[], none, []⟩ = .ok planned := by
  have planned : (plan (fun _ => .ok "") (appOn declared) ⟨[], none, []⟩).isOk = true := by
    cases declared <;> decide +kernel
  cases made : plan (fun _ => .ok "") (appOn declared) ⟨[], none, []⟩ with
  | error reason => rw [made] at planned; cases planned
  | ok found => exact ⟨found, rfl⟩

/-- The plan of a service on the implicit network runs it there and does not create the network. -/
theorem implicit_network_not_created : ∃ planned,
    plan (fun _ => .ok "") (appOn false) ⟨[], none, []⟩ = .ok planned ∧
      ¬ EachAfter (Attached (appOn false)) [] planned.ops := by
  obtain ⟨planned, made⟩ := appOn_planned false
  refine ⟨planned, made, fun attached => ?_⟩
  have active : ((appOn false).services.filterValues (Service.active [])).lookup "app" = some onDefault := rfl
  have refers := refers_of_attached made attached active
  exact List.not_mem_nil (refers.defaultNetwork rfl (List.mem_singleton.mpr rfl))

theorem declared_network_created : ∃ planned,
    plan (fun _ => .ok "") (appOn true) ⟨[], none, []⟩ = .ok planned ∧
      EachAfter (Attached (appOn true)) [] planned.ops := by
  obtain ⟨planned, made⟩ := appOn_planned true
  refine ⟨planned, made, (plan_attached_iff made).mpr fun name service found => ?_⟩
  rw [FiniteMap.lookup_filterValues] at found
  obtain ⟨held, _⟩ := Option.filter_eq_some_iff.mp found
  cases List.mem_singleton.mp (FiniteMap.mem_toList.mpr held)
  exact ⟨fun _ _ => List.mem_singleton.mpr rfl, fun _ given => (by cases given), fun _ listed => absurd listed List.not_mem_nil⟩

end Sample
end Burble.SelurCompose
