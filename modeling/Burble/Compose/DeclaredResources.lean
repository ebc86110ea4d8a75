import Burble.Walk
import Burble.Compose.PlanClosure

namespace Burble.SelurCompose

/-! Networks and volumes as they are declared and as they are planned. -/

/-- The properties that a network declares are those of the other. -/
structure Network.Declares (network other : Network) : Prop where
  driver : network.driver ≠ none → other.driver = network.driver
  driverOpts : network.driverOpts ≠ ∅ → other.driverOpts = network.driverOpts
  name : network.name ≠ none → other.name = network.name
  ipam : network.ipam.isSome → other.ipam = network.ipam
  labels : network.labels ≠ ∅ → other.labels = network.labels
  internal : network.internal = true → other.internal = true

structure Volume.Declares (volume other : Volume) : Prop where
  driver : volume.driver ≠ none → other.driver = volume.driver
  driverOpts : volume.driverOpts ≠ ∅ → other.driverOpts = volume.driverOpts
  name : volume.name ≠ none → other.name = volume.name
  labels : volume.labels ≠ ∅ → other.labels = volume.labels

/-- One operation creates the resource, and no container runs before it. -/
def CreatedOnce (creates : Op → Prop) (ops : List Op) : Prop :=
  ∃ front op back, ops = front ++ op :: back ∧ creates op ∧ (∀ other ∈ front ++ back, ¬ creates other) ∧
    ∀ spec, Op.runContainer spec ∉ front

section Declared
variable (serviceHash : Service → Except String String) (compose : Compose) (ops : List Op)

/-- The creation of a network tells it from the networks that other projects declare under its name. -/
def NetworkDetermined (name : String) (network : Network) : Prop :=
  ∀ op ∈ ops, op.createsNetwork name → ∀ project opts planned other, plan serviceHash project opts = .ok planned →
    op ∈ planned.ops → project.networks.lookup name = some other → network.Declares other

def VolumeDetermined (name : String) (volume : Volume) : Prop :=
  ∀ op ∈ ops, op.createsVolume name → ∀ project opts planned other, plan serviceHash project opts = .ok planned →
    op ∈ planned.ops → project.volumes.lookup name = some other → volume.Declares other

/-- External resources are not created, the others once, with all that is declared. -/
structure ResourcesAsDeclared : Prop where
  networks (name : String) (network : Network) : compose.networks.lookup name = some network →
    if network.external then ∀ op ∈ ops, ¬ op.createsNetwork name
    else CreatedOnce (Op.createsNetwork name) ops ∧ NetworkDetermined serviceHash ops name network
  volumes (name : String) (volume : Volume) : compose.volumes.lookup name = some volume →
    if volume.external then ∀ op ∈ ops, ¬ op.createsVolume name
    else CreatedOnce (Op.createsVolume name) ops ∧ VolumeDetermined serviceHash ops name volume

end Declared

/-- A network of which only the driver is left. -/
def Network.bare (network : Network) : Network := { driver := network.driver }

def Volume.bare (volume : Volume) : Volume := { driver := volume.driver }

def Compose.bare (compose : Compose) : Compose :=
  { compose with
    networks := compose.networks.mapValues Network.bare, volumes := compose.volumes.mapValues Volume.bare }

section Bare
variable (compose : Compose)

theorem validateReferences_bare (activeServices : ActiveServices) :
    validateReferences compose.bare activeServices = validateReferences compose activeServices := by
  have networks : checkNetwork compose.bare = checkNetwork compose := by
    funext service network
    simp only [checkNetwork, Compose.bare, FiniteMap.size_mapValues, FiniteMap.keys_mapValues_eq]
  have mounts : checkMount compose.bare = checkMount compose := by
    funext service mount
    simp only [checkMount, Compose.bare, FiniteMap.keys_mapValues_eq]
  rw [validateReferences, validateReferences, networks, mounts]

theorem networkOps_bare (projectName : String) : networkOps projectName compose.bare = networkOps projectName compose := by
  simp only [networkOps, Compose.bare, FiniteMap.toList, FiniteMap.mapValues, List.map_map]
  rfl

theorem volumeOps_bare (projectName : String) : volumeOps projectName compose.bare = volumeOps projectName compose := by
  simp only [volumeOps, Compose.bare, FiniteMap.toList, FiniteMap.mapValues, List.map_map]
  rfl

/-- A project is planned as though its networks and volumes had nothing but drivers. -/
theorem plan_bare (serviceHash : Service → Except String String) (opts : PlanOptions) :
    plan serviceHash compose.bare opts = plan serviceHash compose opts := by
  unfold plan
  simp only [validateReferences_bare, networkOps_bare, volumeOps_bare]
  rfl

end Bare

/-- The operation made for an entry stands once among those for all entries. -/
theorem map_toList_once {Item : Type} {entries : FiniteMap String Item} {name : String} {item : Item}
    (found : entries.lookup name = some item) (make : String × Item → Op) (creates : Op → Prop)
    (makes : ∀ entry, creates (make entry) ↔ entry.1 = name) :
    ∃ front back, entries.toList.map make = front ++ make (name, item) :: back ∧ ∀ op ∈ front ++ back, ¬ creates op := by
  obtain ⟨before, after, split⟩ := List.append_of_mem (FiniteMap.mem_toList.mpr found)
  have distinct : (entries.toList.map Prod.fst).Nodup := FiniteMap.distinct_keys entries
  refine ⟨before.map make, after.map make, by rw [split, List.map_append, List.map_cons], fun op member creating => ?_⟩
  rw [← List.map_append] at member
  obtain ⟨entry, among, rfl⟩ := List.mem_map.mp member
  rw [split, List.map_append, List.map_cons] at distinct
  have same : entry.1 = name := (makes entry).mp creating
  have again : name ∈ (before ++ after).map Prod.fst := same ▸ List.mem_map_of_mem among
  have apart : (name :: (before ++ after).map Prod.fst).Nodup := by
    rw [List.map_append]
    exact (List.perm_middle.nodup_iff).mp distinct
  exact (List.nodup_cons.mp apart).1 again

section Planning
variable {serviceHash : Service → Except String String} {compose : Compose} {opts : PlanOptions} {planned : Plan}

/-- The parts of a plan: networks, volumes, and what creates neither. -/
theorem plan_parts (made : plan serviceHash compose opts = .ok planned) :
    ∃ projectName rest, planned.ops = networkOps projectName compose ++ (volumeOps projectName compose ++ rest) ∧
      ∀ op ∈ rest, ∀ name, ¬ op.createsNetwork name ∧ ¬ op.createsVolume name := by
  obtain ⟨projectName, graph, waves, runs, _, _, _, emitted, ops⟩ := plan_ok made
  refine ⟨projectName, _, by rw [ops, List.append_assoc, List.append_assoc], fun op member name => ?_⟩
  rcases List.mem_append.mp member with image | run
  · exact imageOps_creates image name
  · have later := waveOps_not_isPreparation emitted run
    cases op with
    | createNetwork | createVolume => cases later
    | _ => exact ⟨id, id⟩

theorem plan_creates_network (made : plan serviceHash compose opts = .ok planned) {name : String} {network : Network}
    (found : compose.networks.lookup name = some network) : CreatedOnce (Op.createsNetwork name) planned.ops := by
  obtain ⟨projectName, rest, ops, others⟩ := plan_parts made
  have listing : networkOps projectName compose = compose.networks.toList.map fun entry =>
      .createNetwork ⟨entry.1, entry.2.driver, projectLabel projectName⟩ := rfl
  obtain ⟨front, back, split, once⟩ := map_toList_once found
    (fun entry => .createNetwork ⟨entry.1, entry.2.driver, projectLabel projectName⟩) (Op.createsNetwork name)
    fun entry => Iff.rfl
  refine ⟨front, .createNetwork ⟨name, network.driver, projectLabel projectName⟩,
    back ++ (volumeOps projectName compose ++ rest), ?_, rfl, fun op member => ?_, fun spec run => ?_⟩
  · rw [ops, listing, split, List.append_assoc, List.cons_append]
  · rw [← List.append_assoc] at member
    rcases List.mem_append.mp member with near | far
    · exact once op near
    · rcases List.mem_append.mp far with volume | late
      · obtain ⟨entry, _, rfl⟩ := List.mem_map.mp volume
        exact id
      · exact (others op late name).1
  · have listed : Op.runContainer spec ∈ networkOps projectName compose := by
      rw [listing, split]
      exact List.mem_append_left _ run
    obtain ⟨entry, _, same⟩ := List.mem_map.mp listed
    cases same

theorem plan_creates_volume (made : plan serviceHash compose opts = .ok planned) {name : String} {volume : Volume}
    (found : compose.volumes.lookup name = some volume) : CreatedOnce (Op.createsVolume name) planned.ops := by
  obtain ⟨projectName, rest, ops, others⟩ := plan_parts made
  have listing : volumeOps projectName compose = compose.volumes.toList.map fun entry =>
      .createVolume ⟨entry.1, entry.2.driver, projectLabel projectName⟩ := rfl
  obtain ⟨front, back, split, once⟩ := map_toList_once found
    (fun entry => .createVolume ⟨entry.1, entry.2.driver, projectLabel projectName⟩) (Op.createsVolume name)
    fun entry => Iff.rfl
  have networks : ∀ op ∈ networkOps projectName compose, ¬ op.createsVolume name := by
    intro op member
    obtain ⟨entry, _, rfl⟩ := List.mem_map.mp member
    exact id
  refine ⟨networkOps projectName compose ++ front, .createVolume ⟨name, volume.driver, projectLabel projectName⟩,
    back ++ rest, ?_, rfl, fun op member => ?_, fun spec run => ?_⟩
  · rw [ops, listing, split, List.append_assoc, List.append_assoc, List.cons_append]
  · rcases List.mem_append.mp member with early | late
    · rcases List.mem_append.mp early with network | near
      · exact networks op network
      · exact once op (List.mem_append_left _ near)
    · rcases List.mem_append.mp late with near | far
      · exact once op (List.mem_append_right _ near)
      · exact (others op far name).2
  · rcases List.mem_append.mp run with network | near
    · obtain ⟨entry, _, same⟩ := List.mem_map.mp network
      cases same
    · have listed : Op.runContainer spec ∈ volumeOps projectName compose := by
        rw [listing, split]
        exact List.mem_append_left _ near
      obtain ⟨entry, _, same⟩ := List.mem_map.mp listed
      cases same

/-- The driver of a planned network is the declared one. -/
theorem plan_network_driver (made : plan serviceHash compose opts = .ok planned) {name : String} {network : Network}
    (found : compose.networks.lookup name = some network) {spec : NetworkSpec}
    (member : Op.createNetwork spec ∈ planned.ops) (named : spec.name = name) : spec.driver = network.driver := by
  obtain ⟨projectName, rest, ops, others⟩ := plan_parts made
  rw [ops] at member
  rcases List.mem_append.mp member with here | later
  · obtain ⟨⟨other, declared⟩, listed, same⟩ := List.mem_map.mp here
    cases same
    subst named
    rw [FiniteMap.mem_toList, found] at listed
    cases listed
    rfl
  · rcases List.mem_append.mp later with volume | late
    · obtain ⟨entry, _, same⟩ := List.mem_map.mp volume
      cases same
    · exact absurd named (others _ late name).1

theorem plan_volume_driver (made : plan serviceHash compose opts = .ok planned) {name : String} {volume : Volume}
    (found : compose.volumes.lookup name = some volume) {spec : VolumeSpec}
    (member : Op.createVolume spec ∈ planned.ops) (named : spec.name = name) : spec.driver = volume.driver := by
  obtain ⟨projectName, rest, ops, others⟩ := plan_parts made
  rw [ops] at member
  rcases List.mem_append.mp member with here | later
  · obtain ⟨entry, _, same⟩ := List.mem_map.mp here
    cases same
  · rcases List.mem_append.mp later with volume | late
    · obtain ⟨⟨other, declared⟩, listed, same⟩ := List.mem_map.mp volume
      cases same
      subst named
      rw [FiniteMap.mem_toList, found] at listed
      cases listed
      rfl
    · exact absurd named (others _ late name).2

theorem Network.bare_of_declares {network : Network} (internal : network.external = false)
    (declares : network.Declares network.bare) : network = network.bare := by
  obtain ⟨driver, driverOpts, external, name, ipam, labels, isInternal⟩ := network
  have noOpts : driverOpts = ∅ := by_contra fun some => some (declares.driverOpts some).symm
  have noName : name = none := by_contra fun some => some (declares.name some).symm
  have noIpam : ipam = none := by
    cases ipam with
    | none => rfl
    | some ipam => exact nomatch declares.ipam rfl
  have noLabels : labels = ∅ := by_contra fun some => some (declares.labels some).symm
  have connected : isInternal = false := by_contra fun some =>
    Bool.false_ne_true (declares.internal (Bool.eq_true_of_not_eq_false some))
  subst noOpts noName noIpam noLabels connected internal
  rfl

theorem Volume.bare_of_declares {volume : Volume} (internal : volume.external = false)
    (declares : volume.Declares volume.bare) : volume = volume.bare := by
  obtain ⟨driver, driverOpts, external, name, labels⟩ := volume
  have noOpts : driverOpts = ∅ := by_contra fun some => some (declares.driverOpts some).symm
  have noName : name = none := by_contra fun some => some (declares.name some).symm
  have noLabels : labels = ∅ := by_contra fun some => some (declares.labels some).symm
  subst noOpts noName noLabels internal
  rfl

theorem CreatedOnce.exists {creates : Op → Prop} {ops : List Op} (once : CreatedOnce creates ops) :
    ∃ op ∈ ops, creates op := by
  obtain ⟨front, op, back, rfl, creating, _⟩ := once
  exact ⟨op, List.mem_append_right _ List.mem_cons_self, creating⟩

theorem network_bare_of_declared (made : plan serviceHash compose opts = .ok planned)
    (declared : ResourcesAsDeclared serviceHash compose planned.ops) {name : String} {network : Network}
    (found : compose.networks.lookup name = some network) : network = network.bare := by
  obtain ⟨op, member, creates⟩ := (plan_creates_network made found).exists
  have asDeclared := declared.networks name network found
  cases external : network.external with
  | true =>
    rw [if_pos external] at asDeclared
    exact absurd creates (asDeclared op member)
  | false =>
    rw [if_neg (by rw [external]; exact Bool.false_ne_true)] at asDeclared
    have bare : compose.bare.networks.lookup name = some network.bare := by
      rw [Compose.bare, FiniteMap.lookup_mapValues, found, Option.map_some]
    exact Network.bare_of_declares external (asDeclared.2 op member creates compose.bare opts planned _
      ((plan_bare compose serviceHash opts).trans made) member bare)

theorem volume_bare_of_declared (made : plan serviceHash compose opts = .ok planned)
    (declared : ResourcesAsDeclared serviceHash compose planned.ops) {name : String} {volume : Volume}
    (found : compose.volumes.lookup name = some volume) : volume = volume.bare := by
  obtain ⟨op, member, creates⟩ := (plan_creates_volume made found).exists
  have asDeclared := declared.volumes name volume found
  cases external : volume.external with
  | true =>
    rw [if_pos external] at asDeclared
    exact absurd creates (asDeclared op member)
  | false =>
    rw [if_neg (by rw [external]; exact Bool.false_ne_true)] at asDeclared
    have bare : compose.bare.volumes.lookup name = some volume.bare := by
      rw [Compose.bare, FiniteMap.lookup_mapValues, found, Option.map_some]
    exact Volume.bare_of_declares external (asDeclared.2 op member creates compose.bare opts planned _
      ((plan_bare compose serviceHash opts).trans made) member bare)

theorem networkDetermined_of_bare (made : plan serviceHash compose opts = .ok planned) {name : String}
    {network : Network} (found : compose.networks.lookup name = some network) (bare : network = network.bare) :
    NetworkDetermined serviceHash planned.ops name network := by
  intro op member creates project opts' planned' other made' member' found'
  cases op with
  | createNetwork spec =>
    have same : other.driver = network.driver :=
      (plan_network_driver made' found' member' creates).symm.trans (plan_network_driver made found member creates)
    rw [bare]
    exact ⟨fun _ => same, fun some => absurd rfl some, fun some => absurd rfl some, fun some => (by cases some),
      fun some => absurd rfl some, fun some => (by cases some)⟩
  | _ => exact creates.elim

theorem volumeDetermined_of_bare (made : plan serviceHash compose opts = .ok planned) {name : String}
    {volume : Volume} (found : compose.volumes.lookup name = some volume) (bare : volume = volume.bare) :
    VolumeDetermined serviceHash planned.ops name volume := by
  intro op member creates project opts' planned' other made' member' found'
  cases op with
  | createVolume spec =>
    have same : other.driver = volume.driver :=
      (plan_volume_driver made' found' member' creates).symm.trans (plan_volume_driver made found member creates)
    rw [bare]
    exact ⟨fun _ => same, fun some => absurd rfl some, fun some => absurd rfl some, fun some => absurd rfl some⟩
  | _ => exact creates.elim

/-- Resources are created as declared where every network and volume declares a driver at most. -/
theorem resourcesAsDeclared_iff (made : plan serviceHash compose opts = .ok planned) :
    ResourcesAsDeclared serviceHash compose planned.ops ↔
      (∀ name network, compose.networks.lookup name = some network → network = { driver := network.driver }) ∧
        ∀ name volume, compose.volumes.lookup name = some volume → volume = { driver := volume.driver } := by
  constructor
  · intro declared
    exact ⟨fun _ _ found => network_bare_of_declared made declared found,
      fun _ _ found => volume_bare_of_declared made declared found⟩
  · rintro ⟨networks, volumes⟩
    constructor
    · intro name network found
      have bare := networks name network found
      rw [if_neg (by rw [bare]; exact Bool.false_ne_true)]
      exact ⟨plan_creates_network made found, networkDetermined_of_bare made found bare⟩
    · intro name volume found
      have bare := volumes name volume found
      rw [if_neg (by rw [bare]; exact Bool.false_ne_true)]
      exact ⟨plan_creates_volume made found, volumeDetermined_of_bare made found bare⟩

theorem resourcesAsDeclared_appOn : ∃ planned, plan (fun _ => .ok "") (appOn true) ⟨[], none, []⟩ = .ok planned ∧
    ResourcesAsDeclared (fun _ => .ok "") (appOn true) planned.ops := by
  obtain ⟨planned, made⟩ := appOn_planned true
  refine ⟨planned, made, (resourcesAsDeclared_iff made).mpr ⟨fun name network found => ?_, fun name volume found => ?_⟩⟩
  · have same : network = {} := by
      by_cases named : name = "default"
      · subst named
        exact (Option.some.inj found).symm
      · have absent : (appOn true).networks.lookup name = none := AList.lookup_eq_none.mpr fun member =>
          named (List.mem_singleton.mp (AList.mem_keys.mp member))
        exact nomatch found.symm.trans absent
    rw [same]
  · cases found

/-- An internal network and an app on it. -/
def internalNetwork : Compose :=
  { appOn true with networks := AList.singleton "default" { internal := true } }

/-- A network that is declared internal is created as any other. -/
theorem internal_network_not_determined : ∃ planned,
    plan (fun _ => .ok "") internalNetwork ⟨[], none, []⟩ = .ok planned ∧
      ¬ ResourcesAsDeclared (fun _ => .ok "") internalNetwork planned.ops := by
  obtain ⟨planned, made⟩ := appOn_planned true
  have same : plan (fun _ => .ok "") internalNetwork ⟨[], none, []⟩ = .ok planned := by
    rw [← plan_bare]
    exact made
  refine ⟨planned, same, fun declared => ?_⟩
  have found : internalNetwork.networks.lookup "default" = some { internal := true } := rfl
  have bare := network_bare_of_declared same declared found
  exact Bool.false_ne_true (congrArg Network.internal bare).symm

end Planning

end Burble.SelurCompose
