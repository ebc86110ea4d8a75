import Burble.Compose.PlanClosure

namespace Burble.SelurCompose

/-! A project whose services are all changed where the planner does not look. -/

/-- Two services that are run alike, apart from their hashes. -/
structure Service.RunsAs (service other : Service) : Prop where
  image : service.image = other.image
  build : service.build = other.build
  command : service.command = other.command
  entrypoint : service.entrypoint = other.entrypoint
  environment : service.environment = other.environment
  ports : service.ports = other.ports
  volumes : service.volumes = other.volumes
  networks : service.networks = other.networks
  networkMode : service.networkMode.map NetworkMode.text = other.networkMode.map NetworkMode.text
  dependsOn : service.dependsOn = other.dependsOn
  restart : service.restart = other.restart
  profiles : service.profiles = other.profiles

def Compose.mapServices (change : Service → Service) (compose : Compose) : Compose :=
  { compose with services := compose.services.mapValues change }

/-- Operations that are equal, or runs whose specifications are related. -/
def RunsRelated (related : RunSpec → RunSpec → Prop) (op other : Op) : Prop :=
  op = other ∨ ∃ spec spec', op = .runContainer spec ∧ other = .runContainer spec' ∧ related spec spec'

theorem exists_related {Item Other : Type} {related : Item → Other → Prop} {items : List Item} {others : List Other}
    (paired : List.Forall₂ related items others) {item : Item} (member : item ∈ items) :
    ∃ other ∈ others, related item other := by
  induction paired with
  | nil => cases member
  | cons first _ ih =>
    rcases List.mem_cons.mp member with rfl | later
    · exact ⟨_, List.mem_cons_self, first⟩
    · obtain ⟨other, among, similar⟩ := ih later
      exact ⟨other, List.mem_cons_of_mem _ among, similar⟩

section Mapped
variable {change : Service → Service} (alike : ∀ service, (change service).RunsAs service) {activeServices : ActiveServices}

include alike

theorem filterValues_mapped (profiles : List String) (services : FiniteMap String Service) :
    (services.mapValues change).filterValues (Service.active profiles) =
      (services.filterValues (Service.active profiles)).mapValues change := by
  refine AList.ext ?_
  simp only [FiniteMap.filterValues, FiniteMap.mapValues, List.filter_map]
  congr 2
  funext entry
  simp only [Function.comp, Service.active, (alike entry.2).profiles]

theorem filterServices_mapped (compose : Compose) (profiles : List String) :
    filterServices (compose.mapServices change) profiles =
      (filterServices compose profiles).map fun active => active.mapValues change := by
  have all : (compose.mapServices change).services.toList.flatMap (fun entry => entry.2.profiles) =
      compose.services.toList.flatMap fun entry => entry.2.profiles := by
    simp only [Compose.mapServices, FiniteMap.toList, FiniteMap.mapValues, List.flatMap_map, (alike _).profiles]
  simp only [filterServices, all]
  split
  · rfl
  · exact congrArg Except.ok (filterValues_mapped alike profiles compose.services)

theorem validateReferences_mapped (compose : Compose) :
    validateReferences (compose.mapServices change) (activeServices.mapValues change) =
      validateReferences compose activeServices := by
  have entries : FiniteMap.toList (activeServices.mapValues change) =
      activeServices.toList.map fun entry => (entry.1, change entry.2) := by
    simp only [FiniteMap.toList, FiniteMap.mapValues, List.map_map, Function.comp_def]
  simp only [validateReferences, entries, List.forM_eq_forM, List.forM_map, (alike _).networks, (alike _).volumes]
  rfl

theorem buildGraph_mapped : buildGraph (activeServices.mapValues change) = buildGraph activeServices := by
  have same : dependencies (activeServices.mapValues change) = dependencies activeServices := by
    simp only [dependencies, FiniteMap.toList, FiniteMap.mapValues, List.map_map, List.flatMap_map, depsOf,
      (alike _).dependsOn, Function.comp_def]
  rw [buildGraph, buildGraph, same, FiniteMap.keys_mapValues_eq]

theorem imageOps_mapped (projectName : String) :
    imageOps projectName (activeServices.mapValues change) = imageOps projectName activeServices := by
  simp only [imageOps, FiniteMap.toList, FiniteMap.mapValues, List.map_map, List.filterMap_map, imageOp,
    (alike _).build, (alike _).image, Function.comp_def]

theorem waitOps_mapped (projectName : String) {names : List String} (known : ∀ name ∈ names, name ∈ activeServices.keys)
    (emitted : List String) :
    waitOps projectName (activeServices.mapValues change) names emitted = waitOps projectName activeServices names emitted := by
  have healthy (name : String) (member : name ∈ names) :
      healthyDependencies (ActiveServices.get (activeServices.mapValues change) name) =
        healthyDependencies (activeServices.get name) := by
    obtain ⟨service, found⟩ := Option.isSome_iff_exists.mp
      (AList.lookup_isSome.mpr (AList.mem_keys.mpr (known name member)))
    rw [ActiveServices.get, ActiveServices.get, FiniteMap.lookup_mapValues, found, Option.map_some, Option.getD_some,
      Option.getD_some, healthyDependencies, healthyDependencies, (alike service).dependsOn]
  rw [waitOps, waitOps, List.flatMap_congr healthy]

section Hashes
variable {hash hash' : Service → Except String String} {related : RunSpec → RunSpec → Prop} {projectName : String}
  (specs : ∀ name service, activeServices.lookup name = some service → ∀ spec,
    runSpec hash projectName name service = .ok spec →
      ∃ spec', runSpec hash' projectName name (change service) = .ok spec' ∧ related spec spec')

include specs

omit alike in
theorem runOps_mapped {names : List String} (known : ∀ name ∈ names, name ∈ activeServices.keys) {ops : List Op}
    (made : runOps hash projectName activeServices names = .ok ops) :
    ∃ ops', runOps hash' projectName (activeServices.mapValues change) names = .ok ops' ∧
      List.Forall₂ (RunsRelated related) ops ops' := by
  induction names generalizing ops with
  | nil =>
    cases made
    exact ⟨[], rfl, .nil⟩
  | cons name rest ih =>
    rw [runOps, List.mapM_cons] at made
    obtain ⟨op, first, made⟩ := Fallible.bind_ok.mp made
    obtain ⟨later, others, made⟩ := Fallible.bind_ok.mp made
    cases made
    obtain ⟨spec, built, same⟩ := Fallible.bind_ok.mp first
    cases same
    obtain ⟨service, found⟩ := Option.isSome_iff_exists.mp
      (AList.lookup_isSome.mpr (AList.mem_keys.mpr (known name List.mem_cons_self)))
    rw [ActiveServices.get, found, Option.getD_some] at built
    obtain ⟨spec', built', similar⟩ := specs name service found spec built
    obtain ⟨later', others', all⟩ := ih (fun other member => known other (List.mem_cons_of_mem _ member)) others
    refine ⟨.runContainer spec' :: later', ?_, .cons (.inr ⟨spec, spec', rfl, rfl, similar⟩) all⟩
    have get : ActiveServices.get (activeServices.mapValues change) name = change service := by
      rw [ActiveServices.get, FiniteMap.lookup_mapValues, found, Option.map_some, Option.getD_some]
    rw [runOps, List.mapM_cons, get, built']
    rw [runOps] at others'
    simp only [bind, Except.bind, pure, Except.pure] at others' ⊢
    rw [others']

theorem waveOps_mapped {waves : List (List String)} (known : ∀ wave ∈ waves, ∀ name ∈ wave, name ∈ activeServices.keys)
    {emitted : List String} {ops : List Op} (made : waveOps hash projectName activeServices waves emitted = .ok ops) :
    ∃ ops', waveOps hash' projectName (activeServices.mapValues change) waves emitted = .ok ops' ∧
      List.Forall₂ (RunsRelated related) ops ops' := by
  induction waves generalizing emitted ops with
  | nil =>
    cases made
    exact ⟨[], rfl, .nil⟩
  | cons names rest ih =>
    obtain ⟨runs, later, some, others, rfl⟩ := waveOps_cons made
    have here := known names List.mem_cons_self
    obtain ⟨runs', some', run⟩ := runOps_mapped specs here some
    obtain ⟨later', others', all⟩ := ih (fun wave member => known wave (List.mem_cons_of_mem _ member)) others
    refine ⟨(waitOps projectName activeServices names emitted).1 ++ runs' ++ later', ?_, ?_⟩
    · rw [waveOps, waitOps_mapped alike projectName here, some']
      simp only [bind, Except.bind]
      rw [others']
    · have waits : List.Forall₂ (RunsRelated related) (waitOps projectName activeServices names emitted).1
          (waitOps projectName activeServices names emitted).1 := List.forall₂_same.mpr fun op _ => Or.inl rfl
      exact List.rel_append (List.rel_append waits run) all

end Hashes

end Mapped

section Planning
variable {hash hash' : Service → Except String String} {related : RunSpec → RunSpec → Prop} {compose : Compose}
  {opts : PlanOptions} {planned : Plan} {change : Service → Service}

/-- Where the services of a project are changed out of the planner's sight, its plan is changed in the runs alone. -/
theorem plan_mapped (made : plan hash compose opts = .ok planned) (alike : ∀ service, (change service).RunsAs service)
    (specs : ∀ projectName name service, (compose.services.filterValues (Service.active opts.profiles)).lookup name =
      some service → ∀ spec, runSpec hash projectName name service = .ok spec →
        ∃ spec', runSpec hash' projectName name (change service) = .ok spec' ∧ related spec spec') :
    ∃ planned', plan hash' (compose.mapServices change) opts = .ok planned' ∧
      List.Forall₂ (RunsRelated related) planned.ops planned'.ops := by
  obtain ⟨activeServices, filtered, made⟩ := Fallible.bind_ok.mp made
  have filtered' : filterServices (compose.mapServices change) opts.profiles = .ok (activeServices.mapValues change) := by
    rw [filterServices_mapped alike, filtered]
    rfl
  rw [← filterServices_ok filtered] at specs
  have keys : (activeServices.mapValues change).keys = activeServices.keys := FiniteMap.keys_mapValues_eq _ _
  split at made
  · cases made
  next listed =>
    obtain ⟨_, checked, made⟩ := Fallible.bind_ok.mp made
    obtain ⟨graph, built, made⟩ := Fallible.bind_ok.mp made
    obtain ⟨waves, levelled, made⟩ := Fallible.bind_ok.mp made
    obtain ⟨runs, emitted, made⟩ := Fallible.bind_ok.mp made
    cases made
    obtain ⟨final, levels, all⟩ := topologicalWaves_levels built levelled
    have names := names_perm levels all
    rw [(buildGraph_built built).sameNames] at names
    have known : ∀ wave ∈ waves.map fun wave => wave.map graph.name, ∀ name ∈ wave, name ∈ activeServices.keys :=
      fun wave member name inside => names.mem_iff.mp (List.mem_flatten_of_mem member inside)
    obtain ⟨runs', emitted', similar⟩ := waveOps_mapped alike (specs _) known emitted
    have listed' : opts.services.find? (fun service => service ∉ (activeServices.mapValues change).keys) = none := by
      rw [keys]
      exact listed
    have made' : plan hash' (compose.mapServices change) opts = .ok
        ⟨networkOps ((opts.projectName.or compose.projectName).getD "project") compose ++
          volumeOps ((opts.projectName.or compose.projectName).getD "project") compose ++
          imageOps ((opts.projectName.or compose.projectName).getD "project") activeServices ++ runs', waves,
          (opts.projectName.or compose.projectName).getD "project"⟩ := by
      rw [plan, filtered']
      simp only [bind, Except.bind]
      rw [listed']
      simp only [validateReferences_mapped alike, checked, buildGraph_mapped alike, built, levelled,
        imageOps_mapped alike]
      have project : (compose.mapServices change).projectName = compose.projectName := rfl
      rw [project, emitted']
      rfl
    have same (ops : List Op) : List.Forall₂ (RunsRelated related) ops ops := List.forall₂_same.mpr fun op _ => Or.inl rfl
    exact ⟨_, made', List.rel_append (same _) similar⟩

end Planning

end Burble.SelurCompose
