import Mathlib.Data.List.GetD
import Burble.Fallible
import Burble.Runs
import Burble.Compose.DagLevels
import Burble.Compose.Plan

namespace Burble.SelurCompose

def Op.runs (name : String) : Op → Bool
  | runContainer spec => spec.service = name
  | _ => false

def Op.waits (name : String) : Op → Bool
  | waitHealthy spec => spec.service = name
  | _ => false

/-- The operation gets a service its image. -/
def Op.provides (name image : String) : Op → Prop
  | buildImage spec => spec.service = name ∧ spec.tag = image
  | pullImage spec => spec.service = name ∧ spec.image = image
  | _ => False

/-- What an operation needs before it: a run its image, the runs of what its service depends on
and the waits for what it wants healthy; a wait the run of what it waits for. -/
def Prepared (activeServices : ActiveServices) (past : List Op) : Op → Prop
  | .runContainer spec =>
    ((activeServices.get spec.service).build.isSome ∨ (activeServices.get spec.service).image.isSome →
      ∃ op ∈ past, op.provides spec.service spec.image) ∧
    (∀ dep kind, (dep, kind) ∈ depsOf (activeServices.get spec.service) → ∃ op ∈ past, op.runs dep = true) ∧
    ∀ dep ∈ healthyDependencies (activeServices.get spec.service), ∃ op ∈ past, op.waits dep = true
  | .waitHealthy spec => ∃ op ∈ past, op.runs spec.service = true
  | _ => True

/-- A plan in order: one run for each active service and no other, one wait for each service
that some active one wants healthy and no other, and before each operation what it needs. -/
structure InOrder (activeServices : ActiveServices) (ops : List Op) : Prop where
  runs : ∀ name, ops.countP (Op.runs name) = if name ∈ activeServices.keys then 1 else 0
  waits : ∀ dep, ops.countP (Op.waits dep) =
    if ∃ name ∈ activeServices.keys, dep ∈ healthyDependencies (activeServices.get name) then 1 else 0
  prepared : EachAfter (Prepared activeServices) [] ops

variable {activeServices : ActiveServices} {projectName : String}

theorem Prepared.mono {past more : List Op} {op : Op} (prepared : Prepared activeServices past op) :
    Prepared activeServices (past ++ more) op := by
  have grown {holds : Op → Prop} (found : ∃ op ∈ past, holds op) : ∃ op ∈ past ++ more, holds op := by
    obtain ⟨op, member, held⟩ := found
    exact ⟨op, List.mem_append_left _ member, held⟩
  cases op with
  | runContainer spec =>
    exact ⟨fun declared => grown (prepared.1 declared), fun dep kind member => grown (prepared.2.1 dep kind member),
      fun dep member => grown (prepared.2.2 dep member)⟩
  | waitHealthy spec => exact grown prepared
  | _ => trivial

section Waits

theorem emitWait_emitted (deps : List String) (state : List Op × List String) (dep : String) :
    dep ∈ (deps.foldl (emitWait projectName) state).2 ↔ dep ∈ state.2 ∨ dep ∈ deps := by
  induction deps generalizing state with
  | nil => simp
  | cons head rest ih =>
    rw [List.foldl_cons, ih, emitWait]
    split
    next known =>
      rw [List.mem_cons]
      exact ⟨fun either => either.imp_right .inr, fun either => either.elim .inl fun later =>
        later.elim (fun same => .inl (same ▸ known)) .inr⟩
    next =>
      simp only [List.mem_cons]
      tauto

theorem emitWait_waits (deps : List String) (state : List Op × List String) (dep : String) :
    (deps.foldl (emitWait projectName) state).1.countP (Op.waits dep) =
      state.1.countP (Op.waits dep) + if dep ∈ deps ∧ dep ∉ state.2 then 1 else 0 := by
  induction deps generalizing state with
  | nil => simp
  | cons head rest ih =>
    rw [List.foldl_cons, ih, emitWait]
    by_cases known : head ∈ state.2
    · rw [if_pos known]
      have same : dep ∈ head :: rest ∧ dep ∉ state.2 ↔ dep ∈ rest ∧ dep ∉ state.2 := by
        rw [List.mem_cons]
        refine and_congr_left fun fresh => or_iff_right fun equal => fresh (equal ▸ known)
      simp only [same]
    · rw [if_neg known, List.countP_append]
      by_cases here : dep = head
      · subst here
        simp [known, Op.waits]
      · have other : ¬ head = dep := fun same => here same.symm
        simp [here, other, Op.waits]

theorem emitWait_ops {deps : List String} {state : List Op × List String} {op : Op}
    (member : op ∈ (deps.foldl (emitWait projectName) state).1) :
    op ∈ state.1 ∨ ∃ dep ∈ deps, op = .waitHealthy ⟨dep, containerName projectName dep⟩ := by
  induction deps generalizing state with
  | nil => exact .inl member
  | cons head rest ih =>
    rcases ih member with before | ⟨dep, among, made⟩
    · rw [emitWait] at before
      split at before
      · exact .inl before
      · rcases List.mem_append.mp before with earlier | now
        · exact .inl earlier
        · exact .inr ⟨head, List.mem_cons_self, List.mem_singleton.mp now⟩
    · exact .inr ⟨dep, List.mem_cons_of_mem _ among, made⟩

end Waits

section Runs
variable {serviceHash : Service → Except String String}

/-- The image a service is run from. -/
def runImage (projectName name : String) (service : Service) : String :=
  if service.build.isSome then buildTag projectName name else service.image.getD ""

theorem runSpec_ok {name : String} {service : Service} {spec : RunSpec}
    (made : runSpec serviceHash projectName name service = .ok spec) :
    spec.service = name ∧ spec.image = runImage projectName name service := by
  rw [runSpec] at made
  split at made
  · cases made
  · cases made
    exact ⟨rfl, rfl⟩

/-- The run of a service that is active. -/
def IsRunOf (activeServices : ActiveServices) (projectName name : String) : Op → Prop
  | .runContainer spec => spec.service = name ∧ spec.image = runImage projectName name (activeServices.get name)
  | _ => False

theorem runOps_ops {names : List String} {ops : List Op}
    (made : runOps serviceHash projectName activeServices names = .ok ops) :
    List.Forall₂ (IsRunOf activeServices projectName) names ops := by
  refine (Fallible.mapM_ok made).imp fun name op built => ?_
  obtain ⟨spec, first, same⟩ := Fallible.bind_ok.mp built
  cases same
  exact runSpec_ok first

theorem IsRunOf.runs {name other : String} {op : Op} (run : IsRunOf activeServices projectName name op) :
    op.runs other = true ↔ name = other := by
  cases op with
  | runContainer spec =>
    obtain ⟨rfl, _⟩ := run
    exact decide_eq_true_iff
  | _ => exact run.elim

theorem IsRunOf.not_waits {name dep : String} {op : Op} (run : IsRunOf activeServices projectName name op) :
    op.waits dep = false := by
  cases op with
  | runContainer spec => rfl
  | _ => exact run.elim

theorem countP_runs {names : List String} {ops : List Op}
    (runs : List.Forall₂ (IsRunOf activeServices projectName) names ops) (name : String) :
    ops.countP (Op.runs name) = names.count name := by
  induction runs with
  | nil => rfl
  | @cons first op rest later run _ ih =>
    rw [List.countP_cons, List.count_cons, ih]
    simp only [run.runs, beq_iff_eq]

theorem countP_runs_waits {names : List String} {ops : List Op}
    (runs : List.Forall₂ (IsRunOf activeServices projectName) names ops) (dep : String) :
    ops.countP (Op.waits dep) = 0 := by
  induction runs with
  | nil => rfl
  | cons run _ ih => rw [List.countP_cons, ih, run.not_waits]; rfl

end Runs

section Waves
variable {serviceHash : Service → Except String String}

theorem waveOps_cons {names : List String} {rest : List (List String)} {emitted : List String} {ops : List Op}
    (made : waveOps serviceHash projectName activeServices (names :: rest) emitted = .ok ops) :
    ∃ runs later, runOps serviceHash projectName activeServices names = .ok runs ∧
      waveOps serviceHash projectName activeServices rest (waitOps projectName activeServices names emitted).2 = .ok later ∧
      ops = (waitOps projectName activeServices names emitted).1 ++ runs ++ later := by
  obtain ⟨runs, some, made⟩ := Fallible.bind_ok.mp made
  obtain ⟨later, others, made⟩ := Fallible.bind_ok.mp made
  exact ⟨runs, later, some, others, (Except.ok.inj made).symm⟩

theorem waitOps_runs (names emitted : List String) (name : String) :
    (waitOps projectName activeServices names emitted).1.countP (Op.runs name) = 0 := by
  refine List.countP_eq_zero.mpr fun op member => ?_
  rcases emitWait_ops member with none | ⟨dep, _, rfl⟩
  · cases none
  · exact Bool.false_ne_true

theorem waveOps_runs {waves : List (List String)} {emitted : List String} {ops : List Op}
    (made : waveOps serviceHash projectName activeServices waves emitted = .ok ops) (name : String) :
    ops.countP (Op.runs name) = waves.flatten.count name := by
  induction waves generalizing emitted ops with
  | nil =>
    cases made
    rfl
  | cons names rest ih =>
    obtain ⟨runs, later, some, others, rfl⟩ := waveOps_cons made
    rw [List.countP_append, List.countP_append, waitOps_runs, countP_runs (runOps_ops some), ih others,
      List.flatten_cons, List.count_append, Nat.zero_add]

/-- A service waits for another one to be healthy. -/
def Wanted (activeServices : ActiveServices) (names : List String) (dep : String) : Prop :=
  ∃ name ∈ names, dep ∈ healthyDependencies (activeServices.get name)

instance (names : List String) (dep : String) : Decidable (Wanted activeServices names dep) :=
  inferInstanceAs (Decidable (∃ name ∈ names, dep ∈ healthyDependencies (activeServices.get name)))

theorem waitOps_emitted {names emitted : List String} {dep : String} :
    dep ∈ (waitOps projectName activeServices names emitted).2 ↔ dep ∈ emitted ∨ Wanted activeServices names dep := by
  rw [waitOps, emitWait_emitted, List.mem_flatMap]
  rfl

theorem waitOps_waits (names emitted : List String) (dep : String) :
    (waitOps projectName activeServices names emitted).1.countP (Op.waits dep) =
      if Wanted activeServices names dep ∧ dep ∉ emitted then 1 else 0 := by
  rw [waitOps, emitWait_waits]
  simp only [List.countP_nil, Nat.zero_add, List.mem_flatMap]
  rfl

theorem waveOps_waits {waves : List (List String)} {emitted : List String} {ops : List Op}
    (made : waveOps serviceHash projectName activeServices waves emitted = .ok ops) (dep : String) :
    ops.countP (Op.waits dep) = if Wanted activeServices waves.flatten dep ∧ dep ∉ emitted then 1 else 0 := by
  induction waves generalizing emitted ops with
  | nil =>
    cases made
    simp [Wanted]
  | cons names rest ih =>
    obtain ⟨runs, later, some, others, rfl⟩ := waveOps_cons made
    have either : Wanted activeServices (names :: rest).flatten dep ↔
        Wanted activeServices names dep ∨ Wanted activeServices rest.flatten dep := by
      simp only [Wanted, List.flatten_cons, List.mem_append, or_and_right, exists_or]
    rw [List.countP_append, List.countP_append, waitOps_waits, countP_runs_waits (runOps_ops some), ih others]
    simp only [waitOps_emitted, either]
    by_cases here : Wanted activeServices names dep <;> by_cases known : dep ∈ emitted <;> simp [here, known]

/-- Every service of a wave depends on services of the waves before it. -/
def Follows (activeServices : ActiveServices) (front : List (List String)) (wave : List String) : Prop :=
  ∀ name ∈ wave, ∀ dep kind, (dep, kind) ∈ depsOf (activeServices.get name) → dep ∈ front.flatten

/-- Operations in which the images of all services are got. -/
def Provided (activeServices : ActiveServices) (projectName : String) (ops : List Op) : Prop :=
  ∀ name, (activeServices.get name).build.isSome ∨ (activeServices.get name).image.isSome →
    ∃ op ∈ ops, op.provides name (runImage projectName name (activeServices.get name))

theorem healthyDependencies_depsOf {service : Service} {dep : String} (member : dep ∈ healthyDependencies service) :
    (dep, .healthyBefore) ∈ depsOf service := by
  rw [healthyDependencies] at member
  rw [depsOf]
  split at member
  next entries declared =>
    obtain ⟨⟨found, spec⟩, among, rfl⟩ := List.mem_map.mp member
    obtain ⟨listed, condition⟩ := List.mem_filter.mp among
    rw [declared]
    exact List.mem_map.mpr ⟨(found, spec), listed, by rw [of_decide_eq_true condition]; rfl⟩
  next => cases member

theorem exists_of_countP {ops : List Op} {holds : Op → Bool} (some : 0 < ops.countP holds) :
    ∃ op ∈ ops, holds op = true := List.countP_pos_iff.mp some

theorem runs_of_mem {names : List String} {ops : List Op}
    (runs : List.Forall₂ (IsRunOf activeServices projectName) names ops) {name : String} (member : name ∈ names) :
    ∃ op ∈ ops, op.runs name = true := by
  refine exists_of_countP ?_
  rw [countP_runs runs]
  exact List.count_pos_iff.mpr member

theorem isRunOf_of_mem {names : List String} {ops : List Op}
    (runs : List.Forall₂ (IsRunOf activeServices projectName) names ops) {op : Op} (member : op ∈ ops) :
    ∃ name ∈ names, IsRunOf activeServices projectName name op := by
  induction runs with
  | nil => cases member
  | cons run _ ih =>
    rcases List.mem_cons.mp member with rfl | later
    · exact ⟨_, List.mem_cons_self, run⟩
    · obtain ⟨name, among, found⟩ := ih later
      exact ⟨name, List.mem_cons_of_mem _ among, found⟩

/-- Wave after wave, what is in the past is enough: the runs of the waves before, the waits that
have been emitted, and the images. -/
theorem waveOps_prepared {front waves : List (List String)} {emitted : List String} {past ops : List Op}
    (made : waveOps serviceHash projectName activeServices waves emitted = .ok ops)
    (follows : EachAfter (Follows activeServices) front waves) (provided : Provided activeServices projectName past)
    (ran : ∀ name ∈ front.flatten, ∃ op ∈ past, op.runs name = true)
    (waited : ∀ dep ∈ emitted, ∃ op ∈ past, op.waits dep = true) :
    EachAfter (Prepared activeServices) past ops := by
  induction waves generalizing front emitted past ops with
  | nil =>
    cases made
    trivial
  | cons names rest ih =>
    obtain ⟨runs, later, some, others, rfl⟩ := waveOps_cons made
    obtain ⟨here, after⟩ := follows
    have grown {holds : Op → Prop} {more : List Op} {before : List Op} (found : ∃ op ∈ before, holds op) :
        ∃ op ∈ before ++ more, holds op := by
      obtain ⟨op, member, held⟩ := found
      exact ⟨op, List.mem_append_left _ member, held⟩
    have allWaited (dep : String) (known : dep ∈ (waitOps projectName activeServices names emitted).2) :
        ∃ op ∈ past ++ (waitOps projectName activeServices names emitted).1, op.waits dep = true := by
      by_cases before : dep ∈ emitted
      · exact grown (waited dep before)
      · have one : (waitOps projectName activeServices names emitted).1.countP (Op.waits dep) = _ :=
          waitOps_waits names emitted dep
        rw [if_pos ⟨(waitOps_emitted.mp known).resolve_left before, before⟩] at one
        obtain ⟨op, member, held⟩ := exists_of_countP (by rw [one]; exact Nat.one_pos)
        exact ⟨op, List.mem_append_right _ member, held⟩
    refine EachAfter.append_iff.mpr ⟨EachAfter.append_iff.mpr ⟨?_, ?_⟩, ?_⟩
    · refine EachAfter.of_forall Prepared.mono fun op member => ?_
      rcases emitWait_ops member with none | ⟨dep, among, rfl⟩
      · cases none
      · obtain ⟨name, active, healthy⟩ := List.mem_flatMap.mp among
        exact ran dep (here name active dep _ (healthyDependencies_depsOf healthy))
    · refine EachAfter.of_forall Prepared.mono fun op member => ?_
      obtain ⟨name, active, run⟩ := isRunOf_of_mem (runOps_ops some) member
      cases op with
      | runContainer spec =>
        obtain ⟨rfl, image⟩ := run
        refine ⟨fun declared => ?_, fun dep kind depends => grown (ran dep (here _ active dep kind depends)), fun dep healthy => ?_⟩
        · rw [image]
          exact grown (provided _ declared)
        · exact allWaited dep (waitOps_emitted.mpr (.inr ⟨_, active, healthy⟩))
      | _ => trivial
    · rw [← List.append_assoc past]
      refine ih others after (fun name declared => grown (grown (provided name declared)))
        (fun name member => ?_) fun dep known => grown (allWaited dep known)
      rw [List.flatten_append, List.mem_append] at member
      rcases member with before | now
      · exact grown (grown (ran name before))
      · rw [List.flatten_singleton] at now
        obtain ⟨op, among, held⟩ := runs_of_mem (runOps_ops some) now
        exact ⟨op, List.mem_append_right _ among, held⟩

end Waves

section Names
variable {graph : ServiceGraph} {waves : List (List NodeId)}

theorem name_idxOf {name : String} (known : name ∈ graph.names) : graph.name (graph.names.idxOf name) = name := by
  have inside := List.idxOf_lt_length_of_mem known
  rw [ServiceGraph.name, List.getD_eq_getElem _ _ inside, List.getElem_idxOf]

theorem idxOf_name (distinct : graph.names.Nodup) {node : NodeId} (known : node ∈ graph.nodes) :
    graph.names.idxOf (graph.name node) = node := by
  have inside := List.mem_range.mp known
  rw [ServiceGraph.name, List.getD_eq_getElem _ _ inside, distinct.idxOf_getElem]

theorem names_perm {final : List NodeId} (levels : Levels graph.nodes graph.succs [] waves final)
    (all : ∀ node ∈ graph.nodes, node ∈ waves.flatten) :
    ((waves.map fun wave => wave.map graph.name).flatten).Perm graph.names := by
  have nodes : waves.flatten.Perm graph.nodes :=
    (List.perm_ext_iff_of_nodup levels.nodup_flatten graph.nodes_nodup).mpr fun node =>
      ⟨levels.mem_nodes, all node⟩
  have named : graph.nodes.map graph.name = graph.names := by
    refine List.ext_getElem (by simp [ServiceGraph.nodes]) fun place _ inside => ?_
    simp [ServiceGraph.nodes, ServiceGraph.name, inside]
  rw [← List.map_flatten, ← named]
  exact nodes.map graph.name

theorem follows_of_levels {final : List NodeId} (built : Built activeServices.keys (dependencies activeServices) graph)
    (levels : Levels graph.nodes graph.succs [] waves final) :
    EachAfter (Follows activeServices) [] (waves.map fun wave => wave.map graph.name) := by
  refine EachAfter.of_splits fun front wave back split name member dep kind depends => ?_
  obtain ⟨earlier, others, rfl, rfl, same⟩ := List.map_eq_append_iff.mp split
  obtain ⟨nodes, later, rfl, rfl, rfl⟩ := List.map_eq_cons_iff.mp same
  obtain ⟨node, here, rfl⟩ := List.mem_map.mp member
  have known : node ∈ graph.nodes := levels.mem_nodes (List.mem_flatten_of_mem (List.mem_append_right _ List.mem_cons_self) here)
  have distinct : graph.names.Nodup := built.sameNames ▸ activeServices.nodupKeys
  have active : graph.name node ∈ activeServices.keys := by
    have inside := List.mem_range.mp known
    rw [ServiceGraph.name, List.getD_eq_getElem _ _ inside, ← built.sameNames]
    exact List.getElem_mem inside
  obtain ⟨service, held⟩ := Option.isSome_iff_exists.mp (AList.lookup_isSome.mpr (AList.mem_keys.mpr active))
  have added : (graph.name node, dep, kind) ∈ dependencies activeServices := by
    refine List.mem_flatMap.mpr ⟨(graph.name node, service), FiniteMap.mem_toList.mpr held, ?_⟩
    rw [ActiveServices.get, held, Option.getD_some] at depends
    exact List.mem_map.mpr ⟨(dep, kind), depends, rfl⟩
  have present : dep ∈ graph.names := built.sameNames ▸ built.known _ _ _ added
  have edge : (node, kind) ∈ graph.outgoing (graph.names.idxOf dep) :=
    (built.outgoing _ _ _).mpr ⟨_, dep, added, by rw [built.sameNames], by rw [← built.sameNames, idxOf_name distinct known]⟩
  have before := levels.entered_before rfl here (List.mem_range.mpr (List.idxOf_lt_length_of_mem present))
    (List.mem_map_of_mem edge)
  rw [List.nil_append, ← List.map_flatten]
  exact List.mem_map.mpr ⟨_, before, name_idxOf present⟩

end Names

section Planning
variable {serviceHash : Service → Except String String} {compose : Compose} {opts : PlanOptions} {planned : Plan}

theorem filterServices_ok {profiles : List String} {activeServices : ActiveServices}
    (filtered : filterServices compose profiles = .ok activeServices) :
    activeServices = compose.services.filterValues (Service.active profiles) := by
  rw [filterServices] at filtered
  split at filtered
  · cases filtered
  · exact (Except.ok.inj filtered).symm

theorem plan_ok (made : plan serviceHash compose opts = .ok planned) :
    ∃ projectName graph waves runs,
      let activeServices := compose.services.filterValues (Service.active opts.profiles)
      validateReferences compose activeServices = .ok () ∧
      buildGraph activeServices = .ok graph ∧ topologicalWaves graph = .ok waves ∧
      waveOps serviceHash projectName activeServices (waves.map fun wave => wave.map graph.name) [] = .ok runs ∧
      planned.ops = networkOps projectName compose ++ volumeOps projectName compose ++
        imageOps projectName activeServices ++ runs := by
  obtain ⟨activeServices, filtered, made⟩ := Fallible.bind_ok.mp made
  obtain rfl := filterServices_ok filtered
  split at made
  · cases made
  · obtain ⟨_, checked, made⟩ := Fallible.bind_ok.mp made
    obtain ⟨graph, built, made⟩ := Fallible.bind_ok.mp made
    obtain ⟨waves, levelled, made⟩ := Fallible.bind_ok.mp made
    obtain ⟨runs, emitted, made⟩ := Fallible.bind_ok.mp made
    cases made
    exact ⟨_, graph, waves, runs, checked, built, levelled, emitted, rfl⟩

theorem imageOps_provided (activeServices : ActiveServices) (projectName : String) :
    Provided activeServices projectName (imageOps projectName activeServices) := by
  intro name declared
  cases held : activeServices.lookup name with
  | none =>
    rw [ActiveServices.get, held] at declared
    exact absurd declared (by decide)
  | some service =>
    have same : activeServices.get name = service := by rw [ActiveServices.get, held, Option.getD_some]
    rw [same] at declared ⊢
    have listed := FiniteMap.mem_toList.mpr held
    have made {op : Op} (image : imageOp projectName name service = some op) : op ∈ imageOps projectName activeServices :=
      List.mem_filterMap.mpr ⟨(name, service), listed, image⟩
    cases build : service.build with
    | some build => exact ⟨.buildImage _, made (by rw [imageOp, build]), rfl, by rw [runImage, build]; rfl⟩
    | none =>
      cases image : service.image with
      | some image => exact ⟨.pullImage _, made (by rw [imageOp, build, image]), rfl, by rw [runImage, build, image]; rfl⟩
      | none => exact absurd declared (by simp [build, image])

/-- Operations that neither run a service nor wait for one. -/
def Op.isPreparation : Op → Bool
  | createNetwork _ | createVolume _ | buildImage _ | pullImage _ => true
  | _ => false

theorem isPreparation_of_mem {op : Op} (member : op ∈ networkOps projectName compose ++ volumeOps projectName compose ++
    imageOps projectName activeServices) : op.isPreparation = true := by
  simp only [List.mem_append, networkOps, volumeOps, imageOps, List.mem_map, List.mem_filterMap] at member
  rcases member with (⟨_, _, rfl⟩ | ⟨_, _, rfl⟩) | ⟨⟨name, service⟩, _, made⟩
  · rfl
  · rfl
  · rw [imageOp] at made
    split at made
    · cases made
      rfl
    · cases made
      rfl
    · cases made

theorem preparations_count (holds : Op → Bool) (other : ∀ op, op.isPreparation = true → holds op = false) :
    (networkOps projectName compose ++ volumeOps projectName compose ++ imageOps projectName activeServices).countP
      holds = 0 :=
  List.countP_eq_zero.mpr fun op member held =>
    Bool.false_ne_true ((other op (isPreparation_of_mem member)).symm.trans held)

theorem plan_runs (made : plan serviceHash compose opts = .ok planned) (name : String) :
    planned.ops.countP (Op.runs name) =
      if name ∈ (compose.services.filterValues (Service.active opts.profiles)).keys then 1 else 0 := by
  obtain ⟨projectName, graph, waves, runs, _, built, levelled, emitted, ops⟩ := plan_ok made
  generalize compose.services.filterValues (Service.active opts.profiles) = activeServices at *
  obtain ⟨final, levels, all⟩ := topologicalWaves_levels built levelled
  have names := names_perm levels all
  rw [(buildGraph_built built).sameNames] at names
  have distinct : activeServices.keys.Nodup := activeServices.nodupKeys
  have none := @preparations_count activeServices projectName compose (Op.runs name)
    fun op prepares => by cases op <;> cases prepares <;> rfl
  rw [ops, List.countP_append, none, waveOps_runs emitted, names.count_eq, Nat.zero_add, distinct.count]

theorem plan_waits (made : plan serviceHash compose opts = .ok planned) (dep : String) :
    planned.ops.countP (Op.waits dep) =
      if Wanted (compose.services.filterValues (Service.active opts.profiles))
        (compose.services.filterValues (Service.active opts.profiles)).keys dep then 1 else 0 := by
  obtain ⟨projectName, graph, waves, runs, _, built, levelled, emitted, ops⟩ := plan_ok made
  generalize compose.services.filterValues (Service.active opts.profiles) = activeServices at *
  obtain ⟨final, levels, all⟩ := topologicalWaves_levels built levelled
  have names := names_perm levels all
  rw [(buildGraph_built built).sameNames] at names
  have none := @preparations_count activeServices projectName compose (Op.waits dep)
    fun op prepares => by cases op <;> cases prepares <;> rfl
  have same : Wanted activeServices (waves.map fun wave => wave.map graph.name).flatten dep ∧ dep ∉ [] ↔
      Wanted activeServices activeServices.keys dep := by
    simp only [Wanted, names.mem_iff, List.not_mem_nil, not_false_eq_true, and_true]
  rw [ops, List.countP_append, none, waveOps_waits emitted, Nat.zero_add, if_congr same rfl rfl]

theorem plan_prepared (made : plan serviceHash compose opts = .ok planned) :
    EachAfter (Prepared (compose.services.filterValues (Service.active opts.profiles))) [] planned.ops := by
  obtain ⟨projectName, graph, waves, runs, _, built, levelled, emitted, ops⟩ := plan_ok made
  generalize compose.services.filterValues (Service.active opts.profiles) = activeServices at *
  obtain ⟨final, levels, _⟩ := topologicalWaves_levels built levelled
  rw [ops]
  refine EachAfter.append_iff.mpr ⟨EachAfter.of_forall Prepared.mono fun op member => ?_, ?_⟩
  · have prepares := isPreparation_of_mem member
    cases op with
    | runContainer spec => cases prepares
    | waitHealthy spec => cases prepares
    | _ => trivial
  · refine waveOps_prepared emitted (follows_of_levels (buildGraph_built built) levels) (fun name declared => ?_)
      (fun _ member => absurd member List.not_mem_nil) (fun _ member => absurd member List.not_mem_nil)
    obtain ⟨op, member, provides⟩ := imageOps_provided activeServices projectName name declared
    exact ⟨op, List.mem_append_right _ (List.mem_append_right _ member), provides⟩

theorem plan_inOrder (made : plan serviceHash compose opts = .ok planned) :
    InOrder (compose.services.filterValues (Service.active opts.profiles)) planned.ops :=
  ⟨plan_runs made, plan_waits made, plan_prepared made⟩

end Planning

section Sample

def db : Service := { (default : Service) with image := some "db" }

def web (condition : DependsCondition) : Service :=
  { (default : Service) with
    image := some "web"
    dependsOn := .map (AList.singleton "db" ⟨condition, false⟩) }

def webAfterDb (condition : DependsCondition) : Compose :=
  { projectName := none, services := AList.insert "web" (web condition) (AList.singleton "db" db) }

theorem webAfterDb_planned (condition : DependsCondition) :
    ∃ planned, plan (fun _ => .ok "") (webAfterDb condition) ⟨[], none, []⟩ = .ok planned := by
  have planned : (plan (fun _ => .ok "") (webAfterDb condition) ⟨[], none, []⟩).isOk = true := by
    cases condition <;> decide +kernel
  cases made : plan (fun _ => .ok "") (webAfterDb condition) ⟨[], none, []⟩ with
  | error reason => rw [made] at planned; cases planned
  | ok found => exact ⟨found, rfl⟩

theorem webAfterDb_inOrder : ∃ planned,
    plan (fun _ => .ok "") (webAfterDb .serviceHealthy) ⟨[], none, []⟩ = .ok planned ∧
    InOrder ((webAfterDb .serviceHealthy).services.filterValues (Service.active [])) planned.ops := by
  obtain ⟨planned, made⟩ := webAfterDb_planned .serviceHealthy
  exact ⟨planned, made, plan_inOrder made⟩

end Sample

end Burble.SelurCompose
