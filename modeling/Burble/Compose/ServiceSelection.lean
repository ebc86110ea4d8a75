import Mathlib.Logic.Relation
import Burble.Compose.PlanClosure

namespace Burble.SelurCompose

/-- A declared service names another one in its `depends_on`. -/
def Compose.DependsOn (compose : Compose) (name dep : String) : Prop :=
  ∃ service, compose.services.lookup name = some service ∧ dep ∈ (depsOf service).map Prod.fst

/-- A service that is listed, or on which a listed one depends over any number of steps. -/
def Compose.Selected (compose : Compose) (listed : List String) (name : String) : Prop :=
  ∃ root ∈ listed, Relation.ReflTransGen compose.DependsOn root name

variable {serviceHash : Service → Except String String} {compose : Compose} {opts : PlanOptions} {planned : Plan}

theorem active_iff {name : String} : name ∈ (compose.services.filterValues (Service.active opts.profiles)).keys ↔
    ∃ service, compose.services.lookup name = some service ∧ service.active opts.profiles = true := by
  rw [← AList.mem_keys, ← AList.lookup_isSome, FiniteMap.lookup_filterValues, Option.isSome_iff_exists]
  simp only [Option.filter_eq_some_iff]

/-- What is listed is active. -/
theorem plan_listed (made : plan serviceHash compose opts = .ok planned) {name : String} (listed : name ∈ opts.services) :
    name ∈ (compose.services.filterValues (Service.active opts.profiles)).keys := by
  obtain ⟨activeServices, filtered, made⟩ := Fallible.bind_ok.mp made
  obtain rfl := filterServices_ok filtered
  split at made
  · cases made
  next known =>
    have present := List.find?_eq_none.mp known name listed
    simpa using present

/-- What an active service depends on is active. -/
theorem plan_dependsOn (made : plan serviceHash compose opts = .ok planned) {name dep : String}
    (active : name ∈ (compose.services.filterValues (Service.active opts.profiles)).keys)
    (depends : compose.DependsOn name dep) :
    dep ∈ (compose.services.filterValues (Service.active opts.profiles)).keys := by
  obtain ⟨_, graph, _, _, _, built, _⟩ := plan_ok made
  obtain ⟨service, found, isActive⟩ := active_iff.mp active
  obtain ⟨other, same, member⟩ := depends
  cases found.symm.trans same
  obtain ⟨⟨_, kind⟩, listed, rfl⟩ := List.mem_map.mp member
  have held : (compose.services.filterValues (Service.active opts.profiles)).lookup name = some service := by
    rw [FiniteMap.lookup_filterValues, found]
    exact Option.filter_eq_some_iff.mpr ⟨rfl, isActive⟩
  refine (buildGraph_built built).known name _ kind (List.mem_flatMap.mpr ⟨(name, service), FiniteMap.mem_toList.mpr held, ?_⟩)
  exact List.mem_map_of_mem listed

theorem plan_selected (made : plan serviceHash compose opts = .ok planned) {name : String}
    (selected : compose.Selected opts.services name) :
    name ∈ (compose.services.filterValues (Service.active opts.profiles)).keys := by
  obtain ⟨root, listed, path⟩ := selected
  induction path with
  | refl => exact plan_listed made listed
  | tail _ depends ih => exact plan_dependsOn made ih depends

/-- A plan runs all that is active. -/
theorem plan_runs_iff (made : plan serviceHash compose opts = .ok planned) {name : String} :
    (∃ op ∈ planned.ops, op.runs name = true) ↔
      name ∈ (compose.services.filterValues (Service.active opts.profiles)).keys := by
  rw [← List.countP_pos_iff, plan_runs made]
  split
  next active => exact ⟨fun _ => active, fun _ => Nat.one_pos⟩
  next inactive => exact ⟨fun none => absurd none (Nat.lt_irrefl 0), fun active => absurd active inactive⟩

/-- A plan runs the selected services and no others, exactly where all the active ones are selected. -/
theorem plan_runs_selected_iff (made : plan serviceHash compose opts = .ok planned) :
    (∀ name, (∃ op ∈ planned.ops, op.runs name = true) ↔ compose.Selected opts.services name) ↔
      ∀ name service, compose.services.lookup name = some service → service.active opts.profiles = true →
        compose.Selected opts.services name := by
  constructor
  · intro only name service found active
    exact (only name).mp ((plan_runs_iff made).mpr (active_iff.mpr ⟨service, found, active⟩))
  · intro all name
    rw [plan_runs_iff made]
    refine ⟨fun active => ?_, plan_selected made⟩
    obtain ⟨service, found, isActive⟩ := active_iff.mp active
    exact all name service found isActive

theorem webAfterDb_listed (listed : Bool) : ∃ planned,
    plan (fun _ => .ok "") (webAfterDb .serviceStarted) ⟨[], none, [if listed then "web" else "db"]⟩ = .ok planned := by
  have planned : (plan (fun _ => .ok "") (webAfterDb .serviceStarted)
      ⟨[], none, [if listed then "web" else "db"]⟩).isOk = true := by
    cases listed <;> decide +kernel
  cases made : plan (fun _ => .ok "") (webAfterDb .serviceStarted) ⟨[], none, [if listed then "web" else "db"]⟩ with
  | error reason => rw [made] at planned; cases planned
  | ok found => exact ⟨found, rfl⟩

/-- The database alone is listed, and the service that depends on it is run as well. -/
theorem unlisted_service_runs : ∃ planned,
    plan (fun _ => .ok "") (webAfterDb .serviceStarted) ⟨[], none, ["db"]⟩ = .ok planned ∧
      ¬ ∀ name, (∃ op ∈ planned.ops, op.runs name = true) ↔ (webAfterDb .serviceStarted).Selected ["db"] name := by
  obtain ⟨planned, made⟩ := webAfterDb_listed false
  refine ⟨planned, made, fun only => ?_⟩
  have found : (webAfterDb .serviceStarted).services.lookup "web" = some (web .serviceStarted) := rfl
  have runs : ∃ op ∈ planned.ops, op.runs "web" = true := (plan_runs_iff made).mpr (active_iff.mpr ⟨_, found, by decide⟩)
  obtain ⟨root, listed, path⟩ := (only "web").mp runs
  cases List.mem_singleton.mp listed
  rcases Relation.ReflTransGen.cases_head path with same | ⟨next, ⟨service, isDb, depends⟩, _⟩
  · exact absurd same (by decide)
  · have database : (webAfterDb .serviceStarted).services.lookup "db" = some db := rfl
    cases database.symm.trans isDb
    exact absurd depends List.not_mem_nil

theorem listed_with_dependency_runs : ∃ planned,
    plan (fun _ => .ok "") (webAfterDb .serviceStarted) ⟨[], none, ["web"]⟩ = .ok planned ∧
      ∀ name, (∃ op ∈ planned.ops, op.runs name = true) ↔ (webAfterDb .serviceStarted).Selected ["web"] name := by
  obtain ⟨planned, made⟩ := webAfterDb_listed true
  refine ⟨planned, made, (plan_runs_selected_iff made).mpr fun name service found _ => ?_⟩
  have entries : (webAfterDb .serviceStarted).services.toList = [("web", web .serviceStarted), ("db", db)] := rfl
  have member := FiniteMap.mem_toList.mpr found
  rw [entries] at member
  have web : (webAfterDb .serviceStarted).services.lookup "web" = some (web .serviceStarted) := rfl
  rcases List.mem_cons.mp member with same | rest
  · cases same
    exact ⟨"web", List.mem_singleton.mpr rfl, .refl⟩
  · cases List.mem_singleton.mp rest
    exact ⟨"web", List.mem_singleton.mpr rfl, .single ⟨_, web, List.mem_singleton.mpr rfl⟩⟩

end Burble.SelurCompose
