import Mathlib.Data.List.GetD
import Mathlib.Data.String.Basic
import Mathlib.Order.Bounds.Basic
import Burble.Levels
import Burble.Compose.DagLevels

namespace Burble.SelurCompose

section Checked

/-- A decrement of an unsigned counter, which is not taken below zero. -/
def checkedDecrement (state : FiniteMap NodeId Int × List NodeId) (succ : NodeId) :
    Option (FiniteMap NodeId Int × List NodeId) :=
  if 0 < (state.1.lookup succ).getD 0 then some (decrement state succ) else none

def checkedTakeAway (graph : ServiceGraph) (inDegree : FiniteMap NodeId Int) (wave : List NodeId) :
    Option (FiniteMap NodeId Int × List NodeId) :=
  wave.foldlM (fun state node => (graph.outgoing node).foldlM (fun state edge => checkedDecrement state edge.1) state)
    (inDegree, [])

/-- The loop with unsigned counters: none where one would go below zero, and where the rounds do not suffice. -/
def checkedLoop (graph : ServiceGraph) : Nat → FiniteMap NodeId Int → List NodeId → Int →
    Option (List (List NodeId) × FiniteMap NodeId Int × Int)
  | 0, inDegree, queue, remaining => if queue = [] then some ([], inDegree, remaining) else none
  | rounds + 1, inDegree, queue, remaining =>
    if queue = [] then some ([], inDegree, remaining)
    else
      let wave := sortNodes queue
      if remaining < wave.length then none
      else
        (checkedTakeAway graph inDegree wave).bind fun (inDegree, nextSeeds) =>
          (checkedLoop graph rounds inDegree (sortNodes nextSeeds) (remaining - wave.length)).map fun (waves, result) =>
            (wave :: waves, result)

theorem checked_foldlM {succs : List NodeId} {inDegree : FiniteMap NodeId Int} (seeds : List NodeId)
    (enough : ∀ node, (succs.count node : Int) ≤ degreeOf inDegree node) :
    succs.foldlM checkedDecrement (inDegree, seeds) = some (succs.foldl decrement (inDegree, seeds)) := by
  induction succs generalizing inDegree seeds with
  | nil => rfl
  | cons succ rest ih =>
    have bound := enough succ
    rw [List.count_cons_self] at bound
    have positive : 0 < degreeOf inDegree succ := by omega
    have taken : checkedDecrement (inDegree, seeds) succ = some (decrement (inDegree, seeds) succ) := if_pos positive
    rw [List.foldlM_cons, taken, List.foldl_cons]
    exact ih _ (enough_rest enough)

theorem checkedTakeAway_eq (graph : ServiceGraph) (inDegree : FiniteMap NodeId Int) (wave : List NodeId) :
    checkedTakeAway graph inDegree wave = (wave.flatMap graph.succs).foldlM checkedDecrement (inDegree, []) := by
  rw [checkedTakeAway]
  generalize (inDegree, ([] : List NodeId)) = state
  induction wave generalizing state with
  | nil => rfl
  | cons node rest ih =>
    rw [List.foldlM_cons, List.flatMap_cons, List.foldlM_append, ServiceGraph.succs, List.foldlM_map]
    exact Option.bind_congr fun middle _ => ih middle

/-- No counter goes below zero, and the loop ends by itself. -/
theorem checkedLoop_eq {graph : ServiceGraph} (closed : graph.Closed) {done queue : List NodeId} {rounds : Nat}
    {inDegree : FiniteMap NodeId Int} {remaining : Int} (underway : Underway graph done inDegree queue)
    (enough : graph.nodes.length ≤ done.length + rounds) (left : remaining = graph.nodes.length - done.length) :
    checkedLoop graph rounds inDegree queue remaining = some (waveLoop graph rounds inDegree queue remaining) := by
  induction rounds generalizing done inDegree queue remaining with
  | zero =>
    have all := (List.subperm_of_subset underway.once underway.known).perm_of_length_le enough
    have empty : queue = [] := List.eq_nil_iff_forall_not_mem.mpr fun node member => by
      have free := (underway.ready node).mp member
      exact free.2.1 (all.mem_iff.mpr free.1)
    rw [checkedLoop, if_pos empty, waveLoop]
  | succ rounds ih =>
    by_cases empty : queue = []
    · rw [checkedLoop, waveLoop, if_pos empty, if_pos empty]
    · have size := sortNodes_length_pos empty
      have after := underway.after_wave closed
      have within := (List.subperm_of_subset after.once after.known).length_le
      rw [List.length_append] at within
      rw [checkedLoop, if_neg empty, waveLoop_next empty]
      dsimp only
      rw [if_neg (by omega), checkedTakeAway_eq, checked_foldlM [] underway.enough_edges, Option.bind_some]
      rw [ih after (by rw [List.length_append]; omega) (by rw [List.length_append]; omega)]
      rfl

end Checked

/-- A service names another in its depends_on. -/
def Precedes (activeServices : ActiveServices) (dependency dependent : String) : Prop :=
  ∃ service, activeServices.lookup dependent = some service ∧ dependency ∈ (depsOf service).map Prod.fst

def Acyclic (activeServices : ActiveServices) : Prop := ∀ name, ¬ Relation.TransGen (Precedes activeServices) name name

def ServiceGraph.named (graph : ServiceGraph) (waves : List (List NodeId)) : List (List String) :=
  waves.map fun wave => wave.map graph.name

/-- The waves have each service once, in the wave of its longest chain of dependencies, and are sorted. -/
structure Levelled (activeServices : ActiveServices) (graph : ServiceGraph) (waves : List (List NodeId)) : Prop where
  once : (graph.named waves).flatten.Perm activeServices.keys
  longest : ∀ place name, (∃ wave, (graph.named waves)[place]? = some wave ∧ name ∈ wave) ↔
    name ∈ activeServices.keys ∧ IsGreatest {length | ChainTo (Precedes activeServices) length name} place
  sorted : ∀ wave ∈ waves, wave.Pairwise (· < ·)
  alphabetical : activeServices.keys.Pairwise (· < ·) → ∀ wave ∈ graph.named waves, wave.Pairwise (· < ·)

section Naming
variable {activeServices : ActiveServices} {graph : ServiceGraph}

theorem precedes_iff {dependency dependent : String} : Precedes activeServices dependency dependent ↔
    ∃ kind, (dependent, dependency, kind) ∈ dependencies activeServices := by
  rw [Precedes, dependencies]
  constructor
  · rintro ⟨service, active, among⟩
    obtain ⟨⟨dep, kind⟩, member, rfl⟩ := List.mem_map.mp among
    exact ⟨kind, List.mem_flatMap.mpr ⟨(dependent, service), FiniteMap.mem_toList.mpr active,
      List.mem_map.mpr ⟨(dep, kind), member, rfl⟩⟩⟩
  · rintro ⟨kind, member⟩
    obtain ⟨⟨name, service⟩, active, among⟩ := List.mem_flatMap.mp member
    obtain ⟨⟨dep, sort⟩, listed, same⟩ := List.mem_map.mp among
    cases same
    exact ⟨service, FiniteMap.mem_toList.mp active, List.mem_map.mpr ⟨(dependency, kind), listed, rfl⟩⟩

variable {added : List (String × String × EdgeKind)}

theorem Built.mem_nodes (built : Built activeServices.keys added graph) {node : NodeId} :
    node ∈ graph.nodes ↔ node < activeServices.keys.length := by
  rw [ServiceGraph.nodes, built.sameNames, List.mem_range]

theorem Built.name_eq (built : Built activeServices.keys added graph) {node : NodeId} (inside : node < activeServices.keys.length) :
    graph.name node = activeServices.keys[node] := by
  rw [ServiceGraph.name, built.sameNames, List.getD_eq_getElem _ _ inside]

theorem Built.idxOf_mem (built : Built activeServices.keys added graph) {name : String} (active : name ∈ activeServices.keys) :
    activeServices.keys.idxOf name ∈ graph.nodes := built.mem_nodes.mpr (List.idxOf_lt_length_of_mem active)

theorem Built.name_idxOf (built : Built activeServices.keys added graph) {name : String} (active : name ∈ activeServices.keys) :
    graph.name (activeServices.keys.idxOf name) = name := by
  rw [built.name_eq (List.idxOf_lt_length_of_mem active), List.getElem_idxOf]

theorem Built.idxOf_name (built : Built activeServices.keys added graph) {node : NodeId} (known : node ∈ graph.nodes) :
    activeServices.keys.idxOf (graph.name node) = node := by
  rw [built.name_eq (built.mem_nodes.mp known)]
  exact activeServices.keys_nodup.idxOf_getElem node (built.mem_nodes.mp known)

theorem Built.name_mem (built : Built activeServices.keys added graph) {node : NodeId} (known : node ∈ graph.nodes) :
    graph.name node ∈ activeServices.keys := by
  rw [built.name_eq (built.mem_nodes.mp known)]
  exact List.getElem_mem _

theorem Built.names_eq (built : Built activeServices.keys added graph) : graph.nodes.map graph.name = activeServices.keys := by
  refine List.ext_getElem (by simp [ServiceGraph.nodes, built.sameNames]) fun place _ within => ?_
  have there : graph.name place = activeServices.keys[place] := built.name_eq within
  simpa [ServiceGraph.nodes] using there

end Naming

section Transfer
variable {activeServices : ActiveServices} {graph : ServiceGraph}
  (built : Built activeServices.keys (dependencies activeServices) graph)
include built

theorem edge_of_precedes {dependency dependent : String} (precedes : Precedes activeServices dependency dependent) :
    Edge graph.nodes graph.succs (activeServices.keys.idxOf dependency) (activeServices.keys.idxOf dependent) := by
  obtain ⟨kind, member⟩ := precedes_iff.mp precedes
  refine ⟨built.idxOf_mem (built.known _ _ _ member), List.mem_map.mpr ⟨(_, kind), ?_, rfl⟩⟩
  exact (built.outgoing _ _ kind).mpr ⟨dependent, dependency, member, rfl, rfl⟩

theorem precedes_of_edge {node succ : NodeId} (edge : Edge graph.nodes graph.succs node succ) :
    Precedes activeServices (graph.name node) (graph.name succ) := by
  obtain ⟨known, leads⟩ := edge
  obtain ⟨⟨found, kind⟩, among, rfl⟩ := List.mem_map.mp leads
  obtain ⟨name, dep, member, rfl, rfl⟩ := (built.outgoing node found kind).mp among
  rw [built.name_idxOf (built.known _ _ _ member), built.name_idxOf (dependencies_named member)]
  exact precedes_iff.mpr ⟨kind, member⟩

theorem chainTo_iff {length : Nat} {name : String} (active : name ∈ activeServices.keys) :
    ChainTo (Edge graph.nodes graph.succs) length (activeServices.keys.idxOf name) ↔
      ChainTo (Precedes activeServices) length name := by
  constructor
  · intro chain
    have there := chain.map graph.name (precedes_of_edge built)
    rwa [built.name_idxOf active] at there
  · exact ChainTo.map activeServices.keys.idxOf (edge_of_precedes built)

theorem cyclic_iff {name : String} (active : name ∈ activeServices.keys) :
    Cyclic (Edge graph.nodes graph.succs) (activeServices.keys.idxOf name) ↔ Cyclic (Precedes activeServices) name := by
  constructor
  · intro cyclic
    have there := cyclic.map graph.name (precedes_of_edge built)
    rwa [built.name_idxOf active] at there
  · exact Cyclic.map activeServices.keys.idxOf (edge_of_precedes built)

end Transfer

section Sorting

theorem pairwise_lt {Item : Type*} [LinearOrder Item] {items : List Item} (sorted : items.Pairwise (· ≤ ·))
    (distinct : items.Nodup) : items.Pairwise (· < ·) :=
  List.Pairwise.imp₂ (fun _ _ => lt_of_le_of_ne) sorted distinct

theorem waveLoop_sorted {graph : ServiceGraph} {rounds : Nat} {inDegree : FiniteMap NodeId Int} {queue : List NodeId}
    {remaining : Int} : ∀ wave ∈ (waveLoop graph rounds inDegree queue remaining).1, wave.Pairwise (· ≤ ·) := by
  induction rounds generalizing inDegree queue remaining with
  | zero => exact fun wave member => absurd member List.not_mem_nil
  | succ rounds ih =>
    by_cases empty : queue = []
    · rw [waveLoop, if_pos empty]
      exact fun wave member => absurd member List.not_mem_nil
    · rw [waveLoop_next empty]
      intro wave member
      rcases List.mem_cons.mp member with rfl | later
      · exact List.pairwise_mergeSort' (· ≤ ·) queue
      · exact ih wave later

end Sorting

section Result
variable {activeServices : ActiveServices} {graph : ServiceGraph}

theorem active_of_cyclic {name : String} (cyclic : Cyclic (Precedes activeServices) name) : name ∈ activeServices.keys := by
  obtain ⟨source, service, active, -⟩ := cyclic.entered
  exact AList.mem_keys.mp (AList.lookup_isSome.mp (by rw [active]; rfl))

/-- What the loop leaves behind for a graph that has been built. -/
structure Ended (graph : ServiceGraph) (waves : List (List NodeId)) (inDegree : FiniteMap NodeId Int) (remaining : Int) :
    Prop where
  levels : Levels graph.nodes graph.succs [] waves waves.flatten
  stuck : ∀ node, ¬ Ready graph.nodes graph.succs waves.flatten node
  counted : Counted graph waves.flatten inDegree
  left : remaining = graph.nodes.length - waves.flatten.length
  sorted : ∀ wave ∈ waves, wave.Pairwise (· ≤ ·)

theorem loop_ended (made : buildGraph activeServices = .ok graph) :
    ∃ waves inDegree remaining, waveLoop graph graph.names.length graph.inDegree (sortNodes (seedNodes graph))
      graph.names.length = (waves, inDegree, remaining) ∧ Ended graph waves inDegree remaining := by
  have built := buildGraph_built made
  have closed := built.closed fun _ => dependencies_named
  obtain ⟨final, levels, stuck, counted, left⟩ := @waveLoop_levels graph [] closed graph.names.length _ _
    graph.names.length built.underway (by simp [ServiceGraph.nodes])
  have all : final = _ := levels.final_eq
  rw [List.nil_append] at all
  subst all
  refine ⟨_, _, _, rfl, levels, stuck, counted, ?_, waveLoop_sorted⟩
  rw [left, ServiceGraph.nodes, List.length_range]

namespace Ended
variable {waves : List (List NodeId)} {inDegree : FiniteMap NodeId Int} {remaining : Int}

theorem distinct (ended : Ended graph waves inDegree remaining) : waves.flatten.Nodup := ended.levels.nodup_flatten

theorem within (ended : Ended graph waves inDegree remaining) : waves.flatten ⊆ graph.nodes :=
  fun _ => ended.levels.mem_nodes

/-- All nodes are in waves exactly if none is left. -/
theorem all_iff (ended : Ended graph waves inDegree remaining) : ¬ 0 < remaining ↔ waves.flatten.Perm graph.nodes := by
  rw [ended.left]
  constructor
  · intro none
    exact (List.subperm_of_subset ended.distinct ended.within).perm_of_length_le (by omega)
  · intro perm
    rw [perm.length_eq]
    omega

theorem left_iff (ended : Ended graph waves inDegree remaining) {node : NodeId} (known : node ∈ graph.nodes) :
    node ∉ waves.flatten ↔ Cyclic (Edge graph.nodes graph.succs) node := ended.levels.left_iff ended.stuck known

/-- The counters that are above zero are those of the nodes that are left. -/
theorem positive_iff (ended : Ended graph waves inDegree remaining) (closed : graph.Closed) (node : NodeId) :
    0 < degreeOf inDegree node ↔ node ∈ graph.nodes ∧ Cyclic (Edge graph.nodes graph.succs) node := by
  have open_ : 0 < degreeOf inDegree node ↔ openEdges graph waves.flatten node ≠ 0 := by
    rw [ended.counted]
    omega
  rw [open_, ne_eq, openEdges_eq_zero]
  push Not
  constructor
  · rintro ⟨source, known, enters, left⟩
    exact ⟨closed source node enters, ((ended.left_iff known).mp left).next ⟨known, enters⟩⟩
  · rintro ⟨known, cyclic⟩
    have left := (ended.left_iff known).mpr cyclic
    by_contra none
    push Not at none
    exact ended.stuck node ⟨known, left, none⟩

variable (built : Built activeServices.keys (dependencies activeServices) graph)
include built

theorem acyclic_iff (ended : Ended graph waves inDegree remaining) : ¬ 0 < remaining ↔ Acyclic activeServices := by
  rw [ended.all_iff]
  constructor
  · intro perm name cycle
    have cyclic : Cyclic (Precedes activeServices) name := ⟨name, cycle, .refl⟩
    have active := active_of_cyclic cyclic
    have known := built.idxOf_mem active
    exact (ended.left_iff known).mpr ((cyclic_iff built active).mpr cyclic) (perm.mem_iff.mpr known)
  · intro acyclic
    refine (List.perm_ext_iff_of_nodup ended.distinct graph.nodes_nodup).mpr fun node => ⟨fun member => ended.within member, ?_⟩
    intro known
    by_contra left
    have cyclic := ((ended.left_iff known).mp left).map graph.name (precedes_of_edge built)
    obtain ⟨other, cycle, -⟩ := cyclic
    exact acyclic other cycle

theorem mem_named (ended : Ended graph waves inDegree remaining) {place : Nat} {name : String} :
    (∃ wave, (graph.named waves)[place]? = some wave ∧ name ∈ wave) ↔
      name ∈ activeServices.keys ∧ ∃ wave, waves[place]? = some wave ∧ activeServices.keys.idxOf name ∈ wave := by
  have known {wave : List NodeId} (there : waves[place]? = some wave) {node : NodeId} (member : node ∈ wave) :
      node ∈ graph.nodes := ended.within (List.mem_flatten.mpr ⟨wave, List.mem_of_getElem? there, member⟩)
  rw [ServiceGraph.named, List.getElem?_map]
  constructor
  · rintro ⟨wave, there, member⟩
    obtain ⟨nodes, found, rfl⟩ := Option.map_eq_some_iff.mp there
    obtain ⟨node, here, rfl⟩ := List.mem_map.mp member
    refine ⟨built.name_mem (known found here), nodes, found, ?_⟩
    rwa [built.idxOf_name (known found here)]
  · rintro ⟨active, wave, there, member⟩
    refine ⟨wave.map graph.name, by rw [there]; rfl, List.mem_map.mpr ⟨_, member, built.name_idxOf active⟩⟩

theorem levelled (ended : Ended graph waves inDegree remaining) (all : ¬ 0 < remaining) :
    Levelled activeServices graph waves := by
  have sorted : ∀ wave ∈ waves, wave.Pairwise (· < ·) := fun wave member =>
    pairwise_lt (ended.sorted wave member) ((List.nodup_flatten.mp ended.distinct).1 wave member)
  have perm := ended.all_iff.mp all
  refine ⟨?_, fun place name => ?_, sorted, fun alphabetical names member => ?_⟩
  · rw [ServiceGraph.named, ← List.map_flatten, ← built.names_eq]
    exact perm.map graph.name
  · rw [ended.mem_named built, ChainTo.isGreatest_iff]
    refine and_congr_right fun active => ?_
    have known := built.idxOf_mem active
    rw [← chainTo_iff built active, ← chainTo_iff built active]
    constructor
    · rintro ⟨wave, there, member⟩
      have placed := (ended.levels.mem_iff Levels.none_done there _).mp member
      rw [Nat.zero_add] at placed
      exact placed.2
    · rintro ⟨chain, longest⟩
      obtain ⟨wave, among, member⟩ := List.mem_flatten.mp (perm.mem_iff.mpr known)
      obtain ⟨other, there⟩ := List.mem_iff_getElem?.mp among
      have placed := (ended.levels.mem_iff Levels.none_done there _).mp member
      rw [Nat.zero_add] at placed
      have same : other = place :=
        IsGreatest.unique (ChainTo.isGreatest_iff.mpr placed.2) (ChainTo.isGreatest_iff.mpr ⟨chain, longest⟩)
      exact ⟨wave, same ▸ there, member⟩
  · obtain ⟨wave, among, rfl⟩ := List.mem_map.mp member
    refine List.pairwise_map.mpr ((sorted wave among).imp_of_mem fun one other less => ?_)
    have inside {node : NodeId} (here : node ∈ wave) : node < activeServices.keys.length :=
      built.mem_nodes.mp (ended.within (List.mem_flatten.mpr ⟨wave, among, here⟩))
    rw [built.name_eq (inside one), built.name_eq (inside other)]
    exact List.pairwise_iff_getElem.mp alphabetical _ _ (inside one) (inside other) less

/-- The error names what is on a cycle or depends on one. -/
theorem mem_left (ended : Ended graph waves inDegree remaining) (name : String) :
    name ∈ ((inDegree.toList.filter fun entry => entry.2 > 0).map fun entry => graph.name entry.1) ↔
      Cyclic (Precedes activeServices) name := by
  have positive := ended.positive_iff (built.closed fun _ => dependencies_named)
  constructor
  · intro member
    obtain ⟨⟨node, value⟩, among, rfl⟩ := List.mem_map.mp member
    obtain ⟨held, above⟩ := List.mem_filter.mp among
    have degree : degreeOf inDegree node = value := by rw [degreeOf, FiniteMap.mem_toList.mp held, Option.getD_some]
    have more : 0 < degreeOf inDegree node := degree ▸ of_decide_eq_true above
    exact ((positive node).mp more).2.map graph.name (precedes_of_edge built)
  · intro cyclic
    have active := active_of_cyclic cyclic
    have above := (positive _).mpr ⟨built.idxOf_mem active, (cyclic_iff built active).mpr cyclic⟩
    cases found : inDegree.lookup (activeServices.keys.idxOf name) with
    | none =>
      rw [degreeOf, found] at above
      exact absurd above (Int.lt_irrefl 0)
    | some value =>
      rw [degreeOf, found, Option.getD_some] at above
      refine List.mem_map.mpr ⟨(_, value), List.mem_filter.mpr ⟨FiniteMap.mem_toList.mpr found, decide_eq_true above⟩, ?_⟩
      exact built.name_idxOf active

end Ended

/-- For every graph that is built: no counter underflows and the loop ends; there are waves exactly if the dependencies are
acyclic, and they are the levels of the longest chains; otherwise the error lists what is on a cycle or depends on one. -/
theorem waves_longest (made : buildGraph activeServices = .ok graph) :
    checkedLoop graph graph.names.length graph.inDegree (sortNodes (seedNodes graph)) graph.names.length =
        some (waveLoop graph graph.names.length graph.inDegree (sortNodes (seedNodes graph)) graph.names.length) ∧
      ((∃ waves, topologicalWaves graph = .ok waves) ↔ Acyclic activeServices) ∧
      (∀ waves, topologicalWaves graph = .ok waves → Levelled activeServices graph waves) ∧
      ∀ reason, topologicalWaves graph = .error reason → ∃ path, reason = .cycle path ∧ path.Pairwise (· < ·) ∧
        ∀ name, name ∈ path ↔ Cyclic (Precedes activeServices) name := by
  have built := buildGraph_built made
  obtain ⟨waves, inDegree, remaining, result, ended⟩ := loop_ended made
  have outcome : topologicalWaves graph =
      if remaining > 0 then
        .error (.cycle (((inDegree.toList.filter fun entry => entry.2 > 0).map fun entry => graph.name entry.1).dedup.mergeSort
          fun one other => decide (one ≤ other)))
      else .ok waves := by
    rw [topologicalWaves]
    simp only [seedNodes] at result
    dsimp only
    rw [result]
  refine ⟨?_, ?_, fun found ok => ?_, fun reason failed => ?_⟩
  · exact checkedLoop_eq (built.closed fun _ => dependencies_named) built.underway (by simp [ServiceGraph.nodes])
      (by simp [ServiceGraph.nodes])
  · rw [← ended.acyclic_iff built, outcome]
    split
    next cyclic => exact iff_of_false (by rintro ⟨_, ⟨⟩⟩) (not_not.mpr cyclic)
    next none => exact iff_of_true ⟨waves, rfl⟩ none
  · rw [outcome] at ok
    split at ok
    next => cases ok
    next none =>
      cases ok
      exact ended.levelled built none
  · rw [outcome] at failed
    split at failed
    next =>
      cases failed
      refine ⟨_, rfl, pairwise_lt (List.pairwise_mergeSort' (· ≤ ·) _) ?_, fun name => ?_⟩
      · exact (List.mergeSort_perm _ _).nodup_iff.mpr (List.nodup_dedup _)
      · rw [(List.mergeSort_perm _ _).mem_iff, List.mem_dedup]
        exact ended.mem_left built name
    next => cases failed

end Result

/-- A service that depends on itself, twice. -/
def selfDependent : ActiveServices := AList.singleton "a" { (default : Service) with dependsOn := .list ["a", "a"] }

theorem selfDependent_cyclic : ∃ graph, buildGraph selfDependent = .ok graph ∧ ¬ Acyclic selfDependent := by
  refine ⟨_, rfl, fun acyclic => ?_⟩
  obtain ⟨waves, ok⟩ := (waves_longest rfl).2.1.mpr acyclic
  have failed : (topologicalWaves ⟨["a"], AList.singleton 0 [(0, .startedBefore), (0, .startedBefore)],
      AList.singleton 0 2⟩).isOk = false := by decide +kernel
  have same : (topologicalWaves ⟨["a"], AList.singleton 0 [(0, .startedBefore), (0, .startedBefore)],
      AList.singleton 0 2⟩) = .ok waves := ok
  rw [same] at failed
  cases failed

end Burble.SelurCompose
