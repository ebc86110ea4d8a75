import Burble.Levels
import Burble.Compose.Dag

namespace Burble.SelurCompose

def ServiceGraph.nodes (graph : ServiceGraph) : List NodeId := List.range graph.names.length

def ServiceGraph.succs (graph : ServiceGraph) (node : NodeId) : List NodeId := (graph.outgoing node).map Prod.fst

def degreeOf (inDegree : FiniteMap NodeId Int) (node : NodeId) : Int := (inDegree.lookup node).getD 0

/-- Edges that enter a node from nodes that are not done. -/
def openEdges (graph : ServiceGraph) (done : List NodeId) (node : NodeId) : Nat :=
  ((graph.nodes.filter fun source => source ∉ done).flatMap graph.succs).count node

/-- Every counter is how many edges still enter its node. -/
def Counted (graph : ServiceGraph) (done : List NodeId) (inDegree : FiniteMap NodeId Int) : Prop :=
  ∀ node, degreeOf inDegree node = openEdges graph done node

/-- What enters a done node is done. -/
def Settled (graph : ServiceGraph) (done : List NodeId) : Prop :=
  ∀ node ∈ done, ∀ source ∈ graph.nodes, node ∈ graph.succs source → source ∈ done

/-- Edges lead to nodes. -/
def ServiceGraph.Closed (graph : ServiceGraph) : Prop := ∀ node, ∀ succ ∈ graph.succs node, succ ∈ graph.nodes

theorem mem_sortNodes {nodes : List NodeId} {node : NodeId} : node ∈ sortNodes nodes ↔ node ∈ nodes :=
  (List.mergeSort_perm nodes _).mem_iff

theorem sortNodes_nodup {nodes : List NodeId} : (sortNodes nodes).Nodup ↔ nodes.Nodup :=
  (List.mergeSort_perm nodes _).nodup_iff

theorem degreeOf_insert (inDegree : FiniteMap NodeId Int) (node other : NodeId) (degree : Int) :
    degreeOf (AList.insert node degree inDegree) other = if other = node then degree else degreeOf inDegree other := by
  rw [degreeOf, FiniteMap.lookup_insert_if]
  split
  · rfl
  · rfl

theorem sortNodes_length_pos {nodes : List NodeId} (some : nodes ≠ []) : 0 < (sortNodes nodes).length := by
  rw [sortNodes, List.length_mergeSort]
  exact List.length_pos_iff.mpr some

section Pass

theorem decrement_degree (succs : List NodeId) (inDegree : FiniteMap NodeId Int) (seeds : List NodeId) (node : NodeId) :
    degreeOf (succs.foldl decrement (inDegree, seeds)).1 node = degreeOf inDegree node - succs.count node := by
  induction succs generalizing inDegree seeds with
  | nil => simp
  | cons succ rest ih =>
    rw [List.foldl_cons, decrement, ih, degreeOf_insert, List.count_cons]
    dsimp only
    by_cases same : node = succ
    · subst same
      simp only [if_true, beq_self_eq_true, degreeOf]
      omega
    · rw [if_neg same, if_neg (by simpa using Ne.symm same)]
      omega

/-- Counters that suffice for some edges still suffice for the rest when one is taken away. -/
theorem enough_rest {succ : NodeId} {rest : List NodeId} {inDegree : FiniteMap NodeId Int}
    (enough : ∀ node, ((succ :: rest).count node : Int) ≤ degreeOf inDegree node) (other : NodeId) :
    (rest.count other : Int) ≤ degreeOf (AList.insert succ (degreeOf inDegree succ - 1) inDegree) other := by
  have bound := enough other
  rw [List.count_cons] at bound
  rw [degreeOf_insert]
  by_cases same : other = succ
  · subst same
    rw [if_pos rfl]
    simp only [beq_self_eq_true, if_true] at bound
    omega
  · rw [if_neg same]
    rw [if_neg (by simpa using Ne.symm same)] at bound
    omega

/-- A node is put among the seeds once, when the last of its edges is taken away. -/
theorem decrement_seeds {succs : List NodeId} {inDegree : FiniteMap NodeId Int} (seeds : List NodeId)
    (enough : ∀ node, (succs.count node : Int) ≤ degreeOf inDegree node) (node : NodeId) :
    (succs.foldl decrement (inDegree, seeds)).2.count node =
      seeds.count node + if node ∈ succs ∧ degreeOf inDegree node = succs.count node then 1 else 0 := by
  induction succs generalizing inDegree seeds with
  | nil => simp
  | cons succ rest ih =>
    have later := ih (if degreeOf inDegree succ - 1 = 0 then seeds ++ [succ] else seeds) (enough_rest enough)
    have bound := enough succ
    rw [List.count_cons_self] at bound
    rw [List.foldl_cons, decrement]
    refine later.trans ?_
    rw [degreeOf_insert]
    by_cases same : node = succ
    · subst same
      have present : node ∈ rest ↔ 0 < rest.count node := List.count_pos_iff.symm
      simp only [if_true, List.count_cons_self, List.mem_cons_self, true_and, present]
      by_cases last : degreeOf inDegree node - 1 = 0
      · rw [if_pos last, List.count_append, List.count_singleton_self]
        rw [if_neg (by omega), if_pos (by omega)]
      · rw [if_neg last]
        by_cases all : degreeOf inDegree node - 1 = rest.count node
        · rw [if_pos (by omega), if_pos (by omega)]
        · rw [if_neg (by omega), if_neg (by omega)]
    · have counts : (succ :: rest).count node = rest.count node := List.count_cons_of_ne (Ne.symm same)
      have members : node ∈ succ :: rest ↔ node ∈ rest := by simp [same]
      have pushed : (if degreeOf inDegree succ - 1 = 0 then seeds ++ [succ] else seeds).count node = seeds.count node := by
        split
        · rw [List.count_append, List.count_singleton, if_neg (by simpa using Ne.symm same), Nat.add_zero]
        · rfl
      simp only [if_neg same, counts, members, pushed]

theorem takeAway_eq (graph : ServiceGraph) (inDegree : FiniteMap NodeId Int) (wave : List NodeId) :
    takeAway graph inDegree wave = (wave.flatMap graph.succs).foldl decrement (inDegree, []) := by
  rw [takeAway, List.foldl_flatMap]
  simp only [ServiceGraph.succs, List.foldl_map]

end Pass

section Loop
variable {graph : ServiceGraph} {done wave : List NodeId}

theorem ServiceGraph.nodes_nodup (graph : ServiceGraph) : graph.nodes.Nodup := List.nodup_range

theorem openEdges_eq_zero {node : NodeId} : openEdges graph done node = 0 ↔
    ∀ source ∈ graph.nodes, node ∈ graph.succs source → source ∈ done := by
  rw [openEdges, List.count_eq_zero]
  simp only [List.mem_flatMap, List.mem_filter, decide_eq_true_eq, not_exists, not_and, and_imp]
  exact forall_congr' fun source => forall_congr' fun _ => not_imp_comm.trans (by rw [not_not])

theorem ready_iff {node : NodeId} : Ready graph.nodes graph.succs done node ↔
    node ∈ graph.nodes ∧ node ∉ done ∧ openEdges graph done node = 0 := by
  rw [openEdges_eq_zero, Ready]

/-- The edges of a wave are those that are open before it and not after. -/
theorem openEdges_wave (known : wave ⊆ graph.nodes) (distinct : wave.Nodup) (fresh : ∀ node ∈ wave, node ∉ done)
    (node : NodeId) : openEdges graph done node =
      (wave.flatMap graph.succs).count node + openEdges graph (done ++ wave) node := by
  have parts : (graph.nodes.filter fun source => source ∉ done).Perm
      (wave ++ graph.nodes.filter fun source => source ∉ done ++ wave) := by
    rw [List.perm_ext_iff_of_nodup (graph.nodes_nodup.filter _)]
    · intro source
      simp only [List.mem_filter, List.mem_append, decide_eq_true_eq, not_or]
      constructor
      · rintro ⟨among, open_⟩
        by_cases inWave : source ∈ wave
        · exact .inl inWave
        · exact .inr ⟨among, open_, inWave⟩
      · rintro (inWave | ⟨among, open_, _⟩)
        · exact ⟨known inWave, fresh source inWave⟩
        · exact ⟨among, open_⟩
    · refine List.nodup_append.mpr ⟨distinct, graph.nodes_nodup.filter _, fun one inWave other later same => ?_⟩
      subst same
      simp only [List.mem_filter, List.mem_append, decide_eq_true_eq, not_or] at later
      exact later.2.2 inWave
  rw [openEdges, (parts.flatMap_right graph.succs).count_eq, List.flatMap_append, List.count_append, openEdges]

/-- What a wave frees is what is ready after it. -/
theorem freed_iff (closed : graph.Closed) (settled : Settled graph done)
    (ready : ∀ node, node ∈ wave ↔ Ready graph.nodes graph.succs done node) {node : NodeId} :
    node ∈ wave.flatMap graph.succs ∧ openEdges graph (done ++ wave) node = 0 ↔
      Ready graph.nodes graph.succs (done ++ wave) node := by
  rw [ready_iff]
  constructor
  · rintro ⟨freed, none⟩
    obtain ⟨source, inWave, enters⟩ := List.mem_flatMap.mp freed
    obtain ⟨known, fresh, _⟩ := (ready source).mp inWave
    refine ⟨closed source node enters, fun old => ?_, none⟩
    rcases List.mem_append.mp old with before | here
    · exact fresh (settled node before source known enters)
    · exact fresh (((ready node).mp here).2.2 source known enters)
  · rintro ⟨known, fresh, none⟩
    refine ⟨?_, none⟩
    simp only [List.mem_append, not_or] at fresh
    have blocked : ¬ Ready graph.nodes graph.succs done node := fun free => fresh.2 ((ready node).mpr free)
    have entered : ∃ source ∈ graph.nodes, node ∈ graph.succs source ∧ source ∉ done := by
      by_contra unentered
      push Not at unentered
      exact blocked ⟨known, fresh.1, unentered⟩
    obtain ⟨source, among, enters, open_⟩ := entered
    have inWave := (List.mem_append.mp (openEdges_eq_zero.mp none source among enters)).resolve_left open_
    exact List.mem_flatMap.mpr ⟨source, inWave, enters⟩

theorem settled_append (settled : Settled graph done)
    (ready : ∀ node, node ∈ wave ↔ Ready graph.nodes graph.succs done node) : Settled graph (done ++ wave) := by
  intro node member source known enters
  rcases List.mem_append.mp member with before | here
  · exact List.mem_append_left _ (settled node before source known enters)
  · exact List.mem_append_left _ (((ready node).mp here).2.2 source known enters)

theorem waveLoop_next {inDegree : FiniteMap NodeId Int} {queue : List NodeId} (some : queue ≠ []) (rounds : Nat)
    (remaining : Int) : waveLoop graph (rounds + 1) inDegree queue remaining =
      let taken := ((sortNodes queue).flatMap graph.succs).foldl decrement (inDegree, [])
      let rest := waveLoop graph rounds taken.1 (sortNodes taken.2) (remaining - (sortNodes queue).length)
      (sortNodes queue :: rest.1, rest.2) := by
  rw [waveLoop, if_neg some]
  dsimp only
  rw [takeAway_eq]

/-- What holds of the counters and the queue between two waves, with what is done so far. -/
structure Underway (graph : ServiceGraph) (done : List NodeId) (inDegree : FiniteMap NodeId Int) (queue : List NodeId) :
    Prop where
  counted : Counted graph done inDegree
  settled : Settled graph done
  once : done.Nodup
  known : done ⊆ graph.nodes
  distinct : queue.Nodup
  ready : ∀ node, node ∈ queue ↔ Ready graph.nodes graph.succs done node

namespace Underway
variable {inDegree : FiniteMap NodeId Int} {queue : List NodeId}

theorem ready_wave (underway : Underway graph done inDegree queue) (node : NodeId) :
    node ∈ sortNodes queue ↔ Ready graph.nodes graph.succs done node := mem_sortNodes.trans (underway.ready node)

theorem known_wave (underway : Underway graph done inDegree queue) : sortNodes queue ⊆ graph.nodes :=
  fun node member => ((underway.ready_wave node).mp member).1

theorem fresh_wave (underway : Underway graph done inDegree queue) : ∀ node ∈ sortNodes queue, node ∉ done :=
  fun node member => ((underway.ready_wave node).mp member).2.1

theorem distinct_wave (underway : Underway graph done inDegree queue) : (sortNodes queue).Nodup :=
  sortNodes_nodup.mpr underway.distinct

theorem parts (underway : Underway graph done inDegree queue) (node : NodeId) : openEdges graph done node =
    ((sortNodes queue).flatMap graph.succs).count node + openEdges graph (done ++ sortNodes queue) node :=
  openEdges_wave underway.known_wave underway.distinct_wave underway.fresh_wave node

/-- No counter goes below zero in a wave. -/
theorem enough_edges (underway : Underway graph done inDegree queue) (node : NodeId) :
    (((sortNodes queue).flatMap graph.succs).count node : Int) ≤ degreeOf inDegree node := by
  rw [underway.counted, underway.parts node]
  omega

theorem after_wave (closed : graph.Closed) (underway : Underway graph done inDegree queue) :
    Underway graph (done ++ sortNodes queue) (((sortNodes queue).flatMap graph.succs).foldl decrement (inDegree, [])).1
      (sortNodes (((sortNodes queue).flatMap graph.succs).foldl decrement (inDegree, [])).2) := by
  have seeds (node : NodeId) := decrement_seeds [] underway.enough_edges node
  have ready (node : NodeId) : node ∈ (((sortNodes queue).flatMap graph.succs).foldl decrement (inDegree, [])).2 ↔
      Ready graph.nodes graph.succs (done ++ sortNodes queue) node := by
    rw [← freed_iff closed underway.settled underway.ready_wave, ← List.count_pos_iff, seeds node, underway.counted,
      underway.parts node, List.count_nil]
    split_ifs with freed
    · exact iff_of_true (by omega) ⟨freed.1, by omega⟩
    · exact iff_of_false (by omega) fun both => freed ⟨both.1, by omega⟩
  have distinct : (((sortNodes queue).flatMap graph.succs).foldl decrement (inDegree, [])).2.Nodup := by
    refine List.nodup_iff_count_le_one.mpr fun node => ?_
    rw [seeds node, List.count_nil]
    split_ifs <;> omega
  refine { counted := fun node => ?_, settled := settled_append underway.settled underway.ready_wave, once := ?_,
           known := List.append_subset.mpr ⟨underway.known, underway.known_wave⟩,
           distinct := sortNodes_nodup.mpr distinct, ready := fun node => mem_sortNodes.trans (ready node) }
  · rw [decrement_degree, underway.counted, underway.parts node]
    omega
  · exact List.nodup_append.mpr ⟨underway.once, underway.distinct_wave, fun one before other here same =>
      underway.fresh_wave other here (same ▸ before)⟩

end Underway

theorem waveLoop_levels (closed : graph.Closed) {rounds : Nat} {inDegree : FiniteMap NodeId Int} {queue : List NodeId}
    {remaining : Int} (underway : Underway graph done inDegree queue) (enough : graph.nodes.length ≤ done.length + rounds) :
    ∃ final, Levels graph.nodes graph.succs done (waveLoop graph rounds inDegree queue remaining).1 final ∧
      (∀ node, ¬ Ready graph.nodes graph.succs final node) ∧
      Counted graph final (waveLoop graph rounds inDegree queue remaining).2.1 ∧
      (waveLoop graph rounds inDegree queue remaining).2.2 =
        remaining - (waveLoop graph rounds inDegree queue remaining).1.flatten.length := by
  induction rounds generalizing done inDegree queue remaining with
  | zero =>
    refine ⟨done, .done, fun node free => ?_, underway.counted, by simp [waveLoop]⟩
    have all := (List.subperm_of_subset underway.once underway.known).perm_of_length_le enough
    exact free.2.1 (all.mem_iff.mpr free.1)
  | succ rounds ih =>
    by_cases empty : queue = []
    · rw [waveLoop, if_pos empty]
      refine ⟨done, .done, fun node free => ?_, underway.counted, by simp⟩
      have member := (underway.ready node).mpr free
      rw [empty] at member
      cases member
    · rw [waveLoop_next empty]
      dsimp only
      have size := sortNodes_length_pos empty
      obtain ⟨final, levels, stuck, counts, left⟩ := @ih (done ++ sortNodes queue) _ _
        (remaining - (sortNodes queue).length) (underway.after_wave closed) (by rw [List.length_append]; omega)
      refine ⟨final, .wave (List.length_pos_iff.mp size) underway.distinct_wave underway.ready_wave levels, stuck, counts, ?_⟩
      rw [left, List.flatten_cons, List.length_append]
      omega

end Loop

section Building
variable {graph : ServiceGraph}

theorem outgoing_addEdge (dependency dependent node : NodeId) (kind : EdgeKind) :
    (graph.addEdge dependency dependent kind).outgoing node =
      if node = dependency then graph.outgoing node ++ [(dependent, kind)] else graph.outgoing node := by
  simp only [ServiceGraph.addEdge, ServiceGraph.outgoing, FiniteMap.lookup_insert_if]
  split
  next same => rw [same, Option.getD_some]
  next => rfl

theorem counted_addEdge {dependency : NodeId} (known : dependency ∈ graph.nodes) (dependent : NodeId) (kind : EdgeKind)
    (counted : Counted graph [] graph.inDegree) :
    Counted (graph.addEdge dependency dependent kind) [] (graph.addEdge dependency dependent kind).inDegree := by
  have succs (node : NodeId) : (graph.addEdge dependency dependent kind).succs node =
      if node = dependency then graph.succs node ++ [dependent] else graph.succs node := by
    rw [ServiceGraph.succs, outgoing_addEdge]
    split
    · rw [List.map_append, ServiceGraph.succs, List.map_singleton]
    · rfl
  have whole (graph : ServiceGraph) (node : NodeId) : openEdges graph [] node =
      (graph.nodes.map fun source => (graph.succs source).count node).sum := by
    rw [openEdges, List.count_flatMap]
    simp [Function.comp_def]
  intro node
  have before := counted node
  rw [whole] at before
  have degree : degreeOf (graph.addEdge dependency dependent kind).inDegree node =
      if node = dependent then degreeOf graph.inDegree dependent + 1 else degreeOf graph.inDegree node :=
    degreeOf_insert _ _ _ _
  rw [degree, whole]
  show _ = (((graph.nodes.map fun source => ((graph.addEdge dependency dependent kind).succs source).count node).sum : Nat) : Int)
  by_cases same : node = dependent
  · subst same
    rw [if_pos rfl, sum_map_succ graph.nodes_nodup (fun source => (graph.succs source).count node) _ known]
    · omega
    · rw [succs, if_pos rfl, List.count_append, List.count_singleton_self]
    · intro other different
      rw [succs, if_neg different]
  · rw [if_neg same]
    have unchanged (source : NodeId) : ((graph.addEdge dependency dependent kind).succs source).count node =
        (graph.succs source).count node := by
      rw [succs]
      split
      · rw [List.count_append, List.count_singleton, if_neg (by simpa using Ne.symm same), Nat.add_zero]
      · rfl
    simp only [unchanged]
    omega

/-- What a graph is after some dependencies have been added. -/
structure Built (names : List String) (added : List (String × String × EdgeKind)) (graph : ServiceGraph) : Prop where
  sameNames : graph.names = names
  known : ∀ name dep kind, (name, dep, kind) ∈ added → dep ∈ names
  outgoing : ∀ node succ kind, (succ, kind) ∈ graph.outgoing node ↔
    ∃ name dep, (name, dep, kind) ∈ added ∧ names.idxOf dep = node ∧ names.idxOf name = succ
  counted : Counted graph [] graph.inDegree
  counters : ∀ node, node ∈ graph.inDegree.keys ↔ node ∈ graph.nodes

theorem emptyGraph_built (names : List String) : Built names [] (emptyGraph names) := by
  have zeros (nodes : List NodeId) (degrees : FiniteMap NodeId Int) (node : NodeId) :
      (nodes.foldl (fun degrees node => AList.insert node 0 degrees) degrees).lookup node =
        if node ∈ nodes then some 0 else degrees.lookup node := by
    induction nodes generalizing degrees with
    | nil => simp
    | cons head rest ih =>
      rw [List.foldl_cons, ih, FiniteMap.lookup_insert_if]
      by_cases later : node ∈ rest
      · rw [if_pos later, if_pos (List.mem_cons_of_mem _ later)]
      · rw [if_neg later]
        by_cases here : node = head
        · rw [if_pos here, if_pos (here ▸ List.mem_cons_self)]
        · rw [if_neg here, if_neg (by simp [here, later])]
  have counters (node : NodeId) : (emptyGraph names).inDegree.lookup node =
      if node ∈ List.range names.length then some 0 else none := by
    rw [emptyGraph, zeros]
    rfl
  refine ⟨rfl, fun _ _ _ member => absurd member List.not_mem_nil, fun node succ kind => ?_, fun node => ?_, fun node => ?_⟩
  · simp [emptyGraph, ServiceGraph.outgoing]
  · have none : openEdges (emptyGraph names) [] node = 0 :=
      openEdges_eq_zero.mpr fun source _ enters => by simp [emptyGraph, ServiceGraph.succs, ServiceGraph.outgoing] at enters
    rw [none, degreeOf, counters]
    split <;> rfl
  · rw [← AList.mem_keys, ← AList.lookup_isSome, counters, ServiceGraph.nodes, emptyGraph]
    split
    next inside => exact iff_of_true rfl inside
    next outside => exact iff_of_false (by simp) outside

theorem Built.add {names : List String} {added : List (String × String × EdgeKind)} (built : Built names added graph)
    {dependency : String × String × EdgeKind} (named : dependency.1 ∈ names) {after : ServiceGraph}
    (done : addDependency graph dependency = .ok after) : Built names (added ++ [dependency]) after := by
  obtain ⟨name, dep, kind⟩ := dependency
  simp only [addDependency, built.sameNames] at done
  split_ifs at done with present
  cases done
  have inside : names.idxOf dep ∈ graph.nodes := by
    rw [ServiceGraph.nodes, built.sameNames]
    exact List.mem_range.mpr (List.idxOf_lt_length_of_mem present)
  have insideToo : names.idxOf name ∈ graph.nodes := by
    rw [ServiceGraph.nodes, built.sameNames]
    exact List.mem_range.mpr (List.idxOf_lt_length_of_mem named)
  refine ⟨built.sameNames, ?_, ?_, counted_addEdge inside _ kind built.counted, fun node => ?_⟩
  · intro other found sort member
    rcases List.mem_append.mp member with before | now
    · exact built.known other found sort before
    · cases List.mem_singleton.mp now
      exact present
  · intro node succ sort
    rw [outgoing_addEdge]
    constructor
    · intro member
      split_ifs at member with here
      · rcases List.mem_append.mp member with before | now
        · obtain ⟨other, found, among, places⟩ := (built.outgoing node succ sort).mp before
          exact ⟨other, found, List.mem_append_left _ among, places⟩
        · cases List.mem_singleton.mp now
          exact ⟨name, dep, List.mem_append_right _ List.mem_cons_self, here.symm, rfl⟩
      · obtain ⟨other, found, among, places⟩ := (built.outgoing node succ sort).mp member
        exact ⟨other, found, List.mem_append_left _ among, places⟩
    · rintro ⟨other, found, among, atNode, atSucc⟩
      rcases List.mem_append.mp among with before | now
      · have earlier := (built.outgoing node succ sort).mpr ⟨other, found, before, atNode, atSucc⟩
        split_ifs
        · exact List.mem_append_left _ earlier
        · exact earlier
      · cases List.mem_singleton.mp now
        rw [if_pos atNode.symm, ← atSucc]
        exact List.mem_append_right _ List.mem_cons_self
  · show node ∈ (AList.insert (names.idxOf name) _ graph.inDegree).keys ↔ node ∈ graph.nodes
    rw [← AList.mem_keys, AList.mem_insert, AList.mem_keys, built.counters]
    exact or_iff_right_of_imp fun same => same ▸ insideToo

theorem Built.addAll {names : List String} {added rest : List (String × String × EdgeKind)} {after : ServiceGraph}
    (built : Built names added graph) (named : ∀ dependency ∈ rest, dependency.1 ∈ names)
    (done : rest.foldlM addDependency graph = .ok after) : Built names (added ++ rest) after := by
  induction rest generalizing graph added with
  | nil =>
    cases done
    rwa [List.append_nil]
  | cons dependency later ih =>
    rw [List.foldlM_cons] at done
    cases next : addDependency graph dependency with
    | error reason => rw [next] at done; cases done
    | ok middle =>
      rw [next] at done
      have grown := built.add (named dependency List.mem_cons_self) next
      have final := ih grown (fun other member => named other (List.mem_cons_of_mem _ member)) done
      rwa [List.append_assoc] at final

theorem dependencies_named {activeServices : ActiveServices} {dependency : String × String × EdgeKind}
    (member : dependency ∈ dependencies activeServices) : dependency.1 ∈ activeServices.keys := by
  obtain ⟨⟨name, service⟩, active, among⟩ := List.mem_flatMap.mp member
  obtain ⟨dep, _, rfl⟩ := List.mem_map.mp among
  exact AList.mem_keys.mp (AList.lookup_isSome.mp (Option.isSome_iff_exists.mpr ⟨service, FiniteMap.mem_toList.mp active⟩))

theorem buildGraph_built {activeServices : ActiveServices} {graph : ServiceGraph}
    (done : buildGraph activeServices = .ok graph) : Built activeServices.keys (dependencies activeServices) graph :=
  (emptyGraph_built activeServices.keys).addAll (fun _ => dependencies_named) done

theorem Built.closed {names : List String} {added : List (String × String × EdgeKind)} (built : Built names added graph)
    (named : ∀ dependency ∈ added, dependency.1 ∈ names) : graph.Closed := by
  intro node succ enters
  obtain ⟨⟨found, kind⟩, among, rfl⟩ := List.mem_map.mp enters
  obtain ⟨name, dep, member, _, rfl⟩ := (built.outgoing node found kind).mp among
  rw [ServiceGraph.nodes, built.sameNames]
  exact List.mem_range.mpr (List.idxOf_lt_length_of_mem (named _ member))

def seedNodes (graph : ServiceGraph) : List NodeId :=
  (graph.inDegree.toList.filter fun entry => entry.2 = 0).map Prod.fst

theorem Built.underway {names : List String} {added : List (String × String × EdgeKind)} (built : Built names added graph) :
    Underway graph [] graph.inDegree (sortNodes (seedNodes graph)) := by
  have ready (node : NodeId) : node ∈ sortNodes (seedNodes graph) ↔ Ready graph.nodes graph.succs [] node := by
    rw [mem_sortNodes, seedNodes, ready_iff, ← built.counters, List.mem_map]
    have degree := built.counted node
    rw [degreeOf] at degree
    constructor
    · rintro ⟨⟨found, value⟩, member, rfl⟩
      obtain ⟨among, zero⟩ := List.mem_filter.mp member
      have held := FiniteMap.mem_toList.mp among
      have none : value = 0 := of_decide_eq_true zero
      rw [held, none] at degree
      refine ⟨AList.mem_keys.mp (AList.lookup_isSome.mp (by rw [held]; rfl)), List.not_mem_nil, ?_⟩
      have counts : (0 : Int) = openEdges graph [] found := degree
      show openEdges graph [] found = 0
      omega
    · rintro ⟨listed, _, none⟩
      obtain ⟨value, held⟩ := Option.isSome_iff_exists.mp (AList.lookup_isSome.mpr (AList.mem_keys.mpr listed))
      rw [held, none, Option.getD_some] at degree
      exact ⟨(node, value), List.mem_filter.mpr ⟨FiniteMap.mem_toList.mpr held, decide_eq_true degree⟩, rfl⟩
  have distinct : (seedNodes graph).Nodup := by
    have keys : (graph.inDegree.toList.map Prod.fst).Nodup := by
      simp only [FiniteMap.toList, List.map_map, Function.comp_def]
      exact graph.inDegree.nodupKeys
    exact keys.sublist (List.filter_sublist.map Prod.fst)
  exact ⟨built.counted, fun _ member => absurd member List.not_mem_nil, List.nodup_nil, List.nil_subset _,
    sortNodes_nodup.mpr distinct, ready⟩

/-- The waves of a graph are its levels, and they have every node. -/
theorem topologicalWaves_levels {activeServices : ActiveServices} {waves : List (List NodeId)}
    (made : buildGraph activeServices = .ok graph) (done : topologicalWaves graph = .ok waves) :
    ∃ final, Levels graph.nodes graph.succs [] waves final ∧ ∀ node ∈ graph.nodes, node ∈ waves.flatten := by
  have built := buildGraph_built made
  have closed := built.closed fun _ => dependencies_named
  obtain ⟨final, levels, _, _, left⟩ := @waveLoop_levels graph [] closed graph.names.length _ _
    graph.names.length built.underway (by simp [ServiceGraph.nodes])
  simp only [seedNodes] at levels left
  rw [topologicalWaves] at done
  dsimp only at done
  split_ifs at done with cyclic
  cases done
  refine ⟨final, levels, fun node known => levels.mem_flatten ?_ known⟩
  rw [left] at cyclic
  rw [ServiceGraph.nodes, List.length_range]
  omega

end Building

end Burble.SelurCompose
