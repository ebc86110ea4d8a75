import Mathlib.Data.Nat.ModEq
import Mathlib.Data.List.Nodup
import Mathlib.Data.List.Flatten
import Mathlib.Data.List.Perm.Subperm
import Mathlib.Data.Fintype.Card
import Mathlib.Data.Set.Finite.Basic
import Mathlib.Order.Bounds.Defs
import Mathlib.Order.WellFounded

namespace Burble

universe u
variable {Node : Type u} (nodes : List Node) (outgoing : Node → List Node)

/-- A node that is not done, and is entered from done nodes only. -/
def Ready (done : List Node) (node : Node) : Prop :=
  node ∈ nodes ∧ node ∉ done ∧ ∀ source ∈ nodes, node ∈ outgoing source → source ∈ done

/-- Levels of a graph from what is done, each of all that is ready, up to what is done in the end. -/
inductive Levels : List Node → List (List Node) → List Node → Prop
  | done {done} : Levels done [] done
  | wave {done wave waves final} : wave ≠ [] → wave.Nodup → (∀ node, node ∈ wave ↔ Ready nodes outgoing done node) →
      Levels (done ++ wave) waves final → Levels done (wave :: waves) final

namespace Levels
variable {nodes : List Node} {outgoing : Node → List Node} {done final : List Node} {waves : List (List Node)}

theorem mem_nodes (levels : Levels nodes outgoing done waves final) {node : Node} (member : node ∈ waves.flatten) :
    node ∈ nodes := by
  induction levels with
  | done => cases member
  | wave _ _ ready _ ih =>
    rcases List.mem_append.mp (List.flatten_cons ▸ member) with here | later
    · exact ((ready node).mp here).1
    · exact ih later

theorem nodup (levels : Levels nodes outgoing done waves final) (once : done.Nodup) :
    (done ++ waves.flatten).Nodup := by
  induction levels with
  | done => simpa using once
  | @wave done wave waves final _ distinct ready _ ih =>
    have both : (done ++ wave).Nodup := by
      refine List.nodup_append.mpr ⟨once, distinct, fun one before other here same => ?_⟩
      subst same
      exact ((ready one).mp here).2.1 before
    rw [List.flatten_cons, ← List.append_assoc]
    exact ih both

theorem nodup_flatten (levels : Levels nodes outgoing [] waves final) : waves.flatten.Nodup :=
  levels.nodup List.nodup_nil

/-- What enters a node is done before the node's level. -/
theorem entered_before (levels : Levels nodes outgoing done waves final) {front back : List (List Node)}
    {wave : List Node} (split : waves = front ++ wave :: back) {node source : Node} (member : node ∈ wave)
    (known : source ∈ nodes) (enters : node ∈ outgoing source) : source ∈ done ++ front.flatten := by
  induction levels generalizing front with
  | done => exact absurd split (by simp)
  | @wave done first waves final _ _ ready _ ih =>
    cases front with
    | nil =>
      obtain ⟨rfl, _⟩ := List.cons.inj split
      exact List.mem_append_left _ (((ready node).mp member).2.2 source known enters)
    | cons head tail =>
      obtain ⟨rfl, rest⟩ := List.cons.inj split
      rw [List.flatten_cons, ← List.append_assoc]
      exact ih rest

/-- Every node is in some level as soon as there are as many as there are nodes. -/
theorem mem_flatten (levels : Levels nodes outgoing [] waves final) (all : nodes.length ≤ waves.flatten.length)
    {node : Node} (known : node ∈ nodes) : node ∈ waves.flatten := by
  have within : waves.flatten ⊆ nodes := fun _ => levels.mem_nodes
  have same := (List.subperm_of_subset levels.nodup_flatten within).perm_of_length_le all
  exact same.mem_iff.mpr known

end Levels

/-- A sum over distinct items grows by one with one of its terms. -/
theorem sum_map_succ {items : List Node} (once : items.Nodup) (before after : Node → Nat) {item : Node}
    (member : item ∈ items) (grown : after item = before item + 1) (same : ∀ other, other ≠ item → after other = before other) :
    (items.map after).sum = (items.map before).sum + 1 := by
  induction items with
  | nil => cases member
  | cons head rest ih =>
    obtain ⟨fresh, once⟩ := List.nodup_cons.mp once
    simp only [List.map_cons, List.sum_cons]
    rcases List.mem_cons.mp member with rfl | later
    · have others : rest.map after = rest.map before :=
        List.map_congr_left fun other among => same other fun equal => fresh (equal ▸ among)
      rw [others, grown]
      omega
    · rw [ih once later, same head fun equal => fresh (equal ▸ later)]
      omega

end Burble

namespace Burble

universe u v
variable {Node : Type u} {Other : Type v}

/-- A chain of so many edges that ends in a node. -/
inductive ChainTo (enters : Node → Node → Prop) : Nat → Node → Prop
  | start {node} : ChainTo enters 0 node
  | next {length source node} : ChainTo enters length source → enters source node → ChainTo enters (length + 1) node

/-- A node that is on a cycle, or that a cycle leads to. -/
def Cyclic (enters : Node → Node → Prop) (node : Node) : Prop :=
  ∃ other, Relation.TransGen enters other other ∧ Relation.ReflTransGen enters other node

namespace ChainTo
variable {enters : Node → Node → Prop} {length short : Nat} {source node : Node}

theorem succ_iff : ChainTo enters (length + 1) node ↔ ∃ source, ChainTo enters length source ∧ enters source node := by
  constructor
  · rintro (_ | ⟨chain, edge⟩)
    exact ⟨_, chain, edge⟩
  · rintro ⟨source, chain, edge⟩
    exact .next chain edge

theorem shorter (chain : ChainTo enters (length + 1) node) : ChainTo enters length node := by
  induction length generalizing node with
  | zero => exact .start
  | succ length ih =>
    obtain ⟨source, before, edge⟩ := succ_iff.mp chain
    exact .next (ih before) edge

theorem of_le (chain : ChainTo enters length node) (le : short ≤ length) : ChainTo enters short node := by
  induction le with
  | refl => exact chain
  | step _ ih => exact ih chain.shorter

/-- As chains can be shortened, the longest is the one that cannot be prolonged. -/
theorem isGreatest_iff : IsGreatest {length | ChainTo enters length node} length ↔
    ChainTo enters length node ∧ ¬ ChainTo enters (length + 1) node := by
  constructor
  · rintro ⟨chain, most⟩
    exact ⟨chain, fun longer => Nat.not_succ_le_self length (most longer)⟩
  · rintro ⟨chain, most⟩
    refine ⟨chain, fun other found => ?_⟩
    by_contra more
    exact most (of_le found (Nat.lt_of_not_le more))

theorem map {others : Other → Other → Prop} (place : Node → Other) (keeps : ∀ {one other}, enters one other →
    others (place one) (place other)) (chain : ChainTo enters length node) : ChainTo others length (place node) := by
  induction chain with
  | start => exact .start
  | next _ edge ih => exact .next ih (keeps edge)

theorem onward (chain : ChainTo enters length source) (path : Relation.ReflTransGen enters source node) :
    ChainTo enters length node := by
  induction path with
  | refl => exact chain
  | tail _ edge ih => exact (ChainTo.next ih edge).shorter

theorem of_cycle (cycle : Relation.TransGen enters node node) (length : Nat) : ChainTo enters length node := by
  induction length with
  | zero => exact .start
  | succ length ih =>
    obtain ⟨source, path, edge⟩ := Relation.TransGen.tail'_iff.mp cycle
    exact .next (ih.onward path) edge

end ChainTo

namespace Cyclic
variable {enters : Node → Node → Prop} {node : Node}

theorem chain (cyclic : Cyclic enters node) (length : Nat) : ChainTo enters length node := by
  obtain ⟨other, cycle, path⟩ := cyclic
  exact (ChainTo.of_cycle cycle length).onward path

theorem next {after : Node} (cyclic : Cyclic enters node) (edge : enters node after) : Cyclic enters after := by
  obtain ⟨other, cycle, path⟩ := cyclic
  exact ⟨other, cycle, path.tail edge⟩

theorem entered (cyclic : Cyclic enters node) : ∃ source, enters source node := by
  obtain ⟨source, -, edge⟩ := ChainTo.succ_iff.mp (cyclic.chain 1)
  exact ⟨source, edge⟩

theorem map {others : Other → Other → Prop} (place : Node → Other) (keeps : ∀ {one other}, enters one other →
    others (place one) (place other)) (cyclic : Cyclic enters node) : Cyclic others (place node) := by
  obtain ⟨other, cycle, path⟩ := cyclic
  exact ⟨place other, cycle.lift place fun _ _ => keeps, path.lift place fun _ _ => keeps⟩

/-- Among finitely many nodes, each entered from another of them, cycles lead to all. -/
theorem of_entered {stuck : Node → Prop} {nodes : List Node} (within : ∀ node, stuck node → node ∈ nodes)
    (entered : ∀ node, stuck node → ∃ source, stuck source ∧ enters source node) (member : stuck node) :
    Cyclic enters node := by
  by_contra free
  have finite : Finite {node // stuck node ∧ ¬ Cyclic enters node} :=
    (nodes.finite_toSet.subset fun node found => within node found.1).to_subtype
  let precedes (one other : {node // stuck node ∧ ¬ Cyclic enters node}) : Prop := Relation.TransGen enters one.1 other.1
  have transitive : IsTrans _ precedes := ⟨fun _ _ _ => Relation.TransGen.trans⟩
  have irreflexive : Std.Irrefl precedes := ⟨fun one cycle => one.2.2 ⟨one.1, cycle, .refl⟩⟩
  obtain ⟨least, -, first⟩ :=
    (Finite.wellFounded_of_trans_of_irrefl precedes).has_min Set.univ ⟨⟨node, member, free⟩, trivial⟩
  obtain ⟨source, there, edge⟩ := entered least.1 least.2.1
  exact first ⟨source, there, fun cyclic => least.2.2 (cyclic.next edge)⟩ trivial (.single edge)

end Cyclic

/-- An edge of a graph that is given by what its nodes lead to. -/
def Edge (nodes : List Node) (outgoing : Node → List Node) (source node : Node) : Prop :=
  source ∈ nodes ∧ node ∈ outgoing source

namespace Levels
variable {nodes : List Node} {outgoing : Node → List Node} {done final wave : List Node} {waves : List (List Node)} {depth : Nat}

theorem final_eq (levels : Levels nodes outgoing done waves final) : final = done ++ waves.flatten := by
  induction levels with
  | done => simp
  | wave _ _ _ _ ih => rw [ih, List.flatten_cons, List.append_assoc]

/-- What is done after a level is what only shorter chains end in. -/
theorem done_next (settled : ∀ node ∈ nodes, node ∈ done ↔ ¬ ChainTo (Edge nodes outgoing) depth node)
    (ready : ∀ node, node ∈ wave ↔ Ready nodes outgoing done node) (node : Node) (known : node ∈ nodes) :
    node ∈ done ++ wave ↔ ¬ ChainTo (Edge nodes outgoing) (depth + 1) node := by
  rw [List.mem_append]
  constructor
  · rintro (before | here) chain
    · exact (settled node known).mp before chain.shorter
    · obtain ⟨source, chain, among, edge⟩ := ChainTo.succ_iff.mp chain
      exact (settled source among).mp (((ready node).mp here).2.2 source among edge) chain
  · intro short
    by_cases before : node ∈ done
    · exact .inl before
    · refine .inr ((ready node).mpr ⟨known, before, fun source among edge => ?_⟩)
      exact (settled source among).mpr fun chain => short (.next chain ⟨among, edge⟩)

/-- A node is in the level that its longest chain has as many edges as. -/
theorem mem_iff (levels : Levels nodes outgoing done waves final)
    (settled : ∀ node ∈ nodes, node ∈ done ↔ ¬ ChainTo (Edge nodes outgoing) depth node) {place : Nat}
    (found : waves[place]? = some wave) (node : Node) : node ∈ wave ↔ node ∈ nodes ∧
      ChainTo (Edge nodes outgoing) (depth + place) node ∧ ¬ ChainTo (Edge nodes outgoing) (depth + place + 1) node := by
  induction levels generalizing depth place with
  | done => cases found
  | @wave done first waves final _ _ ready _ ih =>
    have next := done_next settled ready
    cases place with
    | zero =>
      cases found
      constructor
      · intro here
        have free := (ready node).mp here
        exact ⟨free.1, not_not.mp fun short => free.2.1 ((settled node free.1).mpr short),
          (next node free.1).mp (List.mem_append_right _ here)⟩
      · rintro ⟨known, chain, short⟩
        refine (List.mem_append.mp ((next node known).mpr short)).resolve_left fun before => ?_
        exact (settled node known).mp before chain
    | succ place =>
      have later := ih next (List.getElem?_cons_succ ▸ found)
      rwa [Nat.add_assoc depth 1, Nat.add_comm 1] at later

theorem final_iff (levels : Levels nodes outgoing done waves final)
    (settled : ∀ node ∈ nodes, node ∈ done ↔ ¬ ChainTo (Edge nodes outgoing) depth node) (node : Node) (known : node ∈ nodes) :
    node ∈ final ↔ ¬ ChainTo (Edge nodes outgoing) (depth + waves.length) node := by
  induction levels generalizing depth with
  | done => exact settled node known
  | @wave done first waves final _ _ ready _ ih =>
    rw [ih (done_next settled ready), List.length_cons, Nat.add_assoc, Nat.add_comm 1]

theorem none_done (node : Node) (_ : node ∈ nodes) : node ∈ [] ↔ ¬ ChainTo (Edge nodes outgoing) 0 node :=
  iff_of_false List.not_mem_nil fun none => none .start

/-- Where nothing is ready any more, what is left is what cycles lead to. -/
theorem left_iff (levels : Levels nodes outgoing [] waves final) (stuck : ∀ node, ¬ Ready nodes outgoing final node)
    {node : Node} (known : node ∈ nodes) : node ∉ final ↔ Cyclic (Edge nodes outgoing) node := by
  constructor
  · intro left
    refine @Cyclic.of_entered _ _ _ (fun node => node ∈ nodes ∧ node ∉ final) nodes (fun _ => And.left) ?_ ⟨known, left⟩
    rintro other ⟨among, open_⟩
    by_contra unentered
    push Not at unentered
    refine stuck other ⟨among, open_, fun source there edge => ?_⟩
    by_contra early
    exact unentered source ⟨there, early⟩ ⟨there, edge⟩
  · intro cyclic ended
    exact (levels.final_iff none_done node known).mp ended (cyclic.chain _)

end Levels

end Burble
