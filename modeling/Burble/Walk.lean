import Burble.Fallible
import Burble.FiniteMap

namespace Burble

namespace FiniteMap
variable {Reason Key Value Other : Type}

theorem keys_zipWith (entries : List (Sigma fun _ : Key => Value)) (values : List Other) :
    (entries.zipWith (fun entry value => (⟨entry.1, value⟩ : Sigma fun _ : Key => Other)) values).keys.Sublist
      entries.keys := by
  induction entries generalizing values with
  | nil => exact List.Sublist.slnil
  | cons entry rest ih =>
    cases values with
    | nil => exact List.nil_sublist _
    | cons value values => exact (ih values).cons_cons entry.1

/-- Change the values one after the other, up to the first failure. -/
def mapValuesM (change : Value → Except Reason Other) (entries : FiniteMap Key Value) :
    Except Reason (FiniteMap Key Other) := do
  let values ← entries.entries.mapM fun entry => change entry.2
  return ⟨entries.entries.zipWith (fun entry value => ⟨entry.1, value⟩) values,
    List.Nodup.sublist (keys_zipWith _ _) entries.nodupKeys⟩

theorem mapValues_eq_iff {f g : Value → Other} {entries : FiniteMap Key Value} :
    entries.mapValues f = entries.mapValues g ↔ ∀ entry ∈ entries.toList, f entry.2 = g entry.2 := by
  rw [AList.ext_iff, toList, List.forall_mem_map, mapValues, mapValues, List.map_inj_left]
  refine forall₂_congr fun entry _ => ⟨fun same => ?_, fun same => by rw [same]⟩
  simpa using same

end FiniteMap

/-! Visits: fallible changes of the parts of a value. -/

variable {Reason Part Item : Type}

section Change
variable (change : Part → Except Reason Part)

def Succeeds (part : Part) : Prop := ∃ result, change part = .ok result

/-- What becomes of a part; one whose change fails stays. -/
def settled (part : Part) : Part := (change part).toOption.getD part

/-- A visit succeeds where all changes of parts do, and replaces the parts by what becomes of them. -/
def Visits (visit : Item → Except Reason Item) (parts : Item → List Part) (replace : (Part → Part) → Item → Item) :
    Prop :=
  ∀ before after, visit before = .ok after ↔
    (∀ part ∈ parts before, Succeeds change part) ∧ after = replace (settled change) before

variable {change}

theorem settled_of_ok {part result : Part} (done : change part = .ok result) : settled change part = result := by
  rw [settled, done]
  rfl

variable {visit : Item → Except Reason Item} {parts : Item → List Part} {replace : (Part → Part) → Item → Item}

theorem Visits.list (visits : Visits change visit parts replace) :
    Visits change (fun items : List Item => items.mapM visit) (fun items => items.flatMap parts)
      fun f items => items.map (replace f) := by
  intro before
  induction before with
  | nil => exact fun after => ⟨fun done => ⟨fun _ member => (by cases member), (Except.ok.inj done).symm⟩,
      fun ⟨_, same⟩ => same ▸ rfl⟩
  | cons item rest ih =>
    intro after
    simp only [List.mapM_cons, Fallible.bind_ok, visits item, ih, List.flatMap_cons, List.forall_mem_append,
      List.map_cons]
    constructor
    · rintro ⟨_, ⟨first, rfl⟩, _, ⟨later, rfl⟩, done⟩
      exact ⟨⟨first, later⟩, (Except.ok.inj done).symm⟩
    · rintro ⟨⟨first, later⟩, rfl⟩
      exact ⟨_, ⟨first, rfl⟩, _, ⟨later, rfl⟩, rfl⟩

theorem Visits.option (visits : Visits change visit parts replace) :
    Visits change (fun item : Option Item => item.mapM visit) (fun item => item.toList.flatMap parts)
      fun f item => item.map (replace f) := by
  intro before after
  cases before with
  | none => exact ⟨fun done => ⟨fun _ member => (by cases member), (Except.ok.inj done).symm⟩,
      fun ⟨_, same⟩ => same ▸ rfl⟩
  | some item =>
    have step : Option.mapM visit (some item) = (visit item >>= fun value => .ok (some value)) := rfl
    simp only [step, Fallible.bind_ok, visits item, Option.toList_some, List.flatMap_singleton, Option.map_some]
    constructor
    · rintro ⟨_, ⟨succeeds, rfl⟩, done⟩
      exact ⟨succeeds, (Except.ok.inj done).symm⟩
    · rintro ⟨succeeds, rfl⟩
      exact ⟨_, ⟨succeeds, rfl⟩, rfl⟩

theorem Visits.values (visits : Visits change visit parts replace) (Key : Type) :
    Visits change (fun entries : FiniteMap Key Item => entries.mapValuesM visit)
      (fun entries => entries.toList.flatMap fun entry => parts entry.2)
      fun f entries => entries.mapValues (replace f) := by
  intro before after
  have all : ∀ values, before.entries.mapM (fun entry => visit entry.2) = .ok values ↔
      (∀ part ∈ before.toList.flatMap fun entry => parts entry.2, Succeeds change part) ∧
        values = before.entries.map fun entry => replace (settled change) entry.2 := by
    intro values
    have walked := visits.list (before.entries.map Sigma.snd) values
    simpa only [List.mapM_map, List.flatMap_map, List.map_map, FiniteMap.toList, Function.comp_def] using walked
  simp only [FiniteMap.mapValuesM, Fallible.bind_ok, all]
  constructor
  · rintro ⟨_, ⟨succeeds, rfl⟩, done⟩
    refine ⟨succeeds, (Except.ok.inj done).symm.trans (AList.ext ?_)⟩
    simp only [List.zipWith_map_right, List.zipWith_self, FiniteMap.mapValues]
  · rintro ⟨succeeds, rfl⟩
    refine ⟨_, ⟨succeeds, rfl⟩, congrArg Except.ok (AList.ext ?_)⟩
    simp only [List.zipWith_map_right, List.zipWith_self, FiniteMap.mapValues]

/-- A visit and what is done next with its result. -/
theorem Visits.bind (visits : Visits change visit parts replace) (Whole : Type) (before : Item)
    (next : Item → Except Reason Whole) (after : Whole) : (visit before >>= next) = .ok after ↔
      (∀ part ∈ parts before, Succeeds change part) ∧ next (replace (settled change) before) = .ok after := by
  rw [Fallible.bind_ok]
  constructor
  · rintro ⟨item, visited, done⟩
    obtain ⟨succeeds, rfl⟩ := (visits before item).mp visited
    exact ⟨succeeds, done⟩
  · rintro ⟨succeeds, done⟩
    exact ⟨_, (visits before _).mpr ⟨succeeds, rfl⟩, done⟩

theorem ok_iff {value after : Item} : (Except.ok value : Except Reason Item) = .ok after ↔ after = value :=
  ⟨fun done => (Except.ok.inj done).symm, fun same => same ▸ rfl⟩

/-- A visit under a constructor. -/
theorem Visits.wrap {Whole : Type} (visits : Visits change visit parts replace) (make : Item → Whole) (before : Item)
    (after : Whole) : (visit before >>= fun item => .ok (make item)) = .ok after ↔
      (∀ part ∈ parts before, Succeeds change part) ∧ after = make (replace (settled change) before) := by
  rw [visits.bind, ok_iff]

/-- A visit of nothing. -/
theorem Visits.skip {before after : Item} : (Except.ok before : Except Reason Item) = .ok after ↔
    (∀ part ∈ ([] : List Part), Succeeds change part) ∧ after = before :=
  ⟨fun done => ⟨fun _ member => (by cases member), (Except.ok.inj done).symm⟩, fun ⟨_, same⟩ => same ▸ rfl⟩

section Parts
variable (change)

theorem Visits.part : Visits change change (fun part => [part]) fun f part => f part := by
  intro before after
  constructor
  · intro done
    exact ⟨fun part member => List.mem_singleton.mp member ▸ ⟨after, done⟩, (settled_of_ok done).symm⟩
  · rintro ⟨succeeds, rfl⟩
    obtain ⟨result, done⟩ := succeeds before (List.mem_singleton.mpr rfl)
    exact done.trans (congrArg Except.ok (settled_of_ok done).symm)

theorem Visits.all : Visits change (fun items : List Part => items.mapM change) (fun items => items)
    fun f items => items.map f := by
  intro before after
  simpa using (Visits.part change).list before after

theorem Visits.optionalPart : Visits change (fun item : Option Part => item.mapM change) (fun item => item.toList)
    fun f item => item.map f := by
  intro before after
  simpa using (Visits.part change).option before after

theorem Visits.partValues (Key : Type) : Visits change
    (fun entries : FiniteMap Key Part => entries.mapValuesM change) (fun entries => entries.toList.map Prod.snd) fun f entries => entries.mapValues f := by
  intro before after
  simpa using (Visits.part change).values Key before after

end Parts

end Change

end Burble
