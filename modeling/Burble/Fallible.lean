import Mathlib.Data.List.Forall2

namespace Burble.Fallible

universe u v w
variable {Reason : Type u} {Given : Type v} {Item : Type v} {Result : Type v}

theorem bind_ok {first : Except Reason Given} {next : Given → Except Reason Result} {result : Result} :
    (first >>= next) = .ok result ↔ ∃ given, first = .ok given ∧ next given = .ok result := by
  cases first with
  | error reason => exact iff_of_false (fun done => nomatch done) fun ⟨_, done, _⟩ => nomatch done
  | ok given => exact ⟨fun done => ⟨given, rfl, done⟩, fun ⟨_, same, done⟩ => Except.ok.inj same ▸ done⟩

/-- All succeed, each with its own result. -/
theorem mapM_ok {call : Item → Except Reason Result} {items : List Item} {results : List Result}
    (done : items.mapM call = .ok results) : List.Forall₂ (fun item result => call item = .ok result) items results := by
  induction items generalizing results with
  | nil =>
    cases done
    exact .nil
  | cons item rest ih =>
    rw [List.mapM_cons] at done
    obtain ⟨result, first, done⟩ := bind_ok.mp done
    obtain ⟨others, later, done⟩ := bind_ok.mp done
    cases done
    exact .cons first (ih later)

theorem mapM_mem {call : Item → Except Reason Result} {items : List Item} {results : List Result}
    (done : items.mapM call = .ok results) {result : Result} (member : result ∈ results) :
    ∃ item ∈ items, call item = .ok result := by
  have paired := mapM_ok done
  clear done
  induction paired with
  | nil => cases member
  | cons first _ ih =>
    rcases List.mem_cons.mp member with rfl | later
    · exact ⟨_, List.mem_cons_self, first⟩
    · obtain ⟨item, among, same⟩ := ih later
      exact ⟨item, List.mem_cons_of_mem _ among, same⟩

/-- All succeed where each does. -/
theorem mapM_of_each {call : Item → Except Reason Result} {items : List Item}
    (each : ∀ item ∈ items, ∃ result, call item = .ok result) : ∃ results, items.mapM call = .ok results := by
  induction items with
  | nil => exact ⟨[], rfl⟩
  | cons first rest ih =>
    obtain ⟨result, here⟩ := each first List.mem_cons_self
    obtain ⟨results, later⟩ := ih fun item member => each item (List.mem_cons_of_mem _ member)
    exact ⟨result :: results, by rw [List.mapM_cons, here, later]; rfl⟩

/-- A check of every item passes where all its calls do. -/
theorem forM_ok {Item : Type w} {call : Item → Except Reason PUnit} {items : List Item} {result : PUnit}
    (done : items.forM call = .ok result) : ∀ item ∈ items, call item = .ok ⟨⟩ := by
  induction items with
  | nil => exact fun _ member => absurd member List.not_mem_nil
  | cons first rest ih =>
    obtain ⟨_, here, later⟩ := bind_ok.mp done
    intro item member
    rcases List.mem_cons.mp member with rfl | among
    · exact here
    · exact ih later item among

theorem rel_cases {Given' : Type w} {related : Given → Given' → Prop} {found : Option Given} {found' : Option Given'}
    (alike : Option.Rel related found found') :
    (found = none ∧ found' = none) ∨ ∃ given given', found = some given ∧ found' = some given' ∧ related given given' := by
  cases alike with
  | none => exact .inl ⟨rfl, rfl⟩
  | some alike => exact .inr ⟨_, _, rfl, rfl, alike⟩

section Alike
variable {Given' Result' : Type v}

/-- Where the first succeeds, so does the second, with a related result. -/
def Alike (related : Given → Given' → Prop) (first : Except Reason Given) (second : Except Reason Given') : Prop :=
  ∀ given, first = .ok given → ∃ given', second = .ok given' ∧ related given given'

theorem Alike.refl {first : Except Reason Given} : Alike Eq first first := fun given done => ⟨given, done, rfl⟩

theorem Alike.of_ok {related : Given → Given' → Prop} {given : Given} {given' : Given'} (alike : related given given') :
    Alike related (.ok given : Except Reason Given) (.ok given') := by
  rintro _ ⟨⟩
  exact ⟨given', rfl, alike⟩

theorem Alike.bind {related : Given → Given' → Prop} {related' : Result → Result' → Prop}
    {first : Except Reason Given} {second : Except Reason Given'} {next : Given → Except Reason Result}
    {next' : Given' → Except Reason Result'} (alike : Alike related first second)
    (nexts : ∀ given given', related given given' → Alike related' (next given) (next' given')) :
    Alike related' (first >>= next) (second >>= next') := by
  intro result done
  obtain ⟨given, here, later⟩ := bind_ok.mp done
  obtain ⟨given', here', alike⟩ := alike given here
  obtain ⟨result', later', same⟩ := nexts given given' alike result later
  exact ⟨result', bind_ok.mpr ⟨given', here', later'⟩, same⟩

/-- Two computations that go on alike from equal results. -/
theorem Alike.next {related : Result → Result' → Prop} {first second : Except Reason Given}
    {next : Given → Except Reason Result} {next' : Given → Except Reason Result'} (alike : Alike Eq first second)
    (nexts : ∀ given, Alike related (next given) (next' given)) : Alike related (first >>= next) (second >>= next') :=
  alike.bind fun given _ same => same ▸ nexts given

theorem Alike.mapM_related {call : Item → Except Reason Result} {call' : Item → Except Reason Result'}
    {related : Item → Item → Prop} {related' : Result → Result' → Prop} {items others : List Item}
    (each : List.Forall₂ related items others) (calls : ∀ item other, related item other → Alike related' (call item) (call' other)) :
    Alike (List.Forall₂ related') (items.mapM call) (others.mapM call') := by
  induction each with
  | nil => exact .of_ok .nil
  | cons first _ ih =>
    rw [List.mapM_cons, List.mapM_cons]
    exact (calls _ _ first).bind fun _ _ alike => ih.bind fun _ _ rest => .of_ok (.cons alike rest)

theorem Alike.mapM {call call' : Item → Except Reason Result} {related : Item → Item → Prop} {items others : List Item}
    (each : List.Forall₂ related items others) (calls : ∀ item other, related item other → Alike Eq (call item) (call' other)) :
    Alike Eq (items.mapM call) (others.mapM call') := by
  have all := Alike.mapM_related each calls
  rwa [List.forall₂_eq_eq_eq] at all

end Alike

/-- Where no accumulator gets past a member, a fold fails. -/
theorem foldlM_none {next : Result → Item → Option Result} {items : List Item} {item : Item} (member : item ∈ items)
    (stops : ∀ acc, next acc item = none) (acc : Result) : items.foldlM next acc = none := by
  induction items generalizing acc with
  | nil => cases member
  | cons first rest ih =>
    rw [List.foldlM_cons]
    rcases List.mem_cons.mp member with rfl | later
    · rw [stops]
      rfl
    · exact Option.bind_eq_none_iff.mpr fun after _ => ih later after

end Burble.Fallible

namespace Burble.Stateful
universe u
variable {Reason State Given Result : Type u} {before middle after : State} {reason : Reason} {given : Given}
  {first : ExceptT Reason (StateM State) Given} {next : Given → ExceptT Reason (StateM State) Result}

/-! Calls that may fail and change a state, which is left behind also where they fail. -/

theorem bind_ok (called : first before = (.ok given, middle)) : (first >>= next) before = next given middle := by
  change ExceptT.bindCont next (first before).1 (first before).2 = _
  rw [called]
  rfl

theorem bind_error (called : first before = (.error reason, middle)) : (first >>= next) before = (.error reason, middle) := by
  change ExceptT.bindCont next (first before).1 (first before).2 = _
  rw [called]
  rfl

theorem bind_cases {result : Except Reason Result} (done : (first >>= next) before = (result, after)) :
    (∃ given middle, first before = (.ok given, middle) ∧ next given middle = (result, after)) ∨
      ∃ reason, first before = (.error reason, after) ∧ result = .error reason := by
  rcases called : first before with ⟨outcome, middle⟩
  cases outcome with
  | ok given => exact .inl ⟨given, middle, rfl, (bind_ok called).symm.trans done⟩
  | error reason =>
    cases (bind_error called).symm.trans done
    exact .inr ⟨reason, rfl, rfl⟩

/-- How the state moves, whatever comes of the call. -/
def Moves (related : State → State → Prop) (call : ExceptT Reason (StateM State) Given) : Prop :=
  ∀ before, related before (call before).2

namespace Moves
variable {related : State → State → Prop}

theorem pure (same : ∀ state, related state state) (given : Given) :
    Moves related (Pure.pure given : ExceptT Reason (StateM State) Given) := same

theorem throw (same : ∀ state, related state state) (reason : Reason) :
    Moves related (throw reason : ExceptT Reason (StateM State) Given) := same

theorem bind (along : ∀ {one middle last}, related one middle → related middle last → related one last)
    (front : Moves related first) (back : ∀ given, Moves related (next given)) : Moves related (first >>= next) := by
  intro before
  have moved := front before
  rcases called : first before with ⟨outcome, middle⟩
  rw [called] at moved
  cases outcome with
  | ok given =>
    rw [bind_ok called]
    exact along moved (back given middle)
  | error reason =>
    rw [bind_error called]
    exact moved

end Moves

end Burble.Stateful
