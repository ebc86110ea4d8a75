import Mathlib.Logic.Relation
import Mathlib.Data.List.Forall2

namespace Burble
universe u v
variable {State : Type u} {Label : Type v}

/-- A finite run of a labelled step relation, with its labels in order. -/
inductive Run (step : State → Label → State → Prop) (first : State) : List Label → State → Prop
  | start : Run step first [] first
  | next {labels current label after} :
      Run step first labels current → step current label after → Run step first (labels ++ [label]) after

/-- The states some run of the step relation ends in. -/
def Reachable (step : State → Label → State → Prop) (first last : State) : Prop :=
  ∃ labels, Run step first labels last

/-- A step relation restricted by a condition on the state before the step. -/
def Guarded (guard : State → Label → Prop) (step : State → Label → State → Prop)
    (before : State) (label : Label) (after : State) : Prop :=
  guard before label ∧ step before label after

/-- A step relation restricted by a condition on the state after the step. -/
def Within (holds : State → Prop) (step : State → Label → State → Prop)
    (before : State) (label : Label) (after : State) : Prop :=
  step before label after ∧ holds after

namespace Run
variable {step : State → Label → State → Prop} {first middle last : State} {labels later : List Label}

theorem append (run : Run step first labels middle) (rest : Run step middle later last) :
    Run step first (labels ++ later) last := by
  induction rest with
  | start => simpa only [List.append_nil] using run
  | next _ taken ih => simpa only [List.append_assoc] using ih.next taken

theorem single {label : Label} (taken : step first label last) : Run step first [label] last :=
  Run.start.next taken

/-- A run over a concatenation passes through a state where the two parts meet. -/
theorem split {labels later : List Label} (run : Run step first (labels ++ later) last) :
    ∃ middle, Run step first labels middle ∧ Run step middle later last := by
  generalize joined : labels ++ later = all at run
  induction run generalizing later with
  | start =>
    obtain ⟨rfl, rfl⟩ := List.append_eq_nil_iff.mp joined
    exact ⟨first, .start, .start⟩
  | @next past current label after previous taken ih =>
    rcases List.eq_nil_or_concat later with rfl | ⟨front, final, rfl⟩
    · rw [List.append_nil] at joined
      subst joined
      exact ⟨after, previous.next taken, .start⟩
    · rw [List.concat_eq_append, ← List.append_assoc] at joined
      obtain ⟨same, finalEq⟩ := List.append_inj' joined rfl
      obtain ⟨middle, front, back⟩ := ih same
      cases finalEq
      exact ⟨middle, front, by simpa only [List.concat_eq_append] using back.next taken⟩

theorem nil_iff : Run step first [] last ↔ last = first := by
  constructor
  · intro run
    generalize empty : ([] : List Label) = all at run
    cases run with
    | start => rfl
    | next _ _ => exact absurd empty (by simp)
  · rintro rfl
    exact .start

theorem snoc_iff {label : Label} : Run step first (labels ++ [label]) last ↔
    ∃ current, Run step first labels current ∧ step current label last := by
  constructor
  · intro run
    generalize joined : labels ++ [label] = all at run
    cases run with
    | start => exact absurd joined (by simp)
    | next past taken =>
      obtain ⟨rfl, same⟩ := List.append_inj' joined rfl
      cases same
      exact ⟨_, past, taken⟩
  · rintro ⟨current, past, taken⟩
    exact past.next taken

theorem cons_iff {label : Label} : Run step first (label :: labels) last ↔
    ∃ middle, step first label middle ∧ Run step middle labels last := by
  constructor
  · intro run
    have joined : Run step first ([label] ++ labels) last := run
    obtain ⟨middle, front, rest⟩ := joined.split
    have single : Run step first ([] ++ [label]) middle := front
    obtain ⟨start, none, taken⟩ := snoc_iff.mp single
    cases nil_iff.mp none
    exact ⟨middle, taken, rest⟩
  · rintro ⟨middle, taken, rest⟩
    exact (single taken).append rest

/-- Where a step has one outcome, so has a run. -/
theorem unique {other : State} (functional : ∀ {before label one other}, step before label one →
    step before label other → one = other) (run : Run step first labels last) (again : Run step first labels other) :
    last = other := by
  induction run generalizing other with
  | start => exact (nil_iff.mp again).symm
  | next _ taken ih =>
    obtain ⟨current, past, next⟩ := snoc_iff.mp again
    cases ih past
    exact functional taken next

/-- What holds at the start and is kept by every step holds at the end. -/
theorem invariant {holds : State → Prop} (run : Run step first labels last) (base : holds first)
    (kept : ∀ {before label after}, holds before → step before label after → holds after) :
    holds last := by
  induction run with
  | start => exact base
  | next _ taken ih => exact kept ih taken

theorem mono {wider : State → Label → State → Prop}
    (weaken : ∀ {before label after}, step before label after → wider before label after)
    (run : Run step first labels last) : Run wider first labels last := by
  induction run with
  | start => exact .start
  | next _ taken ih => exact ih.next (weaken taken)

/-- Where a step keeps what holds exactly when its guard is met, given what always holds, so does a run. -/
theorem guarded_iff (always : State → Prop) {guard : State → Label → Prop} {holds : State → Prop}
    {kept : State → Label → State → Prop} (base : always first ∧ holds first)
    (stays : ∀ {before label after}, always before → step before label after → always after)
    (each : ∀ {before label after}, always before → holds before → step before label after →
      (guard before label ↔ kept before label after ∧ holds after)) :
    Run (Guarded guard step) first labels last ↔
      Run (fun before label after => step before label after ∧ kept before label after ∧ holds after) first labels last := by
  constructor
  · intro run
    have all : (always last ∧ holds last) ∧ Run (fun before label after => step before label after ∧
        kept before label after ∧ holds after) first labels last := by
      induction run with
      | start => exact ⟨base, .start⟩
      | next _ taken ih =>
        have now := (each ih.1.1 ih.1.2 taken.2).mp taken.1
        exact ⟨⟨stays ih.1.1 taken.2, now.2⟩, ih.2.next ⟨taken.2, now⟩⟩
    exact all.2
  · intro run
    have all : (always last ∧ holds last) ∧ Run (Guarded guard step) first labels last := by
      induction run with
      | start => exact ⟨base, .start⟩
      | next _ taken ih =>
        exact ⟨⟨stays ih.1.1 taken.1, taken.2.2⟩, ih.2.next ⟨(each ih.1.1 ih.1.2 taken.1).mpr taken.2, taken.1⟩⟩
    exact all.2

theorem within_iff_guarded (always : State → Prop) {guard : State → Label → Prop} {holds : State → Prop}
    (base : always first ∧ holds first)
    (stays : ∀ {before label after}, always before → step before label after → always after)
    (each : ∀ {before label after}, always before → holds before → step before label after →
      (guard before label ↔ holds after)) :
    Run (Within holds step) first labels last ↔ Run (Guarded guard step) first labels last := by
  have guarded : Run (Guarded guard step) first labels last ↔
      Run (fun before label after => step before label after ∧ True ∧ holds after) first labels last :=
    guarded_iff always base stays fun given held taken => by
      rw [true_and]
      exact each given held taken
  rw [guarded]
  exact ⟨mono fun taken => ⟨taken.1, trivial, taken.2⟩, mono fun taken => ⟨taken.1, taken.2.2⟩⟩

theorem reachable (run : Run step first labels last) : Reachable step first last := ⟨labels, run⟩

end Run

theorem Reachable.start {step : State → Label → State → Prop} (first : State) :
    Reachable step first first := ⟨[], .start⟩

theorem Reachable.next {step : State → Label → State → Prop} {first current after : State} {label : Label}
    (reach : Reachable step first current) (taken : step current label after) :
    Reachable step first after := by
  obtain ⟨labels, run⟩ := reach
  exact ⟨labels ++ [label], run.next taken⟩

theorem Reachable.invariant {step : State → Label → State → Prop} {first last : State} {holds : State → Prop}
    (reach : Reachable step first last) (base : holds first)
    (kept : ∀ {before label after}, holds before → step before label after → holds after) :
    holds last := by
  obtain ⟨_, run⟩ := reach
  exact run.invariant base kept

/-- Where a step is a function, a run is its fold. -/
theorem run_foldl (next : State → Label → State) (labels : List Label) (first : State) :
    Run (fun before label after => next before label = after) first labels (labels.foldl next first) := by
  induction labels generalizing first with
  | nil => exact .start
  | cons label rest ih =>
    exact (Run.single rfl : Run _ first [label] (next first label)).append (ih (next first label))

/-- Execute a partial step function along a list of labels. -/
def play (next : State → Label → Option State) : List Label → State → Option State
  | [], state => some state
  | label :: rest, state => (next state label).bind (play next rest)

theorem play_run {next : State → Label → Option State} {labels : List Label} {first last : State}
    (played : play next labels first = some last) :
    Run (fun before label after => next before label = some after) first labels last := by
  induction labels generalizing first with
  | nil => cases played; exact .start
  | cons label rest ih =>
    obtain ⟨middle, taken, onward⟩ := Option.bind_eq_some_iff.mp played
    exact (Run.single taken : Run _ first [label] middle).append (ih onward)

theorem play_append (next : State → Label → Option State) (labels later : List Label) (state : State) :
    play next (labels ++ later) state = (play next labels state).bind (play next later) := by
  induction labels generalizing state with
  | nil => rfl
  | cons label rest ih =>
    rw [List.cons_append, play, play, Option.bind_assoc]
    exact Option.bind_congr fun middle _ => ih middle

theorem run_play {next : State → Label → Option State} {labels : List Label} {first last : State}
    (run : Run (fun before label after => next before label = some after) first labels last) :
    play next labels first = some last := by
  induction run with
  | start => rfl
  | @next labels current label after _ taken ih =>
    rw [play_append, ih, Option.bind_some, play, taken]
    rfl

/-- Execute with a guard tested before every step. -/
theorem play_run_guarded {next : State → Label → Option State} {guard : State → Label → Prop}
    [∀ state label, Decidable (guard state label)] {labels : List Label} {first last : State}
    (played : play (fun state label => if guard state label then next state label else none) labels first =
      some last) :
    Run (Guarded guard fun before label after => next before label = some after) first labels last := by
  refine (play_run played).mono fun taken => ?_
  split at taken
  next passed => exact ⟨passed, taken⟩
  next => cases taken

/-- Some event occurred, and since its last occurrence nothing ended it. -/
def Since {Event : Type u} (occurs ends : Event → Prop) (history : List Event) : Prop :=
  ∃ past event later, history = past ++ event :: later ∧ occurs event ∧ ∀ other ∈ later, ¬ ends other

namespace Since
variable {Event : Type u} {occurs ends : Event → Prop} {history : List Event} {event : Event}

theorem now (past : List Event) (happens : occurs event) : Since occurs ends (past ++ [event]) :=
  ⟨past, event, [], rfl, happens, fun _ member => absurd member List.not_mem_nil⟩

theorem next (since : Since occurs ends history) (quiet : ¬ ends event) : Since occurs ends (history ++ [event]) := by
  obtain ⟨past, first, later, rfl, happened, calm⟩ := since
  refine ⟨past, first, later ++ [event], by simp only [List.append_assoc, List.cons_append], happened, ?_⟩
  intro other member
  rcases List.mem_append.mp member with before | last
  · exact calm other before
  · rwa [List.mem_singleton.mp last]

theorem snoc_cases (since : Since occurs ends (history ++ [event])) :
    occurs event ∨ (Since occurs ends history ∧ ¬ ends event) := by
  obtain ⟨past, first, later, split, happened, calm⟩ := since
  rcases List.eq_nil_or_concat later with rfl | ⟨between, last, rfl⟩
  · obtain ⟨_, same⟩ := List.append_inj' split rfl
    cases same
    exact .inl happened
  · rw [List.concat_eq_append, ← List.cons_append, ← List.append_assoc] at split
    obtain ⟨rfl, same⟩ := List.append_inj' split rfl
    cases same
    exact .inr ⟨⟨past, first, between, rfl, happened, fun other member => calm other (by simp [member])⟩,
      calm event (by simp)⟩

theorem snoc_iff : Since occurs ends (history ++ [event]) ↔ occurs event ∨ (Since occurs ends history ∧ ¬ ends event) :=
  ⟨snoc_cases, fun either => either.elim (now history) fun since => since.1.next since.2⟩

end Since

section Hidden
variable {step : State → Label → State → Prop} (visible : Label → Bool) (agree : State → State → Prop)
  (same outcome : Label → Label → Prop)

/-- Two runs that are the same but for hidden steps end in states that agree, and their visible steps come out alike. -/
theorem Run.alike (left : ∀ {before other label after}, agree before other → visible label = false →
      step before label after → agree after other)
    (right : ∀ {before other label after}, agree before other → visible label = false →
      step other label after → agree before after)
    (both : ∀ {before other label label' after after'}, agree before other → visible label = true → same label label' →
      step before label after → step other label' after' → agree after after' ∧ outcome label label')
    {first first' last last' : State} {labels labels' : List Label} (start : agree first first')
    (run : Run step first labels last) (run' : Run step first' labels' last')
    (seen : List.Forall₂ same (labels.filter visible) (labels'.filter visible)) :
    agree last last' ∧ List.Forall₂ outcome (labels.filter visible) (labels'.filter visible) := by
  induction labels generalizing first first' labels' with
  | nil =>
    cases Run.nil_iff.mp run
    induction labels' generalizing first' with
    | nil =>
      cases Run.nil_iff.mp run'
      exact ⟨start, .nil⟩
    | cons label' rest' ih =>
      obtain ⟨middle, taken, onward⟩ := Run.cons_iff.mp run'
      cases shown : visible label' with
      | false =>
        rw [List.filter_cons_of_neg (by simp [shown])] at seen ⊢
        exact ih onward seen (right start shown taken)
      | true =>
        rw [List.filter_cons_of_pos shown] at seen
        cases seen
  | cons label rest outer =>
    obtain ⟨middle, taken, onward⟩ := Run.cons_iff.mp run
    cases shown : visible label with
    | false =>
      rw [List.filter_cons_of_neg (by simp [shown])] at seen ⊢
      exact outer (left start shown taken) onward run' seen
    | true =>
      rw [List.filter_cons_of_pos shown] at seen ⊢
      induction labels' generalizing first' with
      | nil => cases seen
      | cons label' rest' inner =>
        obtain ⟨middle', taken', onward'⟩ := Run.cons_iff.mp run'
        cases shown' : visible label' with
        | false =>
          rw [List.filter_cons_of_neg (by simp [shown'])] at seen ⊢
          exact inner (right start shown' taken') onward' seen
        | true =>
          rw [List.filter_cons_of_pos shown'] at seen ⊢
          cases seen with
          | cons alike later =>
            obtain ⟨agrees, comes⟩ := both start shown alike taken taken'
            obtain ⟨last, rest⟩ := outer agrees onward onward' later
            exact ⟨last, .cons comes rest⟩

end Hidden

section Sequences
variable {Item : Type u}

/-- Every item of a sequence stands as asked to all that is before it. -/
def EachAfter (asked : List Item → Item → Prop) : List Item → List Item → Prop
  | _, [] => True
  | past, item :: rest => asked past item ∧ EachAfter asked (past ++ [item]) rest

namespace EachAfter
variable {asked : List Item → Item → Prop} {past items later : List Item}

theorem append_iff : EachAfter asked past (items ++ later) ↔
    EachAfter asked past items ∧ EachAfter asked (past ++ items) later := by
  induction items generalizing past with
  | nil => simp [EachAfter]
  | cons item rest ih =>
    simp only [List.cons_append, List.nil_append, EachAfter, ih, and_assoc, List.append_assoc]

/-- What is asked of an item is asked at every place it is found. -/
theorem at_split (each : EachAfter asked past items) {front back : List Item} {item : Item}
    (split : items = front ++ item :: back) : asked (past ++ front) item := by
  subst split
  exact (append_iff.mp each).2.1

theorem of_splits (each : ∀ front item back, items = front ++ item :: back → asked (past ++ front) item) :
    EachAfter asked past items := by
  induction items generalizing past with
  | nil => trivial
  | cons item rest ih =>
    refine ⟨?_, ih fun front other back split => ?_⟩
    · have first := each [] item rest rfl
      rwa [List.append_nil] at first
    · have later := each (item :: front) other back (by rw [split, List.cons_append])
      rwa [List.append_cons] at later

/-- Items that are asked for nothing but what is in the past already. -/
theorem of_forall (mono : ∀ {past more item}, asked past item → asked (past ++ more) item)
    (each : ∀ item ∈ items, asked past item) : EachAfter asked past items := by
  induction items generalizing past with
  | nil => trivial
  | cons item rest ih =>
    refine ⟨each item List.mem_cons_self, ih fun other member => ?_⟩
    exact mono (each other (List.mem_cons_of_mem _ member))

end EachAfter

end Sequences

end Burble
