import Burble.Json
import Burble.Runs
import Mathlib.Algebra.Order.BigOperators.Group.List
import Mathlib.Algebra.Ring.Int.Defs
import Mathlib.Data.List.GetD

namespace Burble.Media.PipeWire

def maxConcurrentPwCommands : Int := 3

inductive PwError
  | tooManyConcurrent
  | parseError
  | pwDumpFailed (code : Nat)
  | pwNotAvailable
  deriving DecidableEq

abbrev Objects := Except PwError (List Json)

/-- How `pw-dump` ends: with an exit code, or as an exception of `System.cmd`. -/
inductive Dump
  | exited (output : String) (code : Nat)
  | raised

/-- The body of the `try`. JSON other than a list matches no clause, and is rescued as well. -/
def Dump.objects (decode : String → Option Json) : Dump → Objects
  | exited output code =>
    if code = 0 then
      match decode output with
      | some (.array objects) => .ok objects
      | some _ => .error .pwNotAvailable
      | none => .error .parseError
    else .error (.pwDumpFailed code)
  | raised => .error .pwNotAvailable

/-- What a caller of `get_pw_semaphore` does with the counter. -/
inductive Use
  | acquire
  | release (result : Objects)

/-- Where a process is in `run_pw_dump`. What it does next is one operation on the persistent term or on
a counter, or the command itself. -/
inductive Caller
  | getting (use : Use)
  | creating (use : Use)
  | putting (use : Use) (ref : Nat)
  | adding (ref : Nat)
  | rejecting (ref : Nat)
  | running
  | subtracting (ref : Nat) (result : Objects)

def Use.proceed (ref : Nat) : Use → Caller
  | acquire => .adding ref
  | release result => .subtracting ref result

/-- The term under `:burble_pw_semaphore`, every counter that was created, the processes inside
`run_pw_dump`, what it returned, and where in it processes were killed. -/
structure World where
  term : Option Nat
  atomics : List Int
  callers : FiniteMap Nat Caller
  replies : List (Nat × Objects)
  killed : List Caller

inductive Event
  | call (pid : Nat)
  | step (pid : Nat)
  | dumped (pid : Nat) (dump : Dump)
  | kill (pid : Nat)

namespace World

def init : World := ⟨none, [], ∅, [], []⟩

variable (w : World)

def place (pid : Nat) (caller : Caller) : World := { w with callers := w.callers.insert pid caller }

def reply (pid : Nat) (result : Objects) : World :=
  { w with callers := w.callers.erase pid, replies := w.replies ++ [(pid, result)] }

/-- `:atomics.add_get` and `:atomics.sub`. -/
def add (ref : Nat) (amount : Int) : World := { w with atomics := w.atomics.set ref (w.atomics.getD ref 0 + amount) }

def step (pid : Nat) : Caller → Option World
  | .getting use =>
    match w.term with
    | none => some (w.place pid (.creating use))
    | some ref => some (w.place pid (use.proceed ref))
  | .creating use => some ({ w with atomics := w.atomics ++ [0] }.place pid (.putting use w.atomics.length))
  | .putting use ref => some ({ w with term := some ref }.place pid (use.proceed ref))
  | .adding ref =>
    if maxConcurrentPwCommands < w.atomics.getD ref 0 + 1 then some ((w.add ref 1).place pid (.rejecting ref))
    else some ((w.add ref 1).place pid .running)
  | .rejecting ref => some ((w.add ref (-1)).reply pid (.error .tooManyConcurrent))
  | .running => none
  | .subtracting ref result => some ((w.add ref (-1)).reply pid result)

def next (decode : String → Option Json) (event : Event) : Option World :=
  match event with
  | .call pid => if w.callers.lookup pid = none then some (w.place pid (.getting .acquire)) else none
  | .step pid => (w.callers.lookup pid).bind (w.step pid)
  | .dumped pid dump =>
    match w.callers.lookup pid with
    | some .running => some (w.place pid (.getting (.release (dump.objects decode))))
    | _ => none
  | .kill pid => (w.callers.lookup pid).map fun caller =>
      { w with callers := w.callers.erase pid, killed := w.killed ++ [caller] }

end World

def Step (decode : String → Option Json) (w : World) (event : Event) (after : World) : Prop :=
  w.next decode event = some after

/-! What a process counts for. -/

def Use.inside : Use → Int
  | acquire => 0
  | release _ => 1

namespace Caller

/-- A slot was granted, and is not given back. -/
@[simp] def inside : Caller → Int
  | getting use | creating use | putting use _ => use.inside
  | adding _ | rejecting _ => 0
  | running | subtracting _ _ => 1

/-- The counter was raised too high, and is not lowered again. -/
@[simp] def rejects (ref : Nat) : Caller → Int
  | rejecting other => if other = ref then 1 else 0
  | getting _ | creating _ | putting _ _ | adding _ | running | subtracting _ _ => 0

/-- The counter was raised. -/
def counts : Caller → Int
  | rejecting _ => 1
  | caller => caller.inside

/-- Its counter was created. -/
def Known (created : Nat) : Caller → Prop
  | putting _ ref | adding ref | rejecting ref | subtracting ref _ => ref < created
  | _ => True

variable {caller : Caller}

theorem Known.mono {created more : Nat} (known : caller.Known created) (le : created ≤ more) : caller.Known more := by
  cases caller with
  | getting | creating | running => trivial
  | putting | adding | rejecting | subtracting => exact Nat.lt_of_lt_of_le known le

theorem rejects_of_known {created ref : Nat} (known : caller.Known created) (beyond : created ≤ ref) :
    caller.rejects ref = 0 := by
  cases caller with
  | rejecting other =>
    have less : other < created := known
    exact if_neg (by omega)
  | _ => rfl

theorem counts_of_single (known : caller.Known 1) : caller.counts = caller.inside + caller.rejects 0 := by
  cases caller with
  | rejecting other =>
    have first : other = 0 := Nat.lt_one_iff.mp known
    rw [first]
    rfl
  | _ => exact (Int.add_zero _).symm

end Caller

@[simp] theorem Use.inside_proceed (ref : Nat) (use : Use) : (use.proceed ref).inside = use.inside := by
  cases use <;> rfl

@[simp] theorem Use.rejects_proceed (ref other : Nat) (use : Use) : (use.proceed ref).rejects other = 0 := by
  cases use <;> rfl

theorem Use.known_proceed {ref created : Nat} (use : Use) (less : ref < created) : (use.proceed ref).Known created := by
  cases use <;> exact less

/-! Lists of amounts. -/

theorem getD_set {amounts : List Int} {ref other : Nat} (less : ref < amounts.length) (amount : Int) :
    (amounts.set ref amount).getD other 0 = if other = ref then amount else amounts.getD other 0 := by
  rw [List.getD_eq_getElem?_getD, List.getD_eq_getElem?_getD, List.getElem?_set]
  split
  next same => rw [if_pos same.symm, Option.getD_some]
  next different => rw [if_neg fun same => different same.symm]

theorem sum_set {amounts : List Int} {ref : Nat} (less : ref < amounts.length) (amount : Int) :
    (amounts.set ref (amounts.getD ref 0 + amount)).sum = amounts.sum + amount := by
  induction amounts generalizing ref with
  | nil => cases less
  | cons first rest ih =>
    cases ref with
    | zero =>
      simp only [List.set_cons_zero, List.getD_cons_zero, List.sum_cons]
      omega
    | succ ref =>
      have shorter := ih (Nat.lt_of_succ_lt_succ less)
      simp only [List.set_cons_succ, List.getD_cons_succ, List.sum_cons]
      omega

theorem getD_append_zero (amounts : List Int) (ref : Nat) : (amounts ++ [0]).getD ref 0 = amounts.getD ref 0 := by
  rw [List.getD_eq_getElem?_getD, List.getD_eq_getElem?_getD, List.getElem?_append]
  split
  next => rfl
  next beyond =>
    rw [List.getElem?_eq_none (Nat.not_lt.mp beyond)]
    cases ref - amounts.length <;> rfl

namespace World
variable {w after : World} {pid : Nat} {caller old : Caller} {weight : Caller → Int}

/-- What the processes count for together, those that were killed with them. -/
def count (w : World) (weight : Caller → Int) : Int := FiniteMap.total weight w.callers + (w.killed.map weight).sum

theorem count_call (absent : w.callers.lookup pid = none) (caller : Caller) :
    (w.place pid caller).count weight = weight caller + w.count weight := by
  rw [count, count, place, FiniteMap.total_insert_new absent, add_assoc]

theorem count_place (found : w.callers.lookup pid = some old) (caller : Caller) :
    (w.place pid caller).count weight = weight caller - weight old + w.count weight := by
  have moved : weight old + FiniteMap.total weight (w.callers.insert pid caller) =
      weight caller + FiniteMap.total weight w.callers := FiniteMap.total_insert found
  simp only [count, place]
  omega

theorem count_reply (found : w.callers.lookup pid = some old) (result : Objects) :
    (w.reply pid result).count weight = w.count weight - weight old := by
  have gone : FiniteMap.total weight w.callers = weight old + FiniteMap.total weight (w.callers.erase pid) :=
    FiniteMap.total_erase found
  simp only [count, reply]
  omega

theorem count_kill (found : w.callers.lookup pid = some old) :
    count { w with callers := w.callers.erase pid, killed := w.killed ++ [old] } weight = w.count weight := by
  have gone : FiniteMap.total weight w.callers = weight old + FiniteMap.total weight (w.callers.erase pid) :=
    FiniteMap.total_erase found
  simp only [count, List.map_append, List.map_cons, List.map_nil, List.sum_append, List.sum_cons, List.sum_nil]
  omega

@[simp] theorem count_add (ref : Nat) (amount : Int) : (w.add ref amount).count weight = w.count weight := rfl

theorem add_length (ref : Nat) (amount : Int) : (w.add ref amount).atomics.length = w.atomics.length := List.length_set

theorem count_nonneg (nonneg : ∀ caller, 0 ≤ weight caller) : 0 ≤ w.count weight := by
  have alive : 0 ≤ FiniteMap.total weight w.callers := by
    refine List.sum_nonneg fun amount member => ?_
    obtain ⟨entry, -, rfl⟩ := List.mem_map.mp member
    exact nonneg entry.2
  have dead : 0 ≤ (w.killed.map weight).sum := by
    refine List.sum_nonneg fun amount member => ?_
    obtain ⟨caller, -, rfl⟩ := List.mem_map.mp member
    exact nonneg caller
  rw [count]
  omega

/-- Each counter stands at the slots that were granted of it, never more than three, and at the processes
that are being turned away; the slots granted of all are held. -/
structure Accounted (w : World) (granted : List Int) : Prop where
  length : granted.length = w.atomics.length
  bounded : ∀ amount ∈ granted, amount ≤ maxConcurrentPwCommands
  sum : granted.sum = w.count Caller.inside
  each : ∀ ref, w.atomics.getD ref 0 = granted.getD ref 0 + w.count (Caller.rejects ref)
  term : ∀ ref, w.term = some ref → ref < w.atomics.length
  known : ∀ pid caller, w.callers.lookup pid = some caller → caller.Known w.atomics.length
  killed : ∀ caller ∈ w.killed, caller.Known w.atomics.length

namespace Accounted
variable {granted : List Int} {ref : Nat}

theorem init : init.Accounted [] where
  length := rfl
  bounded _ member := by cases member
  sum := rfl
  each _ := rfl
  term _ there := by cases there
  known _ _ found := by cases found
  killed _ member := by cases member

theorem knows (accounted : w.Accounted granted) {other : Nat} {there : Caller} (known : caller.Known w.atomics.length)
    (found : (w.callers.insert pid caller).lookup other = some there) : there.Known w.atomics.length := by
  rw [FiniteMap.lookup_insert_if] at found
  split at found
  · cases found
    exact known
  · exact accounted.known other there found

theorem knows_erase (accounted : w.Accounted granted) {other : Nat} {there : Caller}
    (found : (w.callers.erase pid).lookup other = some there) : there.Known w.atomics.length := by
  rw [FiniteMap.lookup_erase_if] at found
  split at found
  · cases found
  · exact accounted.known other there found

theorem called (accounted : w.Accounted granted) (absent : w.callers.lookup pid = none) :
    (w.place pid (.getting .acquire)).Accounted granted where
  length := accounted.length
  bounded := accounted.bounded
  sum := by rw [accounted.sum, count_call absent, Caller.inside, Use.inside, zero_add]
  each ref := by rw [count_call absent, Caller.rejects, zero_add]; exact accounted.each ref
  term := accounted.term
  known _ _ found := accounted.knows (show Caller.Known _ (.getting .acquire) from trivial) found
  killed := accounted.killed

/-- A process gets on without a counter being touched. -/
theorem moves (accounted : w.Accounted granted) (found : w.callers.lookup pid = some old)
    (inside : caller.inside = old.inside) (rejects : ∀ ref, caller.rejects ref = old.rejects ref)
    (known : caller.Known w.atomics.length) : (w.place pid caller).Accounted granted where
  length := accounted.length
  bounded := accounted.bounded
  sum := by rw [accounted.sum, count_place found, inside, sub_self, zero_add]
  each ref := by rw [count_place found, rejects, sub_self, zero_add]; exact accounted.each ref
  term := accounted.term
  known _ _ there := accounted.knows known there
  killed := accounted.killed

theorem puts (accounted : w.Accounted granted) (less : ref < w.atomics.length) :
    Accounted { w with term := some ref } granted :=
  { accounted with term := fun _ same => by cases same; exact less }

theorem creates (accounted : w.Accounted granted) : Accounted { w with atomics := w.atomics ++ [0] } (granted ++ [0]) := by
  have more : w.atomics.length ≤ (w.atomics ++ [0]).length := by simp
  refine ⟨by simp [accounted.length], fun amount member => ?_, ?_, fun ref => ?_,
    fun ref there => Nat.lt_of_lt_of_le (accounted.term ref there) more,
    fun pid caller found => (accounted.known pid caller found).mono more,
    fun caller member => (accounted.killed caller member).mono more⟩
  · rcases List.mem_append.mp member with old | new
    · exact accounted.bounded amount old
    · rw [List.mem_singleton.mp new]
      decide
  · rw [List.sum_append, List.sum_singleton, add_zero]
    exact accounted.sum
  · rw [getD_append_zero, getD_append_zero]
    exact accounted.each ref

/-- The counters and the processes after a counter was raised or lowered. -/
theorem knows_add (accounted : w.Accounted granted) (ref : Nat) (amount : Int) {other : Nat} {there : Caller}
    (known : caller.Known w.atomics.length)
    (found : (w.callers.insert pid caller).lookup other = some there) : there.Known (w.add ref amount).atomics.length := by
  rw [add_length]
  exact accounted.knows known found

/-- A counter was at its limit. -/
theorem refused (accounted : w.Accounted granted) (found : w.callers.lookup pid = some (.adding ref)) :
    ((w.add ref 1).place pid (.rejecting ref)).Accounted granted := by
  have less : ref < w.atomics.length := accounted.known pid _ found
  have there : (w.add ref 1).callers.lookup pid = some (.adding ref) := found
  have known : (Caller.rejecting ref).Known w.atomics.length := less
  refine ⟨accounted.length.trans (add_length ref 1).symm, accounted.bounded, ?_, fun other => ?_,
    fun other atTerm => (add_length ref 1).symm ▸ accounted.term other atTerm, fun _ _ => accounted.knows_add ref 1 known,
    fun caller member => (add_length ref 1).symm ▸ accounted.killed caller member⟩
  · rw [count_place there, accounted.sum]
    simp
  · have each := accounted.each other
    rw [count_place there, count_add]
    simp only [place, add, Caller.rejects]
    rw [getD_set less]
    split
    next same => rw [if_pos same.symm, ← same]; omega
    next different => rw [if_neg fun same => different same.symm]; omega

/-- A counter was below its limit. -/
theorem admitted (accounted : w.Accounted granted) (found : w.callers.lookup pid = some (.adding ref))
    (room : w.atomics.getD ref 0 + 1 ≤ maxConcurrentPwCommands) :
    ((w.add ref 1).place pid .running).Accounted (granted.set ref (granted.getD ref 0 + 1)) := by
  have less : ref < w.atomics.length := accounted.known pid _ found
  have there : (w.add ref 1).callers.lookup pid = some (.adding ref) := found
  have among : ref < granted.length := accounted.length.symm ▸ less
  have rejects : 0 ≤ w.count (Caller.rejects ref) := count_nonneg fun caller => by
    cases caller <;> simp only [Caller.rejects, le_refl]
    split <;> decide
  have known : Caller.running.Known w.atomics.length := trivial
  refine ⟨by rw [List.length_set, accounted.length, place, add_length], fun amount member => ?_, ?_, fun other => ?_,
    fun other atTerm => (add_length ref 1).symm ▸ accounted.term other atTerm, fun _ _ => accounted.knows_add ref 1 known,
    fun caller member => (add_length ref 1).symm ▸ accounted.killed caller member⟩
  · rcases List.mem_or_eq_of_mem_set member with old | rfl
    · exact accounted.bounded amount old
    · have each := accounted.each ref
      omega
  · rw [sum_set among, accounted.sum, count_place there, count_add]
    simp only [Caller.inside]
    omega
  · have each := accounted.each other
    rw [count_place there, count_add, getD_set among]
    simp only [place, add, Caller.rejects]
    rw [getD_set less]
    split
    next same => rw [← same]; omega
    next => omega

/-- A slot is given back. -/
theorem returned (accounted : w.Accounted granted) {result : Objects}
    (found : w.callers.lookup pid = some (.subtracting ref result)) :
    ((w.add ref (-1)).reply pid result).Accounted (granted.set ref (granted.getD ref 0 + -1)) := by
  have less : ref < w.atomics.length := accounted.known pid _ found
  have there : (w.add ref (-1)).callers.lookup pid = some (.subtracting ref result) := found
  have among : ref < granted.length := accounted.length.symm ▸ less
  refine ⟨by rw [List.length_set, accounted.length, reply, add_length], fun amount member => ?_, ?_, fun other => ?_,
    fun other atTerm => (add_length ref (-1)).symm ▸ accounted.term other atTerm,
    fun _ _ other => (add_length ref (-1)).symm ▸ accounted.knows_erase other,
    fun caller member => (add_length ref (-1)).symm ▸ accounted.killed caller member⟩
  · rcases List.mem_or_eq_of_mem_set member with old | rfl
    · exact accounted.bounded amount old
    · have bounded := accounted.bounded (granted.getD ref 0) (by
        rw [List.getD_eq_getElem _ _ among]
        exact List.getElem_mem among)
      omega
  · rw [sum_set among, accounted.sum, count_reply there, count_add]
    simp only [Caller.inside]
    omega
  · have each := accounted.each other
    rw [count_reply there, count_add, getD_set among]
    simp only [reply, add, Caller.rejects]
    rw [getD_set less]
    split
    next same => rw [← same]; omega
    next => omega

/-- A process that is turned away takes back what it added. -/
theorem turnedAway (accounted : w.Accounted granted) (found : w.callers.lookup pid = some (.rejecting ref))
    (result : Objects) : ((w.add ref (-1)).reply pid result).Accounted granted := by
  have less : ref < w.atomics.length := accounted.known pid _ found
  have there : (w.add ref (-1)).callers.lookup pid = some (.rejecting ref) := found
  refine ⟨accounted.length.trans (add_length ref (-1)).symm, accounted.bounded, ?_, fun other => ?_,
    fun other atTerm => (add_length ref (-1)).symm ▸ accounted.term other atTerm,
    fun _ _ other => (add_length ref (-1)).symm ▸ accounted.knows_erase other,
    fun caller member => (add_length ref (-1)).symm ▸ accounted.killed caller member⟩
  · rw [count_reply there, accounted.sum]
    simp
  · have each := accounted.each other
    rw [count_reply there, count_add]
    simp only [reply, add, Caller.rejects]
    rw [getD_set less]
    split
    next same => rw [if_pos same.symm, ← same]; omega
    next different => rw [if_neg fun same => different same.symm]; omega

theorem kills (accounted : w.Accounted granted) (found : w.callers.lookup pid = some caller) :
    Accounted { w with callers := w.callers.erase pid, killed := w.killed ++ [caller] } granted where
  length := accounted.length
  bounded := accounted.bounded
  sum := by rw [count_kill found]; exact accounted.sum
  each ref := by rw [count_kill found]; exact accounted.each ref
  term := accounted.term
  known _ _ there := accounted.knows_erase there
  killed other member := by
    rcases List.mem_append.mp member with old | new
    · exact accounted.killed other old
    · rw [List.mem_singleton.mp new]
      exact accounted.known pid caller found

/-- What one operation does to the slots that are granted. -/
theorem step (accounted : w.Accounted granted) (found : w.callers.lookup pid = some caller)
    (taken : w.step pid caller = some after) : ∃ granted, after.Accounted granted := by
  have known := accounted.known pid caller found
  cases caller with
  | getting use =>
    cases there : w.term with
    | none =>
      simp only [World.step, there, Option.some.injEq] at taken
      exact ⟨granted, taken ▸ accounted.moves found rfl (fun _ => rfl) trivial⟩
    | some ref =>
      simp only [World.step, there, Option.some.injEq] at taken
      exact ⟨granted, taken ▸ accounted.moves found (use.inside_proceed ref) (use.rejects_proceed ref)
        (use.known_proceed (accounted.term ref there))⟩
  | creating use =>
    cases taken
    exact ⟨granted ++ [0], accounted.creates.moves found rfl (fun _ => rfl) (by simp [Caller.Known])⟩
  | putting use ref =>
    cases taken
    exact ⟨granted, (accounted.puts known).moves found (use.inside_proceed ref) (use.rejects_proceed ref)
      (use.known_proceed known)⟩
  | adding ref =>
    simp only [World.step] at taken
    split at taken
    next =>
      cases taken
      exact ⟨granted, accounted.refused found⟩
    next room =>
      cases taken
      exact ⟨_, accounted.admitted found (Int.not_lt.mp room)⟩
  | rejecting ref =>
    cases taken
    exact ⟨granted, accounted.turnedAway found _⟩
  | running => cases taken
  | subtracting ref result =>
    cases taken
    exact ⟨_, accounted.returned found⟩

theorem next {decode : String → Option Json} {event : Event} (accounted : w.Accounted granted)
    (taken : Step decode w event after) : ∃ granted, after.Accounted granted := by
  cases event with
  | call pid =>
    simp only [Step, World.next] at taken
    split at taken
    next absent =>
      cases taken
      exact ⟨granted, accounted.called absent⟩
    next => cases taken
  | step pid =>
    obtain ⟨caller, found, taken⟩ := Option.bind_eq_some_iff.mp taken
    exact accounted.step found taken
  | dumped pid dump =>
    simp only [Step, World.next] at taken
    split at taken
    next found =>
      cases taken
      exact ⟨granted, accounted.moves found rfl (fun _ => rfl) trivial⟩
    next => cases taken
  | kill pid =>
    obtain ⟨caller, found, rfl⟩ := Option.map_eq_some_iff.mp taken
    exact ⟨granted, accounted.kills found⟩

end Accounted

theorem accounted {decode : String → Option Json} {events : List Event} (run : Run (Step decode) World.init events w) :
    ∃ granted, w.Accounted granted := by
  induction run with
  | start => exact ⟨[], .init⟩
  | next _ taken ih =>
    obtain ⟨granted, accounted⟩ := ih
    exact accounted.next taken

end World

/-! One counter. -/

/-- A process has missed the term, and has not put it yet. -/
def Caller.Initialises : Caller → Prop
  | .creating _ | .putting _ _ => True
  | .getting _ | .adding _ | .rejecting _ | .running | .subtracting _ _ => False

@[simp] def Caller.creates : Caller → Int
  | .creating _ => 1
  | .putting _ _ | .getting _ | .adding _ | .rejecting _ | .running | .subtracting _ _ => 0

@[simp] def Caller.puts : Caller → Int
  | .putting _ _ => 1
  | .creating _ | .getting _ | .adding _ | .rejecting _ | .running | .subtracting _ _ => 0

theorem Caller.creates_of_not {caller : Caller} (not : ¬ caller.Initialises) : caller.creates = 0 ∧ caller.puts = 0 := by
  cases caller with
  | creating | putting => exact absurd trivial not
  | _ => exact ⟨rfl, rfl⟩

@[simp] theorem Use.creates_proceed (ref : Nat) (use : Use) : (use.proceed ref).creates = 0 := by cases use <;> rfl

@[simp] theorem Use.puts_proceed (ref : Nat) (use : Use) : (use.proceed ref).puts = 0 := by cases use <;> rfl

/-- No process looks for the semaphore while another one sets it up, which is not killed before it has. -/
def Alone (w : World) : Event → Prop
  | .step pid => (∃ use, w.callers.lookup pid = some (.getting use)) → w.term = none →
      ∀ other caller, w.callers.lookup other = some caller → ¬ caller.Initialises
  | .kill pid => ∀ caller, w.callers.lookup pid = some caller → ¬ caller.Initialises
  | .call _ | .dumped _ _ => True

namespace World
variable {w after : World} {pid : Nat} {caller old : Caller}

def stored (w : World) : Int := if w.term.isSome then 1 else 0

@[simp] theorem stored_place (pid : Nat) (caller : Caller) : (w.place pid caller).stored = w.stored := rfl

@[simp] theorem stored_reply (pid : Nat) (result : Objects) : (w.reply pid result).stored = w.stored := rfl

@[simp] theorem atomics_place (pid : Nat) (caller : Caller) : (w.place pid caller).atomics = w.atomics := rfl

/-- One process sets up the semaphore, or it has been set up, with the one counter. -/
structure Single (w : World) : Prop where
  one : w.count Caller.creates + w.count Caller.puts + w.stored ≤ 1
  made : (w.atomics.length : Int) = w.count Caller.puts + w.stored
  killed : ∀ caller ∈ w.killed, ¬ caller.Initialises

theorem count_eq_zero {weight : Caller → Int} (alive : ∀ pid caller, w.callers.lookup pid = some caller → weight caller = 0)
    (dead : ∀ caller ∈ w.killed, weight caller = 0) : w.count weight = 0 := by
  have nothing : FiniteMap.total weight w.callers = 0 := by
    refine List.sum_eq_zero fun amount member => ?_
    obtain ⟨entry, inside, rfl⟩ := List.mem_map.mp member
    exact alive entry.1 entry.2 (AList.mem_lookup_iff.mpr inside)
  have silent : (w.killed.map weight).sum = 0 := by
    refine List.sum_eq_zero fun amount member => ?_
    obtain ⟨caller, inside, rfl⟩ := List.mem_map.mp member
    exact dead caller inside
  rw [count, nothing, silent, add_zero]

namespace Single

theorem init : init.Single := ⟨by decide, rfl, fun _ member => by cases member⟩

/-- A process gets on while nothing is set up by it. -/
theorem moves (single : w.Single) (found : w.callers.lookup pid = some old) (was : ¬ old.Initialises)
    (is : ¬ caller.Initialises) : (w.place pid caller).Single := by
  obtain ⟨creates, puts⟩ := Caller.creates_of_not was
  obtain ⟨willCreate, willPut⟩ := Caller.creates_of_not is
  refine ⟨?_, ?_, single.killed⟩
  · rw [count_place found, count_place found, creates, puts, willCreate, willPut, sub_self, zero_add, zero_add]
    exact single.one
  · rw [count_place found, puts, willPut, sub_self, zero_add]
    exact single.made

theorem replied (single : w.Single) (found : w.callers.lookup pid = some old) (was : ¬ old.Initialises)
    (result : Objects) : (w.reply pid result).Single := by
  obtain ⟨creates, puts⟩ := Caller.creates_of_not was
  refine ⟨?_, ?_, single.killed⟩
  · rw [count_reply found, count_reply found, creates, puts, sub_zero, sub_zero]
    exact single.one
  · rw [count_reply found, puts, sub_zero]
    exact single.made

theorem adds (single : w.Single) (ref : Nat) (amount : Int) : (w.add ref amount).Single :=
  ⟨single.one, by rw [add_length]; exact single.made, single.killed⟩

theorem creates_nonneg : 0 ≤ w.count Caller.creates := count_nonneg fun caller => by cases caller <;> simp

theorem puts_nonneg : 0 ≤ w.count Caller.puts := count_nonneg fun caller => by cases caller <;> simp

theorem length_le (single : w.Single) : w.atomics.length ≤ 1 := by
  have creates : 0 ≤ w.count Caller.creates := creates_nonneg
  have one := single.one
  have made := single.made
  omega

/-- Nobody sets up the semaphore, and it is not there. -/
theorem starts (single : w.Single) {use : Use} (found : w.callers.lookup pid = some (.getting use)) (none : w.term = none)
    (nobody : ∀ other caller, w.callers.lookup other = some caller → ¬ caller.Initialises) :
    (w.place pid (.creating use)).Single := by
  have creates : w.count Caller.creates = 0 :=
    count_eq_zero (fun pid caller found => (Caller.creates_of_not (nobody pid caller found)).1)
      fun caller dead => (Caller.creates_of_not (single.killed caller dead)).1
  have puts : w.count Caller.puts = 0 :=
    count_eq_zero (fun pid caller found => (Caller.creates_of_not (nobody pid caller found)).2)
      fun caller dead => (Caller.creates_of_not (single.killed caller dead)).2
  have stored : w.stored = 0 := by simp [World.stored, none]
  have made := single.made
  refine ⟨?_, ?_, single.killed⟩
  · rw [count_place found, count_place found, creates, puts, stored_place, stored]
    simp
  · rw [count_place found, stored_place, atomics_place]
    simp only [Caller.puts]
    omega

theorem creates (single : w.Single) {use : Use} (found : w.callers.lookup pid = some (.creating use)) :
    (({ w with atomics := w.atomics ++ [0] } : World).place pid (.putting use w.atomics.length)).Single := by
  have there : ({ w with atomics := w.atomics ++ [0] } : World).callers.lookup pid = some (.creating use) := found
  have one : ({ w with atomics := w.atomics ++ [0] } : World).count Caller.creates +
      ({ w with atomics := w.atomics ++ [0] } : World).count Caller.puts + w.stored ≤ 1 := single.one
  have made : (w.atomics.length : Int) =
      ({ w with atomics := w.atomics ++ [0] } : World).count Caller.puts + w.stored := single.made
  have same : ({ w with atomics := w.atomics ++ [0] } : World).stored = w.stored := rfl
  refine ⟨?_, ?_, single.killed⟩
  · rw [count_place there, count_place there, stored_place, same]
    simp only [Caller.creates, Caller.puts]
    omega
  · rw [count_place there, stored_place, atomics_place, same]
    simp only [Caller.puts, List.length_append, List.length_singleton]
    omega

theorem puts (single : w.Single) {use : Use} {ref : Nat} (found : w.callers.lookup pid = some (.putting use ref)) :
    (({ w with term := some ref } : World).place pid (use.proceed ref)).Single := by
  have there : ({ w with term := some ref } : World).callers.lookup pid = some (.putting use ref) := found
  have one : ({ w with term := some ref } : World).count Caller.creates +
      ({ w with term := some ref } : World).count Caller.puts + w.stored ≤ 1 := single.one
  have made : (w.atomics.length : Int) = ({ w with term := some ref } : World).count Caller.puts + w.stored := single.made
  have stored : ({ w with term := some ref } : World).stored = 1 := rfl
  -- the term was not there, as there is one counter only
  have creates : 0 ≤ ({ w with term := some ref } : World).count Caller.creates := creates_nonneg
  have others : 0 ≤ (({ w with term := some ref } : World).place pid (use.proceed ref)).count Caller.puts := puts_nonneg
  rw [count_place there, Use.puts_proceed, Caller.puts] at others
  have missed : 0 ≤ w.stored := by
    rw [World.stored]
    split <;> decide
  refine ⟨?_, ?_, single.killed⟩
  · rw [count_place there, count_place there, stored_place, stored, Use.creates_proceed, Use.puts_proceed]
    simp only [Caller.creates, Caller.puts]
    omega
  · rw [count_place there, stored_place, atomics_place, stored, Use.puts_proceed]
    simp only [Caller.puts]
    omega

theorem step (single : w.Single) (alone : Alone w (.step pid)) (found : w.callers.lookup pid = some caller)
    (taken : w.step pid caller = some after) : after.Single := by
  cases caller with
  | getting use =>
    cases there : w.term with
    | none =>
      simp only [World.step, there, Option.some.injEq] at taken
      exact taken ▸ single.starts found there (alone ⟨use, found⟩ there)
    | some ref =>
      simp only [World.step, there, Option.some.injEq] at taken
      subst taken
      refine single.moves found not_false ?_
      cases use <;> exact not_false
  | creating use =>
    cases taken
    exact single.creates found
  | putting use ref =>
    cases taken
    exact single.puts found
  | adding ref =>
    simp only [World.step] at taken
    split at taken <;> cases taken <;> exact (single.adds ref 1).moves found not_false not_false
  | rejecting ref =>
    cases taken
    exact (single.adds ref (-1)).replied found not_false _
  | running => cases taken
  | subtracting ref result =>
    cases taken
    exact (single.adds ref (-1)).replied found not_false result

theorem next {decode : String → Option Json} {event : Event} (single : w.Single) (alone : Alone w event)
    (taken : Step decode w event after) : after.Single := by
  cases event with
  | call pid =>
    simp only [Step, World.next] at taken
    split at taken
    next absent =>
      cases taken
      refine ⟨?_, ?_, single.killed⟩
      · rw [count_call absent, count_call absent, Caller.creates, Caller.puts, zero_add, zero_add]
        exact single.one
      · rw [count_call absent, Caller.puts, zero_add]
        exact single.made
    next => cases taken
  | step pid =>
    obtain ⟨caller, found, taken⟩ := Option.bind_eq_some_iff.mp taken
    exact single.step alone found taken
  | dumped pid dump =>
    simp only [Step, World.next] at taken
    split at taken
    next found =>
      cases taken
      exact single.moves found not_false not_false
    next => cases taken
  | kill pid =>
    obtain ⟨caller, found, rfl⟩ := Option.map_eq_some_iff.mp taken
    refine ⟨?_, ?_, fun other member => ?_⟩
    · rw [count_kill found, count_kill found]
      exact single.one
    · rw [count_kill found]
      exact single.made
    · rcases List.mem_append.mp member with old | new
      · exact single.killed other old
      · rw [List.mem_singleton.mp new]
        exact alone caller found

end Single

end World

/-- However the callers are interleaved and killed, there are never more than three slots out for each counter
that was created. -/
theorem slots_bounded {decode : String → Option Json} {events : List Event} {w : World}
    (run : Run (Step decode) .init events w) :
    w.count Caller.inside ≤ maxConcurrentPwCommands * w.atomics.length := by
  obtain ⟨granted, accounted⟩ := World.accounted run
  have most := List.sum_le_card_nsmul granted maxConcurrentPwCommands accounted.bounded
  rw [accounted.sum, accounted.length, Int.nsmul_eq_mul, mul_comm] at most
  exact most

/-- Two processes that both look for the semaphore before it is set up make two counters, and six slots are out. -/
theorem six_slots : ∃ w : World, w.count Caller.inside = 6 ∧
    w.count Caller.inside ≤ maxConcurrentPwCommands * w.atomics.length := by
  obtain ⟨w, played, slots⟩ : ∃ w, play (fun w event => World.next w (fun _ => none) event)
      ([.call 0, .call 1, .step 0, .step 1, .step 0, .step 0, .step 0, .call 2, .step 2, .step 2, .call 3, .step 3, .step 3] ++
        [.step 1, .step 1, .step 1, .call 4, .step 4, .step 4, .call 5, .step 5, .step 5]) World.init = some w ∧
      w.count Caller.inside = 6 := ⟨_, rfl, rfl⟩
  exact ⟨w, slots, slots_bounded (play_run played)⟩

namespace World
variable {w : World}

/-- With one counter, it stands at what all processes count for. -/
theorem Accounted.one_counter {granted : List Int} (accounted : w.Accounted granted) (one : w.atomics.length = 1) :
    w.atomics.getD 0 0 = w.count Caller.counts := by
  have counts : w.count Caller.counts = w.count Caller.inside + w.count (Caller.rejects 0) := by
    have alive : FiniteMap.total Caller.counts w.callers =
        FiniteMap.total (fun caller => caller.inside + caller.rejects 0) w.callers :=
      FiniteMap.total_congr fun pid caller found => Caller.counts_of_single (one ▸ accounted.known pid caller found)
    have dead : w.killed.map Caller.counts = w.killed.map fun caller => caller.inside + caller.rejects 0 :=
      List.map_congr_left fun caller member => Caller.counts_of_single (one ▸ accounted.killed caller member)
    rw [count, count, count, alive, FiniteMap.total_add, dead, List.sum_map_add]
    omega
  obtain ⟨amount, rfl⟩ := List.length_eq_one_iff.mp (accounted.length.trans one)
  have sum := accounted.sum
  have each := accounted.each 0
  rw [List.sum_singleton] at sum
  rw [List.getD_cons_zero] at each
  omega

end World

/-- Where one process sets up the semaphore before the others look for it, a call gets a slot exactly when
fewer than three processes count for one, those with them that were killed before they gave it back. -/
theorem admitted_iff {decode : String → Option Json} {events : List Event} {w after : World} {pid ref : Nat}
    (run : Run (Guarded Alone (Step decode)) .init events w) (adds : w.callers.lookup pid = some (.adding ref))
    (taken : Step decode w (.step pid) after) :
    after.callers.lookup pid = some .running ↔ w.count Caller.counts < maxConcurrentPwCommands := by
  have single : w.Single := run.invariant .init fun single taken => single.next taken.1 taken.2
  obtain ⟨granted, accounted⟩ := World.accounted (run.mono fun taken => taken.2)
  have less : ref < w.atomics.length := accounted.known pid _ adds
  have one : w.atomics.length = 1 := by
    have few := single.length_le
    omega
  obtain rfl : ref = 0 := by omega
  have stands := accounted.one_counter one
  obtain ⟨caller, found, taken⟩ := Option.bind_eq_some_iff.mp taken
  cases adds.symm.trans found
  simp only [World.step] at taken
  split at taken
  next full =>
    cases taken
    refine iff_of_false (fun running => ?_) (by omega)
    rw [World.place, AList.lookup_insert] at running
    cases running
  next room =>
    cases taken
    refine iff_of_true ?_ (by omega)
    rw [World.place, AList.lookup_insert]

/-- One process, and what there is of the semaphore. -/
def sole (term : Option Nat) (atomics : List Int) (caller : Caller) : World :=
  ⟨term, atomics, AList.singleton 0 caller, [], []⟩

/-- The process that has set up the semaphore is let in. -/
theorem first_admitted : ∃ w after : World, (w.callers.lookup 0 = some (.adding 0)) ∧
    (after.callers.lookup 0 = some .running ↔ w.count Caller.counts < maxConcurrentPwCommands) := by
  have called : Guarded Alone (Step fun _ => none) .init (.call 0) (sole none [] (.getting .acquire)) := ⟨trivial, rfl⟩
  have missed : Guarded Alone (Step fun _ => none) (sole none [] (.getting .acquire)) (.step 0)
      (sole none [] (.creating .acquire)) := by
    refine ⟨fun _ _ other caller found => ?_, rfl⟩
    rw [sole, ← AList.insert_empty, FiniteMap.lookup_insert_if] at found
    split at found <;> cases found
    exact not_false
  have created : Guarded Alone (Step fun _ => none) (sole none [] (.creating .acquire)) (.step 0)
      (sole none [0] (.putting .acquire 0)) := by
    refine ⟨?_, rfl⟩
    rintro ⟨_, found⟩
    cases found
  have put : Guarded Alone (Step fun _ => none) (sole none [0] (.putting .acquire 0)) (.step 0)
      (sole (some 0) [0] (.adding 0)) := by
    refine ⟨?_, rfl⟩
    rintro ⟨_, found⟩
    cases found
  exact ⟨_, _, rfl, admitted_iff ((((Run.start.next called).next missed).next created).next put) rfl rfl⟩

end Burble.Media.PipeWire
