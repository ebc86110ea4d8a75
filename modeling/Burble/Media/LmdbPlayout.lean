import Burble.FiniteMap

namespace Burble.Media

structure AudioFrame (Payload : Type) where
  seq : Nat
  timestampUs : Nat
  payload : Payload
  deriving DecidableEq, Repr

/-- The state of the playout server with its table of slots. -/
structure LmdbPlayout (Payload : Type) where
  capacity : Nat
  table : FiniteMap Nat (AudioFrame Payload)
  writeCursor : Nat
  readCursor : Nat
  framesWritten : Nat
  framesRead : Nat
  framesEvicted : Nat

namespace LmdbPlayout
variable {Payload : Type}

def init (capacity : Nat) : LmdbPlayout Payload where
  capacity := capacity
  table := ∅
  writeCursor := 0
  readCursor := 0
  framesWritten := 0
  framesRead := 0
  framesEvicted := 0

def backendRead (state : LmdbPlayout Payload) (slot : Nat) : Option (AudioFrame Payload) := state.table.lookup slot

def slotOccupied (state : LmdbPlayout Payload) (slot : Nat) : Bool := (state.table.lookup slot).isSome

def writeFrame (state : LmdbPlayout Payload) (frame : AudioFrame Payload) : LmdbPlayout Payload :=
  let slot := frame.seq % state.capacity
  let evicted := if state.framesWritten ≥ state.capacity ∧ state.slotOccupied slot then 1 else 0
  let newState := { state with
    table := state.table.insert slot frame
    writeCursor := frame.seq + 1
    framesWritten := state.framesWritten + 1
    framesEvicted := state.framesEvicted + evicted }
  if newState.writeCursor - newState.readCursor > state.capacity then
    { newState with readCursor := newState.writeCursor - state.capacity }
  else newState

/-- The frame that is read, if one is, and the state after it. -/
def readNext (state : LmdbPlayout Payload) : Option (AudioFrame Payload) × LmdbPlayout Payload :=
  if state.readCursor ≥ state.writeCursor then (none, state)
  else match state.backendRead (state.readCursor % state.capacity) with
    | some frame =>
      (some frame, { state with readCursor := state.readCursor + 1, framesRead := state.framesRead + 1 })
    -- The slot was never written.
    | none => (none, { state with readCursor := state.readCursor + 1 })

def drain (state : LmdbPlayout Payload) : List (AudioFrame Payload) :=
  ((List.range' state.readCursor (state.writeCursor - state.readCursor)).foldl (fun acc cursor =>
    match state.backendRead (cursor % state.capacity) with
    | some frame => frame :: acc
    | none => acc) []).reverse

/-- The answers of reads that follow each other. -/
def reads : Nat → LmdbPlayout Payload → List (Option (AudioFrame Payload))
  | 0, _ => []
  | count + 1, state => state.readNext.1 :: reads count state.readNext.2

variable (state : LmdbPlayout Payload)

@[simp] theorem writeFrame_capacity (frame : AudioFrame Payload) :
    (state.writeFrame frame).capacity = state.capacity := by
  unfold writeFrame
  dsimp only
  split <;> rfl

@[simp] theorem writeFrame_table (frame : AudioFrame Payload) :
    (state.writeFrame frame).table = state.table.insert (frame.seq % state.capacity) frame := by
  unfold writeFrame
  dsimp only
  split <;> rfl

@[simp] theorem writeFrame_writeCursor (frame : AudioFrame Payload) :
    (state.writeFrame frame).writeCursor = frame.seq + 1 := by
  unfold writeFrame
  dsimp only
  split <;> rfl

/-- The read cursor keeps within the capacity of the write cursor. -/
@[simp] theorem writeFrame_readCursor (frame : AudioFrame Payload) :
    (state.writeFrame frame).readCursor = max state.readCursor (frame.seq + 1 - state.capacity) := by
  unfold writeFrame
  dsimp only
  split
  · dsimp only
    omega
  · dsimp only
    omega

theorem readNext_of_empty (empty : state.writeCursor ≤ state.readCursor) : state.readNext = (none, state) := by
  rw [readNext, if_pos empty]

theorem readNext_answer (unread : state.readCursor < state.writeCursor) :
    state.readNext.1 = state.backendRead (state.readCursor % state.capacity) := by
  rw [readNext, if_neg (Nat.not_le.mpr unread)]
  split
  next found => exact found.symm
  next missing => exact missing.symm

@[simp] theorem readNext_capacity : state.readNext.2.capacity = state.capacity := by
  unfold readNext
  split
  · rfl
  · split <;> rfl

@[simp] theorem readNext_table : state.readNext.2.table = state.table := by
  unfold readNext
  split
  · rfl
  · split <;> rfl

@[simp] theorem readNext_backendRead : state.readNext.2.backendRead = state.backendRead := by
  funext slot
  rw [backendRead, readNext_table, backendRead]

@[simp] theorem readNext_writeCursor : state.readNext.2.writeCursor = state.writeCursor := by
  unfold readNext
  split
  · rfl
  · split <;> rfl

theorem readNext_readCursor (unread : state.readCursor < state.writeCursor) :
    state.readNext.2.readCursor = state.readCursor + 1 := by
  rw [readNext, if_neg (Nat.not_le.mpr unread)]
  split <;> rfl

theorem foldl_frames (table : Nat → Option (AudioFrame Payload)) (cursors : List Nat)
    (acc : List (AudioFrame Payload)) :
    (cursors.foldl (fun acc cursor =>
      match table cursor with
      | some frame => frame :: acc
      | none => acc) acc).reverse = acc.reverse ++ cursors.filterMap table := by
  induction cursors generalizing acc with
  | nil => simp
  | cons cursor rest ih =>
    rw [List.foldl_cons, ih]
    cases read : table cursor with
    | none => rw [List.filterMap_cons_none read]
    | some frame => rw [List.filterMap_cons_some read, List.reverse_cons, List.append_assoc, List.singleton_append]

theorem drain_eq : state.drain = (List.range' state.readCursor (state.writeCursor - state.readCursor)).filterMap
    fun cursor => state.backendRead (cursor % state.capacity) :=
  foldl_frames _ _ _

theorem drain_of_empty (empty : state.writeCursor ≤ state.readCursor) : state.drain = [] := by
  rw [drain_eq, Nat.sub_eq_zero_of_le empty]
  rfl

theorem drain_of_unread (unread : state.readCursor < state.writeCursor) :
    state.drain = state.readNext.1.toList ++ state.readNext.2.drain := by
  rw [drain_eq, drain_eq, readNext_answer state unread, readNext_readCursor state unread, readNext_writeCursor,
    readNext_capacity,
    show state.writeCursor - state.readCursor = state.writeCursor - (state.readCursor + 1) + 1 by omega,
    List.range'_succ, List.filterMap_cons]
  rw [readNext_backendRead]
  split
  next missing => rw [missing]; rfl
  next found => rw [found]; rfl

/-- What is drained is what the reads that follow return. -/
theorem drain_reads (count : Nat) (enough : state.writeCursor - state.readCursor ≤ count) :
    (state.reads count).filterMap id = state.drain := by
  induction count generalizing state with
  | zero =>
    rw [drain_of_empty state (by omega)]
    rfl
  | succ count ih =>
    rw [reads, List.filterMap_cons]
    by_cases unread : state.readCursor < state.writeCursor
    · rw [drain_of_unread state unread, ← ih state.readNext.2 (by
        rw [readNext_writeCursor, readNext_readCursor state unread]
        omega)]
      cases state.readNext.1 <;> rfl
    · have empty := Nat.not_lt.mp unread
      rw [readNext_of_empty state empty]
      exact ih state (by omega)

end LmdbPlayout
end Burble.Media
