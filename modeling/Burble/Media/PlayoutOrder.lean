import Burble.Runs
import Burble.Media.LmdbPlayout

namespace Burble.Media

/-- Less than one lap apart, the slot determines the number. -/
theorem eq_of_slot {seq other capacity : Nat} (slot : seq % capacity = other % capacity) (order : seq ≤ other)
    (near : other < seq + capacity) : seq = other := by
  have laps := Nat.sub_mod_eq_zero_of_mod_eq slot.symm
  rw [Nat.mod_eq_of_lt (by omega)] at laps
  omega

/-- The oldest of the frames from a number on is the one with that number. -/
theorem head_of_sorted {Payload : Type} {frames : List (AudioFrame Payload)} {cursor : Nat} {frame : AudioFrame Payload}
    (sorted : frames.Pairwise fun earlier later => earlier.seq < later.seq) (member : frame ∈ frames)
    (here : frame.seq = cursor) : (frames.filter fun frame => decide (cursor ≤ frame.seq)).head? = some frame := by
  induction frames with
  | nil => cases member
  | cons first rest ih =>
    obtain ⟨before, later⟩ := List.pairwise_cons.mp sorted
    rcases List.mem_cons.mp member with rfl | among
    · rw [List.filter_cons_of_pos (by simp; omega), List.head?_cons]
    · have order := before frame among
      rw [List.filter_cons_of_neg (by simp; omega)]
      exact ih later among

inductive PlayoutCall (Payload : Type)
  | writeFrame (frame : AudioFrame Payload)
  | readNext
  | drain

/-- A playout server with the frames that were written to it and returned from it. -/
structure Playout (Payload : Type) where
  server : LmdbPlayout Payload
  written : List (AudioFrame Payload)
  returned : List (AudioFrame Payload)

namespace Playout
variable {Payload : Type}

def start (capacity : Nat) : Playout Payload := ⟨.init capacity, [], []⟩

/-- The writer numbers its frames upwards. -/
def next (playout : Playout Payload) : PlayoutCall Payload → Option (Playout Payload)
  | .writeFrame frame =>
    if ∀ earlier ∈ playout.written, earlier.seq < frame.seq then
      some ⟨playout.server.writeFrame frame, playout.written ++ [frame], playout.returned⟩
    else none
  | .readNext =>
    some ⟨playout.server.readNext.2, playout.written, playout.returned ++ playout.server.readNext.1.toList⟩
  | .drain => some playout

def Step (before : Playout Payload) (call : PlayoutCall Payload) (after : Playout Payload) : Prop :=
  before.next call = some after

/-- The written frames that are within the capacity of the newest one and were not returned, oldest first. -/
def unread (playout : Playout Payload) : List (AudioFrame Payload) :=
  playout.written.filter fun frame =>
    decide ((∀ other ∈ playout.written, other.seq < frame.seq + playout.server.capacity) ∧
      ∀ read ∈ playout.returned, read.seq ≠ frame.seq)

/-- A read returns the oldest unread frame, and a drain what the reads after it would return. -/
def Served (playout : Playout Payload) : PlayoutCall Payload → Prop
  | .writeFrame _ => True
  | .readNext => playout.server.readNext.1 = playout.unread.head?
  | .drain => ∀ count ≥ playout.server.writeCursor - playout.server.readCursor,
      playout.server.drain = (playout.server.reads count).filterMap id

def InOrder (playout : Playout Payload) : Prop :=
  playout.returned.Pairwise fun earlier later => earlier.seq < later.seq

/-- Where there is something to read, the frame at the read cursor was written. -/
def NoGap (playout : Playout Payload) : PlayoutCall Payload → Prop
  | .readNext => playout.server.readCursor < playout.server.writeCursor →
      ∃ frame ∈ playout.written, frame.seq = playout.server.readCursor
  | _ => True

/-- What holds of the cursors and the slots after any calls. -/
structure Consistent (playout : Playout Payload) : Prop where
  positive : 1 ≤ playout.server.capacity
  sorted : playout.written.Pairwise fun earlier later => earlier.seq < later.seq
  below : ∀ frame ∈ playout.written, frame.seq < playout.server.writeCursor
  newest : 0 < playout.server.writeCursor → ∃ frame ∈ playout.written, frame.seq + 1 = playout.server.writeCursor
  ahead : playout.server.readCursor ≤ playout.server.writeCursor
  window : playout.server.writeCursor ≤ playout.server.readCursor + playout.server.capacity
  recent : ∀ frame ∈ playout.written, playout.server.writeCursor ≤ frame.seq + playout.server.capacity →
    playout.server.backendRead (frame.seq % playout.server.capacity) = some frame
  slots : ∀ slot, ∀ frame ∈ playout.server.backendRead slot,
    frame ∈ playout.written ∧ frame.seq % playout.server.capacity = slot
  behind : ∀ frame ∈ playout.returned, frame.seq < playout.server.readCursor
  passed : ∀ frame ∈ playout.written, frame.seq < playout.server.readCursor →
    playout.server.writeCursor ≤ frame.seq + playout.server.capacity → frame ∈ playout.returned

variable {before after playout : Playout Payload} {call : PlayoutCall Payload}

theorem step_writeFrame {frame : AudioFrame Payload} (taken : Step before (.writeFrame frame) after) :
    (∀ earlier ∈ before.written, earlier.seq < frame.seq) ∧
      after = ⟨before.server.writeFrame frame, before.written ++ [frame], before.returned⟩ := by
  by_cases above : ∀ earlier ∈ before.written, earlier.seq < frame.seq
  · rw [Step, next, if_pos above] at taken
    exact ⟨above, (Option.some.inj taken).symm⟩
  · rw [Step, next, if_neg above] at taken
    cases taken

theorem start_consistent {capacity : Nat} (positive : 1 ≤ capacity) :
    (start capacity : Playout Payload).Consistent where
  positive := positive
  sorted := .nil
  below := fun _ member => by cases member
  newest := fun impossible => by cases impossible
  ahead := Nat.le_refl 0
  window := Nat.zero_le _
  recent := fun _ member => by cases member
  slots := fun _ _ found => by cases found
  behind := fun _ member => by cases member
  passed := fun _ member => by cases member

namespace Consistent

/-- A frame that is numbered above the others has the next number or a later one. -/
theorem increasing (consistent : playout.Consistent) {frame : AudioFrame Payload}
    (above : ∀ earlier ∈ playout.written, earlier.seq < frame.seq) : playout.server.writeCursor ≤ frame.seq := by
  by_cases any : 0 < playout.server.writeCursor
  · obtain ⟨newest, member, last⟩ := consistent.newest any
    have := above newest member
    omega
  · omega

theorem unread_eq (consistent : playout.Consistent) : playout.unread =
    playout.written.filter fun frame => decide (playout.server.readCursor ≤ frame.seq) := by
  refine List.filter_congr fun frame member => decide_eq_decide.mpr ?_
  constructor
  · rintro ⟨recent, fresh⟩
    by_contra passed
    have some := consistent.below frame member
    obtain ⟨newest, among, last⟩ := consistent.newest (by omega)
    have near := recent newest among
    exact fresh frame (consistent.passed frame member (by omega) (by omega)) rfl
  · intro ahead
    have window := consistent.window
    constructor
    · intro other among
      have := consistent.below other among
      omega
    · intro read returned
      have := consistent.behind read returned
      omega

/-- The slot at the read cursor holds the frame with its number, or one of an earlier lap. -/
theorem backendRead_cursor (consistent : playout.Consistent) {frame : AudioFrame Payload}
    (found : playout.server.backendRead (playout.server.readCursor % playout.server.capacity) = some frame) :
    frame ∈ playout.written ∧ frame.seq ≤ playout.server.readCursor := by
  obtain ⟨member, slot⟩ := consistent.slots _ frame found
  have below := consistent.below frame member
  have window := consistent.window
  refine ⟨member, Nat.le_of_not_lt fun past => ?_⟩
  have same := eq_of_slot slot.symm (Nat.le_of_lt past) (by omega)
  omega

theorem writeFrame (consistent : playout.Consistent) {frame : AudioFrame Payload}
    (above : ∀ earlier ∈ playout.written, earlier.seq < frame.seq) :
    Consistent ⟨playout.server.writeFrame frame, playout.written ++ [frame], playout.returned⟩ := by
  have positive := consistent.positive
  have ahead := consistent.ahead
  have increasing := consistent.increasing above
  constructor <;> dsimp only
  case positive => rwa [LmdbPlayout.writeFrame_capacity]
  case sorted =>
    refine List.pairwise_append.mpr ⟨consistent.sorted, List.pairwise_singleton _ _, fun earlier member last same => ?_⟩
    cases List.mem_singleton.mp same
    exact above earlier member
  case below =>
    intro earlier member
    rw [LmdbPlayout.writeFrame_writeCursor]
    rcases List.mem_append.mp member with old | same
    · have := above earlier old
      omega
    · cases List.mem_singleton.mp same
      omega
  case newest =>
    intro _
    exact ⟨frame, by simp, (LmdbPlayout.writeFrame_writeCursor _ _).symm⟩
  case ahead =>
    rw [LmdbPlayout.writeFrame_writeCursor, LmdbPlayout.writeFrame_readCursor]
    omega
  case window =>
    rw [LmdbPlayout.writeFrame_writeCursor, LmdbPlayout.writeFrame_readCursor, LmdbPlayout.writeFrame_capacity]
    omega
  case recent =>
    intro earlier member
    rw [LmdbPlayout.writeFrame_writeCursor, LmdbPlayout.writeFrame_capacity, LmdbPlayout.backendRead,
      LmdbPlayout.writeFrame_table, FiniteMap.lookup_insert_if]
    intro recent
    rcases List.mem_append.mp member with old | same
    · have order := above earlier old
      rw [if_neg fun slot => by
        have := eq_of_slot slot (Nat.le_of_lt order) (by omega)
        omega]
      exact consistent.recent earlier old (by omega)
    · cases List.mem_singleton.mp same
      rw [if_pos rfl]
  case slots =>
    intro slot found lookup
    rw [LmdbPlayout.backendRead, LmdbPlayout.writeFrame_table, FiniteMap.lookup_insert_if] at lookup
    rw [LmdbPlayout.writeFrame_capacity]
    split at lookup
    next same =>
      cases lookup
      exact ⟨by simp, same.symm⟩
    next =>
      obtain ⟨member, residue⟩ := consistent.slots slot found lookup
      exact ⟨List.mem_append_left _ member, residue⟩
  case behind =>
    intro read member
    rw [LmdbPlayout.writeFrame_readCursor]
    have := consistent.behind read member
    omega
  case passed =>
    intro earlier member
    rw [LmdbPlayout.writeFrame_readCursor, LmdbPlayout.writeFrame_writeCursor, LmdbPlayout.writeFrame_capacity]
    intro behind recent
    rcases List.mem_append.mp member with old | same
    · exact consistent.passed earlier old (by omega) (by omega)
    · cases List.mem_singleton.mp same
      omega

theorem readNext (consistent : playout.Consistent) : Consistent
    ⟨playout.server.readNext.2, playout.written, playout.returned ++ playout.server.readNext.1.toList⟩ := by
  by_cases unread : playout.server.readCursor < playout.server.writeCursor
  · have answer := LmdbPlayout.readNext_answer playout.server unread
    have cursor := LmdbPlayout.readNext_readCursor playout.server unread
    constructor <;> dsimp only <;>
      try simp only [LmdbPlayout.readNext_capacity, LmdbPlayout.readNext_writeCursor,
        LmdbPlayout.readNext_backendRead, cursor]
    case positive => exact consistent.positive
    case sorted => exact consistent.sorted
    case below => exact consistent.below
    case newest => exact consistent.newest
    case ahead => exact unread
    case window => exact Nat.le_trans consistent.window (by omega)
    case recent => exact consistent.recent
    case slots => exact consistent.slots
    case behind =>
      intro read member
      rcases List.mem_append.mp member with old | now
      · exact Nat.lt_succ_of_lt (consistent.behind read old)
      · rw [answer, Option.mem_toList] at now
        exact Nat.lt_succ_of_le (consistent.backendRead_cursor now).2
    case passed =>
      intro frame member behind recent
      rcases Nat.lt_or_eq_of_le (Nat.le_of_lt_succ behind) with before | same
      · exact List.mem_append_left _ (consistent.passed frame member before recent)
      · have found := consistent.recent frame member recent
        rw [same, ← answer] at found
        exact List.mem_append_right _ (Option.mem_toList.mpr found)
  · rw [LmdbPlayout.readNext_of_empty playout.server (Nat.not_lt.mp unread)]
    simpa using consistent

theorem step (consistent : before.Consistent) (taken : Step before call after) : after.Consistent := by
  cases call with
  | writeFrame frame =>
    obtain ⟨above, rfl⟩ := step_writeFrame taken
    exact consistent.writeFrame above
  | readNext =>
    cases taken
    exact consistent.readNext
  | drain =>
    cases taken
    exact consistent

/-- A read is served if and only if the frame at the cursor is there or nothing is. -/
theorem served_iff (consistent : playout.Consistent) : Served playout call ↔ NoGap playout call := by
  cases call with
  | writeFrame frame => exact Iff.rfl
  | drain => exact iff_of_true (fun count enough => (LmdbPlayout.drain_reads _ count enough).symm) trivial
  | readNext =>
    unfold Served NoGap
    rw [consistent.unread_eq]
    by_cases unread : playout.server.readCursor < playout.server.writeCursor
    · rw [LmdbPlayout.readNext_answer playout.server unread, forall_prop_of_true unread]
      constructor
      · intro served
        obtain ⟨newest, member, last⟩ := consistent.newest (by omega)
        have any : newest ∈ playout.written.filter fun frame => decide (playout.server.readCursor ≤ frame.seq) :=
          List.mem_filter.mpr ⟨member, decide_eq_true (by omega)⟩
        obtain ⟨oldest, head⟩ := Option.isSome_iff_exists.mp
          (List.isSome_head?.mpr (List.ne_nil_of_mem any))
        have ahead := List.mem_filter.mp (List.mem_of_head? head)
        have found := consistent.backendRead_cursor (served.trans head)
        exact ⟨oldest, ahead.1, Nat.le_antisymm found.2 (of_decide_eq_true ahead.2)⟩
      · rintro ⟨frame, member, here⟩
        rw [head_of_sorted consistent.sorted member here, ← here]
        exact consistent.recent frame member (by have := consistent.window; omega)
    · refine iff_of_true ?_ fun now => absurd now unread
      rw [LmdbPlayout.readNext_of_empty playout.server (Nat.not_lt.mp unread), List.filter_eq_nil_iff.mpr]
      · rfl
      · intro frame member ahead
        have := consistent.below frame member
        have := of_decide_eq_true ahead
        omega

theorem inOrder (consistent : before.Consistent) (ordered : before.InOrder) (noGap : NoGap before call)
    (taken : Step before call after) : after.InOrder := by
  cases call with
  | writeFrame frame =>
    obtain ⟨_, rfl⟩ := step_writeFrame taken
    exact ordered
  | drain =>
    cases taken
    exact ordered
  | readNext =>
    cases taken
    by_cases unread : before.server.readCursor < before.server.writeCursor
    · obtain ⟨frame, member, here⟩ := noGap unread
      have found := consistent.recent frame member (by have := consistent.window; omega)
      rw [here, ← LmdbPlayout.readNext_answer before.server unread] at found
      refine List.pairwise_append.mpr ⟨ordered, ?_, fun earlier returned later now => ?_⟩
      · rw [found]
        exact List.pairwise_singleton _ _
      · rw [found, Option.toList_some, List.mem_singleton] at now
        have := consistent.behind earlier returned
        rw [now]
        omega
    · rw [LmdbPlayout.readNext_of_empty before.server (Nat.not_lt.mp unread)]
      simpa [InOrder] using ordered

end Consistent

/-- Every read of a run returns the oldest unread frame, in the order of their numbers, if and only if none is
made at a number that was left out. -/
theorem playout_in_order_iff {capacity : Nat} (positive : 1 ≤ capacity) (calls : List (PlayoutCall Payload))
    (last : Playout Payload) :
    Run (Guarded NoGap Step) (start capacity) calls last ↔
      Run (fun before call after => Step before call after ∧ Served before call ∧ after.InOrder)
        (start capacity) calls last :=
  Run.guarded_iff Consistent ⟨start_consistent positive, .nil⟩ Consistent.step
    fun consistent ordered taken =>
      ⟨fun noGap => ⟨consistent.served_iff.mpr noGap, consistent.inOrder ordered noGap taken⟩,
        fun served => consistent.served_iff.mp served.1⟩

instance (playout : Playout Payload) : (call : PlayoutCall Payload) → Decidable (NoGap playout call)
  | .writeFrame _ => .isTrue trivial
  | .drain => .isTrue trivial
  | .readNext => inferInstanceAs (Decidable (playout.server.readCursor < playout.server.writeCursor →
      ∃ frame ∈ playout.written, frame.seq = playout.server.readCursor))

section Samples

def sample (seq : Nat) : AudioFrame (List UInt8) := ⟨seq, 20000 * seq, [seq.toUInt8]⟩

/-- A full ring that loses its oldest frame and keeps the order of the others. -/
theorem overtaken_in_order : ∃ last : Playout (List UInt8), last.returned = [sample 1, sample 2] ∧
    Run (fun before call after => Step before call after ∧ Served before call ∧ after.InOrder) (start 2)
      [.writeFrame (sample 0), .writeFrame (sample 1), .writeFrame (sample 2), .readNext, .drain, .readNext] last :=
  ⟨_, rfl, (playout_in_order_iff (by decide) _ _).mp (play_run_guarded rfl)⟩

/-- Behind a number that was left out, a frame is not found, or one of an earlier lap is found in its place. -/
theorem gap_unserved :
    (∃ playout : Playout (List UInt8), Reachable Step (start 2) playout ∧
      playout.server.readNext.1 = none ∧ playout.unread = [sample 2]) ∧
    ∃ playout : Playout (List UInt8), Reachable Step (start 2) playout ∧ playout.returned = [sample 0, sample 1] ∧
      playout.server.readNext.1 = some (sample 0) ∧ playout.unread = [sample 3] :=
  ⟨⟨_, ⟨[.writeFrame (sample 0), .readNext, .writeFrame (sample 2)], play_run rfl⟩, by decide, by decide⟩,
    ⟨_, ⟨[.writeFrame (sample 0), .writeFrame (sample 1), .readNext, .readNext, .writeFrame (sample 3)],
      play_run rfl⟩, by decide, by decide, by decide⟩⟩

end Samples

end Playout
end Burble.Media
