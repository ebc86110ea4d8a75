import Burble.Coprocessor.JitterBuffer
import Mathlib.Data.List.Induction
import Mathlib.Data.List.Sort

namespace Burble.Coprocessor

/-! What comes out of a jitter buffer, over the pushes of a whole call. -/

section Inserting
variable {Packet : Type}

/-- The order that a buffer is kept in. -/
def Buffered.NoLater (entry other : Buffered Packet) : Prop := entry.seq ≤ other.seq

instance (entry other : Buffered Packet) : Decidable (entry.NoLater other) := Nat.decLe _ _
instance : Std.Total (@Buffered.NoLater Packet) := ⟨fun _ _ => Nat.le_total _ _⟩
instance : IsTrans (Buffered Packet) Buffered.NoLater := ⟨fun _ _ _ => Nat.le_trans⟩

theorem insertSorted_eq (entry : Buffered Packet) (entries : List (Buffered Packet)) :
    insertSorted entry entries = entries.orderedInsert Buffered.NoLater entry := by
  induction entries with
  | nil => rfl
  | cons head tail ih =>
    rw [insertSorted, List.orderedInsert_cons, ih]
    rfl

theorem insertSorted_head {entry : Buffered Packet} {entries : List (Buffered Packet)}
    (first : ∀ other ∈ entries, entry.seq ≤ other.seq) : insertSorted entry entries = entry :: entries := by
  cases entries with
  | nil => rfl
  | cons head tail => exact if_pos (first head List.mem_cons_self)

/-- What an insertion drops. -/
def JitterBuffer.tooOld (buffer : JitterBuffer Packet) (entry : Buffered Packet) : List (Buffered Packet) :=
  let updated := insertSorted entry buffer.packets
  updated.take (updated.length - maxJitterBufferPackets)

theorem JitterBuffer.tooOld_insert (buffer : JitterBuffer Packet) (entry : Buffered Packet) :
    buffer.tooOld entry ++ buffer.insert entry = insertSorted entry buffer.packets := by
  rw [JitterBuffer.tooOld, JitterBuffer.insert]
  split
  · exact List.take_append_drop _ _
  next fits => rw [Nat.sub_eq_zero_of_le (Nat.le_of_not_lt fits), List.take_zero, List.nil_append]

theorem insertSorted_length (entry : Buffered Packet) (entries : List (Buffered Packet)) :
    (insertSorted entry entries).length = entries.length + 1 := by
  rw [insertSorted_eq, List.orderedInsert_length]

theorem JitterBuffer.insert_length (buffer : JitterBuffer Packet) (entry : Buffered Packet) :
    (buffer.insert entry).length = min (buffer.packets.length + 1) maxJitterBufferPackets := by
  rw [JitterBuffer.insert]
  split
  next many =>
    rw [List.length_drop, insertSorted_length] at *
    omega
  next few =>
    rw [insertSorted_length] at *
    omega

theorem JitterBuffer.insert_fits {buffer : JitterBuffer Packet} (room : buffer.packets.length < maxJitterBufferPackets)
    (entry : Buffered Packet) : buffer.insert entry = insertSorted entry buffer.packets := by
  rw [JitterBuffer.insert]
  rw [if_neg]
  rw [insertSorted_length]
  omega

/-- A full buffer drops a packet that is before all of its own. -/
theorem JitterBuffer.insert_full {buffer : JitterBuffer Packet} (full : buffer.packets.length = maxJitterBufferPackets)
    {entry : Buffered Packet} (first : ∀ other ∈ buffer.packets, entry.seq ≤ other.seq) :
    buffer.insert entry = buffer.packets := by
  rw [JitterBuffer.insert]
  rw [insertSorted_head first, List.length_cons, full, if_pos (Nat.lt_succ_self _), Nat.add_sub_cancel_left]
  rfl

theorem insertSorted_sorted (entry : Buffered Packet) {entries : List (Buffered Packet)}
    (sorted : entries.Pairwise fun entry other => entry.seq ≤ other.seq) :
    (insertSorted entry entries).Pairwise fun entry other => entry.seq ≤ other.seq := by
  rw [insertSorted_eq]
  exact List.Pairwise.orderedInsert entry entries sorted

theorem JitterBuffer.insert_sorted {buffer : JitterBuffer Packet} (entry : Buffered Packet)
    (sorted : buffer.packets.Pairwise fun entry other => entry.seq ≤ other.seq) :
    (buffer.insert entry).Pairwise fun entry other => entry.seq ≤ other.seq :=
  ((buffer.tooOld_insert entry) ▸ insertSorted_sorted entry sorted |> List.pairwise_append.mp).2.1

theorem JitterBuffer.mem_insert {buffer : JitterBuffer Packet} {entry other : Buffered Packet}
    (mem : other ∈ buffer.insert entry) : other = entry ∨ other ∈ buffer.packets := by
  have whole : other ∈ insertSorted entry buffer.packets :=
    buffer.tooOld_insert entry ▸ List.mem_append_right _ mem
  rw [insertSorted_eq] at whole
  exact (List.mem_orderedInsert _).mp whole

end Inserting

/-- A buffer in a call, with the packets that have left it. What is pushed is its own packet, so that two pushes of one packet
    are told apart. -/
structure Playout (Packet : Type) where
  buffer : JitterBuffer (Buffered Packet)
  emitted : List (Buffered Packet)
  dropped : List (Buffered Packet)

section Playing
variable {Packet : Type}

/-- How a push is kept. -/
def Buffered.entry (pushed : Buffered Packet) : Buffered (Buffered Packet) := ⟨pushed, pushed.seq, pushed.ts⟩

def Playout.push (playout : Playout Packet) (pushed : Buffered Packet) : Playout Packet :=
  let outcome := ioJitterBufferPush playout.buffer pushed pushed.seq pushed.ts
  ⟨outcome.2, playout.emitted ++ outcome.1.toList,
    playout.dropped ++ (playout.buffer.tooOld pushed.entry).map Buffered.packet⟩

/-- The pushes from an empty buffer with a target delay. -/
def Playout.after (targetDelayMs : Int) (pushes : List (Buffered Packet)) : Playout Packet :=
  pushes.foldl Playout.push ⟨⟨[], none, targetDelayMs⟩, [], []⟩

theorem Playout.after_snoc (targetDelayMs : Int) (pushes : List (Buffered Packet)) (pushed : Buffered Packet) :
    Playout.after targetDelayMs (pushes ++ [pushed]) = (Playout.after targetDelayMs pushes).push pushed := by
  rw [Playout.after, List.foldl_append]
  rfl

/-- A push keeps what the insertion leaves, or emits the oldest of it. -/
theorem Playout.push_cases (playout : Playout Packet) (pushed : Buffered Packet) :
    (playout.push pushed).buffer.targetDelayMs = playout.buffer.targetDelayMs ∧
    (((playout.push pushed).buffer.packets = playout.buffer.insert pushed.entry ∧
        (playout.push pushed).emitted = playout.emitted ∧
        ∀ oldest rest, playout.buffer.insert pushed.entry = oldest :: rest →
          pushed.ts - oldest.ts < playout.buffer.targetDelayMs) ∨
      ∃ oldest, playout.buffer.insert pushed.entry = oldest :: (playout.push pushed).buffer.packets ∧
        (playout.push pushed).emitted = playout.emitted ++ [oldest.packet] ∧
        playout.buffer.targetDelayMs ≤ pushed.ts - oldest.ts) := by
  unfold Playout.push ioJitterBufferPush Buffered.entry
  dsimp only
  cases playout.buffer.insert ⟨pushed, pushed.seq, pushed.ts⟩ with
  | nil => exact ⟨rfl, .inl ⟨rfl, List.append_nil _, by simp⟩⟩
  | cons oldest rest =>
    dsimp only
    split
    next late => exact ⟨rfl, .inr ⟨oldest, rfl, rfl, late⟩⟩
    next early =>
      refine ⟨rfl, .inl ⟨rfl, List.append_nil _, fun other others same => ?_⟩⟩
      cases same
      omega

/-- What holds of every playout: each packet that was pushed is in one place. -/
structure Playout.Sound (playout : Playout Packet) (pushes : List (Buffered Packet)) : Prop where
  sorted : playout.buffer.packets.Pairwise fun entry other => entry.seq ≤ other.seq
  bounded : playout.buffer.packets.length ≤ maxJitterBufferPackets
  numbered : ∀ entry ∈ playout.buffer.packets, entry = entry.packet.entry
  accounted : pushes.Perm (playout.emitted ++ (playout.buffer.packets.map Buffered.packet ++ playout.dropped))

theorem Playout.Sound.push {playout : Playout Packet} {pushes : List (Buffered Packet)} (sound : playout.Sound pushes)
    (pushed : Buffered Packet) : (playout.push pushed).Sound (pushes ++ [pushed]) := by
  have sorted := playout.buffer.insert_sorted pushed.entry sound.sorted
  have length := playout.buffer.insert_length pushed.entry
  have numbered : ∀ entry ∈ playout.buffer.insert pushed.entry, entry = entry.packet.entry := fun entry mem =>
    (JitterBuffer.mem_insert mem).elim (fun new => new ▸ rfl) (sound.numbered entry)
  have parts : (pushes ++ [pushed]).Perm (playout.emitted ++
      ((playout.buffer.insert pushed.entry).map Buffered.packet ++ (playout.push pushed).dropped)) := by
    have inserted := (List.perm_orderedInsert Buffered.NoLater pushed.entry playout.buffer.packets).symm.map Buffered.packet
    rw [← insertSorted_eq, ← JitterBuffer.tooOld_insert, List.map_append, List.map_cons] at inserted
    calc (pushes ++ [pushed]).Perm (pushed :: pushes) := List.perm_append_singleton pushed pushes
      List.Perm _ (pushed :: (playout.emitted ++ (playout.buffer.packets.map Buffered.packet ++ playout.dropped))) :=
        sound.accounted.cons pushed
      List.Perm _ (playout.emitted ++ (pushed :: playout.buffer.packets.map Buffered.packet ++ playout.dropped)) :=
        List.perm_middle.symm
      List.Perm _ (playout.emitted ++ ((playout.buffer.tooOld pushed.entry).map Buffered.packet ++
          ((playout.buffer.insert pushed.entry).map Buffered.packet ++ playout.dropped))) := by
        rw [← List.append_assoc (List.map _ _)]
        exact (inserted.append_right _).append_left _
      List.Perm _ _ := by
        refine List.perm_append_comm.trans ?_ |>.append_left _
        rw [List.append_assoc]
        exact List.Perm.refl _
  obtain ⟨-, kept | emits⟩ := playout.push_cases pushed
  · obtain ⟨packets, emitted, -⟩ := kept
    exact ⟨packets ▸ sorted, by rw [packets]; omega, packets ▸ numbered, by rw [packets, emitted]; exact parts⟩
  · obtain ⟨oldest, packets, emitted, -⟩ := emits
    rw [packets] at sorted length numbered parts
    refine ⟨sorted.of_cons, ?_, fun entry mem => numbered entry (List.mem_cons_of_mem _ mem), ?_⟩
    · rw [List.length_cons] at length
      omega
    · rw [emitted, List.append_assoc]
      exact parts

theorem Playout.after_sound (targetDelayMs : Int) (pushes : List (Buffered Packet)) :
    (Playout.after targetDelayMs pushes).Sound pushes := by
  induction pushes using List.reverseRecOn with
  | nil => exact ⟨.nil, Nat.zero_le _, by simp [Playout.after], .refl _⟩
  | append_singleton pushes pushed ih =>
    rw [Playout.after_snoc]
    exact ih.push pushed

/-- Only a full buffer drops, and what it drops is before all that it keeps. -/
theorem Playout.Sound.drops {playout : Playout Packet} {pushes : List (Buffered Packet)} (sound : playout.Sound pushes)
    {pushed : Buffered Packet} {old : Buffered (Buffered Packet)} (dropped : old ∈ playout.buffer.tooOld pushed.entry) :
    playout.buffer.packets.length = maxJitterBufferPackets ∧
      ∀ kept ∈ playout.buffer.insert pushed.entry, old.seq ≤ kept.seq := by
  have sorted := insertSorted_sorted pushed.entry sound.sorted
  have bounded := sound.bounded
  rw [← JitterBuffer.tooOld_insert, List.pairwise_append] at sorted
  refine ⟨?_, fun kept mem => sorted.2.2 old dropped kept mem⟩
  by_contra room
  rw [JitterBuffer.tooOld, insertSorted_length, Nat.sub_eq_zero_of_le (by omega), List.take_zero] at dropped
  cases dropped

/-- A push that comes before what is emitted does no harm to a full buffer only, which drops it. -/
def Playout.OnTime (playout : Playout Packet) (pushed : Buffered Packet) : Prop :=
  (∀ out ∈ playout.emitted, out.seq ≤ pushed.seq) ∨ playout.buffer.packets.length = maxJitterBufferPackets

def Playout.AllOnTime : Playout Packet → List (Buffered Packet) → Prop
  | _, [] => True
  | playout, pushed :: rest => playout.OnTime pushed ∧ (playout.push pushed).AllOnTime rest

def Playout.InOrder (playout : Playout Packet) : Prop := playout.emitted.Pairwise fun out other => out.seq ≤ other.seq

theorem Playout.allOnTime_snoc (playout : Playout Packet) (pushes : List (Buffered Packet)) (pushed : Buffered Packet) :
    playout.AllOnTime (pushes ++ [pushed]) ↔
      playout.AllOnTime pushes ∧ (pushes.foldl Playout.push playout).OnTime pushed := by
  induction pushes generalizing playout with
  | nil => exact and_comm.trans Iff.rfl
  | cons first rest ih => exact (and_congr_right fun _ => ih (playout.push first)).trans and_assoc.symm

theorem Playout.allOnTime_left {playout : Playout Packet} {pushes later : List (Buffered Packet)}
    (all : playout.AllOnTime (pushes ++ later)) : playout.AllOnTime pushes := by
  induction pushes generalizing playout with
  | nil => trivial
  | cons first rest ih => exact ⟨all.1, ih all.2⟩

/-- Nothing that is buffered comes before what is emitted. -/
structure Playout.Settled (playout : Playout Packet) : Prop where
  inOrder : playout.InOrder
  ahead : ∀ out ∈ playout.emitted, ∀ entry ∈ playout.buffer.packets, out.seq ≤ entry.seq

theorem seq_bounded (outs : List (Buffered Packet)) : ∃ bound, ∀ out ∈ outs, out.seq ≤ bound := by
  induction outs with
  | nil => exact ⟨0, by simp⟩
  | cons first rest ih =>
    obtain ⟨bound, most⟩ := ih
    refine ⟨max first.seq bound, fun out mem => ?_⟩
    rcases List.mem_cons.mp mem with rfl | later
    · exact Nat.le_max_left _ _
    · exact Nat.le_trans (most out later) (Nat.le_max_right _ _)

section Late
variable {playout : Playout Packet} {pushed : Buffered Packet}

theorem Playout.Settled.before_all (settled : playout.Settled) {out : Buffered Packet} (emitted : out ∈ playout.emitted)
    (late : pushed.seq < out.seq) : ∀ entry ∈ playout.buffer.packets, pushed.entry.seq ≤ entry.seq :=
  fun entry mem => Nat.le_trans (Nat.le_of_lt late) (settled.ahead out emitted entry mem)

theorem Playout.Settled.insert_ahead (settled : playout.Settled) (onTime : playout.OnTime pushed) :
    ∀ out ∈ playout.emitted, ∀ entry ∈ playout.buffer.insert pushed.entry, out.seq ≤ entry.seq := by
  intro out emitted entry mem
  by_cases late : pushed.seq < out.seq
  · have full : playout.buffer.packets.length = maxJitterBufferPackets :=
      onTime.resolve_left fun early => absurd (early out emitted) (Nat.not_le.mpr late)
    rw [JitterBuffer.insert_full full (settled.before_all emitted late)] at mem
    exact settled.ahead out emitted entry mem
  · rcases JitterBuffer.mem_insert mem with rfl | old
    · exact Nat.le_of_not_lt late
    · exact settled.ahead out emitted entry old

theorem Playout.Settled.push {pushes : List (Buffered Packet)} (settled : playout.Settled) (sound : playout.Sound pushes)
    (onTime : playout.OnTime pushed) : (playout.push pushed).Settled := by
  have ahead := settled.insert_ahead onTime
  have sorted := playout.buffer.insert_sorted pushed.entry sound.sorted
  have numbered := (sound.push pushed).numbered
  obtain ⟨-, ⟨packets, emitted, -⟩ | ⟨oldest, packets, emitted, -⟩⟩ := playout.push_cases pushed
  · exact ⟨by rw [InOrder, emitted]; exact settled.inOrder, by rw [packets, emitted]; exact ahead⟩
  · have own : oldest = oldest.packet.entry := by
      have mem : oldest ∈ playout.buffer.insert pushed.entry := packets ▸ List.mem_cons_self
      exact (JitterBuffer.mem_insert mem).elim (fun new => new ▸ rfl) (sound.numbered oldest)
    have seq : oldest.packet.seq = oldest.seq := by rw [own]; rfl
    rw [packets] at ahead sorted
    refine ⟨?_, ?_⟩
    · rw [InOrder, emitted, List.pairwise_append]
      refine ⟨settled.inOrder, List.pairwise_singleton _ _, fun out mem other last => ?_⟩
      rw [List.mem_singleton.mp last, seq]
      exact ahead out mem oldest List.mem_cons_self
    · intro out mem entry rest
      rw [emitted] at mem
      rcases List.mem_append.mp mem with old | last
      · exact ahead out old entry (List.mem_cons_of_mem _ rest)
      · rw [List.mem_singleton.mp last, seq]
        exact List.rel_of_pairwise_cons sorted rest

theorem Playout.Settled.run {later pushes : List (Buffered Packet)} (settled : playout.Settled)
    (sound : playout.Sound pushes) (onTime : playout.AllOnTime later) : (later.foldl Playout.push playout).Settled := by
  induction later generalizing playout pushes with
  | nil => exact settled
  | cons first rest ih => exact ih (settled.push sound onTime.1) (sound.push first) onTime.2

theorem Playout.after_settled {targetDelayMs : Int} {pushes : List (Buffered Packet)}
    (onTime : (Playout.after targetDelayMs []).AllOnTime pushes) : (Playout.after targetDelayMs pushes).Settled :=
  Settled.run ⟨.nil, by simp⟩ (Playout.after_sound targetDelayMs []) onTime

/-- A push emits the oldest packet that it is late enough after. -/
theorem Playout.push_emits {oldest : Buffered (Buffered Packet)} {rest : List (Buffered (Buffered Packet))}
    (inserted : playout.buffer.insert pushed.entry = oldest :: rest)
    (late : playout.buffer.targetDelayMs ≤ pushed.ts - oldest.ts) :
    (playout.push pushed).emitted = playout.emitted ++ [oldest.packet] := by
  obtain ⟨-, ⟨-, -, early⟩ | ⟨other, packets, emitted, -⟩⟩ := playout.push_cases pushed
  · exact absurd (early oldest rest inserted) (Int.not_lt.mpr late)
  · rw [inserted] at packets
    cases packets
    exact emitted

/-- Any other push can be emitted after what it comes before. -/
theorem Playout.Settled.disorder {pushes : List (Buffered Packet)} (settled : playout.Settled) (sound : playout.Sound pushes)
    (late : ¬ playout.OnTime pushed) :
    ∃ later, (playout.push pushed).AllOnTime later ∧ ¬ (later.foldl Playout.push (playout.push pushed)).InOrder := by
  obtain ⟨early, room⟩ := not_or.mp late
  obtain ⟨out, emitted, before⟩ : ∃ out ∈ playout.emitted, pushed.seq < out.seq := by
    by_contra none
    exact early fun out mem => Nat.le_of_not_lt fun less => none ⟨out, mem, less⟩
  replace room : playout.buffer.packets.length < maxJitterBufferPackets := Nat.lt_of_le_of_ne sound.bounded room
  have inserted : playout.buffer.insert pushed.entry = pushed.entry :: playout.buffer.packets := by
    rw [JitterBuffer.insert_fits room, insertSorted_head (settled.before_all emitted before)]
  have disordered {last : Playout Packet} (ends : last.emitted = playout.emitted ++ [pushed]) : ¬ last.InOrder := by
    intro inOrder
    rw [InOrder, ends, List.pairwise_append] at inOrder
    exact absurd (inOrder.2.2 out emitted pushed (List.mem_singleton_self _)) (Nat.not_le.mpr before)
  obtain ⟨delay, ⟨packets, same, -⟩ | ⟨oldest, packets, ends, -⟩⟩ := playout.push_cases pushed
  · rw [inserted] at packets
    -- The push waits at the front, and leaves with one that does not move it.
    have leaves (seq : Nat) (front : ∃ rest, (playout.push pushed).buffer.insert (Buffered.entry ⟨pushed.packet, seq,
        pushed.ts + playout.buffer.targetDelayMs⟩) = pushed.entry :: rest) :
        ((playout.push pushed).push ⟨pushed.packet, seq, pushed.ts + playout.buffer.targetDelayMs⟩).emitted =
          playout.emitted ++ [pushed] := by
      obtain ⟨rest, front⟩ := front
      rw [Playout.push_emits front, same]
      · rfl
      · rw [delay]
        change _ ≤ pushed.ts + playout.buffer.targetDelayMs - pushed.ts
        omega
    by_cases full : playout.buffer.packets.length + 1 = maxJitterBufferPackets
    · have length : (playout.push pushed).buffer.packets.length = maxJitterBufferPackets := by
        rw [packets, List.length_cons, full]
      refine ⟨[⟨pushed.packet, pushed.seq, pushed.ts + playout.buffer.targetDelayMs⟩], ⟨.inr length, trivial⟩, ?_⟩
      refine disordered (leaves pushed.seq ⟨playout.buffer.packets, ?_⟩)
      rw [JitterBuffer.insert_full length, packets]
      intro entry mem
      rw [packets] at mem
      rcases List.mem_cons.mp mem with rfl | old
      · exact Nat.le_refl _
      · exact settled.before_all emitted before entry old
    · obtain ⟨bound, most⟩ := seq_bounded playout.emitted
      have above : ¬ bound ≤ pushed.seq := Nat.not_le.mpr (Nat.lt_of_lt_of_le before (most out emitted))
      have space : (playout.push pushed).buffer.packets.length < maxJitterBufferPackets := by
        rw [packets, List.length_cons]
        omega
      refine ⟨[⟨pushed.packet, bound, pushed.ts + playout.buffer.targetDelayMs⟩], ⟨.inl (same ▸ most), trivial⟩, ?_⟩
      refine disordered (leaves bound ?_)
      rw [JitterBuffer.insert_fits space, packets]
      exact ⟨_, if_neg above⟩
  · refine ⟨[], trivial, disordered ?_⟩
    rw [inserted] at packets
    obtain ⟨rfl, -⟩ := List.cons.inj packets
    exact ends

end Late

/-- In every playout from an empty buffer the buffer is sorted and bounded, each push is in one place, and only the oldest
    packet of a full buffer is dropped. What is emitted stays in order, however the pushes go on, when each push comes in
    time. -/
theorem playout_onTime_iff (targetDelayMs : Int) (pushes : List (Buffered Packet)) :
    (∀ past, past <+: pushes → (Playout.after targetDelayMs past).Sound past ∧
      ∀ pushed : Buffered Packet, ∀ old ∈ (Playout.after targetDelayMs past).buffer.tooOld pushed.entry,
        (Playout.after targetDelayMs past).buffer.packets.length = maxJitterBufferPackets ∧
          ∀ kept ∈ (Playout.after targetDelayMs past).buffer.insert pushed.entry, old.seq ≤ kept.seq) ∧
    ((Playout.after targetDelayMs []).AllOnTime pushes ↔ ∀ past later, past <+: pushes →
      (Playout.after targetDelayMs past).AllOnTime later → (Playout.after targetDelayMs (past ++ later)).InOrder) := by
  refine ⟨fun past _ => ⟨Playout.after_sound _ past, fun _ _ => (Playout.after_sound _ past).drops⟩, fun all => ?_, ?_⟩
  · intro past later ⟨rest, split⟩ onTime
    have settled := Playout.after_settled (split ▸ all |> Playout.allOnTime_left)
    rw [Playout.after, List.foldl_append]
    exact (settled.run (Playout.after_sound _ past) onTime).inOrder
  · intro ordered
    suffices ∀ past, past <+: pushes → (Playout.after targetDelayMs []).AllOnTime past from this pushes (List.prefix_refl _)
    intro past
    induction past using List.reverseRecOn with
    | nil => exact fun _ => trivial
    | append_singleton past pushed ih =>
      intro front
      have before := ih ((List.prefix_append _ _).trans front)
      refine (Playout.allOnTime_snoc _ _ _).mpr ⟨before, ?_⟩
      by_contra late
      obtain ⟨later, onTime, disorder⟩ := (Playout.after_settled before).disorder (Playout.after_sound _ past) late
      rw [← Playout.after_snoc] at onTime disorder
      refine disorder ?_
      have inOrder := ordered (past ++ [pushed]) later front onTime
      rwa [Playout.after, List.foldl_append] at inOrder

end Playing

/-- A packet whose successor is out already. -/
def latePacket : List (Buffered String) := [⟨"five", 5, 0⟩, ⟨"six", 6, 40⟩, ⟨"three", 3, 40⟩, ⟨"seven", 7, 80⟩]

theorem latePacket_out : (Playout.after 40 latePacket).emitted.map Buffered.seq = [5, 3] ∧
    ¬ (Playout.after 40 latePacket).InOrder := by
  have emitted : (Playout.after 40 latePacket).emitted.map Buffered.seq = [5, 3] := rfl
  refine ⟨emitted, fun inOrder => ?_⟩
  have sorted := List.pairwise_map.mpr inOrder
  rw [emitted] at sorted
  exact absurd sorted (by decide)

end Burble.Coprocessor
