import Mathlib.Data.List.Forall2

namespace Burble.Coprocessor

structure Buffered (Packet : Type) where
  packet : Packet
  seq : Nat
  ts : Int

structure JitterBuffer (Packet : Type) where
  packets : List (Buffered Packet)
  baseTimestamp : Option Int
  targetDelayMs : Int

def maxJitterBufferPackets : Nat := 100

section Pushing
variable {Packet Other : Type}

/-- The buffer `%{}`, whose defaults are filled in when it is read. -/
def JitterBuffer.empty : JitterBuffer Packet := ⟨[], none, 40⟩

def insertSorted (entry : Buffered Packet) : List (Buffered Packet) → List (Buffered Packet)
  | [] => [entry]
  | head :: tail => if entry.seq ≤ head.seq then entry :: head :: tail else head :: insertSorted entry tail

/-- The packets with a new one, the oldest of them dropped where they are too many. -/
def JitterBuffer.insert (buffer : JitterBuffer Packet) (entry : Buffered Packet) : List (Buffered Packet) :=
  let updated := insertSorted entry buffer.packets
  if maxJitterBufferPackets < updated.length then updated.drop (updated.length - maxJitterBufferPackets) else updated

/-- The oldest packet is emitted once the new one is late enough after it. -/
def ioJitterBufferPush (buffer : JitterBuffer Packet) (packet : Packet) (sequence : Nat) (timestamp : Int) :
    Option Packet × JitterBuffer Packet :=
  let updated := buffer.insert ⟨packet, sequence, timestamp⟩
  let after : JitterBuffer Packet :=
    ⟨updated, some (buffer.baseTimestamp.getD timestamp), buffer.targetDelayMs⟩
  match updated with
  | oldest :: rest =>
    if buffer.targetDelayMs ≤ timestamp - oldest.ts then (some oldest.packet, { after with packets := rest })
    else (none, after)
  | [] => (none, after)

/-! The buffer looks at the numbers of its packets only. -/

structure Buffered.Related (related : Packet → Other → Prop) (entry : Buffered Packet) (other : Buffered Other) : Prop where
  packet : related entry.packet other.packet
  seq : entry.seq = other.seq
  ts : entry.ts = other.ts

structure JitterBuffer.Related (related : Packet → Other → Prop) (buffer : JitterBuffer Packet)
    (other : JitterBuffer Other) : Prop where
  packets : List.Forall₂ (Buffered.Related related) buffer.packets other.packets
  baseTimestamp : buffer.baseTimestamp = other.baseTimestamp
  targetDelayMs : buffer.targetDelayMs = other.targetDelayMs

variable {related : Packet → Other → Prop} {entry : Buffered Packet} {entry' : Buffered Other}
  {buffer : JitterBuffer Packet} {buffer' : JitterBuffer Other}

theorem JitterBuffer.Related.mono {wider : Packet → Other → Prop} (alike : buffer.Related related buffer')
    (weaken : ∀ packet other, related packet other → wider packet other) : buffer.Related wider buffer' :=
  ⟨alike.packets.imp fun _ _ same => ⟨weaken _ _ same.packet, same.seq, same.ts⟩, alike.baseTimestamp, alike.targetDelayMs⟩

/-- A buffer with other packets in the places of its own. -/
def JitterBuffer.map (change : Packet → Other) (buffer : JitterBuffer Packet) : JitterBuffer Other :=
  ⟨buffer.packets.map fun entry => ⟨change entry.packet, entry.seq, entry.ts⟩, buffer.baseTimestamp, buffer.targetDelayMs⟩

theorem JitterBuffer.map_related (change : Packet → Other) (buffer : JitterBuffer Packet) :
    buffer.Related (fun packet other => other = change packet) (buffer.map change) := by
  refine ⟨?_, rfl, rfl⟩
  rw [JitterBuffer.map, List.forall₂_map_right_iff]
  exact List.forall₂_same.mpr fun _ _ => ⟨rfl, rfl, rfl⟩

theorem insertSorted_related (same : entry.Related related entry') {entries : List (Buffered Packet)}
    {entries' : List (Buffered Other)} (all : List.Forall₂ (Buffered.Related related) entries entries') :
    List.Forall₂ (Buffered.Related related) (insertSorted entry entries) (insertSorted entry' entries') := by
  induction all with
  | nil => exact .cons same .nil
  | @cons head head' tail tail' first rest ih =>
    rw [insertSorted, insertSorted, same.seq, first.seq]
    split
    · exact .cons same (.cons first rest)
    · exact .cons first ih

theorem JitterBuffer.Related.insert (alike : buffer.Related related buffer') (same : entry.Related related entry') :
    List.Forall₂ (Buffered.Related related) (buffer.insert entry) (buffer'.insert entry') := by
  have all := insertSorted_related same alike.packets
  rw [JitterBuffer.insert, JitterBuffer.insert]
  rw [all.length_eq]
  split
  · exact List.forall₂_drop _ all
  · exact all

/-- Buffers that are alike emit at the same time, and stay alike. -/
theorem ioJitterBufferPush_related (alike : buffer.Related related buffer') {packet : Packet} {packet' : Other}
    (same : related packet packet') (sequence : Nat) (timestamp : Int) :
    Option.Rel related (ioJitterBufferPush buffer packet sequence timestamp).1
        (ioJitterBufferPush buffer' packet' sequence timestamp).1 ∧
      (ioJitterBufferPush buffer packet sequence timestamp).2.Related related
        (ioJitterBufferPush buffer' packet' sequence timestamp).2 := by
  have all : List.Forall₂ (Buffered.Related related) (buffer.insert ⟨packet, sequence, timestamp⟩)
      (buffer'.insert ⟨packet', sequence, timestamp⟩) := alike.insert ⟨same, rfl, rfl⟩
  rw [ioJitterBufferPush, ioJitterBufferPush, alike.baseTimestamp, alike.targetDelayMs]
  dsimp only
  generalize buffer.insert ⟨packet, sequence, timestamp⟩ = updated,
    buffer'.insert ⟨packet', sequence, timestamp⟩ = updated' at all
  cases all with
  | nil => exact ⟨.none, .nil, rfl, rfl⟩
  | cons first rest =>
    dsimp only
    rw [first.ts]
    split
    · exact ⟨.some first.packet, rest, rfl, rfl⟩
    · exact ⟨.none, .cons first rest, rfl, rfl⟩

end Pushing
end Burble.Coprocessor
