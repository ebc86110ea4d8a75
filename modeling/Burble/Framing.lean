import Burble.Bytes

namespace Burble
universe u v
variable {Frame : Type u} {Byte : Type v} {bytes : Frame → List Byte}

/-- Each frame takes some bytes, and these show where they end. -/
structure Framing (bytes : Frame → List Byte) : Prop where
  nonempty : ∀ frame, bytes frame ≠ []
  unique : ∀ {frame other rest left}, bytes frame ++ rest = bytes other ++ left → frame = other ∧ rest = left

theorem Codec.framing {reads : List Byte → Frame → List Byte → Prop} (codec : Codec (fun frame data => data = bytes frame) reads)
    (nonempty : ∀ frame, bytes frame ≠ []) : Framing bytes where
  nonempty := nonempty
  unique same := codec.unique (codec.complete rfl _) (same ▸ codec.complete rfl _)

/-- Frames that follow each other are told apart. -/
theorem Framing.flatMap_injective (framing : Framing bytes) : Function.Injective (List.flatMap bytes) := by
  intro frames
  induction frames with
  | nil =>
    intro others same
    cases others with
    | nil => rfl
    | cons other others =>
      rw [List.flatMap_nil, List.flatMap_cons] at same
      exact absurd (List.append_eq_nil_iff.mp same.symm).1 (framing.nonempty other)
  | cons frame frames ih =>
    intro others same
    cases others with
    | nil =>
      rw [List.flatMap_nil, List.flatMap_cons] at same
      exact absurd (List.append_eq_nil_iff.mp same).1 (framing.nonempty frame)
    | cons other others =>
      rw [List.flatMap_cons, List.flatMap_cons] at same
      obtain ⟨rfl, later⟩ := framing.unique same
      rw [ih later]

section Chunks
variable {front : List Byte → List Byte} (fronts : ∀ chunk, front chunk <+: chunk)
include fronts

theorem length_flatMap_front_le (chunks : List (List Byte)) : (chunks.flatMap front).length ≤ chunks.flatten.length := by
  induction chunks with
  | nil => exact le_rfl
  | cons chunk chunks ih =>
    rw [List.flatMap_cons, List.flatten_cons, List.length_append, List.length_append]
    exact Nat.add_le_add (fronts chunk).length_le ih

/-- Where a part of the front of each chunk makes up all the chunks, it is all of each. -/
theorem front_eq_of_flatMap {chunks : List (List Byte)} (all : chunks.flatMap front = chunks.flatten) :
    ∀ chunk ∈ chunks, front chunk = chunk := by
  induction chunks with
  | nil => exact fun _ none => absurd none List.not_mem_nil
  | cons chunk chunks ih =>
    rw [List.flatMap_cons, List.flatten_cons] at all
    have shorter := (fronts chunk).length_le
    have rest := length_flatMap_front_le fronts chunks
    have lengths := congrArg List.length all
    rw [List.length_append, List.length_append] at lengths
    have here : front chunk = chunk := (fronts chunk).eq_of_length (by omega)
    rw [here] at all
    exact List.forall_mem_cons.mpr ⟨here, ih (List.append_cancel_left all)⟩

end Chunks

/-- A stream of frames comes in chunks, and each chunk is read by itself, from its front. Then all the frames are read, and
nothing else is, if nothing of any chunk is left. -/
theorem Framing.all_read_iff (framing : Framing bytes) {read : List Byte → List Frame}
    (fronts : ∀ chunk, (read chunk).flatMap bytes <+: chunk) {chunks : List (List Byte)} {frames : List Frame}
    (stream : chunks.flatten = frames.flatMap bytes) :
    chunks.flatMap read = frames ↔ ∀ chunk ∈ chunks, (read chunk).flatMap bytes = chunk := by
  constructor
  · rintro rfl
    rw [List.flatMap_assoc] at stream
    exact front_eq_of_flatMap fronts stream.symm
  · intro whole
    apply framing.flatMap_injective
    rw [← stream, List.flatMap_assoc, ← List.flatMap_id]
    exact List.flatMap_congr whole

end Burble
