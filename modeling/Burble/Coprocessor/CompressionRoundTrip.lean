import Burble.Coprocessor.Lz4Sequences
import Burble.Coprocessor.Compression

namespace Burble.Coprocessor.Compression

/-! The loop of the compressor. -/

section Loop
variable {src : List UInt8} {size : Nat}

/-- What is written unfolds to the source up to the anchor, in about as many bytes. -/
structure Progress (src : List UInt8) (anchor : Nat) (dst : Buffer size) : Prop where
  within : anchor ≤ src.length
  unfolds : ∃ sequences, dst.written = sequences.flatMap Sequence.bytes ∧ Unfolds sequences (src.take anchor)
  short : dst.written.length ≤ anchor + anchor / 255

theorem Progress.start : Progress src 0 (Buffer.empty : Buffer size) :=
  ⟨Nat.zero_le _, ⟨[], rfl, by rw [List.take_zero]; exact .nil⟩, Nat.le_refl _⟩

/-- The literals since the anchor and a match are written as a sequence, for which there is room. -/
theorem Progress.writeSequence {anchor srcPos offset matchLen : Nat} {dst : Buffer size}
    (progress : Progress src anchor dst) (after : anchor ≤ srcPos) (room : lz4CompressBound src.length ≤ size)
    (found : MatchFound src srcPos offset matchLen) (long : minMatch ≤ matchLen) :
    ∃ dst', writeSequence dst src anchor (srcPos - anchor) offset matchLen = .ok dst' ∧
      Progress src (srcPos + matchLen) dst' := by
  have fits := found.fits
  have literals : ((src.drop anchor).take (srcPos - anchor)).length = srcPos - anchor := by
    rw [List.length_take, List.length_drop]
    omega
  let s : Sequence := ⟨(src.drop anchor).take (srcPos - anchor), offset, matchLen, found.far, found.near, long⟩
  have text : src.take anchor ++ s.literals = src.take srcPos := by
    rw [← List.take_add, Nat.add_sub_cancel' after]
  have extended : s.extend (src.take anchor) = src.take (srcPos + matchLen) := by
    rw [Sequence.extend, text]
    exact (take_eq_copied found.far found.reaches found.fits found.agrees).symm
  have written : Compression.writeSequence dst src anchor (srcPos - anchor) offset matchLen = dst.append s.bytes := by
    have literals : s.literals.length = srcPos - anchor := literals
    have taken : (src.drop anchor).take s.literals.length = s.literals := by rw [literals]
    have whole := writeSequence_eq dst s taken (by omega)
    rwa [literals] at whole
  have cost := s.bytes_length_le
  rw [show s.literals.length = srcPos - anchor from literals] at cost
  have short := progress.short
  have bound : src.length + src.length / 255 + 16 ≤ size := room
  obtain ⟨dst', appended, grown⟩ := dst.append_ok (show dst.written.length + s.bytes.length ≤ size by
    change s.bytes.length ≤ srcPos - anchor + matchLen + (srcPos - anchor) / 255 at cost
    omega)
  obtain ⟨sequences, bytes, unfolds⟩ := progress.unfolds
  refine ⟨dst', written.trans appended, fits, ⟨sequences ++ [s], ?_, ?_⟩, ?_⟩
  · rw [grown, bytes, List.flatMap_append, List.flatMap_singleton]
  · rw [← extended]
    refine unfolds.snoc s ?_
    rw [text, List.length_take_of_le (by omega)]
    exact found.reaches
  · rw [grown, List.length_append]
    change s.bytes.length ≤ srcPos - anchor + matchLen + (srcPos - anchor) / 255 at cost
    omega

/-- A table of the compressor has the positions that a search has, all of them earlier. -/
structure Follows (seen : Table) (table : BitVec 12 → Nat) (srcPos : Nat) : Prop where
  same : ∀ h, (seen h).toNat = table h
  earlier : ∀ h, table h < srcPos

theorem Follows.update {seen : Table} {table : BitVec 12 → Nat} {srcPos pos next : Nat} (follows : Follows seen table srcPos)
    (h : BitVec 12) (small : pos < 65536) (later : srcPos ≤ next) (before : pos < next) :
    Follows (Function.update seen h pos.toUInt16) (Function.update table h pos) next := by
  have value : pos.toUInt16.toNat = pos := UInt16.toNat_ofNat_of_lt' small
  constructor
  · intro other
    by_cases same : other = h
    · rw [same, Function.update_self, Function.update_self, value]
    · rw [Function.update_of_ne same, Function.update_of_ne same]
      exact follows.same other
  · intro other
    by_cases same : other = h
    · rw [same, Function.update_self]
      exact before
    · rw [Function.update_of_ne same]
      exact Nat.lt_of_lt_of_le (follows.earlier other) later

theorem castU16_ok {value : Nat} (small : value < 65536) : castU16 value = .ok value.toUInt16 := if_pos small

theorem castU16_error {value : Nat} (large : ¬ value < 65536) : castU16 value = .error .castTruncatesBits := if_neg large

/-- The table is refreshed as the search refreshes it, where the next position is small. -/
theorem Follows.refresh {seen : Table} {table : BitVec 12 → Nat} {next limit : Nat} (follows : Follows seen table next)
    (far : 2 ≤ next) (small : next < limit → next < 65536) :
    ∃ seen', refresh src limit seen next = .ok seen' ∧ Follows seen' (refreshed src limit table next) next := by
  unfold Compression.refresh refreshed
  by_cases more : next < limit
  · have behind : sub next 2 = .ok (next - 2) := if_pos far
    have fits : next - 2 < 65536 := Nat.lt_of_le_of_lt (Nat.sub_le _ _) (small more)
    rw [if_pos ⟨by omega, more⟩, if_pos more, behind]
    simp only [bind, Except.bind, castU16_ok fits]
    exact ⟨_, rfl, follows.update _ fits (Nat.le_refl _) (by omega)⟩
  · rw [if_neg fun valid => more valid.2, if_neg more]
    exact ⟨seen, rfl, follows⟩

/-- A position that does not fit fails, if not in the search, then in the next refresh. -/
theorem refresh_cases {seen : Table} {next limit : Nat} (far : 2 ≤ next) :
    (∃ seen', refresh src limit seen next = .ok seen') ∨ refresh src limit seen next = .error .castTruncatesBits := by
  unfold refresh
  by_cases more : next > 1 ∧ next < limit
  · have behind : sub next 2 = .ok (next - 2) := if_pos far
    rw [if_pos more, behind]
    by_cases fits : next - 2 < 65536
    · simp only [bind, Except.bind, castU16_ok fits]
      exact .inl ⟨_, rfl⟩
    · simp only [bind, Except.bind, castU16_error fits]
      exact .inr trivial
  · rw [if_neg more]
    exact .inl ⟨seen, rfl⟩

section Steps
variable {limit srcPos anchor : Nat} {dst : Buffer size} {table : BitVec 12 → Nat} {seen : Table} {offset count : Nat}

theorem searched_match (more : srcPos < limit)
    (found : matchAt src srcPos (table (hash4 src srcPos)) = some (offset, count)) :
    searched src limit table srcPos = srcPos :: searched src limit
      (refreshed src limit (noted src table srcPos) (srcPos + (minMatch + count)))
      (srcPos + (minMatch + count)) := by
  rw [searched, if_pos more]
  simp only [found]

theorem searched_none (more : srcPos < limit) (none : matchAt src srcPos (table (hash4 src srcPos)) = none) :
    searched src limit table srcPos =
      srcPos :: searched src limit (noted src table srcPos) (srcPos + 1) := by
  rw [searched, if_pos more]
  simp only [none]

theorem compressLoop_large (more : srcPos < limit) (large : ¬ srcPos < 65536) :
    compressLoop src limit seen srcPos anchor dst = .error .castTruncatesBits := by
  rw [compressLoop, if_pos more]
  simp only [castU16_error large]
  rfl

theorem compressLoop_match (more : srcPos < limit) (small : srcPos < 65536) (after : anchor ≤ srcPos)
    (found : findMatch src srcPos (seen (hash4 src srcPos)).toNat = .ok (some (offset, count))) :
    compressLoop src limit seen srcPos anchor dst =
      (writeSequence dst src anchor (srcPos - anchor) offset (minMatch + count) >>= fun dst =>
        refresh src limit (Function.update seen (hash4 src srcPos) srcPos.toUInt16) (srcPos + (minMatch + count)) >>= fun seen =>
          compressLoop src limit seen (srcPos + (minMatch + count)) (srcPos + (minMatch + count)) dst) := by
  have literals : sub srcPos anchor = .ok (srcPos - anchor) := if_pos after
  rw [compressLoop, if_pos more]
  simp only [castU16_ok small, found, literals, bind, Except.bind]

theorem compressLoop_none (more : srcPos < limit) (small : srcPos < 65536)
    (none : findMatch src srcPos (seen (hash4 src srcPos)).toNat = .ok none) :
    compressLoop src limit seen srcPos anchor dst =
      compressLoop src limit (Function.update seen (hash4 src srcPos) srcPos.toUInt16) (srcPos + 1) anchor dst := by
  rw [compressLoop, if_pos more]
  simp only [castU16_ok small, none, bind, Except.bind]

end Steps

/-- The loop gets to its end where the positions of the search fit into the table, and fails a cast where one does not. -/
def EndsWith (src : List UInt8) (positions : List Nat) (outcome : Except Stop (Nat × Buffer size)) : Prop :=
  ((∀ pos ∈ positions, pos < 65536) ∧ ∃ anchor dst, outcome = .ok (anchor, dst) ∧ Progress src anchor dst) ∨
    ((∃ pos ∈ positions, ¬ pos < 65536) ∧ outcome = .error .castTruncatesBits)

theorem EndsWith.cons {pos : Nat} {positions : List Nat} {outcome : Except Stop (Nat × Buffer size)} (small : pos < 65536)
    (ends : EndsWith src positions outcome) : EndsWith src (pos :: positions) outcome := by
  rcases ends with ⟨all, done⟩ | ⟨⟨large, member, fails⟩, done⟩
  · exact .inl ⟨List.forall_mem_cons.mpr ⟨small, all⟩, done⟩
  · exact .inr ⟨⟨large, List.mem_cons_of_mem _ member, fails⟩, done⟩

theorem compressLoop_endsWith {limit : Nat} (short : limit + lastLiterals + minMatch = src.length)
    (room : lz4CompressBound src.length ≤ size) (table : BitVec 12 → Nat) (srcPos : Nat) {seen : Table} {anchor : Nat}
    {dst : Buffer size} (follows : Follows seen table srcPos) (progress : Progress src anchor dst)
    (after : anchor ≤ srcPos) :
    EndsWith src (searched src limit table srcPos) (compressLoop src limit seen srcPos anchor dst) := by
  induction table, srcPos using searched.induct src limit generalizing seen anchor dst with
  | case1 table srcPos more ihMatch ihNext =>
    by_cases small : srcPos < 65536
    · have inside : srcPos + minMatch ≤ src.length := by
        unfold minMatch lastLiterals at *
        omega
      have finds : findMatch src srcPos (seen (hash4 src srcPos)).toNat =
          .ok (matchAt src srcPos (table (hash4 src srcPos))) := by
        rw [follows.same]
        exact findMatch_eq (follows.earlier _) inside
      cases found : matchAt src srcPos (table (hash4 src srcPos)) with
      | none =>
        rw [found] at finds
        rw [searched_none more found, compressLoop_none more small finds]
        exact (ihNext (follows.update _ small (Nat.le_succ _) (Nat.lt_succ_self _)) progress
          (Nat.le_succ_of_le after)).cons small
      | some pair =>
        obtain ⟨offset, count⟩ := pair
        rw [found] at finds
        rw [searched_match more found, compressLoop_match more small after finds]
        refine EndsWith.cons small ?_
        obtain ⟨dst', wrote, progress'⟩ := progress.writeSequence after room
          (matchAt_found (follows.earlier _) inside found) (Nat.le_add_right _ _)
        have four : minMatch = 4 := rfl
        have moved := follows.update (hash4 src srcPos) small
          (show srcPos ≤ srcPos + (minMatch + count) by omega) (by omega)
        rw [wrote]
        simp only [bind, Except.bind]
        by_cases fits : srcPos + (minMatch + count) < limit → srcPos + (minMatch + count) < 65536
        · obtain ⟨seen', done, follows'⟩ := moved.refresh (by omega) fits
          rw [done]
          exact ihMatch count follows' progress' (Nat.le_refl _)
        · obtain ⟨next, large⟩ := Classical.not_imp.mp fits
          refine .inr ⟨⟨srcPos + (minMatch + count), ?_, large⟩, ?_⟩
          · rw [searched, if_pos next]
            exact List.mem_cons_self
          · have far : 2 ≤ srcPos + (minMatch + count) := by omega
            rcases refresh_cases far with ⟨seen', done⟩ | failed
            · rw [done]
              exact compressLoop_large next large
            · rw [failed]
    · rw [compressLoop_large more small, searched, if_pos more]
      exact .inr ⟨⟨srcPos, List.mem_cons_self, small⟩, rfl⟩
  | case2 table srcPos done =>
    rw [searched, compressLoop, if_neg done, if_neg done]
    exact .inl ⟨(fun _ member => nomatch member), anchor, dst, rfl, progress⟩

end Loop

/-! Compression and decompression. -/

section RoundTrip
variable {src : List UInt8}

/-- A block that is decompressed to a source, into any destination that is large enough. -/
def Decodes (bytes src : List UInt8) : Prop :=
  ∀ room, src.length ≤ room → ∃ out : Buffer room, lz4Decompress bytes room src.length = .ok out ∧ out.written = src

/-- The round trip of a source. -/
def RoundTrips (src : List UInt8) : Prop :=
  ∀ size, lz4CompressBound src.length ≤ size → ∃ dst : Buffer size, lz4Compress src size = .ok dst ∧
    0 < dst.written.length ∧ dst.written.length ≤ lz4CompressBound src.length ∧ Decodes dst.written src

/-- A block as the compressor writes it: sequences up to an anchor, and the literals that are left, if there are some. -/
structure Block (src bytes : List UInt8) (sequences : List Sequence) (anchor : Nat) : Prop where
  within : anchor ≤ src.length
  unfolds : Unfolds sequences (src.take anchor)
  written : bytes = sequences.flatMap Sequence.bytes ++
    if anchor < src.length ∨ src = [] then lastBytes (src.drop anchor) else []

theorem decodes_sequences {sequences : List Sequence} (unfolds : Unfolds sequences src) :
    Decodes (sequences.flatMap Sequence.bytes) src := by
  intro room fits
  obtain ⟨out, written, ends⟩ := decompressLoop_sequences unfolds [] (Nat.le_refl _) fits
  rw [List.append_nil] at ends
  refine ⟨out, ?_, written⟩
  rw [lz4Decompress, ends, decompressLoop]
  rfl

theorem decodes_last {sequences : List Sequence} {anchor : Nat} (unfolds : Unfolds sequences (src.take anchor))
    (some : anchor < src.length) : Decodes (sequences.flatMap Sequence.bytes ++ lastBytes (src.drop anchor)) src := by
  intro room fits
  have taken : (src.take anchor).length = anchor := List.length_take_of_le (Nat.le_of_lt some)
  obtain ⟨between, written, begun⟩ := decompressLoop_sequences unfolds (lastBytes (src.drop anchor)) (by omega) fits
  have length : between.written.length = anchor := by rw [written, taken]
  obtain ⟨out, whole, ends⟩ := decompressLoop_last (src.drop anchor) between (by omega)
    (by rw [List.length_drop]; omega) fits
  refine ⟨out, ?_, ?_⟩
  · rw [lz4Decompress, begun, ends]
    rfl
  · rw [whole, written, List.take_append_drop]

theorem decodes_nil : Decodes (lastBytes []) [] := by
  intro room _
  refine ⟨.empty, ?_, rfl⟩
  have done : (Buffer.empty : Buffer room).written.length ≥ ([] : List UInt8).length := Nat.zero_le _
  rw [lz4Decompress, lastBytes, decompressLoop, if_pos done]
  rfl

theorem Unfolds.of_nil {sequences : List Sequence} (unfolds : Unfolds sequences []) : sequences = [] := by
  generalize empty : ([] : List UInt8) = text at unfolds
  cases unfolds with
  | nil => rfl
  | @snoc sequences history _ s _ =>
    have long := s.long
    have length := congrArg List.length empty
    rw [Sequence.extend, List.length_append, copied_length, List.length_nil] at length
    unfold minMatch at long
    omega

theorem Block.decodes {bytes : List UInt8} {sequences : List Sequence} {anchor : Nat} (block : Block src bytes sequences anchor) :
    Decodes bytes src := by
  obtain ⟨within, unfolds, written⟩ := block
  subst written
  by_cases some : anchor < src.length
  · rw [if_pos (.inl some)]
    exact decodes_last unfolds some
  · have whole : anchor = src.length := by omega
    subst whole
    rw [List.take_length] at unfolds
    by_cases none : src = []
    · subst none
      rw [if_pos (.inr rfl), unfolds.of_nil]
      exact decodes_nil
    · rw [if_neg (not_or.mpr ⟨some, none⟩), List.append_nil]
      exact decodes_sequences unfolds

/-- A source with bytes is not what no bytes are decompressed to. -/
theorem Decodes.pos {bytes : List UInt8} (decodes : Decodes bytes src) (some : 0 < src.length) : 0 < bytes.length := by
  cases bytes with
  | nil =>
    obtain ⟨out, done, written⟩ := decodes src.length (Nat.le_refl _)
    rw [lz4Decompress, decompressLoop] at done
    cases done
    rw [← written] at some
    exact absurd some (Nat.lt_irrefl 0)
  | cons => exact Nat.zero_lt_succ _

/-- A short source is written as literals. -/
theorem compress_short (short : src.length < minLength) {size : Nat} (room : lz4CompressBound src.length ≤ size) :
    ∃ dst : Buffer size, lz4Compress src size = .ok dst ∧ dst.written = lastBytes src := by
  have bound : src.length + src.length / 255 + 16 ≤ size := room
  have cost := lastBytes_length_le src
  have written : writeLiteralOnly src size = Buffer.append .empty (lastBytes src) := by
    have whole := writeLastLiterals_eq (Buffer.empty : Buffer size) (show 0 + src.length ≤ src.length by omega)
    rwa [List.drop_zero, List.take_length] at whole
  obtain ⟨dst, appended, same⟩ := (Buffer.empty : Buffer size).append_ok
    (show 0 + (lastBytes src).length ≤ size by omega)
  refine ⟨dst, ?_, same⟩
  rw [lz4Compress, if_pos (.inl short), written, appended]
  rfl

theorem block_short (src : List UInt8) : Block src (lastBytes src) [] 0 := by
  refine ⟨Nat.zero_le _, .nil, ?_⟩
  have some : 0 < src.length ∨ src = [] := by
    cases src with
    | nil => exact .inr rfl
    | cons byte rest => exact .inl (Nat.zero_lt_succ _)
  rw [if_pos some]
  rfl

theorem roundTrips_short (short : src.length < minLength) : RoundTrips src := by
  intro size room
  have cost := lastBytes_length_le src
  obtain ⟨dst, done, bytes⟩ := compress_short short room
  refine ⟨dst, done, ?_, ?_, ?_⟩
  · rw [bytes]
    exact Nat.zero_lt_succ _
  · rw [bytes]
    change _ ≤ src.length + src.length / 255 + 16
    omega
  · rw [bytes]
    exact (block_short src).decodes

theorem start_follows : Follows (Function.update (fun _ => 0) (hash4 src 0) 0) (fun _ => 0) 1 := by
  refine ⟨fun h => ?_, fun _ => Nat.zero_lt_one⟩
  by_cases same : h = hash4 src 0
  · rw [same, Function.update_self]
    rfl
  · rw [Function.update_of_ne same]
    rfl

/-- What the compressor makes of a loop that ends. -/
theorem lz4Compress_long (long : minLength ≤ src.length) {size : Nat} (room : lz4CompressBound src.length ≤ size) :
    lz4Compress src size = Buffer.returned do
      let (anchor, dst) ← compressLoop src (srcLimit src.length) (Function.update (fun _ => 0) (hash4 src 0) 0) 1 0
        Buffer.empty
      let remaining ← sub src.length anchor
      if remaining > 0 then writeLastLiterals dst src anchor remaining else return dst := by
  have bound : src.length + src.length / 255 + 16 ≤ size := room
  rw [lz4Compress, if_neg (by omega)]

theorem loop_endsWith (long : minLength ≤ src.length) {size : Nat} (room : lz4CompressBound src.length ≤ size) :
    EndsWith src (searchedPositions src) (compressLoop src (srcLimit src.length)
      (Function.update (fun _ => 0) (hash4 src 0) 0) 1 0 (Buffer.empty : Buffer size)) := by
  have limit : srcLimit src.length + lastLiterals + minMatch = src.length := by
    unfold srcLimit minLength lastLiterals minMatch at *
    rw [if_pos (by omega)]
    omega
  exact compressLoop_endsWith limit room _ 1 start_follows Progress.start (Nat.zero_le 1)

/-- The literals that are left are written, for which there is room. -/
theorem compress_rest {size anchor : Nat} {dst : Buffer size} (some : 0 < src.length)
    (room : lz4CompressBound src.length ≤ size) (progress : Progress src anchor dst) :
    ∃ dst', Buffer.returned (do
        let remaining ← sub src.length anchor
        if remaining > 0 then writeLastLiterals dst src anchor remaining else return dst) = .ok dst' ∧
      dst'.written.length ≤ lz4CompressBound src.length ∧ ∃ sequences, Block src dst'.written sequences anchor := by
  obtain ⟨within, ⟨sequences, bytes, unfolds⟩, short⟩ := progress
  have bound : src.length + src.length / 255 + 16 ≤ size := room
  have left : sub src.length anchor = .ok (src.length - anchor) := if_pos within
  rw [left]
  by_cases rest : src.length - anchor > 0
  · have literals : (src.drop anchor).take (src.length - anchor) = src.drop anchor :=
      List.take_of_length_le (Nat.le_of_eq List.length_drop)
    have cost := lastBytes_length_le (src.drop anchor)
    rw [List.length_drop] at cost
    have total : dst.written.length + (lastBytes (src.drop anchor)).length ≤ lz4CompressBound src.length := by
      change _ ≤ src.length + src.length / 255 + 16
      omega
    obtain ⟨dst', appended, written⟩ := dst.append_ok (Nat.le_trans total room)
    refine ⟨dst', ?_, ?_, sequences, within, unfolds, ?_⟩
    · simp only [bind, Except.bind]
      rw [if_pos rest, writeLastLiterals_eq dst (by omega), literals, appended]
      rfl
    · rw [written, List.length_append]
      exact total
    · rw [written, bytes, if_pos (.inl (by omega))]
  · have whole : anchor = src.length := by omega
    have full : src ≠ [] := List.length_pos_iff.mp some
    refine ⟨dst, ?_, ?_, sequences, within, unfolds, ?_⟩
    · simp only [bind, Except.bind]
      rw [if_neg rest]
      rfl
    · change _ ≤ src.length + src.length / 255 + 16
      omega
    · rw [bytes, if_neg (by simp [full, whole]), List.append_nil]

theorem roundTrips_long (long : minLength ≤ src.length) : RoundTrips src ↔ ∀ pos ∈ searchedPositions src, pos < 65536 := by
  constructor
  · intro trips
    obtain ⟨dst, done, _⟩ := trips _ (Nat.le_refl _)
    rw [lz4Compress_long long (Nat.le_refl _)] at done
    rcases loop_endsWith long (Nat.le_refl _) with ⟨all, _⟩ | ⟨_, fails⟩
    · exact all
    · rw [fails] at done
      cases done
  · intro all size room
    rw [lz4Compress_long long room]
    have some : 0 < src.length := Nat.lt_of_lt_of_le (by decide) long
    rcases loop_endsWith long room with ⟨_, anchor, dst, ends, progress⟩ | ⟨⟨pos, member, fails⟩, _⟩
    · obtain ⟨dst', done, bound, _, block⟩ := compress_rest some room progress
      rw [ends]
      exact ⟨dst', done, block.decodes.pos some, bound, block.decodes⟩
    · exact absurd (all pos member) fails

theorem searched_lt_limit (limit : Nat) (table : BitVec 12 → Nat) (srcPos : Nat) :
    ∀ pos ∈ searched src limit table srcPos, pos < limit := by
  induction table, srcPos using searched.induct src limit with
  | case1 table srcPos more ihMatch ihNext =>
    rw [searched, if_pos more]
    refine List.forall_mem_cons.mpr ⟨more, ?_⟩
    cases found : matchAt src srcPos (table (hash4 src srcPos)) with
    | none => exact ihNext
    | some pair => exact ihMatch pair.2
  | case2 table srcPos done =>
    rw [searched, if_neg done]
    exact fun _ member => nomatch member

theorem searched_small (few : src.length ≤ 65545) : ∀ pos ∈ searchedPositions src, pos < 65536 := by
  intro pos member
  have inside := searched_lt_limit _ _ _ pos member
  unfold srcLimit lastLiterals minMatch at inside
  split at inside <;> omega

/-- All sources of up to 65545 bytes round trip. -/
theorem roundTrips_of_length_le (few : src.length ≤ 65545) : RoundTrips src := by
  by_cases short : src.length < minLength
  · exact roundTrips_short short
  · exact (roundTrips_long (Nat.le_of_not_lt short)).mpr (searched_small few)

/-- All of them are written as a block. -/
theorem compress_block (few : src.length ≤ 65545) {size : Nat} (room : lz4CompressBound src.length ≤ size) :
    ∃ (dst : Buffer size) (sequences : List Sequence) (anchor : Nat), lz4Compress src size = .ok dst ∧
      Block src dst.written sequences anchor := by
  by_cases short : src.length < minLength
  · obtain ⟨dst, done, bytes⟩ := compress_short short room
    refine ⟨dst, [], 0, done, ?_⟩
    rw [bytes]
    exact block_short src
  · have long := Nat.le_of_not_lt short
    have some : 0 < src.length := Nat.lt_of_lt_of_le (by decide) long
    rcases loop_endsWith long room with ⟨_, anchor, dst, ends, progress⟩ | ⟨⟨pos, member, fails⟩, _⟩
    · obtain ⟨dst', done, _, sequences, block⟩ := compress_rest some room progress
      refine ⟨dst', sequences, anchor, ?_, block⟩
      rw [lz4Compress_long long room, ends]
      exact done
    · exact absurd (searched_small few pos member) fails

/-- Compression round trips within its bound exactly when no position at which it looks for a match is over 16 bits. -/
theorem lz4_round_trips_iff (src : List UInt8) : RoundTrips src ↔ ∀ pos ∈ searchedPositions src, pos < 65536 := by
  by_cases short : src.length < minLength
  · refine iff_of_true (roundTrips_short short) fun pos member => ?_
    have inside := searched_lt_limit _ _ _ pos member
    unfold srcLimit minLength lastLiterals minMatch at *
    split at inside <;> omega
  · exact roundTrips_long (Nat.le_of_not_lt short)

/-- Where nothing matches, every position is searched. -/
theorem mem_searched {limit : Nat} (unmatched : ∀ srcPos < limit, ∀ matchPos < srcPos, matchAt src srcPos matchPos = none)
    (table : BitVec 12 → Nat) (srcPos : Nat) (earlier : ∀ h, table h < srcPos) {pos : Nat} (from_ : srcPos ≤ pos)
    (inside : pos < limit) : pos ∈ searched src limit table srcPos := by
  induction table, srcPos using searched.induct src limit with
  | case1 table srcPos more _ ih =>
    rw [searched_none more (unmatched srcPos more _ (earlier _))]
    by_cases here : pos = srcPos
    · exact here ▸ List.mem_cons_self
    · refine List.mem_cons_of_mem _ (ih (fun h => ?_) (by omega))
      by_cases same : h = hash4 src srcPos
      · rw [noted, same, Function.update_self]
        exact Nat.lt_succ_self _
      · rw [noted, Function.update_of_ne same]
        exact Nat.lt_succ_of_lt (earlier h)
  | case2 table srcPos done => omega

end RoundTrip

section Climbing

/-- The byte at a position of pairs that count up, the low byte of a count first. -/
def climb (p : Nat) : Nat := if p % 2 = 0 then p / 2 else p / 512

theorem climb_even (k : Nat) : climb (2 * k) = k := by
  rw [climb, if_pos (by omega)]
  omega

theorem climb_odd (k : Nat) : climb (2 * k + 1) = k / 256 := by
  rw [climb, if_neg (by omega)]
  omega

/-- Four bytes from a low byte on are no four bytes from a high byte on. -/
theorem climb_mixed {i j : Nat} (short : j ≤ 65534) (zero : i % 256 = j / 256 % 256)
    (one : i / 256 % 256 = (j + 1) % 256) (two : (i + 1) % 256 = (j + 1) / 256 % 256)
    (three : (i + 1) / 256 % 256 = (j + 2) % 256) : False := by
  rcases (by omega : (i + 1) / 256 = i / 256 ∨ i % 256 = 255) with same | last
  · rw [same] at three
    omega
  · omega

/-- No four bytes come twice. -/
theorem climb_distinct {a b : Nat} (short : b + 4 ≤ 131072) (before : a < b)
    (same : ∀ i < 4, climb (a + i) % 256 = climb (b + i) % 256) : False := by
  have zero := same 0 (by decide)
  have one := same 1 (by decide)
  have two := same 2 (by decide)
  have three := same 3 (by decide)
  obtain ⟨i, rfl | rfl⟩ : ∃ i, a = 2 * i ∨ a = 2 * i + 1 := ⟨a / 2, by omega⟩
  · have third : climb (2 * i + 2) = i + 1 := climb_even (i + 1)
    have fourth : climb (2 * i + 3) = (i + 1) / 256 := climb_odd (i + 1)
    rw [Nat.add_zero, climb_even] at zero
    rw [climb_odd] at one
    rw [third] at two
    rw [fourth] at three
    obtain ⟨j, rfl | rfl⟩ : ∃ j, b = 2 * j ∨ b = 2 * j + 1 := ⟨b / 2, by omega⟩
    · rw [Nat.add_zero, climb_even] at zero
      rw [climb_odd] at one
      omega
    · have second' : climb (2 * j + 1 + 1) = j + 1 := climb_even (j + 1)
      have third' : climb (2 * j + 1 + 2) = (j + 1) / 256 := climb_odd (j + 1)
      have fourth' : climb (2 * j + 1 + 3) = j + 2 := climb_even (j + 2)
      rw [Nat.add_zero, climb_odd] at zero
      rw [second'] at one
      rw [third'] at two
      rw [fourth'] at three
      exact climb_mixed (by omega) zero one two three
  · have second : climb (2 * i + 1 + 1) = i + 1 := climb_even (i + 1)
    have third : climb (2 * i + 1 + 2) = (i + 1) / 256 := climb_odd (i + 1)
    have fourth : climb (2 * i + 1 + 3) = i + 2 := climb_even (i + 2)
    rw [Nat.add_zero, climb_odd] at zero
    rw [second] at one
    rw [third] at two
    rw [fourth] at three
    obtain ⟨j, rfl | rfl⟩ : ∃ j, b = 2 * j ∨ b = 2 * j + 1 := ⟨b / 2, by omega⟩
    · have third' : climb (2 * j + 2) = j + 1 := climb_even (j + 1)
      have fourth' : climb (2 * j + 3) = (j + 1) / 256 := climb_odd (j + 1)
      rw [Nat.add_zero, climb_even] at zero
      rw [climb_odd] at one
      rw [third'] at two
      rw [fourth'] at three
      exact climb_mixed (by omega) zero.symm one.symm two.symm three.symm
    · have second' : climb (2 * j + 1 + 1) = j + 1 := climb_even (j + 1)
      have third' : climb (2 * j + 1 + 2) = (j + 1) / 256 := climb_odd (j + 1)
      rw [second'] at one
      rw [third'] at two
      omega

def climbing (length : Nat) : List UInt8 := (List.range length).map fun p => (climb p).toUInt8

theorem climbing_length (length : Nat) : (climbing length).length = length := by
  rw [climbing, List.length_map, List.length_range]

theorem climbing_getD {length p : Nat} (inside : p < length) :
    ((climbing length).getD p default).toNat = climb p % 256 := by
  rw [List.getD_eq_getElem _ _ (by rw [climbing_length]; exact inside)]
  simp only [climbing, List.getElem_map, List.getElem_range]
  rfl

theorem climbing_unmatched {length srcPos matchPos : Nat} (short : length ≤ 131072) (before : matchPos < srcPos)
    (inside : srcPos + 4 ≤ length) : matchAt (climbing length) srcPos matchPos = none := by
  refine if_neg fun valid => ?_
  have agrees := read32_agrees (by rw [climbing_length]; omega) (by rw [climbing_length]; exact inside) valid.2.2
  refine climb_distinct (by omega) before fun i less => ?_
  rw [← climbing_getD (show matchPos + i < length by omega), ← climbing_getD (show srcPos + i < length by omega),
    agrees i less]

theorem position_overflows : ¬ RoundTrips (climbing 65546) := by
  intro trips
  have long : minLength ≤ (climbing 65546).length := by
    rw [climbing_length]
    decide
  have small := (roundTrips_long long).mp trips 65536
  have limit : srcLimit (climbing 65546).length = 65537 := by
    rw [climbing_length]
    rfl
  refine absurd (small ?_) (Nat.lt_irrefl _)
  rw [searchedPositions, limit]
  exact mem_searched (fun srcPos less matchPos before => climbing_unmatched (by decide) before (by omega)) _ 1
    (fun _ => Nat.zero_lt_one) (by decide) (by decide)

end Climbing

end Burble.Coprocessor.Compression
