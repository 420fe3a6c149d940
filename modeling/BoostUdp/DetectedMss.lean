import BoostUdp.Client
import BoostUdp.Server.Slices
import Mathlib.Data.List.MinMax
import Mathlib.Data.Prod.Lex

/-!
# The detected mss

`infer_detected_mss` takes the most frequent slice size of a batch, the larger
one in a tie.  For a batch that arrives in full segments and a last one this
is the size of a segment if and only if the header leaves a part of the first
segment, there are two full segments, and the last segment is not the third
that makes a pair with the first slice.
-/

namespace BoostUdp

open LittleEndian

/-- A loop that keeps the better of two items finds the best one. -/
theorem argmax_eq_foldl {α κ : Type} [Preorder κ] [DecidableLT κ]
    (key : α → κ) (first : α) (items : List α) :
    (first :: items).argmax key =
      some (items.foldl
        (fun best item => if key best < key item then item else best)
        first) := by
  change items.foldl (List.argAux fun left right => key right < key left)
    (some first) = _
  induction items generalizing first with
  | nil => rfl
  | cons item items induction =>
      rw [List.foldl_cons, List.foldl_cons, ← induction]
      congr 1
      exact (apply_ite some _ _ _).symm

/-- More frequent, or as frequent and larger. -/
def Outranks (sizes : List Nat) (value other : Nat) : Prop :=
  sizes.count other < sizes.count value ∨
    sizes.count other = sizes.count value ∧ other ≤ value

theorem Outranks.antisymm {sizes : List Nat} {value other : Nat}
    (outranks : Outranks sizes value other)
    (outranked : Outranks sizes other value) : value = other := by
  unfold Outranks at outranks outranked
  omega

/-- The order in which the loop compares sizes, each with its count. -/
def rank (candidate : Nat × Nat) : Nat ×ₗ Nat :=
  toLex (candidate.2, candidate.1)

theorem inferDetectedMss_eq_argmax {sizes : List Nat} {mss : Nat}
    (inferred : inferDetectedMss sizes = some mss) :
    ∃ count, (mss, count) ∈
      ((sizes.headD 0, 0) ::
        sizes.map fun value => (value, sizes.count value)).argmax rank := by
  rw [argmax_eq_foldl, List.foldl_map]
  have same : (fun (best : Nat × Nat) value =>
      if rank best < rank (value, sizes.count value) then
        (value, sizes.count value)
      else
        best) =
      fun (best : Nat × Nat) value =>
        if best.2 < sizes.count value ∨
            (sizes.count value = best.2 ∧ best.1 < value) then
          (value, sizes.count value)
        else
          best := by
    funext best value
    simp only [rank, Prod.Lex.toLex_lt_toLex, @eq_comm _ best.2]
  unfold inferDetectedMss at inferred
  rw [same]
  split at inferred
  · contradiction
  · cases inferred
    exact ⟨_, rfl⟩

/-- What is inferred is a size that outranks all others. -/
theorem inferDetectedMss_outranks {sizes : List Nat} {mss : Nat}
    (inferred : inferDetectedMss sizes = some mss) :
    mss ∈ sizes ∧ ∀ value ∈ sizes, Outranks sizes mss value := by
  obtain ⟨count, best⟩ := inferDetectedMss_eq_argmax inferred
  have atMost (value : Nat) (member : value ∈ sizes) :
      sizes.count value < count ∨
        sizes.count value = count ∧ value ≤ mss := by
    have candidate : (value, sizes.count value) ∈ (sizes.headD 0, 0) ::
        sizes.map fun value => (value, sizes.count value) :=
      List.mem_cons_of_mem _ (List.mem_map.mpr ⟨value, member, rfl⟩)
    have bound : rank (value, sizes.count value) ≤ rank (mss, count) :=
      List.le_of_mem_argmax candidate best
    exact Prod.Lex.toLex_le_toLex.mp bound
  rcases List.mem_cons.mp (List.argmax_mem best) with first | listed
  · cases sizes with
    | nil => contradiction
    | cons head rest =>
        cases first
        have counted : 0 < (head :: rest).count head :=
          List.count_pos_iff.mpr List.mem_cons_self
        have bound := atMost head List.mem_cons_self
        omega
  · obtain ⟨value, member, same⟩ := List.mem_map.mp listed
    cases same
    exact ⟨member, atMost⟩

theorem inferDetectedMss_isSome {sizes : List Nat}
    (several : 2 ≤ sizes.length) : ∃ mss, inferDetectedMss sizes = some mss := by
  rw [inferDetectedMss, if_neg (Nat.not_lt.mpr several)]
  exact ⟨_, rfl⟩

theorem inferDetectedMss_eq_some_iff {sizes : List Nat} {mss : Nat}
    (several : 2 ≤ sizes.length) :
    inferDetectedMss sizes = some mss ↔
      mss ∈ sizes ∧ ∀ value ∈ sizes, Outranks sizes mss value := by
  constructor
  · exact inferDetectedMss_outranks
  · rintro ⟨member, outranks⟩
    obtain ⟨best, inferred⟩ := inferDetectedMss_isSome several
    obtain ⟨bestMember, bestOutranks⟩ := inferDetectedMss_outranks inferred
    have same : best = mss :=
      (bestOutranks mss member).antisymm (outranks best bestMember)
    rw [inferred, same]

/-- The slices of `full + 2` segments behind a header: the rest of the first
one, the full ones, and the last one. -/
def segmentSlices (header mss full last : Nat) : List Nat :=
  (mss - header) :: (List.replicate full mss ++ [last])

section Slices

variable {header mss full last : Nat}

theorem mem_segmentSlices {value : Nat} :
    value ∈ segmentSlices header mss full last ↔
      value = mss - header ∨ (full ≠ 0 ∧ value = mss) ∨ value = last := by
  rw [segmentSlices, List.mem_cons, List.mem_append, List.mem_replicate,
    List.mem_singleton]

theorem count_segmentSlices (value : Nat) :
    (segmentSlices header mss full last).count value =
      (if value = mss - header then 1 else 0) +
        (if value = mss then full else 0) +
        (if value = last then 1 else 0) := by
  simp only [segmentSlices, List.count_cons, List.count_append,
    List.count_replicate, List.count_nil, beq_iff_eq]
  grind

/-- The size of a segment is found unless there is no full slice, or one, and
the last one makes a pair with the first. -/
theorem segmentSlices_outrank_iff (positive : 0 < header)
    (wide : header < mss) (fits : last ≤ mss) :
    (mss ∈ segmentSlices header mss full last ∧
      ∀ value ∈ segmentSlices header mss full last,
        Outranks (segmentSlices header mss full last) mss value) ↔
      last = mss ∨ full ≠ 0 ∧ (last ≠ mss - header ∨ full ≠ 1) := by
  simp only [Outranks, count_segmentSlices, mem_segmentSlices]
  grind

/-- The same in terms of the size of the batch. -/
theorem segmentSlices_size_iff (positive : 0 < header) (wide : header < mss)
    (nonempty : 0 < last) (fits : last ≤ mss) :
    (last = mss ∨ full ≠ 0 ∧ (last ≠ mss - header ∨ full ≠ 1)) ↔
      2 * mss ≤ (full + 1) * mss + last ∧
        (full + 1) * mss + last + header ≠ 3 * mss := by
  rcases full with _ | _ | full
  · rw [Nat.zero_add, Nat.one_mul]
    constructor
    · rintro (whole | ⟨none, _⟩)
      · omega
      · contradiction
    · rintro ⟨atLeast, _⟩
      left
      omega
  · have two : (0 + 1 + 1) * mss = 2 * mss := rfl
    rw [two]
    constructor
    · rintro (whole | ⟨_, other⟩)
      · omega
      · omega
    · rintro ⟨_, other⟩
      right
      omega
  · have rest : (full + 1 + 1 + 1) * mss = full * mss + 3 * mss := by ring
    rw [rest]
    constructor
    · intro _
      omega
    · intro _
      right
      omega

theorem inferDetectedMss_segmentSlices (positive : 0 < header)
    (wide : header < mss) (nonempty : 0 < last) (fits : last ≤ mss) :
    inferDetectedMss (segmentSlices header mss full last) = some mss ↔
      2 * mss ≤ (full + 1) * mss + last ∧
        (full + 1) * mss + last + header ≠ 3 * mss := by
  have several : 2 ≤ (segmentSlices header mss full last).length := by
    rw [segmentSlices, List.length_cons, List.length_append,
      List.length_singleton]
    omega
  rw [inferDetectedMss_eq_some_iff several,
    segmentSlices_outrank_iff positive wide fits,
    segmentSlices_size_iff positive wide nonempty fits]

end Slices

/-- One segment of `mss` bytes per datagram; the last one may be shorter. -/
def Segmented (mss : Nat) (pieces : List (List Byte)) : Prop :=
  ∃ full last, pieces = full ++ [last] ∧
    (∀ piece ∈ full, piece.length = mss) ∧ last ≠ [] ∧ last.length ≤ mss

theorem length_flatten_full {mss : Nat} {full : List (List Byte)}
    (same : ∀ piece ∈ full, piece.length = mss) :
    full.flatten.length = full.length * mss := by
  have sizes : full.map List.length = List.replicate full.length mss :=
    List.map_eq_replicate_iff.mpr same
  rw [List.length_flatten, sizes, List.sum_replicate, smul_eq_mul]

theorem Segmented.cons {mss : Nat} {piece : List Byte}
    {pieces : List (List Byte)} (size : piece.length = mss)
    (segmented : Segmented mss pieces) : Segmented mss (piece :: pieces) := by
  obtain ⟨full, last, rfl, same, nonempty, fits⟩ := segmented
  refine ⟨piece :: full, last, rfl, ?_, nonempty, fits⟩
  intro other member
  rcases List.mem_cons.mp member with rfl | inside
  · exact size
  · exact same other inside

/-- The sender cuts a batch into segments. -/
theorem sendSegments_segmented {data : List Byte} {mss fuel offset : Nat}
    (positive : 0 < mss) (more : offset < data.length)
    {segments : List (List Byte)}
    (sent : sendSegments List.length data mss fuel offset = .ok segments) :
    Segmented mss segments := by
  induction fuel generalizing offset segments with
  | zero => contradiction
  | succ fuel induction =>
      let chunk := min mss (data.length - offset)
      have size : ((data.drop offset).take chunk).length = chunk := by
        rw [List.length_take, List.length_drop]
        omega
      rw [sendSegments, if_pos more] at sent
      dsimp only at sent
      rw [if_neg (not_not.mpr size)] at sent
      cases rest : sendSegments List.length data mss fuel (offset + chunk) with
      | error error =>
        rw [rest] at sent
        contradiction
      | ok later =>
        rw [rest] at sent
        cases sent
        by_cases another : offset + mss < data.length
        · have whole : chunk = mss := Nat.min_eq_left (by omega)
          have onward : offset + chunk < data.length := by omega
          exact (induction onward rest).cons (size.trans whole)
        · have ended : ¬offset + chunk < data.length := by omega
          have nothing : later = [] := by
            cases fuel with
            | zero => contradiction
            | succ fuel =>
                rw [sendSegments, if_neg ended] at rest
                cases rest
                rfl
          refine ⟨[], (data.drop offset).take chunk, ?_, ?_, ?_, ?_⟩
          · rw [nothing]
            rfl
          · intro piece member
            contradiction
          · apply List.ne_nil_of_length_pos
            rw [size]
            exact Nat.lt_min.mpr ⟨positive, Nat.sub_pos_of_lt more⟩
          · rw [size]
            exact Nat.min_le_left _ _

theorem sendBatchFallback_segmented {batch : List Byte} {mss : Nat}
    (positive : 0 < mss) (nonempty : batch ≠ [])
    {pieces : List (List Byte)}
    (sent : sendBatchFallback List.length batch mss = .ok pieces) :
    Segmented mss pieces := by
  rw [sendBatchFallback, if_neg (Nat.ne_of_gt positive)] at sent
  exact sendSegments_segmented positive (List.length_pos_of_ne_nil nonempty)
    sent

section Pieces

variable {mss : Nat} {pieces : List (List Byte)}

theorem Segmented.mss_pos (segmented : Segmented mss pieces) : 0 < mss := by
  obtain ⟨_, last, _, _, nonempty, fits⟩ := segmented
  exact Nat.lt_of_lt_of_le (List.length_pos_of_ne_nil nonempty) fits

theorem Segmented.nonempty (segmented : Segmented mss pieces) :
    ∀ piece ∈ pieces, piece ≠ [] := by
  have positive := segmented.mss_pos
  obtain ⟨full, last, rfl, same, nonempty, _⟩ := segmented
  intro piece member
  rcases List.mem_append.mp member with inside | atEnd
  · apply List.ne_nil_of_length_pos
    rw [same piece inside]
    exact positive
  · rw [List.mem_singleton.mp atEnd]
    exact nonempty

/-- There are as many datagrams as segments of the batch. -/
theorem Segmented.length_eq (segmented : Segmented mss pieces) :
    pieces.length = (pieces.flatten.length + mss - 1) / mss := by
  obtain ⟨full, last, rfl, same, nonempty, fits⟩ := segmented
  have positive := List.length_pos_of_ne_nil nonempty
  have size : (full ++ [last]).flatten.length + mss - 1 =
      (last.length + mss - 1) + full.length * mss := by
    rw [List.flatten_append, List.length_append, length_flatten_full same,
      List.flatten_singleton]
    omega
  have once : (last.length + mss - 1) / mss = 1 :=
    Nat.div_eq_of_lt_le (by omega) (by omega)
  rw [size, Nat.add_mul_div_right _ _ (by omega), once, List.length_append,
    List.length_singleton, Nat.add_comm]

theorem payloadSlices_behind {position : Nat}
    (behind : kPacketHeaderSize ≤ position)
    (nonempty : ∀ piece ∈ pieces, piece ≠ []) :
    payloadSlices position pieces = pieces.map List.length := by
  induction pieces generalizing position with
  | nil => rfl
  | cons piece pieces induction =>
      rw [payloadSlices_cons,
        payloadSlices_payload behind (nonempty piece List.mem_cons_self),
        induction (Nat.le_add_right_of_le behind)
          (fun other member => nonempty other (List.mem_cons_of_mem _ member))]
      rfl

theorem length_payloadSlices_le (position : Nat) :
    (payloadSlices position pieces).length ≤ pieces.length := by
  induction pieces generalizing position with
  | nil => exact Nat.le_refl 0
  | cons piece pieces induction =>
      have later := induction (position + piece.length)
      rw [payloadSlices]
      split
      · rw [List.length_cons, List.length_cons]
        omega
      · rw [List.length_cons]
        omega

/-- The slices of a batch of several segments that are longer than the
header. -/
theorem Segmented.slices_eq (wide : kPacketHeaderSize < mss)
    (segmented : Segmented mss pieces) (several : mss < pieces.flatten.length) :
    ∃ full last, 0 < last ∧ last ≤ mss ∧
      pieces.flatten.length = (full + 1) * mss + last ∧
      pieces.length = full + 2 ∧
      payloadSlices 0 pieces =
        segmentSlices kPacketHeaderSize mss full last := by
  have filled := segmented.nonempty
  obtain ⟨full, last, rfl, same, nonempty, fits⟩ := segmented
  have positive := List.length_pos_of_ne_nil nonempty
  cases full with
  | nil =>
      rw [List.nil_append, List.flatten_singleton] at several
      omega
  | cons first full =>
      have size := length_flatten_full same
      have firstSize := same first List.mem_cons_self
      have sizes : full.map List.length =
          List.replicate full.length mss :=
        List.map_eq_replicate_iff.mpr fun piece member =>
          same piece (List.mem_cons_of_mem _ member)
      have across : payloadSlices 0 [first] = [mss - kPacketHeaderSize] := by
        rw [payloadSlices_across (Nat.zero_le _) (by omega), List.length_drop,
          firstSize]
        rfl
      have behind : payloadSlices (0 + first.length) (full ++ [last]) =
          (full ++ [last]).map List.length :=
        payloadSlices_behind (by omega) fun piece member =>
          filled piece (List.mem_cons_of_mem _ member)
      refine ⟨full.length, last.length, positive, fits, ?_, ?_, ?_⟩
      · rw [List.flatten_append, List.length_append, size,
          List.flatten_singleton]
        rfl
      · simp
      · rw [List.cons_append, payloadSlices_cons, across, behind,
          List.map_append, sizes]
        rfl

end Pieces

/-- The pieces complete the batch, and it is reported with `mss` and the number
of its segments. -/
def ReportsMss (start : Receiver) (batch : List Byte)
    (pieces : List (List Byte)) (mss : Nat) : Prop :=
  ∃ after sizes, ingestAll start pieces = some after ∧
    after.log = start.log ++
      [.reassemble (PacketHeader.decode batch),
        .ok batch sizes (inferDetectedMss sizes)] ∧
    inferDetectedMss sizes = some mss ∧
    sizes.length = (batch.length + mss - 1) / mss

theorem reportsMss_delivered {start after : Receiver} {batch : List Byte}
    {pieces : List (List Byte)} {mss : Nat} {slices : List Nat}
    (ingested : ingestAll start pieces = some after)
    (delivered : Delivered start batch slices after) :
    ReportsMss start batch pieces mss ↔
      inferDetectedMss slices = some mss ∧
        slices.length = (batch.length + mss - 1) / mss := by
  constructor
  · rintro ⟨same, sizes, again, log, inferred, counted⟩
    rw [ingested] at again
    cases again
    rw [delivered.log] at log
    cases List.append_cancel_left log
    exact ⟨inferred, counted⟩
  · rintro ⟨inferred, counted⟩
    exact ⟨after, slices, ingested, delivered.log, inferred, counted⟩

section Report

variable {start : Receiver} {batch : List Byte} {mss : Nat}
  {pieces : List (List Byte)} (valid : ValidBatch batch)
  (same : SameSession start.stats.wireBatchTotal (PacketHeader.decode batch))
  (idle : start.reassembly = {}) (segmented : Segmented mss pieces)
  (whole : pieces.flatten = batch) (several : mss < batch.length)

include valid same idle segmented whole several

/-- Segments longer than the header. -/
theorem reportsMss_of_wide (wide : kPacketHeaderSize < mss) :
    ReportsMss start batch pieces mss ↔
      2 * mss ≤ batch.length ∧
        batch.length + kPacketHeaderSize ≠ 3 * mss := by
  have filled := segmented.nonempty
  obtain ⟨after, ingested, delivered⟩ :=
    ingestAll_delivers valid same idle filled whole
      (Nat.lt_trans wide several)
  obtain ⟨full, last, positive, fits, size, segments, slices⟩ :=
    segmented.slices_eq wide (whole ▸ several)
  have counted : (payloadSlices 0 pieces).length =
      (batch.length + mss - 1) / mss := by
    rw [← whole, ← segmented.length_eq, segments, slices, segmentSlices]
    simp
  rw [reportsMss_delivered ingested delivered, slices,
    inferDetectedMss_segmentSlices kPacketHeaderSize_pos wide positive fits,
    ← size, whole, ← slices]
  exact and_iff_left counted

/-- The first segment ends within the header, and leaves no slice. -/
theorem not_reportsMss_of_narrow (narrow : mss ≤ kPacketHeaderSize) :
    ¬ReportsMss start batch pieces mss := by
  have few : (payloadSlices 0 pieces).length < pieces.length := by
    obtain ⟨full, last, rfl, sizes, nonempty, fits⟩ := segmented
    cases full with
    | nil =>
        rw [← whole, List.nil_append, List.flatten_singleton] at several
        omega
    | cons first full =>
        have size := sizes first List.mem_cons_self
        have absent : payloadSlices 0 [first] = [] :=
          payloadSlices_header (by omega)
        have later : (payloadSlices (0 + first.length)
            (full ++ [last])).length ≤ (full ++ [last]).length :=
          length_payloadSlices_le _
        rw [List.cons_append, payloadSlices_cons, absent, List.nil_append,
          List.length_cons]
        omega
  have counted := segmented.length_eq
  rw [whole] at counted
  rcases Nat.lt_or_eq_of_le valid.wellFormed.complete with long | short
  · obtain ⟨after, ingested, delivered⟩ :=
      ingestAll_delivers valid same idle segmented.nonempty whole long
    rw [reportsMss_delivered ingested delivered]
    rintro ⟨_, size⟩
    omega
  · obtain ⟨after, ingested, log⟩ :=
      ingestAll_headerOnly valid same idle segmented.nonempty whole short.symm
    rintro ⟨other, sizes, again, logged, _⟩
    rw [ingested] at again
    cases again
    rw [log] at logged
    cases List.append_cancel_left logged

/-- The reported mss is that of the sender, with the number of its segments, if
and only if a segment is longer than the header, there are at least two full
segments, and the batch is not `3 * mss - 20` bytes long. -/
theorem reportsMss_iff :
    ReportsMss start batch pieces mss ↔
      kPacketHeaderSize < mss ∧ 2 * mss ≤ batch.length ∧
        batch.length + kPacketHeaderSize ≠ 3 * mss := by
  rcases Nat.lt_or_ge kPacketHeaderSize mss with wide | narrow
  · rw [reportsMss_of_wide valid same idle segmented whole several wide]
    exact (and_iff_right wide).symm
  · constructor
    · intro reported
      exact absurd reported
        (not_reportsMss_of_narrow valid same idle segmented whole several
          narrow)
    · rintro ⟨wide, _⟩
      omega

end Report

/-- A batch of zeros. -/
def zeroBatch (payload : Nat) : List Byte :=
  encodeBatch 0 1 (List.replicate payload 0)

theorem length_zeroBatch (payload : Nat) :
    (zeroBatch payload).length = kPacketHeaderSize + payload := by
  rw [zeroBatch, length_encodeBatch, List.length_replicate]

theorem zeroBatch_valid {payload : Nat}
    (small : kPacketHeaderSize + payload ≤ kMaxPacketLength) :
    ValidBatch (zeroBatch payload) := by
  apply encodeBatch_valid (by decide)
  rw [List.length_replicate]
  exact small

theorem sameSession_fresh (header : PacketHeader) :
    SameSession ({} : Receiver).stats.wireBatchTotal header := by
  intro known found
  contradiction

/-- Two segments, the second of which may be shorter. -/
theorem segmented_two {data : List Byte} {mss : Nat} (more : mss < data.length)
    (fits : data.length ≤ 2 * mss) :
    Segmented mss [data.take mss, data.drop mss] := by
  refine ⟨[data.take mss], data.drop mss, rfl, ?_, ?_, ?_⟩
  · intro piece member
    rw [List.mem_singleton.mp member, List.length_take_of_le
      (Nat.le_of_lt more)]
  · apply List.ne_nil_of_length_pos
    rw [List.length_drop]
    omega
  · rw [List.length_drop]
    omega

theorem flatten_two (data : List Byte) (mss : Nat) :
    [data.take mss, data.drop mss].flatten = data := by
  rw [List.flatten_cons, List.flatten_singleton, List.take_append_drop]

/-- What the sender sends of a batch of two full segments. -/
theorem reportsMss_iff_two :
    ∃ pieces,
      sendBatchFallback List.length (zeroBatch 2780) 1400 = .ok pieces ∧
        ReportsMss {} (zeroBatch 2780) pieces 1400 := by
  have valid : ValidBatch (zeroBatch 2780) := zeroBatch_valid (by decide)
  have size : (zeroBatch 2780).length = 2800 := length_zeroBatch 2780
  obtain ⟨pieces, sent, whole⟩ :=
    sendBatchFallback_complete (zeroBatch 2780) 1400
  have segmented : Segmented 1400 pieces :=
    sendBatchFallback_segmented (by decide)
      (List.ne_nil_of_length_pos (by omega)) sent
  refine ⟨pieces, sent, ?_⟩
  apply (reportsMss_iff valid (sameSession_fresh _) rfl segmented whole
    (by omega)).mpr
  rw [size]
  decide

/-- A batch of 2000 bytes in segments of 1400 is reported with 1380. -/
theorem two_segments_misreported :
    ¬ReportsMss {} (zeroBatch 1980)
        [(zeroBatch 1980).take 1400, (zeroBatch 1980).drop 1400] 1400 ∧
      ∃ after,
        ingestAll {} [(zeroBatch 1980).take 1400,
            (zeroBatch 1980).drop 1400] = some after ∧
          Delivered {} (zeroBatch 1980) [1380, 600] after ∧
          inferDetectedMss [1380, 600] = some 1380 := by
  have valid : ValidBatch (zeroBatch 1980) := zeroBatch_valid (by decide)
  have size : (zeroBatch 1980).length = 2000 := length_zeroBatch 1980
  have segmented : Segmented 1400
      [(zeroBatch 1980).take 1400, (zeroBatch 1980).drop 1400] :=
    segmented_two (by omega) (by omega)
  obtain ⟨after, ingested, delivered⟩ :=
    ingestAll_delivers valid (sameSession_fresh _) rfl segmented.nonempty
      (flatten_two _ _) (by rw [size]; decide)
  have slices : payloadSlices 0
      [(zeroBatch 1980).take 1400, (zeroBatch 1980).drop 1400] =
        [1380, 600] := by
    simp [payloadSlices, size, kPacketHeaderSize]
  rw [slices] at delivered
  have inferred : inferDetectedMss [1380, 600] = some 1380 := by decide
  refine ⟨?_, after, ingested, delivered, inferred⟩
  rw [reportsMss_delivered ingested delivered, inferred]
  rintro ⟨wrong, _⟩
  exact absurd (Option.some.inj wrong) (by decide)

end BoostUdp
