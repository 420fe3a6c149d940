import BoostUdp.Server.Ingest

/-!
# Header scans and the salvaged tail

What the two header scans and the salvage test of `try_complete_batch` return,
stated without their loops.
-/

namespace BoostUdp

open LittleEndian

theorem inBatchRange_iff {data : List Byte} :
    (kPacketHeaderSize ≤ peekBatchLength data ∧
      peekBatchLength data ≤ kMaxBatchSize) ↔ PlausibleHeader data := by
  constructor
  · rintro ⟨lower, _⟩
    apply peekBatchLength_ne_zero_iff.mp
    exact Nat.ne_of_gt (Nat.lt_of_lt_of_le kPacketHeaderSize_pos lower)
  · intro wellFormed
    exact wellFormed.peek_bounds

/-- The scan stops at the first plausible header, if there is one. -/
theorem findBatchHeaderOffset_spec (data : List Byte) :
    (findBatchHeaderOffset data = data.length ∧
        ∀ offset, ¬PlausibleHeader (data.drop offset)) ∨
      (findBatchHeaderOffset data + kPacketHeaderSize ≤ data.length ∧
        PlausibleHeader (data.drop (findBatchHeaderOffset data)) ∧
        ∀ offset < findBatchHeaderOffset data,
          ¬PlausibleHeader (data.drop offset)) := by
  have inside : ∀ offset, PlausibleHeader (data.drop offset) →
      offset + kPacketHeaderSize ≤ data.length := by
    intro offset wellFormed
    have complete := wellFormed.complete
    simp only [List.length_drop] at complete
    have positive := kPacketHeaderSize_pos
    omega
  unfold findBatchHeaderOffset
  by_cases short : data.length < kPacketHeaderSize
  · rw [if_pos short]
    refine Or.inl ⟨rfl, fun offset wellFormed => ?_⟩
    have := inside offset wellFormed
    omega
  · rw [if_neg short]
    dsimp only
    cases found : (List.range (data.length - kPacketHeaderSize + 1)).find?
        (fun i => decide (kPacketHeaderSize ≤ peekBatchLength (data.drop i) ∧
          peekBatchLength (data.drop i) ≤ kMaxBatchSize)) with
    | none =>
        refine Or.inl ⟨rfl, fun offset wellFormed => ?_⟩
        have bound := inside offset wellFormed
        have tested := List.find?_eq_none.mp found offset
          (by simp only [List.mem_range]; omega)
        simp only [inBatchRange_iff, decide_eq_true_eq] at tested
        exact tested wellFormed
    | some offset =>
        obtain ⟨test, _, before⟩ := List.find?_range_eq_some.mp found
        simp only [inBatchRange_iff, decide_eq_true_eq] at test
        refine Or.inr ⟨inside offset test, test, ?_⟩
        intro earlier below wellFormed
        have rejected := before earlier below
        simp [inBatchRange_iff.mpr wellFormed] at rejected

theorem findNextLoop_mem (data : List Byte) (wantSeq : Option Word)
    (offsets : List Nat) (wireBatchTotal : Option Word) :
    (findNextLoop data wantSeq offsets wireBatchTotal).1 = data.length ∨
      (findNextLoop data wantSeq offsets wireBatchTotal).1 ∈ offsets := by
  induction offsets generalizing wireBatchTotal with
  | nil => exact Or.inl rfl
  | cons offset offsets induction =>
      have later : ∀ total,
          (findNextLoop data wantSeq offsets total).1 = data.length ∨
            (findNextLoop data wantSeq offsets total).1 ∈
              offset :: offsets := by
        intro total
        rcases induction total with none | found
        · exact Or.inl none
        · exact Or.inr (List.mem_cons_of_mem _ found)
      simp only [findNextLoop]
      split
      · exact later _
      · split
        · exact later _
        · split
          · exact later _
          · split
            · exact later _
            · split
              · exact later _
              · split
                · exact later _
                · exact Or.inr List.mem_cons_self

/-- A candidate of the second scan for session `total`. -/
def nextCandidate (wantSeq : Option Word) (total : Word) (data : List Byte) :
    Bool :=
  decide (peekBatchLength data ≠ 0) &&
    wantSeq.all (fun want => (PacketHeader.decode data).seq = want) &&
    decide ((PacketHeader.decode data).batchTotal = total)

theorem nextCandidate_iff {wantSeq : Option Word} {total : Word}
    {data : List Byte} :
    nextCandidate wantSeq total data = true ↔
      PlausibleHeader data ∧
        (∀ want, wantSeq = some want →
          (PacketHeader.decode data).seq = want) ∧
        (PacketHeader.decode data).batchTotal = total := by
  cases wantSeq <;>
    simp [nextCandidate, peekBatchLength_eq_zero_iff, and_assoc]

theorem findNextLoop_take {data : List Byte} {wantSeq : Option Word}
    {total : Word} {offset : Nat} (offsets : List Nat)
    (candidate : nextCandidate wantSeq total (data.drop offset) = true) :
    findNextLoop data wantSeq (offset :: offsets) (some total) =
      (offset, some total) := by
  obtain ⟨wellFormed, wanted, same⟩ := nextCandidate_iff.mp candidate
  have bounds := wellFormed.peek_bounds
  have inRange : ¬(peekBatchLength (data.drop offset) < kPacketHeaderSize ∨
      kMaxBatchSize < peekBatchLength (data.drop offset)) :=
    not_or.mpr ⟨Nat.not_lt.mpr bounds.1, Nat.not_lt.mpr bounds.2⟩
  have session : SameSession (some total)
      (PacketHeader.decode (data.drop offset)) := by
    intro known equal
    cases equal
    exact same
  have checked := validateBatchSession_ok wellFormed.plausible_meta session
  have notOther : wantSeq.any (fun want =>
      (PacketHeader.decode (data.drop offset)).seq ≠ want) = false := by
    cases wantSeq with
    | none => rfl
    | some want => simp [wanted want rfl]
  rw [findNextLoop]
  simp only [if_neg inRange, wellFormed.plausible_meta, notOther, checked]
  simp [same, wellFormed.peekBatchLength_eq]

theorem findNextLoop_skip {data : List Byte} {wantSeq : Option Word}
    {total : Word} {offset : Nat} (offsets : List Nat)
    (other : ¬nextCandidate wantSeq total (data.drop offset) = true) :
    findNextLoop data wantSeq (offset :: offsets) (some total) =
      findNextLoop data wantSeq offsets (some total) := by
  rw [nextCandidate_iff] at other
  rw [findNextLoop]
  by_cases outOfRange :
      peekBatchLength (data.drop offset) < kPacketHeaderSize ∨
        kMaxBatchSize < peekBatchLength (data.drop offset)
  · exact if_pos outOfRange
  · have wellFormed : PlausibleHeader (data.drop offset) := by
      apply inBatchRange_iff.mp
      omega
    simp only [if_neg outOfRange, wellFormed.plausible_meta, Bool.not_true,
      Bool.false_eq_true, if_false, Option.any_some]
    by_cases wanted : (wantSeq.any fun want =>
        decide ((PacketHeader.decode (data.drop offset)).seq ≠ want)) = true
    · exact if_pos wanted
    · by_cases same :
          (PacketHeader.decode (data.drop offset)).batchTotal = total
      · refine absurd ⟨wellFormed, ?_, same⟩ other
        intro want equal
        subst equal
        simpa using wanted
      · rw [if_neg wanted, if_pos (decide_eq_true same)]

/-- With the session total known, the scan returns the first candidate and
leaves the total alone. -/
theorem findNextLoop_eq_find (data : List Byte) (wantSeq : Option Word)
    (total : Word) (offsets : List Nat) :
    findNextLoop data wantSeq offsets (some total) =
      ((offsets.find? fun i => nextCandidate wantSeq total (data.drop i)).getD
        data.length, some total) := by
  induction offsets with
  | nil => rfl
  | cons offset offsets induction =>
      rw [List.find?_cons]
      by_cases candidate :
          nextCandidate wantSeq total (data.drop offset) = true
      · simp only [findNextLoop_take offsets candidate, candidate,
          Option.getD_some]
      · rw [findNextLoop_skip offsets candidate, induction]
        simp only [Bool.not_eq_true] at candidate
        simp only [candidate]

/-- The tail of a batch that is worth ingesting again, with the total the
session has when the batch is judged. -/
def salvaged (total : Option Word) (batch : List Byte) : List Byte :=
  (salvageCarry (PacketHeader.decode batch) batch batch.length total).1

/-- A salvaged tail is a proper suffix that starts with a complete batch. -/
theorem salvaged_spec (total : Option Word) (batch : List Byte) :
    salvaged total batch = [] ∨
      ∃ offset, 0 < offset ∧ offset < batch.length ∧
        salvaged total batch = batch.drop offset ∧
        ∃ size ≤ batch.length - offset,
          ValidBatch ((batch.drop offset).take size) := by
  unfold salvaged salvageCarry
  by_cases long : kPacketHeaderSize < batch.length
  · rw [if_pos long]
    dsimp only
    generalize found : (findNextBatchHeaderOffset (batch.take batch.length)
      (wantedSeq (PacketHeader.decode batch)) total) = next
    by_cases below : next.1 < batch.length
    · rw [if_pos below]
      by_cases complete :
          (PacketHeader.decode (batch.drop next.1)).length.toNat ≤
              batch.length - next.1 ∧
            validateBatch (batch.drop next.1)
              (PacketHeader.decode (batch.drop next.1)).length.toNat = .ok
      · rw [if_pos complete]
        refine Or.inr ⟨_, ?_, below, rfl, _, complete.1, ?_⟩
        · have range := findNextLoop_mem batch
            (wantedSeq (PacketHeader.decode batch))
            (List.range' 1 (batch.length - kPacketHeaderSize)) total
          rw [List.take_length, findNextBatchHeaderOffset,
            if_neg (Nat.not_lt.mpr (Nat.le_of_lt long))] at found
          rw [found] at range
          rcases range with last | member
          · exact absurd last (Nat.ne_of_lt below)
          · exact (List.mem_range'_1.mp member).1
        · apply ValidBatch.of_validateBatch _ complete.2
          simpa using complete.1
      · rw [if_neg complete]
        exact Or.inl rfl
    · rw [if_neg below]
      exact Or.inl rfl
  · rw [if_neg long]
    exact Or.inl rfl

/-- The least offset behind the front of a failed batch where a header of the
session starts that has the sequence number that should come next, if the
header was plausible and was not the last one. -/
structure NextHeader (total : Word) (batch : List Byte) (offset : Nat) :
    Prop where
  behind : 0 < offset
  complete : offset + kPacketHeaderSize ≤ batch.length
  candidate : nextCandidate (wantedSeq (PacketHeader.decode batch)) total
    (batch.drop offset) = true
  first : ∀ earlier, 0 < earlier → earlier < offset →
    nextCandidate (wantedSeq (PacketHeader.decode batch)) total
      (batch.drop earlier) = false

/-- A failed batch has a tail worth salvaging: the next header behind its
front starts a complete valid batch. -/
def Rescued (total : Word) (batch : List Byte) (offset : Nat) : Prop :=
  NextHeader total batch offset ∧
    (PacketHeader.decode (batch.drop offset)).length.toNat ≤
      batch.length - offset ∧
    validateBatch (batch.drop offset)
      (PacketHeader.decode (batch.drop offset)).length.toNat = .ok

theorem nextHeader_iff {total : Word} {batch : List Byte} {offset : Nat} :
    NextHeader total batch offset ↔
      kPacketHeaderSize ≤ batch.length ∧
        (List.range' 1 (batch.length - kPacketHeaderSize)).find?
          (fun i => nextCandidate (wantedSeq (PacketHeader.decode batch))
            total (batch.drop i)) = some offset := by
  rw [List.find?_range'_eq_some, List.mem_range'_1]
  constructor
  · intro next
    have behind := next.behind
    have complete := next.complete
    refine ⟨by omega, next.candidate, ⟨behind, by omega⟩, ?_⟩
    intro earlier positive below
    simp [next.first earlier positive below]
  · rintro ⟨long, candidate, ⟨behind, within⟩, first⟩
    refine ⟨behind, by omega, candidate, ?_⟩
    intro earlier positive below
    simpa using first earlier positive below

/-- What is salvaged of a failed batch, without the scan. -/
theorem salvaged_rescued {total : Word} {batch : List Byte} {offset : Nat}
    (rescued : Rescued total batch offset) :
    salvaged (some total) batch = batch.drop offset := by
  obtain ⟨next, fits, valid⟩ := rescued
  have behind := next.behind
  have complete := next.complete
  obtain ⟨long, found⟩ := nextHeader_iff.mp next
  have longer : kPacketHeaderSize < batch.length := by omega
  have inside : offset < batch.length := by
    have positive := kPacketHeaderSize_pos
    omega
  simp only [salvaged, salvageCarry, if_pos longer, List.take_length,
    findNextBatchHeaderOffset, if_neg (Nat.not_lt.mpr long),
    findNextLoop_eq_find, found, Option.getD_some, if_pos inside]
  rw [if_pos ⟨fits, valid⟩]

theorem rescued_of_salvaged {total : Word} {batch : List Byte}
    (carried : salvaged (some total) batch ≠ []) :
    ∃ offset, Rescued total batch offset := by
  unfold salvaged salvageCarry at carried
  by_cases long : kPacketHeaderSize < batch.length
  · simp only [if_pos long, List.take_length, findNextBatchHeaderOffset,
      if_neg (Nat.not_lt.mpr (Nat.le_of_lt long)),
      findNextLoop_eq_find] at carried
    cases found : (List.range' 1 (batch.length - kPacketHeaderSize)).find?
        (fun i => nextCandidate (wantedSeq (PacketHeader.decode batch))
          total (batch.drop i)) with
    | none => simp [found] at carried
    | some offset =>
        rw [found, Option.getD_some] at carried
        refine ⟨offset, nextHeader_iff.mpr ⟨Nat.le_of_lt long, found⟩, ?_⟩
        by_cases below : offset < batch.length
        · rw [if_pos below] at carried
          by_contra incomplete
          rw [if_neg incomplete] at carried
          exact carried rfl
        · rw [if_neg below] at carried
          exact absurd rfl carried
  · rw [if_neg long] at carried
    exact absurd rfl carried

/-- How far a rejected batch moves the receiver on. -/
def rejectedAdvance (total : Option Word) (batch : List Byte) : Nat :=
  batch.length - (salvaged total batch).length

theorem rejectedAdvance_le (total : Option Word) (batch : List Byte) :
    rejectedAdvance total batch ≤ batch.length :=
  Nat.sub_le _ _

/-- A salvaged tail is shorter than the batch it is salvaged from. -/
theorem salvaged_length_lt {total : Option Word} {batch : List Byte}
    (nonempty : 0 < batch.length) :
    (salvaged total batch).length < batch.length := by
  rcases salvaged_spec total batch with none | ⟨offset, positive, below, tail, _⟩
  · rw [none]
    exact nonempty
  · rw [tail, List.length_drop]
    omega

theorem rejectedAdvance_pos {total : Option Word} {batch : List Byte}
    (nonempty : 0 < batch.length) : 0 < rejectedAdvance total batch :=
  Nat.sub_pos_of_lt (salvaged_length_lt nonempty)

/-- The salvaged tail is what follows the advance. -/
theorem salvaged_eq_drop (total : Option Word) (batch : List Byte) :
    salvaged total batch = batch.drop (rejectedAdvance total batch) := by
  unfold rejectedAdvance
  rcases salvaged_spec total batch with none | ⟨offset, positive, below, tail, _⟩
  · simp [none]
  · rw [tail, List.length_drop]
    congr 1
    omega

/-- With the session total known, judging a batch does not change it. -/
theorem salvageCarry_total (header : PacketHeader) (batch : List Byte)
    (batchLen : Nat) (total : Word) :
    (salvageCarry header batch batchLen (some total)).2 = some total := by
  have unchanged :
      (findNextBatchHeaderOffset (batch.take batchLen) (wantedSeq header)
        (some total)).2 = some total := by
    unfold findNextBatchHeaderOffset
    split
    · rfl
    · simp [findNextLoop_eq_find]
  unfold salvageCarry
  split
  · dsimp only
    split
    · split
      · exact unchanged
      · exact unchanged
    · exact unchanged
  · rfl

end BoostUdp
