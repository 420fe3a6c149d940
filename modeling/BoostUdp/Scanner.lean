import BoostUdp.Server.Salvage
import BoostUdp.StreamMachine

/-!
# The receiver as a scanner of one byte stream

The receiver's purpose, without buffers and datagrams: a scanner stands at a
position of the stream.  Hunting, it tests whether a header of the session
starts there and otherwise moves on by one byte.  Collecting, it waits until
the announced batch has arrived in full, judges it, and moves past it or, when
the batch fails, to the salvaged tail.

A batch that is only a header is judged when the byte after it has arrived.
-/

namespace BoostUdp

open LittleEndian StreamMachine

/-- A batch length that a plausible header can announce. -/
structure BatchLength where
  value : Nat
  atLeast : kPacketHeaderSize ≤ value
  atMost : value ≤ kMaxPacketLength

def PlausibleHeader.batchLength {data : List Byte}
    (wellFormed : PlausibleHeader data) : BatchLength :=
  { value := (PacketHeader.decode data).length.toNat
    atLeast := wellFormed.length_ge
    atMost := wellFormed.length_le }

structure ScanState where
  total : Option Word := none
  collecting : Option BatchLength := none

/-- What the scanner finds out about the stream. -/
inductive Verdict where
  | started (header : PacketHeader)
  | accepted (batch : List Byte)
  | rejected (batch : List Byte) (carry : Nat)
  deriving DecidableEq, Repr

/-- A header that starts a reassembly. -/
structure SessionHeader (total : Option Word) (data : List Byte) : Prop where
  wellFormed : PlausibleHeader data
  same : SameSession total (PacketHeader.decode data)

instance (data : List Byte) : Decidable (PlausibleHeader data) :=
  decidable_of_iff _ peekBatchLength_ne_zero_iff

instance (total : Option Word) (data : List Byte) :
    Decidable (SessionHeader total data) :=
  decidable_of_iff
    (PlausibleHeader data ∧ SameSession total (PacketHeader.decode data))
    ⟨fun both => ⟨both.1, both.2⟩, fun header => ⟨header.1, header.2⟩⟩

theorem sessionHeader_append_iff {total : Option Word} {data : List Byte}
    (complete : kPacketHeaderSize ≤ data.length) (more : List Byte) :
    SessionHeader total (data ++ more) ↔ SessionHeader total data := by
  have sameHeader := PacketHeader.decode_append complete more
  have samePlausible := plausibleHeader_append_iff complete more
  constructor
  · rintro ⟨wellFormed, same⟩
    exact ⟨samePlausible.mp wellFormed, sameHeader ▸ same⟩
  · rintro ⟨wellFormed, same⟩
    exact ⟨samePlausible.mpr wellFormed, sameHeader.symm ▸ same⟩

/-- The test of a collected batch. -/
def judge (total : Option Word) (batch : List Byte) :
    Move ScanState Verdict :=
  if ValidBatch batch then
    { next := { total := total }
      count := batch.length
      outputs := [.accepted batch] }
  else
    { next := { total := total }
      count := rejectedAdvance total batch
      outputs := [.rejected batch (salvaged total batch).length] }

def scanStep (state : ScanState) (input : List Byte) :
    Option (Move ScanState Verdict) :=
  match state.collecting with
  | none =>
      if input.length < kPacketHeaderSize then
        none
      else if header : SessionHeader state.total input then
        some
          { next :=
              { total := some (PacketHeader.decode input).batchTotal
                collecting := some header.wellFormed.batchLength }
            count := 0
            outputs := [.started (PacketHeader.decode input)] }
      else
        some { next := state, count := 1, outputs := [] }
  | some expected =>
      if input.length < expected.value ∨
          input.length ≤ kPacketHeaderSize then
        none
      else
        some (judge state.total (input.take expected.value))

theorem judge_count_le (total : Option Word) (batch : List Byte) :
    (judge total batch).count ≤ batch.length := by
  unfold judge
  split
  · exact Nat.le_refl _
  · exact rejectedAdvance_le total batch

theorem judge_count_pos {total : Option Word} {batch : List Byte}
    (nonempty : 0 < batch.length) : 0 < (judge total batch).count := by
  unfold judge
  split
  · exact nonempty
  · exact rejectedAdvance_pos nonempty

@[simp] theorem judge_next (total : Option Word) (batch : List Byte) :
    (judge total batch).next = { total := total } := by
  unfold judge
  split <;> rfl

theorem scanStep_hunting_short {total : Option Word} {input : List Byte}
    (short : input.length < kPacketHeaderSize) :
    scanStep { total := total } input = none := by
  simp [scanStep, short]

theorem scanStep_hunting_header {total : Option Word} {input : List Byte}
    (header : SessionHeader total input) :
    scanStep { total := total } input =
      some
        { next :=
            { total := some (PacketHeader.decode input).batchTotal
              collecting := some header.wellFormed.batchLength }
          count := 0
          outputs := [.started (PacketHeader.decode input)] } := by
  have complete := header.wellFormed.complete
  simp [scanStep, Nat.not_lt.mpr complete, header]

theorem scanStep_hunting_skip {total : Option Word} {input : List Byte}
    (complete : kPacketHeaderSize ≤ input.length)
    (other : ¬SessionHeader total input) :
    scanStep { total := total } input =
      some { next := { total := total }, count := 1, outputs := [] } := by
  simp [scanStep, Nat.not_lt.mpr complete, other]

theorem scanStep_collecting_short {total : Option Word}
    {expected : BatchLength} {input : List Byte}
    (short : input.length < expected.value ∨
      input.length ≤ kPacketHeaderSize) :
    scanStep { total := total, collecting := some expected } input = none := by
  simp [scanStep, short]

theorem scanStep_collecting_judge {total : Option Word}
    {expected : BatchLength} {input : List Byte}
    (arrived : expected.value ≤ input.length)
    (beyond : kPacketHeaderSize < input.length) :
    scanStep { total := total, collecting := some expected } input =
      some (judge total (input.take expected.value)) := by
  simp [scanStep, Nat.not_lt.mpr arrived, Nat.not_le.mpr beyond]

/-- Every move is one of three. -/
inductive ScanStep (state : ScanState) (input : List Byte) :
    Move ScanState Verdict → Prop where
  | header (header : SessionHeader state.total input)
      (hunting : state.collecting = none) :
      ScanStep state input
        { next :=
            { total := some (PacketHeader.decode input).batchTotal
              collecting := some header.wellFormed.batchLength }
          count := 0
          outputs := [.started (PacketHeader.decode input)] }
  | skip (hunting : state.collecting = none)
      (complete : kPacketHeaderSize ≤ input.length)
      (other : ¬SessionHeader state.total input) :
      ScanStep state input { next := state, count := 1, outputs := [] }
  | judge (expected : BatchLength)
      (collecting : state.collecting = some expected)
      (arrived : expected.value ≤ input.length)
      (beyond : kPacketHeaderSize < input.length) :
      ScanStep state input
        (BoostUdp.judge state.total (input.take expected.value))

theorem scanStep_cases {state : ScanState} {input : List Byte}
    {move : Move ScanState Verdict}
    (stepped : scanStep state input = some move) :
    ScanStep state input move := by
  unfold scanStep at stepped
  cases phase : state.collecting with
  | none =>
      rw [phase] at stepped
      dsimp only at stepped
      by_cases short : input.length < kPacketHeaderSize
      · rw [if_pos short] at stepped
        contradiction
      · rw [if_neg short] at stepped
        by_cases header : SessionHeader state.total input
        · rw [dif_pos header] at stepped
          cases stepped
          exact .header header phase
        · rw [dif_neg header] at stepped
          cases stepped
          exact .skip phase (Nat.not_lt.mp short) header
  | some expected =>
      rw [phase] at stepped
      dsimp only at stepped
      by_cases short : input.length < expected.value ∨
          input.length ≤ kPacketHeaderSize
      · rw [if_pos short] at stepped
        contradiction
      · rw [if_neg short] at stepped
        cases stepped
        rw [not_or, Nat.not_lt, Nat.not_le] at short
        exact .judge expected phase short.1 short.2

theorem scanStep_stable {state : ScanState} {input : List Byte}
    {move : Move ScanState Verdict} (more : List Byte)
    (stepped : scanStep state input = some move) :
    scanStep state (input ++ more) = some move := by
  obtain ⟨total, collecting⟩ := state
  cases scanStep_cases stepped with
  | header header hunting =>
      dsimp only at hunting header ⊢
      subst hunting
      have extended := (sessionHeader_append_iff
        header.wellFormed.complete more).mpr header
      have sameHeader := PacketHeader.decode_append
        header.wellFormed.complete more
      rw [scanStep_hunting_header extended]
      simp [PlausibleHeader.batchLength, sameHeader]
  | skip hunting complete other =>
      dsimp only at hunting other ⊢
      subst hunting
      have extended := (sessionHeader_append_iff complete more).not.mpr other
      apply scanStep_hunting_skip _ extended
      simpa using Nat.le_add_right_of_le complete
  | judge expected collecting arrived beyond =>
      dsimp only at collecting ⊢
      subst collecting
      rw [scanStep_collecting_judge
        (by simpa using Nat.le_add_right_of_le arrived)
        (by simpa using Nat.lt_add_right _ beyond),
        List.take_append_of_le_length arrived]

/-- Collecting ranks below hunting: a header starts a reassembly without
consuming anything. -/
def ScanState.rank (state : ScanState) : Nat :=
  match state.collecting with
  | none => 1
  | some _ => 0

def scanner : StreamMachine ScanState Byte Verdict where
  step := scanStep
  rank := ScanState.rank
  consumes := by
    intro state input move stepped
    cases scanStep_cases stepped with
    | header =>
        exact Nat.zero_le _
    | skip _ complete =>
        exact Nat.le_trans kPacketHeaderSize_pos complete
    | judge expected _ arrived =>
        have bound := judge_count_le state.total (input.take expected.value)
        rw [List.length_take_of_le arrived] at bound
        omega
  progress := by
    intro state input move stepped
    cases scanStep_cases stepped with
    | header _ hunting =>
        simp [ScanState.rank, hunting]
    | skip =>
        exact Or.inl Nat.one_pos
    | judge expected _ arrived =>
        have atLeast := expected.atLeast
        apply Or.inl
        apply judge_count_pos
        rw [List.length_take_of_le arrived]
        exact Nat.lt_of_lt_of_le kPacketHeaderSize_pos atLeast
  stable := by
    intro state input move more stepped
    exact scanStep_stable more stepped

abbrev ScanConfig := Config ScanState Byte Verdict

/-- A scanner at the start of a session. -/
def ScanConfig.fresh : ScanConfig :=
  { state := {}, position := 0, pending := [], trail := [] }

theorem advance_fresh : scanner.advance ScanConfig.fresh = none := by
  apply scanner.advance_eq_none
  change scanStep { total := none } [] = none
  exact scanStep_hunting_short (by decide)

/-- The scan of a whole stream. -/
def scan (stream : List Byte) : ScanConfig :=
  scanner.feed ScanConfig.fresh stream

end BoostUdp
