import BoostUdp.Server.Checked

/-!
# Every access stays inside its buffer

From a fresh state the checked receiver never faults, whatever it is sent: it
returns what the receiver returns, and so every read, copy and erasure is
inside its buffer, the representation invariant holds after every call of
`ingest_fragment`, nested calls included, and the branches that are faults
there are never taken.
-/

namespace BoostUdp

open LittleEndian StreamMachine BoundsChecked

namespace Checked

section Headers

variable {buffer : List Byte} {start : Nat}

theorem readHeader_ok (inside : start + kPacketHeaderSize ≤ buffer.length) :
    readHeader buffer start =
      .ok (PacketHeader.decode (buffer.drop start)) := by
  have complete : kPacketHeaderSize ≤ (buffer.drop start).length := by
    rw [List.length_drop]
    omega
  rw [readHeader, readAt_ok inside, ok_bind,
    PacketHeader.decode_take (Nat.le_refl _) complete]
  rfl

theorem peekBatchLength_ok {available : Nat}
    (inside : start + available ≤ buffer.length) :
    peekBatchLength buffer start available =
      .ok (BoostUdp.peekBatchLength ((buffer.drop start).take available)) := by
  have fits : available ≤ (buffer.drop start).length := by
    rw [List.length_drop]
    omega
  unfold peekBatchLength BoostUdp.peekBatchLength
  rw [List.length_take_of_le fits]
  refine ok_ite (fun _ => rfl) fun long => ?_
  have complete := Nat.not_lt.mp long
  rw [readHeader_ok (by omega), ok_bind,
    PacketHeader.decode_take complete fits]
  refine ok_ite (fun _ => rfl) fun _ => ?_
  exact ok_ite (fun _ => rfl) fun _ => rfl

theorem validateBatch_ok {receivedLength : Nat}
    (inside : start + receivedLength ≤ buffer.length) :
    validateBatch buffer start receivedLength =
      .ok (BoostUdp.validateBatch (buffer.drop start) receivedLength) := by
  have sameCrc : batchCrc32 ((buffer.drop start).take receivedLength)
      receivedLength = batchCrc32 (buffer.drop start) receivedLength := by
    rw [batchCrc32, batchCrc32, List.take_take, Nat.min_self]
  unfold validateBatch BoostUdp.validateBatch
  refine ok_ite (fun _ => rfl) fun long => ?_
  rw [readHeader_ok (by omega), ok_bind]
  refine ok_ite (fun _ => rfl) fun _ => ?_
  refine ok_ite (fun _ => rfl) fun _ => ?_
  refine ok_ite (fun _ => rfl) fun _ => ?_
  rw [readAt_ok inside, ok_bind, sameCrc]
  exact ok_ite (fun _ => rfl) fun _ => rfl

end Headers

theorem findLoop_ok {buffer : List Byte} {start length : Nat}
    (inside : start + length ≤ buffer.length) (offsets : List Nat)
    (within : ∀ i ∈ offsets, i ≤ length) :
    findLoop buffer start length offsets =
      .ok ((offsets.find? fun i =>
        decide
          (kPacketHeaderSize ≤ BoostUdp.peekBatchLength
              (((buffer.drop start).take length).drop i) ∧
            BoostUdp.peekBatchLength
              (((buffer.drop start).take length).drop i) ≤
                kMaxBatchSize)).getD length) := by
  induction offsets with
  | nil => rfl
  | cons i rest induction =>
      have bound := within i List.mem_cons_self
      have later := induction fun other member =>
        within other (List.mem_cons_of_mem _ member)
      have same : (buffer.drop (start + i)).take (length - i) =
          ((buffer.drop start).take length).drop i := by
        rw [List.drop_take, List.drop_drop]
      rw [findLoop, peekBatchLength_ok (by omega), ok_bind, same, later,
        List.find?_cons]
      generalize BoostUdp.peekBatchLength
        (((buffer.drop start).take length).drop i) = batchLen
      by_cases found :
          kPacketHeaderSize ≤ batchLen ∧ batchLen ≤ kMaxBatchSize
      · simp only [if_pos found, decide_eq_true found, Option.getD_some]
      · simp only [if_neg found, decide_eq_false found]

theorem findBatchHeaderOffset_ok {buffer : List Byte} {start length : Nat}
    (inside : start + length ≤ buffer.length) :
    findBatchHeaderOffset buffer start length =
      .ok (BoostUdp.findBatchHeaderOffset
        ((buffer.drop start).take length)) := by
  have fits : ((buffer.drop start).take length).length = length := by
    rw [List.length_take_of_le]
    rw [List.length_drop]
    omega
  unfold findBatchHeaderOffset BoostUdp.findBatchHeaderOffset
  rw [fits]
  refine ok_ite (fun _ => rfl) fun long => ?_
  apply findLoop_ok inside
  intro i member
  rw [List.mem_range] at member
  omega

theorem findNextLoop_ok {buffer : List Byte} {length : Nat}
    (inside : length ≤ buffer.length) (wantSeq : Option Word)
    (offsets : List Nat)
    (within : ∀ i ∈ offsets, i + kPacketHeaderSize ≤ length)
    (wireBatchTotal : Option Word) :
    findNextLoop buffer length wantSeq offsets wireBatchTotal =
      .ok (BoostUdp.findNextLoop (buffer.take length) wantSeq offsets
        wireBatchTotal) := by
  induction offsets generalizing wireBatchTotal with
  | nil =>
      rw [findNextLoop, BoostUdp.findNextLoop, List.length_take_of_le inside]
  | cons i rest induction =>
      have bound := within i List.mem_cons_self
      have later := induction fun other member =>
        within other (List.mem_cons_of_mem _ member)
      have same : (buffer.drop i).take (length - i) =
          (buffer.take length).drop i := List.drop_take.symm
      have sameHeader : PacketHeader.decode (buffer.drop i) =
          PacketHeader.decode ((buffer.take length).drop i) := by
        rw [← same]
        apply (PacketHeader.decode_take _ _).symm
        · omega
        · rw [List.length_drop]
          omega
      rw [findNextLoop, BoostUdp.findNextLoop, peekBatchLength_ok (by omega),
        ok_bind, same]
      refine ok_ite (fun _ => later _) fun _ => ?_
      rw [readHeader_ok (by omega), ok_bind, sameHeader]
      refine ok_ite (fun _ => later _) fun _ => ?_
      refine ok_ite (fun _ => later _) fun _ => ?_
      refine ok_ite (fun _ => later _) fun _ => ?_
      refine ok_ite (fun _ => later _) fun _ => ?_
      exact ok_ite (fun _ => later _) fun _ => rfl

theorem findNextBatchHeaderOffset_ok {buffer : List Byte} {length : Nat}
    (inside : length ≤ buffer.length) (wantSeq wireBatchTotal : Option Word) :
    findNextBatchHeaderOffset buffer length wantSeq wireBatchTotal =
      .ok (BoostUdp.findNextBatchHeaderOffset (buffer.take length) wantSeq
        wireBatchTotal) := by
  unfold findNextBatchHeaderOffset BoostUdp.findNextBatchHeaderOffset
  rw [List.length_take_of_le inside]
  refine ok_ite (fun _ => rfl) fun long => ?_
  apply findNextLoop_ok inside
  intro i member
  rw [List.mem_range'_1] at member
  omega

/-- A header that the second scan returns is inside the buffer. -/
theorem findNextBatchHeaderOffset_inside {buffer : List Byte}
    {wantSeq wireBatchTotal : Option Word}
    (found : (BoostUdp.findNextBatchHeaderOffset buffer wantSeq
      wireBatchTotal).1 < buffer.length) :
    (BoostUdp.findNextBatchHeaderOffset buffer wantSeq
      wireBatchTotal).1 + kPacketHeaderSize ≤ buffer.length := by
  unfold BoostUdp.findNextBatchHeaderOffset at found ⊢
  by_cases short : buffer.length < kPacketHeaderSize
  · rw [if_pos short] at found
    exact absurd found (Nat.lt_irrefl _)
  · rw [if_neg short] at found ⊢
    dsimp only at found ⊢
    rcases findNextLoop_mem buffer wantSeq
      (List.range' 1 (buffer.length - kPacketHeaderSize)) wireBatchTotal with
      last | member
    · exact absurd last (Nat.ne_of_lt found)
    · rw [List.mem_range'_1] at member
      omega

theorem salvageCarry_ok (header : PacketHeader) (buffer : List Byte)
    (wireBatchTotal : Option Word) :
    salvageCarry header buffer buffer.length wireBatchTotal =
      .ok (BoostUdp.salvageCarry header buffer buffer.length
        wireBatchTotal) := by
  unfold salvageCarry BoostUdp.salvageCarry
  rw [findNextBatchHeaderOffset_ok (Nat.le_refl _), ok_bind,
    List.take_length]
  refine ok_ite (fun _ => ?_) fun _ => rfl
  dsimp only
  refine ok_ite (fun below => ?_) fun _ => rfl
  have complete := findNextBatchHeaderOffset_inside below
  rw [readHeader_ok complete, ok_bind, ite_and]
  refine ok_ite (fun fits => ?_) fun _ => rfl
  rw [validateBatch_ok (by omega), ok_bind]
  refine ok_ite (fun _ => ?_) fun _ => rfl
  rw [eraseFront_ok (Nat.le_of_lt below), ok_bind]

/-- A batch that its plausible header announces passes or fails its
checksum. -/
theorem validateBatch_announced {batch : List Byte}
    (wellFormed : PlausibleHeader batch)
    (length : (PacketHeader.decode batch).length.toNat = batch.length) :
    BoostUdp.validateBatch batch batch.length = .ok ∨
      BoostUdp.validateBatch batch batch.length = .badCrc := by
  have long := Nat.not_lt.mpr wellFormed.complete
  unfold BoostUdp.validateBatch
  simp only [if_neg long, wellFormed.magic, length, ne_eq, not_true_eq_false,
    if_false, wellFormed.plausible_meta, Bool.not_true, Bool.false_eq_true]
  by_cases same :
      (PacketHeader.decode batch).crc32 = batchCrc32 batch batch.length
  · exact Or.inl (if_neg (not_not_intro same))
  · exact Or.inr (if_pos same)

theorem ok_of_toOption {call : Except Fault Receiver}
    {result : Bool × Receiver}
    (completed : call.toOption.map (fun after => (false, after)) =
      some result) :
    (call >>= fun after => Except.ok (false, after)) = .ok result := by
  cases call with
  | error fault => contradiction
  | ok after =>
      cases completed
      rfl

/-- What the receiver does with a full buffer the checked one does too, when
the header at its front announces the batch. -/
theorem tryCompleteBatch_ok {receiver : Receiver} {batch : List Byte}
    (filled : Filled receiver batch)
    (length : (PacketHeader.decode batch).length.toNat = batch.length)
    {ingest : Receiver → List Byte → Except Fault Receiver}
    {result : Bool × Receiver}
    (completed : BoostUdp.tryCompleteBatch
      (fun receiver carry => (ingest receiver carry).toOption) receiver =
        some result) :
    tryCompleteBatch ingest receiver = .ok result := by
  have long := Nat.not_lt.mpr filled.header.complete
  unfold BoostUdp.tryCompleteBatch at completed
  unfold tryCompleteBatch
  simp only [filled.buffer, filled.expected, if_neg long,
    filled.session_check, ne_eq, not_true_eq_false, if_false,
    Receiver.setWireBatchTotal_self] at completed ⊢
  rw [readHeader_ok (by have := filled.header.complete; omega), ok_bind,
    List.drop_zero, filled.session_check]
  simp only [not_true_eq_false, if_false, Receiver.setWireBatchTotal_self]
  rw [validateBatch_ok (by omega), ok_bind, List.drop_zero, salvageCarry_ok]
  rcases validateBatch_announced filled.header length with valid | failed
  · simp only [valid, not_true_eq_false, if_false] at completed ⊢
    cases completed
    rfl
  · simp only [failed, if_true, ok_bind] at completed ⊢
    rw [if_pos (by decide)] at completed
    generalize BoostUdp.salvageCarry _ _ _ _ = salvage at completed ⊢
    by_cases none : salvage.1.isEmpty = true
    · rw [if_pos none] at completed ⊢
      cases completed
      rfl
    · rw [if_neg none] at completed ⊢
      exact ok_of_toOption completed

/-- A turn of the checked loop, with what is unread instead of the
position. -/
def Turn.unread (data : List Byte) : Turn → BoostUdp.Turn
  | .leave receiver => .leave receiver
  | .again receiver offset => .again receiver (data.drop offset)

/-- The checked turn is the turn, at a position inside the datagram. -/
def TurnOk (data : List Byte) (turn : BoostUdp.Turn)
    (checked : Except Fault Turn) : Prop :=
  ∃ result, checked = .ok result ∧ result.unread data = turn

theorem TurnOk.ite {data : List Byte} {condition : Prop}
    [Decidable condition] {turn other : BoostUdp.Turn}
    {checked checked' : Except Fault Turn}
    (holds : condition → TurnOk data turn checked)
    (fails : ¬condition → TurnOk data other checked') :
    TurnOk data (if condition then turn else other)
      (if condition then checked else checked') := by
  by_cases test : condition
  · rw [if_pos test, if_pos test]
    exact holds test
  · rw [if_neg test, if_neg test]
    exact fails test

theorem fillHeader_ok (data : List Byte) (missing : Nat)
    (buffer : List Byte) (offset : Nat) :
    fillHeader data missing buffer offset =
      .ok (buffer ++ (data.drop offset).take missing,
        offset + min missing (data.length - offset)) := by
  induction missing generalizing buffer offset with
  | zero => simp [fillHeader]
  | succ missing induction =>
      rw [fillHeader]
      by_cases ended : data.length ≤ offset
      · rw [if_pos ended, List.drop_eq_nil_iff.mpr ended, List.take_nil,
          List.append_nil]
        congr 2
        omega
      · have parts : (data.drop offset).take 1 ++
            (data.drop (offset + 1)).take missing =
              (data.drop offset).take (missing + 1) := by
          rw [Nat.add_comm missing 1, List.take_add, List.drop_drop]
        rw [if_neg ended, readAt_ok (by omega), ok_bind, induction,
          List.append_assoc, parts]
        congr 2
        omega

theorem drop_filled (data : List Byte) (offset missing : Nat) :
    data.drop (offset + min missing (data.length - offset)) =
      (data.drop offset).drop missing := by
  rw [List.drop_drop]
  by_cases enough : missing ≤ data.length - offset
  · rw [Nat.min_eq_left enough]
  · rw [List.drop_eq_nil_iff.mpr (by omega),
      List.drop_eq_nil_iff.mpr (by omega)]

section Whole

variable (buffer : List Byte)

theorem peekBatchLength_whole :
    peekBatchLength buffer 0 buffer.length =
      .ok (BoostUdp.peekBatchLength buffer) := by
  rw [peekBatchLength_ok (Nat.le_of_eq (Nat.zero_add _)), List.drop_zero,
    List.take_length]

theorem findBatchHeaderOffset_whole :
    findBatchHeaderOffset buffer 0 buffer.length =
      .ok (BoostUdp.findBatchHeaderOffset buffer) := by
  rw [findBatchHeaderOffset_ok (Nat.le_of_eq (Nat.zero_add _)),
    List.drop_zero, List.take_length]

end Whole

theorem headerTurn_ok {receiver : Receiver}
    (full : kPacketHeaderSize ≤ receiver.reassembly.buffer.length)
    (data : List Byte) (offset : Nat) :
    TurnOk data (BoostUdp.headerTurn receiver (data.drop offset))
      (headerTurn receiver offset) := by
  have positive := kPacketHeaderSize_pos
  have front : eraseFront Fault.outOfBounds receiver.reassembly.buffer 1 =
      .ok (receiver.reassembly.buffer.drop 1) := eraseFront_ok (by omega)
  unfold headerTurn BoostUdp.headerTurn
  simp only [peekBatchLength_whole, findBatchHeaderOffset_whole, ok_bind,
    front]
  refine TurnOk.ite (fun _ => ?_) fun nonzero => ?_
  · refine TurnOk.ite (fun aligned => ?_) fun _ => ⟨_, rfl, rfl⟩
    rw [eraseFront_ok (Nat.le_of_lt aligned.2.2), ok_bind]
    exact ⟨_, rfl, rfl⟩
  · rw [readHeader_ok (by omega), ok_bind, List.drop_zero]
    have bounds := (peekBatchLength_ne_zero_iff.mp nonzero).peek_bounds
    have inRange : ¬(BoostUdp.peekBatchLength receiver.reassembly.buffer <
        kPacketHeaderSize ∨
          kMaxBatchSize <
            BoostUdp.peekBatchLength receiver.reassembly.buffer) :=
      not_or.mpr ⟨Nat.not_lt.mpr bounds.1, Nat.not_lt.mpr bounds.2⟩
    simp only [if_neg inRange]
    exact TurnOk.ite (fun _ => ⟨_, rfl, rfl⟩) fun _ => ⟨_, rfl, rfl⟩

theorem fillTurn_ok (receiver : Receiver) (data : List Byte) (offset : Nat) :
    TurnOk data (BoostUdp.fillTurn receiver (data.drop offset))
      (fillTurn receiver data offset) := by
  unfold fillTurn BoostUdp.fillTurn
  rw [fillHeader_ok, ok_bind, fillHeader_eq]
  refine TurnOk.ite (fun _ => ⟨_, rfl, rfl⟩) fun full => ?_
  rw [← drop_filled]
  exact headerTurn_ok (Nat.not_lt.mp full) data _

theorem huntTurn_ok (receiver : Receiver) {data : List Byte} {offset : Nat}
    (inside : offset ≤ data.length) :
    TurnOk data (BoostUdp.huntTurn receiver (data.drop offset))
      (huntTurn receiver data offset) := by
  have remaining : (data.drop offset).length = data.length - offset :=
    List.length_drop
  unfold huntTurn BoostUdp.huntTurn
  refine TurnOk.ite (fun _ => ?_) fun _ => fillTurn_ok receiver data offset
  · rw [subtract_ok inside, ok_bind, findBatchHeaderOffset_ok (by omega),
      ok_bind, List.take_of_length_le (Nat.le_of_eq remaining), remaining]
    dsimp only
    refine TurnOk.ite (fun _ => ?_) fun _ => ?_
    · rw [readAt_ok (by omega), ok_bind]
      refine ⟨_, rfl, ?_⟩
      have tail : (data.drop (data.length -
          min (data.length - offset) (kPacketHeaderSize - 1))).take
            (min (data.length - offset) (kPacketHeaderSize - 1)) =
          (data.drop offset).drop (data.length - offset -
            min (data.length - offset) (kPacketHeaderSize - 1)) := by
        rw [List.drop_drop, List.take_of_length_le (by
          rw [List.length_drop]
          omega)]
        congr 1
        omega
      rw [Turn.unread, tail]
    · refine TurnOk.ite (fun _ => ?_) fun _ => fillTurn_ok receiver data offset
      rw [List.drop_drop]
      exact fillTurn_ok _ data _

theorem copyFragment_ok {receiver : Receiver} {config : ScanConfig}
    (collecting : Collecting receiver config) {data : List Byte}
    {offset : Nat} (inside : offset ≤ data.length) :
    ∃ reached, copyFragment receiver data offset =
        .ok ((BoostUdp.copyFragment receiver (data.drop offset)).1,
          reached) ∧
      data.drop reached =
        (BoostUdp.copyFragment receiver (data.drop offset)).2 := by
  have capacity := collecting.capacity
  have upper := collecting.filled_le
  have remaining : (data.drop offset).length = data.length - offset :=
    List.length_drop
  have taken : ∀ count ≤ data.length - offset,
      ((data.drop offset).take count).length = count := by
    intro count below
    apply List.length_take_of_le
    omega
  unfold copyFragment BoostUdp.copyFragment
  dsimp only
  rw [subtract_ok upper, ok_bind, subtract_ok inside, ok_bind,
    readAt_ok (by omega), ok_bind, writeAt_ok (by
      rw [taken _ (Nat.min_le_left _ _)]
      omega), ok_bind, remaining]
  refine ⟨_, ?_, List.drop_drop.symm⟩
  rw [taken _ (Nat.min_le_left _ _)]

end Checked

/-- Between datagrams the representation invariant holds. -/
theorem Tracks.wellFormed {calls : Nat} {receiver : Receiver}
    {config : ScanConfig} (tracks : Tracks calls receiver config) :
    WellFormed receiver := by
  rcases tracks.phase with hunting | collecting
  · exact
      { inactive := by
          intro _
          rw [hunting.reassembly]
          exact ⟨Nat.le_sub_one_of_lt hunting.short, rfl, rfl, rfl⟩
        sizes := by
          intro active
          rw [hunting.idle] at active
          contradiction
        header := by
          intro active
          rw [hunting.idle] at active
          contradiction }
  · have active := collecting.active
    have slices := collecting.slices
    have upper := collecting.header.length_le
    rw [collecting.header_length] at upper
    exact
      { inactive := by
          intro idle
          rw [active] at idle
          contradiction
        sizes := fun _ => ⟨collecting.capacity, collecting.filled_ge,
          collecting.filled_le, upper, by omega⟩
        header := fun _ => ⟨collecting.header.magic,
          collecting.header_length, collecting.header.plausible_meta,
          collecting.session⟩ }

namespace Checked

theorem returned_ok {calls : Nat} {receiver : Receiver}
    {config : ScanConfig} (tracks : Tracks calls receiver config) :
    returned receiver = .ok receiver := by
  rw [returned, require_ok tracks.wellFormed, ok_bind]

section Turns

variable {receiver : Receiver} {data : List Byte} {offset : Nat}
  (more : offset < data.length) (fuel : Nat)

include more

theorem ingestLoop_leave {after : Receiver} {config : ScanConfig}
    (hunting : Hunting receiver config)
    (turn : BoostUdp.huntTurn receiver (data.drop offset) = .leave after) :
    ingestLoop (fuel + 1) receiver data offset = .ok after := by
  obtain ⟨result, checked, same⟩ := huntTurn_ok receiver (Nat.le_of_lt more)
  rw [turn] at same
  rw [ingestLoop, if_neg (Nat.not_le.mpr more)]
  cases result with
  | again => contradiction
  | leave left =>
      cases same
      simp only [hunting.idle, Bool.not_false, if_true, checked, ok_bind]

theorem ingestLoop_again {later : Receiver} {config : ScanConfig}
    {rest : List Byte} (hunting : Hunting receiver config)
    (turn : BoostUdp.huntTurn receiver (data.drop offset) =
      .again later rest) :
    ∃ reached, rest = data.drop reached ∧
      ingestLoop (fuel + 1) receiver data offset =
        ingestLoop fuel later data reached := by
  obtain ⟨result, checked, same⟩ := huntTurn_ok receiver (Nat.le_of_lt more)
  rw [turn] at same
  cases result with
  | leave => contradiction
  | again left reached =>
      cases same
      refine ⟨reached, rfl, ?_⟩
      rw [ingestLoop, if_neg (Nat.not_le.mpr more)]
      simp only [hunting.idle, Bool.not_false, if_true, checked, ok_bind]

theorem ingestLoop_copy {config : ScanConfig}
    (collecting : Collecting receiver config)
    (unfinished :
      (BoostUdp.copyFragment receiver (data.drop offset)).1.reassembly.filled <
        (BoostUdp.copyFragment receiver
          (data.drop offset)).1.reassembly.expected) :
    ∃ reached, data.drop reached =
        (BoostUdp.copyFragment receiver (data.drop offset)).2 ∧
      ingestLoop (fuel + 1) receiver data offset =
        ingestLoop fuel
          (BoostUdp.copyFragment receiver (data.drop offset)).1 data
          reached := by
  obtain ⟨reached, copied, left⟩ :=
    copyFragment_ok collecting (Nat.le_of_lt more)
  refine ⟨reached, left, ?_⟩
  rw [ingestLoop, if_neg (Nat.not_le.mpr more)]
  simp only [collecting.active, Bool.not_true, Bool.false_eq_true, if_false,
    copied, ok_bind, if_neg (Nat.not_le.mpr unfinished)]

theorem ingestLoop_complete {calls : Nat} {config : ScanConfig}
    {batch rest : List Byte} {result : Bool × Receiver}
    (collecting : Collecting receiver config)
    (copied : Copied calls receiver config (data.drop offset) batch rest)
    (completed : BoostUdp.tryCompleteBatch
      (fun receiver carry =>
        (ingestLoop fuel (Receiver.countFragment receiver) carry 0 >>=
          returned).toOption)
      (BoostUdp.copyFragment receiver (data.drop offset)).1 = some result) :
    ∃ reached, rest = data.drop reached ∧
      ingestLoop (fuel + 1) receiver data offset =
        ingestLoop fuel result.2 data reached := by
  obtain ⟨reached, moved, left⟩ :=
    copyFragment_ok collecting (Nat.le_of_lt more)
  have finished := tryCompleteBatch_ok copied.filled copied.header_length
    completed
  refine ⟨reached, copied.left.symm.trans left.symm, ?_⟩
  rw [ingestLoop, if_neg (Nat.not_le.mpr more)]
  simp only [collecting.active, Bool.not_true, Bool.false_eq_true, if_false,
    moved, ok_bind, if_pos copied.complete]
  rw [finished, ok_bind]

theorem ingestLoop_salvage {calls nestedCalls : Nat}
    {config nestedConfig : ScanConfig} {reset between : Receiver}
    {batch carry rest : List Byte} (collecting : Collecting receiver config)
    (copied : Copied calls receiver config (data.drop offset) batch rest)
    (completed : ∀ ingest, BoostUdp.tryCompleteBatch ingest
      (BoostUdp.copyFragment receiver (data.drop offset)).1 =
        (ingest reset carry).map fun after => (false, after))
    (nested : ingestLoop fuel reset.countFragment carry 0 = .ok between)
    (tracks : Tracks nestedCalls between nestedConfig) :
    ∃ reached, rest = data.drop reached ∧
      ingestLoop (fuel + 1) receiver data offset =
        ingestLoop fuel between data reached := by
  have call : (ingestLoop fuel reset.countFragment carry 0 >>= returned) =
      .ok between := by
    rw [nested, ok_bind, returned_ok tracks]
  have completion := completed fun receiver carry =>
    (ingestLoop fuel (Receiver.countFragment receiver) carry 0 >>=
      returned).toOption
  rw [call] at completion
  exact ingestLoop_complete more fuel collecting copied completion

end Turns

end Checked

theorem lt_length_of_drop_ne_nil {data : List Byte} {offset : Nat}
    (nonempty : data.drop offset ≠ []) : offset < data.length :=
  Nat.not_le.mp fun ended => nonempty (List.drop_eq_nil_iff.mpr ended)

/-- The checked loop returns what the loop returns. -/
theorem LoopRun.checked {fuel : Nat} {receiver after : Receiver}
    {unread : List Byte} (run : LoopRun fuel receiver unread after)
    {data : List Byte} {offset : Nat} (here : unread = data.drop offset) :
    Checked.ingestLoop fuel receiver data offset = .ok after := by
  induction run generalizing data offset with
  | done receiver =>
      have ended := List.drop_eq_nil_iff.mp here.symm
      rw [Checked.ingestLoop, if_pos ended]
  | leave hunting nonempty turn =>
      subst here
      exact Checked.ingestLoop_leave (lt_length_of_drop_ne_nil nonempty) _
        hunting turn
  | again hunting nonempty turn cost onward induction =>
      subst here
      obtain ⟨reached, left, turned⟩ := Checked.ingestLoop_again
        (lt_length_of_drop_ne_nil nonempty) _ hunting turn
      rw [turned]
      exact induction left
  | copy collecting nonempty short onward induction =>
      subst here
      obtain ⟨nothingLeft, unfinished, _⟩ :=
        copyFragment_partial collecting short
      obtain ⟨reached, left, turned⟩ := Checked.ingestLoop_copy
        (lt_length_of_drop_ne_nil nonempty) _ collecting unfinished
      rw [turned]
      exact induction (nothingLeft.symm.trans left.symm)
  | accept collecting nonempty copied valid completed idle onward
      induction =>
      subst here
      obtain ⟨reached, left, turned⟩ := Checked.ingestLoop_complete
        (lt_length_of_drop_ne_nil nonempty) _ collecting copied
        (completed _)
      rw [turned]
      exact induction left
  | reject collecting nonempty copied invalid completed idle onward
      induction =>
      subst here
      obtain ⟨reached, left, turned⟩ := Checked.ingestLoop_complete
        (lt_length_of_drop_ne_nil nonempty) _ collecting copied
        (completed _)
      rw [turned]
      exact induction left
  | salvage collecting nonempty copied invalid rescued completed idle session
      nested tracks held onward nestedInduction induction =>
      subst here
      obtain ⟨reached, left, turned⟩ := Checked.ingestLoop_salvage
        (lt_length_of_drop_ne_nil nonempty) _ collecting copied completed
        (nestedInduction List.drop_zero.symm) tracks
      rw [turned]
      exact induction left

/-- The checked call returns what the call returns. -/
theorem ingestFragment_checked {calls : Nat} {receiver : Receiver}
    {config : ScanConfig} (tracks : Tracks calls receiver config)
    (data : List Byte) :
    ∃ after, ingestFragment receiver data = some after ∧
      Checked.ingestFragment receiver data = .ok after ∧
      Tracks (calls + 1) after (scanner.feed config data) := by
  obtain ⟨after, ingested, tracked⟩ := ingestFragment_tracks tracks data
  have run := tracks.countFragment.loopRun _ ingested
  refine ⟨after, ingested, ?_, tracked⟩
  rw [Checked.ingestFragment, run.checked List.drop_zero.symm,
    BoundsChecked.ok_bind, Checked.returned_ok tracked]

theorem ingestAll_checked {calls : Nat} {receiver : Receiver}
    {config : ScanConfig} (tracks : Tracks calls receiver config)
    (datagrams : List (List Byte)) :
    ∃ after, ingestAll receiver datagrams = some after ∧
      Checked.ingestAll receiver datagrams = .ok after ∧
      WellFormed after := by
  induction datagrams generalizing calls receiver config with
  | nil => exact ⟨receiver, rfl, rfl, tracks.wellFormed⟩
  | cons datagram datagrams induction =>
      obtain ⟨between, ingested, checked, tracked⟩ :=
        ingestFragment_checked tracks datagram
      obtain ⟨after, allIngested, allChecked, wellFormed⟩ := induction tracked
      refine ⟨after, ?_, ?_, wellFormed⟩
      · rw [ingestAll, List.foldlM_cons, ingested]
        exact allIngested
      · rw [Checked.ingestAll, List.foldlM_cons, checked]
        exact allChecked

/-- From a fresh state the receiver that checks every access, the branches
that are never taken and the representation after every call runs without a
fault, whatever the datagrams, and returns what the receiver returns. -/
theorem ingestAll_in_bounds (datagrams : List (List Byte)) :
    ∃ receiver, ingestAll {} datagrams = some receiver ∧
      Checked.ingestAll {} datagrams = .ok receiver ∧
      WellFormed receiver :=
  ingestAll_checked tracks_fresh datagrams

end BoostUdp
