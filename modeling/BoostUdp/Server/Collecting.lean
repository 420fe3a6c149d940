import BoostUdp.Server.Hunting

/-!
# The receiver tracks the scanner: collecting

Copying bytes into the active batch, and what `try_complete_batch` does with
a full buffer.
-/

namespace BoostUdp

open LittleEndian StreamMachine

/-- The header that was collected stays at the front of what is pending. -/
theorem Collecting.pending_header {receiver : Receiver} {config : ScanConfig}
    (collecting : Collecting receiver config) (more : List Byte) :
    PacketHeader.decode (config.pending ++ more) =
        PacketHeader.decode receiver.reassembly.buffer ∧
      PlausibleHeader (config.pending ++ more) := by
  have lower := collecting.filled_ge
  have upper := collecting.filled_le
  have capacity := collecting.capacity
  have inside : receiver.reassembly.filled ≤
      receiver.reassembly.buffer.length := by omega
  have heldEnough : kPacketHeaderSize ≤ config.pending.length := by
    rw [collecting.length_pending]
    exact lower
  constructor
  · rw [PacketHeader.decode_append heldEnough, collecting.pending,
      PacketHeader.decode_take lower inside]
  · rw [plausibleHeader_append_iff heldEnough, collecting.pending,
      plausibleHeader_take_iff lower inside]
    exact collecting.header

/-- Copying less than the batch still needs uses up the datagram. -/
theorem copyFragment_partial {receiver : Receiver} {config : ScanConfig}
    (collecting : Collecting receiver config) {unread : List Byte}
    (short : config.pending.length + unread.length <
      receiver.reassembly.expected) :
    (copyFragment receiver unread).2 = [] ∧
      (copyFragment receiver unread).1.reassembly.filled <
        (copyFragment receiver unread).1.reassembly.expected ∧
      Collecting (copyFragment receiver unread).1 (config.extend unread) := by
  have filled := collecting.length_pending
  have capacity := collecting.capacity
  have lower := collecting.filled_ge
  have taken : min unread.length (receiver.reassembly.expected -
      receiver.reassembly.filled) = unread.length := by omega
  have written : (config.pending ++ unread).length =
      receiver.reassembly.filled + unread.length := by
    rw [List.length_append, filled]
  have header := fun more => collecting.pending_header (unread ++ more)
  simp only [copyFragment, taken, List.take_length, ← collecting.pending,
    List.append_assoc]
  refine ⟨by simp, by omega, ?_⟩
  obtain ⟨expected, state, same⟩ := collecting.state
  exact
    { state := ⟨expected, state, same⟩
      active := collecting.active
      pending := by
        simp only [Config.extend_pending]
        rw [← List.append_assoc, List.take_left' written]
      capacity := by
        simp only [List.length_append, filled, List.length_drop]
        omega
      filled_ge := Nat.le_add_right_of_le lower
      filled_le := by dsimp only; omega
      unfinished := Or.inl (by dsimp only; omega)
      header := (header _).2
      header_length := by
        simp only [(header _).1]
        exact collecting.header_length
      session := by
        simp only [(header _).1]
        exact collecting.session
      slices := by
        have sum := collecting.slices
        simp only [List.sum_append, List.sum_singleton]
        omega }

/-- Copying the rest of the batch fills the buffer with it. -/
theorem copyFragment_complete {receiver : Receiver} {config : ScanConfig}
    (collecting : Collecting receiver config) {unread : List Byte}
    (arrived : receiver.reassembly.expected ≤
      config.pending.length + unread.length) :
    ∃ sizes,
      copyFragment receiver unread =
        ({ receiver with
            reassembly :=
              { buffer := (config.pending ++ unread).take
                  receiver.reassembly.expected
                filled := receiver.reassembly.expected
                expected := receiver.reassembly.expected
                active := true
                fragmentSizes := sizes } },
          (config.pending ++ unread).drop receiver.reassembly.expected) := by
  have filled := collecting.length_pending
  have capacity := collecting.capacity
  have upper := collecting.filled_le
  have taken : min unread.length (receiver.reassembly.expected -
      receiver.reassembly.filled) =
        receiver.reassembly.expected - receiver.reassembly.filled := by omega
  have total : receiver.reassembly.filled +
      (receiver.reassembly.expected - receiver.reassembly.filled) =
        receiver.reassembly.expected := by omega
  have nothingBehind : receiver.reassembly.buffer.drop
      receiver.reassembly.expected = [] :=
    List.drop_eq_nil_iff.mpr (Nat.le_of_eq capacity)
  refine ⟨receiver.reassembly.fragmentSizes ++
    [receiver.reassembly.expected - receiver.reassembly.filled], ?_⟩
  simp only [copyFragment, taken, total, nothingBehind, List.append_nil,
    collecting.active, ← collecting.pending, List.take_append,
    List.drop_append, filled, List.take_of_length_le
      (Nat.le_trans (Nat.le_of_eq filled) upper)]
  simp [List.drop_eq_nil_iff.mpr (Nat.le_trans (Nat.le_of_eq filled) upper)]

/-- A reassembly whose buffer is full. -/
structure Filled (receiver : Receiver) (batch : List Byte) : Prop where
  buffer : receiver.reassembly.buffer = batch
  expected : receiver.reassembly.expected = batch.length
  header : PlausibleHeader batch
  session : receiver.stats.wireBatchTotal =
    some (PacketHeader.decode batch).batchTotal

theorem Filled.session_check {receiver : Receiver} {batch : List Byte}
    (filled : Filled receiver batch) :
    validateBatchSession (PacketHeader.decode batch)
        receiver.stats.wireBatchTotal =
      (.ok, receiver.stats.wireBatchTotal) := by
  have same : SameSession receiver.stats.wireBatchTotal
      (PacketHeader.decode batch) := by
    intro known found
    rw [filled.session] at found
    exact Option.some.inj found
  rw [validateBatchSession_ok filled.header.plausible_meta same,
    filled.session]

/-- The receiver once it has accepted the batch it holds. -/
def Receiver.accepted (receiver : Receiver) (batch : List Byte) : Receiver :=
  (({ receiver with
    stats :=
      { trackSequence receiver.stats (PacketHeader.decode batch).seq with
        batches := (trackSequence receiver.stats
          (PacketHeader.decode batch).seq).batches + 1 } } :
            Receiver).report
    (.ok batch receiver.reassembly.fragmentSizes
      (inferDetectedMss receiver.reassembly.fragmentSizes))).resetReassembly

/-- Fewer than two slices say nothing about the mss. -/
theorem inferDetectedMss_guard (sizes : List Nat) :
    (if 1 < sizes.length then inferDetectedMss sizes else none) =
      inferDetectedMss sizes := by
  by_cases many : 1 < sizes.length
  · exact if_pos many
  · rw [if_neg many, inferDetectedMss, if_pos (by omega)]

theorem tryCompleteBatch_valid {receiver : Receiver} {batch : List Byte}
    (filled : Filled receiver batch) (valid : ValidBatch batch)
    (ingest : Receiver → List Byte → Option Receiver) :
    tryCompleteBatch ingest receiver =
      some (true, receiver.accepted batch) := by
  have long := Nat.not_lt.mpr filled.header.complete
  have validated : validateBatch batch batch.length = .ok := valid
  unfold tryCompleteBatch
  simp only [filled.buffer, filled.expected, if_neg long,
    filled.session_check, Receiver.setWireBatchTotal_self, validated,
    ne_eq, not_true_eq_false, if_false, inferDetectedMss_guard]
  rfl

/-- A valid batch is counted and the reassembly is reset. -/
theorem tryCompleteBatch_accept {receiver : Receiver} {batch : List Byte}
    (filled : Filled receiver batch) (valid : ValidBatch batch) :
    ∃ after,
      (∀ ingest, tryCompleteBatch ingest receiver = some (true, after)) ∧
      after.reassembly = {} ∧
      after.stats = receiver.stats.observe (.accepted batch) ∧
      after.verdicts = receiver.verdicts ++ [.accepted batch] := by
  refine ⟨receiver.accepted batch, tryCompleteBatch_valid filled valid, rfl,
    rfl, ?_⟩
  simp [Receiver.verdicts, Receiver.accepted, Receiver.report,
    Receiver.resetReassembly, Event.verdict]

/-- An invalid batch is counted as bad; its salvaged tail, if any, is handed
to a nested `ingest_fragment`. -/
theorem tryCompleteBatch_reject {receiver : Receiver} {batch : List Byte}
    (filled : Filled receiver batch) (invalid : ¬ValidBatch batch) :
    ∃ after, after.reassembly = {} ∧
      after.stats =
        { receiver.stats with
          badBatches := receiver.stats.badBatches + 1 } ∧
      after.verdicts = receiver.verdicts ++
        [.rejected batch
          (salvaged receiver.stats.wireBatchTotal batch).length] ∧
      ∀ ingest, tryCompleteBatch ingest receiver =
        if salvaged receiver.stats.wireBatchTotal batch = [] then
          some (false, after)
        else
          (ingest after (salvaged receiver.stats.wireBatchTotal batch)).map
            fun receiver => (false, receiver) := by
  have long := Nat.not_lt.mpr filled.header.complete
  have unvalidated : ¬validateBatch batch batch.length = .ok := invalid
  have unchanged : (salvageCarry (PacketHeader.decode batch) batch
      batch.length receiver.stats.wireBatchTotal).2 =
        receiver.stats.wireBatchTotal := by
    rw [filled.session]
    exact salvageCarry_total _ _ _ _
  unfold tryCompleteBatch
  simp only [filled.buffer, filled.expected, if_neg long,
    filled.session_check, Receiver.setWireBatchTotal_self, unvalidated,
    ne_eq, not_true_eq_false, not_false_eq_true, if_false, if_true,
    unchanged, List.isEmpty_iff]
  refine ⟨_, ?_, ?_, ?_, fun _ => rfl⟩
  · rfl
  · rfl
  · simp [Receiver.verdicts, Receiver.report, Receiver.resetReassembly,
      Receiver.setWireBatchTotal, Receiver.countBad, Event.verdict, salvaged]

/-- Where the scanner stands when it has judged a batch. -/
def afterJudge (config : ScanConfig) (total : Option Word)
    (batch : List Byte) : ScanConfig :=
  { state := { total := total }
    position := config.position + (judge total batch).count
    pending := []
    trail := config.trail ++
      (judge total batch).outputs.map fun output => (config.position, output) }

/-- What it reads next. -/
theorem feed_judge {config : ScanConfig} {total : Option Word}
    {expected : BatchLength}
    (state : config.state = { total := total, collecting := some expected })
    {unread : List Byte}
    (arrived : expected.value ≤ (config.pending ++ unread).length)
    (beyond : kPacketHeaderSize < (config.pending ++ unread).length) :
    scanner.feed config unread =
      scanner.feed
        (afterJudge config total
          ((config.pending ++ unread).take expected.value))
        ((config.pending ++ unread).drop
          (judge total
            ((config.pending ++ unread).take expected.value)).count) := by
  have stepped : scanStep config.state (config.pending ++ unread) =
      some (judge total ((config.pending ++ unread).take expected.value)) := by
    rw [state]
    exact scanStep_collecting_judge arrived beyond
  apply scanner.drain_of_some
  simp [advance, scanner, stepped, Config.apply, Config.extend, afterJudge]

theorem judge_accept {total : Option Word} {batch : List Byte}
    (valid : ValidBatch batch) :
    judge total batch =
      { next := { total := total }
        count := batch.length
        outputs := [.accepted batch] } := by
  simp [judge, valid]

theorem judge_reject {total : Option Word} {batch : List Byte}
    (invalid : ¬ValidBatch batch) :
    judge total batch =
      { next := { total := total }
        count := rejectedAdvance total batch
        outputs := [.rejected batch (salvaged total batch).length] } := by
  simp [judge, invalid]

/-- After a rejected batch its salvaged tail is read before the rest. -/
theorem drop_rejectedAdvance (total : Option Word) (input : List Byte)
    (size : Nat) :
    input.drop (rejectedAdvance total (input.take size)) =
      salvaged total (input.take size) ++ input.drop size := by
  have bound := rejectedAdvance_le total (input.take size)
  calc
    input.drop (rejectedAdvance total (input.take size))
        = (input.take size ++ input.drop size).drop
            (rejectedAdvance total (input.take size)) := by
          rw [List.take_append_drop]
    _ = (input.take size).drop (rejectedAdvance total (input.take size)) ++
          input.drop size := List.drop_append_of_le_length bound
    _ = salvaged total (input.take size) ++ input.drop size := by
          rw [salvaged_eq_drop]

end BoostUdp
