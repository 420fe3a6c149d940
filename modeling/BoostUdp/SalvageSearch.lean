import BoostUdp.Server.InStep
import BoostUdp.ScanRun

/-!
# Which batch is salvaged

The search for a batch behind the front of a failed one stops at the first
header that carries the next sequence number.  Whether a complete batch that
passes its checksum starts there is only tested afterwards, on that header
alone, and a later batch that would pass is not found.
-/

namespace BoostUdp

open LittleEndian StreamMachine

/-- A full reassembly whose batch fails its checksum and is not the last of
its session. -/
structure FailedBatch (receiver : Receiver) : Prop where
  full : receiver.reassembly.expected = receiver.reassembly.buffer.length
  session : receiver.stats.wireBatchTotal =
    some (PacketHeader.decode receiver.reassembly.buffer).batchTotal
  notLast : (PacketHeader.decode receiver.reassembly.buffer).seq.toNat + 1 <
    (PacketHeader.decode receiver.reassembly.buffer).batchTotal.toNat
  failed : validateBatch receiver.reassembly.buffer
    receiver.reassembly.expected = .badCrc

/-- By its metadata, the header of the batch that should come next. -/
structure NextHeaderAt (batch : List Byte) (offset : Nat) : Prop where
  behind : 1 ≤ offset
  wellFormed : PlausibleHeader (batch.drop offset)
  seq : (PacketHeader.decode (batch.drop offset)).seq =
    (PacketHeader.decode batch).seq + 1
  session : (PacketHeader.decode (batch.drop offset)).batchTotal =
    (PacketHeader.decode batch).batchTotal

/-- That batch itself: complete, and accepted by `validate_batch`. -/
structure NextBatchAt (batch : List Byte) (offset : Nat) : Prop
    extends NextHeaderAt batch offset where
  complete : (PacketHeader.decode (batch.drop offset)).length.toNat ≤
    batch.length - offset
  valid : validateBatch (batch.drop offset)
    (PacketHeader.decode (batch.drop offset)).length.toNat = .ok

/-- `try_complete_batch`, then the rest of the datagram that completed the
batch, then the datagrams after it. -/
def completeAndContinue (receiver : Receiver) (unread : List Byte)
    (datagrams : List (List Byte)) : Option Receiver := do
  let (_, receiver) ← tryCompleteBatch ingestFragment receiver
  let receiver ← ingestLoop (ingestFuel receiver unread) receiver unread
  ingestAll receiver datagrams

/-- The tail of the failed batch is ingested again, and the next sequence
number has been seen as soon as a byte behind the batch has been ingested. -/
structure Salvages (receiver : Receiver) : Prop where
  reingested : ∃ offset reset, 1 ≤ offset ∧
    offset < receiver.reassembly.buffer.length ∧ reset.reassembly = {} ∧
    ∀ ingest, tryCompleteBatch ingest receiver =
      (ingest reset (receiver.reassembly.buffer.drop offset)).map
        fun after => (false, after)
  seen : ∀ unread datagrams, unread ++ datagrams.flatten ≠ [] →
    ∃ after, completeAndContinue receiver unread datagrams = some after ∧
      (PacketHeader.decode receiver.reassembly.buffer).seq + 1 ∈
        after.stats.seenSeq

/-- The checksum is the last thing `validate_batch` looks at. -/
theorem plausibleHeader_of_badCrc {data : List Byte} {receivedLength : Nat}
    (fits : receivedLength ≤ data.length)
    (failed : validateBatch data receivedLength = .badCrc) :
    PlausibleHeader data := by
  unfold validateBatch at failed
  by_cases short : receivedLength < kPacketHeaderSize
  · rw [if_pos short] at failed
    contradiction
  · rw [if_neg short] at failed
    dsimp only at failed
    by_cases magic : (PacketHeader.decode data).magic = kPacketMagic
    · rw [if_neg (not_not_intro magic)] at failed
      by_cases length :
          (PacketHeader.decode data).length.toNat = receivedLength
      · rw [if_neg (not_not_intro length)] at failed
        cases checked : headerMetaPlausible (PacketHeader.decode data).seq
            (PacketHeader.decode data).batchTotal
            (PacketHeader.decode data).length with
        | false =>
            rw [checked] at failed
            contradiction
        | true =>
            have range := headerMetaPlausible_iff.mp checked
            exact ⟨by omega, magic, range.1, range.2.1, range.2.2⟩
      · rw [if_pos length] at failed
        contradiction
    · rw [if_pos magic] at failed
      contradiction

theorem FailedBatch.wellFormed {receiver : Receiver}
    (completed : FailedBatch receiver) :
    PlausibleHeader receiver.reassembly.buffer :=
  plausibleHeader_of_badCrc (Nat.le_of_eq completed.full) completed.failed

theorem FailedBatch.filled {receiver : Receiver}
    (completed : FailedBatch receiver) :
    Filled receiver receiver.reassembly.buffer :=
  { buffer := rfl
    expected := completed.full
    header := completed.wellFormed
    session := completed.session }

theorem FailedBatch.invalid {receiver : Receiver}
    (completed : FailedBatch receiver) :
    ¬ValidBatch receiver.reassembly.buffer := by
  rw [ValidBatch, ← completed.full, completed.failed]
  decide

theorem FailedBatch.wantedSeq_eq {receiver : Receiver}
    (completed : FailedBatch receiver) :
    wantedSeq (PacketHeader.decode receiver.reassembly.buffer) =
      some ((PacketHeader.decode receiver.reassembly.buffer).seq + 1) := by
  have notLast := completed.notLast
  have below : (PacketHeader.decode receiver.reassembly.buffer).seq + 1 <
      (PacketHeader.decode receiver.reassembly.buffer).batchTotal := by
    bv_omega
  rw [wantedSeq, if_pos completed.wellFormed.plausible_meta, if_pos below]

theorem FailedBatch.candidate_iff {receiver : Receiver}
    (completed : FailedBatch receiver) {offset : Nat} (behind : 1 ≤ offset) :
    nextCandidate
          (wantedSeq (PacketHeader.decode receiver.reassembly.buffer))
          (PacketHeader.decode receiver.reassembly.buffer).batchTotal
          (receiver.reassembly.buffer.drop offset) = true ↔
      NextHeaderAt receiver.reassembly.buffer offset := by
  rw [nextCandidate_iff, completed.wantedSeq_eq]
  constructor
  · rintro ⟨wellFormed, wanted, session⟩
    exact ⟨behind, wellFormed, wanted _ rfl, session⟩
  · intro header
    refine ⟨header.wellFormed, ?_, header.session⟩
    intro want found
    cases found
    exact header.seq

/-- The search returns the first next header. -/
theorem FailedBatch.nextHeader_iff {receiver : Receiver}
    (completed : FailedBatch receiver) {offset : Nat} :
    NextHeader (PacketHeader.decode receiver.reassembly.buffer).batchTotal
        receiver.reassembly.buffer offset ↔
      IsLeast { offset | NextHeaderAt receiver.reassembly.buffer offset }
        offset := by
  constructor
  · intro next
    refine ⟨(completed.candidate_iff next.behind).mp next.candidate, ?_⟩
    intro other header
    by_contra below
    have rejected := next.first other header.behind (Nat.not_le.mp below)
    rw [(completed.candidate_iff header.behind).mpr header] at rejected
    contradiction
  · rintro ⟨header, least⟩
    have complete := header.wellFormed.complete
    have positive := kPacketHeaderSize_pos
    rw [List.length_drop] at complete
    refine
      { behind := header.behind
        complete := by omega
        candidate := (completed.candidate_iff header.behind).mpr header
        first := ?_ }
    intro earlier behind below
    by_contra found
    have candidate := (completed.candidate_iff behind).mp
      (Bool.not_eq_false _ ▸ found)
    exact Nat.not_lt.mpr (least candidate) below

theorem FailedBatch.rescued_iff {receiver : Receiver}
    (completed : FailedBatch receiver) {offset : Nat} :
    Rescued (PacketHeader.decode receiver.reassembly.buffer).batchTotal
        receiver.reassembly.buffer offset ↔
      IsLeast { offset | NextHeaderAt receiver.reassembly.buffer offset }
          offset ∧
        NextBatchAt receiver.reassembly.buffer offset := by
  rw [Rescued, completed.nextHeader_iff]
  constructor
  · rintro ⟨least, complete, valid⟩
    have header : NextHeaderAt receiver.reassembly.buffer offset := least.1
    exact ⟨least, ⟨header, complete, valid⟩⟩
  · rintro ⟨least, next⟩
    exact ⟨least, next.complete, next.valid⟩

/-- A valid batch that a reset receiver is handed has been seen as soon as a
byte behind it has arrived. -/
theorem feed_seen {calls : Nat} {receiver : Receiver} {total : Word}
    {batch : List Byte} (member : BatchOf total batch) {more : List Byte}
    (beyond : kPacketHeaderSize < (batch ++ more).length)
    (tracks : Tracks calls receiver
      (scanner.feed (shadowConfig (some total)) (batch ++ more))) :
    batchSeq batch ∈ receiver.stats.seenSeq := by
  have accepted := feed_boundary_batch member (Or.inr rfl) 0
    (shadowConfig (some total)).trail beyond
  have kept := scanner.trail_prefix_feed
    (atBoundary (some total) (0 + batch.length)
      ((shadowConfig (some total)).trail ++
        [(0, .started (PacketHeader.decode batch)), (0, .accepted batch)]))
    more
  rw [← accepted] at kept
  have logged : Verdict.accepted batch ∈ receiver.verdicts := by
    rw [← tracks.logged.trail]
    apply List.mem_map.mpr
    refine ⟨(0, .accepted batch), kept.subset ?_, rfl⟩
    simp [atBoundary]
  rw [tracks.logged.seenSeq, List.mem_toFinset]
  apply List.mem_map.mpr
  exact ⟨batch, List.mem_filterMap.mpr ⟨_, logged, rfl⟩, rfl⟩

theorem reingest_seen {reset : Receiver} (idle : reset.reassembly = {})
    {total : Word} (session : reset.stats.wireBatchTotal = some total)
    {batch : List Byte} (member : BatchOf total batch)
    (rest unread : List Byte) (datagrams : List (List Byte))
    (beyond : kPacketHeaderSize <
      (batch ++ (rest ++ (unread ++ datagrams.flatten))).length) :
    ∃ between after last,
      ingestFragment reset (batch ++ rest) = some between ∧
      ingestLoop (ingestFuel between unread) between unread = some after ∧
      ingestAll after datagrams = some last ∧
      batchSeq batch ∈ last.stats.seenSeq := by
  have inStep := shadow_inStep idle
  rw [session] at inStep
  obtain ⟨between', ingested, tracks⟩ :=
    ingestFragment_tracks (shadow_tracks (some total)) (batch ++ rest)
  obtain ⟨between, first, inStep⟩ := InStep.of_shadow
    (ingestFragment_inStep inStep (batch ++ rest)) ingested
  have fuel := inStep.ingestFuel_eq unread
  obtain ⟨after', continued, tracks⟩ := ingestLoop_tracks
    (ingestFuel between' unread) tracks
    (loopCost_lt_ingestFuel between' unread)
  obtain ⟨after, second, inStep⟩ := InStep.of_shadow
    (ingestLoop_inStep _ inStep unread) continued
  obtain ⟨last', ended, tracks⟩ := ingestAll_tracks tracks datagrams
  obtain ⟨last, third, inStep⟩ := InStep.of_shadow
    (ingestAll_inStep inStep datagrams) ended
  rw [← fuel] at second
  refine ⟨between, after, last, first, second, third, ?_⟩
  rw [scanner.feed_feed, scanner.feed_feed, List.append_assoc] at tracks
  apply inStep.seen (feed_seen member beyond tracks)
  rw [shadow_seenSeq]
  exact Finset.notMem_empty _

theorem FailedBatch.reingested {receiver : Receiver}
    (completed : FailedBatch receiver) {offset : Nat}
    (rescued : Rescued
      (PacketHeader.decode receiver.reassembly.buffer).batchTotal
      receiver.reassembly.buffer offset) :
    ∃ reset, reset.reassembly = {} ∧
      reset.stats.wireBatchTotal = receiver.stats.wireBatchTotal ∧
      ∀ ingest, tryCompleteBatch ingest receiver =
        (ingest reset (receiver.reassembly.buffer.drop offset)).map
          fun after => (false, after) := by
  obtain ⟨reset, idle, stats, _, judged⟩ :=
    tryCompleteBatch_reject completed.filled completed.invalid
  refine ⟨reset, idle, by rw [stats], ?_⟩
  intro ingest
  have tail := salvaged_rescued rescued
  have inside : receiver.reassembly.buffer.drop offset ≠ [] := by
    have complete := rescued.1.complete
    have positive := kPacketHeaderSize_pos
    rw [Ne, List.drop_eq_nil_iff]
    omega
  rw [judged, completed.session, tail, if_neg inside]

theorem FailedBatch.salvages {receiver : Receiver}
    (completed : FailedBatch receiver) {offset : Nat}
    (least : IsLeast
      { offset | NextHeaderAt receiver.reassembly.buffer offset } offset)
    (next : NextBatchAt receiver.reassembly.buffer offset) :
    Salvages receiver := by
  have rescued := completed.rescued_iff.mpr ⟨least, next⟩
  have inside := rescued.1.complete
  have positive := kPacketHeaderSize_pos
  obtain ⟨reset, idle, total, reingested⟩ := completed.reingested rescued
  rw [completed.session] at total
  constructor
  · exact ⟨offset, reset, next.behind, by omega, idle, reingested⟩
  · intro unread datagrams following
    obtain ⟨behind, tail, _⟩ := rescued.tail_eq
    have beyond : kPacketHeaderSize <
        (rescuedBatch receiver.reassembly.buffer offset ++
          (behind ++ (unread ++ datagrams.flatten))).length := by
      have more := List.length_pos_iff.mpr following
      have complete := rescued.member.valid.wellFormed.complete
      rw [List.length_append, List.length_append]
      omega
    obtain ⟨between, after, last, first, second, third, seen⟩ :=
      reingest_seen idle total rescued.member behind unread datagrams beyond
    rw [← tail] at first
    refine ⟨last, ?_, ?_⟩
    · simp [completeAndContinue, reingested, first, second, third]
    · rw [batchSeq, rescued.decode_rescuedBatch, next.seq] at seen
      exact seen

/-- The next batch is salvaged from a failed one if and only if it starts at
the first header that looks like its own. -/
theorem salvages_iff {receiver : Receiver} (completed : FailedBatch receiver) :
    Salvages receiver ↔
      ∃ offset,
        IsLeast { offset | NextHeaderAt receiver.reassembly.buffer offset }
            offset ∧
          NextBatchAt receiver.reassembly.buffer offset := by
  constructor
  · intro salvages
    obtain ⟨_, _, _, _, _, reingested⟩ := salvages.reingested
    obtain ⟨reset, _, _, _, judged⟩ :=
      tryCompleteBatch_reject completed.filled completed.invalid
    have carried : salvaged receiver.stats.wireBatchTotal
        receiver.reassembly.buffer ≠ [] := by
      intro none
      have clash := reingested fun _ _ => Option.none
      rw [judged, if_pos none] at clash
      contradiction
    rw [completed.session] at carried
    obtain ⟨offset, rescued⟩ := rescued_of_salvaged carried
    exact ⟨offset, completed.rescued_iff.mp rescued⟩
  · rintro ⟨offset, least, next⟩
    exact completed.salvages least next

/-- A receiver in a session of two whose reassembly has just filled up. -/
def fullReceiver (batch : List Byte) : Receiver :=
  { stats := { fragments := 1, wireBatchTotal := some 2 }
    reassembly :=
      { buffer := batch
        filled := batch.length
        expected := batch.length
        active := true } }

theorem salvages_iff_next :
    Salvages (fullReceiver
        ((blankHeader 0 2 41).encode ++ encodeBatch 1 2 [0x50#8])) ↔
      ∃ offset,
        IsLeast
            { offset | NextHeaderAt (fullReceiver
              ((blankHeader 0 2 41).encode ++
                encodeBatch 1 2 [0x50#8])).reassembly.buffer offset }
            offset ∧
          NextBatchAt (fullReceiver
            ((blankHeader 0 2 41).encode ++
              encodeBatch 1 2 [0x50#8])).reassembly.buffer offset := by
  apply salvages_iff
  exact
    { full := rfl
      session := by decide
      notLast := by decide
      failed := by decide +kernel }

/-- A corrupt batch of 61 bytes that holds a header of the next batch with
nothing behind it, and then the next batch, complete and valid. -/
def hiddenBatch : List Byte :=
  (blankHeader 0 2 61).encode ++ (blankHeader 1 2 100).encode ++
    encodeBatch 1 2 [0x50#8]

/-- The next batch is there and is lost. -/
theorem hidden_batch_not_salvaged :
    FailedBatch (fullReceiver hiddenBatch) ∧ NextBatchAt hiddenBatch 40 ∧
      ¬Salvages (fullReceiver hiddenBatch) ∧
      ∃ after, ingestAll {} [hiddenBatch, [0x00#8]] = some after ∧
        after.stats.badBatches = 1 ∧ after.stats.seenSeq = ∅ := by
  refine ⟨?_, ?_, ?_, ?_⟩
  · exact
      { full := rfl
        session := by decide
        notLast := by decide
        failed := by decide +kernel }
  · exact
      { behind := by decide
        wellFormed := by decide
        seq := by decide
        session := by decide
        complete := by decide
        valid := by decide +kernel }
  · intro salvages
    obtain ⟨after, continued, seen⟩ := salvages.seen [0x00#8] [] (by simp)
    have unseen : (completeAndContinue (fullReceiver hiddenBatch) [0x00#8]
        []).any (fun after => (PacketHeader.decode (fullReceiver
          hiddenBatch).reassembly.buffer).seq + 1 ∈ after.stats.seenSeq) =
        false := by
      decide +kernel
    rw [continued] at unseen
    simp only [Option.any_some, decide_eq_false_iff_not] at unseen
    exact unseen seen
  · have found : (ingestAll {} [hiddenBatch, [0x00#8]]).any (fun after =>
        after.stats.badBatches = 1 ∧ after.stats.seenSeq = ∅) = true := by
      decide +kernel
    obtain ⟨after, ingested, checked⟩ := (Option.any_eq_true _ _).mp found
    exact ⟨after, ingested, of_decide_eq_true checked⟩

end BoostUdp
