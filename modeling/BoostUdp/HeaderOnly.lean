import BoostUdp.Delivery

/-!
# Batches that are only a header

Completion is tested when bytes are copied into an active reassembly.  The
header that activates it is not copied, so a batch of 20 bytes at the end of
a datagram is complete and stays unjudged.
-/

namespace BoostUdp

open LittleEndian StreamMachine

/-- The scan of the received bytes has come to a header at their end that
announces nothing but itself. -/
def EndsInHeaderOnly (stream : List Byte) : Prop :=
  (scan stream).position + kPacketHeaderSize = stream.length ∧
    peekBatchLength (stream.drop (scan stream).position) = kPacketHeaderSize

/-- An active reassembly has nothing left to copy exactly when it is a
header-only batch at the end of what was received. -/
theorem Tracks.unjudged_iff {calls : Nat} {receiver : Receiver}
    {stream : List Byte} (tracks : Tracks calls receiver (scan stream)) :
    receiver.reassembly.active = true ∧
        receiver.reassembly.expected ≤ receiver.reassembly.filled ↔
      EndsInHeaderOnly stream := by
  have standing := scan_standing stream
  have inside := standing.inside.1
  have whole := standing.inside.length_pending
  rw [EndsInHeaderOnly, ← standing.inside.2]
  constructor
  · rintro ⟨active, full⟩
    rcases tracks.phase with hunting | collecting
    · rw [hunting.idle] at active
      contradiction
    · obtain ⟨expected, state, same⟩ := collecting.state
      have filled : receiver.reassembly.filled = kPacketHeaderSize := by
        rcases collecting.unfinished with less | exactly
        · omega
        · exact exactly
      have size : expected.value = kPacketHeaderSize := by
        have bound := expected.atLeast
        omega
      have found : (scan stream).state.collecting = some expected := by
        rw [state]
      obtain ⟨wellFormed, length, _⟩ := standing.announced expected found
      rw [collecting.length_pending, filled] at whole
      refine ⟨by omega, ?_⟩
      rw [wellFormed.peekBatchLength_eq, length, size]
  · rintro ⟨last, announced⟩
    have pending : (scan stream).pending.length = kPacketHeaderSize := by
      omega
    rcases tracks.phase with hunting | collecting
    · have short := hunting.short
      omega
    · obtain ⟨expected, state, same⟩ := collecting.state
      have found : (scan stream).state.collecting = some expected := by
        rw [state]
      obtain ⟨wellFormed, length, _⟩ := standing.announced expected found
      rw [wellFormed.peekBatchLength_eq, length] at announced
      have filled := collecting.length_pending
      exact ⟨collecting.active, by omega⟩

/-- A whole delivery of valid batches: everything is accepted, unless the last
batch is only a header, which is left in the reassembly. -/
theorem scan_delivery {total : Word} {batches : List (List Byte)}
    (members : ∀ batch ∈ batches, BatchOf total batch) :
    ((∀ batch, batches.getLast? = some batch →
        kPacketHeaderSize < batch.length) ∧
      (scan batches.flatten).trail.map Prod.snd =
        deliveredVerdicts batches ∧
      (scan batches.flatten).state.collecting = none) ∨
    ∃ before last, batches = before ++ [last] ∧
      last.length = kPacketHeaderSize ∧
      (scan batches.flatten).trail.map Prod.snd =
        deliveredVerdicts before ++ [.started (PacketHeader.decode last)] ∧
      (scan batches.flatten).state.total = some total ∧
      (scan batches.flatten).state.collecting ≠ none := by
  rcases List.eq_nil_or_concat batches with rfl | ⟨before, last, rfl⟩
  · refine Or.inl ⟨by simp, ?_⟩
    rw [List.flatten_nil, scan, feed, Config.extend_nil,
      scanner.drain_of_none advance_fresh]
    exact ⟨rfl, rfl⟩
  · rw [List.concat_eq_append] at members ⊢
    have member := members last (by simp)
    have complete := member.valid.wellFormed.complete
    have nonempty : last ≠ [] := by
      rintro rfl
      exact absurd complete (by decide)
    obtain ⟨trail, verdicts, fed⟩ := feed_batches
      (fun batch found => members batch (List.mem_append_left _ found))
      last (Or.inl nonempty) (Or.inl rfl) 0 []
    have session : totalAfter none total before = none ∨
        totalAfter none total before = some total := by
      unfold totalAfter
      split
      · exact Or.inl rfl
      · exact Or.inr rfl
    have flat : (before ++ [last]).flatten = before.flatten ++ last := by simp
    rw [flat]
    by_cases long : kPacketHeaderSize < last.length
    · have beyond : kPacketHeaderSize < (last ++ []).length := by
        simpa using long
      have judged := feed_boundary_batch member session
        (0 + before.flatten.length) trail beyond
      rw [List.append_nil] at judged
      refine Or.inl ⟨by simpa using long, ?_⟩
      rw [scan, fresh_atBoundary, fed, judged, feed, Config.extend_nil,
        scanner.drain_of_none (atBoundary_waiting _ _ _)]
      refine ⟨?_, rfl⟩
      simp [atBoundary, verdicts, deliveredVerdicts]
    · have headerOnly : last.length = kPacketHeaderSize := by omega
      obtain ⟨expected, _, stuck⟩ := feed_boundary_headerOnly member session
        (0 + before.flatten.length) trail headerOnly
      refine Or.inr ⟨before, last, rfl, headerOnly, ?_⟩
      rw [scan, fresh_atBoundary, fed, stuck]
      refine ⟨?_, rfl, by simp⟩
      simp [verdicts]

theorem not_endsInHeaderOnly {total : Word} {batches : List (List Byte)}
    (members : ∀ batch ∈ batches, BatchOf total batch)
    (longer : ∀ batch, batches.getLast? = some batch →
      kPacketHeaderSize < batch.length) :
    ¬EndsInHeaderOnly batches.flatten := by
  intro ends
  obtain ⟨receiver, _, tracks⟩ := ingestAll_fresh batches
  rcases scan_delivery members with ⟨_, _, idle⟩ |
    ⟨before, last, rfl, headerOnly, _⟩
  · have active := (tracks.unjudged_iff.mpr ends).1
    rw [tracks.active_eq, idle] at active
    exact absurd active Bool.false_ne_true
  · have long := longer last (by simp)
    omega

/-- No complete batch is left unjudged exactly as long as the received bytes
do not end in a header-only batch; and of a whole delivery every batch is
counted, and none as incomplete, exactly when the last one is longer than its
header. -/
theorem no_unjudged_batch (datagrams : List (List Byte)) :
    (∃ receiver, ingestAll {} datagrams = some receiver ∧
      ((receiver.reassembly.active = false ∨
          receiver.reassembly.filled < receiver.reassembly.expected) ↔
        ¬EndsInHeaderOnly datagrams.flatten)) ∧
      ∀ (total : Word) (batches : List (List Byte)),
        (∀ batch ∈ batches, BatchOf total batch) →
        datagrams.flatten = batches.flatten →
        ∃ receiver summary, ingestAll {} datagrams = some receiver ∧
          sessionSummary none receiver = some summary ∧
          ((receiver.stats.batches = batches.length ∧
              summary.badBatches = 0) ↔
            ∀ batch, batches.getLast? = some batch →
              kPacketHeaderSize < batch.length) := by
  constructor
  · obtain ⟨receiver, ingested, tracks⟩ := ingestAll_fresh datagrams
    refine ⟨receiver, ingested, ?_⟩
    rw [← tracks.unjudged_iff, not_and_or, Bool.not_eq_true, Nat.not_le]
  · intro total batches members same
    obtain ⟨receiver, ingested, tracks⟩ := ingestAll_fresh datagrams
    obtain ⟨summary, summarised, _, _⟩ := tracks.summaryAccounts
    obtain ⟨lost, framed⟩ := sessionSummary_frame summarised
    refine ⟨receiver, summary, ingested, summarised, ?_⟩
    rw [same] at tracks
    have logged := tracks.logged.trail
    rcases scan_delivery members with ⟨long, verdicts, idle⟩ |
      ⟨before, last, rfl, headerOnly, verdicts, _, collecting⟩
    · refine ⟨fun _ => long, fun _ => ⟨?_, ?_⟩⟩
      · rw [tracks.logged.batches, ← logged, verdicts, acceptedBatches_delivered]
      · rw [framed]
        simp only [tracks.logged.badBatches, ← logged, verdicts, tracks.active_eq, idle]
        rw [countP_delivered (fun _ => rfl) (fun _ => rfl)]
        rfl
    · constructor
      · rintro ⟨all, _⟩
        rw [tracks.logged.batches, ← logged, verdicts, acceptedBatches_append,
          acceptedBatches_delivered] at all
        simp at all
      · intro long
        have longer := long last (by simp)
        omega

/-- A batch whose payload looks like a header-only batch, and a delivery that
begins with one. -/
theorem no_unjudged_batch_small :
    (∃ receiver, ingestAll {} [encodeBatch 0 2 (encodeBatch 0 1 [])] =
        some receiver ∧
      (receiver.reassembly.active = false ∨
        receiver.reassembly.filled < receiver.reassembly.expected)) ∧
      ∃ receiver summary,
        ingestAll {} [encodeBatch 0 2 [], encodeBatch 1 2 [0x50#8]] =
            some receiver ∧
          sessionSummary none receiver = some summary ∧
          receiver.stats.batches = 2 ∧ summary.badBatches = 0 := by
  have batchOf : ∀ seq < (2 : Word), ∀ payload : List Byte,
      payload.length ≤ 20 → BatchOf 2 (encodeBatch seq 2 payload) := by
    intro seq below payload short
    refine ⟨encodeBatch_valid below ?_, decode_encodeBatch_batchTotal _ _ _⟩
    exact Nat.le_trans (Nat.add_le_add_left short _) (by decide)
  have members : ∀ batch ∈ [encodeBatch 0 2 [], encodeBatch 1 2 [0x50#8]],
      BatchOf 2 batch := by
    intro batch member
    rcases List.mem_pair.mp member with rfl | rfl
    · exact batchOf 0 (by decide) [] (by decide)
    · exact batchOf 1 (by decide) [0x50#8] (by decide)
  obtain ⟨first, ingestedFirst, judged⟩ :=
    (no_unjudged_batch [encodeBatch 0 2 (encodeBatch 0 1 [])]).1
  obtain ⟨receiver, summary, ingested, summarised, counted⟩ :=
    (no_unjudged_batch [encodeBatch 0 2 [], encodeBatch 1 2 [0x50#8]]).2 2 _
      members rfl
  have all := counted.mpr (by
    intro batch last
    cases last
    decide)
  refine ⟨⟨first, ingestedFirst, judged.mpr ?_⟩, receiver, summary, ingested,
    summarised, all⟩
  apply not_endsInHeaderOnly
  · intro batch member
    rw [List.mem_singleton.mp member]
    exact batchOf 0 (by decide) _ (by decide)
  · intro batch last
    cases last
    decide

/-- A valid batch of 20 bytes, alone in its datagram, is complete and active
when it has been ingested, is not counted, and ends as a bad batch. -/
theorem header_only_batch_unjudged :
    ValidBatch (encodeBatch 0 1 []) ∧
      ∃ receiver, ingestFragment {} (encodeBatch 0 1 []) = some receiver ∧
        ¬(receiver.reassembly.active = false ∨
          receiver.reassembly.filled < receiver.reassembly.expected) ∧
        receiver.stats.batches = 0 ∧
        ∃ summary, sessionSummary none receiver = some summary ∧
          summary.badBatches = 1 := by
  have found : (ingestFragment {} (encodeBatch 0 1 [])).any (fun receiver =>
      decide (¬(receiver.reassembly.active = false ∨
        receiver.reassembly.filled < receiver.reassembly.expected) ∧
        receiver.stats.batches = 0 ∧
        (sessionSummary none receiver).any (fun summary =>
          summary.badBatches = 1) = true)) = true := by decide
  obtain ⟨receiver, ingested, checked⟩ := (Option.any_eq_true _ _).mp found
  obtain ⟨unjudged, uncounted, bad⟩ := of_decide_eq_true checked
  obtain ⟨summary, summarised, one⟩ := (Option.any_eq_true _ _).mp bad
  exact ⟨encodeBatch_valid (by decide) (by decide), receiver, ingested,
    unjudged, uncounted, summary, summarised, of_decide_eq_true one⟩

end BoostUdp
