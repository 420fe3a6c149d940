import BoostUdp.EndToEnd

/-!
# A stream that is cut off

A sender that stops, or a network that brings nothing any more, after any
number of bytes.  Every number of the summary follows from how many bytes
there were.
-/

namespace BoostUdp

open LittleEndian StreamMachine

/-- The whole blocks in front of a cut, and the part of the next one. -/
theorem take_flatten {size : Nat} {blocks : List (List Byte)}
    (positive : 0 < size) (sizes : ∀ block ∈ blocks, block.length = size)
    (n : Nat) :
    blocks.flatten.take n =
      (blocks.take (n / size)).flatten ++
        (blocks.getD (n / size) []).take (n % size) := by
  induction blocks generalizing n with
  | nil => simp
  | cons block blocks induction =>
      have length := sizes block List.mem_cons_self
      by_cases inside : n < size
      · rw [Nat.div_eq_of_lt inside, Nat.mod_eq_of_lt inside,
          List.flatten_cons, List.take_append_of_le_length (by omega)]
        rfl
      · obtain ⟨more, rfl⟩ := Nat.exists_eq_add_of_le (Nat.not_lt.mp inside)
        have later := induction
          (fun other member => sizes other (List.mem_cons_of_mem _ member))
          more
        have step : (size + more) / size = more / size + 1 := by
          rw [Nat.add_comm, Nat.add_div_right _ positive]
        rw [step, Nat.add_mod_left, List.take_succ_cons, List.flatten_cons,
          List.flatten_cons, List.getD_cons_succ, List.append_assoc, ← later,
          ← length, List.take_length_add_append]

/-- The scanner at the end of a stream that was cut off: it has accepted the
whole batches, and it collects another one if the header of that has
arrived. -/
structure EndsIn (batches : List (List Byte)) (known : Option Word)
    (part : Option PacketHeader) (config : ScanConfig) : Prop where
  verdicts : config.trail.map Prod.snd =
    deliveredVerdicts batches ++ (part.map Verdict.started).toList
  total : config.state.total = known
  collecting : config.state.collecting.isSome = part.isSome

section Scan

variable {total : Word} {batches : List (List Byte)}

theorem scan_short (members : ∀ batch ∈ batches, BatchOf total batch)
    (long : ∀ batch ∈ batches, kPacketHeaderSize < batch.length)
    {front : List Byte} (short : front.length < kPacketHeaderSize) :
    EndsIn batches (totalAfter none total batches) none
      (scan (batches.flatten ++ front)) := by
  obtain ⟨after, verdicts, fed⟩ := feed_batches members front (Or.inr long)
    (Or.inl rfl) 0 []
  have ended : scanner.advance ((atBoundary (totalAfter none total batches)
      (0 + batches.flatten.length) after).extend front) = none := by
    apply scanner.advance_eq_none
    exact scanStep_hunting_short short
  rw [scan, fresh_atBoundary, fed, feed, scanner.drain_of_none ended]
  exact
    { verdicts := by
        rw [Config.extend_trail, atBoundary, verdicts]
        exact (List.append_nil _).symm
      total := rfl
      collecting := rfl }

theorem scan_header (members : ∀ batch ∈ batches, BatchOf total batch)
    (long : ∀ batch ∈ batches, kPacketHeaderSize < batch.length)
    {front back : List Byte} (member : BatchOf total (front ++ back))
    (complete : kPacketHeaderSize ≤ front.length) (more : back ≠ []) :
    EndsIn batches (some total) (some (PacketHeader.decode front))
      (scan (batches.flatten ++ front)) := by
  obtain ⟨after, verdicts, fed⟩ := feed_batches members front (Or.inr long)
    (Or.inl rfl) 0 []
  have session : totalAfter none total batches = none ∨
      totalAfter none total batches = some total := by
    unfold totalAfter
    split
    · exact Or.inl rfl
    · exact Or.inr rfl
  have sameHeader := PacketHeader.decode_append complete back
  have header : SessionHeader (totalAfter none total batches) front := by
    have whole := member.sameSession session []
    rw [List.append_nil] at whole
    exact (sessionHeader_append_iff complete back).mp whole
  have announced := member.valid.header_length
  have number := member.batchTotal
  rw [sameHeader] at announced number
  have short : front.length < header.wellFormed.batchLength.value := by
    have missing := List.length_pos_of_ne_nil more
    simp only [PlausibleHeader.batchLength, announced, List.length_append]
    omega
  let collecting : ScanConfig :=
    { state :=
        { total := some total
          collecting := some header.wellFormed.batchLength }
      position := 0 + batches.flatten.length
      pending := front
      trail := after ++ [(0 + batches.flatten.length,
        .started (PacketHeader.decode front))] }
  have opened : scanner.feed (atBoundary (totalAfter none total batches)
      (0 + batches.flatten.length) after) front =
        scanner.drain collecting := by
    let start : ScanConfig := (atBoundary (totalAfter none total batches)
      (0 + batches.flatten.length) after).extend front
    have advanced : scanner.advance start = some _ := advance_header rfl header
    have drained := scanner.drain_of_some advanced
    simp only [start, Config.extend_pending, Config.extend_position,
      Config.extend_trail, atBoundary, List.nil_append, number] at drained
    exact drained
  have waiting : scanner.advance collecting = none := by
    apply scanner.advance_eq_none
    exact scanStep_collecting_short (Or.inl short)
  rw [scan, fresh_atBoundary, fed, opened, scanner.drain_of_none waiting]
  exact
    { verdicts := by
        rw [List.map_append, verdicts]
        rfl
      total := rfl
      collecting := rfl }

end Scan

/-- A summary that follows from how many bytes of a run arrived. -/
abbrev CutOff (count size received fragments : Nat) (stats : ServerStats) :
    Prop :=
  Reports (received / size)
    (if kPacketHeaderSize ≤ received % size then 1 else 0)
    (if received < kPacketHeaderSize then 0 else count - received / size)
    fragments stats

section Run

variable {count size : Nat} {batches : List (List Byte)}

theorem WholeRun.flatten_length (run : WholeRun count size batches) :
    batches.flatten.length = count * size := by
  rw [List.length_flatten, List.map_congr_left
    (fun batch member => (run.member batch member).2), List.map_const',
    List.sum_replicate, run.length_eq, smul_eq_mul]

theorem WholeRun.endsIn (run : WholeRun count size batches)
    (longer : kPacketHeaderSize < size) {stream : List Byte}
    (cut : stream <+: batches.flatten) :
    ∃ part, EndsIn (batches.take (stream.length / size))
        (if stream.length < kPacketHeaderSize then none
          else some (BitVec.ofNat 32 count))
        part (scan stream) ∧
      (part.isSome = true ↔ kPacketHeaderSize ≤ stream.length % size) := by
  have positive : 0 < size := by omega
  have sizes : ∀ batch ∈ batches, batch.length = size :=
    fun batch member => (run.member batch member).2
  have members : ∀ batch ∈ batches.take (stream.length / size),
      BatchOf (BitVec.ofNat 32 count) batch :=
    fun batch member => (run.member batch (List.mem_of_mem_take member)).1
  have long : ∀ batch ∈ batches.take (stream.length / size),
      kPacketHeaderSize < batch.length :=
    fun batch member => sizes batch (List.mem_of_mem_take member) ▸ longer
  have bytes := cut.length_le
  rw [run.flatten_length] at bytes
  have division := Nat.div_add_mod stream.length size
  have inside := Nat.mod_lt stream.length positive
  have parts := take_flatten positive sizes stream.length
  rw [← List.prefix_iff_eq_take.mp cut] at parts
  by_cases started : kPacketHeaderSize ≤ stream.length % size
  · -- the header of the next batch is there
    have below : stream.length / size < batches.length := by
      rw [run.length_eq, Nat.div_lt_iff_lt_mul positive]
      apply Nat.lt_of_le_of_ne bytes
      intro whole
      rw [whole, Nat.mul_mod_left] at started
      exact absurd started (by decide)
    have known : ¬stream.length < kPacketHeaderSize := by
      have fits := Nat.mod_le stream.length size
      omega
    have next := List.getElem_mem below
    have member := (run.member _ next).1
    have length := sizes _ next
    rw [List.getD_eq_getElem _ _ below] at parts
    have missing : batches[stream.length / size].drop
        (stream.length % size) ≠ [] := by
      rw [← List.length_pos_iff, List.length_drop]
      omega
    rw [← List.take_append_drop (stream.length % size)
      batches[stream.length / size]] at member
    have complete : kPacketHeaderSize ≤ (batches[stream.length / size].take
        (stream.length % size)).length := by
      rw [List.length_take]
      omega
    have ends := scan_header members long member complete missing
    rw [← parts] at ends
    rw [if_neg known]
    exact ⟨_, ends, iff_of_true rfl started⟩
  · have short : ((batches.getD (stream.length / size) []).take
        (stream.length % size)).length < kPacketHeaderSize := by
      have fits := List.length_take_le (stream.length % size)
        (batches.getD (stream.length / size) [])
      omega
    have ends := scan_short members long short
    rw [← parts] at ends
    refine ⟨none, ?_, iff_of_false (by simp) started⟩
    have none : (batches.take (stream.length / size)).isEmpty = true ↔
        stream.length < kPacketHeaderSize := by
      rw [List.isEmpty_iff_length_eq_zero, List.length_take, run.length_eq]
      constructor
      · intro empty
        rcases Nat.min_eq_zero_iff.mp empty with front | nothing
        · rw [front] at division
          omega
        · rw [nothing, Nat.zero_mul] at bytes
          exact Nat.lt_of_le_of_lt bytes kPacketHeaderSize_pos
      · intro few
        rw [Nat.div_eq_of_lt (Nat.lt_trans few longer), Nat.zero_min]
    rw [totalAfter, if_congr none rfl rfl] at ends
    exact ends

theorem acceptedBatches_part (batches : List (List Byte))
    (part : Option PacketHeader) :
    acceptedBatches (deliveredVerdicts batches ++
      (part.map Verdict.started).toList) = batches := by
  rw [acceptedBatches_append, acceptedBatches_delivered]
  cases part with
  | none => exact List.append_nil batches
  | some header => exact List.append_nil batches

theorem countP_part {test : Verdict → Bool}
    (started : ∀ header, test (.started header) = false)
    (accepted : ∀ batch, test (.accepted batch) = false)
    (batches : List (List Byte)) (part : Option PacketHeader) :
    (deliveredVerdicts batches ++
      (part.map Verdict.started).toList).countP test = 0 := by
  rw [List.countP_append, countP_delivered started accepted]
  cases part with
  | none => rfl
  | some header =>
      rw [Option.map_some, Option.toList_some, List.countP_singleton,
        started]
      rfl

/-- The idle session over any part of a run, cut into buffers in any way. -/
theorem WholeRun.cutOff (run : WholeRun count size batches)
    (bounded : count < 2 ^ 32) (longer : kPacketHeaderSize < size)
    {buffers : List (List Byte)} (cut : buffers.flatten <+: batches.flatten)
    {stats : ServerStats} (summarised : Summarised none buffers stats) :
    CutOff count size buffers.flatten.length buffers.length stats := by
  obtain ⟨receiver, ingested, printed⟩ := summarised
  have tracks := tracks_of_ingestAll ingested
  obtain ⟨part, ends, started⟩ := run.endsIn longer cut
  have bytes := cut.length_le
  rw [run.flatten_length] at bytes
  have within : buffers.flatten.length / size ≤ count :=
    Nat.div_le_of_le_mul (Nat.mul_comm count size ▸ bytes)
  have length : (batches.take (buffers.flatten.length / size)).length =
      buffers.flatten.length / size := by
    rw [← run.length_eq] at within
    exact List.length_take_of_le within
  rw [← List.take_append_drop (buffers.flatten.length / size) batches] at run
  have front := run.front.1
  by_cases few : buffers.flatten.length < kPacketHeaderSize
  · have below := Nat.lt_trans few longer
    have total := tracks.total_eq
    rw [ends.total, if_pos few] at total
    obtain ⟨_, _, printed'⟩ := sessionSummary_silent tracks total.symm
    cases printed.symm.trans printed'
    exact
      { batches := (Nat.div_eq_of_lt below).symm
        fragments := rfl
        badBatches := by
          rw [Nat.mod_eq_of_lt below, if_neg (Nat.not_le.mpr few)]
        lost := (if_pos few).symm
        duplicates := rfl
        outOfOrder := rfl }
  · have accepted := acceptedBatches_part
      (batches.take (buffers.flatten.length / size)) part
    have known := ends.total
    rw [if_neg few] at known
    have reports := summary_increasing tracks ends.verdicts (by
      rw [accepted]
      exact front.increasing) known printed
    rw [accepted, length, countP_part (fun _ => rfl) (fun _ => rfl),
      countP_part (fun _ => rfl) (fun _ => rfl), Nat.zero_add, Nat.add_zero,
      toNat_ofNat_word bounded, ends.collecting,
      if_congr started rfl rfl] at reports
    rw [CutOff, if_neg few]
    exact reports

end Run

/-- The first bytes of the client reach the server, in order. -/
structure Visit.Interrupted {σ ρ : Type} (platform : Platform)
    (byteDist : σ → Byte × σ)
    (sendBatch : List Byte → Nat → Except String (List (List Byte)))
    (path : ReceivePath ρ) (visit : Visit σ) : Prop
    extends visit.Steady platform sendBatch path where
  bytes : visit.burst.payloads.flatten <+:
    (runClient byteDist sendBatch visit.options
      visit.rng).datagrams.flatten

/-- A server without `--count` whose clients are cut off: each summary follows
from how many bytes of its client arrived, whatever the network made of the
datagrams. -/
theorem runServer_truncated {σ ρ : Type} {platform : Platform}
    {byteDist : σ → Byte × σ}
    {sendBatch : List Byte → Nat → Except String (List (List Byte))}
    {path : ReceivePath ρ} {options : ServerOptions}
    (carries : Carries sendBatch) {visits : List (Visit σ)}
    (interrupted : ∀ visit ∈ visits,
      visit.Interrupted platform byteDist sendBatch path)
    (idle : options.batchCount = none)
    (room : ∀ limit, options.sessionLimit = some limit →
      visits.length ≤ limit) :
    ∃ summaries,
      runServer path.wrapper.receive options
          (visits.flatMap fun visit => visit.burst.ticks path) =
        { summaries := summaries
          stop :=
            if options.sessionLimit = some visits.length then
              .returned []
            else
              .waiting {} } ∧
        List.Forall₂
          (fun visit => CutOff visit.options.batchCount
            visit.options.batchSize visit.burst.payloads.flatten.length
            visit.burst.arrivals.length) visits summaries := by
  obtain ⟨summaries, served, summarised⟩ := runServer_visits
    (fun visit member => (interrupted visit member).toSteady) idle room
  refine ⟨summaries, served, forall₂_summaries summarised ?_⟩
  intro visit member stats printed
  have cut := interrupted visit member
  obtain ⟨run, wire⟩ := @runClient_wholeRun _ byteDist _ _ cut.sendable
    carries cut.succeeds cut.count visit.rng
  have bytes := cut.bytes
  rw [wire] at bytes
  have cutOff := run.cutOff cut.count cut.size bytes printed
  rwa [Burst.length_payloads] at cutOff

/-- The visit of a client whose first bytes arrive in one piece. -/
def Visit.cutAfter (received : Nat) (visit : Visit Byte) : Visit Byte :=
  { visit with
    burst := burstAtOnce [visit.burst.payloads.flatten.take received] }

theorem Visit.Undisturbed.cutAfter {visit : Visit Byte}
    (undisturbed : visit.Undisturbed .posix sameByte
      (sendBatchFallback List.length) plainPath) (received : Nat) :
    (visit.cutAfter received).Interrupted .posix sameByte
      (sendBatchFallback List.length) plainPath := by
  have piece : (visit.cutAfter received).burst.payloads.flatten =
      visit.burst.payloads.flatten.take received := by
    rw [Visit.cutAfter, Burst.payloads, burstAtOnce, payloads_atOnce,
      List.flatten_singleton]
  exact
    { undisturbed.toSteady with
      separate := burstAtOnce_separate (by simp)
      delivered := fun arrival _ => plainPath_delivers arrival
      bytes := by
        rw [piece, undisturbed.bytes]
        exact List.take_prefix _ _ }

/-- One batch and the header of another, and then half a header. -/
theorem runServer_truncated_two :
    ∃ summaries,
      runServer receiveDatagram
          { port := 5000, loop := true, loopCount := some 2 }
          ((twoSmallBatches.cutAfter 41).burst.ticks plainPath ++
            (twoSmallBatches.cutAfter 10).burst.ticks plainPath) =
        { summaries := summaries, stop := .returned [] } ∧
        summaries.map ServerStats.batches = [1, 0] ∧
        summaries.map ServerStats.badBatches = [1, 0] ∧
        summaries.map ServerStats.lost = [1, 0] := by
  have interrupted : ∀ visit ∈ [twoSmallBatches.cutAfter 41,
      twoSmallBatches.cutAfter 10], visit.Interrupted .posix sameByte
        (sendBatchFallback List.length) plainPath := by
    intro visit member
    rcases List.mem_pair.mp member with rfl | rfl
    · exact twoSmallBatches_undisturbed.cutAfter 41
    · exact twoSmallBatches_undisturbed.cutAfter 10
  have first : (twoSmallBatches.cutAfter 41).burst.payloads.flatten.length =
      41 := by decide +kernel
  have second : (twoSmallBatches.cutAfter 10).burst.payloads.flatten.length =
      10 := by decide +kernel
  obtain ⟨summaries, served, cuts⟩ := @runServer_truncated _ _ _ _ _ _
    { port := 5000, loop := true, loopCount := some 2 }
    sendBatchFallback_carries _ interrupted rfl
    (by
      intro limit known
      cases known
      decide)
  rw [List.flatMap_cons, List.flatMap_cons, List.flatMap_nil,
    List.append_nil] at served
  refine ⟨summaries, served, ?_⟩
  cases cuts with
  | cons one rest =>
      cases rest with
      | cons two rest =>
          cases rest
          rw [first] at one
          rw [second] at two
          simp only [List.map_cons, List.map_nil, one.batches, two.batches,
            one.badBatches, two.badBatches, one.lost, two.lost]
          decide

end BoostUdp
