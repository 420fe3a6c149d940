import BoostUdp.ServerRun
import BoostUdp.WholeRun

/-!
# Traffic of several sessions

Blocks that each start with a header of their own length, whoever sent them
and whatever became of their payload.  The scanner judges the blocks of its
session one by one and passes over the others.
-/

namespace BoostUdp

open LittleEndian StreamMachine

/-- Nothing in the stream looks like a header but the start of a block. -/
def HeadersAtStarts (blocks : List (List Byte)) : Prop :=
  ∀ offset, peekBatchLength (blocks.flatten.drop offset) ≠ 0 →
    ∃ before block after, blocks = before ++ block :: after ∧
      offset = before.flatten.length

theorem lt_length_of_header {stream : List Byte} {offset : Nat}
    (header : peekBatchLength (stream.drop offset) ≠ 0) :
    offset < stream.length := by
  have complete := (peekBatchLength_ne_zero_iff.mp header).complete
  have positive := kPacketHeaderSize_pos
  rw [List.length_drop] at complete
  omega

/-- Blocks behind each other, each with a header of its own length. -/
structure Traffic (blocks : List (List Byte)) : Prop where
  headed : ∀ block ∈ blocks, PlausibleHeader block ∧
    (PacketHeader.decode block).length.toNat = block.length
  longer : ∀ block ∈ blocks, kPacketHeaderSize < block.length
  starts : HeadersAtStarts blocks

/-- What the scanner finds in one block. -/
def blockVerdicts (total : Word) (block : List Byte) : List Verdict :=
  if (PacketHeader.decode block).batchTotal = total then
    [.started (PacketHeader.decode block),
      if ValidBatch block then .accepted block else .rejected block 0]
  else
    []

/-- The blocks of one of the sessions. -/
def sessionBlocks (total : Word) (blocks : List (List Byte)) :
    List (List Byte) :=
  blocks.filter fun block => (PacketHeader.decode block).batchTotal = total

section Blocks

variable {block : List Byte} {rest : List (List Byte)} {total : Word}

theorem Traffic.tail (traffic : Traffic (block :: rest)) : Traffic rest := by
  refine
    { headed := fun other member =>
        traffic.headed other (List.mem_cons_of_mem _ member)
      longer := fun other member =>
        traffic.longer other (List.mem_cons_of_mem _ member)
      starts := ?_ }
  intro offset header
  have long := traffic.longer block List.mem_cons_self
  have found := traffic.starts (block.length + offset)
  rw [List.flatten_cons, List.drop_length_add_append] at found
  obtain ⟨before, start, after, split, position⟩ := found header
  cases before with
  | nil =>
      rw [List.flatten_nil, List.length_nil] at position
      omega
  | cons first before =>
      rw [List.cons_append] at split
      obtain ⟨rfl, later⟩ := List.cons.inj split
      rw [List.flatten_cons, List.length_append] at position
      exact ⟨before, start, after, later, Nat.add_left_cancel position⟩

theorem Traffic.quiet (traffic : Traffic (block :: rest)) {offset : Nat}
    (positive : 0 < offset) (inside : offset < block.length) :
    ¬PlausibleHeader ((block ++ rest.flatten).drop offset) := by
  intro header
  obtain ⟨before, start, after, split, position⟩ :=
    traffic.starts offset (peekBatchLength_ne_zero_iff.mpr header)
  cases before with
  | nil =>
      rw [List.flatten_nil, List.length_nil] at position
      omega
  | cons first before =>
      rw [List.cons_append] at split
      obtain ⟨rfl, _⟩ := List.cons.inj split
      rw [List.flatten_cons, List.length_append] at position
      omega

/-- Nothing of a block is worth salvaging. -/
theorem Traffic.unsalvaged (traffic : Traffic (block :: rest)) :
    salvaged (some total) block = [] := by
  by_contra carried
  obtain ⟨offset, next, _⟩ := rescued_of_salvaged carried
  have positive := kPacketHeaderSize_pos
  have complete := next.complete
  apply traffic.quiet next.behind (by omega)
  have header := (nextCandidate_iff.mp next.candidate).1
  rw [List.drop_append_of_le_length (by omega)]
  exact (plausibleHeader_append_iff header.complete _).mpr header

/-- A block of another session holds no header of this one. -/
theorem Traffic.foreign (traffic : Traffic (block :: rest))
    (other : (PacketHeader.decode block).batchTotal ≠ total) :
    ∀ offset < block.length,
      ¬SessionHeader (some total) ((block ++ rest.flatten).drop offset) := by
  intro offset inside header
  rcases Nat.eq_zero_or_pos offset with rfl | positive
  · have complete := (traffic.headed block List.mem_cons_self).1.complete
    have same := header.same total rfl
    rw [List.drop_zero, PacketHeader.decode_append complete] at same
    exact other same
  · exact traffic.quiet positive inside header.wellFormed

end Blocks

section Scan

variable {block : List Byte} {rest : List (List Byte)} {known : Option Word}
  {total : Word}

/-- A block of the session is judged, and the scanner goes on behind it. -/
theorem feed_block (traffic : Traffic (block :: rest))
    (own : (PacketHeader.decode block).batchTotal = total)
    (session : known = none ∨ known = some total) (position : Nat)
    (trail : List (Nat × Verdict)) :
    ∃ trail', trail'.map Prod.snd =
        trail.map Prod.snd ++ blockVerdicts total block ∧
      scanner.feed (atBoundary known position trail)
          (block ++ rest.flatten) =
        scanner.feed (atBoundary (some total) (position + block.length)
          trail') rest.flatten := by
  obtain ⟨wellFormed, announced⟩ := traffic.headed block List.mem_cons_self
  have long := traffic.longer block List.mem_cons_self
  have complete := wellFormed.complete
  have sameHeader := PacketHeader.decode_append complete rest.flatten
  have header : SessionHeader known (block ++ rest.flatten) := by
    refine ⟨(plausibleHeader_append_iff complete _).mpr wellFormed, ?_⟩
    rw [sameHeader]
    rintro found rfl
    rcases session with absent | present
    · contradiction
    · rw [Option.some.inj present]
      exact own
  let collecting : ScanConfig :=
    { state :=
        { total := some total
          collecting := some header.wellFormed.batchLength }
      position := position
      pending := block ++ rest.flatten
      trail := trail ++ [(position, .started (PacketHeader.decode block))] }
  have collected : scanner.feed (atBoundary known position trail)
      (block ++ rest.flatten) = scanner.drain collecting := by
    let start : ScanConfig :=
      (atBoundary known position trail).extend (block ++ rest.flatten)
    have advanced : scanner.advance start = some _ :=
      advance_header rfl header
    have drained := scanner.drain_of_some advanced
    simp only [start, Config.extend_pending, Config.extend_position,
      Config.extend_trail, atBoundary, List.nil_append, sameHeader,
      own] at drained
    exact drained
  have length : header.wellFormed.batchLength.value = block.length := by
    simp only [PlausibleHeader.batchLength, sameHeader]
    exact announced
  have front : collecting.pending.take
      header.wellFormed.batchLength.value = block := by
    rw [length]
    exact List.take_left
  have behind : collecting.pending.drop
      header.wellFormed.batchLength.value = rest.flatten := by
    rw [length]
    exact List.drop_left
  have arrived : header.wellFormed.batchLength.value ≤
      collecting.pending.length := by
    rw [length]
    exact List.length_append ▸ Nat.le_add_right _ _
  have beyond : kPacketHeaderSize < collecting.pending.length :=
    Nat.lt_of_lt_of_le (length ▸ long) arrived
  have verdicts : blockVerdicts total block =
      [.started (PacketHeader.decode block),
        if ValidBatch block then .accepted block else .rejected block 0] :=
    if_pos own
  rw [collected, verdicts]
  by_cases valid : ValidBatch block
  · have advanced := advance_accept rfl arrived beyond (by rwa [front])
    rw [front, behind, length] at advanced
    rw [if_pos valid]
    refine ⟨_, ?_, scanner.drain_of_some advanced⟩
    simp only [collecting, List.map_append, List.append_assoc]
    rfl
  · have advanced := advance_reject rfl arrived beyond (by rwa [front])
    have whole : rejectedAdvance (some total) block = block.length := by
      rw [rejectedAdvance, traffic.unsalvaged]
      rfl
    rw [length] at front behind
    rw [length, front, whole, behind, traffic.unsalvaged] at advanced
    rw [if_neg valid]
    refine ⟨_, ?_, scanner.drain_of_some advanced⟩
    simp only [collecting, List.map_append, List.append_assoc]
    rfl

theorem feed_traffic {blocks : List (List Byte)} (traffic : Traffic blocks)
    (position : Nat) (trail : List (Nat × Verdict)) :
    (scanner.feed (atBoundary (some total) position trail)
        blocks.flatten).trail.map Prod.snd =
      trail.map Prod.snd ++ blocks.flatMap (blockVerdicts total) ∧
    (scanner.feed (atBoundary (some total) position trail)
        blocks.flatten).state = { total := some total } := by
  induction blocks generalizing position trail with
  | nil =>
      rw [List.flatten_nil, feed, Config.extend_nil,
        scanner.drain_of_none (atBoundary_waiting _ _ _)]
      exact ⟨(List.append_nil _).symm, rfl⟩
  | cons block rest induction =>
      have onward := induction traffic.tail
      rw [List.flatten_cons, List.flatMap_cons]
      by_cases own : (PacketHeader.decode block).batchTotal = total
      · obtain ⟨judged, verdicts, fed⟩ :=
          feed_block traffic own (Or.inr rfl) position trail
        rw [fed, ← List.append_assoc, ← verdicts]
        exact onward (position + block.length) judged
      · let start : ScanConfig := (atBoundary (some total) position
          trail).extend (block ++ rest.flatten)
        have pending : start.pending = block ++ rest.flatten := rfl
        have foreign := traffic.foreign own
        have skipped : blockVerdicts total block = [] := if_neg own
        rw [skipped, List.nil_append]
        cases rest with
        | nil =>
            have nothing : ∀ offset,
                ¬SessionHeader (some total) (start.pending.drop offset) := by
              intro offset header
              by_cases inside : offset < block.length
              · exact foreign offset inside header
              · have complete := header.wellFormed.complete
                have positive := kPacketHeaderSize_pos
                rw [pending, List.length_drop, List.flatten_nil,
                  List.append_nil] at complete
                omega
            obtain ⟨same, state⟩ := drain_quiet start rfl nothing
            refine ⟨?_, state⟩
            have unchanged : (scanner.drain start).trail = trail := same
            rw [feed, unchanged]
            exact (List.append_nil _).symm
        | cons next others =>
            have after := traffic.tail.longer next List.mem_cons_self
            have empty : ∀ offset < block.length,
                offset + kPacketHeaderSize ≤ start.pending.length ∧
                  ¬SessionHeader (some total)
                    (start.pending.drop offset) := by
              intro offset inside
              refine ⟨?_, foreign offset inside⟩
              rw [pending, List.length_append, List.flatten_cons,
                List.length_append]
              omega
            have drained := drain_skip start rfl block.length empty
            rw [pending, List.drop_left] at drained
            rw [feed, drained]
            exact onward (position + block.length) trail

/-- The first block defines the session. -/
theorem scan_traffic (traffic : Traffic (block :: rest))
    (session : (PacketHeader.decode block).batchTotal = total) :
    (scan (block :: rest).flatten).trail.map Prod.snd =
        (block :: rest).flatMap (blockVerdicts total) ∧
      (scan (block :: rest).flatten).state = { total := some total } := by
  obtain ⟨judged, verdicts, fed⟩ :=
    feed_block traffic session (Or.inl rfl) 0 []
  rw [List.map_nil, List.nil_append] at verdicts
  rw [scan, fresh_atBoundary, List.flatten_cons, List.flatMap_cons, fed,
    ← verdicts]
  exact feed_traffic traffic.tail (0 + block.length) judged

end Scan

section Summary

variable (total : Word)

theorem acceptedBatches_traffic (blocks : List (List Byte)) :
    acceptedBatches (blocks.flatMap (blockVerdicts total)) =
      (sessionBlocks total blocks).filter fun block => ValidBatch block := by
  induction blocks with
  | nil => rfl
  | cons block rest induction =>
      rw [List.flatMap_cons, acceptedBatches_append, induction]
      by_cases own : (PacketHeader.decode block).batchTotal = total
      · by_cases valid : ValidBatch block
        · simp [blockVerdicts, sessionBlocks, own, valid]
        · simp [blockVerdicts, sessionBlocks, own, valid]
      · simp [blockVerdicts, sessionBlocks, own]

theorem countP_rejected_traffic (blocks : List (List Byte)) :
    (blocks.flatMap (blockVerdicts total)).countP Verdict.isRejected =
      (sessionBlocks total blocks).countP fun block => ¬ValidBatch block := by
  induction blocks with
  | nil => rfl
  | cons block rest induction =>
      rw [List.flatMap_cons, List.countP_append, induction]
      by_cases own : (PacketHeader.decode block).batchTotal = total
      · by_cases valid : ValidBatch block
        · simp [blockVerdicts, sessionBlocks, own, valid,
            Verdict.isRejected]
        · simp [blockVerdicts, sessionBlocks, own, valid,
            Verdict.isRejected, Nat.add_comm]
      · simp [blockVerdicts, sessionBlocks, own]

theorem countP_salvaged_traffic (blocks : List (List Byte)) :
    (blocks.flatMap (blockVerdicts total)).countP Verdict.isSalvaged = 0 := by
  rw [List.countP_eq_zero]
  intro verdict member
  obtain ⟨block, _, found⟩ := List.mem_flatMap.mp member
  rw [blockVerdicts] at found
  split at found
  · rcases List.mem_pair.mp found with rfl | rfl
    · exact Bool.false_ne_true
    · split
      · exact Bool.false_ne_true
      · exact Bool.false_ne_true
  · contradiction

end Summary

/-- The idle session over any traffic: of the session that comes first, it
counts the valid blocks and the damaged ones, and of the others nothing. -/
theorem Traffic.summary {total : Word} {block : List Byte}
    {rest : List (List Byte)} (traffic : Traffic (block :: rest))
    (session : (PacketHeader.decode block).batchTotal = total)
    (increasing : Increasing
      ((sessionBlocks total (block :: rest)).filter fun block =>
        ValidBatch block))
    {buffers : List (List Byte)}
    (same : buffers.flatten = (block :: rest).flatten) {stats : ServerStats}
    (summarised : Summarised none buffers stats) :
    Reports
      ((sessionBlocks total (block :: rest)).countP fun block =>
        ValidBatch block)
      ((sessionBlocks total (block :: rest)).countP fun block =>
        ¬ValidBatch block)
      (total.toNat - (sessionBlocks total (block :: rest)).countP
        fun block => ValidBatch block)
      buffers.length stats := by
  obtain ⟨receiver, ingested, printed⟩ := summarised
  have tracks := tracks_of_ingestAll ingested
  rw [same] at tracks
  obtain ⟨verdicts, state⟩ := scan_traffic traffic session
  have accepted := acceptedBatches_traffic total (block :: rest)
  have reports := summary_increasing tracks verdicts (by rwa [accepted])
    (congrArg ScanState.total state) printed
  rw [accepted, countP_rejected_traffic, countP_salvaged_traffic, state,
    ← List.countP_eq_length_filter] at reports
  exact reports

end BoostUdp
