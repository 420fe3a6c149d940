import BoostUdp.Client
import BoostUdp.SessionSummary

/-!
# Delivery of whole batches

What the receiver makes of a stream of valid batches of one session, and from
it the statistics after any order, repetition and omission of the batches of
one sender.
-/

namespace BoostUdp

open LittleEndian StreamMachine

/-- What the scanner finds in batches that are all accepted. -/
def deliveredVerdicts (batches : List (List Byte)) : List Verdict :=
  batches.flatMap fun batch =>
    [.started (PacketHeader.decode batch), .accepted batch]

theorem acceptedBatches_delivered (batches : List (List Byte)) :
    acceptedBatches (deliveredVerdicts batches) = batches := by
  induction batches with
  | nil => rfl
  | cons batch batches induction =>
      exact congrArg (batch :: ·) induction

theorem countP_delivered {test : Verdict → Bool}
    (started : ∀ header, test (.started header) = false)
    (accepted : ∀ batch, test (.accepted batch) = false)
    (batches : List (List Byte)) :
    (deliveredVerdicts batches).countP test = 0 := by
  rw [List.countP_eq_zero]
  intro verdict member
  obtain ⟨batch, _, found⟩ := List.mem_flatMap.mp member
  rcases List.mem_pair.mp found with rfl | rfl
  · simp [started]
  · simp [accepted]

/-- The session total after some batches. -/
def totalAfter (known : Option Word) (total : Word)
    (batches : List (List Byte)) : Option Word :=
  if batches.isEmpty then known else some total

/-- Batches that more than a header's worth of bytes follows or belongs to
are accepted one after the other. -/
theorem feed_batches {total : Word} {batches : List (List Byte)}
    (members : ∀ batch ∈ batches, BatchOf total batch) (more : List Byte)
    (beyond : more ≠ [] ∨
      ∀ batch ∈ batches, kPacketHeaderSize < batch.length)
    {known : Option Word} (session : known = none ∨ known = some total)
    (position : Nat) (trail : List (Nat × Verdict)) :
    ∃ after, after.map Prod.snd =
        trail.map Prod.snd ++ deliveredVerdicts batches ∧
      scanner.feed (atBoundary known position trail)
          (batches.flatten ++ more) =
        scanner.feed
          (atBoundary (totalAfter known total batches)
            (position + batches.flatten.length) after) more := by
  induction batches generalizing known position trail with
  | nil => exact ⟨trail, by simp [deliveredVerdicts], by simp [totalAfter]⟩
  | cons batch batches induction =>
      have member := members batch List.mem_cons_self
      have complete := member.valid.wellFormed.complete
      have longer : kPacketHeaderSize <
          (batch ++ (batches.flatten ++ more)).length := by
        rw [List.length_append, List.length_append]
        rcases beyond with follows | long
        · have := List.length_pos_of_ne_nil follows
          omega
        · have := long batch List.mem_cons_self
          omega
      have others : more ≠ [] ∨
          ∀ batch ∈ batches, kPacketHeaderSize < batch.length :=
        beyond.imp_right fun long other found =>
          long other (List.mem_cons_of_mem _ found)
      obtain ⟨after, verdicts, fed⟩ := induction
        (fun other found => members other (List.mem_cons_of_mem _ found))
        others (Or.inr rfl) (position + batch.length)
        (trail ++ [(position, .started (PacketHeader.decode batch)),
          (position, .accepted batch)])
      refine ⟨after, ?_, ?_⟩
      · rw [verdicts]
        simp [deliveredVerdicts]
      · have known' : totalAfter (some total) total batches =
            totalAfter known total (batch :: batches) := by
          simp [totalAfter]
        rw [List.flatten_cons, List.append_assoc,
          feed_boundary_batch member session position trail longer, fed,
          known', List.length_append, Nat.add_assoc]

theorem fresh_atBoundary : ScanConfig.fresh = atBoundary none 0 [] := rfl

/-- A stream of batches longer than a header leaves the scanner at its end,
with every batch accepted. -/
theorem scan_batches {total : Word} {batches : List (List Byte)}
    (members : ∀ batch ∈ batches, BatchOf total batch)
    (long : ∀ batch ∈ batches, kPacketHeaderSize < batch.length) :
    ∃ after, after.map Prod.snd = deliveredVerdicts batches ∧
      scan batches.flatten =
        atBoundary (totalAfter none total batches)
          batches.flatten.length after := by
  obtain ⟨after, verdicts, fed⟩ := feed_batches members []
    (Or.inr long) (Or.inl rfl) 0 []
  refine ⟨after, by simpa using verdicts, ?_⟩
  rw [List.append_nil] at fed
  rw [scan, fresh_atBoundary, fed, feed, Config.extend_nil,
    scanner.drain_of_none (atBoundary_waiting _ _ _), Nat.zero_add]

/-- The positions of a delivery whose index is new and smaller than an
earlier one. -/
def outOfOrderPositions (delivery : List Nat) : Nat :=
  (List.range delivery.length).countP fun position =>
    delivery.getD position 0 ∉ delivery.take position ∧
      ∃ earlier ∈ delivery.take position, delivery.getD position 0 < earlier

theorem outOfOrderPositions_append (delivery : List Nat) (index : Nat) :
    outOfOrderPositions (delivery ++ [index]) =
      outOfOrderPositions delivery +
        if index ∉ delivery ∧ ∃ earlier ∈ delivery, index < earlier
        then 1 else 0 := by
  have before : ∀ position ∈ List.range delivery.length,
      (delivery ++ [index]).getD position 0 = delivery.getD position 0 ∧
        (delivery ++ [index]).take position = delivery.take position := by
    intro position member
    have small := List.mem_range.mp member
    exact ⟨List.getD_append _ _ _ _ small,
      List.take_append_of_le_length (Nat.le_of_lt small)⟩
  have last : (delivery ++ [index]).getD delivery.length 0 = index ∧
      (delivery ++ [index]).take delivery.length = delivery := by
    simp
  rw [outOfOrderPositions, List.length_append, List.length_singleton,
    List.range_succ, List.countP_append, outOfOrderPositions]
  congr 1
  · apply List.countP_congr
    intro position member
    rw [(before position member).1, (before position member).2]
  · rw [List.countP_singleton, last.1, last.2]
    simp

/-- The statistics of delivering the batches of one sender in some order. -/
structure DeliveryStats (delivery : List Nat) (stats : ServerStats) :
    Prop where
  consistent : Consistent stats
  seenSeq : stats.seenSeq =
    (delivery.map fun index => BitVec.ofNat 32 index).toFinset
  outOfOrder : stats.outOfOrder = outOfOrderPositions delivery

theorem toNat_ofNat_word {number : Nat} (small : number < 2 ^ 32) :
    (BitVec.ofNat 32 number).toNat = number := by
  rw [BitVec.toNat_ofNat, Nat.mod_eq_of_lt small]

theorem DeliveryStats.mem_seenSeq_iff {delivery : List Nat}
    {stats : ServerStats} (delivered : DeliveryStats delivery stats)
    (small : ∀ index ∈ delivery, index < 2 ^ 32) {index : Nat}
    (fits : index < 2 ^ 32) :
    BitVec.ofNat 32 index ∈ stats.seenSeq ↔ index ∈ delivery := by
  rw [delivered.seenSeq, List.mem_toFinset, List.mem_map]
  constructor
  · rintro ⟨other, member, same⟩
    have equal := congrArg BitVec.toNat same
    rw [toNat_ofNat_word (small other member), toNat_ofNat_word fits] at equal
    exact equal ▸ member
  · intro member
    exact ⟨index, member, rfl⟩

theorem DeliveryStats.lt_highestSeq_iff {delivery : List Nat}
    {stats : ServerStats} (delivered : DeliveryStats delivery stats)
    (small : ∀ index ∈ delivery, index < 2 ^ 32) {index : Nat}
    (fits : index < 2 ^ 32) (started : stats.haveSeq = true) :
    BitVec.ofNat 32 index < stats.highestSeq ↔
      ∃ earlier ∈ delivery, index < earlier := by
  obtain ⟨member, greatest⟩ := delivered.consistent.highest started
  constructor
  · intro below
    rw [delivered.seenSeq, List.mem_toFinset] at member
    obtain ⟨earlier, found, same⟩ := List.mem_map.mp member
    refine ⟨earlier, found, ?_⟩
    rw [← same, BitVec.lt_def, toNat_ofNat_word fits,
      toNat_ofNat_word (small earlier found)] at below
    exact below
  · rintro ⟨earlier, found, below⟩
    have inside := (delivered.mem_seenSeq_iff small
      (small earlier found)).mpr found
    have bound := BitVec.le_def.mp (greatest _ inside)
    rw [toNat_ofNat_word (small earlier found)] at bound
    rw [BitVec.lt_def, toNat_ofNat_word fits]
    omega

theorem DeliveryStats.deliver {delivery : List Nat} {stats : ServerStats}
    (delivered : DeliveryStats delivery stats)
    (small : ∀ index ∈ delivery, index < 2 ^ 32) {index : Nat}
    (fits : index < 2 ^ 32) {batch : List Byte}
    (seq : batchSeq batch = BitVec.ofNat 32 index) :
    DeliveryStats (delivery ++ [index])
      ((stats.observe (.started (PacketHeader.decode batch))).observe
        (.accepted batch)) := by
  have seen := delivered.mem_seenSeq_iff small fits
  refine
    { consistent := (delivered.consistent.observe _).observe _
      seenSeq := ?_
      outOfOrder := ?_ }
  · simp only [ServerStats.observe, trackSequence_seenSeq]
    rw [← batchSeq, seq, delivered.seenSeq]
    ext other
    simp
  · rw [outOfOrderPositions_append, ← delivered.outOfOrder]
    simp only [ServerStats.observe]
    rw [← batchSeq, seq]
    rcases trackSequence_cases
        { stats with
          wireBatchTotal := some (PacketHeader.decode batch).batchTotal }
        (BitVec.ofNat 32 index) with
      ⟨duplicate, tracked⟩ | ⟨new, untouched, tracked⟩ |
      ⟨new, started, tracked⟩
    · have old := seen.mp duplicate
      simp [tracked, old]
    · have first : delivery = [] := by
        have none : ¬stats.seenSeq.Nonempty := by
          rw [← delivered.consistent.haveSeq]
          simpa using untouched
        rw [Finset.not_nonempty_iff_eq_empty, delivered.seenSeq] at none
        simpa using none
      simp [tracked, first]
    · have unseen := seen.not.mp new
      have later := delivered.lt_highestSeq_iff small fits started
      simp [tracked, unseen, later]

theorem tally_delivery {batch : Nat → List Byte} {delivery : List Nat}
    (small : ∀ index ∈ delivery, index < 2 ^ 32)
    (seqs : ∀ index ∈ delivery,
      batchSeq (batch index) = BitVec.ofNat 32 index) (calls : Nat) :
    DeliveryStats delivery
      (tally calls (deliveredVerdicts (delivery.map batch))) := by
  induction delivery using List.reverseRecOn with
  | nil =>
      exact
        { consistent := tally_consistent calls []
          seenSeq := rfl
          outOfOrder := rfl }
  | append_singleton delivery index induction =>
      have before : ∀ other ∈ delivery, other ∈ delivery ++ [index] :=
        fun other => List.mem_append_left _
      have last : index ∈ delivery ++ [index] :=
        List.mem_append_right _ (List.mem_singleton_self index)
      have delivered := (induction
        (fun other member => small other (before other member))
        (fun other member => seqs other (before other member))).deliver
          (fun other member => small other (before other member))
          (small index last) (seqs index last)
      have verdicts : deliveredVerdicts ((delivery ++ [index]).map batch) =
          (deliveredVerdicts (delivery.map batch) ++
            [.started (PacketHeader.decode (batch index))]) ++
            [.accepted (batch index)] := by
        simp [deliveredVerdicts]
      rw [verdicts, tally_append, tally_append]
      exact delivered

theorem DeliveryStats.card_seenSeq {delivery : List Nat}
    {stats : ServerStats} (delivered : DeliveryStats delivery stats)
    (small : ∀ index ∈ delivery, index < 2 ^ 32) :
    stats.seenSeq.card = delivery.toFinset.card := by
  have image : (delivery.map fun index => BitVec.ofNat 32 index).toFinset =
      delivery.toFinset.image fun index => BitVec.ofNat 32 index := by
    ext seq
    simp
  rw [delivered.seenSeq, image]
  apply Finset.card_image_of_injOn
  intro left leftMember right rightMember same
  have equal := congrArg BitVec.toNat same
  simp only [List.coe_toFinset, Set.mem_ofPred_eq] at leftMember rightMember
  rw [toNat_ofNat_word (small left leftMember),
    toNat_ofNat_word (small right rightMember)] at equal
  exact equal

/-- `batch index` is what `build_batch` returned for a buffer of this size, in
some state of the random generator. -/
def Built {ρ : Type} (byteDist : ρ → Byte × ρ) (count size : Nat)
    (batch : Nat → List Byte) : Prop :=
  ∀ index < count, ∃ buffer rng rest, buffer.length = size ∧
    buildBatch byteDist buffer (BitVec.ofNat 32 index)
      (BitVec.ofNat 32 count) rng = .ok (batch index, rest)

section Sender

variable {ρ : Type} {byteDist : ρ → Byte × ρ} {count size : Nat}
  {batch : Nat → List Byte}

theorem Built.batchOf (built : Built byteDist count size batch)
    (bounded : count < 2 ^ 32) (atLeast : kPacketHeaderSize ≤ size)
    (atMost : size ≤ kMaxBatchSize) {index : Nat} (below : index < count) :
    BatchOf (BitVec.ofNat 32 count) (batch index) ∧
      (batch index).length = size ∧
      batchSeq (batch index) = BitVec.ofNat 32 index := by
  obtain ⟨buffer, rng, rest, length, made⟩ := built index below
  have inRange : BitVec.ofNat 32 index < BitVec.ofNat 32 count := by
    rw [BitVec.lt_def, toNat_ofNat_word (Nat.lt_trans below bounded),
      toNat_ofNat_word bounded]
    exact below
  have drawn := length_drawBytes byteDist
    (buffer.length - kPacketHeaderSize) rng
  rw [buildBatch_eq byteDist rng (by omega) inRange] at made
  have encoded := congrArg Prod.fst (Except.ok.inj made)
  dsimp only at encoded
  have room : kPacketHeaderSize + (buffer.length - kPacketHeaderSize) =
      size := by omega
  rw [← encoded]
  refine ⟨⟨encodeBatch_valid inRange ?_,
    decode_encodeBatch_batchTotal _ _ _⟩, ?_, decode_encodeBatch_seq _ _ _⟩
  · rw [drawn, room]
    exact atMost
  · rw [length_encodeBatch, drawn, room]

/-- Sending succeeds, and the datagrams carry the batches in order. -/
theorem send_batches (batches : List (List Byte)) (mss : Nat) :
    ∃ sent, batches.mapM
        (fun data => sendBatchFallback List.length data mss) = .ok sent ∧
      sent.flatten.flatten = batches.flatten := by
  induction batches with
  | nil => exact ⟨[], rfl, rfl⟩
  | cons batch batches induction =>
      obtain ⟨segments, sentBatch, flat⟩ :=
        sendBatchFallback_complete batch mss
      obtain ⟨sent, sentAll, flatAll⟩ := induction
      refine ⟨segments :: sent, ?_, ?_⟩
      · rw [List.mapM_cons, sentBatch, sentAll]
        rfl
      · rw [List.flatten_cons, List.flatten_append, flat, flatAll,
          List.flatten_cons]

/-- The batches of one sender, delivered whole in any order, with repetitions
and omissions: the summary is what the delivery says. -/
theorem delivery_summary (built : Built byteDist count size batch)
    (bounded : count < 2 ^ 32) (longer : kPacketHeaderSize < size)
    (atMost : size ≤ kMaxBatchSize) (mss : Nat) {delivery : List Nat}
    (inRange : ∀ index ∈ delivery, index < count) :
    ∃ sent receiver summary,
      (delivery.map batch).mapM
          (fun data => sendBatchFallback List.length data mss) = .ok sent ∧
        ingestAll {} sent.flatten = some receiver ∧
        sessionSummary none receiver = some summary ∧
        summary.batches = delivery.length ∧
        summary.badBatches = 0 ∧
        summary.duplicates = delivery.length - delivery.toFinset.card ∧
        summary.lost =
          (if delivery = [] then 0 else count - delivery.toFinset.card) ∧
        summary.outOfOrder = outOfOrderPositions delivery ∧
        summary.fragments = sent.flatten.length := by
  have small : ∀ index ∈ delivery, index < 2 ^ 32 := fun index member =>
    Nat.lt_trans (inRange index member) bounded
  have batchOf := fun index member =>
    built.batchOf bounded (Nat.le_of_lt longer) atMost (inRange index member)
  obtain ⟨sent, sending, flat⟩ := send_batches (delivery.map batch) mss
  obtain ⟨receiver, ingested, tracks⟩ := ingestAll_fresh sent.flatten
  have members : ∀ data ∈ delivery.map batch,
      BatchOf (BitVec.ofNat 32 count) data := by
    intro data member
    obtain ⟨index, found, rfl⟩ := List.mem_map.mp member
    exact (batchOf index found).1
  have long : ∀ data ∈ delivery.map batch,
      kPacketHeaderSize < data.length := by
    intro data member
    obtain ⟨index, found, rfl⟩ := List.mem_map.mp member
    rw [(batchOf index found).2.1]
    exact longer
  obtain ⟨trail, verdicts, scanned⟩ := scan_batches members long
  rw [← flat] at scanned
  have sameVerdicts : receiver.verdicts =
      deliveredVerdicts (delivery.map batch) := by
    rw [← tracks.logged.trail, scanned]
    exact verdicts
  have delivered : DeliveryStats delivery receiver.stats := by
    rw [tracks.logged.stats, sameVerdicts]
    exact tally_delivery small
      (fun index member => (batchOf index member).2.2) _
  have idle : receiver.reassembly.active = false := by
    rw [tracks.active_eq, scanned]
    rfl
  have batches : receiver.stats.batches = delivery.length := by
    rw [tracks.logged.batches, sameVerdicts, acceptedBatches_delivered,
      List.length_map]
  have noBad : receiver.stats.badBatches = 0 := by
    rw [tracks.logged.badBatches, sameVerdicts]
    exact countP_delivered (fun _ => rfl) (fun _ => rfl) _
  have fragments : receiver.stats.fragments = sent.flatten.length := by
    rw [tracks.logged.fragments, sameVerdicts,
      countP_delivered (fun _ => rfl) (fun _ => rfl), Nat.add_zero]
  have distinct := delivered.card_seenSeq small
  have duplicates := delivered.consistent.batches
  have wire : receiver.stats.wireBatchTotal =
      totalAfter none (BitVec.ofNat 32 count) (delivery.map batch) := by
    rw [← tracks.total_eq, scanned]
    rfl
  by_cases nothing : delivery = []
  · subst nothing
    obtain ⟨_, fresh, summarised⟩ := sessionSummary_silent tracks wire
    refine ⟨sent, receiver, _, sending, ingested, summarised, ?_⟩
    exact ⟨rfl, rfl, rfl, rfl, rfl, rfl⟩
  · have known : receiver.stats.wireBatchTotal =
        some (BitVec.ofNat 32 count) := by
      rw [wire]
      simp [totalAfter, nothing]
    obtain ⟨summarised, _⟩ := sessionSummary_total tracks known
    refine ⟨sent, receiver, _, sending, ingested, summarised, batches,
      by simp [noBad, idle], ?_, ?_, delivered.outOfOrder, fragments⟩
    · dsimp only
      omega
    · rw [if_neg nothing, ← distinct, toNat_ofNat_word bounded]

end Sender

/-- Batches with a constant payload are built by a constant distribution. -/
theorem built_constant (byte : Byte) (count room : Nat)
    (bounded : count < 2 ^ 32) :
    Built (fun rng : Nat => (byte, rng)) count (kPacketHeaderSize + room)
      (fun index => encodeBatch (BitVec.ofNat 32 index)
        (BitVec.ofNat 32 count) (List.replicate room byte)) := by
  have drawn : ∀ room rng,
      drawBytes (fun rng : Nat => (byte, rng)) room rng =
        (List.replicate room byte, rng) := by
    intro room rng
    induction room with
    | zero => rfl
    | succ room induction =>
        simp only [drawBytes, induction, List.replicate_succ]
  intro index below
  have inRange : BitVec.ofNat 32 index < BitVec.ofNat 32 count := by
    rw [BitVec.lt_def, toNat_ofNat_word (Nat.lt_trans below bounded),
      toNat_ofNat_word bounded]
    exact below
  refine ⟨List.replicate (kPacketHeaderSize + room) 0, 0, 0,
    List.length_replicate, ?_⟩
  rw [buildBatch_eq _ 0 (by simp) inRange, List.length_replicate,
    Nat.add_sub_cancel_left, drawn]

/-- Three batches of 21 bytes in segments of 7: the last one, the first one,
and the last one again. -/
theorem delivery_summary_repeated :
    ∃ sent receiver summary,
      ([2, 0, 2].map fun index =>
          encodeBatch (BitVec.ofNat 32 index) 3 [0x50#8]).mapM
          (fun data => sendBatchFallback List.length data 7) = .ok sent ∧
        ingestAll {} sent.flatten = some receiver ∧
        sessionSummary none receiver = some summary ∧
        summary.batches = 3 ∧ summary.badBatches = 0 ∧
        summary.duplicates = 1 ∧ summary.lost = 1 ∧
        summary.outOfOrder = 1 ∧ summary.fragments = sent.flatten.length := by
  obtain ⟨sent, receiver, summary, sending, ingested, summarised, batches,
    badBatches, duplicates, lost, outOfOrder, fragments⟩ :=
    delivery_summary (built_constant 0x50#8 3 1 (by decide)) (by decide)
      (by decide) (by decide) 7
      (show ∀ index ∈ [2, 0, 2], index < 3 by decide)
  exact ⟨sent, receiver, summary, sending, ingested, summarised, batches,
    badBatches, duplicates, lost, outOfOrder.trans (by decide), fragments⟩

end BoostUdp
