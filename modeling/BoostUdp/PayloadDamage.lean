import BoostUdp.EndToEnd
import BoostUdp.ErrorDetection
import BoostUdp.Traffic

/-!
# Damaged payloads

A network that flips bits in the payload of some batches, within a window of
32 in each of them.  The server counts every one of these as bad and as lost,
and all the others as batches.
-/

namespace BoostUdp

open LittleEndian

/-- A batch with other bits inside a window of at most 32 in its payload. -/
structure PayloadBurst (batch damaged : List Byte) : Prop where
  sized : damaged.length = batch.length
  different : damaged ≠ batch
  window : ∃ start width, width ≤ 32 ∧ 8 * kPacketHeaderSize ≤ start ∧
    start + width ≤ 8 * batch.length ∧
    ∀ index ∈ differingBits batch damaged,
      start ≤ index ∧ index < start + width

section Burst

variable {batch damaged : List Byte}

theorem PayloadBurst.detected (burst : PayloadBurst batch damaged)
    (valid : ValidBatch batch) : ¬ValidBatch damaged := by
  intro accepted
  obtain ⟨start, width, narrow, behind, inside, window⟩ := burst.window
  unfold kPacketHeaderSize at behind
  have silent := silent_outside_field narrow inside valid.bits_complete
    (Or.inr behind) (by
      intro index below outside
      by_contra flipped
      have found := window index ((mem_differingBits below).mpr
        (by simpa using flipped))
      omega)
    (syndrome_eq_zero valid accepted burst.sized)
  apply burst.different
  apply eq_of_bitAt_eq burst.sized
  intro index below
  have equal : bitAt batch index = bitAt damaged index := by
    simpa using silent index (by rwa [← burst.sized])
  exact equal.symm

/-- The header stays as it was sent. -/
theorem PayloadBurst.sameHeader (burst : PayloadBurst batch damaged)
    (complete : kPacketHeaderSize ≤ batch.length) :
    PacketHeader.decode damaged = PacketHeader.decode batch := by
  obtain ⟨start, width, _, behind, _, window⟩ := burst.window
  have complete' : kPacketHeaderSize ≤ damaged.length := by
    rwa [burst.sized]
  have length : (batch.take kPacketHeaderSize).length = kPacketHeaderSize :=
    List.length_take_of_le complete
  have length' : (damaged.take kPacketHeaderSize).length =
      kPacketHeaderSize := List.length_take_of_le complete'
  have front : damaged.take kPacketHeaderSize =
      batch.take kPacketHeaderSize := by
    apply eq_of_bitAt_eq (length'.trans length.symm)
    intro index inside
    rw [length'] at inside
    have kept : ∀ data : List Byte, kPacketHeaderSize ≤ data.length →
        bitAt (data.take kPacketHeaderSize) index = bitAt data index := by
      intro data long
      have fits : index < 8 * (data.take kPacketHeaderSize).length := by
        rw [List.length_take_of_le long]
        exact inside
      have front := bitAt_append_left fits (data.drop kPacketHeaderSize)
      rw [List.take_append_drop] at front
      exact front.symm
    rw [kept damaged complete', kept batch complete]
    by_contra flipped
    have found := window index ((mem_differingBits (by omega)).mpr (by
      rw [Bool.xor_iff_ne]
      exact Ne.symm flipped))
    omega
  rw [← PacketHeader.decode_take (Nat.le_refl _) complete', front,
    PacketHeader.decode_take (Nat.le_refl _) complete]

end Burst

/-- What arrives of a batch. -/
def Hit (batch block : List Byte) : Prop :=
  block = batch ∨ PayloadBurst batch block

theorem Hit.validBatch_iff {batch block : List Byte} (hit : Hit batch block)
    (valid : ValidBatch batch) : ValidBatch block ↔ batch = block := by
  rcases hit with rfl | burst
  · exact iff_of_true valid rfl
  · exact iff_of_false (burst.detected valid) burst.different.symm

theorem Hit.sameHeader {batch block : List Byte} (hit : Hit batch block)
    (complete : kPacketHeaderSize ≤ batch.length) :
    PacketHeader.decode block = PacketHeader.decode batch ∧
      block.length = batch.length := by
  rcases hit with rfl | burst
  · exact ⟨rfl, rfl⟩
  · exact ⟨burst.sameHeader complete, burst.sized⟩

/-- How many batches were damaged. -/
def damagedCount (batches blocks : List (List Byte)) : Nat :=
  (batches.zip blocks).countP fun pair => pair.1 ≠ pair.2

section Run

variable {count size : Nat} {batches blocks : List (List Byte)}

theorem damagedCount_eq (hits : List.Forall₂ Hit batches blocks)
    (valid : ∀ batch ∈ batches, ValidBatch batch) :
    blocks.countP (fun block => ¬ValidBatch block) =
      damagedCount batches blocks := by
  induction hits with
  | nil => rfl
  | @cons batch block batches blocks hit _ induction =>
      have later := induction
        fun other member => valid other (List.mem_cons_of_mem _ member)
      have judged := hit.validBatch_iff (valid batch List.mem_cons_self)
      rw [damagedCount, List.zip_cons_cons, List.countP_cons,
        List.countP_cons, later, damagedCount]
      simp only [judged, decide_eq_true_eq, ne_eq]

/-- Damage to the payload leaves the order of the blocks as it was sent. -/
theorem Hit.headers (hits : List.Forall₂ Hit batches blocks)
    (long : ∀ batch ∈ batches, kPacketHeaderSize < batch.length) :
    blocks.map (fun block => (PacketHeader.decode block, block.length)) =
      batches.map fun batch => (PacketHeader.decode batch, batch.length) := by
  induction hits with
  | nil => rfl
  | @cons batch block batches blocks hit _ induction =>
      have later := induction
        fun other member => long other (List.mem_cons_of_mem _ member)
      obtain ⟨same, length⟩ := hit.sameHeader
        (Nat.le_of_lt (long batch List.mem_cons_self))
      rw [List.map_cons, List.map_cons, later, same, length]

theorem Hit.traffic (hits : List.Forall₂ Hit batches blocks)
    (valid : ∀ batch ∈ batches, ValidBatch batch)
    (long : ∀ batch ∈ batches, kPacketHeaderSize < batch.length)
    (starts : HeadersAtStarts blocks) : Traffic blocks := by
  have sent : ∀ block ∈ blocks, ∃ batch ∈ batches,
      PacketHeader.decode batch = PacketHeader.decode block ∧
        batch.length = block.length := by
    intro block member
    have found := Hit.headers hits long ▸ List.mem_map_of_mem member
    obtain ⟨batch, among, same⟩ := List.mem_map.mp found
    exact ⟨batch, among, (Prod.mk.inj same).1, (Prod.mk.inj same).2⟩
  refine
    { headed := ?_
      longer := ?_
      starts := starts }
  · intro block member
    obtain ⟨batch, found, same, length⟩ := sent block member
    have wellFormed := (valid batch found).wellFormed
    have announced := (valid batch found).header_length
    rw [same, length] at announced
    refine ⟨?_, announced⟩
    exact
      { complete := length ▸ wellFormed.complete
        magic := same ▸ wellFormed.magic
        seq_lt := same ▸ wellFormed.seq_lt
        length_ge := same ▸ wellFormed.length_ge
        length_le := same ▸ wellFormed.length_le }
  · intro block member
    obtain ⟨batch, found, _, length⟩ := sent block member
    exact length ▸ long batch found

/-- The idle session over a whole run with damaged payloads. -/
theorem WholeRun.damaged (run : WholeRun count size batches)
    (hits : List.Forall₂ Hit batches blocks) (positive : 0 < count)
    (bounded : count < 2 ^ 32) (longer : kPacketHeaderSize < size)
    (starts : HeadersAtStarts blocks)
    {buffers : List (List Byte)} (same : buffers.flatten = blocks.flatten)
    {stats : ServerStats} (summarised : Summarised none buffers stats) :
    Reports (count - damagedCount batches blocks)
      (damagedCount batches blocks) (damagedCount batches blocks)
      buffers.length stats := by
  have valid : ∀ batch ∈ batches, ValidBatch batch :=
    fun batch member => (run.member batch member).1.valid
  have long : ∀ batch ∈ batches, kPacketHeaderSize < batch.length :=
    fun batch member => (run.member batch member).2 ▸ longer
  have headers := Hit.headers hits long
  have traffic := Hit.traffic hits valid long starts
  have totals := congrArg (List.map fun header => header.1.batchTotal) headers
  have seqs := congrArg (List.map fun header => header.1.seq) headers
  rw [List.map_map, List.map_map] at totals seqs
  have own : ∀ block ∈ blocks,
      (PacketHeader.decode block).batchTotal = BitVec.ofNat 32 count := by
    intro block member
    have found := totals ▸ List.mem_map_of_mem member
    obtain ⟨batch, among, total⟩ := List.mem_map.mp found
    exact total.symm.trans (run.member batch among).1.batchTotal
  have every : sessionBlocks (BitVec.ofNat 32 count) blocks = blocks := by
    rw [sessionBlocks, List.filter_eq_self]
    exact fun block member => decide_eq_true (own block member)
  have increasing : Increasing
      (blocks.filter fun block => ValidBatch block) := by
    have sent : (blocks.map batchSeq).Pairwise (· < ·) :=
      seqs ▸ run.increasing
    exact sent.sublist (List.filter_sublist.map batchSeq)
  have length : blocks.length = count := by
    rw [← hits.length_eq, run.length_eq]
  have judged := damagedCount_eq hits valid
  have split := blocks.length_eq_countP_add_countP
    fun block => decide (ValidBatch block)
  have bad : blocks.countP (fun block => ¬decide (ValidBatch block) = true) =
      damagedCount batches blocks := by
    rw [← judged]
    simp only [decide_eq_true_eq]
  rw [bad, length] at split
  have intact : blocks.countP (fun block => ValidBatch block) =
      count - damagedCount batches blocks := by
    omega
  have lost : count - (count - damagedCount batches blocks) =
      damagedCount batches blocks := by
    omega
  cases blocks with
  | nil =>
      rw [List.length_nil] at length
      omega
  | cons first others =>
      have reports := traffic.summary (own first List.mem_cons_self) (by
        rw [every]
        exact increasing) same summarised
      rw [every, intact, judged, toNat_ofNat_word bounded, lost] at reports
      exact reports

end Run

/-- All batches of the client reach the server, in order, and some of them
with a damaged payload. -/
structure Visit.Damaged {σ ρ : Type} (platform : Platform)
    (byteDist : σ → Byte × σ)
    (sendBatch : List Byte → Nat → Except String (List (List Byte)))
    (path : ReceivePath ρ) (visit : Visit σ) (blocks : List (List Byte)) :
    Prop
    extends visit.Steady platform sendBatch path where
  hits : List.Forall₂ Hit
    (runClient byteDist sendBatch visit.options visit.rng).batches blocks
  starts : HeadersAtStarts blocks
  bytes : visit.burst.payloads.flatten = blocks.flatten

/-- A server without `--count` behind a network that damages payloads: it
reports every damaged batch as bad and as lost, and counts every other one. -/
theorem runServer_detects {σ ρ : Type} {platform : Platform}
    {byteDist : σ → Byte × σ}
    {sendBatch : List Byte → Nat → Except String (List (List Byte))}
    {path : ReceivePath ρ} {options : ServerOptions}
    (carries : Carries sendBatch)
    {received : List (Visit σ × List (List Byte))}
    (damaged : ∀ entry ∈ received,
      entry.1.Damaged platform byteDist sendBatch path entry.2)
    (idle : options.batchCount = none)
    (room : ∀ limit, options.sessionLimit = some limit →
      received.length ≤ limit) :
    ∃ summaries,
      runServer path.wrapper.receive options
          (received.flatMap fun entry => entry.1.burst.ticks path) =
        { summaries := summaries
          stop :=
            if options.sessionLimit = some received.length then
              .returned []
            else
              .waiting {} } ∧
        List.Forall₂
          (fun entry =>
            let bad := damagedCount (runClient byteDist sendBatch
              entry.1.options entry.1.rng).batches entry.2
            Reports (entry.1.options.batchCount - bad) bad bad
              entry.1.burst.arrivals.length)
          received summaries := by
  have length : (received.map Prod.fst).length = received.length :=
    List.length_map _
  have steady : ∀ visit ∈ received.map Prod.fst,
      visit.Steady platform sendBatch path := by
    intro visit member
    obtain ⟨entry, found, rfl⟩ := List.mem_map.mp member
    exact (damaged entry found).toSteady
  obtain ⟨summaries, served, summarised⟩ :=
    runServer_visits steady idle (by rwa [length])
  rw [length, List.flatMap_map] at served
  rw [List.forall₂_map_left_iff] at summarised
  refine ⟨summaries, served, ?_⟩
  rw [List.forall₂_iff_zip] at summarised ⊢
  refine ⟨summarised.1, ?_⟩
  intro entry stats member
  have hit := damaged entry (List.of_mem_zip member).1
  obtain ⟨run, _⟩ := @runClient_wholeRun _ byteDist _ _ hit.sendable carries
    hit.succeeds hit.count entry.1.rng
  have reports := run.damaged hit.hits hit.sendable.count.1 hit.count
    hit.size hit.starts hit.bytes (summarised.2 member)
  rwa [Burst.length_payloads] at reports

def damagedBlocks : List (List Byte) :=
  [encodeBatch 0 2 [0x50], (encodeBatch 1 2 [0x50]).set 20 0xAF]

def damagedVisit : Visit Byte :=
  { twoSmallBatches with burst := burstAtOnce damagedBlocks }

theorem damagedVisit_damaged :
    damagedVisit.Damaged .posix sameByte (sendBatchFallback List.length)
      plainPath damagedBlocks := by
  have sent : (runClient sameByte (sendBatchFallback List.length)
      damagedVisit.options damagedVisit.rng).batches =
        [encodeBatch 0 2 [0x50], encodeBatch 1 2 [0x50]] := by
    decide +kernel
  have burst : PayloadBurst (encodeBatch 1 2 [0x50])
      ((encodeBatch 1 2 [0x50]).set 20 0xAF) :=
    { sized := rfl
      different := by decide +kernel
      window := ⟨160, 8, by decide, by decide, by decide +kernel,
        by decide +kernel⟩ }
  have length : damagedBlocks.flatten.length = 42 := by decide +kernel
  have inside : ∀ offset < 42,
      peekBatchLength (damagedBlocks.flatten.drop offset) ≠ 0 →
        offset = 0 ∨ offset = 21 := by
    decide +kernel
  exact
    { twoSmallBatches_undisturbed.toSteady with
      separate := burstAtOnce_separate (by simp [damagedBlocks])
      delivered := fun arrival _ => plainPath_delivers arrival
      hits := by
        rw [sent]
        exact .cons (Or.inl rfl) (.cons (Or.inr burst) .nil)
      starts := by
        intro offset header
        have below := lt_length_of_header header
        rw [length] at below
        rcases inside offset below header with rfl | rfl
        · exact ⟨[], _, _, rfl, rfl⟩
        · exact ⟨[_], _, _, rfl, rfl⟩
      bytes := congrArg List.flatten (payloads_atOnce damagedBlocks) }

theorem runServer_detects_one :
    ∃ stats,
      runServer receiveDatagram { port := 5000 }
          (damagedVisit.burst.ticks plainPath) =
        { summaries := [stats], stop := .returned [] } ∧
      stats.batches = 1 ∧ stats.badBatches = 1 ∧ stats.lost = 1 := by
  have damaged : ∀ entry ∈ [(damagedVisit, damagedBlocks)],
      entry.1.Damaged .posix sameByte (sendBatchFallback List.length)
        plainPath entry.2 := by
    intro entry member
    rw [List.mem_singleton.mp member]
    exact damagedVisit_damaged
  have bad : damagedCount (runClient sameByte
      (sendBatchFallback List.length) damagedVisit.options
      damagedVisit.rng).batches damagedBlocks = 1 := by decide +kernel
  obtain ⟨summaries, served, reports⟩ := @runServer_detects _ _ _ _ _ _
    { port := 5000 } sendBatchFallback_carries _ damaged rfl
    (by
      intro limit known
      cases known
      decide)
  cases reports with
  | cons one rest =>
      cases rest
      dsimp only at one
      rw [bad] at one
      rw [List.flatMap_cons, List.flatMap_nil, List.append_nil] at served
      exact ⟨_, served, one.batches, one.badBatches, one.lost⟩

end BoostUdp
