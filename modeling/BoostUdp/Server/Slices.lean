import BoostUdp.Server.Refinement

/-!
# The slices of one batch

While a batch arrives in pieces `ingest_fragment` records the size of what it
copies from each piece.  The header is not copied: a piece is recorded with
its part behind the header, or not at all.
-/

namespace BoostUdp

open LittleEndian StreamMachine

/-- The sizes that are recorded for these pieces of a batch, the first of which
starts at `position`. -/
def payloadSlices : Nat → List (List Byte) → List Nat
  | _, [] => []
  | position, piece :: pieces =>
      if kPacketHeaderSize < position + piece.length then
        (position + piece.length - max position kPacketHeaderSize) ::
          payloadSlices (position + piece.length) pieces
      else
        payloadSlices (position + piece.length) pieces

theorem fillTurn_short {receiver : Receiver} {unread : List Byte}
    (short : receiver.reassembly.buffer.length + unread.length <
      kPacketHeaderSize) :
    fillTurn receiver unread =
      .leave (receiver.setBuffer (receiver.reassembly.buffer ++ unread)) := by
  have all : unread.take (kPacketHeaderSize -
      receiver.reassembly.buffer.length) = unread :=
    List.take_of_length_le (by omega)
  have stays : (receiver.reassembly.buffer ++ unread).length <
      kPacketHeaderSize := by
    rw [List.length_append]
    exact short
  unfold fillTurn
  simp only [fillHeader_eq, all, if_pos stays]

/-- As long as the header is incomplete everything is retained. -/
theorem huntTurn_short {receiver : Receiver} {unread : List Byte}
    (short : receiver.reassembly.buffer.length + unread.length <
      kPacketHeaderSize) :
    huntTurn receiver unread =
      .leave (receiver.setBuffer (receiver.reassembly.buffer ++ unread)) := by
  have small : unread.length < kPacketHeaderSize := by omega
  have nowhere : findBatchHeaderOffset unread = unread.length :=
    if_pos small
  have keep : min unread.length (kPacketHeaderSize - 1) = unread.length := by
    omega
  unfold huntTurn
  split
  · simp only [nowhere, Nat.le_refl, if_true, keep, Nat.sub_self,
      List.drop_zero]
  · exact fillTurn_short short

/-- The bytes that are held and the first unread ones make up a header of the
session. -/
theorem huntTurn_window {receiver : Receiver} {unread window : List Byte}
    (joined : window = receiver.reassembly.buffer ++
      unread.take (kPacketHeaderSize - receiver.reassembly.buffer.length))
    (full : window.length = kPacketHeaderSize)
    (header : SessionHeader receiver.stats.wireBatchTotal window) :
    huntTurn receiver unread =
      .again ((receiver.setBuffer window).activated window)
        (unread.drop
          (kPacketHeaderSize - receiver.reassembly.buffer.length)) := by
  by_cases noTail : receiver.reassembly.buffer = []
  · have front : window = unread.take kPacketHeaderSize := by
      rw [joined, noTail]
      rfl
    have whole : SessionHeader receiver.stats.wireBatchTotal unread := by
      have longer := (sessionHeader_append_iff (Nat.le_of_eq full.symm)
        (unread.drop kPacketHeaderSize)).mpr header
      rw [front, List.take_append_drop] at longer
      exact longer
    rw [huntTurn_header noTail whole, ← front, noTail]
    rfl
  · have tail : ¬receiver.reassembly.buffer.isEmpty = true := by
      rw [List.isEmpty_iff]
      exact noTail
    have complete : ¬window.length < kPacketHeaderSize := by omega
    unfold huntTurn
    rw [if_neg tail]
    unfold fillTurn
    simp only [fillHeader_eq, ← joined, if_neg complete]
    exact headerTurn_header header _

section Batch

variable (start : Receiver) (batch : List Byte)

/-- Fewer bytes than a header have arrived. -/
structure Holding (position : Nat) (receiver : Receiver) : Prop where
  short : position < kPacketHeaderSize
  reassembly : receiver.reassembly = { buffer := batch.take position }
  total : receiver.stats.wireBatchTotal = start.stats.wireBatchTotal
  log : receiver.log = start.log

/-- The header has arrived, and `position` bytes in all. -/
structure Gathering (position : Nat) (slices : List Nat)
    (receiver : Receiver) : Prop where
  collecting : ∃ config : ScanConfig, Collecting receiver config ∧
    config.pending = batch.take position
  expected : receiver.reassembly.expected = batch.length
  slices : receiver.reassembly.fragmentSizes = slices
  log : receiver.log =
    start.log ++ [.reassemble (PacketHeader.decode batch)]

/-- The batch was accepted. -/
structure Delivered (slices : List Nat) (receiver : Receiver) : Prop where
  reassembly : receiver.reassembly = {}
  log : receiver.log = start.log ++
    [.reassemble (PacketHeader.decode batch),
      .ok batch slices (inferDetectedMss slices)]

/-- The first `position` bytes of the batch have arrived. -/
inductive Arrived (position : Nat) (slices : List Nat)
    (receiver : Receiver) : Prop where
  | holding (none : slices = []) :
      Holding start batch position receiver →
      Arrived position slices receiver
  | gathering :
      Gathering start batch position slices receiver →
      Arrived position slices receiver
  | delivered (full : position = batch.length)
      (long : kPacketHeaderSize < batch.length) :
      Delivered start batch slices receiver →
      Arrived position slices receiver

end Batch

section Steps

variable {start receiver : Receiver} {batch piece : List Byte}
  {position : Nat} {slices : List Nat}

theorem Holding.countFragment (holding : Holding start batch position receiver) :
    Holding start batch position receiver.countFragment :=
  ⟨holding.short, holding.reassembly, holding.total, holding.log⟩

theorem Gathering.countFragment
    (gathering : Gathering start batch position slices receiver) :
    Gathering start batch position slices receiver.countFragment := by
  obtain ⟨config, collecting, pending⟩ := gathering.collecting
  exact
    { collecting := ⟨config, collecting.countFragment, pending⟩
      expected := gathering.expected
      slices := gathering.slices
      log := gathering.log }

/-- The bytes up to the end of a piece. -/
theorem take_append_piece (front : piece <+: batch.drop position) :
    batch.take position ++ piece = batch.take (position + piece.length) := by
  rw [List.take_add, ← List.prefix_iff_eq_take.mp front]

/-- The header is still incomplete. -/
theorem Holding.stays (holding : Holding start batch position receiver)
    (inside : position ≤ batch.length) (front : piece <+: batch.drop position)
    (nonempty : piece ≠ [])
    (short : position + piece.length < kPacketHeaderSize) (fuel : Nat) :
    ∃ next, ingestLoop (fuel + 1) receiver piece = some next ∧
      Holding start batch (position + piece.length) next := by
  have held : receiver.reassembly.buffer = batch.take position := by
    rw [holding.reassembly]
  have idle : receiver.reassembly.active = false := by
    rw [holding.reassembly]
  have size : receiver.reassembly.buffer.length = position := by
    rw [held, List.length_take_of_le inside]
  have fits : receiver.reassembly.buffer.length + piece.length <
      kPacketHeaderSize := by
    rw [size]
    exact short
  refine ⟨_, ingestLoop_leave idle nonempty (huntTurn_short fits) fuel, ?_⟩
  exact
    { short := short
      reassembly := by
        rw [held, take_append_piece front, Receiver.setBuffer,
          holding.reassembly]
      total := holding.total
      log := holding.log }

/-- The header of the batch starts the reassembly. -/
theorem gathering_activated (valid : ValidBatch batch)
    (reassembly : receiver.reassembly =
      { buffer := batch.take kPacketHeaderSize })
    (log : receiver.log = start.log) :
    Gathering start batch kPacketHeaderSize []
      (receiver.activated (batch.take kPacketHeaderSize)) := by
  have complete := valid.wellFormed.complete
  let window := batch.take kPacketHeaderSize
  let config : ScanConfig :=
    { state := { total := receiver.stats.wireBatchTotal }
      position := 0
      pending := window
      trail := [] }
  have full : window.length = kPacketHeaderSize :=
    List.length_take_of_le complete
  have atWindow : AtWindow receiver config :=
    { state := rfl
      reassembly := reassembly
      full := full }
  have wellFormed : PlausibleHeader window :=
    (plausibleHeader_take_iff (Nat.le_refl _) complete).mpr valid.wellFormed
  have sameHeader : PacketHeader.decode window = PacketHeader.decode batch :=
    PacketHeader.decode_take (Nat.le_refl _) complete
  exact
    { collecting :=
        ⟨_, atWindow.collecting_activated wellFormed, List.drop_zero⟩
      expected := by
        change peekBatchLength window = batch.length
        rw [wellFormed.peekBatchLength_eq, sameHeader, valid.header_length]
      slices := by
        change receiver.reassembly.fragmentSizes = []
        rw [reassembly]
      log := by
        change receiver.log ++ [.reassemble (PacketHeader.decode window)] = _
        rw [log, sameHeader] }

/-- The piece completes the header. -/
theorem Holding.activates (holding : Holding start batch position receiver)
    (valid : ValidBatch batch)
    (same : SameSession start.stats.wireBatchTotal
      (PacketHeader.decode batch))
    (front : piece <+: batch.drop position)
    (complete : kPacketHeaderSize ≤ position + piece.length) (fuel : Nat) :
    ∃ next,
      ingestLoop (fuel + 1) receiver piece =
          ingestLoop fuel next (piece.drop (kPacketHeaderSize - position)) ∧
        Gathering start batch kPacketHeaderSize [] next := by
  have short := holding.short
  have enough := valid.wellFormed.complete
  have held : receiver.reassembly.buffer = batch.take position := by
    rw [holding.reassembly]
  have idle : receiver.reassembly.active = false := by
    rw [holding.reassembly]
  have size : receiver.reassembly.buffer.length = position := by
    rw [held, List.length_take_of_le (by omega)]
  have nonempty : piece ≠ [] := by
    rintro rfl
    simp only [List.length_nil] at complete
    omega
  have cut : piece.take (kPacketHeaderSize - position) <+:
      batch.drop position :=
    (List.take_prefix _ _).trans front
  have cutSize : (piece.take (kPacketHeaderSize - position)).length =
      kPacketHeaderSize - position :=
    List.length_take_of_le (by omega)
  have joined : batch.take kPacketHeaderSize =
      receiver.reassembly.buffer ++
        piece.take (kPacketHeaderSize -
          receiver.reassembly.buffer.length) := by
    have reached : position + (kPacketHeaderSize - position) =
        kPacketHeaderSize := by omega
    rw [size, held, take_append_piece cut, cutSize, reached]
  have header : SessionHeader receiver.stats.wireBatchTotal
      (batch.take kPacketHeaderSize) := by
    have sameHeader : PacketHeader.decode (batch.take kPacketHeaderSize) =
        PacketHeader.decode batch :=
      PacketHeader.decode_take (Nat.le_refl _) enough
    rw [holding.total]
    exact
      { wellFormed := (plausibleHeader_take_iff (Nat.le_refl _) enough).mpr
          valid.wellFormed
        same := sameHeader.symm ▸ same }
  have turn := huntTurn_window joined (List.length_take_of_le enough) header
  rw [size] at turn
  refine ⟨_, ingestLoop_again idle nonempty turn fuel, ?_⟩
  apply gathering_activated valid
  · rw [Receiver.setBuffer, holding.reassembly]
  · exact holding.log

/-- The piece ends within the batch. -/
theorem Gathering.continues
    (gathering : Gathering start batch position slices receiver)
    (front : piece <+: batch.drop position) (nonempty : piece ≠ [])
    (short : position + piece.length < batch.length) (fuel : Nat) :
    ∃ next, ingestLoop (fuel + 2) receiver piece = some next ∧
      Gathering start batch (position + piece.length)
        (slices ++ [piece.length]) next := by
  obtain ⟨config, collecting, pending⟩ := gathering.collecting
  have size : config.pending.length = position := by
    rw [pending, List.length_take_of_le (by omega)]
  have filled := collecting.length_pending
  have expected := gathering.expected
  have fits : config.pending.length + piece.length <
      receiver.reassembly.expected := by omega
  obtain ⟨nothingLeft, unfinished, more⟩ :=
    copyFragment_partial collecting fits
  refine ⟨(copyFragment receiver piece).1, ?_, ?_⟩
  · rw [ingestLoop_active collecting.active nonempty,
      if_neg (Nat.not_le.mpr unfinished), nothingLeft]
    rfl
  · exact
      { collecting := ⟨config.extend piece, more, by
          rw [Config.extend_pending, pending, take_append_piece front]⟩
        expected := expected
        slices := by
          change receiver.reassembly.fragmentSizes ++
            [min piece.length (receiver.reassembly.expected -
              receiver.reassembly.filled)] = _
          rw [gathering.slices, Nat.min_eq_left (by omega)]
        log := gathering.log }

/-- The piece completes the batch. -/
theorem Gathering.completes
    (gathering : Gathering start batch position slices receiver)
    (valid : ValidBatch batch) (front : piece <+: batch.drop position)
    (nonempty : piece ≠ [])
    (reached : position + piece.length = batch.length) (fuel : Nat) :
    ∃ next, ingestLoop (fuel + 2) receiver piece = some next ∧
      Delivered start batch (slices ++ [piece.length]) next := by
  obtain ⟨config, collecting, pending⟩ := gathering.collecting
  have size : config.pending.length = position := by
    rw [pending, List.length_take_of_le (by omega)]
  have filled := collecting.length_pending
  have expected := gathering.expected
  have joined : config.pending ++ piece = batch := by
    rw [pending, take_append_piece front, reached, List.take_length]
  have whole : (config.pending ++ piece).take
      receiver.reassembly.expected = batch := by
    rw [joined, expected, List.take_length]
  have nothingLeft : (config.pending ++ piece).drop
      receiver.reassembly.expected = [] := by
    rw [joined, expected, List.drop_length]
  obtain ⟨sizes, copied⟩ := copyFragment_complete collecting
    (show receiver.reassembly.expected ≤
      config.pending.length + piece.length by omega)
  have sliced : sizes = slices ++ [piece.length] := by
    have recorded : (copyFragment receiver piece).1.reassembly.fragmentSizes =
        receiver.reassembly.fragmentSizes ++
          [min piece.length (receiver.reassembly.expected -
            receiver.reassembly.filled)] := rfl
    rw [copied, gathering.slices, Nat.min_eq_left (by omega)] at recorded
    exact recorded
  have full := collecting.filled_of_copied expected.symm whole.symm sizes
  rw [whole, nothingLeft] at copied
  rw [ingestLoop_active collecting.active nonempty, copied,
    if_pos (Nat.le_refl _), tryCompleteBatch_valid full valid]
  refine ⟨_, rfl, rfl, ?_⟩
  change receiver.log ++ [.ok batch sizes (inferDetectedMss sizes)] = _
  rw [gathering.log, sliced, List.append_assoc]
  rfl

theorem Gathering.header_le
    (gathering : Gathering start batch position slices receiver)
    (inside : position ≤ batch.length) : kPacketHeaderSize ≤ position := by
  obtain ⟨config, collecting, pending⟩ := gathering.collecting
  have filled := collecting.length_pending
  rw [pending, List.length_take_of_le inside] at filled
  rw [filled]
  exact collecting.filled_ge

theorem Gathering.receives
    (gathering : Gathering start batch position slices receiver)
    (valid : ValidBatch batch) (front : piece <+: batch.drop position)
    (nonempty : piece ≠ [])
    (inside : position + piece.length ≤ batch.length) (fuel : Nat) :
    ∃ next, ingestLoop (fuel + 2) receiver piece = some next ∧
      Arrived start batch (position + piece.length)
        (slices ++ [piece.length]) next := by
  rcases Nat.lt_or_eq_of_le inside with short | reached
  · obtain ⟨next, ingested, more⟩ :=
      gathering.continues front nonempty short fuel
    exact ⟨next, ingested, .gathering more⟩
  · obtain ⟨next, ingested, whole⟩ :=
      gathering.completes valid front nonempty reached fuel
    have header := gathering.header_le (by omega)
    have positive := List.length_pos_of_ne_nil nonempty
    exact ⟨next, ingested, .delivered reached (by omega) whole⟩

theorem payloadSlices_header (short : position + piece.length ≤
    kPacketHeaderSize) : payloadSlices position [piece] = [] := by
  rw [payloadSlices, if_neg (Nat.not_lt.mpr short), payloadSlices]

theorem payloadSlices_payload (behind : kPacketHeaderSize ≤ position)
    (nonempty : piece ≠ []) :
    payloadSlices position [piece] = [piece.length] := by
  have positive := List.length_pos_of_ne_nil nonempty
  rw [payloadSlices, if_pos (by omega), payloadSlices,
    Nat.max_eq_left behind, Nat.add_sub_cancel_left]

theorem payloadSlices_across (short : position ≤ kPacketHeaderSize)
    (across : kPacketHeaderSize < position + piece.length) :
    payloadSlices position [piece] =
      [(piece.drop (kPacketHeaderSize - position)).length] := by
  have size : position + piece.length - kPacketHeaderSize =
      (piece.drop (kPacketHeaderSize - position)).length := by
    rw [List.length_drop]
    omega
  rw [payloadSlices, if_pos across, payloadSlices, Nat.max_eq_right short,
    size]

/-- One more piece of the batch arrives. -/
theorem Arrived.step (arrived : Arrived start batch position slices receiver)
    (valid : ValidBatch batch)
    (same : SameSession start.stats.wireBatchTotal
      (PacketHeader.decode batch))
    (within : position ≤ batch.length) (front : piece <+: batch.drop position)
    (nonempty : piece ≠ []) :
    ∃ next, ingestFragment receiver piece = some next ∧
      Arrived start batch (position + piece.length)
        (slices ++ payloadSlices position [piece]) next := by
  have inside : position + piece.length ≤ batch.length := by
    have bound := front.length_le
    rw [List.length_drop] at bound
    omega
  obtain ⟨fuel, enough⟩ : ∃ fuel, ingestFuel receiver piece = fuel + 3 :=
    ⟨_, rfl⟩
  rw [ingestFragment, enough]
  cases arrived with
  | delivered full long delivered =>
      rw [full, List.drop_length] at front
      exact absurd (List.prefix_nil.mp front) nonempty
  | gathering gathering =>
      rw [payloadSlices_payload (gathering.header_le within) nonempty]
      exact gathering.countFragment.receives valid front nonempty inside
        (fuel + 1)
  | holding none holding =>
      subst none
      have counted := holding.countFragment
      have short := holding.short
      rcases Nat.lt_or_ge (position + piece.length) kPacketHeaderSize with
        incomplete | complete
      · obtain ⟨next, ingested, more⟩ :=
          counted.stays within front nonempty incomplete (fuel + 2)
        rw [payloadSlices_header (Nat.le_of_lt incomplete)]
        exact ⟨next, ingested, .holding rfl more⟩
      · obtain ⟨between, activated, gathering⟩ :=
          counted.activates valid same front complete (fuel + 2)
        rw [activated]
        rcases Nat.lt_or_eq_of_le complete with across | exactly
        · have rest : piece.drop (kPacketHeaderSize - position) <+:
              batch.drop kPacketHeaderSize := by
            have shifted := front.drop (kPacketHeaderSize - position)
            have reached : position + (kPacketHeaderSize - position) =
                kPacketHeaderSize := by omega
            rw [List.drop_drop, reached] at shifted
            exact shifted
          have size : kPacketHeaderSize +
              (piece.drop (kPacketHeaderSize - position)).length =
                position + piece.length := by
            rw [List.length_drop]
            omega
          have left : piece.drop (kPacketHeaderSize - position) ≠ [] := by
            intro gone
            rw [gone, List.length_nil] at size
            omega
          rw [payloadSlices_across (Nat.le_of_lt short) across, ← size]
          exact gathering.receives valid rest left (by omega) fuel
        · have gone : piece.drop (kPacketHeaderSize - position) = [] :=
            List.drop_eq_nil_iff.mpr (by omega)
          rw [gone, payloadSlices_header (Nat.le_of_eq exactly.symm),
            ← exactly]
          exact ⟨between, rfl, .gathering gathering⟩

end Steps

theorem payloadSlices_cons (position : Nat) (piece : List Byte)
    (pieces : List (List Byte)) :
    payloadSlices position (piece :: pieces) =
      payloadSlices position [piece] ++
        payloadSlices (position + piece.length) pieces := by
  rw [payloadSlices, payloadSlices]
  split
  · rfl
  · rfl

section Pieces

variable {start : Receiver} {batch : List Byte} (valid : ValidBatch batch)
  (same : SameSession start.stats.wireBatchTotal (PacketHeader.decode batch))

include valid same

theorem Arrived.run {receiver : Receiver} {position : Nat}
    {slices : List Nat} {pieces : List (List Byte)}
    (arrived : Arrived start batch position slices receiver)
    (within : position ≤ batch.length)
    (nonempty : ∀ piece ∈ pieces, piece ≠ [])
    (front : pieces.flatten <+: batch.drop position) :
    ∃ after, ingestAll receiver pieces = some after ∧
      Arrived start batch (position + pieces.flatten.length)
        (slices ++ payloadSlices position pieces) after := by
  induction pieces generalizing receiver position slices with
  | nil =>
      refine ⟨receiver, rfl, ?_⟩
      rw [payloadSlices, List.append_nil]
      exact arrived
  | cons piece pieces induction =>
      rw [List.flatten_cons] at front
      have first : piece <+: batch.drop position :=
        (List.prefix_append _ _).trans front
      obtain ⟨next, ingested, more⟩ := arrived.step valid same within first
        (nonempty piece List.mem_cons_self)
      have bound := front.length_le
      rw [List.length_append, List.length_drop] at bound
      have later : pieces.flatten <+:
          batch.drop (position + piece.length) := by
        have shifted := front.drop piece.length
        rw [List.drop_left, List.drop_drop] at shifted
        exact shifted
      obtain ⟨after, allIngested, end_⟩ := induction more (by omega)
        (fun other member => nonempty other (List.mem_cons_of_mem _ member))
        later
      refine ⟨after, ?_, ?_⟩
      · rw [ingestAll, List.foldlM_cons, ingested]
        exact allIngested
      · rw [List.flatten_cons, List.length_append, ← Nat.add_assoc,
          payloadSlices_cons, ← List.append_assoc]
        exact end_

variable {pieces : List (List Byte)} (idle : start.reassembly = {})
  (nonempty : ∀ piece ∈ pieces, piece ≠ []) (whole : pieces.flatten = batch)

include idle nonempty whole

theorem arrived_whole :
    ∃ after, ingestAll start pieces = some after ∧
      Arrived start batch batch.length (payloadSlices 0 pieces) after := by
  have holding : Arrived start batch 0 [] start :=
    .holding rfl
      { short := by decide
        reassembly := idle
        total := rfl
        log := rfl }
  have front : pieces.flatten <+: batch.drop 0 := by
    rw [whole]
    exact List.prefix_refl batch
  obtain ⟨after, ingested, arrived⟩ :=
    holding.run valid same (Nat.zero_le _) nonempty front
  rw [Nat.zero_add, whole, List.nil_append] at arrived
  exact ⟨after, ingested, arrived⟩

/-- A batch with a payload is delivered, and the slices are those of its
pieces. -/
theorem ingestAll_delivers (long : kPacketHeaderSize < batch.length) :
    ∃ after, ingestAll start pieces = some after ∧
      Delivered start batch (payloadSlices 0 pieces) after := by
  obtain ⟨after, ingested, arrived⟩ :=
    arrived_whole valid same idle nonempty whole
  refine ⟨after, ingested, ?_⟩
  cases arrived with
  | holding none holding =>
      have short := holding.short
      omega
  | gathering gathering =>
      obtain ⟨config, collecting, pending⟩ := gathering.collecting
      have filled := collecting.length_pending
      rw [pending, List.take_length] at filled
      have expected := gathering.expected
      rcases collecting.unfinished with less | header
      · omega
      · omega
  | delivered full long delivered => exact delivered

/-- A batch that is only a header is not completed by its own bytes. -/
theorem ingestAll_headerOnly (short : batch.length = kPacketHeaderSize) :
    ∃ after, ingestAll start pieces = some after ∧
      after.log = start.log ++ [.reassemble (PacketHeader.decode batch)] := by
  obtain ⟨after, ingested, arrived⟩ :=
    arrived_whole valid same idle nonempty whole
  refine ⟨after, ingested, ?_⟩
  cases arrived with
  | holding none holding => exact absurd holding.short (by omega)
  | gathering gathering => exact gathering.log
  | delivered full long delivered => omega

end Pieces

end BoostUdp
