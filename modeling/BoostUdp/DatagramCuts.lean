import BoostUdp.ScanRun

/-!
# Datagram boundaries do not matter

Two receivers that track the same scanner configuration agree on everything
but the fragment count and the recorded slice sizes.  Cutting a stream
differently therefore changes nothing else.
-/

namespace BoostUdp

open LittleEndian StreamMachine

/-- Everything that must not depend on how the stream was cut. -/
structure SameReception (left right : Receiver) : Prop where
  batches : left.stats.batches = right.stats.batches
  badBatches : left.stats.badBatches = right.stats.badBatches
  duplicates : left.stats.duplicates = right.stats.duplicates
  outOfOrder : left.stats.outOfOrder = right.stats.outOfOrder
  seenSeq : left.stats.seenSeq = right.stats.seenSeq
  haveSeq : left.stats.haveSeq = right.stats.haveSeq
  highestSeq : left.stats.highestSeq = right.stats.highestSeq
  wireBatchTotal : left.stats.wireBatchTotal = right.stats.wireBatchTotal
  active : left.reassembly.active = right.reassembly.active
  expected : left.reassembly.expected = right.reassembly.expected
  filled : left.reassembly.filled = right.reassembly.filled
  front : left.reassembly.active = true →
    left.reassembly.buffer.take left.reassembly.filled =
      right.reassembly.buffer.take right.reassembly.filled
  tail : left.reassembly.active = false →
    left.reassembly.buffer = right.reassembly.buffer

theorem Hunting.not_collecting {left right : Receiver} {config : ScanConfig}
    (hunting : Hunting left config) (collecting : Collecting right config) :
    False := by
  obtain ⟨expected, state, _⟩ := collecting.state
  have clash := congrArg ScanState.collecting (hunting.state.symm.trans state)
  contradiction

theorem Tracks.sameReception {leftCalls rightCalls : Nat}
    {left right : Receiver} {config : ScanConfig}
    (leftTracks : Tracks leftCalls left config)
    (rightTracks : Tracks rightCalls right config) :
    SameReception left right := by
  have sameVerdicts : left.verdicts = right.verdicts :=
    leftTracks.logged.trail.symm.trans rightTracks.logged.trail
  have leftStats := leftTracks.logged.stats.trans (tally_fragments _ _)
  have rightStats := rightTracks.logged.stats.trans (tally_fragments _ _)
  rw [sameVerdicts] at leftStats
  have sameReassembly :
      left.reassembly.active = right.reassembly.active ∧
        left.reassembly.expected = right.reassembly.expected ∧
        left.reassembly.filled = right.reassembly.filled ∧
        (left.reassembly.active = true →
          left.reassembly.buffer.take left.reassembly.filled =
            right.reassembly.buffer.take right.reassembly.filled) ∧
        (left.reassembly.active = false →
          left.reassembly.buffer = right.reassembly.buffer) := by
    rcases leftTracks.phase with leftHunting | leftCollecting
    · rcases rightTracks.phase with rightHunting | rightCollecting
      · simp [leftHunting.reassembly, rightHunting.reassembly]
      · exact (leftHunting.not_collecting rightCollecting).elim
    · rcases rightTracks.phase with rightHunting | rightCollecting
      · exact (rightHunting.not_collecting leftCollecting).elim
      · obtain ⟨leftExpected, leftState, leftSame⟩ := leftCollecting.state
        obtain ⟨rightExpected, rightState, rightSame⟩ := rightCollecting.state
        have sameExpected : leftExpected = rightExpected := by
          have same := congrArg ScanState.collecting
            (leftState.symm.trans rightState)
          exact Option.some.inj same
        refine ⟨by rw [leftCollecting.active, rightCollecting.active],
          by rw [← leftSame, ← rightSame, sameExpected],
          by rw [← leftCollecting.length_pending,
            ← rightCollecting.length_pending],
          fun _ => by rw [← leftCollecting.pending, ← rightCollecting.pending],
          fun idle => ?_⟩
        rw [leftCollecting.active] at idle
        contradiction
  exact
    { batches := by rw [leftStats, rightStats]
      badBatches := by rw [leftStats, rightStats]
      duplicates := by rw [leftStats, rightStats]
      outOfOrder := by rw [leftStats, rightStats]
      seenSeq := by rw [leftStats, rightStats]
      haveSeq := by rw [leftStats, rightStats]
      highestSeq := by rw [leftStats, rightStats]
      wireBatchTotal := by rw [leftStats, rightStats]
      active := sameReassembly.1
      expected := sameReassembly.2.1
      filled := sameReassembly.2.2.1
      front := sameReassembly.2.2.2.1
      tail := sameReassembly.2.2.2.2 }

/-- From any state a session can be in, every cut of a byte string into
datagrams is received like the whole in one datagram. -/
theorem ingestAll_cut_independent {receiver : Receiver}
    (reachable : Reachable receiver) (pieces : List (List Byte)) :
    ∃ cut whole, ingestAll receiver pieces = some cut ∧
      ingestFragment receiver pieces.flatten = some whole ∧
      SameReception cut whole := by
  obtain ⟨calls, stream, tracks⟩ := reachable.tracks
  obtain ⟨cut, cutIngested, cutTracks⟩ := ingestAll_tracks tracks pieces
  obtain ⟨whole, wholeIngested, wholeTracks⟩ :=
    ingestFragment_tracks tracks pieces.flatten
  exact ⟨cut, whole, cutIngested, wholeIngested,
    cutTracks.sameReception wholeTracks⟩

/-- A corrupt batch of 41 bytes whose payload is the next batch, complete and
valid. -/
def salvagedDatagram : List Byte :=
  (blankHeader 0 2 41).encode ++ encodeBatch 1 2 [0x50#8]

/-- A receiver that holds half of the magic number, and cuts through the rest
of a corrupt batch: in its header, and in the batch that is salvaged. -/
theorem ingestAll_cut_independent_corrupt :
    ∃ cut whole,
      ingestAll
          { stats := { fragments := 1 }
            reassembly := { buffer := [0x50#8, 0x44#8] } }
          [(salvagedDatagram.take 9).drop 2, [],
            (salvagedDatagram.take 30).drop 9, salvagedDatagram.drop 30] =
          some cut ∧
        ingestFragment
          { stats := { fragments := 1 }
            reassembly := { buffer := [0x50#8, 0x44#8] } }
          (salvagedDatagram.drop 2) = some whole ∧
        SameReception cut whole ∧
        whole.stats.badBatches = 1 ∧ whole.stats.batches = 1 := by
  have found : (ingestFragment
      { stats := { fragments := 1 }
        reassembly := { buffer := [0x50#8, 0x44#8] } }
      (salvagedDatagram.drop 2)).any (fun whole =>
        whole.stats.badBatches = 1 ∧ whole.stats.batches = 1) = true := by
    decide +kernel
  obtain ⟨cut, whole, pieces, together, same⟩ :=
    ingestAll_cut_independent ⟨[[0x50#8, 0x44#8]], rfl⟩
      [(salvagedDatagram.take 9).drop 2, [],
        (salvagedDatagram.take 30).drop 9, salvagedDatagram.drop 30]
  obtain ⟨other, ingested, counted⟩ := (Option.any_eq_true _ _).mp found
  cases ingested.symm.trans together
  exact ⟨cut, _, pieces, together, same, of_decide_eq_true counted⟩

end BoostUdp
