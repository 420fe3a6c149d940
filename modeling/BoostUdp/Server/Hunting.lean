import BoostUdp.Server.Tally

/-!
# The receiver tracks the scanner: hunting

`Tracks` relates the state of the receiver to a scanner configuration: the
representation invariant of the reassembly, the bytes held, the verdicts
logged and the statistics they add up to.  This module proves that the turns
of `ingest_fragment` without an active reassembly keep it.
-/

namespace BoostUdp

open LittleEndian StreamMachine

/-- The receiver has logged what the scanner found, and its statistics add
the log up. -/
structure Logged (calls : Nat) (receiver : Receiver) (config : ScanConfig) :
    Prop where
  trail : config.trail.map Prod.snd = receiver.verdicts
  stats : receiver.stats = tally calls receiver.verdicts

section Counters

variable {calls : Nat} {receiver : Receiver} {config : ScanConfig}

theorem Logged.batches (logged : Logged calls receiver config) :
    receiver.stats.batches = (acceptedBatches receiver.verdicts).length :=
  (congrArg ServerStats.batches logged.stats).trans (tally_batches _ _)

theorem Logged.badBatches (logged : Logged calls receiver config) :
    receiver.stats.badBatches =
      receiver.verdicts.countP Verdict.isRejected :=
  (congrArg ServerStats.badBatches logged.stats).trans
    (tally_badBatches _ _)

theorem Logged.fragments (logged : Logged calls receiver config) :
    receiver.stats.fragments =
      calls + receiver.verdicts.countP Verdict.isSalvaged :=
  (congrArg ServerStats.fragments logged.stats).trans
    (tally_fragments_eq _ _)

theorem Logged.lost (logged : Logged calls receiver config) :
    receiver.stats.lost = 0 :=
  (congrArg ServerStats.lost logged.stats).trans (tally_lost _ _)

theorem Logged.seenSeq (logged : Logged calls receiver config) :
    receiver.stats.seenSeq =
      ((acceptedBatches receiver.verdicts).map batchSeq).toFinset :=
  (congrArg ServerStats.seenSeq logged.stats).trans (tally_seenSeq _ _)

end Counters

/-- No reassembly: the buffer is a retained tail too short for a header. -/
structure Hunting (receiver : Receiver) (config : ScanConfig) : Prop where
  state : config.state = { total := receiver.stats.wireBatchTotal }
  reassembly : receiver.reassembly = { buffer := config.pending }
  short : config.pending.length < kPacketHeaderSize

/-- A reassembly: the buffer has room for the whole batch and its filled part
starts with the header that announced it. -/
structure Collecting (receiver : Receiver) (config : ScanConfig) : Prop where
  state : ∃ expected : BatchLength,
    config.state =
        { total := receiver.stats.wireBatchTotal
          collecting := some expected } ∧
      expected.value = receiver.reassembly.expected
  active : receiver.reassembly.active = true
  pending : config.pending =
    receiver.reassembly.buffer.take receiver.reassembly.filled
  capacity : receiver.reassembly.buffer.length = receiver.reassembly.expected
  filled_ge : kPacketHeaderSize ≤ receiver.reassembly.filled
  filled_le : receiver.reassembly.filled ≤ receiver.reassembly.expected
  unfinished : receiver.reassembly.filled < receiver.reassembly.expected ∨
    receiver.reassembly.filled = kPacketHeaderSize
  header : PlausibleHeader receiver.reassembly.buffer
  header_length :
    (PacketHeader.decode receiver.reassembly.buffer).length.toNat =
      receiver.reassembly.expected
  session : receiver.stats.wireBatchTotal =
    some (PacketHeader.decode receiver.reassembly.buffer).batchTotal
  slices : kPacketHeaderSize + receiver.reassembly.fragmentSizes.sum =
    receiver.reassembly.filled

structure Tracks (calls : Nat) (receiver : Receiver) (config : ScanConfig) :
    Prop where
  logged : Logged calls receiver config
  phase : Hunting receiver config ∨ Collecting receiver config

theorem tracks_fresh : Tracks 0 {} ScanConfig.fresh :=
  { logged := ⟨rfl, rfl⟩
    phase := Or.inl ⟨rfl, rfl, by decide⟩ }

theorem Collecting.length_pending {receiver : Receiver} {config : ScanConfig}
    (collecting : Collecting receiver config) :
    config.pending.length = receiver.reassembly.filled := by
  have fits := collecting.filled_le
  rw [← collecting.capacity] at fits
  rw [collecting.pending, List.length_take_of_le fits]

theorem Hunting.idle {receiver : Receiver} {config : ScanConfig}
    (hunting : Hunting receiver config) :
    receiver.reassembly.active = false := by
  rw [hunting.reassembly]

theorem Hunting.buffer_eq {receiver : Receiver} {config : ScanConfig}
    (hunting : Hunting receiver config) :
    receiver.reassembly.buffer = config.pending := by
  rw [hunting.reassembly]

theorem Hunting.held_eq {receiver : Receiver} {config : ScanConfig}
    (hunting : Hunting receiver config) :
    receiver.reassembly.held = config.pending := by
  simp [BatchReassembly.held, hunting.reassembly]

theorem Collecting.held_eq {receiver : Receiver} {config : ScanConfig}
    (collecting : Collecting receiver config) :
    receiver.reassembly.held = config.pending := by
  simp [BatchReassembly.held, collecting.active, collecting.pending]

theorem Tracks.held_eq {calls : Nat} {receiver : Receiver}
    {config : ScanConfig} (tracks : Tracks calls receiver config) :
    receiver.reassembly.held = config.pending := by
  rcases tracks.phase with hunting | collecting
  · exact hunting.held_eq
  · exact collecting.held_eq

theorem Tracks.total_eq {calls : Nat} {receiver : Receiver}
    {config : ScanConfig} (tracks : Tracks calls receiver config) :
    config.state.total = receiver.stats.wireBatchTotal := by
  rcases tracks.phase with hunting | collecting
  · rw [hunting.state]
  · obtain ⟨expected, state, _⟩ := collecting.state
    rw [state]

theorem Tracks.active_eq {calls : Nat} {receiver : Receiver}
    {config : ScanConfig} (tracks : Tracks calls receiver config) :
    receiver.reassembly.active = config.state.collecting.isSome := by
  rcases tracks.phase with hunting | collecting
  · rw [hunting.state, hunting.reassembly]
    rfl
  · obtain ⟨expected, state, _⟩ := collecting.state
    rw [state, collecting.active]
    rfl

/-- Between datagrams the scanner waits. -/
theorem Tracks.waiting {calls : Nat} {receiver : Receiver}
    {config : ScanConfig} (tracks : Tracks calls receiver config) :
    scanner.advance config = none := by
  apply scanner.advance_eq_none
  change scanStep config.state config.pending = none
  rcases tracks.phase with hunting | collecting
  · rw [hunting.state]
    exact scanStep_hunting_short hunting.short
  · obtain ⟨expected, state, same⟩ := collecting.state
    rw [state]
    apply scanStep_collecting_short
    rw [collecting.length_pending, same]
    rcases collecting.unfinished with less | exactly
    · exact Or.inl less
    · exact Or.inr (Nat.le_of_eq exactly)

theorem Tracks.feed_nil {calls : Nat} {receiver : Receiver}
    {config : ScanConfig} (tracks : Tracks calls receiver config) :
    scanner.feed config [] = config := by
  simp [feed, scanner.drain_of_none tracks.waiting]

/-- Offsets where no header of the session starts are passed over. -/
theorem drain_skip (config : ScanConfig) {total : Option Word}
    (state : config.state = { total := total }) (count : Nat)
    (empty : ∀ offset < count,
      offset + kPacketHeaderSize ≤ config.pending.length ∧
        ¬SessionHeader total (config.pending.drop offset)) :
    scanner.drain config =
      scanner.drain
        { config with
          position := config.position + count
          pending := config.pending.drop count } := by
  induction count with
  | zero => simp
  | succ count induction =>
      obtain ⟨complete, other⟩ := empty count (Nat.lt_succ_self count)
      rw [induction fun offset below =>
        empty offset (Nat.lt_succ_of_lt below)]
      have arrived :
          kPacketHeaderSize ≤ (config.pending.drop count).length := by
        rw [List.length_drop]
        omega
      apply scanner.drain_of_some
      have stepped := scanStep_hunting_skip arrived other
      rw [← state] at stepped
      simp [advance, scanner, stepped, Config.apply, List.drop_drop,
        Nat.add_assoc]

theorem fillHeader_eq (buffer unread : List Byte) :
    fillHeader buffer unread =
      (buffer ++ unread.take (kPacketHeaderSize - buffer.length),
        unread.drop (kPacketHeaderSize - buffer.length)) := by
  induction unread generalizing buffer with
  | nil => simp [fillHeader]
  | cons byte unread induction =>
      unfold fillHeader
      by_cases short : buffer.length < kPacketHeaderSize
      · rw [if_pos short]
        have room : kPacketHeaderSize - buffer.length =
            kPacketHeaderSize - (buffer.length + 1) + 1 := by omega
        rw [induction, List.length_append, List.length_singleton, room]
        simp
      · rw [if_neg short]
        have none : kPacketHeaderSize - buffer.length = 0 := by omega
        simp [none]

theorem resizeBuffer_eq {buffer : List Byte} {size : Nat}
    (grows : buffer.length ≤ size) :
    resizeBuffer buffer size =
      buffer ++ List.replicate (size - buffer.length) 0 := by
  rw [resizeBuffer, List.take_of_length_le grows]

theorem Receiver.setWireBatchTotal_self (receiver : Receiver) :
    receiver.setWireBatchTotal receiver.stats.wireBatchTotal = receiver := rfl

/-- A bound on the turns the loop still makes: a reassembly starts without
using up a byte, and every byte is used up within three turns. -/
def loopCost (receiver : Receiver) (unread : List Byte) : Nat :=
  3 * (receiver.reassembly.held.length + unread.length) +
    if receiver.reassembly.active then 1 else 2

theorem Hunting.loopCost_eq {receiver : Receiver} {config : ScanConfig}
    (hunting : Hunting receiver config) (unread : List Byte) :
    loopCost receiver unread =
      3 * (config.pending.length + unread.length) + 2 := by
  rw [loopCost, hunting.held_eq, hunting.reassembly]
  rfl

theorem Collecting.loopCost_eq {receiver : Receiver} {config : ScanConfig}
    (collecting : Collecting receiver config) (unread : List Byte) :
    loopCost receiver unread =
      3 * (config.pending.length + unread.length) + 1 := by
  rw [loopCost, collecting.held_eq, collecting.active]
  rfl

theorem Tracks.loopCost_le {calls : Nat} {receiver : Receiver}
    {config : ScanConfig} (tracks : Tracks calls receiver config)
    (unread : List Byte) :
    loopCost receiver unread ≤
      3 * (config.pending.length + unread.length) + 2 := by
  rcases tracks.phase with hunting | collecting
  · exact Nat.le_of_eq (hunting.loopCost_eq unread)
  · rw [collecting.loopCost_eq]
    omega

/-- A turn of the loop follows the scanner and makes progress. -/
def TurnTracks (calls : Nat) (config : ScanConfig) (unread : List Byte)
    (bound : Nat) : Turn → Prop
  | .leave receiver => Tracks calls receiver (scanner.feed config unread)
  | .again receiver rest =>
      ∃ next, Tracks calls receiver next ∧
        scanner.feed config unread = scanner.feed next rest ∧
        loopCost receiver rest < bound

/-- A receiver that holds exactly 20 bytes and hunts. -/
structure AtWindow (receiver : Receiver) (config : ScanConfig) : Prop where
  state : config.state = { total := receiver.stats.wireBatchTotal }
  reassembly : receiver.reassembly = { buffer := config.pending }
  full : config.pending.length = kPacketHeaderSize

theorem findBatchHeaderOffset_window {window : List Byte}
    (full : window.length = kPacketHeaderSize)
    (other : ¬PlausibleHeader window) :
    findBatchHeaderOffset window = window.length := by
  rcases findBatchHeaderOffset_spec window with ⟨none, _⟩ |
    ⟨inside, wellFormed, _⟩
  · exact none
  · have first : findBatchHeaderOffset window = 0 := by omega
    rw [first, List.drop_zero] at wellFormed
    exact absurd wellFormed other

/-- The front byte of a window without a header is dropped. -/
theorem AtWindow.dropFront {calls : Nat} {receiver : Receiver}
    {config : ScanConfig} (window : AtWindow receiver config)
    (logged : Logged calls receiver config)
    (other : ¬SessionHeader receiver.stats.wireBatchTotal config.pending)
    (unread : List Byte) :
    TurnTracks calls config unread
      (3 * (kPacketHeaderSize + unread.length) + 2)
      (.again (receiver.setBuffer (config.pending.drop 1)) unread) := by
  have full := window.full
  have positive := kPacketHeaderSize_pos
  let next : ScanConfig :=
    { config with
      position := config.position + 1
      pending := config.pending.drop 1 }
  have hunting : Hunting (receiver.setBuffer (config.pending.drop 1)) next :=
    { state := window.state
      reassembly := by simp [Receiver.setBuffer, window.reassembly, next]
      short := by
        simp only [next, List.length_drop]
        omega }
  refine ⟨next, ⟨⟨logged.trail, logged.stats⟩, Or.inl hunting⟩, ?_, ?_⟩
  · have skipped := drain_skip (config.extend unread)
      window.state 1 (by
        intro offset below
        have first : offset = 0 := by omega
        subst first
        constructor
        · rw [Config.extend_pending, List.length_append]
          omega
        · rw [List.drop_zero, Config.extend_pending,
            sessionHeader_append_iff (Nat.le_of_eq full.symm)]
          exact other)
    rw [feed, skipped]
    have nonempty : 1 ≤ config.pending.length := by omega
    simp [feed, next, Config.extend,
      List.drop_append_of_le_length nonempty]
  · rw [hunting.loopCost_eq]
    simp only [next, List.length_drop]
    omega

/-- The receiver once the header in its buffer has started a reassembly. -/
def Receiver.activated (receiver : Receiver) (buffer : List Byte) :
    Receiver :=
  { receiver.setWireBatchTotal
      (some (PacketHeader.decode buffer).batchTotal) with
    reassembly :=
      { receiver.reassembly with
        expected := peekBatchLength buffer
        buffer := resizeBuffer buffer (peekBatchLength buffer)
        filled := kPacketHeaderSize
        active := true } }.report
    (.reassemble (PacketHeader.decode buffer))

/-- The scanner's move at a header. -/
def headerMove {pending : List Byte} (header : PlausibleHeader pending) :
    Move ScanState Verdict :=
  { next :=
      { total := some (PacketHeader.decode pending).batchTotal
        collecting := some header.batchLength }
    count := 0
    outputs := [.started (PacketHeader.decode pending)] }

theorem AtWindow.collecting_activated {receiver : Receiver}
    {config : ScanConfig} (window : AtWindow receiver config)
    (wellFormed : PlausibleHeader config.pending) :
    Collecting (receiver.activated config.pending)
      (config.apply (headerMove wellFormed)) := by
  have full := window.full
  have lower := wellFormed.length_ge
  have grows : config.pending.length ≤
      (PacketHeader.decode config.pending).length.toNat := by
    rw [full]
    exact lower
  have sameHeader := fun more =>
    PacketHeader.decode_append wellFormed.complete more
  simp only [Receiver.activated, Receiver.setWireBatchTotal, Receiver.report,
    wellFormed.peekBatchLength_eq, resizeBuffer_eq grows, window.reassembly,
    Config.apply, headerMove, List.drop_zero]
  refine
    { state := ⟨wellFormed.batchLength, rfl, rfl⟩
      active := rfl
      pending := ?_
      capacity := ?_
      filled_ge := Nat.le_refl _
      filled_le := lower
      unfinished := Or.inr rfl
      header := (plausibleHeader_append_iff wellFormed.complete _).mpr
        wellFormed
      header_length := by simp only [sameHeader]
      session := by simp only [sameHeader]
      slices := rfl }
  · simp only [← full, List.take_left']
  · simp only [List.length_append, List.length_replicate]
    omega

theorem Logged.activated {calls : Nat} {receiver : Receiver}
    {config : ScanConfig} (logged : Logged calls receiver config)
    (wellFormed : PlausibleHeader config.pending) :
    Logged calls (receiver.activated config.pending)
      (config.apply (headerMove wellFormed)) := by
  constructor
  · simp [Config.apply, headerMove, logged.trail, Receiver.activated,
      Receiver.verdicts, Receiver.report, Receiver.setWireBatchTotal,
      Event.verdict]
  · have stats := logged.stats
    simp only [Receiver.verdicts] at stats
    simp [Receiver.activated, Receiver.verdicts, Receiver.report,
      Receiver.setWireBatchTotal, Event.verdict, ServerStats.observe, ← stats]

/-- A header of the session starts a reassembly. -/
theorem AtWindow.activate {calls : Nat} {receiver : Receiver}
    {config : ScanConfig} (window : AtWindow receiver config)
    (logged : Logged calls receiver config)
    (header : SessionHeader receiver.stats.wireBatchTotal config.pending)
    (unread : List Byte) :
    TurnTracks calls config unread
      (3 * (kPacketHeaderSize + unread.length) + 2)
      (.again (receiver.activated config.pending) unread) := by
  have full := window.full
  have stepped : ∀ chunk,
      scanStep config.state (config.pending ++ chunk) =
        some (headerMove header.wellFormed) := by
    intro chunk
    rw [window.state]
    exact scanStep_stable chunk (scanStep_hunting_header header)
  have collecting := window.collecting_activated header.wellFormed
  refine ⟨_, ⟨logged.activated header.wellFormed, Or.inr collecting⟩, ?_, ?_⟩
  · apply scanner.drain_of_some
    simp [advance, scanner, stepped, Config.apply, Config.extend, headerMove]
  · rw [collecting.loopCost_eq]
    simp only [Config.apply, headerMove, List.drop_zero]
    omega

/-- A header of the session in the buffer starts a reassembly. -/
theorem headerTurn_header {receiver : Receiver}
    (header : SessionHeader receiver.stats.wireBatchTotal
      receiver.reassembly.buffer) (unread : List Byte) :
    headerTurn receiver unread =
      .again (receiver.activated receiver.reassembly.buffer) unread := by
  have nonzero := peekBatchLength_ne_zero_iff.mpr header.wellFormed
  have bounds := header.wellFormed.peek_bounds
  have inRange : ¬(peekBatchLength receiver.reassembly.buffer <
      kPacketHeaderSize ∨
        kMaxBatchSize < peekBatchLength receiver.reassembly.buffer) :=
    not_or.mpr ⟨Nat.not_lt.mpr bounds.1, Nat.not_lt.mpr bounds.2⟩
  have checked := validateBatchSession_ok header.wellFormed.plausible_meta
    header.same
  unfold headerTurn
  simp only [if_neg nonzero, checked, ne_eq, not_true_eq_false, if_false,
    if_neg inRange]
  rfl

theorem headerTurn_tracks {calls : Nat} {receiver : Receiver}
    {config : ScanConfig} (window : AtWindow receiver config)
    (logged : Logged calls receiver config) (unread : List Byte) :
    TurnTracks calls config unread
      (3 * (kPacketHeaderSize + unread.length) + 2)
      (headerTurn receiver unread) := by
  have buffer : receiver.reassembly.buffer = config.pending := by
    rw [window.reassembly]
  by_cases wellFormed : PlausibleHeader config.pending
  · by_cases same : SameSession receiver.stats.wireBatchTotal
        (PacketHeader.decode config.pending)
    · have started := headerTurn_header
        (buffer ▸ ⟨wellFormed, same⟩ :
          SessionHeader receiver.stats.wireBatchTotal
            receiver.reassembly.buffer) unread
      rw [started, buffer]
      exact window.activate logged ⟨wellFormed, same⟩ unread
    · have nonzero := peekBatchLength_ne_zero_iff.mpr wellFormed
      have checked := validateBatchSession_badSession
        wellFormed.plausible_meta same
      unfold headerTurn
      simp only [buffer, if_neg nonzero, checked,
        Receiver.setWireBatchTotal_self]
      exact window.dropFront logged (fun header => same header.same) unread
  · have zero := peekBatchLength_eq_zero_iff.mpr wellFormed
    have aligned := findBatchHeaderOffset_window window.full wellFormed
    unfold headerTurn
    simp only [buffer]
    rw [if_pos zero, aligned]
    simp only [Nat.lt_irrefl, and_false, if_false]
    exact window.dropFront logged
      (fun header => wellFormed header.wellFormed) unread

theorem TurnTracks.mono {calls bound larger : Nat} {config : ScanConfig}
    {unread : List Byte} {turn : Turn}
    (tracks : TurnTracks calls config unread bound turn)
    (le : bound ≤ larger) : TurnTracks calls config unread larger turn := by
  cases turn with
  | leave receiver => exact tracks
  | again receiver rest =>
      obtain ⟨next, related, same, cost⟩ := tracks
      exact ⟨next, related, same, Nat.lt_of_lt_of_le cost le⟩

/-- A turn from a configuration the scanner reaches anyway. -/
theorem TurnTracks.of_feed_eq {calls bound : Nat}
    {config middle : ScanConfig} {unread rest : List Byte} {turn : Turn}
    (same : scanner.feed config unread = scanner.feed middle rest)
    (tracks : TurnTracks calls middle rest bound turn) :
    TurnTracks calls config unread bound turn := by
  cases turn with
  | leave receiver =>
      simp only [TurnTracks] at tracks ⊢
      rw [same]
      exact tracks
  | again receiver unread' =>
      obtain ⟨next, related, onward, cost⟩ := tracks
      exact ⟨next, related, same.trans onward, cost⟩

/-- A hunting configuration with fewer than 20 bytes is where its run ends. -/
theorem drain_short {config : ScanConfig} {total : Option Word}
    (state : config.state = { total := total })
    (short : config.pending.length < kPacketHeaderSize) :
    scanner.drain config = config := by
  apply scanner.drain_of_none
  apply scanner.advance_eq_none
  rw [state]
  exact scanStep_hunting_short short

theorem fillTurn_tracks {calls : Nat} {receiver : Receiver}
    {config : ScanConfig} (hunting : Hunting receiver config)
    (logged : Logged calls receiver config) (unread : List Byte) :
    TurnTracks calls config unread
      (3 * (config.pending.length + unread.length) + 2)
      (fillTurn receiver unread) := by
  have short := hunting.short
  have buffer := hunting.buffer_eq
  unfold fillTurn
  simp only [fillHeader_eq, buffer]
  let need := kPacketHeaderSize - config.pending.length
  let filled : ScanConfig :=
    { config with pending := config.pending ++ unread.take need }
  let refilled := receiver.setBuffer (config.pending ++ unread.take need)
  have reassembly :
      refilled.reassembly = { buffer := filled.pending } := by
    simp [refilled, filled, Receiver.setBuffer, hunting.reassembly]
  have onward : scanner.feed config unread =
      scanner.feed filled (unread.drop need) := by
    simp [feed, Config.extend, filled, List.append_assoc]
  have filledLength : filled.pending.length =
      config.pending.length + min need unread.length := by
    simp [filled]
  by_cases stillShort : filled.pending.length < kPacketHeaderSize
  · rw [if_pos stillShort]
    have all : unread.length ≤ need := by omega
    have nothingLeft : unread.drop need = [] :=
      List.drop_eq_nil_iff.mpr all
    have ended : scanner.feed config unread = filled := by
      rw [onward, nothingLeft, feed, Config.extend_nil]
      exact drain_short hunting.state stillShort
    simp only [TurnTracks]
    rw [ended]
    exact ⟨⟨logged.trail, logged.stats⟩,
      Or.inl ⟨hunting.state, reassembly, stillShort⟩⟩
  · rw [if_neg stillShort]
    have full : filled.pending.length = kPacketHeaderSize := by omega
    have window : AtWindow refilled filled :=
      ⟨hunting.state, reassembly, full⟩
    have turned := headerTurn_tracks window
      ⟨logged.trail, logged.stats⟩ (unread.drop need)
    refine (turned.of_feed_eq onward).mono ?_
    rw [List.length_drop]
    omega

/-- With nothing held and no header in sight, the tail is retained. -/
theorem retainTail_tracks {calls : Nat} {receiver : Receiver}
    {config : ScanConfig} (hunting : Hunting receiver config)
    (logged : Logged calls receiver config) (noTail : config.pending = [])
    {unread : List Byte}
    (nowhere : ∀ offset, ¬PlausibleHeader (unread.drop offset)) :
    Tracks calls
      (receiver.setBuffer
        (unread.drop
          (unread.length - min unread.length (kPacketHeaderSize - 1))))
      (scanner.feed config unread) := by
  let keep := min unread.length (kPacketHeaderSize - 1)
  have extended : (config.extend unread).pending = unread := by
    simp [noTail]
  have kept : (unread.drop (unread.length - keep)).length <
      kPacketHeaderSize := by
    have small : keep ≤ kPacketHeaderSize - 1 := Nat.min_le_right _ _
    have inside : keep ≤ unread.length := Nat.min_le_left _ _
    have positive := kPacketHeaderSize_pos
    rw [List.length_drop]
    omega
  have skipped := drain_skip (config.extend unread)
    hunting.state (unread.length - keep) (by
      intro offset below
      rw [extended]
      exact ⟨by omega, fun header => nowhere offset header.wellFormed⟩)
  rw [extended] at skipped
  have ended := skipped.trans (drain_short hunting.state kept)
  rw [feed, ended]
  exact
    { logged := ⟨logged.trail, logged.stats⟩
      phase := Or.inl
        { state := hunting.state
          reassembly := by
            simp [Receiver.setBuffer, hunting.reassembly, keep]
          short := kept } }

theorem Logged.resyncSkip {calls : Nat} {receiver : Receiver}
    {config : ScanConfig} (logged : Logged calls receiver config)
    (bytes : Nat) :
    Logged calls (receiver.report (.resyncSkip bytes)) config := by
  have verdicts :
      (receiver.report (.resyncSkip bytes)).verdicts = receiver.verdicts := by
    simp [Receiver.verdicts, Receiver.report, Event.verdict]
  constructor
  · rw [verdicts]
    exact logged.trail
  · rw [verdicts]
    exact logged.stats

theorem huntTurn_tracks {calls : Nat} {receiver : Receiver}
    {config : ScanConfig} (hunting : Hunting receiver config)
    (logged : Logged calls receiver config) (unread : List Byte) :
    TurnTracks calls config unread
      (3 * (config.pending.length + unread.length) + 2)
      (huntTurn receiver unread) := by
  have buffer := hunting.buffer_eq
  unfold huntTurn
  simp only [buffer]
  by_cases empty : config.pending.isEmpty = true
  · rw [if_pos empty]
    have noTail : config.pending = [] := List.isEmpty_iff.mp empty
    rcases findBatchHeaderOffset_spec unread with ⟨none, nowhere⟩ |
      ⟨inside, wellFormed, nowhere⟩
    · rw [if_pos (Nat.le_of_eq none.symm), noTail, List.nil_append]
      exact retainTail_tracks hunting logged noTail nowhere
    · have found : ¬unread.length ≤ findBatchHeaderOffset unread := by
        have positive := kPacketHeaderSize_pos
        omega
      rw [if_neg found]
      let aligned : ScanConfig :=
        { config with position := config.position + findBatchHeaderOffset unread }
      have onward : scanner.feed config unread =
          scanner.feed aligned (unread.drop (findBatchHeaderOffset unread)) := by
        have extended : (config.extend unread).pending = unread := by
          simp [noTail]
        have skipped := drain_skip (config.extend unread)
          hunting.state (findBatchHeaderOffset unread) (by
            intro offset below
            rw [extended]
            exact ⟨by omega,
              fun header => nowhere offset below header.wellFormed⟩)
        rw [feed, skipped]
        simp [feed, Config.extend, aligned, noTail]
      split
      · have reported : Hunting
            (receiver.report (.resyncSkip (findBatchHeaderOffset unread)))
            aligned := ⟨hunting.state, hunting.reassembly, hunting.short⟩
        have relogged : Logged calls receiver aligned :=
          ⟨logged.trail, logged.stats⟩
        refine ((fillTurn_tracks reported (relogged.resyncSkip _)
          _).of_feed_eq onward).mono ?_
        simp only [List.length_drop, aligned]
        omega
      · exact fillTurn_tracks hunting logged unread
  · rw [if_neg empty]
    exact fillTurn_tracks hunting logged unread

/-- With nothing held and a header of the session in front, the reassembly
starts at once. -/
theorem huntTurn_header {receiver : Receiver}
    (noTail : receiver.reassembly.buffer = []) {unread : List Byte}
    (header : SessionHeader receiver.stats.wireBatchTotal unread) :
    huntTurn receiver unread =
      .again
        ((receiver.setBuffer (unread.take kPacketHeaderSize)).activated
          (unread.take kPacketHeaderSize))
        (unread.drop kPacketHeaderSize) := by
  have complete := header.wellFormed.complete
  have positive := kPacketHeaderSize_pos
  have aligned : findBatchHeaderOffset unread = 0 := by
    rcases findBatchHeaderOffset_spec unread with ⟨_, nowhere⟩ |
      ⟨_, _, nowhere⟩
    · exact absurd header.wellFormed (nowhere 0)
    · by_contra found
      exact nowhere 0 (Nat.pos_of_ne_zero found) header.wellFormed
  have front : SessionHeader
      (receiver.setBuffer
        (unread.take kPacketHeaderSize)).stats.wireBatchTotal
      (receiver.setBuffer
        (unread.take kPacketHeaderSize)).reassembly.buffer := by
    apply (sessionHeader_append_iff _ (unread.drop kPacketHeaderSize)).mp
    · simp only [Receiver.setBuffer, List.take_append_drop]
      exact header
    · simp only [Receiver.setBuffer, List.length_take]
      omega
  have full : ¬(unread.take kPacketHeaderSize).length <
      kPacketHeaderSize := by
    rw [List.length_take]
    omega
  unfold huntTurn fillTurn
  simp only [noTail, List.isEmpty_nil, if_true, aligned, Nat.lt_irrefl,
    if_false, fillHeader_eq, List.length_nil, Nat.sub_zero, List.nil_append,
    if_neg (show ¬unread.length ≤ 0 by omega), if_neg full]
  exact headerTurn_header front _

end BoostUdp
