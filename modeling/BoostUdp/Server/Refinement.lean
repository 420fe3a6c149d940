import BoostUdp.Server.Collecting

/-!
# The receiver refines the scanner

The loop of `ingest_fragment` with its nested calls terminates within its
fuel, and ingesting a datagram is feeding it to the scanner.  Every property
of the receiver over a session follows from the scan of the received stream.
-/

namespace BoostUdp

open LittleEndian StreamMachine

/-- The claim the induction over the loop's turns proves. -/
def LoopTracks (fuel : Nat) : Prop :=
  ∀ {calls : Nat} {receiver : Receiver} {config : ScanConfig}
    {unread : List Byte}, Tracks calls receiver config →
    loopCost receiver unread < fuel →
    ∃ after, ingestLoop fuel receiver unread = some after ∧
      Tracks calls after (scanner.feed config unread)

/-- A receiver that has judged a batch hunts with nothing held. -/
theorem tracks_afterJudge {calls : Nat} {receiver after : Receiver}
    {config : ScanConfig} {batch : List Byte}
    (logged : Logged calls receiver config) (idle : after.reassembly = {})
    (total : after.stats.wireBatchTotal = receiver.stats.wireBatchTotal)
    (verdicts : after.verdicts = receiver.verdicts ++
      (judge receiver.stats.wireBatchTotal batch).outputs)
    (stats : after.stats = tally calls after.verdicts) :
    Tracks calls after
      (afterJudge config receiver.stats.wireBatchTotal batch) := by
  refine ⟨⟨?_, stats⟩, Or.inl ⟨?_, idle, ?_⟩⟩
  · simp [afterJudge, verdicts, logged.trail, Function.comp_def]
  · rw [total]
    rfl
  · simp only [afterJudge, List.length_nil]
    decide

/-- A valid batch leaves the receiver where the scanner has judged it. -/
theorem tracks_accept {calls : Nat} {receiver : Receiver}
    {config : ScanConfig} {batch : List Byte}
    (logged : Logged calls receiver config) (filled : Filled receiver batch)
    (valid : ValidBatch batch) :
    ∃ between,
      (∀ ingest, tryCompleteBatch ingest receiver = some (true, between)) ∧
      Tracks calls between
        (afterJudge config receiver.stats.wireBatchTotal batch) := by
  obtain ⟨between, completed, idle, stats, verdicts⟩ :=
    tryCompleteBatch_accept filled valid
  refine ⟨between, completed, tracks_afterJudge logged idle ?_ ?_ ?_⟩
  · rw [stats]
    exact trackSequence_wireBatchTotal _ _
  · rw [verdicts, judge_accept valid]
  · rw [verdicts, tally_append, ← logged.stats, stats]

/-- An invalid batch leaves the receiver where the scanner has judged it, the
salvaged tail still to be ingested. -/
theorem tracks_reject {calls : Nat} {receiver : Receiver}
    {config : ScanConfig} {batch : List Byte}
    (logged : Logged calls receiver config) (filled : Filled receiver batch)
    (invalid : ¬ValidBatch batch) :
    ∃ reset,
      (∀ ingest, tryCompleteBatch ingest receiver =
        if salvaged receiver.stats.wireBatchTotal batch = [] then
          some (false, reset)
        else
          (ingest reset (salvaged receiver.stats.wireBatchTotal batch)).map
            fun receiver => (false, receiver)) ∧
      Tracks calls
        (if salvaged receiver.stats.wireBatchTotal batch = [] then reset
          else reset.countFragment)
        (afterJudge config receiver.stats.wireBatchTotal batch) := by
  obtain ⟨reset, idle, stats, verdicts, completed⟩ :=
    tryCompleteBatch_reject filled invalid
  have outputs : (judge receiver.stats.wireBatchTotal batch).outputs = _ :=
    congrArg Move.outputs (judge_reject invalid)
  have total : reset.stats.wireBatchTotal =
      receiver.stats.wireBatchTotal := by rw [stats]
  refine ⟨reset, completed, ?_⟩
  by_cases none : salvaged receiver.stats.wireBatchTotal batch = []
  · rw [if_pos none]
    apply tracks_afterJudge logged idle total
    · rw [verdicts, outputs]
    · rw [verdicts, tally_append, ← logged.stats, stats]
      simp [ServerStats.observe, none]
  · rw [if_neg none]
    have nonzero : (salvaged receiver.stats.wireBatchTotal batch).length ≠
        0 := by
      intro zero
      exact none (List.length_eq_zero_iff.mp zero)
    have counted : reset.countFragment.reassembly = {} := idle
    apply tracks_afterJudge logged counted total
    · rw [outputs]
      exact verdicts
    · change { reset.stats with fragments := reset.stats.fragments + 1 } =
        tally calls reset.verdicts
      rw [verdicts, tally_append, ← logged.stats, stats]
      simp [ServerStats.observe, nonzero]

/-- Nothing is held then. -/
theorem Tracks.idle {calls : Nat} {receiver : Receiver}
    {config : ScanConfig} {batch : List Byte} {total : Option Word}
    (tracks : Tracks calls receiver (afterJudge config total batch)) :
    receiver.reassembly = {} := by
  rcases tracks.phase with hunting | collecting
  · exact hunting.reassembly
  · obtain ⟨expected, state, _⟩ := collecting.state
    have clash := congrArg ScanState.collecting state
    contradiction

theorem Tracks.cost_lt {fuel calls : Nat} {receiver : Receiver}
    {config : ScanConfig} {batch : List Byte} {total : Option Word}
    (tracks : Tracks calls receiver (afterJudge config total batch))
    {unread : List Byte} (cost : 3 * unread.length + 2 < fuel) :
    loopCost receiver unread < fuel := by
  have bound := tracks.loopCost_le unread
  simp only [afterJudge, List.length_nil, Nat.zero_add] at bound
  omega

theorem ingest_after_accept {fuel calls : Nat} {receiver : Receiver}
    {config : ScanConfig} {batch rest : List Byte}
    (onward : LoopTracks fuel) (logged : Logged calls receiver config)
    (filled : Filled receiver batch) (valid : ValidBatch batch)
    (cost : 3 * rest.length + 2 < fuel)
    (ingest : Receiver → List Byte → Option Receiver) :
    ∃ result between after,
      tryCompleteBatch ingest receiver = some (result, between) ∧
        ingestLoop fuel between rest = some after ∧
        Tracks calls after
          (scanner.feed
            (afterJudge config receiver.stats.wireBatchTotal batch) rest) := by
  obtain ⟨between, completed, related⟩ :=
    tracks_accept logged filled valid
  obtain ⟨after, ingested, tracked⟩ := onward related (related.cost_lt cost)
  exact ⟨true, between, after, completed ingest, ingested, tracked⟩

theorem ingest_after_reject {fuel calls : Nat} {receiver : Receiver}
    {config : ScanConfig} {batch rest : List Byte}
    (onward : LoopTracks fuel) (logged : Logged calls receiver config)
    (filled : Filled receiver batch) (invalid : ¬ValidBatch batch)
    (cost : 3 * ((salvaged receiver.stats.wireBatchTotal batch).length +
      rest.length) + 2 < fuel) :
    ∃ result between after,
      tryCompleteBatch
          (fun receiver carry =>
            ingestLoop fuel (Receiver.countFragment receiver) carry)
          receiver = some (result, between) ∧
        ingestLoop fuel between rest = some after ∧
        Tracks calls after
          (scanner.feed
            (afterJudge config receiver.stats.wireBatchTotal batch)
            (salvaged receiver.stats.wireBatchTotal batch ++ rest)) := by
  obtain ⟨reset, completed, related⟩ := tracks_reject logged filled invalid
  by_cases none : salvaged receiver.stats.wireBatchTotal batch = []
  · rw [if_pos none] at related
    rw [none, List.length_nil, Nat.zero_add] at cost
    obtain ⟨after, ingested, tracked⟩ := onward related (related.cost_lt cost)
    refine ⟨false, reset, after, ?_, ingested, ?_⟩
    · rw [completed, if_pos none]
    · rw [none]
      exact tracked
  · rw [if_neg none] at related
    have nestedCost : loopCost reset.countFragment
        (salvaged receiver.stats.wireBatchTotal batch) < fuel :=
      related.cost_lt (by omega)
    obtain ⟨between, nested, tracked⟩ := onward related nestedCost
    have held := scanner.length_pending_feed_le
      (afterJudge config receiver.stats.wireBatchTotal batch)
      (salvaged receiver.stats.wireBatchTotal batch)
    have lower := tracked.loopCost_le rest
    simp only [afterJudge, List.length_nil, Nat.zero_add] at held lower
    have laterCost : loopCost between rest < fuel := by omega
    obtain ⟨after, ingested, trackedAfter⟩ := onward tracked laterCost
    refine ⟨false, between, after, ?_, ingested, ?_⟩
    · rw [completed, if_neg none, nested]
      rfl
    · rw [← scanner.feed_feed]
      exact trackedAfter

/-- The header that was collected stays at the front of its batch. -/
theorem Collecting.front_header {receiver : Receiver} {config : ScanConfig}
    (collecting : Collecting receiver config) {unread : List Byte}
    (arrived : receiver.reassembly.expected ≤
      (config.pending ++ unread).length) :
    PacketHeader.decode ((config.pending ++ unread).take
        receiver.reassembly.expected) =
      PacketHeader.decode receiver.reassembly.buffer ∧
    PlausibleHeader ((config.pending ++ unread).take
      receiver.reassembly.expected) := by
  have expectedEnough : kPacketHeaderSize ≤ receiver.reassembly.expected :=
    Nat.le_trans collecting.filled_ge collecting.filled_le
  obtain ⟨sameHeader, wellFormed⟩ := collecting.pending_header unread
  constructor
  · rw [PacketHeader.decode_take expectedEnough arrived, sameHeader]
  · exact (plausibleHeader_take_iff expectedEnough arrived).mpr wellFormed

/-- The reassembly that `copyFragment_complete` leaves is full. -/
theorem Collecting.filled_of_copied {receiver : Receiver}
    {config : ScanConfig} (collecting : Collecting receiver config)
    {unread batch : List Byte}
    (size : batch.length = receiver.reassembly.expected)
    (front : batch = (config.pending ++ unread).take
      receiver.reassembly.expected) (sizes : List Nat) :
    Filled
      { receiver with
        reassembly :=
          { buffer := batch
            filled := receiver.reassembly.expected
            expected := receiver.reassembly.expected
            active := true
            fragmentSizes := sizes } } batch := by
  have arrived : receiver.reassembly.expected ≤
      (config.pending ++ unread).length := by
    rw [← size, front, List.length_take]
    exact Nat.min_le_right _ _
  obtain ⟨sameHeader, wellFormed⟩ := collecting.front_header arrived
  rw [← front] at sameHeader wellFormed
  exact
    { buffer := rfl
      expected := size.symm
      header := wellFormed
      session := by
        rw [sameHeader]
        exact collecting.session }

/-- A turn of the loop with an active reassembly. -/
theorem ingestLoop_active {receiver : Receiver}
    (active : receiver.reassembly.active = true) {unread : List Byte}
    (nonempty : unread ≠ []) (fuel : Nat) :
    ingestLoop (fuel + 1) receiver unread =
      if (copyFragment receiver unread).1.reassembly.expected ≤
          (copyFragment receiver unread).1.reassembly.filled then
        (tryCompleteBatch
            (fun receiver carry =>
              ingestLoop fuel (Receiver.countFragment receiver) carry)
            (copyFragment receiver unread).1).bind fun completed =>
          ingestLoop fuel completed.2 (copyFragment receiver unread).2
      else
        ingestLoop fuel (copyFragment receiver unread).1
          (copyFragment receiver unread).2 := by
  rw [ingestLoop]
  simp only [List.isEmpty_iff, nonempty, if_false, active,
    Bool.not_true, Bool.false_eq_true]
  split
  · cases tryCompleteBatch (fun receiver carry =>
        ingestLoop fuel (Receiver.countFragment receiver) carry)
        (copyFragment receiver unread).1 <;>
      rfl
  · rfl

/-- A turn of the loop without one, where it leaves. -/
theorem ingestLoop_leave {receiver after : Receiver}
    (idle : receiver.reassembly.active = false) {unread : List Byte}
    (nonempty : unread ≠ []) (turn : huntTurn receiver unread = .leave after)
    (fuel : Nat) : ingestLoop (fuel + 1) receiver unread = some after := by
  rw [ingestLoop]
  simp only [List.isEmpty_iff, nonempty, if_false, idle, Bool.not_false,
    if_true, turn]

/-- A turn of the loop without one, where it goes round again. -/
theorem ingestLoop_again {receiver later : Receiver}
    (idle : receiver.reassembly.active = false) {unread rest : List Byte}
    (nonempty : unread ≠ [])
    (turn : huntTurn receiver unread = .again later rest) (fuel : Nat) :
    ingestLoop (fuel + 1) receiver unread = ingestLoop fuel later rest := by
  rw [ingestLoop]
  simp only [List.isEmpty_iff, nonempty, if_false, idle, Bool.not_false,
    if_true, turn]

/-- The datagram ends within the batch. -/
theorem ingestLoop_partial {fuel calls : Nat} {receiver : Receiver}
    {config : ScanConfig} {unread : List Byte}
    (logged : Logged calls receiver config)
    (collecting : Collecting receiver config) (nonempty : unread ≠ [])
    (short : config.pending.length + unread.length <
      receiver.reassembly.expected) (enough : 0 < fuel) :
    ∃ after, ingestLoop (fuel + 1) receiver unread = some after ∧
      Tracks calls after (scanner.feed config unread) := by
  obtain ⟨nothingLeft, unfinished, collectingMore⟩ :=
    copyFragment_partial collecting short
  have tracks : Tracks calls (copyFragment receiver unread).1
      (config.extend unread) :=
    ⟨⟨logged.trail, logged.stats⟩, Or.inr collectingMore⟩
  have ended : scanner.feed config unread = config.extend unread :=
    scanner.drain_of_none tracks.waiting
  obtain ⟨more, rfl⟩ := Nat.exists_eq_add_one_of_ne_zero
    (Nat.ne_of_gt enough)
  rw [ingestLoop_active collecting.active nonempty,
    if_neg (Nat.not_le.mpr unfinished), nothingLeft, ended]
  exact ⟨_, by simp [ingestLoop], tracks⟩

/-- The scanner judges the batch that the datagram completes. -/
theorem Collecting.feed_complete {receiver : Receiver} {config : ScanConfig}
    (collecting : Collecting receiver config) {unread : List Byte}
    (nonempty : unread ≠ [])
    (arrived : receiver.reassembly.expected ≤
      config.pending.length + unread.length) :
    scanner.feed config unread =
      scanner.feed
        (afterJudge config receiver.stats.wireBatchTotal
          ((config.pending ++ unread).take receiver.reassembly.expected))
        ((config.pending ++ unread).drop
          (judge receiver.stats.wireBatchTotal
            ((config.pending ++ unread).take
              receiver.reassembly.expected)).count) := by
  obtain ⟨expected, state, same⟩ := collecting.state
  have positive : 0 < unread.length := List.length_pos_iff.mpr nonempty
  have heldEnough := collecting.filled_ge
  rw [← collecting.length_pending] at heldEnough
  rw [← List.length_append, ← same] at arrived
  have moved := feed_judge state arrived (by
    rw [List.length_append]
    omega)
  rw [same] at moved
  exact moved

/-- The receiver once the copied bytes have completed its batch: the batch is
the front of what was held and unread, and the rest is unread. -/
structure Copied (calls : Nat) (receiver : Receiver) (config : ScanConfig)
    (unread batch rest : List Byte) : Prop where
  filled : Filled (copyFragment receiver unread).1 batch
  logged : Logged calls (copyFragment receiver unread).1 config
  complete : (copyFragment receiver unread).1.reassembly.expected ≤
    (copyFragment receiver unread).1.reassembly.filled
  total : (copyFragment receiver unread).1.stats.wireBatchTotal =
    receiver.stats.wireBatchTotal
  left : (copyFragment receiver unread).2 = rest
  parts : batch ++ rest = config.pending ++ unread
  length : batch.length = receiver.reassembly.expected
  header_length : (PacketHeader.decode batch).length.toNat = batch.length

theorem Copied.length_parts {calls : Nat} {receiver : Receiver}
    {config : ScanConfig} {unread batch rest : List Byte}
    (copied : Copied calls receiver config unread batch rest) :
    batch.length + rest.length = config.pending.length + unread.length := by
  rw [← List.length_append, ← List.length_append, copied.parts]

theorem Collecting.copied {calls : Nat} {receiver : Receiver}
    {config : ScanConfig} {unread : List Byte}
    (collecting : Collecting receiver config)
    (logged : Logged calls receiver config)
    (arrived : receiver.reassembly.expected ≤
      config.pending.length + unread.length) :
    Copied calls receiver config unread
      ((config.pending ++ unread).take receiver.reassembly.expected)
      ((config.pending ++ unread).drop receiver.reassembly.expected) := by
  obtain ⟨sizes, copied⟩ := copyFragment_complete collecting arrived
  have size : ((config.pending ++ unread).take
      receiver.reassembly.expected).length =
        receiver.reassembly.expected := by
    apply List.length_take_of_le
    rw [List.length_append]
    exact arrived
  exact
    { filled := by
        rw [copied]
        exact collecting.filled_of_copied size rfl sizes
      logged := by
        rw [copied]
        exact ⟨logged.trail, logged.stats⟩
      complete := by rw [copied]
      total := by rw [copied]
      left := by rw [copied]
      parts := List.take_append_drop _ _
      length := size
      header_length := by
        rw [size, (collecting.front_header (by
          rw [List.length_append]
          exact arrived)).1]
        exact collecting.header_length }

/-- The datagram completes the batch. -/
theorem ingestLoop_complete {fuel calls : Nat} {receiver : Receiver}
    {config : ScanConfig} {unread : List Byte} (onward : LoopTracks fuel)
    (logged : Logged calls receiver config)
    (collecting : Collecting receiver config) (nonempty : unread ≠ [])
    (arrived : receiver.reassembly.expected ≤
      config.pending.length + unread.length)
    (cost : 3 * (config.pending.length + unread.length) < fuel) :
    ∃ after, ingestLoop (fuel + 1) receiver unread = some after ∧
      Tracks calls after (scanner.feed config unread) := by
  have copied := collecting.copied logged arrived
  let batch := (config.pending ++ unread).take receiver.reassembly.expected
  let rest := (config.pending ++ unread).drop receiver.reassembly.expected
  have headerPositive := kPacketHeaderSize_pos
  have batchLength : batch.length = receiver.reassembly.expected :=
    copied.length
  have expectedEnough : kPacketHeaderSize ≤ receiver.reassembly.expected :=
    Nat.le_trans collecting.filled_ge collecting.filled_le
  have restLength : batch.length + rest.length =
      config.pending.length + unread.length := copied.length_parts
  have sameTotal := copied.total
  rw [ingestLoop_active collecting.active nonempty, if_pos copied.complete,
    copied.left, collecting.feed_complete nonempty arrived]
  by_cases valid : ValidBatch batch
  · obtain ⟨result, between, after, completed, ingested, tracked⟩ :=
      ingest_after_accept onward copied.logged copied.filled valid
        (show 3 * rest.length + 2 < fuel by omega)
        (fun receiver carry =>
          ingestLoop fuel (Receiver.countFragment receiver) carry)
    rw [completed]
    refine ⟨after, ingested, ?_⟩
    rw [sameTotal] at tracked
    rw [judge_accept valid, batchLength]
    exact tracked
  · have shorter : (salvaged receiver.stats.wireBatchTotal batch).length <
        batch.length := salvaged_length_lt (by omega)
    have nestedCost : 3 * ((salvaged
        (copyFragment receiver unread).1.stats.wireBatchTotal batch).length +
          rest.length) + 2 < fuel := by
      rw [sameTotal]
      omega
    obtain ⟨result, between, after, completed, ingested, tracked⟩ :=
      ingest_after_reject onward copied.logged copied.filled valid nestedCost
    rw [completed]
    refine ⟨after, ingested, ?_⟩
    rw [sameTotal] at tracked
    rw [judge_reject valid]
    simp only [batch] at tracked ⊢
    rw [drop_rejectedAdvance]
    exact tracked

theorem ingestLoop_collecting {fuel calls : Nat} {receiver : Receiver}
    {config : ScanConfig} {unread : List Byte} (onward : LoopTracks fuel)
    (logged : Logged calls receiver config)
    (collecting : Collecting receiver config) (nonempty : unread ≠ [])
    (cost : loopCost receiver unread < fuel + 1) :
    ∃ after, ingestLoop (fuel + 1) receiver unread = some after ∧
      Tracks calls after (scanner.feed config unread) := by
  rw [collecting.loopCost_eq] at cost
  by_cases short : config.pending.length + unread.length <
      receiver.reassembly.expected
  · exact ingestLoop_partial logged collecting nonempty short (by omega)
  · exact ingestLoop_complete onward logged collecting nonempty
      (Nat.not_lt.mp short) (by omega)

theorem ingestLoop_tracks (fuel : Nat) : LoopTracks fuel := by
  induction fuel with
  | zero =>
      intro calls receiver config unread tracks cost
      omega
  | succ fuel onward =>
      intro calls receiver config unread tracks cost
      by_cases empty : unread = []
      · subst empty
        rw [tracks.feed_nil]
        exact ⟨receiver, by simp [ingestLoop], tracks⟩
      · rcases tracks.phase with hunting | collecting
        · have idle := hunting.idle
          have turned := huntTurn_tracks hunting tracks.logged unread
          rw [hunting.loopCost_eq] at cost
          cases turn : huntTurn receiver unread with
          | leave after =>
              rw [turn] at turned
              exact ⟨after, ingestLoop_leave idle empty turn fuel, turned⟩
          | again after rest =>
              rw [turn] at turned
              obtain ⟨next, related, same, lower⟩ := turned
              rw [same, ingestLoop_again idle empty turn]
              exact onward related (by omega)
        · exact ingestLoop_collecting onward tracks.logged collecting empty cost

theorem loopCost_lt_ingestFuel (receiver : Receiver) (unread : List Byte) :
    loopCost receiver unread < ingestFuel receiver unread := by
  unfold loopCost ingestFuel
  split <;> omega

/-- Counting a fragment changes nothing else. -/
theorem Collecting.countFragment {receiver : Receiver} {config : ScanConfig}
    (collecting : Collecting receiver config) :
    Collecting receiver.countFragment config :=
  { collecting with }

theorem Tracks.countFragment {calls : Nat} {receiver : Receiver}
    {config : ScanConfig} (tracks : Tracks calls receiver config) :
    Tracks (calls + 1) receiver.countFragment config := by
  refine ⟨⟨tracks.logged.trail, ?_⟩, ?_⟩
  · change { receiver.stats with
        fragments := receiver.stats.fragments + 1 } =
      tally (calls + 1) receiver.verdicts
    rw [tally_succ, ← tracks.logged.stats]
  · rcases tracks.phase with hunting | collecting
    · exact Or.inl ⟨hunting.state, hunting.reassembly, hunting.short⟩
    · exact Or.inr collecting.countFragment

/-- Ingesting a datagram terminates, and is feeding it to the scanner. -/
theorem ingestFragment_tracks {calls : Nat} {receiver : Receiver}
    {config : ScanConfig} (tracks : Tracks calls receiver config)
    (data : List Byte) :
    ∃ after, ingestFragment receiver data = some after ∧
      Tracks (calls + 1) after (scanner.feed config data) :=
  ingestLoop_tracks _ tracks.countFragment
    (loopCost_lt_ingestFuel receiver.countFragment data)

theorem ingestAll_tracks {calls : Nat} {receiver : Receiver}
    {config : ScanConfig} (tracks : Tracks calls receiver config)
    (datagrams : List (List Byte)) :
    ∃ after, ingestAll receiver datagrams = some after ∧
      Tracks (calls + datagrams.length) after
        (scanner.feed config datagrams.flatten) := by
  rw [← scanner.feedAll_eq_feed tracks.waiting]
  induction datagrams generalizing calls receiver config with
  | nil => exact ⟨receiver, rfl, tracks⟩
  | cons datagram datagrams induction =>
      obtain ⟨between, ingested, tracked⟩ :=
        ingestFragment_tracks tracks datagram
      obtain ⟨after, allIngested, trackedAfter⟩ := induction tracked
      refine ⟨after, ?_, ?_⟩
      · simpa [ingestAll, List.foldlM_cons, ingested] using allIngested
      · rw [List.length_cons, ← Nat.add_assoc, Nat.add_right_comm]
        exact trackedAfter

/-- A session's receiver is the scan of everything received. -/
theorem ingestAll_fresh (datagrams : List (List Byte)) :
    ∃ after, ingestAll {} datagrams = some after ∧
      Tracks datagrams.length after (scan datagrams.flatten) := by
  simpa [scan] using ingestAll_tracks tracks_fresh datagrams

/-- The same for a run that is known to end. -/
theorem tracks_of_ingestAll {datagrams : List (List Byte)}
    {receiver : Receiver} (ingested : ingestAll {} datagrams = some receiver) :
    Tracks datagrams.length receiver (scan datagrams.flatten) := by
  obtain ⟨after, reached, tracks⟩ := ingestAll_fresh datagrams
  rw [ingested] at reached
  cases reached
  exact tracks

theorem Reachable.tracks {receiver : Receiver} (reachable : Reachable receiver) :
    ∃ calls stream, Tracks calls receiver (scan stream) := by
  obtain ⟨datagrams, reached⟩ := reachable
  exact ⟨_, _, tracks_of_ingestAll reached⟩

end BoostUdp
