import BoostUdp.ScanRun
import BoostUdp.Server.LoopRun

/-!
# How deep salvages nest

A salvaged tail starts with a valid batch, so whatever fails while the tail is
ingested lies behind that batch.  Each failed batch in a nested call is
therefore shorter than the batch the tail comes from by more than a header,
and a datagram can only nest so many salvages.
-/

namespace BoostUdp

open LittleEndian StreamMachine

/-- The nested call on the tail of a failed batch of this length, if one more
may be nested. -/
def nestedCall (loop : Nat → Option Nat → Receiver → List Byte →
      Option Receiver) (depth length : Nat) (receiver : Receiver)
    (carry : List Byte) : Option Receiver :=
  match depth with
  | 0 => none
  | depth + 1 => loop depth (some length) receiver.countFragment carry

/-- A batch that fails in a nested call and is not at least 21 bytes shorter
than the failed batch of the call. -/
def tooLong (parent : Option Nat) (length : Nat) (passed : Bool) : Bool :=
  !passed && parent.any fun parent => parent < length + 21

/-- The loop of `ingest_fragment`, watched.  `parent` is the length of the
failed batch whose tail this call ingests, when it is a nested call, and
`depth` how many calls may still be nested.  `none`: out of fuel, or a nested
call too many, or a failed batch that is too long. -/
def watchedLoop :
    Nat → Nat → Option Nat → Receiver → List Byte → Option Receiver
  | 0, _, _, _, _ => none
  | fuel + 1, depth, parent, receiver, unread =>
      if unread.isEmpty then
        some receiver
      else if !receiver.reassembly.active then
        match huntTurn receiver unread with
        | .leave receiver => some receiver
        | .again receiver unread =>
            watchedLoop fuel depth parent receiver unread
      else
        let (receiver, unread) := copyFragment receiver unread
        let length := receiver.reassembly.expected
        if length ≤ receiver.reassembly.filled then
          (tryCompleteBatch (nestedCall (watchedLoop fuel) depth length)
            receiver).bind fun (passed, receiver) =>
              if tooLong parent length passed then
                none
              else
                watchedLoop fuel depth parent receiver unread
        else
          watchedLoop fuel depth parent receiver unread

section Turns

variable {receiver : Receiver} {unread : List Byte} (nonempty : unread ≠ [])
  (fuel depth : Nat) (parent : Option Nat)

include nonempty

theorem watchedLoop_leave {after : Receiver}
    (idle : receiver.reassembly.active = false)
    (turn : huntTurn receiver unread = .leave after) :
    watchedLoop (fuel + 1) depth parent receiver unread = some after := by
  rw [watchedLoop]
  simp only [List.isEmpty_iff, nonempty, if_false, idle, Bool.not_false,
    if_true, turn]

theorem watchedLoop_again {later : Receiver} {rest : List Byte}
    (idle : receiver.reassembly.active = false)
    (turn : huntTurn receiver unread = .again later rest) :
    watchedLoop (fuel + 1) depth parent receiver unread =
      watchedLoop fuel depth parent later rest := by
  rw [watchedLoop]
  simp only [List.isEmpty_iff, nonempty, if_false, idle, Bool.not_false,
    if_true, turn]

theorem watchedLoop_copy {config : ScanConfig}
    (collecting : Collecting receiver config)
    (short : config.pending.length + unread.length <
      receiver.reassembly.expected) :
    watchedLoop (fuel + 1) depth parent receiver unread =
      watchedLoop fuel depth parent (copyFragment receiver unread).1 [] := by
  obtain ⟨nothingLeft, unfinished, _⟩ :=
    copyFragment_partial collecting short
  rw [watchedLoop]
  simp only [List.isEmpty_iff, nonempty, if_false, collecting.active,
    Bool.not_true, Bool.false_eq_true, if_neg (Nat.not_le.mpr unfinished),
    nothingLeft]

end Turns

theorem watchedLoop_complete {calls fuel depth : Nat}
    {receiver between : Receiver} {parent : Option Nat}
    {config : ScanConfig} {unread batch rest : List Byte} {passed : Bool}
    (collecting : Collecting receiver config) (nonempty : unread ≠ [])
    (copied : Copied calls receiver config unread batch rest)
    (completed : tryCompleteBatch
      (nestedCall (watchedLoop fuel) depth batch.length)
      (copyFragment receiver unread).1 = some (passed, between))
    (shorter : passed = false → ∀ length, parent = some length →
      batch.length + 21 ≤ length) :
    watchedLoop (fuel + 1) depth parent receiver unread =
      watchedLoop fuel depth parent between rest := by
  have within : tooLong parent batch.length passed = false := by
    cases passed with
    | true => rfl
    | false =>
        cases parent with
        | none => rfl
        | some length =>
            have enough := shorter rfl length rfl
            simp [tooLong, enough]
  rw [← copied.filled.expected] at completed within
  rw [watchedLoop]
  simp only [List.isEmpty_iff, nonempty, if_false, collecting.active,
    Bool.not_true, Bool.false_eq_true, if_pos copied.complete, completed,
    Option.bind_some, within, copied.left]

/-- The turn that salvages a tail makes the nested call one level down. -/
theorem watchedLoop_salvage {calls fuel depth : Nat}
    {receiver reset between : Receiver} {parent : Option Nat}
    {config : ScanConfig} {unread batch rest carry : List Byte}
    (collecting : Collecting receiver config) (nonempty : unread ≠ [])
    (copied : Copied calls receiver config unread batch rest)
    (completed : ∀ ingest, tryCompleteBatch ingest
      (copyFragment receiver unread).1 =
        (ingest reset carry).map fun after => (false, after))
    (nested : watchedLoop fuel depth (some batch.length) reset.countFragment
      carry = some between)
    (shorter : ∀ length, parent = some length →
      batch.length + 21 ≤ length) :
    watchedLoop (fuel + 1) (depth + 1) parent receiver unread =
      watchedLoop fuel (depth + 1) parent between rest := by
  have completion : tryCompleteBatch
      (nestedCall (watchedLoop fuel) (depth + 1) batch.length)
      (copyFragment receiver unread).1 = some (false, between) := by
    rw [completed]
    simp only [nestedCall, nested, Option.map_some]
  exact watchedLoop_complete collecting nonempty copied completion
    fun _ => shorter

/-- The longest batch that may fail in the call. -/
def longest : Option Nat → Nat
  | none => kMaxPacketLength
  | some parent => parent - 21

/-- The invariant of a call: in a nested one, the bytes held and unread are
few enough, or they start with the valid batch that the tail was salvaged for
and few enough follow it. -/
inductive Bounded : Option Nat → Receiver → List Byte → Prop where
  | outermost (receiver : Receiver) (unread : List Byte) :
      Bounded none receiver unread
  | short {parent : Nat} {receiver : Receiver} {unread : List Byte}
      (fits : receiver.reassembly.held.length + unread.length + 21 ≤
        parent) :
      Bounded (some parent) receiver unread
  | atBatch {parent : Nat} {receiver : Receiver} {total : Word}
      {unread batch rest : List Byte} (member : BatchOf total batch)
      (session : receiver.stats.wireBatchTotal = some total)
      (stands : receiver.reassembly.held ++ unread = batch ++ rest)
      (stage : receiver.reassembly = {} ∨
        receiver.reassembly.active = true ∧
          receiver.reassembly.expected = batch.length)
      (fits : rest.length + 21 ≤ parent) :
      Bounded (some parent) receiver unread

section Turns

variable {parent : Option Nat} {receiver : Receiver} {config : ScanConfig}
  {unread : List Byte}

theorem Bounded.of_fits (fits : ∀ length, parent = some length →
      receiver.reassembly.held.length + unread.length + 21 ≤ length) :
    Bounded parent receiver unread := by
  cases parent with
  | none => exact .outermost receiver unread
  | some length => exact .short (fits length rfl)

/-- The reassembly starts at the valid batch in front. -/
theorem atBatch_started {total : Word} {batch rest left : List Byte}
    {later : Receiver} (member : BatchOf total batch)
    (session : receiver.stats.wireBatchTotal = some total)
    (reset : receiver.reassembly = {})
    (turn : huntTurn receiver (batch ++ rest) = .again later left) :
    later.stats.wireBatchTotal = some total ∧
      later.reassembly.held ++ left = batch ++ rest ∧
      later.reassembly.active = true ∧
      later.reassembly.expected = batch.length := by
  have header := member.sameSession (Or.inr session) rest
  have complete := header.wellFormed.complete
  have started := huntTurn_header (by rw [reset]) header
  rw [turn] at started
  cases started
  have sameHeader : PacketHeader.decode
      ((batch ++ rest).take kPacketHeaderSize) = PacketHeader.decode batch := by
    rw [PacketHeader.decode_take (Nat.le_refl _) complete,
      PacketHeader.decode_append member.valid.wellFormed.complete]
  have wellFormed : PlausibleHeader
      ((batch ++ rest).take kPacketHeaderSize) :=
    (plausibleHeader_take_iff (Nat.le_refl _) complete).mpr header.wellFormed
  have length : peekBatchLength ((batch ++ rest).take kPacketHeaderSize) =
      batch.length := by
    rw [wellFormed.peekBatchLength_eq, sameHeader]
    exact member.valid.header_length
  have front := List.length_take_of_le complete
  have grows : ((batch ++ rest).take kPacketHeaderSize).length ≤
      batch.length := by
    rw [front]
    exact member.valid.wellFormed.complete
  refine ⟨?_, ?_, rfl, length⟩
  · simp only [Receiver.activated, Receiver.report,
      Receiver.setWireBatchTotal, sameHeader, member.batchTotal]
  · simp only [BatchReassembly.held, Receiver.activated, Receiver.report,
      if_true, length, resizeBuffer_eq grows]
    rw [List.take_left' front, List.take_append_drop]

theorem Bounded.again (bounded : Bounded parent receiver unread)
    (hunting : Hunting receiver config) {later : Receiver} {rest : List Byte}
    (turn : huntTurn receiver unread = .again later rest)
    (cost : loopCost later rest < loopCost receiver unread) :
    Bounded parent later rest := by
  cases bounded with
  | outermost => exact .outermost later rest
  | short fits =>
      apply Bounded.short
      unfold loopCost at cost
      split at cost <;> split at cost <;> omega
  | atBatch member session stands stage fits =>
      rcases stage with reset | ⟨active, _⟩
      · simp only [reset, BatchReassembly.held, Bool.false_eq_true,
          if_false, List.nil_append] at stands
        rw [stands] at turn
        obtain ⟨total, same, active, expected⟩ :=
          atBatch_started member session reset turn
        exact .atBatch member total same (Or.inr ⟨active, expected⟩) fits
      · rw [hunting.idle] at active
        contradiction

/-- The batch that the receiver collects there is completed. -/
theorem atBatch_completed {calls : Nat} {valid behind batch rest : List Byte}
    (collecting : Collecting receiver config)
    (copied : Copied calls receiver config unread batch rest)
    (stands : receiver.reassembly.held ++ unread = valid ++ behind)
    (stage : receiver.reassembly = {} ∨
      receiver.reassembly.active = true ∧
        receiver.reassembly.expected = valid.length) :
    batch = valid ∧ rest = behind := by
  rcases stage with reset | ⟨_, expected⟩
  · have active := collecting.active
    rw [reset] at active
    contradiction
  · rw [collecting.held_eq, ← copied.parts] at stands
    exact List.append_inj stands (copied.length.trans expected)

/-- A completed batch that leaves nothing held. -/
theorem Bounded.completed {calls : Nat} {between : Receiver}
    {batch rest : List Byte} (bounded : Bounded parent receiver unread)
    (collecting : Collecting receiver config)
    (copied : Copied calls receiver config unread batch rest)
    (idle : between.reassembly = {}) : Bounded parent between rest := by
  have sizes := copied.length_parts
  rw [← collecting.held_eq] at sizes
  have none : between.reassembly.held = [] := by rw [idle]; rfl
  cases bounded with
  | outermost => exact .outermost between rest
  | short fits =>
      apply Bounded.short
      rw [none, List.length_nil]
      omega
  | atBatch member session stands stage fits =>
      obtain ⟨_, rfl⟩ := atBatch_completed collecting copied stands stage
      apply Bounded.short
      rw [none, List.length_nil]
      omega

/-- Only a batch that is short enough can fail. -/
theorem Bounded.failed {calls : Nat} {batch rest : List Byte}
    (bounded : Bounded parent receiver unread)
    (collecting : Collecting receiver config)
    (copied : Copied calls receiver config unread batch rest)
    (invalid : ¬ValidBatch batch) :
    batch.length ≤ longest parent ∧
      ∀ length, parent = some length →
        batch.length + rest.length + 21 ≤ length := by
  have sizes := copied.length_parts
  rw [← collecting.held_eq] at sizes
  cases bounded with
  | outermost =>
      refine ⟨?_, ?_⟩
      · rw [copied.length, ← collecting.header_length]
        exact collecting.header.length_le
      · intro length same
        contradiction
  | short fits =>
      refine ⟨?_, ?_⟩
      · rw [longest]
        omega
      · intro length same
        cases same
        omega
  | atBatch member session stands stage fits =>
      obtain ⟨rfl, _⟩ := atBatch_completed collecting copied stands stage
      exact absurd member.valid invalid

end Turns

/-- A salvaged tail bounds the call that ingests it. -/
theorem Bounded.nested {total : Word} {batch : List Byte} {offset : Nat}
    {receiver : Receiver} (rescued : Rescued total batch offset)
    (reset : receiver.reassembly = {})
    (session : receiver.stats.wireBatchTotal = some total) :
    Bounded (some batch.length) receiver (batch.drop offset) := by
  obtain ⟨behind, tail, fits⟩ := rescued.tail_eq
  apply Bounded.atBatch rescued.member session _ (Or.inl reset) fits
  rw [reset, ← tail]
  rfl

theorem LoopRun.watched {fuel : Nat} {receiver after : Receiver}
    {unread : List Byte} (run : LoopRun fuel receiver unread after)
    {depth : Nat} {parent : Option Nat}
    (bounded : Bounded parent receiver unread)
    (enough : longest parent ≤ 21 * depth + 20) :
    watchedLoop fuel depth parent receiver unread = some after := by
  induction run generalizing depth parent with
  | done receiver => rfl
  | leave hunting nonempty turn =>
      exact watchedLoop_leave nonempty _ depth parent hunting.idle turn
  | again hunting nonempty turn cost onward induction =>
      rw [watchedLoop_again nonempty _ depth parent hunting.idle turn]
      exact induction (bounded.again hunting turn cost) enough
  | copy collecting nonempty short onward induction =>
      rw [watchedLoop_copy nonempty _ depth parent collecting short]
      cases onward with
      | done => rfl
      | leave _ nonempty => contradiction
      | again _ nonempty => contradiction
      | copy _ nonempty => contradiction
      | accept _ nonempty => contradiction
      | reject _ nonempty => contradiction
      | salvage _ nonempty => contradiction
  | accept collecting nonempty copied valid completed idle onward induction =>
      rw [watchedLoop_complete collecting nonempty copied (completed _)
        (by intro passed; contradiction)]
      exact induction (bounded.completed collecting copied idle) enough
  | reject collecting nonempty copied invalid completed idle onward induction =>
      obtain ⟨_, shorter⟩ := bounded.failed collecting copied invalid
      rw [watchedLoop_complete collecting nonempty copied (completed _) (by
        intro _ length same
        have bound := shorter length same
        omega)]
      exact induction (bounded.completed collecting copied idle) enough
  | @salvage fuel _ _ _ reset between _ _ _ _ batch rest _ offset collecting
      nonempty copied invalid rescued completed idle session nested tracks
      held onward inner induction =>
      obtain ⟨bound, shorter⟩ := bounded.failed collecting copied invalid
      have behind := rescued.1.behind
      have complete := rescued.1.complete
      unfold kPacketHeaderSize at complete
      cases depth with
      | zero => omega
      | succ depth =>
          have below : longest (some batch.length) ≤ 21 * depth + 20 := by
            rw [longest]
            omega
          have returned :=
            inner (Bounded.nested rescued idle session) below
          rw [watchedLoop_salvage collecting nonempty copied completed
            returned (by
              intro length same
              have bound := shorter length same
              omega)]
          apply induction _ enough
          apply Bounded.of_fits
          intro length same
          have bound := shorter length same
          rw [List.length_drop] at held
          omega

/-- Ingesting a datagram ends, with the same result for all fuel beyond some
bound, and stays within the limits: 3120 times 21 bytes are all that fit into
a batch of 64 KiB. -/
theorem ingestion_terminates {receiver : Receiver}
    (reachable : Reachable receiver) (data : List Byte) :
    ∃ after, ingestFragment receiver data = some after ∧
      ∃ enough, ∀ fuel ≥ enough,
        ingestLoop fuel receiver.countFragment data = some after ∧
          watchedLoop fuel 3120 none receiver.countFragment data =
            some after := by
  obtain ⟨calls, stream, tracks⟩ := reachable.tracks
  obtain ⟨after, ingested, _⟩ := ingestFragment_tracks tracks data
  refine ⟨after, ingested, ingestFuel receiver data, ?_⟩
  intro fuel enough
  have ended := ingestLoop_mono enough ingested
  have run := tracks.countFragment.loopRun fuel ended
  refine ⟨ended, run.watched (.outermost _ _) ?_⟩
  decide

theorem ingestion_terminates_salvage :
    ∃ after,
      ingestFragment {} ((blankHeader 0 2 41).encode ++
        encodeBatch 1 2 [0x50#8]) = some after ∧
      ∃ enough, ∀ fuel ≥ enough,
        ingestLoop fuel (Receiver.countFragment {})
            ((blankHeader 0 2 41).encode ++ encodeBatch 1 2 [0x50#8]) =
          some after ∧
          watchedLoop fuel 3120 none (Receiver.countFragment {})
              ((blankHeader 0 2 41).encode ++ encodeBatch 1 2 [0x50#8]) =
            some after :=
  ingestion_terminates ⟨[], rfl⟩ _

end BoostUdp
