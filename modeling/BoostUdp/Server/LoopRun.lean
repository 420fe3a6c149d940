import BoostUdp.Server.Refinement

/-!
# Runs of the loop

More fuel does not change what the loop of `ingest_fragment` returns.  A run
that ends is a tree: each turn has its own case, and the nested call on a
salvaged tail is a run of its own below the turn that makes it.
-/

namespace BoostUdp

open LittleEndian StreamMachine

/-- `try_complete_batch` makes no nested call, or one as the last thing it
does. -/
theorem tryCompleteBatch_cases (receiver : Receiver) :
    (∃ result, ∀ ingest,
        tryCompleteBatch ingest receiver = some result) ∨
      ∃ reset carry, ∀ ingest,
        tryCompleteBatch ingest receiver =
          (ingest reset carry).map fun after => (false, after) := by
  unfold tryCompleteBatch
  dsimp only
  split
  · exact Or.inl ⟨_, fun _ => rfl⟩
  · split
    · exact Or.inl ⟨_, fun _ => rfl⟩
    · split
      · split
        · exact Or.inl ⟨_, fun _ => rfl⟩
        · exact Or.inr ⟨_, _, fun _ => rfl⟩
      · exact Or.inl ⟨_, fun _ => rfl⟩

/-- What one nested call returns the other returns too. -/
def Extends (more ingest : Receiver → List Byte → Option Receiver) : Prop :=
  ∀ {receiver carry after}, ingest receiver carry = some after →
    more receiver carry = some after

theorem tryCompleteBatch_extends
    {more ingest : Receiver → List Byte → Option Receiver}
    (extension : Extends more ingest) {receiver : Receiver}
    {result : Bool × Receiver}
    (completed : tryCompleteBatch ingest receiver = some result) :
    tryCompleteBatch more receiver = some result := by
  rcases tryCompleteBatch_cases receiver with ⟨always, same⟩ |
    ⟨reset, carry, called⟩
  · rw [same] at completed ⊢
    exact completed
  · rw [called] at completed ⊢
    obtain ⟨after, returned, rfl⟩ := Option.map_eq_some_iff.mp completed
    rw [extension returned]
    rfl

/-- One more turn is enough where fewer are. -/
theorem ingestLoop_succ (fuel : Nat) {receiver after : Receiver}
    {unread : List Byte}
    (ended : ingestLoop fuel receiver unread = some after) :
    ingestLoop (fuel + 1) receiver unread = some after := by
  induction fuel generalizing receiver after unread with
  | zero =>
      contradiction
  | succ fuel induction =>
      by_cases empty : unread = []
      · subst empty
        exact ended
      · cases active : receiver.reassembly.active with
        | false =>
            cases turn : huntTurn receiver unread with
            | leave left =>
                rw [ingestLoop_leave active empty turn] at ended ⊢
                exact ended
            | again later rest =>
                rw [ingestLoop_again active empty turn] at ended ⊢
                exact induction ended
        | true =>
            rw [ingestLoop_active active empty] at ended ⊢
            by_cases complete :
                (copyFragment receiver unread).1.reassembly.expected ≤
                  (copyFragment receiver unread).1.reassembly.filled
            · rw [if_pos complete] at ended ⊢
              obtain ⟨completed, returned, continued⟩ :=
                Option.bind_eq_some_iff.mp ended
              rw [tryCompleteBatch_extends induction returned]
              exact induction continued
            · rw [if_neg complete] at ended ⊢
              exact induction ended

theorem ingestLoop_mono {fuel more : Nat} (le : fuel ≤ more)
    {receiver after : Receiver} {unread : List Byte}
    (ended : ingestLoop fuel receiver unread = some after) :
    ingestLoop more receiver unread = some after := by
  induction le with
  | refl => exact ended
  | step _ induction => exact ingestLoop_succ _ induction

/-- The end of a run that ends, in the scanner's terms. -/
theorem Tracks.of_ingestLoop {calls fuel : Nat} {receiver after : Receiver}
    {config : ScanConfig} {unread : List Byte}
    (tracks : Tracks calls receiver config)
    (ended : ingestLoop fuel receiver unread = some after) :
    Tracks calls after (scanner.feed config unread) := by
  have enough := Nat.le_max_left fuel (ingestFuel receiver unread)
  have cost := Nat.lt_of_lt_of_le (loopCost_lt_ingestFuel receiver unread)
    (Nat.le_max_right fuel (ingestFuel receiver unread))
  obtain ⟨reached, ingested, tracked⟩ := ingestLoop_tracks _ tracks cost
  rw [ingestLoop_mono enough ended] at ingested
  cases ingested
  exact tracked

/-- A run of the loop that ends, with what is known at each turn. -/
inductive LoopRun : Nat → Receiver → List Byte → Receiver → Prop where
  | done {fuel : Nat} (receiver : Receiver) :
      LoopRun (fuel + 1) receiver [] receiver
  | leave {fuel : Nat} {receiver after : Receiver} {config : ScanConfig}
      {unread : List Byte} (hunting : Hunting receiver config)
      (nonempty : unread ≠ [])
      (turn : huntTurn receiver unread = .leave after) :
      LoopRun (fuel + 1) receiver unread after
  | again {fuel : Nat} {receiver later after : Receiver} {config : ScanConfig}
      {unread rest : List Byte} (hunting : Hunting receiver config)
      (nonempty : unread ≠ [])
      (turn : huntTurn receiver unread = .again later rest)
      (cost : loopCost later rest < loopCost receiver unread)
      (onward : LoopRun fuel later rest after) :
      LoopRun (fuel + 1) receiver unread after
  | copy {fuel : Nat} {receiver after : Receiver} {config : ScanConfig}
      {unread : List Byte} (collecting : Collecting receiver config)
      (nonempty : unread ≠ [])
      (short : config.pending.length + unread.length <
        receiver.reassembly.expected)
      (onward : LoopRun fuel (copyFragment receiver unread).1 [] after) :
      LoopRun (fuel + 1) receiver unread after
  | accept {fuel calls : Nat} {receiver between after : Receiver}
      {config : ScanConfig} {unread batch rest : List Byte}
      (collecting : Collecting receiver config) (nonempty : unread ≠ [])
      (copied : Copied calls receiver config unread batch rest)
      (valid : ValidBatch batch)
      (completed : ∀ ingest, tryCompleteBatch ingest
        (copyFragment receiver unread).1 = some (true, between))
      (idle : between.reassembly = {})
      (onward : LoopRun fuel between rest after) :
      LoopRun (fuel + 1) receiver unread after
  | reject {fuel calls : Nat} {receiver reset after : Receiver}
      {config : ScanConfig} {unread batch rest : List Byte}
      (collecting : Collecting receiver config) (nonempty : unread ≠ [])
      (copied : Copied calls receiver config unread batch rest)
      (invalid : ¬ValidBatch batch)
      (completed : ∀ ingest, tryCompleteBatch ingest
        (copyFragment receiver unread).1 = some (false, reset))
      (idle : reset.reassembly = {})
      (onward : LoopRun fuel reset rest after) :
      LoopRun (fuel + 1) receiver unread after
  | salvage {fuel calls nestedCalls : Nat}
      {receiver reset between after : Receiver}
      {config nestedConfig : ScanConfig} {unread batch rest : List Byte}
      {total : Word} {offset : Nat}
      (collecting : Collecting receiver config) (nonempty : unread ≠ [])
      (copied : Copied calls receiver config unread batch rest)
      (invalid : ¬ValidBatch batch) (rescued : Rescued total batch offset)
      (completed : ∀ ingest, tryCompleteBatch ingest
        (copyFragment receiver unread).1 =
          (ingest reset (batch.drop offset)).map fun after => (false, after))
      (idle : reset.reassembly = {})
      (session : reset.stats.wireBatchTotal = some total)
      (nested : LoopRun fuel reset.countFragment (batch.drop offset) between)
      (tracks : Tracks nestedCalls between nestedConfig)
      (held : between.reassembly.held.length ≤ (batch.drop offset).length)
      (onward : LoopRun fuel between rest after) :
      LoopRun (fuel + 1) receiver unread after

/-- The turn that completes a batch. -/
theorem Copied.loopRun {fuel calls : Nat} {receiver after : Receiver}
    {config : ScanConfig} {unread batch rest : List Byte}
    (below : ∀ {calls receiver after config unread},
      Tracks calls receiver config →
        ingestLoop fuel receiver unread = some after →
          LoopRun fuel receiver unread after)
    (collecting : Collecting receiver config) (nonempty : unread ≠ [])
    (copied : Copied calls receiver config unread batch rest)
    (ended : ((tryCompleteBatch
        (fun receiver carry =>
          ingestLoop fuel (Receiver.countFragment receiver) carry)
        (copyFragment receiver unread).1).bind fun completed =>
          ingestLoop fuel completed.2 rest) = some after) :
    LoopRun (fuel + 1) receiver unread after := by
  by_cases valid : ValidBatch batch
  · obtain ⟨between, completed, related⟩ :=
      tracks_accept copied.logged copied.filled valid
    rw [completed, Option.bind_some] at ended
    exact .accept collecting nonempty copied valid completed related.idle
      (below related ended)
  · obtain ⟨reset, completed, related⟩ :=
      tracks_reject copied.logged copied.filled valid
    by_cases none : salvaged
        (copyFragment receiver unread).1.stats.wireBatchTotal batch = []
    · simp only [if_pos none] at completed related
      rw [completed, Option.bind_some] at ended
      exact .reject collecting nonempty copied valid completed related.idle
        (below related ended)
    · simp only [if_neg none] at completed related
      rw [copied.filled.session] at none completed
      obtain ⟨offset, rescued⟩ := rescued_of_salvaged none
      rw [salvaged_rescued rescued] at completed
      rw [completed] at ended
      obtain ⟨completion, returned, continued⟩ :=
        Option.bind_eq_some_iff.mp ended
      obtain ⟨between, nested, rfl⟩ := Option.map_eq_some_iff.mp returned
      have tracked := related.of_ingestLoop nested
      have held := scanner.length_pending_feed_le
        (afterJudge config
          (copyFragment receiver unread).1.stats.wireBatchTotal batch)
        (batch.drop offset)
      rw [← tracked.held_eq] at held
      have session : some (PacketHeader.decode batch).batchTotal =
          reset.stats.wireBatchTotal :=
        copied.filled.session.symm.trans related.total_eq
      refine .salvage collecting nonempty copied valid rescued completed
        related.idle session.symm (below related nested) tracked ?_
        (below tracked continued)
      simpa only [afterJudge, List.length_nil, Nat.zero_add] using held

/-- What the loop returns is the end of such a run. -/
theorem Tracks.loopRun (fuel : Nat) {calls : Nat} {receiver after : Receiver}
    {config : ScanConfig} {unread : List Byte}
    (tracks : Tracks calls receiver config)
    (ended : ingestLoop fuel receiver unread = some after) :
    LoopRun fuel receiver unread after := by
  induction fuel generalizing calls receiver after config unread with
  | zero =>
      contradiction
  | succ fuel induction =>
      by_cases nonempty : unread = []
      · subst nonempty
        cases ended
        exact .done receiver
      · rcases tracks.phase with hunting | collecting
        · have idle := hunting.idle
          have turned := huntTurn_tracks hunting tracks.logged unread
          rw [← hunting.loopCost_eq] at turned
          cases turn : huntTurn receiver unread with
          | leave left =>
              rw [ingestLoop_leave idle nonempty turn] at ended
              cases ended
              exact .leave hunting nonempty turn
          | again later rest =>
              rw [ingestLoop_again idle nonempty turn] at ended
              rw [turn] at turned
              obtain ⟨next, related, _, cost⟩ := turned
              exact .again hunting nonempty turn cost (induction related ended)
        · rw [ingestLoop_active collecting.active nonempty] at ended
          by_cases short : config.pending.length + unread.length <
              receiver.reassembly.expected
          · obtain ⟨nothingLeft, unfinished, collectingMore⟩ :=
              copyFragment_partial collecting short
            rw [if_neg (Nat.not_le.mpr unfinished), nothingLeft] at ended
            have related : Tracks calls (copyFragment receiver unread).1
                (config.extend unread) :=
              ⟨⟨tracks.logged.trail, tracks.logged.stats⟩,
                Or.inr collectingMore⟩
            exact .copy collecting nonempty short (induction related ended)
          · have copied := collecting.copied tracks.logged
              (Nat.not_lt.mp short)
            rw [if_pos copied.complete, copied.left] at ended
            exact copied.loopRun induction collecting nonempty ended

end BoostUdp
