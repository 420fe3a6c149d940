import BoostUdp.Server.Refinement

/-!
# Receivers in step

`ingest_fragment` reads its statistics only for the session total, and never
reads what it has reported.  Two receivers with the same reassembly and the
same total therefore do the same work on the same bytes, whatever their
statistics and logs were before.
-/

namespace BoostUdp

open LittleEndian

/-- The ways a receiver changes its statistics. -/
inductive StatUpdate where
  | fragment
  | bad
  | total (total : Option Word)
  | batch (seq : Word)
  deriving DecidableEq, Repr

def ServerStats.update (stats : ServerStats) : StatUpdate → ServerStats
  | .fragment => { stats with fragments := stats.fragments + 1 }
  | .bad => { stats with badBatches := stats.badBatches + 1 }
  | .total total => { stats with wireBatchTotal := total }
  | .batch seq =>
      let stats := trackSequence stats seq
      { stats with batches := stats.batches + 1 }

def StatUpdate.isBatch : StatUpdate → Bool
  | .batch _ => true
  | _ => false

def StatUpdate.seq? : StatUpdate → Option Word
  | .batch seq => some seq
  | _ => none

section Counters

variable (updates : List StatUpdate) (stats : ServerStats)

theorem foldl_update_fragments :
    (updates.foldl ServerStats.update stats).fragments =
      stats.fragments + updates.count .fragment := by
  induction updates generalizing stats with
  | nil => rfl
  | cons update updates induction =>
      rw [List.foldl_cons, induction]
      cases update <;>
        simp [ServerStats.update, trackSequence_fragments_eq, Nat.add_assoc,
          Nat.add_comm 1]

theorem foldl_update_badBatches :
    (updates.foldl ServerStats.update stats).badBatches =
      stats.badBatches + updates.count .bad := by
  induction updates generalizing stats with
  | nil => rfl
  | cons update updates induction =>
      rw [List.foldl_cons, induction]
      cases update <;>
        simp [ServerStats.update, (trackSequence_frame _ _).2.2.1,
          Nat.add_assoc, Nat.add_comm 1]

theorem foldl_update_batches :
    (updates.foldl ServerStats.update stats).batches =
      stats.batches + updates.countP StatUpdate.isBatch := by
  induction updates generalizing stats with
  | nil => rfl
  | cons update updates induction =>
      rw [List.foldl_cons, induction]
      cases update <;>
        simp [ServerStats.update, List.countP_cons, StatUpdate.isBatch,
          (trackSequence_frame _ _).1, Nat.add_assoc, Nat.add_comm 1]

theorem foldl_update_seenSeq :
    (updates.foldl ServerStats.update stats).seenSeq =
      stats.seenSeq ∪ (updates.filterMap StatUpdate.seq?).toFinset := by
  induction updates generalizing stats with
  | nil => simp
  | cons update updates induction =>
      rw [List.foldl_cons, induction]
      cases update <;>
        simp [ServerStats.update, List.filterMap_cons, StatUpdate.seq?,
          trackSequence_seenSeq, Finset.insert_union]

/-- With no batch judged, only the fragment count and the session total
change. -/
theorem foldl_update_quiet (noBad : updates.count .bad = 0)
    (noBatch : updates.countP StatUpdate.isBatch = 0) :
    updates.foldl ServerStats.update stats =
      { stats with
        fragments := stats.fragments + updates.count .fragment
        wireBatchTotal :=
          (updates.foldl ServerStats.update stats).wireBatchTotal } := by
  induction updates generalizing stats with
  | nil => rfl
  | cons update updates induction =>
      cases update with
      | fragment =>
          rw [List.foldl_cons, induction _ (by simpa using noBad)
            (by simpa [StatUpdate.isBatch] using noBatch)]
          simp [ServerStats.update, Nat.add_assoc, Nat.add_comm 1]
      | total total =>
          rw [List.foldl_cons, induction _ (by simpa using noBad)
            (by simpa [StatUpdate.isBatch] using noBatch)]
          simp [ServerStats.update]
      | bad =>
          simp at noBad
      | batch seq =>
          simp [StatUpdate.isBatch] at noBatch

end Counters

/-- What two receivers have done since they started from `start` and
`shadow`. -/
structure SameWork (start shadow after after' : Receiver)
    (events : List Event) (updates : List StatUpdate) : Prop where
  log : after.log = start.log ++ events
  log' : after'.log = shadow.log ++ events
  stats : after.stats = updates.foldl ServerStats.update start.stats
  stats' : after'.stats = updates.foldl ServerStats.update shadow.stats

/-- They agree on what `ingest_fragment` reads, and did the same work. -/
structure InStep (start shadow after after' : Receiver) : Prop where
  reassembly : after.reassembly = after'.reassembly
  total : after.stats.wireBatchTotal = after'.stats.wireBatchTotal
  work : ∃ events updates,
    SameWork start shadow after after' events updates

section Operations

variable {start shadow after after' : Receiver}

theorem InStep.refl (reassembly : start.reassembly = shadow.reassembly)
    (total : start.stats.wireBatchTotal = shadow.stats.wireBatchTotal) :
    InStep start shadow start shadow :=
  ⟨reassembly, total, [], [], by simp, by simp, rfl, rfl⟩

/-- The same report, with the same reassembly behind it. -/
theorem InStep.report (inStep : InStep start shadow after after')
    (event : Event) :
    InStep start shadow (after.report event) (after'.report event) := by
  obtain ⟨events, updates, work⟩ := inStep.work
  refine ⟨inStep.reassembly, inStep.total, events ++ [event], updates, ?_, ?_,
    work.stats, work.stats'⟩
  · simp only [Receiver.report, work.log, List.append_assoc]
  · simp only [Receiver.report, work.log', List.append_assoc]

theorem InStep.withReassembly (inStep : InStep start shadow after after')
    {reassembly reassembly' : BatchReassembly}
    (same : reassembly = reassembly') :
    InStep start shadow { after with reassembly := reassembly }
      { after' with reassembly := reassembly' } := by
  obtain ⟨events, updates, work⟩ := inStep.work
  exact ⟨same, inStep.total, events, updates, work.log, work.log', work.stats,
    work.stats'⟩

theorem update_wireBatchTotal {stats stats' : ServerStats}
    (same : stats.wireBatchTotal = stats'.wireBatchTotal)
    (update : StatUpdate) :
    (stats.update update).wireBatchTotal =
      (stats'.update update).wireBatchTotal := by
  cases update with
  | fragment => exact same
  | bad => exact same
  | total total => rfl
  | batch seq =>
      simp only [ServerStats.update, trackSequence_wireBatchTotal]
      exact same

theorem InStep.update (inStep : InStep start shadow after after')
    (update : StatUpdate) :
    InStep start shadow { after with stats := after.stats.update update }
      { after' with stats := after'.stats.update update } := by
  obtain ⟨events, updates, work⟩ := inStep.work
  refine ⟨inStep.reassembly, update_wireBatchTotal inStep.total update,
    events, updates ++ [update], work.log, work.log', ?_, ?_⟩
  · simp only [List.foldl_append, List.foldl_cons, List.foldl_nil, work.stats]
  · simp only [List.foldl_append, List.foldl_cons, List.foldl_nil,
      work.stats']

theorem InStep.resetReassembly (inStep : InStep start shadow after after') :
    InStep start shadow after.resetReassembly after'.resetReassembly :=
  inStep.withReassembly rfl

theorem InStep.countFragment (inStep : InStep start shadow after after') :
    InStep start shadow after.countFragment after'.countFragment :=
  inStep.update .fragment

theorem InStep.countBad (inStep : InStep start shadow after after') :
    InStep start shadow after.countBad after'.countBad :=
  inStep.update .bad

theorem InStep.setWireBatchTotal (inStep : InStep start shadow after after')
    (total : Option Word) :
    InStep start shadow (after.setWireBatchTotal total)
      (after'.setWireBatchTotal total) :=
  inStep.update (.total total)

theorem InStep.setBuffer (inStep : InStep start shadow after after')
    (buffer : List Byte) :
    InStep start shadow (after.setBuffer buffer) (after'.setBuffer buffer) := by
  apply inStep.withReassembly
  rw [inStep.reassembly]

/-- When the shadow has judged nothing, neither has the original. -/
theorem InStep.quiet (inStep : InStep start shadow after after')
    (noBad : after'.stats.badBatches = shadow.stats.badBatches)
    (noBatch : after'.stats.batches = shadow.stats.batches) {calls : Nat}
    (fragments : after'.stats.fragments = shadow.stats.fragments + calls) :
    after.stats =
      { start.stats with
        fragments := start.stats.fragments + calls
        wireBatchTotal := after'.stats.wireBatchTotal } := by
  obtain ⟨events, updates, work⟩ := inStep.work
  rw [work.stats', foldl_update_badBatches] at noBad
  rw [work.stats', foldl_update_batches] at noBatch
  rw [work.stats', foldl_update_fragments] at fragments
  have quiet := foldl_update_quiet updates start.stats
    (Nat.left_eq_add.mp noBad.symm) (Nat.left_eq_add.mp noBatch.symm)
  rw [← work.stats, inStep.total, Nat.add_left_cancel fragments] at quiet
  exact quiet

/-- What the shadow has seen since, the original has seen. -/
theorem InStep.seen (inStep : InStep start shadow after after') {seq : Word}
    (seen : seq ∈ after'.stats.seenSeq) (before : seq ∉ shadow.stats.seenSeq) :
    seq ∈ after.stats.seenSeq := by
  obtain ⟨events, updates, work⟩ := inStep.work
  rw [work.stats', foldl_update_seenSeq, Finset.mem_union] at seen
  rw [work.stats, foldl_update_seenSeq, Finset.mem_union]
  exact Or.inr (seen.resolve_left before)

/-- The same turn in both. -/
inductive TurnInStep (start shadow : Receiver) : Turn → Turn → Prop where
  | leave {after after' : Receiver}
      (inStep : InStep start shadow after after') :
      TurnInStep start shadow (.leave after) (.leave after')
  | again {after after' : Receiver} (unread : List Byte)
      (inStep : InStep start shadow after after') :
      TurnInStep start shadow (.again after unread) (.again after' unread)

theorem headerTurn_inStep (inStep : InStep start shadow after after')
    (unread : List Byte) :
    TurnInStep start shadow (headerTurn after unread)
      (headerTurn after' unread) := by
  unfold headerTurn
  simp only [← inStep.reassembly, ← inStep.total]
  split
  · split
    · exact .again unread ((inStep.report _).setBuffer _)
    · exact .again unread (inStep.setBuffer _)
  · split
    · exact .again unread ((inStep.setWireBatchTotal _).setBuffer _)
    · split
      · exact .again unread
          (((inStep.setWireBatchTotal _).countBad).report _).resetReassembly
      · apply TurnInStep.again unread
        apply InStep.report
        apply (inStep.setWireBatchTotal _).withReassembly
        simp only [Receiver.setWireBatchTotal, inStep.reassembly]

theorem fillTurn_inStep (inStep : InStep start shadow after after')
    (unread : List Byte) :
    TurnInStep start shadow (fillTurn after unread)
      (fillTurn after' unread) := by
  unfold fillTurn
  simp only [← inStep.reassembly]
  split
  · exact .leave (inStep.setBuffer _)
  · exact headerTurn_inStep (inStep.setBuffer _) _

theorem huntTurn_inStep (inStep : InStep start shadow after after')
    (unread : List Byte) :
    TurnInStep start shadow (huntTurn after unread)
      (huntTurn after' unread) := by
  unfold huntTurn
  simp only [← inStep.reassembly]
  split
  · split
    · exact .leave (inStep.setBuffer _)
    · split
      · exact fillTurn_inStep (inStep.report _) _
      · exact fillTurn_inStep inStep _
  · exact fillTurn_inStep inStep _

theorem copyFragment_inStep (inStep : InStep start shadow after after')
    (unread : List Byte) :
    InStep start shadow (copyFragment after unread).1
        (copyFragment after' unread).1 ∧
      (copyFragment after unread).2 = (copyFragment after' unread).2 := by
  unfold copyFragment
  simp only [← inStep.reassembly, and_true]
  exact inStep.withReassembly rfl

/-- The nested call does the same in both. -/
def NestedInStep (start shadow : Receiver)
    (ingest : Receiver → List Byte → Option Receiver) : Prop :=
  ∀ {after after' : Receiver} (carry : List Byte),
    InStep start shadow after after' →
    Option.Rel (InStep start shadow) (ingest after carry) (ingest after' carry)

def CompletedInStep (start shadow : Receiver) (left right : Bool × Receiver) :
    Prop :=
  left.1 = right.1 ∧ InStep start shadow left.2 right.2

theorem Receiver.setWireBatchTotal_total (receiver : Receiver)
    (total : Option Word) :
    (receiver.setWireBatchTotal total).stats.wireBatchTotal = total := rfl

theorem NestedInStep.salvage {ingest : Receiver → List Byte → Option Receiver}
    (nested : NestedInStep start shadow ingest)
    (inStep : InStep start shadow after after') (carry : List Byte) :
    Option.Rel (CompletedInStep start shadow)
      (if carry.isEmpty then some (false, after)
        else (ingest after carry).map fun receiver => (false, receiver))
      (if carry.isEmpty then some (false, after')
        else (ingest after' carry).map fun receiver => (false, receiver)) := by
  split
  · exact .some ⟨rfl, inStep⟩
  · have ingested := nested carry inStep
    generalize ingest after carry = left at ingested ⊢
    generalize ingest after' carry = right at ingested ⊢
    cases ingested with
    | none => exact .none
    | some later => exact .some ⟨rfl, later⟩

theorem tryCompleteBatch_inStep (inStep : InStep start shadow after after')
    {ingest : Receiver → List Byte → Option Receiver}
    (nested : NestedInStep start shadow ingest) :
    Option.Rel (CompletedInStep start shadow)
      (tryCompleteBatch ingest after) (tryCompleteBatch ingest after') := by
  unfold tryCompleteBatch
  simp only [← inStep.reassembly, ← inStep.total,
    Receiver.setWireBatchTotal_total]
  split
  · exact .some ⟨rfl, inStep.countBad.resetReassembly⟩
  · split
    · exact .some ⟨rfl,
        (((inStep.setWireBatchTotal _).countBad).report _).resetReassembly⟩
    · split
      · apply nested.salvage
        exact ((((inStep.setWireBatchTotal _).countBad).setWireBatchTotal
          _).report _).resetReassembly
      · apply Option.Rel.some
        refine ⟨rfl, InStep.resetReassembly (InStep.report ?_ _)⟩
        exact (inStep.setWireBatchTotal _).update (.batch _)

/-- However many turns they are given, both end or neither does. -/
theorem ingestLoop_inStep (fuel : Nat) {after after' : Receiver}
    (inStep : InStep start shadow after after') (unread : List Byte) :
    Option.Rel (InStep start shadow) (ingestLoop fuel after unread)
      (ingestLoop fuel after' unread) := by
  induction fuel generalizing after after' unread with
  | zero => exact .none
  | succ fuel induction =>
      rw [ingestLoop, ingestLoop, ← inStep.reassembly]
      split
      · exact .some inStep
      · split
        · have turned := huntTurn_inStep inStep unread
          generalize huntTurn after unread = left at turned ⊢
          generalize huntTurn after' unread = right at turned ⊢
          cases turned with
          | leave later => exact .some later
          | again rest later => exact induction later rest
        · obtain ⟨copied, left⟩ := copyFragment_inStep inStep unread
          generalize copyFragment after unread = slice at copied left ⊢
          generalize copyFragment after' unread = slice' at copied left ⊢
          simp only [← copied.reassembly, ← left]
          split
          · have nested : NestedInStep start shadow fun receiver carry =>
                ingestLoop fuel (Receiver.countFragment receiver) carry :=
              fun carry later => induction later.countFragment carry
            have completed := tryCompleteBatch_inStep copied nested
            generalize tryCompleteBatch _ slice.1 = left at completed ⊢
            generalize tryCompleteBatch _ slice'.1 = right at completed ⊢
            cases completed with
            | none => exact .none
            | some later => exact induction later.2 _
          · exact induction copied _

theorem InStep.ingestFuel_eq (inStep : InStep start shadow after after')
    (data : List Byte) : ingestFuel after data = ingestFuel after' data := by
  rw [ingestFuel, ingestFuel, inStep.reassembly]

theorem ingestFragment_inStep (inStep : InStep start shadow after after')
    (data : List Byte) :
    Option.Rel (InStep start shadow) (ingestFragment after data)
      (ingestFragment after' data) := by
  rw [ingestFragment, ingestFragment, inStep.ingestFuel_eq]
  exact ingestLoop_inStep _ inStep.countFragment data

theorem ingestAll_inStep (inStep : InStep start shadow after after')
    (datagrams : List (List Byte)) :
    Option.Rel (InStep start shadow) (ingestAll after datagrams)
      (ingestAll after' datagrams) := by
  induction datagrams generalizing after after' with
  | nil => exact .some inStep
  | cons datagram datagrams induction =>
      have ingested := ingestFragment_inStep inStep datagram
      simp only [ingestAll, List.foldlM_cons]
      generalize ingestFragment after datagram = left at ingested ⊢
      generalize ingestFragment after' datagram = right at ingested ⊢
      cases ingested with
      | none => exact .none
      | some later => exact induction later

/-- Where the shadow arrives its original arrives too, in step. -/
theorem InStep.of_shadow {left right : Option Receiver} {reached : Receiver}
    (related : Option.Rel (InStep start shadow) left right)
    (arrived : right = some reached) :
    ∃ after, left = some after ∧ InStep start shadow after reached := by
  subst arrived
  cases related with
  | some inStep => exact ⟨_, rfl, inStep⟩

end Operations

/-- A reset receiver with this session total whose past is as short as can
be. -/
def shadow : Option Word → Receiver
  | none => {}
  | some total =>
      { stats := { wireBatchTotal := some total }
        log :=
          [.reassemble
            { magic := kPacketMagic
              seq := 0
              batchTotal := total
              length := 0
              crc32 := 0 }] }

def shadowConfig (total : Option Word) : ScanConfig :=
  { state := { total := total }
    position := 0
    pending := []
    trail := (shadow total).verdicts.map fun verdict => (0, verdict) }

theorem shadow_wireBatchTotal (total : Option Word) :
    (shadow total).stats.wireBatchTotal = total := by
  cases total <;> rfl

theorem shadow_seenSeq (total : Option Word) :
    (shadow total).stats.seenSeq = ∅ := by
  cases total <;> rfl

theorem shadow_tracks (total : Option Word) :
    Tracks 0 (shadow total) (shadowConfig total) := by
  cases total with
  | none => exact tracks_fresh
  | some total =>
      exact
        { logged := ⟨rfl, rfl⟩
          phase := Or.inl ⟨rfl, rfl, kPacketHeaderSize_pos⟩ }

theorem shadow_inStep {start : Receiver} (reset : start.reassembly = {}) :
    InStep start (shadow start.stats.wireBatchTotal) start
      (shadow start.stats.wireBatchTotal) := by
  apply InStep.refl
  · rw [reset]
    cases start.stats.wireBatchTotal <;> rfl
  · cases start.stats.wireBatchTotal <;> rfl

end BoostUdp
