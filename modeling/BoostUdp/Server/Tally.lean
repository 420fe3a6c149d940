import BoostUdp.Scanner

/-!
# Statistics as a function of the verdicts

The session statistics are a fold over what the scanner found: each verdict
has its own effect on the counters, and the number of received datagrams only
shows in the fragment count.
-/

namespace BoostUdp

open LittleEndian

def Event.verdict : Event → Option Verdict
  | .resyncSkip _ => none
  | .reassemble header => some (.started header)
  | .ok batch _ _ => some (.accepted batch)
  | .bad _ batch carry => some (.rejected batch carry)
  | .badLength _ => none

def Receiver.verdicts (receiver : Receiver) : List Verdict :=
  receiver.log.filterMap Event.verdict

/-- The effect of one verdict on the statistics of a session. -/
def ServerStats.observe (stats : ServerStats) : Verdict → ServerStats
  | .started header => { stats with wireBatchTotal := some header.batchTotal }
  | .accepted batch =>
      let stats := trackSequence stats (PacketHeader.decode batch).seq
      { stats with batches := stats.batches + 1 }
  | .rejected _ carry =>
      { stats with
        badBatches := stats.badBatches + 1
        fragments := stats.fragments + if carry = 0 then 0 else 1 }

/-- The statistics of a session that received `calls` datagrams. -/
def tally (calls : Nat) (verdicts : List Verdict) : ServerStats :=
  verdicts.foldl ServerStats.observe { fragments := calls }

@[simp] theorem tally_append (calls : Nat) (verdicts : List Verdict)
    (verdict : Verdict) :
    tally calls (verdicts ++ [verdict]) =
      (tally calls verdicts).observe verdict := by
  simp [tally]

/-- Everything `track_sequence` can do. -/
theorem trackSequence_cases (stats : ServerStats) (seq : Word) :
    (seq ∈ stats.seenSeq ∧
        trackSequence stats seq =
          { stats with duplicates := stats.duplicates + 1 }) ∨
      (seq ∉ stats.seenSeq ∧ stats.haveSeq = false ∧
        trackSequence stats seq =
          { stats with
            seenSeq := insert seq stats.seenSeq
            haveSeq := true
            highestSeq := seq }) ∨
      (seq ∉ stats.seenSeq ∧ stats.haveSeq = true ∧
        trackSequence stats seq =
          { stats with
            outOfOrder :=
              stats.outOfOrder + if seq < stats.highestSeq then 1 else 0
            seenSeq := insert seq stats.seenSeq
            highestSeq :=
              if stats.highestSeq < seq then seq else stats.highestSeq }) := by
  by_cases duplicate : seq ∈ stats.seenSeq
  · exact Or.inl ⟨duplicate, by simp [trackSequence, duplicate]⟩
  · cases started : stats.haveSeq with
    | false =>
        exact Or.inr (Or.inl
          ⟨duplicate, rfl, by simp [trackSequence, duplicate, started]⟩)
    | true =>
        refine Or.inr (Or.inr ⟨duplicate, rfl, ?_⟩)
        by_cases earlier : seq < stats.highestSeq <;>
          simp [trackSequence, duplicate, started, earlier]

theorem trackSequence_fragments (stats : ServerStats) (seq : Word)
    (count : Nat) :
    trackSequence { stats with fragments := count } seq =
      { trackSequence stats seq with fragments := count } := by
  by_cases duplicate : seq ∈ stats.seenSeq
  · simp [trackSequence, duplicate]
  · by_cases started : stats.haveSeq = true
    · by_cases earlier : seq < stats.highestSeq <;>
        simp [trackSequence, duplicate, started, earlier]
    · simp [trackSequence, duplicate, started]

/-- The counters that `track_sequence` leaves alone. -/
theorem trackSequence_frame (stats : ServerStats) (seq : Word) :
    (trackSequence stats seq).batches = stats.batches ∧
      (trackSequence stats seq).fragments = stats.fragments ∧
      (trackSequence stats seq).badBatches = stats.badBatches ∧
      (trackSequence stats seq).lost = stats.lost ∧
      (trackSequence stats seq).wireBatchTotal = stats.wireBatchTotal := by
  rcases trackSequence_cases stats seq with ⟨_, tracked⟩ |
    ⟨_, _, tracked⟩ | ⟨_, _, tracked⟩ <;> simp [tracked]

theorem trackSequence_fragments_eq (stats : ServerStats) (seq : Word) :
    (trackSequence stats seq).fragments = stats.fragments :=
  (trackSequence_frame stats seq).2.1

theorem trackSequence_wireBatchTotal (stats : ServerStats) (seq : Word) :
    (trackSequence stats seq).wireBatchTotal = stats.wireBatchTotal :=
  (trackSequence_frame stats seq).2.2.2.2

theorem trackSequence_seenSeq (stats : ServerStats) (seq : Word) :
    (trackSequence stats seq).seenSeq = insert seq stats.seenSeq := by
  rcases trackSequence_cases stats seq with ⟨duplicate, tracked⟩ |
    ⟨_, _, tracked⟩ | ⟨_, _, tracked⟩
  · simp [tracked, Finset.insert_eq_of_mem duplicate]
  · simp [tracked]
  · simp [tracked]

theorem observe_fragments (stats : ServerStats) (verdict : Verdict) :
    ServerStats.observe
        { stats with fragments := stats.fragments + 1 } verdict =
      { stats.observe verdict with
        fragments := (stats.observe verdict).fragments + 1 } := by
  cases verdict with
  | started header => rfl
  | accepted batch =>
      simp only [ServerStats.observe, trackSequence_fragments,
        trackSequence_fragments_eq]
  | rejected batch carry =>
      simp only [ServerStats.observe, Nat.add_right_comm]

/-- One more datagram is one more fragment and nothing else. -/
theorem tally_succ (calls : Nat) (verdicts : List Verdict) :
    tally (calls + 1) verdicts =
      { tally calls verdicts with
        fragments := (tally calls verdicts).fragments + 1 } := by
  induction verdicts using List.reverseRecOn with
  | nil => rfl
  | append_singleton verdicts verdict induction =>
      rw [tally_append, tally_append, induction, observe_fragments]

/-- The number of datagrams only shows in the fragment count. -/
theorem tally_fragments (calls : Nat) (verdicts : List Verdict) :
    tally calls verdicts =
      { tally 0 verdicts with
        fragments := (tally 0 verdicts).fragments + calls } := by
  induction calls with
  | zero => rfl
  | succ calls induction =>
      rw [tally_succ, induction]
      simp [Nat.add_assoc]

def Verdict.accepted? : Verdict → Option (List Byte)
  | .accepted batch => some batch
  | _ => none

def Verdict.isRejected : Verdict → Bool
  | .rejected _ _ => true
  | _ => false

/-- The rejected batches with a tail that is ingested again. -/
def Verdict.isSalvaged : Verdict → Bool
  | .rejected _ carry => carry ≠ 0
  | _ => false

def Verdict.isStarted : Verdict → Bool
  | .started _ => true
  | _ => false

/-- The accepted batches, in the order of acceptance. -/
def acceptedBatches (verdicts : List Verdict) : List (List Byte) :=
  verdicts.filterMap Verdict.accepted?

@[simp] theorem acceptedBatches_append (first second : List Verdict) :
    acceptedBatches (first ++ second) =
      acceptedBatches first ++ acceptedBatches second :=
  List.filterMap_append

@[simp] theorem acceptedBatches_nil : acceptedBatches [] = [] := rfl

@[simp] theorem acceptedBatches_started (header : PacketHeader)
    (verdicts : List Verdict) :
    acceptedBatches (.started header :: verdicts) =
      acceptedBatches verdicts := rfl

@[simp] theorem acceptedBatches_accepted (batch : List Byte)
    (verdicts : List Verdict) :
    acceptedBatches (.accepted batch :: verdicts) =
      batch :: acceptedBatches verdicts := rfl

@[simp] theorem acceptedBatches_rejected (batch : List Byte) (carry : Nat)
    (verdicts : List Verdict) :
    acceptedBatches (.rejected batch carry :: verdicts) =
      acceptedBatches verdicts := rfl

def batchSeq (batch : List Byte) : Word := (PacketHeader.decode batch).seq

/-- The batches that incremented `stats.batches`, as the log has them. -/
def Receiver.acceptedBatches (receiver : Receiver) : List (List Byte) :=
  receiver.log.filterMap fun
    | .ok batch _ _ => some batch
    | _ => none

theorem Receiver.acceptedBatches_eq (receiver : Receiver) :
    receiver.acceptedBatches =
      BoostUdp.acceptedBatches receiver.verdicts := by
  rw [Receiver.acceptedBatches, BoostUdp.acceptedBatches, Receiver.verdicts,
    List.filterMap_filterMap]
  congr 1
  funext event
  cases event <;> rfl

theorem tally_batches (calls : Nat) (verdicts : List Verdict) :
    (tally calls verdicts).batches = (acceptedBatches verdicts).length := by
  induction verdicts using List.reverseRecOn with
  | nil => rfl
  | append_singleton verdicts verdict induction =>
      rw [tally_append]
      cases verdict <;>
        simp [ServerStats.observe, (trackSequence_frame _ _).1, induction]

theorem tally_badBatches (calls : Nat) (verdicts : List Verdict) :
    (tally calls verdicts).badBatches =
      verdicts.countP Verdict.isRejected := by
  induction verdicts using List.reverseRecOn with
  | nil => rfl
  | append_singleton verdicts verdict induction =>
      rw [tally_append]
      cases verdict <;>
        simp [ServerStats.observe, Verdict.isRejected,
          (trackSequence_frame _ _).2.2.1, induction]

/-- A fragment is a received datagram or a salvaged tail. -/
theorem tally_fragments_eq (calls : Nat) (verdicts : List Verdict) :
    (tally calls verdicts).fragments =
      calls + verdicts.countP Verdict.isSalvaged := by
  induction verdicts using List.reverseRecOn with
  | nil => rfl
  | append_singleton verdicts verdict induction =>
      rw [tally_append]
      cases verdict with
      | started header =>
          simp [ServerStats.observe, Verdict.isSalvaged, induction]
      | accepted batch =>
          simp [ServerStats.observe, Verdict.isSalvaged,
            (trackSequence_frame _ _).2.1, induction]
      | rejected batch carry =>
          by_cases none : carry = 0 <;>
            simp [ServerStats.observe, Verdict.isSalvaged, none, induction,
              Nat.add_assoc]

theorem tally_lost (calls : Nat) (verdicts : List Verdict) :
    (tally calls verdicts).lost = 0 := by
  induction verdicts using List.reverseRecOn with
  | nil => rfl
  | append_singleton verdicts verdict induction =>
      rw [tally_append]
      cases verdict <;>
        simp [ServerStats.observe, (trackSequence_frame _ _).2.2.2.1, induction]

theorem tally_seenSeq (calls : Nat) (verdicts : List Verdict) :
    (tally calls verdicts).seenSeq =
      ((acceptedBatches verdicts).map batchSeq).toFinset := by
  induction verdicts using List.reverseRecOn with
  | nil => rfl
  | append_singleton verdicts verdict induction =>
      rw [tally_append]
      cases verdict with
      | accepted batch =>
          simp only [ServerStats.observe, trackSequence_seenSeq, induction]
          ext seq
          simp [batchSeq]
      | started header =>
          simp [ServerStats.observe, induction]
      | rejected batch carry =>
          simp [ServerStats.observe, induction]

end BoostUdp
