import BoostUdp.HeaderOnly
import BoostUdp.LostCount
import BoostUdp.Provenance

/-!
# A sender's run, received in full

The batches of one sender in their order, all that it was asked for or the
first of them, cut into buffers in any way.  A session prints how many there
were and how many are missing if they are longer than a header, and no buffer
before the last completes the last batch.
-/

namespace BoostUdp

open LittleEndian StreamMachine

/-- The first batches of a sender that was asked for `count` of them, in
order. -/
structure PartRun (count size sent : Nat) (batches : List (List Byte)) :
    Prop where
  sequence : batches.map (fun batch => (batchSeq batch).toNat) =
    List.range sent
  member : ∀ batch ∈ batches,
    BatchOf (BitVec.ofNat 32 count) batch ∧ batch.length = size

/-- As many batches as one sender was asked for, in order. -/
abbrev WholeRun (count size : Nat) (batches : List (List Byte)) : Prop :=
  PartRun count size count batches

/-- A summary of batches that came in the order of their numbers, each of them
once at most. -/
structure Reports (batches badBatches lost fragments : Nat)
    (stats : ServerStats) : Prop where
  batches : stats.batches = batches
  fragments : stats.fragments = fragments
  badBatches : stats.badBatches = badBatches
  lost : stats.lost = lost
  duplicates : stats.duplicates = 0
  outOfOrder : stats.outOfOrder = 0

/-- A summary without a bad batch. -/
abbrev Undamaged (batches lost fragments : Nat) (stats : ServerStats) :
    Prop :=
  Reports batches 0 lost fragments stats

/-- A summary that reports every batch. -/
abbrev Flawless (count fragments : Nat) (stats : ServerStats) : Prop :=
  Undamaged count 0 fragments stats

/-- Every sequence number is larger than those in front of it. -/
def Increasing (batches : List (List Byte)) : Prop :=
  (batches.map batchSeq).Pairwise (· < ·)

theorem Increasing.seqs_nodup {batches : List (List Byte)}
    (increasing : Increasing batches) : (batches.map batchSeq).Nodup := by
  apply increasing.imp
  rintro earlier _ below rfl
  exact BitVec.lt_irrefl earlier below

theorem tally_outOfOrder {verdicts : List Verdict}
    (increasing : Increasing (acceptedBatches verdicts)) (calls : Nat) :
    (tally calls verdicts).outOfOrder = 0 := by
  induction verdicts using List.reverseRecOn with
  | nil => rfl
  | append_singleton verdicts verdict induction =>
      rw [Increasing, acceptedBatches_append, List.map_append,
        List.pairwise_append] at increasing
      obtain ⟨before, _, behind⟩ := increasing
      have ordered := induction before
      rw [tally_append]
      cases verdict with
      | started header => exact ordered
      | rejected batch carry => exact ordered
      | accepted batch =>
          have tracked := trackSequence_cases (tally calls verdicts)
            (PacketHeader.decode batch).seq
          simp only [ServerStats.observe]
          rcases tracked with ⟨_, tracked⟩ | ⟨_, _, tracked⟩ |
            ⟨_, started, tracked⟩
          · rw [tracked]
            exact ordered
          · rw [tracked]
            exact ordered
          · -- the highest number so far belongs to a batch in front
            have highest :=
              ((tally_consistent calls verdicts).highest started).1
            rw [tally_seenSeq, List.mem_toFinset] at highest
            have below := behind _ highest _ (List.mem_singleton_self _)
            have later : ¬(PacketHeader.decode batch).seq <
                (tally calls verdicts).highestSeq :=
              BitVec.not_lt.mpr (BitVec.le_of_lt below)
            rw [tracked]
            simp only [if_neg later, ordered]

theorem tally_increasing {verdicts : List Verdict}
    (increasing : Increasing (acceptedBatches verdicts)) (calls : Nat) :
    Reports (acceptedBatches verdicts).length
        (verdicts.countP Verdict.isRejected) 0
        (calls + verdicts.countP Verdict.isSalvaged)
        (tally calls verdicts) ∧
      (tally calls verdicts).seenSeq.card =
        (acceptedBatches verdicts).length := by
  have card : (tally calls verdicts).seenSeq.card =
      (acceptedBatches verdicts).length := by
    rw [tally_seenSeq, List.toFinset_card_of_nodup increasing.seqs_nodup,
      List.length_map]
  refine
    ⟨{ batches := tally_batches _ _
       fragments := tally_fragments_eq _ _
       badBatches := tally_badBatches _ _
       lost := tally_lost _ _
       duplicates := ?_
       outOfOrder := tally_outOfOrder increasing _ }, card⟩
  have account := (tally_consistent calls verdicts).batches
  rw [card, tally_batches] at account
  omega

/-- The end of a session that accepted its batches in the order of their
numbers. -/
theorem summary_increasing {calls : Nat} {stream : List Byte}
    {receiver : Receiver} (tracks : Tracks calls receiver (scan stream))
    {verdicts : List Verdict}
    (found : (scan stream).trail.map Prod.snd = verdicts)
    (increasing : Increasing (acceptedBatches verdicts)) {total : Word}
    (known : (scan stream).state.total = some total) {stats : ServerStats}
    (summarised : sessionSummary none receiver = some stats) :
    Reports (acceptedBatches verdicts).length
      (verdicts.countP Verdict.isRejected +
        if (scan stream).state.collecting.isSome then 1 else 0)
      (total.toNat - (acceptedBatches verdicts).length)
      (calls + verdicts.countP Verdict.isSalvaged) stats := by
  have wire := tracks.total_eq
  rw [known] at wire
  obtain ⟨printed, _⟩ := sessionSummary_total tracks wire.symm
  cases summarised.symm.trans printed
  have logged := tracks.logged.stats
  rw [← tracks.logged.trail, found] at logged
  obtain ⟨reports, card⟩ := tally_increasing increasing calls
  rw [← logged] at reports card
  exact
    { reports with
      badBatches := by
        rw [reports.badBatches, tracks.active_eq]
      lost := by
        rw [card] }

section Run

variable {count size sent : Nat} {batches : List (List Byte)}

theorem PartRun.length_eq (run : PartRun count size sent batches) :
    batches.length = sent := by
  have counted := congrArg List.length run.sequence
  rwa [List.length_map, List.length_range] at counted

/-- The batches up to some point of a whole run. -/
theorem WholeRun.front {front back : List (List Byte)}
    (run : WholeRun count size (front ++ back)) :
    PartRun count size front.length front ∧
      front.length + back.length = count := by
  have counted := run.length_eq
  rw [List.length_append] at counted
  have sequence := congrArg (List.take front.length) run.sequence
  have within : min front.length count = front.length := by omega
  rw [List.map_append, List.take_left' (List.length_map _), List.take_range,
    within] at sequence
  exact
    ⟨{ sequence := sequence
       member := fun batch member =>
         run.member batch (List.mem_append_left _ member) }, counted⟩

theorem PartRun.increasing (run : PartRun count size sent batches) :
    Increasing batches := by
  have ordered : (batches.map fun batch =>
      (batchSeq batch).toNat).Pairwise (· < ·) := by
    rw [run.sequence]
    exact List.pairwise_lt_range
  rw [List.pairwise_map] at ordered
  rw [Increasing, List.pairwise_map]
  exact ordered

theorem PartRun.mem_seqs_iff (run : PartRun count size sent batches)
    {index : Nat} (fits : index < 2 ^ 32) :
    BitVec.ofNat 32 index ∈ batches.map batchSeq ↔ index < sent := by
  rw [← List.mem_range, ← run.sequence, List.mem_map, List.mem_map]
  constructor
  · rintro ⟨batch, member, seq⟩
    exact ⟨batch, member, by rw [seq, toNat_ofNat_word fits]⟩
  · rintro ⟨batch, member, seq⟩
    exact ⟨batch, member, by
      rw [← seq, BitVec.ofNat_toNat, BitVec.setWidth_eq]⟩

/-- The receiver behind the run. -/
structure Served (count sent fragments : Nat) (receiver : Receiver) :
    Prop where
  idle : receiver.reassembly.active = false
  undamaged : Undamaged sent 0 fragments receiver.stats
  seen : ∀ index < 2 ^ 32,
    (BitVec.ofNat 32 index ∈ receiver.stats.seenSeq ↔ index < sent)
  wire : 0 < sent →
    receiver.stats.wireBatchTotal = some (BitVec.ofNat 32 count)

theorem PartRun.served (run : PartRun count size sent batches)
    (longer : kPacketHeaderSize < size) {buffers : List (List Byte)}
    (same : buffers.flatten = batches.flatten) {receiver : Receiver}
    (ingested : ingestAll {} buffers = some receiver) :
    Served count sent buffers.length receiver := by
  have tracks := tracks_of_ingestAll ingested
  obtain ⟨trail, verdicts, scanned⟩ := scan_batches
    (fun batch member => (run.member batch member).1)
    (fun batch member => (run.member batch member).2 ▸ longer)
  rw [same, scanned] at tracks
  have logged : receiver.verdicts = deliveredVerdicts batches := by
    rw [← tracks.logged.trail]
    exact verdicts
  have accepted := acceptedBatches_delivered batches
  have stats := tracks.logged.stats
  rw [logged] at stats
  have reports := (tally_increasing (by
    rw [accepted]
    exact run.increasing) buffers.length).1
  rw [accepted, run.length_eq,
    countP_delivered (fun _ => rfl) (fun _ => rfl),
    countP_delivered (fun _ => rfl) (fun _ => rfl), Nat.add_zero] at reports
  refine
    { idle := by
        rw [tracks.active_eq]
        rfl
      undamaged := by
        rw [stats]
        exact reports
      seen := by
        intro index fits
        rw [stats, tally_seenSeq, accepted, List.mem_toFinset,
          run.mem_seqs_iff fits]
      wire := by
        intro positive
        have nonempty : ¬batches.isEmpty = true := by
          rw [List.isEmpty_iff_length_eq_zero, run.length_eq]
          omega
        rw [← tracks.total_eq]
        exact if_neg nonempty }

/-- The batches that are not seen are those behind the last one sent. -/
theorem Served.card_unseenBelow {fragments : Nat} {receiver : Receiver}
    (served : Served count sent fragments receiver)
    (bounded : count < 2 ^ 32) :
    (unseenBelow receiver.stats.seenSeq count).card = count - sent := by
  have unseen : unseenBelow receiver.stats.seenSeq count =
      Finset.range count \ Finset.range sent := by
    ext index
    rw [unseenBelow, Finset.mem_sdiff, Finset.mem_sdiff]
    apply and_congr_right
    intro member
    have fits := Nat.lt_trans (Finset.mem_range.mp member) bounded
    rw [not_iff_not, Finset.mem_range, ← served.seen index fits,
      Finset.mem_image]
    constructor
    · rintro ⟨word, found, rfl⟩
      rwa [BitVec.ofNat_toNat, BitVec.setWidth_eq]
    · intro found
      exact ⟨_, found, toNat_ofNat_word fits⟩
  rw [unseen, Finset.card_sdiff, Finset.range_inter_range,
    Finset.card_range, Finset.card_range]
  omega

/-- The end of either kind of session reports as lost what was not sent. -/
theorem Served.summary {fragments : Nat} {receiver : Receiver}
    (served : Served count sent fragments receiver)
    (sending : 0 < sent) (positive : 0 < count) (bounded : count < 2 ^ 32)
    {batchCount : Option Nat}
    (mode : batchCount = none ∨ batchCount = some count) :
    ∃ stats, sessionSummary batchCount receiver = some stats ∧
      Undamaged sent (count - sent) fragments stats := by
  have closed : closeSession receiver = receiver := if_neg (by
    rw [served.idle]
    exact Bool.false_ne_true)
  have whole : count % 2 ^ 32 = count := Nat.mod_eq_of_lt bounded
  have unseen := served.card_unseenBelow bounded
  have missed : missing receiver.stats.seenSeq count = count - sent := by
    rw [missing_eq_card_unseenBelow (Nat.le_of_lt bounded), unseen]
  have undamaged := served.undamaged
  have lost : receiver.stats.lost + (count - sent) = count - sent := by
    rw [undamaged.lost, Nat.zero_add]
  rw [sessionSummary, closed]
  rcases mode with rfl | rfl
  · have word := toNat_ofNat_word bounded
    have nonzero : 0 < BitVec.ofNat 32 count := by
      rw [BitVec.lt_def, word]
      exact positive
    rw [finalizeLost_total (served.wire sending) nonzero, word, missed]
    exact ⟨_, rfl, { undamaged with lost := lost }⟩
  · rw [finalizeLost_count positive (by omega), whole, unseen]
    exact ⟨_, rfl, { undamaged with lost := lost }⟩

end Run

/-- Spans that follow each other fit in front of a common bound. -/
theorem length_flatten_spans_le {spans : List (Nat × List Byte)} {bound : Nat}
    (ordered : spans.Pairwise fun earlier later =>
      earlier.1 + earlier.2.length ≤ later.1)
    (behind : ∀ span ∈ spans, span.1 + span.2.length ≤ bound) :
    (spans.map Prod.snd).flatten.length ≤ bound := by
  induction spans using List.reverseRecOn generalizing bound with
  | nil => exact Nat.zero_le _
  | append_singleton spans last induction =>
      obtain ⟨earlier, _, before⟩ := List.pairwise_append.mp ordered
      have fits := behind last (by simp)
      have front := induction earlier
        (fun span member => before span member last List.mem_cons_self)
      rw [List.map_append, List.flatten_append, List.length_append,
        List.map_singleton, List.flatten_singleton]
      omega

/-- The accepted batches are not longer than what was received. -/
theorem length_acceptedBatches_le (stream : List Byte) :
    (acceptedBatches ((scan stream).trail.map Prod.snd)).flatten.length ≤
      stream.length := by
  have provenance := scan_provenance stream
  rw [← acceptedSpans_batches]
  apply length_flatten_spans_le provenance.ordered
  intro span member
  exact Nat.le_trans (provenance.behind span member)
    (scan_standing stream).inside.1

/-- As long as a byte of the run is missing, so is a batch. -/
theorem batches_lt_of_prefix {total : Word} {batches : List (List Byte)}
    (members : ∀ batch ∈ batches, BatchOf total batch)
    (long : ∀ batch ∈ batches, kPacketHeaderSize < batch.length)
    {front back : List Byte} (cut : batches.flatten = front ++ back)
    (more : back ≠ []) {buffers : List (List Byte)}
    (same : buffers.flatten = front) {receiver : Receiver}
    (ingested : ingestAll {} buffers = some receiver) :
    receiver.stats.batches < batches.length := by
  have tracks := tracks_of_ingestAll ingested
  obtain ⟨trail, verdicts, scanned⟩ := scan_batches members long
  have onward : (scan front).trail <+: (scan batches.flatten).trail := by
    rw [cut, scan_append]
    exact scanner.trail_prefix_feed _ _
  have accepted : acceptedBatches ((scan front).trail.map Prod.snd) <+:
      batches := by
    have mapped := onward.map Prod.snd
    rw [scanned] at mapped
    have read := mapped.filterMap Verdict.accepted?
    have all := acceptedBatches_delivered batches
    rw [← verdicts] at all
    rw [← all]
    exact read
  rw [tracks.logged.batches, ← tracks.logged.trail, same]
  apply Nat.lt_of_le_of_ne accepted.length_le
  intro every
  have whole := accepted.eq_of_length every
  have bytes := length_acceptedBatches_le front
  have missing := List.length_pos_of_ne_nil more
  rw [whole, cut, List.length_append] at bytes
  omega

end BoostUdp
