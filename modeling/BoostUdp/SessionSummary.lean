import BoostUdp.Provenance
import BoostUdp.Server.ReceiveLoop

/-!
# The session summary

What the printed counters say about each other.  The sequence statistics keep
`Consistent`, whatever is tracked; the reassemblies of a run keep `Balanced`,
whatever is received; and the loop that counts lost batches adds what is
missing below the session total.
-/

namespace BoostUdp

open LittleEndian StreamMachine

/-- How many sequence numbers below `count` were not seen. -/
def missing (seen : Finset Word) (count : Nat) : Nat :=
  (List.range count).countP fun seq => BitVec.ofNat 32 seq ∉ seen

/-- Below the largest counter value the loop ends, and has added the missing
sequence numbers from `seq` on. -/
theorem lostLoop_eq {upper : Word} (bounded : upper.toNat + 1 < 2 ^ 32)
    (count : Nat) {fuel : Nat} {seq : Word} {stats : ServerStats}
    (reach : seq.toNat + count = upper.toNat + 1) (enough : count < fuel) :
    lostLoop upper fuel seq stats =
      some
        { stats with
          lost := stats.lost + (List.range' seq.toNat count).countP
            fun seq => BitVec.ofNat 32 seq ∉ stats.seenSeq } := by
  induction count generalizing fuel seq stats with
  | zero =>
      cases fuel with
      | zero => omega
      | succ fuel =>
          have past : ¬seq ≤ upper := by
            rw [BitVec.le_def]
            omega
          simp [lostLoop, past]
  | succ count induction =>
      cases fuel with
      | zero => omega
      | succ fuel =>
          have inside : seq ≤ upper := by
            rw [BitVec.le_def]
            omega
          have next : (seq + 1).toNat = seq.toNat + 1 := by bv_omega
          have reach' : (seq + 1).toNat + count = upper.toNat + 1 := by
            omega
          have same : BitVec.ofNat 32 seq.toNat = seq := by simp
          rw [lostLoop, if_pos inside, induction reach' (by omega), next,
            List.range'_succ, List.countP_cons, same]
          by_cases seen : seq ∈ stats.seenSeq
          · simp [seen]
          · simp [seen, Nat.add_assoc, Nat.add_comm 1]

/-- The loop changes nothing but the lost count. -/
theorem lostLoop_frame {upper : Word} {fuel : Nat} {seq : Word}
    {stats after : ServerStats}
    (counted : lostLoop upper fuel seq stats = some after) :
    ∃ lost, after = { stats with lost := lost } := by
  induction fuel generalizing seq stats with
  | zero => contradiction
  | succ fuel induction =>
      rw [lostLoop] at counted
      split at counted
      · obtain ⟨lost, rfl⟩ := induction counted
        refine ⟨lost, ?_⟩
        split <;> rfl
      · cases counted
        exact ⟨_, rfl⟩

theorem finalizeLost_frame {stats after : ServerStats}
    {cliBatchCount : Option Nat}
    (finalized : finalizeLost stats cliBatchCount = some after) :
    ∃ lost, after = { stats with lost := lost } := by
  unfold finalizeLost at finalized
  split at finalized
  · split at finalized
    · cases finalized
      exact ⟨_, rfl⟩
    · exact lostLoop_frame finalized
  · split at finalized
    · exact lostLoop_frame finalized
    · split at finalized
      · exact lostLoop_frame finalized
      · cases finalized
        exact ⟨_, rfl⟩

theorem missing_add_card {seen : Finset Word} {count : Nat}
    (small : count ≤ 2 ^ 32) (below : ∀ seq ∈ seen, seq.toNat < count) :
    missing seen count + seen.card = count := by
  have image : seen.image BitVec.toNat =
      (Finset.range count).filter fun seq => BitVec.ofNat 32 seq ∈ seen := by
    ext number
    simp only [Finset.mem_image, Finset.mem_filter, Finset.mem_range]
    constructor
    · rintro ⟨seq, member, rfl⟩
      exact ⟨below seq member, by simpa using member⟩
    · rintro ⟨small', member⟩
      refine ⟨_, member, ?_⟩
      rw [BitVec.toNat_ofNat, Nat.mod_eq_of_lt (by omega)]
  have found : (List.range count).countP
      (fun seq => decide (BitVec.ofNat 32 seq ∈ seen)) = seen.card := by
    rw [← Finset.card_image_of_injective seen
      (fun _ _ same => BitVec.eq_of_toNat_eq same), image,
      List.countP_eq_length_filter]
    rfl
  have split := List.length_eq_countP_add_countP
    (fun seq => decide (BitVec.ofNat 32 seq ∈ seen)) (l := List.range count)
  rw [List.length_range, found] at split
  simp only [missing, decide_not]
  simp only [Bool.not_eq_true, decide_eq_false_iff_not, decide_not] at split
  omega

/-- With a session total the count of lost batches is exact. -/
theorem finalizeLost_total {stats : ServerStats} {total : Word}
    (wire : stats.wireBatchTotal = some total) (positive : 0 < total) :
    finalizeLost stats none =
      some
        { stats with
          lost := stats.lost + missing stats.seenSeq total.toNat } := by
  have range := total.isLt
  have nonzero : 0 < total.toNat := positive
  have upper : (total - 1).toNat + 1 = total.toNat := by bv_omega
  have bounded : (total - 1).toNat + 1 < 2 ^ 32 := by omega
  have reach : (0 : Word).toNat + total.toNat = (total - 1).toNat + 1 := by
    rw [upper]
    exact Nat.zero_add _
  have opened : finalizeLost stats none =
      lostLoop (total - 1) lostFuel 0 stats := by
    simp only [finalizeLost, wire]
  rw [opened, lostFuel, lostLoop_eq bounded total.toNat reach
    (Nat.lt_succ_of_lt range), missing, List.range_eq_range']
  rfl

/-- What `track_sequence` maintains. -/
structure Consistent (stats : ServerStats) : Prop where
  batches : stats.batches = stats.seenSeq.card + stats.duplicates
  haveSeq : stats.haveSeq = true ↔ stats.seenSeq.Nonempty
  highest : stats.haveSeq = true →
    stats.highestSeq ∈ stats.seenSeq ∧
      ∀ seq ∈ stats.seenSeq, seq ≤ stats.highestSeq
  outOfOrder : stats.haveSeq = true → stats.outOfOrder < stats.seenSeq.card
  untouched : stats.haveSeq = false → stats.outOfOrder = 0

theorem Consistent.accepted {stats : ServerStats}
    (consistent : Consistent stats) (batch : List Byte) :
    Consistent (stats.observe (.accepted batch)) := by
  simp only [ServerStats.observe]
  rcases trackSequence_cases stats (PacketHeader.decode batch).seq with
    ⟨duplicate, tracked⟩ | ⟨new, untouched, tracked⟩ | ⟨new, started, tracked⟩
  · rw [tracked]
    refine { consistent with batches := ?_ }
    have batches := consistent.batches
    dsimp only
    omega
  · have none : stats.seenSeq = ∅ := by
      rw [← Finset.not_nonempty_iff_eq_empty, ← consistent.haveSeq, untouched]
      exact Bool.false_ne_true
    have batches := consistent.batches
    have unordered := consistent.untouched untouched
    rw [tracked]
    refine
      { batches := ?_
        haveSeq := by simp
        highest := fun _ => by simp [none]
        outOfOrder := fun _ => by simp [none, unordered]
        untouched := fun absurdity => by contradiction }
    rw [none] at batches
    simp only [none, insert_empty_eq, Finset.card_singleton, batches,
      Finset.card_empty]
    omega
  · obtain ⟨member, greatest⟩ := consistent.highest started
    have grown := Finset.card_insert_of_notMem new
    have batches := consistent.batches
    have outOfOrder := consistent.outOfOrder started
    rw [tracked]
    refine
      { batches := ?_
        haveSeq := by simp [started]
        highest := ?_
        outOfOrder := ?_
        untouched := fun untouched => by simp [started] at untouched }
    · simp only [grown, batches]
      omega
    · intro _
      dsimp only
      by_cases higher :
          stats.highestSeq < (PacketHeader.decode batch).seq
      · rw [if_pos higher]
        refine ⟨Finset.mem_insert_self _ _, fun seq inserted => ?_⟩
        rcases Finset.mem_insert.mp inserted with rfl | old
        · exact BitVec.le_refl _
        · exact BitVec.le_trans (greatest seq old) (BitVec.le_of_lt higher)
      · rw [if_neg higher]
        refine ⟨Finset.mem_insert_of_mem member, fun seq inserted => ?_⟩
        rcases Finset.mem_insert.mp inserted with rfl | old
        · exact BitVec.not_lt.mp higher
        · exact greatest seq old
    · intro _
      simp only [grown]
      split <;> omega

theorem Consistent.observe {stats : ServerStats}
    (consistent : Consistent stats) (verdict : Verdict) :
    Consistent (stats.observe verdict) := by
  cases verdict with
  | started header => exact { consistent with }
  | accepted batch => exact consistent.accepted batch
  | rejected batch carry => exact { consistent with }

theorem tally_consistent (calls : Nat) (verdicts : List Verdict) :
    Consistent (tally calls verdicts) := by
  induction verdicts using List.reverseRecOn with
  | nil =>
      exact
        { batches := rfl
          haveSeq := by simp [tally]
          highest := fun absurdity => by contradiction
          outOfOrder := fun absurdity => by contradiction
          untouched := fun _ => rfl }
  | append_singleton verdicts verdict induction =>
      rw [tally_append]
      exact induction.observe verdict

/-- Every reassembly that was started has been judged, but for the one that
is under way. -/
structure Balanced (config : ScanConfig) : Prop where
  judged : (config.trail.map Prod.snd).countP Verdict.isStarted =
    (acceptedBatches (config.trail.map Prod.snd)).length +
      (config.trail.map Prod.snd).countP Verdict.isRejected +
      if config.state.collecting.isSome then 1 else 0
  session : ∀ header, .started header ∈ config.trail.map Prod.snd →
    config.state.total = some header.batchTotal
  positive : ∀ total, config.state.total = some total → 0 < total
  silent : config.state.total = none → config.trail = []

/-- A verdict on a batch starts nothing. -/
theorem started_mem_append {trail : List (Nat × Verdict)}
    {entry : Nat × Verdict} (judged : entry.2.isStarted = false)
    {header : PacketHeader}
    (member : .started header ∈ (trail ++ [entry]).map Prod.snd) :
    .started header ∈ trail.map Prod.snd := by
  rw [List.map_append] at member
  rcases List.mem_append.mp member with old | new
  · exact old
  · have same := congrArg Verdict.isStarted (List.mem_singleton.mp new)
    exact absurd (same.trans judged) Bool.false_ne_true.symm

theorem Balanced.advance {stream : List Byte} {config next : ScanConfig}
    (standing : Standing stream config) (balanced : Balanced config)
    (advanced : scanner.advance config = some next) : Balanced next := by
  have judged := balanced.judged
  have announced : ∀ expected, config.state.collecting = some expected →
      config.state.total ≠ none := by
    intro expected collecting absent
    have total := (standing.announced expected collecting).2.2
    exact absurd (absent.symm.trans total) (by simp)
  cases advance_cases advanced with
  | header header hunting =>
      refine
        { judged := ?_
          session := ?_
          positive := ?_
          silent := fun absurdity => by contradiction }
      · simp only [hunting, Option.isSome_none, Bool.false_eq_true,
          if_false] at judged
        simp [Verdict.isStarted, Verdict.isRejected, judged]
      · intro started member
        rw [List.map_append] at member
        rcases List.mem_append.mp member with old | new
        · exact congrArg some (header.same _ (balanced.session started old))
        · cases List.mem_singleton.mp new
          rfl
      · intro total same
        cases same
        have below := header.wellFormed.seq_lt
        bv_omega
  | skip hunting complete other =>
      exact ⟨judged, balanced.session, balanced.positive, balanced.silent⟩
  | accept expected collecting arrived beyond valid =>
      refine
        { judged := ?_
          session := ?_
          positive := balanced.positive
          silent := fun absent => absurd absent (announced expected collecting) }
      · simp only [collecting, Option.isSome_some, if_true] at judged
        simp only [List.map_append, List.map_cons, List.map_nil,
          List.countP_append, acceptedBatches_append,
          acceptedBatches_accepted, List.length_append]
        simp [Verdict.isStarted, Verdict.isRejected, judged]
        omega
      · intro started member
        exact balanced.session started
          (started_mem_append rfl member)
  | reject expected collecting arrived beyond invalid =>
      refine
        { judged := ?_
          session := ?_
          positive := balanced.positive
          silent := fun absent => absurd absent (announced expected collecting) }
      · simp only [collecting, Option.isSome_some, if_true] at judged
        simp [Verdict.isStarted, Verdict.isRejected, judged]
        omega
      · intro started member
        exact balanced.session started
          (started_mem_append rfl member)

theorem balanced_start (stream : List Byte) :
    Balanced (ScanConfig.fresh.extend stream) :=
  { judged := rfl
    session := fun _ absurdity => by contradiction
    positive := fun _ absurdity => by contradiction
    silent := fun _ => rfl }

theorem scan_balanced (stream : List Byte) : Balanced (scan stream) :=
  (scan_induction stream Balanced (balanced_start stream)
    Balanced.advance).2

/-- Accepted batches are of the session, so their sequence numbers are below
its total. -/
theorem seenSeq_lt_total {calls : Nat} {stream : List Byte}
    {receiver : Receiver} (tracks : Tracks calls receiver (scan stream))
    {total : Word} (wire : receiver.stats.wireBatchTotal = some total) :
    ∀ seq ∈ receiver.stats.seenSeq, seq < total := by
  intro seq member
  have provenance := scan_provenance stream
  rw [tracks.logged.seenSeq, ← tracks.logged.trail,
    ← acceptedSpans_batches] at member
  simp only [List.mem_toFinset, List.mem_map] at member
  obtain ⟨batch, ⟨span, spanMember, rfl⟩, rfl⟩ := member
  have session := provenance.session span spanMember
  rw [tracks.total_eq, wire] at session
  have wellFormed := (provenance.valid span spanMember).wellFormed
  rw [batchSeq, Option.some.inj session]
  exact wellFormed.seq_lt

def Event.isReassemble : Event → Bool
  | .reassemble _ => true
  | _ => false

theorem closeSession_stats (receiver : Receiver) :
    (closeSession receiver).stats =
      { receiver.stats with
        badBatches := receiver.stats.badBatches +
          if receiver.reassembly.active then 1 else 0 } := by
  unfold closeSession
  split <;> rfl

/-- What the summary says of a receiver: the batch it was in the middle of is
a bad one. -/
theorem sessionSummary_frame {receiver : Receiver} {summary : ServerStats}
    {batchCount : Option Nat}
    (summarised : sessionSummary batchCount receiver = some summary) :
    ∃ lost, summary =
      { receiver.stats with
        badBatches := receiver.stats.badBatches +
          if receiver.reassembly.active then 1 else 0
        lost := lost } := by
  obtain ⟨lost, rfl⟩ := finalizeLost_frame summarised
  exact ⟨lost, by rw [closeSession_stats]⟩

/-- With a session total known, the summary of a tracked receiver exists and
counts as lost what is missing. -/
theorem sessionSummary_total {calls : Nat} {stream : List Byte}
    {receiver : Receiver} (tracks : Tracks calls receiver (scan stream))
    {total : Word} (wire : receiver.stats.wireBatchTotal = some total) :
    sessionSummary none receiver =
        some
          { receiver.stats with
            badBatches := receiver.stats.badBatches +
              if receiver.reassembly.active then 1 else 0
            lost := total.toNat - receiver.stats.seenSeq.card } ∧
      receiver.stats.seenSeq.card ≤ total.toNat := by
  have positive := (scan_balanced stream).positive total
    (tracks.total_eq.trans wire)
  have account := missing_add_card (Nat.le_of_lt total.isLt)
    (seenSeq_lt_total tracks wire)
  have lost := tracks.logged.lost
  have closed : (closeSession receiver).stats.wireBatchTotal = some total := by
    rw [closeSession_stats]
    exact wire
  refine ⟨?_, by omega⟩
  rw [sessionSummary, finalizeLost_total closed positive, closeSession_stats]
  simp only [lost, Option.some.injEq, ServerStats.mk.injEq, true_and, and_true]
  omega

/-- Without a session total nothing was found in the stream. -/
theorem sessionSummary_silent {calls : Nat} {stream : List Byte}
    {receiver : Receiver} (tracks : Tracks calls receiver (scan stream))
    (wire : receiver.stats.wireBatchTotal = none) :
    receiver.verdicts = [] ∧ receiver.stats = { fragments := calls } ∧
      sessionSummary none receiver = some { fragments := calls } := by
  have silent : receiver.verdicts = [] := by
    rw [← tracks.logged.trail,
      (scan_balanced stream).silent (tracks.total_eq.trans wire), List.map_nil]
  have stats : receiver.stats = { fragments := calls } := by
    rw [tracks.logged.stats, silent]
    rfl
  have idle : receiver.reassembly.active = false := by
    have judged := (scan_balanced stream).judged
    rw [tracks.logged.trail, silent] at judged
    rw [tracks.active_eq]
    cases collecting : (scan stream).state.collecting with
    | none => rfl
    | some expected => simp [collecting] at judged
  refine ⟨silent, stats, ?_⟩
  simp [sessionSummary, closeSession, idle, stats, finalizeLost]

theorem countP_isReassemble (receiver : Receiver) :
    receiver.log.countP Event.isReassemble =
      receiver.verdicts.countP Verdict.isStarted := by
  rw [Receiver.verdicts, List.countP_filterMap]
  congr 1
  funext event
  cases event <;> rfl

/-- How the printed counters and the log of a session hang together. -/
structure SummaryAccounts (log : List Event) (summary : ServerStats) :
    Prop where
  reassemblies : log.countP Event.isReassemble =
    summary.batches + summary.badBatches
  batches : summary.batches = summary.seenSeq.card + summary.duplicates
  haveSeq : summary.haveSeq = true ↔ summary.seenSeq.Nonempty
  highest : summary.haveSeq = true →
    summary.highestSeq ∈ summary.seenSeq ∧
      ∀ seq ∈ summary.seenSeq, seq ≤ summary.highestSeq
  outOfOrder : summary.haveSeq = true →
    summary.outOfOrder < summary.seenSeq.card
  session : ∀ header, .reassemble header ∈ log →
    summary.wireBatchTotal = some header.batchTotal
  below : ∀ total, summary.wireBatchTotal = some total →
    ∀ seq ∈ summary.seenSeq, seq < total
  total : ∀ total, summary.wireBatchTotal = some total →
    summary.batches - summary.duplicates + summary.lost = total.toNat
  silent : summary.wireBatchTotal = none →
    summary.batches = 0 ∧ summary.badBatches = 0 ∧ summary.duplicates = 0 ∧
      summary.outOfOrder = 0 ∧ summary.lost = 0

theorem Tracks.summaryAccounts {calls : Nat} {stream : List Byte}
    {receiver : Receiver} (tracks : Tracks calls receiver (scan stream)) :
    ∃ summary, sessionSummary none receiver = some summary ∧
      summary.wireBatchTotal = receiver.stats.wireBatchTotal ∧
      SummaryAccounts receiver.log summary := by
  have consistent : Consistent receiver.stats := by
    rw [tracks.logged.stats]
    exact tally_consistent _ _
  have judged := (scan_balanced stream).judged
  rw [tracks.logged.trail, ← tracks.active_eq, ← tracks.logged.batches,
    ← tracks.logged.badBatches] at judged
  have session : ∀ header, Event.reassemble header ∈ receiver.log →
      receiver.stats.wireBatchTotal = some header.batchTotal := by
    intro header member
    rw [← tracks.total_eq]
    apply (scan_balanced stream).session header
    rw [tracks.logged.trail]
    exact List.mem_filterMap.mpr ⟨_, member, rfl⟩
  cases wire : receiver.stats.wireBatchTotal with
  | none =>
      obtain ⟨silent, stats, summarised⟩ := sessionSummary_silent tracks wire
      refine ⟨_, summarised, rfl, ?_⟩
      rw [stats] at consistent
      exact
        { reassemblies := by rw [countP_isReassemble, silent]; rfl
          batches := consistent.batches
          haveSeq := consistent.haveSeq
          highest := consistent.highest
          outOfOrder := consistent.outOfOrder
          session := fun header member => by
            have known := session header member
            rw [wire] at known
            contradiction
          below := fun _ absurdity => by contradiction
          total := fun _ absurdity => by contradiction
          silent := fun _ => ⟨rfl, rfl, rfl, rfl, rfl⟩ }
  | some total =>
      obtain ⟨summarised, fits⟩ := sessionSummary_total tracks wire
      refine ⟨_, summarised, wire, ?_⟩
      have batches := consistent.batches
      exact
        { reassemblies := by
            rw [countP_isReassemble, judged]
            exact Nat.add_assoc _ _ _
          batches := consistent.batches
          haveSeq := consistent.haveSeq
          highest := consistent.highest
          outOfOrder := consistent.outOfOrder
          session := session
          below := fun known same =>
            seenSeq_lt_total tracks same
          total := fun known same => by
            cases Option.some.inj (wire.symm.trans same)
            dsimp only
            omega
          silent := fun absent =>
            absurd (wire.symm.trans absent) (by simp) }

/-- The summary of every session without `--count` accounts for everything,
and its total is the one the session has had since it had any. -/
theorem session_summary_accounts (datagrams : List (List Byte)) :
    ∃ receiver summary, ingestAll {} datagrams = some receiver ∧
      sessionSummary none receiver = some summary ∧
      SummaryAccounts receiver.log summary ∧
      ∀ before after, datagrams = before ++ after →
        ∃ between, ingestAll {} before = some between ∧
          ∀ total, between.stats.wireBatchTotal = some total →
            summary.wireBatchTotal = some total := by
  obtain ⟨receiver, ingested, tracks⟩ := ingestAll_fresh datagrams
  obtain ⟨summary, summarised, sameWire, accounts⟩ := tracks.summaryAccounts
  refine ⟨receiver, summary, ingested, summarised, accounts, ?_⟩
  rintro before after rfl
  obtain ⟨between, reached, tracksBetween⟩ := ingestAll_fresh before
  refine ⟨between, reached, fun total known => ?_⟩
  have persists := total_feed (tracksBetween.total_eq.trans known)
    after.flatten
  rw [← scan_append, ← List.flatten_append] at persists
  rw [sameWire, ← tracks.total_eq]
  exact persists

end BoostUdp
