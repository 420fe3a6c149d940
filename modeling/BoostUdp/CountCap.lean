import BoostUdp.SessionRun
import BoostUdp.SessionSummary

/-!
# The `--count` limit

The limit is tested between receive calls.  Whether it holds, and whether the
printed bad batches are those that failed before it was reached, is decided by
what follows the last wanted batch in the buffer that completes it.
-/

namespace BoostUdp

open LittleEndian StreamMachine

/-- The failed batches before the `count`-th counted one. -/
def badBefore : Nat → List Event → Nat
  | 0, _ => 0
  | _ + 1, [] => 0
  | count + 1, .ok _ _ _ :: log => badBefore count log
  | count + 1, .bad _ _ _ :: log => badBefore (count + 1) log + 1
  | count + 1, .resyncSkip _ :: log => badBefore (count + 1) log
  | count + 1, .reassemble _ :: log => badBefore (count + 1) log
  | count + 1, .badLength _ :: log => badBefore (count + 1) log

def rejectedBefore : Nat → List Verdict → Nat
  | 0, _ => 0
  | _ + 1, [] => 0
  | count + 1, .accepted _ :: verdicts => rejectedBefore count verdicts
  | count + 1, .rejected _ _ :: verdicts =>
      rejectedBefore (count + 1) verdicts + 1
  | count + 1, .started _ :: verdicts => rejectedBefore (count + 1) verdicts

theorem badBefore_eq (count : Nat) (log : List Event) :
    badBefore count log =
      rejectedBefore count (log.filterMap Event.verdict) := by
  induction log generalizing count with
  | nil => cases count <;> rfl
  | cons event log induction =>
      cases count with
      | zero => simp [badBefore, rejectedBefore]
      | succ count =>
          cases event <;>
            simp [badBefore, rejectedBefore, Event.verdict, induction,
              List.filterMap_cons]

theorem rejectedBefore_accepted {count : Nat} {front back : List Verdict}
    (before : (acceptedBatches front).length = count) (batch : List Byte) :
    rejectedBefore (count + 1) (front ++ .accepted batch :: back) =
      front.countP Verdict.isRejected := by
  induction front generalizing count with
  | nil =>
      cases before
      cases back <;> rfl
  | cons verdict front induction =>
      cases verdict with
      | started header =>
          exact (induction before).trans rfl
      | accepted earlier =>
          cases before
          exact (induction rfl).trans rfl
      | rejected earlier carry =>
          have rest := induction before
          simp only [List.cons_append, rejectedBefore, rest,
            List.countP_cons]
          rfl

theorem acceptedSpans_split {trail : List (Nat × Verdict)} {index : Nat}
    {span : Nat × List Byte}
    (found : (acceptedSpans trail)[index]? = some span) :
    ∃ front back, trail = front ++ (span.1, .accepted span.2) :: back ∧
      (acceptedBatches (front.map Prod.snd)).length = index := by
  obtain ⟨below, same⟩ := List.getElem?_eq_some_iff.mp found
  have split := List.take_append_drop index (acceptedSpans trail)
  rw [List.drop_eq_getElem_cons below, same] at split
  obtain ⟨first, rest, rfl, firstSpans, restSpans⟩ :=
    List.filterMap_eq_append_iff.mp split.symm
  obtain ⟨quiet, entry, back, rfl, silent, accepted, _⟩ :=
    List.filterMap_eq_cons_iff.mp restSpans
  obtain ⟨position, verdict⟩ := entry
  refine ⟨first ++ quiet, back, ?_, ?_⟩
  · cases verdict with
    | started header => simp [Verdict.accepted?] at accepted
    | rejected batch carry => simp [Verdict.accepted?] at accepted
    | accepted batch =>
        simp only [Verdict.accepted?, Option.map_some,
          Option.some.injEq] at accepted
        subst accepted
        simp
  · rw [← acceptedSpans_batches, List.length_map]
    have none : acceptedSpans quiet = [] :=
      List.filterMap_eq_nil_iff.mpr silent
    rw [acceptedSpans, List.filterMap_append, firstSpans, ← acceptedSpans,
      none, List.append_nil, List.length_take]
    omega

/-- The run right after it has accepted a batch. -/
theorem exists_accepting_move {stream : List Byte} {span : Nat × List Byte}
    {front back : List (Nat × Verdict)}
    (made : (scan stream).trail =
      front ++ (span.1, .accepted span.2) :: back) :
    ∃ next : ScanConfig, Standing stream next ∧ Balanced next ∧
      scanner.drain next = scan stream ∧
      next.trail = front ++ [(span.1, .accepted span.2)] ∧
      next.state = { total := some (PacketHeader.decode span.2).batchTotal } ∧
      next.position = span.1 + span.2.length := by
  obtain ⟨current, next, reaches, advanced, trail, nextTrail⟩ :=
    scanner.exists_output_move scanStep_single
      (ScanConfig.fresh.extend stream) (Nat.zero_le _) made
  have along : Standing stream current ∧ Balanced current := by
    apply reaches.invariant
      (fun config => Standing stream config ∧ Balanced config)
    · rintro config later ⟨standing, balanced⟩ moved
      exact ⟨standing.advance moved, balanced.advance standing moved⟩
    · exact ⟨standing_start stream, balanced_start stream⟩
  obtain ⟨standing, balanced⟩ := along
  have drained : scanner.drain next = scan stream := by
    rw [← scanner.drain_of_some advanced]
    exact reaches.drain_eq
  refine ⟨next, standing.advance advanced, balanced.advance standing advanced,
    drained, nextTrail, ?_⟩
  cases advance_cases advanced with
  | header header =>
      simp [trail] at nextTrail
  | skip =>
      simp [trail] at nextTrail
  | accept expected collecting arrived =>
      obtain ⟨_, _, total⟩ := standing.announced expected collecting
      have same := List.append_cancel_left
        ((congrArg (· ++ _) trail).symm.trans nextTrail)
      cases span
      simp only [List.cons.injEq, Prod.mk.injEq, Verdict.accepted.injEq,
        and_true] at same
      obtain ⟨rfl, rfl⟩ := same
      rw [PacketHeader.decode_take expected.atLeast arrived, ← total,
        List.length_take_of_le arrived]
      exact ⟨rfl, rfl⟩
  | reject =>
      simp [trail] at nextTrail

/-- The limit was kept, and if it was reached the printed bad batches are
those that failed before that. -/
def CapHolds (count : Nat) (receiver : Receiver) : Prop :=
  receiver.stats.batches ≤ count ∧
    (count ≤ receiver.stats.batches →
      (closeSession receiver).stats.badBatches =
        badBefore count receiver.log)

/-- No header of the session starts behind the `count`-th batch of the
stream. -/
def QuietAfter (count : Nat) (stream : List Byte) : Prop :=
  ∀ span, (acceptedSpans (scan stream).trail)[count - 1]? = some span →
    ∀ offset, span.1 + span.2.length ≤ offset →
      ¬SessionHeader (some (PacketHeader.decode span.2).batchTotal)
        (stream.drop offset)

/-- Nothing is behind the last wanted batch: the run ends where it accepted
it. -/
theorem capHolds_of_quiet {calls count : Nat} {stream : List Byte}
    {receiver : Receiver} (tracks : Tracks calls receiver (scan stream))
    {span : Nat × List Byte} {front back : List (Nat × Verdict)}
    (made : (scan stream).trail =
      front ++ (span.1, .accepted span.2) :: back)
    (before : (acceptedBatches (front.map Prod.snd)).length = count)
    (quiet : ∀ offset, span.1 + span.2.length ≤ offset →
      ¬SessionHeader (some (PacketHeader.decode span.2).batchTotal)
        (stream.drop offset)) :
    CapHolds (count + 1) receiver := by
  obtain ⟨next, standing, _, drained, trail, state, position⟩ :=
    exists_accepting_move made
  have settled := drain_quiet next state (by
    intro offset
    rw [standing.inside.2, List.drop_drop, position]
    exact quiet _ (Nat.le_add_right _ _))
  rw [drained, trail] at settled
  have verdicts : receiver.verdicts =
      front.map Prod.snd ++ [.accepted span.2] := by
    rw [← tracks.logged.trail, settled.1]
    simp
  have idle : receiver.reassembly.active = false := by
    rw [tracks.active_eq, settled.2]
    rfl
  have batches : receiver.stats.batches = count + 1 := by
    rw [tracks.logged.batches, verdicts, acceptedBatches_append,
      acceptedBatches_accepted, List.length_append, before]
    rfl
  refine ⟨Nat.le_of_eq batches, fun _ => ?_⟩
  rw [closeSession_stats, badBefore_eq, ← Receiver.verdicts]
  simp only [tracks.logged.badBatches, verdicts, idle,
    rejectedBefore_accepted before]
  simp [Verdict.isRejected]

/-- A header of the session behind the last wanted batch starts another
reassembly: it is counted, or it is bad. -/
theorem not_capHolds_of_header {calls count : Nat} {stream : List Byte}
    {receiver : Receiver} (tracks : Tracks calls receiver (scan stream))
    {span : Nat × List Byte} {front back : List (Nat × Verdict)}
    (made : (scan stream).trail =
      front ++ (span.1, .accepted span.2) :: back)
    (before : (acceptedBatches (front.map Prod.snd)).length = count)
    {offset : Nat} (behind : span.1 + span.2.length ≤ offset)
    (header : SessionHeader
      (some (PacketHeader.decode span.2).batchTotal)
      (stream.drop offset)) :
    ¬CapHolds (count + 1) receiver := by
  obtain ⟨next, standing, balanced, drained, trail, state, position⟩ :=
    exists_accepting_move made
  have ahead : SessionHeader (some (PacketHeader.decode span.2).batchTotal)
      (next.pending.drop (offset - next.position)) := by
    rw [standing.inside.2, List.drop_drop, position, Nat.add_sub_cancel' behind]
    exact header
  obtain ⟨first, _, _, started⟩ := drain_started next state ahead
  rw [drained, trail] at started
  obtain ⟨rest, whole⟩ := started
  have verdicts : receiver.verdicts =
      front.map Prod.snd ++ .accepted span.2 ::
        .started (PacketHeader.decode (next.pending.drop first)) ::
          rest.map Prod.snd := by
    rw [← tracks.logged.trail, ← whole]
    simp
  have judgedBefore := balanced.judged
  rw [trail, state, List.map_append] at judgedBefore
  have judgedAfter := (scan_balanced stream).judged
  rw [tracks.logged.trail, ← tracks.active_eq] at judgedAfter
  rintro ⟨atMost, sameBad⟩
  rw [closeSession_stats, badBefore_eq, ← Receiver.verdicts] at sameBad
  simp only [tracks.logged.batches, tracks.logged.badBatches, verdicts,
    rejectedBefore_accepted before] at atMost sameBad
  rw [verdicts] at judgedAfter
  simp only [List.map_cons, List.map_nil, List.countP_append,
    List.countP_cons, List.countP_nil, acceptedBatches_append,
    acceptedBatches_accepted, acceptedBatches_started, acceptedBatches_nil,
    List.length_append, List.length_cons, List.length_nil, before,
    Verdict.isStarted, Verdict.isRejected, Option.isSome_none,
    Bool.false_eq_true, if_false, if_true]
    at judgedBefore judgedAfter atMost sameBad
  have reached := sameBad (by omega)
  omega

theorem Tracks.capHolds_iff {calls count : Nat} {stream : List Byte}
    {receiver : Receiver} (tracks : Tracks calls receiver (scan stream))
    (positive : 0 < count) :
    CapHolds count receiver ↔ QuietAfter count stream := by
  obtain ⟨before, rfl⟩ := Nat.exists_eq_add_of_lt positive
  have batches : receiver.stats.batches =
      (acceptedSpans (scan stream).trail).length := by
    rw [tracks.logged.batches, ← tracks.logged.trail,
      ← acceptedSpans_batches, List.length_map]
  simp only [Nat.zero_add, QuietAfter, Nat.add_sub_cancel]
  constructor
  · intro holds span found offset behind header
    obtain ⟨front, back, made, index⟩ := acceptedSpans_split found
    exact not_capHolds_of_header tracks made index behind header holds
  · intro quiet
    cases found : (acceptedSpans (scan stream).trail)[before]? with
    | none =>
        have few := List.getElem?_eq_none_iff.mp found
        exact ⟨by omega, fun reached => by omega⟩
    | some span =>
        obtain ⟨front, back, made, index⟩ := acceptedSpans_split found
        exact capHolds_of_quiet tracks made index (quiet span found)

/-- A counting session keeps its limit, and prints the bad batches that
preceded it, exactly when no header of the session has been received behind
the last wanted batch. -/
theorem countLoop_capHolds_iff {ρ : Type} (wrapper : ReceiveWrapper ρ)
    {count : Nat} (positive : 0 < count) {ticks rest : List (Tick ρ)}
    {receiver : Receiver}
    (left : countLoop wrapper.receive count none {} ticks =
      .ok (.left receiver rest)) :
    ∃ used, used <+: ticks ∧
      ingestAll {} (wrapper.buffers used) = some receiver ∧
      (CapHolds count receiver ↔
        QuietAfter count (wrapper.buffers used).flatten) := by
  obtain ⟨used, front, ingested⟩ := countLoop_left wrapper left
  exact ⟨used, front, ingested,
    (tracks_of_ingestAll ingested).capHolds_iff positive⟩

/-- One receive call that returns this buffer. -/
def oneBuffer (data : List Byte) : List (Tick RecvFrom) :=
  [{ now := 0, readable := true, outcome := .received data, after := 0 }]

/-- A batch with half a magic number behind it. -/
theorem countLoop_capHolds_iff_one :
    ∃ receiver used,
      countLoop receiveDatagram 1 none {}
          (oneBuffer (encodeBatch 0 2 [0x50#8] ++ [0x50#8, 0x44#8])) =
          .ok (.left receiver []) ∧
        used <+: oneBuffer (encodeBatch 0 2 [0x50#8] ++ [0x50#8, 0x44#8]) ∧
        ingestAll {} (plainReceive.buffers used) = some receiver ∧
        receiver.stats.batches = 1 ∧ CapHolds 1 receiver ∧
        QuietAfter 1 (plainReceive.buffers used).flatten := by
  have found : (leftReceiver (countLoop receiveDatagram 1 none {}
      (oneBuffer (encodeBatch 0 2 [0x50#8] ++ [0x50#8, 0x44#8])))).any
        (fun receiver => receiver.stats.batches = 1 ∧
          (closeSession receiver).stats.badBatches =
            badBefore 1 receiver.log) = true := by
    decide +kernel
  obtain ⟨receiver, read, counted⟩ := (Option.any_eq_true _ _).mp found
  obtain ⟨batches, bad⟩ := of_decide_eq_true counted
  have left := leftReceiver_eq read
  obtain ⟨used, front, ingested, iff⟩ :=
    countLoop_capHolds_iff plainReceive Nat.one_pos left
  have holds : CapHolds 1 receiver := ⟨Nat.le_of_eq batches, fun _ => bad⟩
  exact ⟨receiver, used, left, front, ingested, batches, holds, iff.mp holds⟩

/-- With `--count 1`, a buffer of two batches is counted twice, and a buffer
of a batch and the header of the next prints a bad batch although none has
failed. -/
theorem count_exceeded :
    (∃ receiver, countLoop receiveDatagram 1 none {}
          (oneBuffer (encodeBatch 0 2 [0x50#8] ++
            encodeBatch 1 2 [0x50#8])) = .ok (.left receiver []) ∧
        1 < receiver.stats.batches) ∧
      ∃ receiver, countLoop receiveDatagram 1 none {}
          (oneBuffer (encodeBatch 0 2 [0x50#8] ++
            (encodeBatch 1 2 [0x50#8]).take kPacketHeaderSize)) =
          .ok (.left receiver []) ∧
        receiver.stats.batches = 1 ∧ badBefore 1 receiver.log = 0 ∧
        (closeSession receiver).stats.badBatches = 1 := by
  have two : (leftReceiver (countLoop receiveDatagram 1 none {}
      (oneBuffer (encodeBatch 0 2 [0x50#8] ++
        encodeBatch 1 2 [0x50#8])))).any
        (fun receiver => 1 < receiver.stats.batches) = true := by
    decide +kernel
  have begun : (leftReceiver (countLoop receiveDatagram 1 none {}
      (oneBuffer (encodeBatch 0 2 [0x50#8] ++
        (encodeBatch 1 2 [0x50#8]).take kPacketHeaderSize)))).any
        (fun receiver => receiver.stats.batches = 1 ∧
          badBefore 1 receiver.log = 0 ∧
          (closeSession receiver).stats.badBatches = 1) = true := by
    decide +kernel
  obtain ⟨receiver, left, exceeded⟩ := (Option.any_eq_true _ _).mp two
  obtain ⟨other, leftOther, counted⟩ := (Option.any_eq_true _ _).mp begun
  exact ⟨⟨receiver, leftReceiver_eq left, of_decide_eq_true exceeded⟩,
    other, leftReceiver_eq leftOther, of_decide_eq_true counted⟩

end BoostUdp
