import BoostUdp.ReceivePaths
import BoostUdp.Server.TracedLoop

/-!
# What the fragment count counts

`ingest_fragment` counts its calls, the nested ones on salvaged tails
included.  The printed number is the number of receives that delivered a
datagram in exactly those sessions that salvage nothing.
-/

namespace BoostUdp

open LittleEndian StreamMachine

/-- The outcomes of the receive calls. -/
def outcomes {ρ : Type} : Recorder ρ ρ :=
  { wait := fun _ _ => []
    receive := fun _ tick _ => [tick.outcome] }

/-- The receive calls of a session, by what they report. -/
def sessionReceives {ρ : Type}
    (receiveOne : Receiver → ρ → Except RunError (Bool × Receiver))
    (batchCount : Option Nat) (ticks : List (Tick ρ)) : List ρ :=
  (receiveLoopTraced outcomes receiveOne batchCount ticks).2

section Deliveries

variable {ρ : Type} (wrapper : ReceiveWrapper ρ)

/-- One receive call in front of the later ones. -/
theorem ReceiveWrapper.ingest_cons {receiver between after : Receiver}
    {got : Bool} {outcome : ρ} {later : List ρ}
    (received : wrapper.receive receiver outcome = .ok (got, between))
    (ingested : ingestAll between (later.filterMap wrapper.data) =
      some after) :
    ingestAll receiver ((outcome :: later).filterMap wrapper.data) =
      some after := by
  cases delivered : wrapper.data outcome with
  | none =>
      obtain ⟨_, rfl⟩ := wrapper.ignores delivered received
      rw [List.filterMap_cons_none delivered]
      exact ingested
  | some buffer =>
      rw [wrapper.delivers delivered] at received
      cases onward : ingestFragment receiver buffer with
      | none =>
          rw [onward] at received
          contradiction
      | some next =>
          rw [onward] at received
          cases received
          rw [List.filterMap_cons_some delivered]
          simpa [ingestAll, onward] using ingested

/-- A run that leaves its loop does so in the state that the deliveries of its
receive calls lead to. -/
def Ingests (receiver : Receiver) (run : Traced ρ ρ) : Prop :=
  ∀ after rest, run.1 = .ok (.left after rest) →
    ingestAll receiver (run.2.filterMap wrapper.data) = some after

theorem receiveTurn_ingests (idleDeadline : Option Nat) (receiver : Receiver)
    (tick : Tick ρ) (ticks : List (Tick ρ))
    {onward : Option Nat → Receiver → Traced ρ ρ}
    (ingests : ∀ idleDeadline receiver,
      Ingests wrapper receiver (onward idleDeadline receiver)) :
    Ingests wrapper receiver
      (receiveTurn outcomes wrapper.receive idleDeadline receiver tick ticks
        onward) := by
  intro after rest left
  unfold receiveTurn at left ⊢
  rcases received : wrapper.receive receiver tick.outcome with
    error | ⟨_ | _, between⟩
  · rw [received] at left
    contradiction
  · rw [received] at left
    apply wrapper.ingest_cons received
    cases idleDeadline with
    | none => exact ingests none between after rest left
    | some deadline =>
        cases left
        rfl
  · rw [received] at left
    apply wrapper.ingest_cons received
    exact ingests _ between after rest left

theorem idleLoop_ingests (idleDeadline : Option Nat) (receiver : Receiver)
    (ticks : List (Tick ρ)) :
    Ingests wrapper receiver
      (idleLoopTraced outcomes wrapper.receive idleDeadline receiver
        ticks) := by
  induction ticks generalizing idleDeadline receiver with
  | nil =>
      intro after rest left
      cases left
  | cons tick ticks induction =>
      have received := receiveTurn_ingests wrapper idleDeadline receiver tick
        ticks induction
      unfold idleLoopTraced
      cases idleDeadline with
      | none => exact received
      | some deadline =>
          dsimp only
          by_cases expired : deadline ≤ tick.now
          · rw [if_pos expired]
            intro after rest left
            cases left
            rfl
          rw [if_neg expired]
          by_cases short : (deadline - tick.now) / millisecond = 0
          · rw [if_pos short]
            exact induction (some deadline) receiver
          rw [if_neg short]
          cases tick.readable with
          | false =>
              intro after rest left
              cases left
              rfl
          | true => exact received

theorem countLoop_ingests (wantBatches : Nat) (idleDeadline : Option Nat)
    (receiver : Receiver) (ticks : List (Tick ρ)) :
    Ingests wrapper receiver
      (countLoopTraced outcomes wrapper.receive wantBatches idleDeadline
        receiver ticks) := by
  induction ticks generalizing idleDeadline receiver with
  | nil =>
      unfold countLoopTraced
      by_cases enough : wantBatches ≤ receiver.stats.batches
      · rw [if_pos enough]
        intro after rest left
        cases left
        rfl
      · rw [if_neg enough]
        intro after rest left
        cases left
  | cons tick ticks induction =>
      unfold countLoopTraced
      by_cases enough : wantBatches ≤ receiver.stats.batches
      · rw [if_pos enough]
        intro after rest left
        cases left
        rfl
      rw [if_neg enough]
      by_cases expired : (idleDeadline.any fun deadline =>
          deadline ≤ tick.now) = true ∧ (!receiver.reassembly.active) = true
      · rw [if_pos expired]
        intro after rest left
        cases left
        rfl
      rw [if_neg expired]
      exact receiveTurn_ingests wrapper idleDeadline receiver tick ticks
        induction

theorem receiveLoop_ingests {batchCount : Option Nat}
    {ticks rest : List (Tick ρ)} {after : Receiver}
    (left : receiveLoop wrapper.receive batchCount ticks =
      .ok (.left after rest)) :
    ingestAll {} ((sessionReceives wrapper.receive batchCount
      ticks).filterMap wrapper.data) = some after := by
  rw [← receiveLoopTraced_result] at left
  cases batchCount with
  | none => exact idleLoop_ingests wrapper none {} ticks after rest left
  | some wantBatches =>
      exact countLoop_ingests wrapper wantBatches none {} ticks after rest left

/-- What a session that prints its summary has received. -/
theorem runReceiveLoop_ingests {batchCount : Option Nat}
    {ticks rest : List (Tick ρ)} {stats : ServerStats}
    (finished : runReceiveLoop wrapper.receive batchCount ticks =
      .ok (.summary stats rest)) :
    ∃ receiver,
      ingestAll {} ((sessionReceives wrapper.receive batchCount
        ticks).filterMap wrapper.data) = some receiver ∧
      sessionSummary batchCount receiver = some stats := by
  obtain ⟨receiver, left, summarised⟩ :=
    runReceiveLoop_summary_iff.mp finished
  exact ⟨receiver, receiveLoop_ingests wrapper left, summarised⟩

end Deliveries

/-- No batch that the scan of the stream collects in full fails and has a tail
worth salvaging. -/
def SalvageFree (stream : List Byte) : Prop :=
  ∀ config, scanner.Reaches (ScanConfig.fresh.extend stream) config →
    ∀ expected, config.state.collecting = some expected →
      expected.value ≤ config.pending.length →
      kPacketHeaderSize < config.pending.length →
      ValidBatch (config.pending.take expected.value) ∨
        ∀ offset, ¬Rescued (PacketHeader.decode config.pending).batchTotal
          (config.pending.take expected.value) offset

theorem countP_isSalvaged_eq_zero_iff (stream : List Byte) :
    ((scan stream).trail.map Prod.snd).countP Verdict.isSalvaged = 0 ↔
      SalvageFree stream := by
  rw [List.countP_eq_zero]
  constructor
  · intro none config reaches expected collecting arrived beyond
    by_contra failed
    push Not at failed
    obtain ⟨invalid, offset, rescued⟩ := failed
    have standing : Standing stream config :=
      reaches.invariant (Standing stream) Standing.advance
        (standing_start stream)
    have total := (standing.announced expected collecting).2.2
    have state : config.state =
        { total := some (PacketHeader.decode config.pending).batchTotal
          collecting := some expected } := by
      rw [← total, ← collecting]
    have kept := reaches.trail_prefix
      (advance_reject state arrived beyond invalid)
    have member := kept.subset
      (List.mem_append_right config.trail List.mem_cons_self)
    have silent := none _ (List.mem_map_of_mem member)
    have inside := rescued.1.complete
    have positive := kPacketHeaderSize_pos
    rw [salvaged_rescued rescued] at silent
    simp only [Verdict.isSalvaged, List.length_drop, decide_eq_true_eq] at silent
    omega
  · intro free verdict member salvages
    obtain ⟨entry, made, rfl⟩ := List.mem_map.mp member
    obtain ⟨before, after, split⟩ := List.append_of_mem made
    obtain ⟨current, next, reaches, advanced, trail, nextTrail⟩ :=
      scanner.exists_output_move scanStep_single
        (ScanConfig.fresh.extend stream) (Nat.zero_le _) split
    have standing : Standing stream current :=
      reaches.invariant (Standing stream) Standing.advance
        (standing_start stream)
    rw [← trail] at nextTrail
    cases advance_cases advanced with
    | header header =>
        have last := List.append_cancel_left nextTrail
        cases last
        contradiction
    | skip =>
        simp at nextTrail
    | accept =>
        have last := List.append_cancel_left nextTrail
        cases last
        contradiction
    | reject expected collecting arrived beyond invalid =>
        have last := List.append_cancel_left nextTrail
        cases last
        have total := (standing.announced expected collecting).2.2
        have carried : salvaged current.state.total
            (current.pending.take expected.value) ≠ [] := by
          intro none
          simp [Verdict.isSalvaged, none] at salvages
        rw [total] at carried
        obtain ⟨offset, rescued⟩ := rescued_of_salvaged carried
        rcases free current reaches expected collecting arrived beyond with
          valid | hopeless
        · exact invalid valid
        · exact hopeless offset rescued

/-- The printed fragment count is the number of receive calls that delivered a
datagram if and only if nothing in the received stream is salvaged. -/
theorem fragments_eq_deliveries_iff {ρ : Type} (wrapper : ReceiveWrapper ρ)
    {batchCount : Option Nat} {ticks rest : List (Tick ρ)}
    {stats : ServerStats}
    (finished : runReceiveLoop wrapper.receive batchCount ticks =
      .ok (.summary stats rest)) :
    stats.fragments = ((sessionReceives wrapper.receive batchCount
        ticks).filterMap wrapper.data).length ↔
      SalvageFree ((sessionReceives wrapper.receive batchCount
        ticks).filterMap wrapper.data).flatten := by
  obtain ⟨receiver, ingested, summarised⟩ :=
    runReceiveLoop_ingests wrapper finished
  have tracks := tracks_of_ingestAll ingested
  obtain ⟨lost, rfl⟩ := sessionSummary_frame summarised
  have fragments := tracks.logged.fragments
  rw [← countP_isSalvaged_eq_zero_iff, tracks.logged.trail]
  simp only
  omega

/-- A batch that is accepted, and one that fails with nothing in it to
salvage. -/
def acceptedThenCorrupt : List (List Byte) :=
  [encodeBatch 0 2 [0x50#8], (blankHeader 1 2 21).encode ++ [0x44#8]]

theorem fragments_eq_deliveries_iff_corrupt :
    ∃ stats,
      runReceiveLoop receiveDatagram none
          (plainTicks (atOnce acceptedThenCorrupt) 0) =
          .ok (.summary stats []) ∧
        stats.fragments = 2 ∧ stats.batches = 1 ∧ stats.badBatches = 1 ∧
        SalvageFree acceptedThenCorrupt.flatten := by
  have found : (leftReceiver (idleLoop receiveDatagram none {}
      (plainTicks (atOnce acceptedThenCorrupt) 0))).any (fun receiver =>
        (closeSession receiver).stats.fragments = 2 ∧
          (closeSession receiver).stats.batches = 1 ∧
          (closeSession receiver).stats.badBatches = 1 ∧
          (closeSession receiver).stats.wireBatchTotal = some 2) = true := by
    decide +kernel
  have deliveries : (sessionReceives receiveDatagram none
      (plainTicks (atOnce acceptedThenCorrupt) 0)).filterMap
        plainReceive.data = acceptedThenCorrupt := by
    decide +kernel
  obtain ⟨receiver, left, checked⟩ := (Option.any_eq_true _ _).mp found
  obtain ⟨fragments, batches, bad, wire⟩ := of_decide_eq_true checked
  have summarised : sessionSummary none receiver = _ :=
    finalizeLost_total wire (by decide)
  have finished := runReceiveLoop_idle.mpr
    ⟨receiver, leftReceiver_eq left, summarised⟩
  have free := fragments_eq_deliveries_iff plainReceive finished
  rw [show plainReceive.receive = receiveDatagram from rfl, deliveries] at free
  exact ⟨_, finished, fragments, batches, bad, free.mp fragments⟩

/-- One datagram is received and two fragments are printed. -/
theorem salvage_counts_as_fragment :
    (∃ stats, runReceiveLoop receiveDatagram none
        (plainTicks (atOnce [salvagedDatagram]) 0) =
          .ok (.summary stats []) ∧ stats.fragments = 2) ∧
      (sessionReceives receiveDatagram none
        (plainTicks (atOnce [salvagedDatagram]) 0)).filterMap
          plainReceive.data = [salvagedDatagram] := by
  have found : (leftReceiver (idleLoop receiveDatagram none {}
      (plainTicks (atOnce [salvagedDatagram]) 0))).any (fun receiver =>
        receiver.stats.fragments = 2 ∧
          receiver.stats.wireBatchTotal = some 2) = true := by
    decide +kernel
  obtain ⟨receiver, left, checked⟩ := (Option.any_eq_true _ _).mp found
  obtain ⟨fragments, wire⟩ := of_decide_eq_true checked
  have closed : (closeSession receiver).stats.wireBatchTotal = some 2 := by
    rw [closeSession_stats]
    exact wire
  have summarised : sessionSummary none receiver = _ :=
    finalizeLost_total closed (by decide)
  refine ⟨⟨_, runReceiveLoop_idle.mpr
    ⟨receiver, leftReceiver_eq left, summarised⟩, ?_⟩, by decide +kernel⟩
  rw [closeSession_stats]
  exact fragments

end BoostUdp
