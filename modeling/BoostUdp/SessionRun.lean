import BoostUdp.Server.ReceiveLoop
import BoostUdp.Server.Refinement

/-!
# Runs of the receive loop

Both receive wrappers either leave the receiver alone or ingest what they
received.  A loop over either of them therefore ends in the state its
received buffers lead to.
-/

namespace BoostUdp

open LittleEndian

/-- A wrapper around a receive call.  `data` is what the call delivers to
`ingest_fragment`, if anything. -/
structure ReceiveWrapper (ρ : Type) where
  receive : Receiver → ρ → Except RunError (Bool × Receiver)
  data : ρ → Option (List Byte)
  ignores : ∀ {receiver outcome got after}, data outcome = none →
    receive receiver outcome = .ok (got, after) →
    got = false ∧ after = receiver
  delivers : ∀ {receiver outcome buffer}, data outcome = some buffer →
    receive receiver outcome =
      match ingestFragment receiver buffer with
      | none => .error .outOfFuel
      | some receiver => .ok (true, receiver)

def plainReceive : ReceiveWrapper RecvFrom where
  receive := receiveDatagram
  data
    | .received data => some data
    | .failed _ => none
  ignores := by
    intro receiver outcome got after none received
    cases outcome with
    | received data => contradiction
    | failed ec =>
        simp only [receiveDatagram] at received
        split at received
        · cases received
          exact ⟨rfl, rfl⟩
        · contradiction
  delivers := by
    intro receiver outcome buffer some
    cases outcome with
    | failed ec => contradiction
    | received data =>
        cases some
        rfl

theorem receiveUroDatagram_received (receiver : Receiver) (data : List Byte)
    (info : Option Nat) :
    receiveUroDatagram receiver (.received data info) =
      if data.isEmpty then
        .ok (false, receiver)
      else
        match ingestFragment receiver data with
        | none => .error .outOfFuel
        | some receiver => .ok (true, receiver) := by
  cases data with
  | nil => rfl
  | cons byte rest =>
      have whole :
          (byte :: rest).take (byte :: rest).length = byte :: rest :=
        List.take_length
      exact congrArg (fun buffer =>
        match ingestFragment receiver buffer with
        | none => Except.error RunError.outOfFuel
        | some receiver => Except.ok (true, receiver)) whole

theorem receiveUroDatagram_failed (receiver : Receiver) (err : Nat) :
    receiveUroDatagram receiver (.failed err) =
      if err = WSAETIMEDOUT ∨ err = WSAEWOULDBLOCK then
        .ok (false, receiver)
      else
        .error (.runtime ("WSARecvMsg failed: " ++ toString err)) := by
  have capacity :
      ¬(kMaxBatchSize = 0 ∨ kUroMaxCoalescedRecv < kMaxBatchSize) := by
    decide
  by_cases timeout : err = WSAETIMEDOUT ∨ err = WSAEWOULDBLOCK <;>
    simp [receiveUroDatagram, uroRecvMsg, capacity, timeout]

theorem receiveUroDatagram_unavailable (receiver : Receiver) :
    receiveUroDatagram receiver .unavailable =
      .error (.runtime
        "WSARecvMsg not available (SIO_GET_EXTENSION_FUNCTION_POINTER)") :=
  rfl

def uroReceive : ReceiveWrapper WsaRecvMsg where
  receive := receiveUroDatagram
  data
    | .received data _ => if data.isEmpty then none else some data
    | .unavailable => none
    | .failed _ => none
  ignores := by
    intro receiver outcome got after none received
    cases outcome with
    | unavailable =>
        rw [receiveUroDatagram_unavailable] at received
        contradiction
    | failed err =>
        rw [receiveUroDatagram_failed] at received
        split at received
        · cases received
          exact ⟨rfl, rfl⟩
        · contradiction
    | received data info =>
        rw [receiveUroDatagram_received] at received
        by_cases empty : data.isEmpty = true
        · rw [if_pos empty] at received
          cases received
          exact ⟨rfl, rfl⟩
        · simp [empty] at none
  delivers := by
    intro receiver outcome buffer some
    cases outcome with
    | unavailable => contradiction
    | failed err => contradiction
    | received data info =>
        rw [receiveUroDatagram_received]
        by_cases empty : data.isEmpty = true
        · simp [empty] at some
        · simp only [empty, Bool.false_eq_true, if_false,
            Option.some.injEq] at some ⊢
          rw [some]

/-- A deadline that is a millisecond away has not passed, and the time left
does not round to nothing. -/
theorem deadline_ahead {deadline now : Nat}
    (early : now + millisecond ≤ deadline) :
    ¬deadline ≤ now ∧ (deadline - now) / millisecond ≠ 0 := by
  have positive : 0 < millisecond := by decide
  constructor
  · omega
  · apply Nat.ne_of_gt
    apply Nat.div_pos _ positive
    omega

section Runs

variable {ρ : Type} (wrapper : ReceiveWrapper ρ)

/-- What the receive calls of some turns deliver. -/
def ReceiveWrapper.buffers (ticks : List (Tick ρ)) : List (List Byte) :=
  ticks.filterMap fun tick => wrapper.data tick.outcome

/-- A turn that receives puts its buffer in front of the later ones. -/
theorem ReceiveWrapper.received_first {receiver between after : Receiver}
    {got : Bool} {tick : Tick ρ} {ticks : List (Tick ρ)}
    (received : wrapper.receive receiver tick.outcome = .ok (got, between))
    (later : ∃ used, used <+: ticks ∧
      ingestAll between (wrapper.buffers used) = some after) :
    ∃ used, used <+: tick :: ticks ∧
      ingestAll receiver (wrapper.buffers used) = some after := by
  obtain ⟨used, front, ingested⟩ := later
  refine ⟨tick :: used, List.cons_prefix_cons.mpr ⟨rfl, front⟩, ?_⟩
  cases delivered : wrapper.data tick.outcome with
  | none =>
      obtain ⟨_, rfl⟩ := wrapper.ignores delivered received
      simpa [ReceiveWrapper.buffers, delivered] using ingested
  | some buffer =>
      rw [wrapper.delivers delivered] at received
      cases onward : ingestFragment receiver buffer with
      | none =>
          rw [onward] at received
          contradiction
      | some between =>
          rw [onward] at received
          cases received
          simpa [ReceiveWrapper.buffers, delivered, ingestAll, onward]
            using ingested

/-- The counting loop leaves in the state that the buffers of its turns lead
to. -/
theorem countLoop_left {wantBatches : Nat} {idleDeadline : Option Nat}
    {receiver after : Receiver} {ticks rest : List (Tick ρ)}
    (left : countLoop wrapper.receive wantBatches idleDeadline receiver
      ticks = .ok (.left after rest)) :
    ∃ used, used <+: ticks ∧
      ingestAll receiver (wrapper.buffers used) = some after := by
  induction ticks generalizing idleDeadline receiver with
  | nil =>
      rw [countLoop] at left
      split at left
      · cases left
        exact ⟨[], List.prefix_rfl, rfl⟩
      · cases left
  | cons tick ticks induction =>
      by_cases enough : wantBatches ≤ receiver.stats.batches
      · rw [countLoop_enough enough] at left
        cases left
        exact ⟨[], List.nil_prefix, rfl⟩
      · by_cases expired :
            (idleDeadline.any fun deadline => deadline ≤ tick.now) = true ∧
              (!receiver.reassembly.active) = true
        · rw [countLoop, if_neg enough, if_pos expired] at left
          cases left
          exact ⟨[], List.nil_prefix, rfl⟩
        · rw [countLoop_receives enough expired] at left
          rcases received : wrapper.receive receiver tick.outcome with
            error | ⟨_ | _, between⟩
          · simp only [received] at left
            contradiction
          · simp only [received] at left
            apply wrapper.received_first received
            by_cases waiting : idleDeadline.isNone = true
            · rw [if_pos waiting] at left
              exact induction left
            · rw [if_neg waiting] at left
              cases left
              exact ⟨[], List.nil_prefix, rfl⟩
          · simp only [received] at left
            exact wrapper.received_first received (induction left)

/-- A turn of the idle loop that gets to its receive call. -/
theorem idleLoop_receives {idleDeadline : Option Nat} {tick : Tick ρ}
    (timely : ∀ deadline, idleDeadline = some deadline →
      tick.now + millisecond ≤ deadline ∧ tick.readable = true)
    (receiver : Receiver) (ticks : List (Tick ρ)) :
    idleLoop wrapper.receive idleDeadline receiver (tick :: ticks) =
      match wrapper.receive receiver tick.outcome with
      | .error error => .error error
      | .ok (false, receiver) =>
          if idleDeadline.isNone then
            idleLoop wrapper.receive idleDeadline receiver ticks
          else
            .ok (.left receiver ticks)
      | .ok (true, receiver) =>
          idleLoop wrapper.receive (some (tick.after + kIdleTimeout))
            receiver ticks := by
  cases idleDeadline with
  | none => rfl
  | some deadline =>
      obtain ⟨early, readable⟩ := timely deadline rfl
      obtain ⟨pending, remaining⟩ := deadline_ahead early
      calc idleLoop wrapper.receive (some deadline) receiver (tick :: ticks)
        _ = _ := if_neg pending
        _ = _ := if_neg remaining
        _ = _ := if_neg (by simp [readable])

/-- A turn of the idle loop that finds its time over. -/
theorem idleLoop_timesOut {deadline : Nat} {tick : Tick ρ}
    (finished : deadline ≤ tick.now ∨
      tick.now + millisecond ≤ deadline ∧ tick.readable = false)
    (receiver : Receiver) (ticks : List (Tick ρ)) :
    idleLoop wrapper.receive (some deadline) receiver (tick :: ticks) =
      .ok (.left receiver ticks) := by
  rcases finished with expired | ⟨early, silent⟩
  · simp only [idleLoop, if_pos expired]
  · obtain ⟨pending, remaining⟩ := deadline_ahead early
    simp only [idleLoop, if_neg pending, if_neg remaining, silent,
      Bool.not_false, if_true]

/-- The receiver of a loop that has left with nothing unread. -/
def leftReceiver : Except RunError (LoopEnd ρ) → Option Receiver
  | .ok (.left receiver []) => some receiver
  | _ => none

theorem leftReceiver_eq {result : Except RunError (LoopEnd ρ)}
    {receiver : Receiver} (left : leftReceiver result = some receiver) :
    result = .ok (.left receiver []) := by
  unfold leftReceiver at left
  split at left
  · cases left
    rfl
  · contradiction

end Runs

end BoostUdp
