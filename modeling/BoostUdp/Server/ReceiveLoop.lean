import BoostUdp.Server.Ingest

/-!
# The receive loop

`run_receive_loop` with its two receive wrappers.  A `Tick` is what the clock
and the socket show to one turn of the loop; a loop that runs out of ticks is
blocked in its receive call.  Only what is printed is left out.
-/

namespace BoostUdp

open LittleEndian

inductive ErrorCode where
  | timedOut
  | tryAgain
  | wouldBlock
  | other (value : Nat)
  deriving DecidableEq, Repr

def isReceiveTimeout : ErrorCode → Bool
  | .timedOut | .tryAgain | .wouldBlock => true
  | .other _ => false

/-- What `receive_from` reports, with the bytes it wrote into the buffer. -/
inductive RecvFrom where
  | received (data : List Byte)
  | failed (ec : ErrorCode)
  deriving DecidableEq, Repr

/-- How a session ends without a summary. -/
inductive RunError where
  | system (ec : ErrorCode)
  | runtime (message : String)
  | outOfFuel
  deriving DecidableEq, Repr

def receiveDatagram (receiver : Receiver) (outcome : RecvFrom) :
    Except RunError (Bool × Receiver) :=
  match outcome with
  | .failed ec =>
      if isReceiveTimeout ec then .ok (false, receiver)
      else .error (.system ec)
  | .received data =>
      match ingestFragment receiver data with
      | none => .error .outOfFuel
      | some receiver => .ok (true, receiver)

/-- What `WSARecvMsg` reports; `info` is the `UDP_COALESCED_INFO` control
message. -/
inductive WsaRecvMsg where
  | unavailable
  | received (data : List Byte) (info : Option Nat)
  | failed (err : Nat)
  deriving DecidableEq, Repr

def kUroMaxCoalescedRecv : Nat := 64 * 1024
def WSAETIMEDOUT : Nat := 10060
def WSAEWOULDBLOCK : Nat := 10035

structure UroRecvResult where
  success : Bool := false
  bytesReceived : Nat := 0
  coalesced : Bool := false
  segmentSize : Nat := 0
  error : String := ""
  deriving DecidableEq, Repr

/-- The result and what is in the buffer after the call. -/
def uroRecvMsg (bufferCapacity : Nat) (outcome : WsaRecvMsg) :
    UroRecvResult × List Byte :=
  if bufferCapacity = 0 ∨ kUroMaxCoalescedRecv < bufferCapacity then
    ({ error := "invalid receive buffer size" }, [])
  else
    match outcome with
    | .unavailable =>
        ({ error :=
            "WSARecvMsg not available (SIO_GET_EXTENSION_FUNCTION_POINTER)" },
          [])
    | .failed err =>
        if err = WSAETIMEDOUT ∨ err = WSAEWOULDBLOCK then
          ({ success := false, bytesReceived := 0 }, [])
        else
          ({ error := "WSARecvMsg failed: " ++ toString err }, [])
    | .received data info =>
        ({ success := true
           bytesReceived := data.length
           coalesced := info.isSome
           segmentSize := info.getD 0 }, data)

def receiveUroDatagram (receiver : Receiver) (outcome : WsaRecvMsg) :
    Except RunError (Bool × Receiver) :=
  let (result, buffer) := uroRecvMsg kMaxBatchSize outcome
  if !result.success then
    if result.bytesReceived = 0 ∧ result.error.isEmpty then
      .ok (false, receiver)
    else if !result.error.isEmpty then
      .error (.runtime result.error)
    else
      .ok (false, receiver)
  else if result.bytesReceived ≤ 0 then
    .ok (false, receiver)
  else
    match ingestFragment receiver (buffer.take result.bytesReceived) with
    | none => .error .outOfFuel
    | some receiver => .ok (true, receiver)

/-- In nanoseconds, as all times here. -/
def kIdleTimeout : Nat := 3 * 10 ^ 9

def millisecond : Nat := 10 ^ 6

/-- The clock at the top of a turn and after its receive, whether the socket
became readable in time, and what the receive call would report.  A turn that
does not get that far does not read the later fields. -/
structure Tick (ρ : Type) where
  now : Nat
  readable : Bool
  outcome : ρ
  after : Nat

/-- Where the loop is when the ticks are used up or it has left. -/
inductive LoopEnd (ρ : Type) where
  | left (receiver : Receiver) (rest : List (Tick ρ))
  | waiting (receiver : Receiver)

section Loops

variable {ρ : Type}
  (receiveOne : Receiver → ρ → Except RunError (Bool × Receiver))

/-- The loop without `--count`: block for the first datagram, then until
there has been nothing for the idle timeout. -/
def idleLoop :
    Option Nat → Receiver → List (Tick ρ) → Except RunError (LoopEnd ρ)
  | _, receiver, [] => .ok (.waiting receiver)
  | idleDeadline, receiver, tick :: ticks =>
      let receive := fun (_ : Unit) =>
        match receiveOne receiver tick.outcome with
        | .error error => .error error
        | .ok (false, receiver) =>
            if idleDeadline.isNone then
              idleLoop idleDeadline receiver ticks
            else
              .ok (.left receiver ticks)
        | .ok (true, receiver) =>
            idleLoop (some (tick.after + kIdleTimeout)) receiver ticks
      match idleDeadline with
      | none => receive ()
      | some deadline =>
          if deadline ≤ tick.now then
            .ok (.left receiver ticks)
          else
            let remaining := (deadline - tick.now) / millisecond
            if remaining = 0 then
              idleLoop (some deadline) receiver ticks
            else if !tick.readable then
              .ok (.left receiver ticks)
            else
              receive ()

/-- The loop with `--count`. -/
def countLoop (wantBatches : Nat) :
    Option Nat → Receiver → List (Tick ρ) → Except RunError (LoopEnd ρ)
  | _, receiver, [] =>
      if wantBatches ≤ receiver.stats.batches then
        .ok (.left receiver [])
      else
        .ok (.waiting receiver)
  | idleDeadline, receiver, tick :: ticks =>
      if wantBatches ≤ receiver.stats.batches then
        .ok (.left receiver (tick :: ticks))
      else if idleDeadline.any (fun deadline => deadline ≤ tick.now) ∧
          !receiver.reassembly.active then
        .ok (.left receiver ticks)
      else
        match receiveOne receiver tick.outcome with
        | .error error => .error error
        | .ok (false, receiver) =>
            if idleDeadline.isNone then
              countLoop wantBatches idleDeadline receiver ticks
            else
              .ok (.left receiver ticks)
        | .ok (true, receiver) =>
            if wantBatches ≤ receiver.stats.batches then
              .ok (.left receiver ticks)
            else
              countLoop wantBatches (some (tick.after + kIdleTimeout))
                receiver ticks

end Loops

section Turns

variable {ρ : Type}
  {receiveOne : Receiver → ρ → Except RunError (Bool × Receiver)}
  {wantBatches : Nat} {receiver : Receiver}

/-- A loop that has its batches leaves at once. -/
theorem countLoop_enough (enough : wantBatches ≤ receiver.stats.batches)
    (idleDeadline : Option Nat) (ticks : List (Tick ρ)) :
    countLoop receiveOne wantBatches idleDeadline receiver ticks =
      .ok (.left receiver ticks) := by
  cases ticks with
  | nil => exact if_pos enough
  | cons tick ticks => exact if_pos enough

/-- A turn that gets to its receive call.  The test of the count behind it is
that at the top of the next turn. -/
theorem countLoop_receives {idleDeadline : Option Nat} {tick : Tick ρ}
    (wanted : ¬wantBatches ≤ receiver.stats.batches)
    (pending : ¬((idleDeadline.any fun deadline => deadline ≤ tick.now) = true ∧
      (!receiver.reassembly.active) = true)) (ticks : List (Tick ρ)) :
    countLoop receiveOne wantBatches idleDeadline receiver (tick :: ticks) =
      match receiveOne receiver tick.outcome with
      | .error error => .error error
      | .ok (false, receiver) =>
          if idleDeadline.isNone then
            countLoop receiveOne wantBatches idleDeadline receiver ticks
          else
            .ok (.left receiver ticks)
      | .ok (true, receiver) =>
          countLoop receiveOne wantBatches (some (tick.after + kIdleTimeout))
            receiver ticks := by
  rw [countLoop, if_neg wanted, if_neg pending]
  rcases receiveOne receiver tick.outcome with error | ⟨_ | _, between⟩
  · rfl
  · rfl
  · dsimp only
    by_cases enough : wantBatches ≤ between.stats.batches
    · rw [if_pos enough, countLoop_enough enough]
    · rw [if_neg enough]

end Turns

/-- A reassembly that is active when the session ends is a bad batch. -/
def closeSession (receiver : Receiver) : Receiver :=
  if receiver.reassembly.active then
    receiver.countBad.resetReassembly
  else
    receiver

/-- The statistics the summary prints. -/
def sessionSummary (batchCount : Option Nat) (receiver : Receiver) :
    Option ServerStats :=
  finalizeLost (closeSession receiver).stats batchCount

inductive SessionEnd (ρ : Type) where
  | summary (stats : ServerStats) (rest : List (Tick ρ))
  | waiting (receiver : Receiver)
  /-- The loop of `finalize_lost` does not end. -/
  | endless

def runReceiveLoop {ρ : Type}
    (receiveOne : Receiver → ρ → Except RunError (Bool × Receiver))
    (batchCount : Option Nat) (ticks : List (Tick ρ)) :
    Except RunError (SessionEnd ρ) :=
  let loop :=
    match batchCount with
    | some wantBatches => countLoop receiveOne wantBatches none {} ticks
    | none => idleLoop receiveOne none {} ticks
  match loop with
  | .error error => .error error
  | .ok (.waiting receiver) => .ok (.waiting receiver)
  | .ok (.left receiver rest) =>
      match sessionSummary batchCount receiver with
      | none => .ok .endless
      | some stats => .ok (.summary stats rest)

section Sessions

variable {ρ : Type}
  {receiveOne : Receiver → ρ → Except RunError (Bool × Receiver)}
  {batchCount : Option Nat} {ticks : List (Tick ρ)}

/-- The loop of a session, with `--count` or without. -/
def receiveLoop (receiveOne : Receiver → ρ → Except RunError (Bool × Receiver))
    (batchCount : Option Nat) (ticks : List (Tick ρ)) :
    Except RunError (LoopEnd ρ) :=
  match batchCount with
  | some wantBatches => countLoop receiveOne wantBatches none {} ticks
  | none => idleLoop receiveOne none {} ticks

theorem runReceiveLoop_eq :
    runReceiveLoop receiveOne batchCount ticks =
      match receiveLoop receiveOne batchCount ticks with
      | .error error => .error error
      | .ok (.waiting receiver) => .ok (.waiting receiver)
      | .ok (.left receiver rest) =>
          match sessionSummary batchCount receiver with
          | none => .ok .endless
          | some stats => .ok (.summary stats rest) := by
  cases batchCount with
  | none => rfl
  | some wantBatches => rfl

theorem runReceiveLoop_summary_iff {rest : List (Tick ρ)}
    {stats : ServerStats} :
    runReceiveLoop receiveOne batchCount ticks = .ok (.summary stats rest) ↔
      ∃ receiver, receiveLoop receiveOne batchCount ticks =
          .ok (.left receiver rest) ∧
        sessionSummary batchCount receiver = some stats := by
  rw [runReceiveLoop_eq]
  constructor
  · intro finished
    cases loop : receiveLoop receiveOne batchCount ticks with
    | error error => simp only [loop, reduceCtorEq] at finished
    | ok loopEnd =>
        cases loopEnd with
        | waiting receiver =>
            simp only [loop, Except.ok.injEq, reduceCtorEq] at finished
        | left receiver rest' =>
            cases summarised : sessionSummary batchCount receiver with
            | none =>
                simp only [loop, summarised, Except.ok.injEq,
                  reduceCtorEq] at finished
            | some summary =>
                simp only [loop, summarised, Except.ok.injEq,
                  SessionEnd.summary.injEq] at finished
                obtain ⟨rfl, rfl⟩ := finished
                exact ⟨receiver, rfl, summarised⟩
  · rintro ⟨receiver, left, summarised⟩
    simp only [left, summarised]

theorem runReceiveLoop_endless_iff :
    runReceiveLoop receiveOne batchCount ticks = .ok .endless ↔
      ∃ receiver rest, receiveLoop receiveOne batchCount ticks =
          .ok (.left receiver rest) ∧
        sessionSummary batchCount receiver = none := by
  rw [runReceiveLoop_eq]
  constructor
  · intro finished
    cases loop : receiveLoop receiveOne batchCount ticks with
    | error error => simp only [loop, reduceCtorEq] at finished
    | ok loopEnd =>
        cases loopEnd with
        | waiting receiver =>
            simp only [loop, Except.ok.injEq, reduceCtorEq] at finished
        | left receiver rest =>
            cases summarised : sessionSummary batchCount receiver with
            | none => exact ⟨receiver, rest, rfl, summarised⟩
            | some summary =>
                simp only [loop, summarised, Except.ok.injEq,
                  reduceCtorEq] at finished
  · rintro ⟨receiver, rest, left, summarised⟩
    simp only [left, summarised]

end Sessions

end BoostUdp
