import BoostUdp.Server.ReceiveLoop

/-!
# The receive loops with their calls

The two loops of a session once more, with a record of the calls that may
block.  What is recorded of a call is up to the recorder, and what the loops
compute does not depend on it.
-/

namespace BoostUdp

/-- What is recorded of a wait, with its milliseconds and whether the socket
became readable, and of a receive call, with the deadline in force, its turn
and whether it brought a datagram. -/
structure Recorder (ρ κ : Type) where
  wait : Nat → Bool → List κ
  receive : Option Nat → Tick ρ → Bool → List κ

/-- How a loop ends, and what was recorded. -/
abbrev Traced (ρ κ : Type) := Except RunError (LoopEnd ρ) × List κ

/-- A run behind earlier calls. -/
def Traced.behind {ρ κ : Type} (calls : List κ) (run : Traced ρ κ) :
    Traced ρ κ :=
  (run.1, calls ++ run.2)

section Loops

variable {ρ κ : Type} (recorder : Recorder ρ κ)
  (receiveOne : Receiver → ρ → Except RunError (Bool × Receiver))

/-- The receive call of a turn, with the turns behind it. -/
def receiveTurn (idleDeadline : Option Nat) (receiver : Receiver)
    (tick : Tick ρ) (ticks : List (Tick ρ))
    (onward : Option Nat → Receiver → Traced ρ κ) : Traced ρ κ :=
  match receiveOne receiver tick.outcome with
  | .error error =>
      (.error error, recorder.receive idleDeadline tick false)
  | .ok (false, receiver) =>
      .behind (recorder.receive idleDeadline tick false)
        (if idleDeadline.isNone then
          onward idleDeadline receiver
        else
          (.ok (.left receiver ticks), []))
  | .ok (true, receiver) =>
      .behind (recorder.receive idleDeadline tick true)
        (onward (some (tick.after + kIdleTimeout)) receiver)

/-- `idleLoop` with its calls. -/
def idleLoopTraced :
    Option Nat → Receiver → List (Tick ρ) → Traced ρ κ
  | _, receiver, [] => (.ok (.waiting receiver), [])
  | idleDeadline, receiver, tick :: ticks =>
      let receive := receiveTurn recorder receiveOne idleDeadline receiver tick
        ticks (fun idleDeadline receiver =>
          idleLoopTraced idleDeadline receiver ticks)
      match idleDeadline with
      | none => receive
      | some deadline =>
          if deadline ≤ tick.now then
            (.ok (.left receiver ticks), [])
          else
            let remaining := (deadline - tick.now) / millisecond
            if remaining = 0 then
              idleLoopTraced (some deadline) receiver ticks
            else if !tick.readable then
              (.ok (.left receiver ticks), recorder.wait remaining false)
            else
              receive.behind (recorder.wait remaining true)

/-- `countLoop` with its calls. -/
def countLoopTraced (wantBatches : Nat) :
    Option Nat → Receiver → List (Tick ρ) → Traced ρ κ
  | _, receiver, [] =>
      if wantBatches ≤ receiver.stats.batches then
        (.ok (.left receiver []), [])
      else
        (.ok (.waiting receiver), [])
  | idleDeadline, receiver, tick :: ticks =>
      if wantBatches ≤ receiver.stats.batches then
        (.ok (.left receiver (tick :: ticks)), [])
      else if idleDeadline.any (fun deadline => deadline ≤ tick.now) ∧
          !receiver.reassembly.active then
        (.ok (.left receiver ticks), [])
      else
        receiveTurn recorder receiveOne idleDeadline receiver tick ticks
          (fun idleDeadline receiver =>
            countLoopTraced wantBatches idleDeadline receiver ticks)

/-- The loop of a session with its calls. -/
def receiveLoopTraced (batchCount : Option Nat) (ticks : List (Tick ρ)) :
    Traced ρ κ :=
  match batchCount with
  | some wantBatches =>
      countLoopTraced recorder receiveOne wantBatches none {} ticks
  | none => idleLoopTraced recorder receiveOne none {} ticks

end Loops

section Results

variable {ρ κ : Type} {recorder : Recorder ρ κ}
  {receiveOne : Receiver → ρ → Except RunError (Bool × Receiver)}

theorem receiveTurn_result (idleDeadline : Option Nat) (receiver : Receiver)
    (tick : Tick ρ) (ticks : List (Tick ρ))
    (onward : Option Nat → Receiver → Traced ρ κ) :
    (receiveTurn recorder receiveOne idleDeadline receiver tick ticks
        onward).1 =
      match receiveOne receiver tick.outcome with
      | .error error => .error error
      | .ok (false, receiver) =>
          if idleDeadline.isNone then
            (onward idleDeadline receiver).1
          else
            .ok (.left receiver ticks)
      | .ok (true, receiver) =>
          (onward (some (tick.after + kIdleTimeout)) receiver).1 := by
  unfold receiveTurn
  rcases receiveOne receiver tick.outcome with error | ⟨_ | _, between⟩
  · rfl
  · cases idleDeadline with
    | none => rfl
    | some deadline => rfl
  · rfl

theorem idleLoopTraced_result (idleDeadline : Option Nat)
    (receiver : Receiver) (ticks : List (Tick ρ)) :
    (idleLoopTraced recorder receiveOne idleDeadline receiver ticks).1 =
      idleLoop receiveOne idleDeadline receiver ticks := by
  induction ticks generalizing idleDeadline receiver with
  | nil =>
      unfold idleLoopTraced idleLoop
      rfl
  | cons tick ticks induction =>
      have received := @receiveTurn_result _ _ recorder receiveOne
        idleDeadline receiver tick ticks (fun idleDeadline receiver =>
          idleLoopTraced recorder receiveOne idleDeadline receiver ticks)
      simp only [induction] at received
      unfold idleLoopTraced idleLoop
      cases idleDeadline with
      | none => exact received
      | some deadline =>
          dsimp only
          by_cases expired : deadline ≤ tick.now
          · rw [if_pos expired, if_pos expired]
          · rw [if_neg expired, if_neg expired]
            by_cases short : (deadline - tick.now) / millisecond = 0
            · rw [if_pos short, if_pos short]
              exact induction (some deadline) receiver
            · rw [if_neg short, if_neg short]
              cases tick.readable with
              | false => rfl
              | true => exact received

theorem countLoopTraced_result (wantBatches : Nat) (idleDeadline : Option Nat)
    (receiver : Receiver) (ticks : List (Tick ρ)) :
    (countLoopTraced recorder receiveOne wantBatches idleDeadline receiver
        ticks).1 =
      countLoop receiveOne wantBatches idleDeadline receiver ticks := by
  induction ticks generalizing idleDeadline receiver with
  | nil =>
      unfold countLoopTraced countLoop
      by_cases enough : wantBatches ≤ receiver.stats.batches
      · rw [if_pos enough, if_pos enough]
      · rw [if_neg enough, if_neg enough]
  | cons tick ticks induction =>
      unfold countLoopTraced
      by_cases enough : wantBatches ≤ receiver.stats.batches
      · rw [if_pos enough, countLoop_enough enough]
      by_cases expired : (idleDeadline.any fun deadline =>
          deadline ≤ tick.now) = true ∧ (!receiver.reassembly.active) = true
      · rw [if_neg enough, if_pos expired, countLoop, if_neg enough,
          if_pos expired]
      rw [if_neg enough, if_neg expired, receiveTurn_result,
        countLoop_receives enough expired]
      rcases receiveOne receiver tick.outcome with error | ⟨_ | _, between⟩
      · rfl
      · simp only [induction]
      · exact induction _ between

theorem receiveLoopTraced_result (batchCount : Option Nat)
    (ticks : List (Tick ρ)) :
    (receiveLoopTraced recorder receiveOne batchCount ticks).1 =
      receiveLoop receiveOne batchCount ticks := by
  cases batchCount with
  | none => exact idleLoopTraced_result none {} ticks
  | some wantBatches => exact countLoopTraced_result wantBatches none {} ticks

end Results

end BoostUdp
