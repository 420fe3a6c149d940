import BoostUdp.Cli
import BoostUdp.Server.TracedLoop

/-!
# How long the server waits

The receive timeout that each call of a session finds on the socket, and the
waits in front of the calls.  Only the first datagram of a session is waited
for without a limit.
-/

namespace BoostUdp

/-- The value of `SO_RCVTIMEO`: a `DWORD` of milliseconds, where zero is no
timeout, or a `timeval`. -/
inductive RecvTimeout where
  | dword (milliseconds : BitVec 32)
  | timeval (sec usec : Nat)
  deriving DecidableEq, Repr

/-- A year, in milliseconds. -/
def kBlockingRecvTimeout : Nat := 24 * 365 * 60 * 60 * 1000

section Timeout

variable (platform : Platform)

def setReceiveTimeout (timeout : Nat) : RecvTimeout :=
  match platform with
  | .windows => .dword (BitVec.ofNat 32 timeout)
  | .posix => .timeval (timeout / 1000) (timeout % 1000 * 1000)

def clearReceiveTimeout : RecvTimeout :=
  match platform with
  | .windows => setReceiveTimeout .windows 0
  | .posix => setReceiveTimeout .posix kBlockingRecvTimeout

def applyRecvTimeoutForSession (idleDeadline : Option Nat) (now : Nat) :
    RecvTimeout :=
  match idleDeadline with
  | none => clearReceiveTimeout platform
  | some deadline =>
      let remaining := (deadline - now) / millisecond
      setReceiveTimeout platform (if remaining ≤ 0 then 1 else remaining)

/-- A call that may block: a wait for the socket to become readable, with its
milliseconds and whether it did, or a receive, with the timeout on the socket
and whether it brought a datagram. -/
inductive SocketCall where
  | waitUdpReadable (timeout : Nat) (readable : Bool)
  | receive (timeout : RecvTimeout) (received : Bool)
  deriving DecidableEq, Repr

/-- The timeout that a receive call finds on the socket: without `--count`
there is none. -/
def timeouts {ρ : Type} (batchCount : Option Nat) : Recorder ρ SocketCall :=
  { wait := fun timeout readable => [.waitUdpReadable timeout readable]
    receive := fun idleDeadline tick received =>
      let timeout :=
        match batchCount with
        | some _ => applyRecvTimeoutForSession platform idleDeadline tick.now
        | none => clearReceiveTimeout platform
      [.receive timeout received] }

def sessionCalls {ρ : Type}
    (receiveOne : Receiver → ρ → Except RunError (Bool × Receiver))
    (batchCount : Option Nat) (ticks : List (Tick ρ)) : Traced ρ SocketCall :=
  receiveLoopTraced (timeouts platform batchCount) receiveOne batchCount ticks

end Timeout

/-- The clock never goes back. -/
def Steady {ρ : Type} : Nat → List (Tick ρ) → Prop
  | _, [] => True
  | clock, tick :: ticks =>
      clock ≤ tick.now ∧ tick.now ≤ tick.after ∧ Steady tick.after ticks

/-- A limit of some milliseconds, and at most the idle timeout. -/
def Limited (timeout : Nat) : Prop :=
  1 ≤ timeout ∧ timeout * millisecond ≤ kIdleTimeout

/-- Before the first datagram a session receives without a limit.  Behind it
every receive is limited, or comes behind a limited poll that has found
something, in which case it has no limit; what was found may have vanished by
then.  The first call that brings nothing is the last. -/
inductive Waits (platform : Platform) : Bool → List SocketCall → Prop where
  | nil (traffic : Bool) : Waits platform traffic []
  | again {calls : List SocketCall} :
      Waits platform false calls →
      Waits platform false
        (.receive (clearReceiveTimeout platform) false :: calls)
  | first {calls : List SocketCall} :
      Waits platform true calls →
      Waits platform false
        (.receive (clearReceiveTimeout platform) true :: calls)
  | timedOut {timeout : Nat} :
      Limited timeout →
      Waits platform true
        [.receive (setReceiveTimeout platform timeout) false]
  | received {timeout : Nat} {calls : List SocketCall} :
      Limited timeout → Waits platform true calls →
      Waits platform true
        (.receive (setReceiveTimeout platform timeout) true :: calls)
  | silent {timeout : Nat} :
      Limited timeout →
      Waits platform true [.waitUdpReadable timeout false]
  | vanished {timeout : Nat} :
      Limited timeout →
      Waits platform true
        [.waitUdpReadable timeout true,
          .receive (clearReceiveTimeout platform) false]
  | readable {timeout : Nat} {calls : List SocketCall} :
      Limited timeout → Waits platform true calls →
      Waits platform true
        (.waitUdpReadable timeout true ::
          .receive (clearReceiveTimeout platform) true :: calls)

section Loops

variable {platform : Platform} {ρ : Type}
  {receiveOne : Receiver → ρ → Except RunError (Bool × Receiver)}

theorem limited_remaining {clock deadline now : Nat}
    (bound : deadline ≤ clock + kIdleTimeout) (later : clock ≤ now)
    (some : (deadline - now) / millisecond ≠ 0) :
    Limited ((deadline - now) / millisecond) := by
  have short := Nat.div_mul_le_self (deadline - now) millisecond
  exact ⟨Nat.pos_of_ne_zero some, by omega⟩

/-- Even behind the deadline the timeout is one that runs out. -/
theorem applyRecvTimeout_limited {clock deadline now : Nat}
    (bound : deadline ≤ clock + kIdleTimeout) (later : clock ≤ now) :
    ∃ timeout, Limited timeout ∧
      applyRecvTimeoutForSession platform (some deadline) now =
        setReceiveTimeout platform timeout := by
  unfold applyRecvTimeoutForSession
  dsimp only
  by_cases behind : (deadline - now) / millisecond ≤ 0
  · rw [if_pos behind]
    exact ⟨1, by unfold Limited; decide, rfl⟩
  · rw [if_neg behind]
    exact ⟨_, limited_remaining bound later (by omega), rfl⟩

/-- A datagram sets the deadline anew. -/
theorem deadline_reset (clock : Nat) :
    ∀ deadline ∈ some (clock + kIdleTimeout),
      deadline ≤ clock + kIdleTimeout := by
  intro deadline known
  cases known
  exact Nat.le_refl _

theorem idleLoop_waits {clock : Nat} {ticks : List (Tick ρ)}
    (steady : Steady clock ticks) {idleDeadline : Option Nat}
    (bound : ∀ deadline ∈ idleDeadline, deadline ≤ clock + kIdleTimeout)
    (receiver : Receiver) :
    Waits platform idleDeadline.isSome
      (idleLoopTraced (timeouts platform none) receiveOne idleDeadline
        receiver ticks).2 := by
  induction ticks generalizing clock idleDeadline receiver with
  | nil => exact .nil _
  | cons tick ticks induction =>
      obtain ⟨later, after, steady⟩ := steady
      have next := deadline_reset tick.after
      unfold idleLoopTraced receiveTurn
      cases idleDeadline with
      | none =>
          dsimp only
          rcases receiveOne receiver tick.outcome with
            error | ⟨_ | _, receiver'⟩
          · exact .again (.nil _)
          · exact .again (@induction tick.after steady none (by simp) receiver')
          · exact .first (induction steady next receiver')
      | some deadline =>
          have limit := bound deadline rfl
          dsimp only
          by_cases expired : deadline ≤ tick.now
          · rw [if_pos expired]
            exact .nil _
          rw [if_neg expired]
          by_cases short : (deadline - tick.now) / millisecond = 0
          · rw [if_pos short]
            apply @induction tick.after steady (some deadline)
            intro other known
            cases known
            omega
          rw [if_neg short]
          have limited := limited_remaining limit later short
          cases tick.readable with
          | false => exact .silent limited
          | true =>
              rcases receiveOne receiver tick.outcome with
                error | ⟨_ | _, receiver'⟩
              · exact .vanished limited
              · exact .vanished limited
              · exact .readable limited (induction steady next receiver')

theorem countLoop_waits {wantBatches count clock : Nat}
    {ticks : List (Tick ρ)} (steady : Steady clock ticks)
    {idleDeadline : Option Nat}
    (bound : ∀ deadline ∈ idleDeadline, deadline ≤ clock + kIdleTimeout)
    (receiver : Receiver) :
    Waits platform idleDeadline.isSome
      (countLoopTraced (timeouts platform (some count)) receiveOne
        wantBatches idleDeadline receiver ticks).2 := by
  induction ticks generalizing clock idleDeadline receiver with
  | nil =>
      unfold countLoopTraced
      by_cases enough : wantBatches ≤ receiver.stats.batches
      · rw [if_pos enough]
        exact .nil _
      · rw [if_neg enough]
        exact .nil _
  | cons tick ticks induction =>
      obtain ⟨later, after, steady⟩ := steady
      have next := deadline_reset tick.after
      unfold countLoopTraced receiveTurn
      by_cases enough : wantBatches ≤ receiver.stats.batches
      · rw [if_pos enough]
        exact .nil _
      rw [if_neg enough]
      by_cases expired : (idleDeadline.any fun deadline =>
          deadline ≤ tick.now) = true ∧ (!receiver.reassembly.active) = true
      · rw [if_pos expired]
        exact .nil _
      rw [if_neg expired]
      cases idleDeadline with
      | none =>
          rcases receiveOne receiver tick.outcome with
            error | ⟨_ | _, receiver'⟩
          · exact .again (.nil _)
          · exact .again (@induction tick.after steady none (by simp) receiver')
          · exact .first (induction steady next receiver')
      | some deadline =>
          obtain ⟨timeout, limited, set⟩ := @applyRecvTimeout_limited
            platform _ _ _ (bound deadline rfl) later
          dsimp only [timeouts]
          rw [set]
          rcases receiveOne receiver tick.outcome with
            error | ⟨_ | _, receiver'⟩
          · exact .timedOut limited
          · exact .timedOut limited
          · exact .received limited (induction steady next receiver')

/-- In either mode a session receives without a limit before its first
datagram, and behind that only what a limited poll has announced, even if it
has vanished by then. -/
theorem session_waits {clock : Nat} {ticks : List (Tick ρ)}
    (steady : Steady clock ticks) (batchCount : Option Nat) :
    (sessionCalls platform receiveOne batchCount ticks).1 =
        receiveLoop receiveOne batchCount ticks ∧
      Waits platform false
        (sessionCalls platform receiveOne batchCount ticks).2 := by
  have unset : ∀ deadline ∈ (none : Option Nat),
      deadline ≤ clock + kIdleTimeout := by
    intro deadline known
    contradiction
  refine ⟨receiveLoopTraced_result batchCount ticks, ?_⟩
  cases batchCount with
  | none => exact idleLoop_waits steady unset {}
  | some wantBatches => exact countLoop_waits steady unset {}

end Loops

/-- A stray byte after a first receive that ran out, and then silence. -/
def lateByte : List (Tick RecvFrom) :=
  [{ now := 0, readable := false, outcome := .failed .timedOut, after := 1 },
    { now := 2, readable := true, outcome := .received [7], after := 3 },
    { now := 4, readable := false, outcome := .failed .timedOut, after := 5 }]

theorem session_waits_late :
    (sessionCalls .posix receiveDatagram (some 1) lateByte).2 =
        [.receive (.timeval 31536000 0) false,
          .receive (.timeval 31536000 0) true,
          .receive (.timeval 2 999000) false] ∧
      Waits .posix false
        (sessionCalls .posix receiveDatagram (some 1) lateByte).2 := by
  have steady : Steady 0 lateByte := by
    simp only [lateByte, Steady]
    decide
  exact ⟨by decide +kernel, (session_waits steady (some 1)).2⟩

end BoostUdp
