import BoostUdp.EndToEnd
import BoostUdp.Uso.ControlData

/-!
# Receiving coalesced datagrams

`uro_recv_msg` down to the control data and the socket address that the system
fills in, and the option that makes the system coalesce.  What the receive
loop is given is what the system has written.
-/

namespace BoostUdp

open LittleEndian

/-- What a call of `WSARecvMsg` leaves in its message: the bytes, the address
of the sender if it is of a known family, and the control data in use. -/
inductive RecvMsgCall where
  | unavailable
  | received (data : List Byte) (name : Option SockAddr) (namelen : Nat)
      (control : List Byte)
  | failed (err : Nat)
  deriving DecidableEq, Repr

structure UroMessage extends UroRecvResult where
  haveRemote : Bool := false
  remote : Option Endpoint := none
  deriving DecidableEq, Repr

/-- The result and what is in the buffer after the call. -/
def CmsgLayout.uroRecvMsg (layout : CmsgLayout) (bufferCapacity : Nat)
    (call : RecvMsgCall) : UroMessage × List Byte :=
  if bufferCapacity = 0 ∨ kUroMaxCoalescedRecv < bufferCapacity then
    ({ error := "invalid receive buffer size" }, [])
  else
    match call with
    | .unavailable =>
        ({ error :=
            "WSARecvMsg not available (SIO_GET_EXTENSION_FUNCTION_POINTER)" },
          [])
    | .failed err =>
        if err = WSAETIMEDOUT ∨ err = WSAEWOULDBLOCK then
          ({ success := false, bytesReceived := 0 }, [])
        else
          ({ error := "WSARecvMsg failed: " ++ toString err }, [])
    | .received data name namelen control =>
        let remote := name.bind fun storage =>
          sockaddrToEndpoint storage namelen
        let info := layout.coalescedInfo control
        ({ success := true
           bytesReceived := data.length
           haveRemote := remote.isSome
           remote := remote
           coalesced := info.isSome
           segmentSize := (info.map BitVec.toNat).getD 0 }, data)

/-- The wrapper of the receive loop, with the last known sender. -/
def CmsgLayout.receiveUroDatagram (layout : CmsgLayout) (receiver : Receiver)
    (remote : Option Endpoint) (call : RecvMsgCall) :
    Except RunError (Bool × Receiver × Option Endpoint) :=
  let (result, buffer) := layout.uroRecvMsg kMaxBatchSize call
  if !result.success then
    if result.bytesReceived = 0 ∧ result.error.isEmpty then
      .ok (false, receiver, remote)
    else if !result.error.isEmpty then
      .error (.runtime result.error)
    else
      .ok (false, receiver, remote)
  else if result.bytesReceived ≤ 0 then
    .ok (false, receiver, remote)
  else
    let remote := if result.haveRemote then result.remote else remote
    match ingestFragment receiver (buffer.take result.bytesReceived) with
    | none => .error .outOfFuel
    | some receiver => .ok (true, receiver, remote)

/-- The same call with its control data read. -/
def CmsgLayout.outcome (layout : CmsgLayout) : RecvMsgCall → WsaRecvMsg
  | .unavailable => .unavailable
  | .received data _ _ control =>
      .received data ((layout.coalescedInfo control).map BitVec.toNat)
  | .failed err => .failed err

section Refinement

variable (layout : CmsgLayout)

theorem uroRecvMsg_outcome (bufferCapacity : Nat) (call : RecvMsgCall) :
    ((layout.uroRecvMsg bufferCapacity call).1.toUroRecvResult,
        (layout.uroRecvMsg bufferCapacity call).2) =
      uroRecvMsg bufferCapacity (layout.outcome call) := by
  unfold CmsgLayout.uroRecvMsg uroRecvMsg
  by_cases invalid : bufferCapacity = 0 ∨ kUroMaxCoalescedRecv < bufferCapacity
  · rw [if_pos invalid, if_pos invalid]
  · rw [if_neg invalid, if_neg invalid]
    cases call with
    | unavailable => rfl
    | received data name namelen control =>
        simp only [CmsgLayout.outcome, Option.isSome_map]
    | failed err =>
        by_cases silent : err = WSAETIMEDOUT ∨ err = WSAEWOULDBLOCK
        · simp only [CmsgLayout.outcome, if_pos silent]
        · simp only [CmsgLayout.outcome, if_neg silent]

/-- The loop sees the receiver and whether there was a datagram, and the
sender's address makes no difference to either. -/
theorem receiveUroDatagram_outcome (receiver : Receiver)
    (remote : Option Endpoint) (call : RecvMsgCall) :
    (layout.receiveUroDatagram receiver remote call).map
        (fun result => (result.1, result.2.1)) =
      receiveUroDatagram receiver (layout.outcome call) := by
  have same := uroRecvMsg_outcome layout kMaxBatchSize call
  unfold CmsgLayout.receiveUroDatagram receiveUroDatagram
  rw [← same]
  generalize layout.uroRecvMsg kMaxBatchSize call = message
  obtain ⟨⟨result, haveRemote, sender⟩, buffer⟩ := message
  dsimp only
  split
  · split
    · rfl
    · split <;> rfl
  · split
    · rfl
    · cases ingestFragment receiver (buffer.take result.bytesReceived) with
      | none => rfl
      | some receiver => rfl

end Refinement

/-- The library's own calls for the option, where it has them, and the general
ones.  A get call gives the value. -/
structure CoalescingOption (σ : Type) where
  wsaSet : Option (Word → σ → Bool × σ)
  wsaGet : Option (σ → Option Word × σ)
  setsockopt : Word → σ → Bool × σ
  getsockopt : σ → Option Word × σ
  wsaGetLastError : σ → Word

namespace CoalescingOption

variable {σ : Type} (calls : CoalescingOption σ)

def failure (call : String) (state : σ) : String :=
  call ++ " failed: " ++ toString (calls.wsaGetLastError state).toInt

def getUdpRecvMaxCoalescedSize (state : σ) : Except String Word × σ :=
  let (call, get) :=
    match calls.wsaGet with
    | some get => ("WSAGetUdpRecvMaxCoalescedSize", get)
    | none =>
        ("getsockopt(UDP_RECV_MAX_COALESCED_SIZE)", calls.getsockopt)
  match get state with
  | (some out, state) => (.ok out, state)
  | (none, state) => (.error (calls.failure call state), state)

def setUdpRecvMaxCoalescedSize (maxSize : Word) (state : σ) :
    Except String Unit × σ :=
  let (call, set) :=
    match calls.wsaSet with
    | some set => ("WSASetUdpRecvMaxCoalescedSize", set)
    | none =>
        ("setsockopt(UDP_RECV_MAX_COALESCED_SIZE)", calls.setsockopt)
  match set maxSize state with
  | (false, state) => (.error (calls.failure call state), state)
  | (true, state) =>
      match calls.getUdpRecvMaxCoalescedSize state with
      | (.error error, state) => (.error error, state)
      | (.ok actual, state) =>
          if actual ≠ maxSize then
            (.error ("UDP_RECV_MAX_COALESCED_SIZE: got " ++
              toString actual.toNat ++ " expected " ++
              toString maxSize.toNat), state)
          else
            (.ok (), state)

def uroConfigureRecvSocket (maxCoalescedSize : Nat) (state : σ) :
    Except String Unit × σ :=
  if maxCoalescedSize = 0 ∨ kUroMaxCoalescedRecv < maxCoalescedSize then
    (.error ("max coalesced recv size must be 1.." ++
      toString kUroMaxCoalescedRecv), state)
  else
    calls.setUdpRecvMaxCoalescedSize (BitVec.ofNat 32 maxCoalescedSize) state

/-- A socket that was configured is one of which the system says so. -/
theorem uroConfigureRecvSocket_ok {maxCoalescedSize : Nat} {state after : σ}
    (configured : calls.uroConfigureRecvSocket maxCoalescedSize state =
      (.ok (), after)) :
    (0 < maxCoalescedSize ∧ maxCoalescedSize ≤ kUroMaxCoalescedRecv) ∧
      ∃ before, calls.getUdpRecvMaxCoalescedSize before =
        (.ok (BitVec.ofNat 32 maxCoalescedSize), after) := by
  rw [uroConfigureRecvSocket] at configured
  by_cases invalid : maxCoalescedSize = 0 ∨
      kUroMaxCoalescedRecv < maxCoalescedSize
  · rw [if_pos invalid] at configured
    cases configured
  · rw [if_neg invalid, setUdpRecvMaxCoalescedSize] at configured
    obtain ⟨nonzero, small⟩ := not_or.mp invalid
    refine ⟨⟨Nat.pos_of_ne_zero nonzero, Nat.not_lt.mp small⟩, ?_⟩
    generalize (match calls.wsaSet with
      | some set => ("WSASetUdpRecvMaxCoalescedSize", set)
      | none => ("setsockopt(UDP_RECV_MAX_COALESCED_SIZE)", calls.setsockopt)) =
        chosen at configured
    obtain ⟨call, set⟩ := chosen
    dsimp only at configured
    rcases answer : set (BitVec.ofNat 32 maxCoalescedSize) state with
      ⟨_ | _, before⟩
    · rw [answer] at configured
      cases configured
    · rw [answer] at configured
      dsimp only at configured
      rcases told : calls.getUdpRecvMaxCoalescedSize before with
        ⟨error | actual, later⟩
      · rw [told] at configured
        cases configured
      · rw [told] at configured
        dsimp only at configured
        by_cases same : actual = BitVec.ofNat 32 maxCoalescedSize
        · rw [if_neg (not_not.mpr same)] at configured
          cases configured
          exact ⟨before, same ▸ told⟩
        · rw [if_pos same] at configured
          cases configured

end CoalescingOption

end BoostUdp
