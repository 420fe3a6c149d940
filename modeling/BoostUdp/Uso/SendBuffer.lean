import BoostUdp.Attempts
import BoostUdp.Cli
import BoostUdp.Uso.ControlData
import BoostUdp.UsoSend

/-!
# Sends of whole batches

`send_buffer_uso` hands a batch to `sendto` when it is one datagram, and to
`WSASendMsg` when the system has to cut it up, there in up to three attempts
with and without the source address.  The system is a parameter: each of its
calls may change its state and may fail.
-/

namespace BoostUdp

open LittleEndian RecordChain

/-- What `WSASendMsg` is called with. -/
structure WsaMsg where
  name : SockAddr
  namelen : Nat
  buffer : List Byte
  control : List Byte
  deriving DecidableEq, Repr

/-- The calls into the system on one socket.  A failed call tells its error.
`WSASendMsg` and `WSASetUdpSendMessageSize` may be missing. -/
structure Winsock (σ : Type) where
  layout : CmsgLayout
  sendto : List Byte → SockAddr → Nat → σ → Except Word Nat × σ
  wsaSendMsg : Option (WsaMsg → Bool → σ → SendOutcome × σ)
  /-- What the completion routine was given when the wait is over. -/
  sleepEx : σ → (Word × Word) × σ
  wsaSetUdpSendMessageSize : Option (Word → σ → Except Word Unit × σ)
  setsockopt : Word → σ → Except Word Unit × σ
  getBestInterfaceEx : SockAddr → σ → Option Word × σ

def WSAEINVAL : Word := 10022

inductive UsoSendPath where
  | none
  | plain
  | bindOnly
  | pktinfoIfindex
  deriving DecidableEq, Repr

structure UsoSendResult where
  success : Bool := false
  segmentsSent : Nat := 0
  totalBytes : Nat := 0
  path : UsoSendPath := .none
  error : String := ""
  deriving DecidableEq, Repr

def UsoSendResult.failed (wsaError : Word) : UsoSendResult :=
  { error := "WSASendMsg failed: " ++ toString wsaError.toInt }

/-- The arguments of `send_buffer_uso`. -/
structure UsoRequest where
  data : List Byte
  mss : Nat
  target : Endpoint
  sourceAddress : Address
  interfaceIndex : Word := 0
  noPktinfo : Bool := false
  completionRoutine : Bool := false
  deriving DecidableEq, Repr

section Send

variable {σ : Type} (system : Winsock σ)

def configureUdpSendSegmentSize (mss : Word) (state : σ) :
    Except Word Unit × σ :=
  match system.wsaSetUdpSendMessageSize with
  | some setSize => setSize mss state
  | none => system.setsockopt mss state

/-- `invoke_wsasendmsg`.  The routine of this send runs in its own wait. -/
def invokeWsasendmsg (wsasendmsg : WsaMsg → Bool → σ → SendOutcome × σ)
    (message : WsaMsg) (useCompletionRoutine : Bool) (state : σ) :
    SendResult × σ :=
  if !useCompletionRoutine then
    match wsasendmsg message false state with
    | (.failure error, state) => ({ sent := false, wsaError := error }, state)
    | (.success bytes, state) => ({ sent := true, bytesSent := bytes }, state)
  else
    match wsasendmsg message true state with
    | (.success syncBytes, state) =>
        ({ sent := true, bytesSent := syncBytes }, state)
    | (.failure error, state) =>
        if error ≠ WSA_IO_PENDING then
          ({ sent := false, wsaError := error }, state)
        else
          match system.sleepEx state with
          | ((ioError, transferred), state) =>
              if ioError ≠ 0 then
                ({ sent := false, wsaError := ioError }, state)
              else
                ({ sent := true
                   bytesSent := transferred
                   wsaError := WSA_IO_PENDING }, state)

def sendPlainDatagram (data : List Byte) (target : Endpoint) (state : σ) :
    Except String Unit × σ :=
  match endpointToSockaddr target with
  | none => (.error "unsupported target address family", state)
  | some (dest, destLen) =>
      match system.sendto data dest destLen state with
      | (.error error, state) =>
          (.error ("sendto failed: " ++ toString error.toInt), state)
      | (.ok sent, state) =>
          if sent ≠ data.length then
            (.error "short plain send", state)
          else
            (.ok (), state)

def ipv4InterfaceIndex (address : AddressV4) (state : σ) : Option Word × σ :=
  if address.isUnspecified then
    (none, state)
  else
    system.getBestInterfaceEx (.inet 0 address.bytes) state

/-- The index that goes with the source address, if the system is asked for
it. -/
def pktinfoIndex (request : UsoRequest) (state : σ) : Word × σ :=
  match request.sourceAddress with
  | .v6 _ => (0, state)
  | .v4 address =>
      if request.interfaceIndex ≠ 0 then
        (request.interfaceIndex, state)
      else
        match ipv4InterfaceIndex system address state with
        | (some index, state) => (index, state)
        | (none, state) => (0, state)

/-- The first control message, which is left out for an unspecified address. -/
def putPktinfo (request : UsoRequest) (includePktinfo : Bool)
    (control : ControlBuffer) (state : σ) : Option ControlBuffer × σ :=
  if includePktinfo ∧ !sourceAddressIsUnspecified request.sourceAddress then
    match pktinfoIndex system request state with
    | (index, state) =>
        ((control.put system.layout
          (pktinfoMessage request.sourceAddress index)).next system.layout,
          state)
  else
    (some control, state)

/-- The number of segments of a batch. -/
def UsoRequest.segments (request : UsoRequest) : Nat :=
  (request.data.length + request.mss - 1) / request.mss

/-- What is filled in for a batch that was sent. -/
def UsoRequest.sent (request : UsoRequest) (segments : Nat)
    (path : UsoSendPath) : UsoSendResult :=
  { success := true
    segmentsSent := segments
    totalBytes := request.data.length
    path := path }

/-- The message is sent as a whole. -/
def sendControlled (wsasendmsg : WsaMsg → Bool → σ → SendOutcome × σ)
    (request : UsoRequest) (dest : SockAddr) (destLen : Nat)
    (control : List Byte) (state : σ) : Except Word Unit × σ :=
  match invokeWsasendmsg system wsasendmsg
      { name := dest
        namelen := destLen
        buffer := request.data
        control := control }
      request.completionRoutine state with
  | (result, state) =>
      if result.sent ∧
          result.bytesSent = BitVec.ofNat 32 request.data.length then
        (.ok (), state)
      else
        (.error result.wsaError, state)

/-- The result of the call decides about an error and nothing else. -/
theorem sendControlled_state (wsasendmsg : WsaMsg → Bool → σ → SendOutcome × σ)
    (request : UsoRequest) (dest : SockAddr) (destLen : Nat)
    (control : List Byte) (state : σ) :
    (sendControlled system wsasendmsg request dest destLen control state).2 =
      (invokeWsasendmsg system wsasendmsg
        { name := dest
          namelen := destLen
          buffer := request.data
          control := control }
        request.completionRoutine state).2 := by
  rw [sendControlled]
  rcases invokeWsasendmsg system wsasendmsg
      { name := dest
        namelen := destLen
        buffer := request.data
        control := control }
      request.completionRoutine state with ⟨result, final⟩
  dsimp only
  by_cases whole : result.sent ∧
      result.bytesSent = BitVec.ofNat 32 request.data.length
  · rw [if_pos whole]
  · rw [if_neg whole]

def tryWsasendmsgUso (wsasendmsg : WsaMsg → Bool → σ → SendOutcome × σ)
    (request : UsoRequest) (includePktinfo : Bool) (state : σ) :
    Except Word Unit × σ :=
  match endpointToSockaddr request.target with
  | none => (.error WSAEINVAL, state)
  | some (dest, destLen) =>
      match ControlBuffer.start system.layout with
      | none => (.error WSAEINVAL, state)
      | some control =>
          match putPktinfo system request includePktinfo control state with
          | (none, state) => (.error WSAEINVAL, state)
          | (some control, state) =>
              if 1 < request.segments then
                let mss := BitVec.ofNat 32 request.mss
                match configureUdpSendSegmentSize system mss state with
                | (.error error, state) => (.error error, state)
                | (.ok _, state) =>
                    sendControlled system wsasendmsg request dest destLen
                      (control.put system.layout
                        (sendMsgSizeMessage mss)).used state
              else
                sendControlled system wsasendmsg request dest destLen
                  control.used state

/-- `condition && try_wsasendmsg_uso(..)`. -/
def tryIf (condition : Bool)
    (wsasendmsg : WsaMsg → Bool → σ → SendOutcome × σ)
    (request : UsoRequest) (wsaError : Word) (state : σ) :
    Except Word Unit × σ :=
  if condition then
    tryWsasendmsgUso system wsasendmsg request true state
  else
    (.error wsaError, state)

/-- The branches without `WSASendMsg`. -/
def sendPlain (request : UsoRequest) (state : σ) : UsoSendResult × σ :=
  match sendPlainDatagram system request.data request.target state with
  | (.error error, state) => ({ error := error }, state)
  | (.ok _, state) => (request.sent 1 .plain, state)

def sendBufferUso (request : UsoRequest) (state : σ) : UsoSendResult × σ :=
  if request.data.length = 0 then
    ({ error := "empty batch buffer" }, state)
  else if kUsoMaxBytesPerBatch < request.data.length then
    ({ error := "batch exceeds USO max bytes per send" }, state)
  else if request.mss = 0 ∨ request.data.length < request.mss then
    sendPlain system request state
  else if kUsoMaxSegmentSize < request.mss then
    ({ error := "invalid mss" }, state)
  else if request.segments = 1 then
    sendPlain system request state
  else
    match system.wsaSendMsg with
    | none =>
        ({ error :=
            "WSASendMsg not available (SIO_GET_EXTENSION_FUNCTION_POINTER)" },
          state)
    | some wsasendmsg =>
        let segments := request.segments
        let specificBind := !sourceAddressIsUnspecified request.sourceAddress
        if request.noPktinfo then
          match tryWsasendmsgUso system wsasendmsg request false state with
          | (.ok _, state) => (request.sent segments .bindOnly, state)
          | (.error wsaError, state) => (.failed wsaError, state)
        else
          match tryIf system (request.interfaceIndex ≠ 0 && specificBind)
              wsasendmsg request 0 state with
          | (.ok _, state) => (request.sent segments .pktinfoIfindex, state)
          | (.error _, state) =>
              match tryWsasendmsgUso system wsasendmsg request false state with
              | (.ok _, state) => (request.sent segments .bindOnly, state)
              | (.error wsaError, state) =>
                  match tryIf system specificBind wsasendmsg request wsaError
                      state with
                  | (.ok _, state) =>
                      (request.sent segments .pktinfoIfindex, state)
                  | (.error wsaError, state) => (.failed wsaError, state)

end Send

/-- With or without the source address, in this order. -/
def UsoRequest.attempts (request : UsoRequest) : List Bool :=
  let specificBind := !sourceAddressIsUnspecified request.sourceAddress
  if request.noPktinfo then
    [false]
  else
    (if request.interfaceIndex ≠ 0 && specificBind then [true] else []) ++
      [false] ++ (if specificBind then [true] else [])

/-- The system has to cut the batch up. -/
structure UsoRequest.Cut (request : UsoRequest) : Prop where
  size : request.data.length ≤ kUsoMaxBytesPerBatch
  mss_pos : 0 < request.mss
  mss_le : request.mss ≤ kUsoMaxSegmentSize
  segments : 1 < request.segments

/-- The batch is one datagram. -/
structure UsoRequest.Single (request : UsoRequest) : Prop where
  nonempty : request.data ≠ []
  size : request.data.length ≤ kUsoMaxBytesPerBatch
  single : request.mss = 0 ∨ request.data.length ≤ request.mss
  mss_le : request.mss = 0 ∨ request.data.length < request.mss ∨
    request.mss ≤ kUsoMaxSegmentSize

theorem UsoRequest.segments_le_one {request : UsoRequest}
    (short : request.data.length ≤ request.mss) : request.segments ≤ 1 := by
  rw [UsoRequest.segments]
  rcases Nat.eq_zero_or_pos request.mss with zero | positive
  · rw [zero, Nat.div_zero]
    exact Nat.zero_le 1
  · apply Nat.le_of_lt_succ
    rw [Nat.div_lt_iff_lt_mul positive]
    omega

theorem UsoRequest.one_le_segments {request : UsoRequest}
    (nonempty : request.data ≠ []) (positive : 0 < request.mss) :
    1 ≤ request.segments := by
  have length := List.length_pos_of_ne_nil nonempty
  rw [UsoRequest.segments, Nat.le_div_iff_mul_le positive]
  omega

theorem UsoRequest.Cut.mss_lt {request : UsoRequest} (cut : request.Cut) :
    request.mss < request.data.length := by
  by_contra short
  have few := request.segments_le_one (Nat.not_lt.mp short)
  have many := cut.segments
  omega

theorem UsoRequest.Cut.nonempty {request : UsoRequest} (cut : request.Cut) :
    ¬request.data.length = 0 := by
  have long := cut.mss_lt
  omega

theorem UsoRequest.Cut.several {request : UsoRequest} (cut : request.Cut) :
    ¬(request.mss = 0 ∨ request.data.length < request.mss) := by
  have long := cut.mss_lt
  have positive := cut.mss_pos
  omega

section Send

variable {σ : Type} (system : Winsock σ) {request : UsoRequest}

theorem sendBufferUso_single (single : request.Single) (state : σ) :
    sendBufferUso system request state = sendPlain system request state := by
  have nonempty : ¬request.data.length = 0 :=
    fun empty => single.nonempty (List.length_eq_zero_iff.mp empty)
  rw [sendBufferUso, if_neg nonempty, if_neg (Nat.not_lt.mpr single.size)]
  by_cases short : request.mss = 0 ∨ request.data.length < request.mss
  · rw [if_pos short]
  · have positive : 0 < request.mss :=
      Nat.pos_of_ne_zero fun zero => short (Or.inl zero)
    have whole : request.segments = 1 := by
      have lower := request.one_le_segments single.nonempty positive
      have upper := request.segments_le_one
        (single.single.resolve_left (Nat.ne_of_gt positive))
      omega
    have allowed : ¬kUsoMaxSegmentSize < request.mss := by
      rcases single.mss_le with zero | short' | allowed
      · exact absurd (Or.inl zero) short
      · exact absurd (Or.inr short') short
      · exact Nat.not_lt.mpr allowed
    rw [if_neg short, if_neg allowed, if_pos whole]

/-- A batch that has to be cut up is left to `WSASendMsg`. -/
theorem sendBufferUso_unavailable (cut : request.Cut)
    (missing : system.wsaSendMsg = none) (state : σ) :
    sendBufferUso system request state =
      ({ error :=
          "WSASendMsg not available (SIO_GET_EXTENSION_FUNCTION_POINTER)" },
        state) := by
  rw [sendBufferUso, if_neg cut.nonempty, if_neg (Nat.not_lt.mpr cut.size),
    if_neg cut.several, if_neg (Nat.not_lt.mpr cut.mss_le),
    if_neg (Nat.ne_of_gt cut.segments), missing]

/-- There it goes through the attempts in order. -/
theorem sendBufferUso_cut (cut : request.Cut)
    {wsasendmsg : WsaMsg → Bool → σ → SendOutcome × σ}
    (available : system.wsaSendMsg = some wsasendmsg) (state : σ) :
    sendBufferUso system request state =
      match Attempts.inOrder (tryWsasendmsgUso system wsasendmsg request)
          request.attempts 0 state with
      | (.ok includePktinfo, state) =>
          (request.sent request.segments
            (if includePktinfo then .pktinfoIfindex else .bindOnly), state)
      | (.error wsaError, state) => (.failed wsaError, state) := by
  rw [sendBufferUso, if_neg cut.nonempty, if_neg (Nat.not_lt.mpr cut.size),
    if_neg cut.several, if_neg (Nat.not_lt.mpr cut.mss_le),
    if_neg (Nat.ne_of_gt cut.segments), available, UsoRequest.attempts]
  cases request.noPktinfo with
  | true =>
      simp only [if_true, Attempts.inOrder]
      rcases tryWsasendmsgUso system wsasendmsg request false state with
        ⟨_ | _, state⟩
      · rfl
      · rfl
  | false =>
      simp only [Bool.false_eq_true, if_false, Attempts.inOrder_append,
        Attempts.inOrder_optional, Attempts.inOrder, tryIf]
      rcases (if (request.interfaceIndex ≠ 0 &&
            !sourceAddressIsUnspecified request.sourceAddress) then
          tryWsasendmsgUso system wsasendmsg request true state
        else
          (.error 0, state) : Except Word Unit × σ) with ⟨_ | _, state⟩
      · dsimp only
        rcases tryWsasendmsgUso system wsasendmsg request false state with
          ⟨wsaError | _, state⟩
        · dsimp only
          rcases (if !sourceAddressIsUnspecified request.sourceAddress then
              tryWsasendmsgUso system wsasendmsg request true state
            else
              (.error wsaError, state) : Except Word Unit × σ) with
            ⟨_ | _, state⟩
          · rfl
          · rfl
        · rfl
      · rfl

end Send

/-- The source address goes out with the batch. -/
def UsoRequest.tells (request : UsoRequest) (includePktinfo : Bool) : Bool :=
  includePktinfo && !sourceAddressIsUnspecified request.sourceAddress

/-- The control messages, with the index of the interface. -/
def UsoRequest.messages (request : UsoRequest) (includePktinfo : Bool)
    (index : Word) : List Cmsg :=
  (if request.tells includePktinfo then
    [pktinfoMessage request.sourceAddress index]
  else
    []) ++ [sendMsgSizeMessage (BitVec.ofNat 32 request.mss)]

theorem UsoRequest.messages_fit (layout : CmsgLayout) (request : UsoRequest)
    (includePktinfo : Bool) (index : Word) :
    ∀ message ∈ request.messages includePktinfo index,
      layout.Fits message := by
  intro message member
  rcases List.mem_append.mp member with first | last
  · split at first
    · cases List.mem_singleton.mp first
      exact layout.pktinfoMessage_fits _ _
    · contradiction
  · cases List.mem_singleton.mp last
    exact layout.sendMsgSizeMessage_fits _

/-- There is room in the buffer for both messages. -/
theorem controlSize_room (layout : CmsgLayout) (source : Address)
    (index mss : Word) :
    (layout.encode [pktinfoMessage source index]).length +
        layout.headerSize ≤ layout.controlSize ∧
      (layout.encode [pktinfoMessage source index,
        sendMsgSizeMessage mss]).length ≤ layout.controlSize := by
  have size : layout.space (pktinfoMessage source index).data.length ≤
      max (layout.space 20) (layout.space 8) := by
    rw [length_pktinfoMessage]
    cases source with
    | v4 address => exact le_max_right _ _
    | v6 address => exact le_max_left _ _
  have small : layout.space (sendMsgSizeMessage mss).data.length =
      layout.space 4 := rfl
  have header : layout.headerSize ≤ layout.space 4 :=
    Nat.le_add_right _ _
  simp only [Layout.encode_cons, List.length_append,
    Layout.length_encodeRecord, small, CmsgLayout.controlSize]
  have nothing : (layout.encode ([] : List Cmsg)).length = 0 := rfl
  omega

theorem UsoRequest.messages_room (layout : CmsgLayout) (request : UsoRequest)
    (includePktinfo : Bool) (index : Word) :
    (layout.encode (request.messages includePktinfo index)).length ≤
      layout.controlSize := by
  have both := (controlSize_room layout request.sourceAddress index
    (BitVec.ofNat 32 request.mss)).2
  rw [UsoRequest.messages]
  split
  · exact both
  · rw [Layout.encode_cons, List.length_append] at both
    exact Nat.le_trans (Nat.le_add_left _ _) both

section Send

variable {σ : Type} (system : Winsock σ)

/-- The index that an attempt tells the system, with the address. -/
def attemptIndex (request : UsoRequest) (includePktinfo : Bool) (state : σ) :
    Word × σ :=
  if request.tells includePktinfo then
    pktinfoIndex system request state
  else
    (0, state)

/-- What an attempt comes to: the index is asked for if the address goes out,
the size of the segments is set, and the batch is sent with its messages. -/
def attemptSend (wsasendmsg : WsaMsg → Bool → σ → SendOutcome × σ)
    (request : UsoRequest) (dest : SockAddr) (destLen : Nat)
    (includePktinfo : Bool) (state : σ) : Except Word Unit × σ :=
  match attemptIndex system request includePktinfo state with
  | (index, state) =>
      match configureUdpSendSegmentSize system (BitVec.ofNat 32 request.mss)
          state with
      | (.error error, state) => (.error error, state)
      | (.ok _, state) =>
          sendControlled system wsasendmsg request dest destLen
            (system.layout.encode (request.messages includePktinfo index))
            state

/-- The header behind the source address is found. -/
theorem putPktinfo_holds {request : UsoRequest} (includePktinfo : Bool)
    {control : ControlBuffer}
    (empty : ControlBuffer.Holds system.layout control []) {state next : σ}
    {index : Word}
    (asked : attemptIndex system request includePktinfo state =
      (index, next)) :
    ∃ control',
      putPktinfo system request includePktinfo control state =
        (some control', next) ∧
      ControlBuffer.Holds system.layout control'
        (if request.tells includePktinfo then
          [pktinfoMessage request.sourceAddress index]
        else
          []) := by
  have condition : (includePktinfo = true ∧
      (!sourceAddressIsUnspecified request.sourceAddress) = true) ↔
        request.tells includePktinfo = true := by
    rw [UsoRequest.tells, Bool.and_eq_true]
  rw [attemptIndex] at asked
  rw [putPktinfo]
  simp only [condition]
  by_cases told : request.tells includePktinfo = true
  · rw [if_pos told] at asked
    have room := (controlSize_room system.layout request.sourceAddress
      index 0).1
    obtain ⟨control', found, holds⟩ := empty.next
      (system.layout.pktinfoMessage_fits request.sourceAddress index) room
    rw [if_pos told, if_pos told, asked]
    exact ⟨control', by rw [found], holds⟩
  · rw [if_neg told] at asked
    cases asked
    rw [if_neg told, if_neg told]
    exact ⟨control, rfl, empty⟩

/-- Whatever the system answers, no header is missing, no write leaves the
buffer, and the control data of an attempt are its messages. -/
theorem tryWsasendmsgUso_eq {request : UsoRequest}
    (wsasendmsg : WsaMsg → Bool → σ → SendOutcome × σ)
    (several : 1 < request.segments) {dest : SockAddr} {destLen : Nat}
    (known : endpointToSockaddr request.target = some (dest, destLen))
    (includePktinfo : Bool) (state : σ) :
    tryWsasendmsgUso system wsasendmsg request includePktinfo state =
      attemptSend system wsasendmsg request dest destLen includePktinfo
        state := by
  obtain ⟨control, started, empty⟩ :=
    @ControlBuffer.start_holds system.layout
  obtain ⟨index, next, asked⟩ : ∃ index next,
      attemptIndex system request includePktinfo state = (index, next) :=
    ⟨_, _, rfl⟩
  obtain ⟨control', put, holds⟩ := putPktinfo_holds system includePktinfo
    empty asked
  have used : (control'.put system.layout
      (sendMsgSizeMessage (BitVec.ofNat 32 request.mss))).used =
        system.layout.encode (request.messages includePktinfo index) :=
    holds.put_used _
      (request.messages_room system.layout includePktinfo index)
  rw [tryWsasendmsgUso, known, started]
  dsimp only
  rw [put, attemptSend, asked]
  dsimp only
  rw [if_pos several, used]

end Send

/-- The result is the one that the client's thread notes: at once, or behind a
wait in which the routine of the send has run. -/
theorem invokeWsasendmsg_results {σ : Type} (system : Winsock σ)
    (wsasendmsg : WsaMsg → Bool → σ → SendOutcome × σ) (message : WsaMsg)
    (useCompletionRoutine : Bool) (thread : SendThread) (context : Nat)
    {state middle final : σ} {outcome : SendOutcome}
    {ioError transferred : Word}
    (called : wsasendmsg message useCompletionRoutine state =
      (outcome, middle))
    (awake : system.sleepEx middle = ((ioError, transferred), final)) :
    let started :=
      thread.invokeWsasendmsg useCompletionRoutine context outcome
    let result := (invokeWsasendmsg system wsasendmsg message
      useCompletionRoutine state).1
    match started.waiting with
    | none => started.results = thread.results ++ [result]
    | some send =>
        ((started.wsasendmsgCompletionRoutine send ioError
          transferred).checkCompleted send).results =
            thread.results ++ [result] := by
  intro started result
  cases useCompletionRoutine with
  | false =>
      cases outcome with
      | success bytes =>
          have same : result = { sent := true, bytesSent := bytes } := by
            simp only [result, invokeWsasendmsg, called]
            rfl
          rw [same]
          rfl
      | failure error =>
          have same : result = { sent := false, wsaError := error } := by
            simp only [result, invokeWsasendmsg, called]
            rfl
          rw [same]
          rfl
  | true =>
      cases outcome with
      | success bytes =>
          have same : result = { sent := true, bytesSent := bytes } := by
            simp only [result, invokeWsasendmsg, called]
            rfl
          have finished : started = _ :=
            thread.invokeWsasendmsg_success context bytes
          rw [finished, same]
          rfl
      | failure error =>
          by_cases pending : error = WSA_IO_PENDING
          · subst pending
            have waits : started = _ :=
              thread.invokeWsasendmsg_pending context
            have same : result =
                if ioError ≠ 0 then
                  { sent := false, wsaError := ioError }
                else
                  { sent := true
                    bytesSent := transferred
                    wsaError := WSA_IO_PENDING } := by
              simp only [result, invokeWsasendmsg, Bool.not_true,
                Bool.false_eq_true, if_false, called, awake, ne_eq,
                not_true_eq_false]
              split
              · rfl
              · rfl
            rw [waits, same]
            simp only [SendThread.wsasendmsgCompletionRoutine,
              SendThread.setContext, SendThread.checkCompleted,
              Function.update_self, ne_eq, not_true_eq_false, if_false]
            split
            · rfl
            · rfl
          · have same : result = { sent := false, wsaError := error } := by
              simp only [result, invokeWsasendmsg, Bool.not_true,
                Bool.false_eq_true, if_false, called, ne_eq, pending,
                not_false_eq_true, if_true]
            have finished : started =
                (thread.begun (Function.update thread.contexts context
                  {})).finish { sent := false, wsaError := error } :=
              if_pos pending
            rw [finished, same]
            rfl

section Keeps

variable {σ : Type} {β : Type} {system : Winsock σ} {view : σ → β}

theorem ipv4InterfaceIndex_keeps
    (asked : ∀ address state,
      view (system.getBestInterfaceEx address state).2 = view state)
    (address : AddressV4) (state : σ) :
    view (ipv4InterfaceIndex system address state).2 = view state := by
  rw [ipv4InterfaceIndex]
  by_cases unspecified : address.isUnspecified = true
  · rw [if_pos unspecified]
  · rw [if_neg unspecified]
    exact asked _ state

/-- What the query for an interface keeps, an attempt keeps up to its send. -/
theorem attemptIndex_keeps
    (asked : ∀ address state,
      view (system.getBestInterfaceEx address state).2 = view state)
    (request : UsoRequest) (includePktinfo : Bool) (state : σ) :
    view (attemptIndex system request includePktinfo state).2 =
      view state := by
  rw [attemptIndex]
  by_cases told : request.tells includePktinfo = true
  · rw [if_pos told, pktinfoIndex]
    cases request.sourceAddress with
    | v6 address => rfl
    | v4 address =>
        dsimp only
        by_cases given : request.interfaceIndex ≠ 0
        · rw [if_pos given]
        · rw [if_neg given]
          have kept := ipv4InterfaceIndex_keeps asked address state
          rcases found : ipv4InterfaceIndex system address state with
            ⟨_ | index, next⟩
          · rw [found] at kept
            exact kept
          · rw [found] at kept
            exact kept
  · rw [if_neg told]

theorem configureUdpSendSegmentSize_keeps
    (set : ∀ setSize, system.wsaSetUdpSendMessageSize = some setSize →
      ∀ mss state, view (setSize mss state).2 = view state)
    (setsockopt : ∀ mss state,
      view (system.setsockopt mss state).2 = view state)
    (mss : Word) (state : σ) :
    view (configureUdpSendSegmentSize system mss state).2 = view state := by
  rw [configureUdpSendSegmentSize]
  cases available : system.wsaSetUdpSendMessageSize with
  | some setSize => exact set setSize available mss state
  | none => exact setsockopt mss state

end Keeps

end BoostUdp
