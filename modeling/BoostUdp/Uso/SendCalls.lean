import BoostUdp.Uso.SendBuffer

/-!
# The calls of a send

A system that notes its calls shows what `send_buffer_uso` does with it: the
batch goes out in one piece in at most three attempts, each with control data
that read back as its messages.
-/

namespace BoostUdp

open LittleEndian RecordChain

inductive SystemCall where
  | sendto (data : List Byte) (dest : SockAddr) (destLen : Nat)
  | wsaSendMsg (message : WsaMsg) (overlapped : Bool)
  | sleepEx
  | setSendMsgSize (mss : Word)
  | getBestInterfaceEx (address : SockAddr)
  deriving DecidableEq, Repr

def SystemCall.isSend : SystemCall → Bool
  | .sendto _ _ _ => true
  | .wsaSendMsg _ _ => true
  | _ => false

section Logged

variable {σ α : Type}

/-- The state behind a call, with the call at the end of the log. -/
def noted (log : List SystemCall) (call : SystemCall) (result : α × σ) :
    α × (σ × List SystemCall) :=
  (result.1, (result.2, log ++ [call]))

def loggedSend (wsasendmsg : WsaMsg → Bool → σ → SendOutcome × σ)
    (message : WsaMsg) (overlapped : Bool) (state : σ × List SystemCall) :
    SendOutcome × (σ × List SystemCall) :=
  noted state.2 (.wsaSendMsg message overlapped)
    (wsasendmsg message overlapped state.1)

/-- The same system with a log of its calls. -/
def Winsock.logged (system : Winsock σ) : Winsock (σ × List SystemCall) where
  layout := system.layout
  sendto data dest destLen state :=
    noted state.2 (.sendto data dest destLen)
      (system.sendto data dest destLen state.1)
  wsaSendMsg := system.wsaSendMsg.map loggedSend
  sleepEx state := noted state.2 .sleepEx (system.sleepEx state.1)
  wsaSetUdpSendMessageSize := system.wsaSetUdpSendMessageSize.map
    fun setSize mss state =>
      noted state.2 (.setSendMsgSize mss) (setSize mss state.1)
  setsockopt mss state :=
    noted state.2 (.setSendMsgSize mss) (system.setsockopt mss state.1)
  getBestInterfaceEx address state :=
    noted state.2 (.getBestInterfaceEx address)
      (system.getBestInterfaceEx address state.1)

/-- The sends among the calls. -/
def sends (state : σ × List SystemCall) : List SystemCall :=
  state.2.filter SystemCall.isSend

theorem sends_noted {state : σ × List SystemCall} {call : SystemCall}
    (result : α × σ) :
    sends (noted state.2 call result).2 =
      sends state ++ if call.isSend then [call] else [] := by
  rw [sends, noted, List.filter_append, List.filter_singleton]
  cases call.isSend with
  | true => rfl
  | false => rfl

variable (system : Winsock σ) {request : UsoRequest}

theorem sends_attemptIndex (includePktinfo : Bool)
    (state : σ × List SystemCall) :
    sends (attemptIndex system.logged request includePktinfo state).2 =
      sends state :=
  attemptIndex_keeps
    (fun _ _ => (sends_noted _).trans (List.append_nil _)) _ _ _

theorem sends_configureUdpSendSegmentSize (mss : Word)
    (state : σ × List SystemCall) :
    sends (configureUdpSendSegmentSize system.logged mss state).2 =
      sends state := by
  apply configureUdpSendSegmentSize_keeps
  · intro setSize found mss state
    obtain ⟨setSize', _, rfl⟩ := Option.map_eq_some_iff.mp found
    exact (sends_noted _).trans (List.append_nil _)
  · intro mss state
    exact (sends_noted _).trans (List.append_nil _)

theorem sends_invokeWsasendmsg
    (wsasendmsg : WsaMsg → Bool → σ → SendOutcome × σ) (message : WsaMsg)
    (useCompletionRoutine : Bool) (state : σ × List SystemCall) :
    sends (invokeWsasendmsg system.logged (loggedSend wsasendmsg) message
      useCompletionRoutine state).2 =
        sends state ++ [.wsaSendMsg message useCompletionRoutine] := by
  have call : ∀ overlapped,
      sends (loggedSend wsasendmsg message overlapped state).2 =
        sends state ++ [.wsaSendMsg message overlapped] :=
    fun _ => sends_noted _
  cases useCompletionRoutine with
  | false =>
      rw [invokeWsasendmsg, if_pos (by decide), ← call false]
      rcases loggedSend wsasendmsg message false state with
        ⟨bytes | error, next⟩
      · rfl
      · rfl
  | true =>
      rw [invokeWsasendmsg, if_neg (by decide), ← call true]
      rcases loggedSend wsasendmsg message true state with
        ⟨bytes | error, middle⟩
      · rfl
      · dsimp only
        by_cases pending : error ≠ WSA_IO_PENDING
        · rw [if_pos pending]
        · have slept : sends (system.logged.sleepEx middle).2 = sends middle :=
            (sends_noted _).trans (List.append_nil _)
          rw [if_neg pending]
          by_cases aborted : (system.logged.sleepEx middle).1.1 ≠ 0
          · rw [if_pos aborted]
            exact slept
          · rw [if_neg aborted]
            exact slept

/-- A send of the whole batch to its target, with control data that read back
as the messages of the attempt.  The index is the one that was asked for, if
any was. -/
def Carried (layout : CmsgLayout) (request : UsoRequest)
    (includePktinfo : Bool) (call : SystemCall) : Prop :=
  ∃ message index, call = .wsaSendMsg message request.completionRoutine ∧
    message.buffer = request.data ∧
    sockaddrToEndpoint message.name message.namelen = some request.target ∧
    layout.walk message.control = request.messages includePktinfo
      (if request.interfaceIndex = 0 then index else request.interfaceIndex)

/-- The system is asked for an index only where none was given. -/
theorem messages_attemptIndex {includePktinfo : Bool} {state next : σ}
    {index : Word}
    (asked : attemptIndex system request includePktinfo state =
      (index, next)) :
    request.messages includePktinfo index = request.messages includePktinfo
      (if request.interfaceIndex = 0 then index
        else request.interfaceIndex) := by
  by_cases none : request.interfaceIndex = 0
  · rw [if_pos none]
  · rw [if_neg none, UsoRequest.messages, UsoRequest.messages]
    by_cases told : request.tells includePktinfo = true
    · rw [attemptIndex, if_pos told, pktinfoIndex] at asked
      cases source : request.sourceAddress with
      | v6 address => rfl
      | v4 address =>
          rw [source] at asked
          dsimp only at asked
          rw [if_pos none] at asked
          cases asked
          rfl
    · rw [if_neg told, if_neg told]

theorem sends_attemptSend {dest : SockAddr} {destLen : Nat}
    (known : endpointToSockaddr request.target = some (dest, destLen))
    (wsasendmsg : WsaMsg → Bool → σ → SendOutcome × σ)
    (includePktinfo : Bool) (state : σ × List SystemCall) :
    (∃ error next,
      attemptSend system.logged (loggedSend wsasendmsg) request dest destLen
        includePktinfo state = (.error error, next) ∧
      sends next = sends state) ∨
    ∃ call, Carried system.layout request includePktinfo call ∧
      sends (attemptSend system.logged (loggedSend wsasendmsg) request dest
        destLen includePktinfo state).2 = sends state ++ [call] := by
  obtain ⟨dest', destLen', known', _, target⟩ :=
    endpointToSockaddr_roundtrip request.target
  cases known.symm.trans known'
  have asked := @sends_attemptIndex _ system request includePktinfo state
  rw [attemptSend]
  rcases indexed : attemptIndex system.logged request includePktinfo state
    with ⟨index, middle⟩
  rw [indexed] at asked
  have sized := sends_configureUdpSendSegmentSize system
    (BitVec.ofNat 32 request.mss) middle
  dsimp only
  rcases set : configureUdpSendSegmentSize system.logged
      (BitVec.ofNat 32 request.mss) middle with ⟨error | _, next⟩
  · rw [set] at sized
    exact Or.inl ⟨error, next, rfl, sized.trans asked⟩
  · rw [set] at sized
    right
    let message : WsaMsg :=
      { name := dest
        namelen := destLen
        buffer := request.data
        control := system.layout.encode
          (request.messages includePktinfo index) }
    have invoked := sends_invokeWsasendmsg system wsasendmsg message
      request.completionRoutine next
    refine ⟨.wsaSendMsg message request.completionRoutine,
      ⟨message, index, rfl, rfl, target, ?_⟩, ?_⟩
    · rw [← messages_attemptIndex system.logged indexed]
      exact Layout.walk_encode _
        (request.messages_fit system.layout includePktinfo index)
    · rw [sized.trans asked] at invoked
      rw [← invoked]
      exact congrArg sends (sendControlled_state system.logged _ _ _ _ _ _)

/-- The attempts that got to their send, with the sends: each hands the whole
batch over, in the order of the attempts, and the path that is reported is that
of the last send. -/
structure AttemptsMade (layout : CmsgLayout) (request : UsoRequest)
    (tried : List Bool) (calls : List SystemCall) (result : UsoSendResult) :
    Prop where
  order : tried.Sublist request.attempts
  carried : List.Forall₂ (Carried layout request) tried calls
  reported : result.success = true →
    ∃ includePktinfo, tried.getLast? = some includePktinfo ∧
      result = request.sent request.segments
        (if includePktinfo then .pktinfoIfindex else .bindOnly)

/-- One attempt: without a send if its size is refused, and with one
otherwise. -/
theorem sends_tryWsasendmsgUso (cut : request.Cut)
    (wsasendmsg : WsaMsg → Bool → σ → SendOutcome × σ)
    (includePktinfo : Bool) (state : σ × List SystemCall) :
    (∃ error next,
      tryWsasendmsgUso system.logged (loggedSend wsasendmsg) request
        includePktinfo state = (.error error, next) ∧
      sends next = sends state) ∨
    ∃ call, Carried system.layout request includePktinfo call ∧
      sends (tryWsasendmsgUso system.logged (loggedSend wsasendmsg) request
        includePktinfo state).2 = sends state ++ [call] := by
  obtain ⟨dest, destLen, known, _⟩ :=
    endpointToSockaddr_roundtrip request.target
  rw [tryWsasendmsgUso_eq system.logged _ cut.segments known]
  exact sends_attemptSend system known wsasendmsg includePktinfo state

theorem sendBufferUso_attempts (cut : request.Cut) (state : σ) :
    ∃ tried, AttemptsMade system.layout request tried
      (sends (sendBufferUso system.logged request (state, [])).2)
      (sendBufferUso system.logged request (state, [])).1 := by
  cases available : system.wsaSendMsg with
  | none =>
      have missing : system.logged.wsaSendMsg = none := by
        rw [Winsock.logged, available]
        rfl
      rw [sendBufferUso_unavailable system.logged cut missing]
      refine ⟨[], List.nil_sublist _, .nil, ?_⟩
      intro succeeded
      cases succeeded
  | some wsasendmsg =>
      have logged : system.logged.wsaSendMsg =
          some (loggedSend wsasendmsg) := by
        rw [Winsock.logged, available]
        rfl
      obtain ⟨tried, calls, among, carried, seen, last⟩ :=
        @Attempts.inOrder_seen _ _ _
          (tryWsasendmsgUso system.logged (loggedSend wsasendmsg) request)
          request.attempts 0 (state, []) _ sends
          (Carried system.layout request)
          (by
            intro includePktinfo _ state error next ended
            rcases sends_tryWsasendmsgUso system cut wsasendmsg includePktinfo
              state with ⟨_, _, refused, unseen⟩ | ⟨call, carried, grown⟩
            · cases ended.symm.trans refused
              exact Or.inl unseen
            · rw [ended] at grown
              exact Or.inr ⟨call, carried, grown⟩)
          (by
            intro includePktinfo _ state next ended
            rcases sends_tryWsasendmsgUso system cut wsasendmsg includePktinfo
              state with ⟨_, _, refused, _⟩ | ⟨call, carried, grown⟩
            · cases ended.symm.trans refused
            · rw [ended] at grown
              exact ⟨call, carried, grown⟩)
      rw [sendBufferUso_cut system.logged cut logged]
      rcases attempted : Attempts.inOrder
          (tryWsasendmsgUso system.logged (loggedSend wsasendmsg) request)
          request.attempts 0 (state, []) with ⟨error | includePktinfo, final⟩
      · rw [attempted] at seen
        have all : sends final = calls := seen
        refine ⟨tried, among, ?_, fun succeeded => by cases succeeded⟩
        rw [← all] at carried
        exact carried
      · rw [attempted] at seen last
        have all : sends final = calls := seen
        refine ⟨tried, among, ?_, fun _ =>
          ⟨includePktinfo, last includePktinfo rfl, rfl⟩⟩
        rw [← all] at carried
        exact carried

/-- A batch that has to be cut up is handed over as a whole, at most once for
each attempt of the request and in their order, whatever the system answers.
Nothing else is sent, and the path that is reported is that of the last
send. -/
theorem sendBufferUso_sends (cut : request.Cut) (state : σ) :
    ∃ tried calls, tried.Sublist request.attempts ∧
      List.Forall₂ (Carried system.layout request) tried calls ∧
      sends (sendBufferUso system.logged request (state, [])).2 = calls ∧
      ((sendBufferUso system.logged request (state, [])).1.success = true →
        ∃ includePktinfo, tried.getLast? = some includePktinfo ∧
          (sendBufferUso system.logged request (state, [])).1 =
            request.sent request.segments
              (if includePktinfo then .pktinfoIfindex else .bindOnly)) := by
  obtain ⟨tried, made⟩ := sendBufferUso_attempts system cut state
  exact ⟨tried, _, made.order, made.carried, rfl, made.reported⟩

end Logged

/-- A system on which every call succeeds, but for a `WSASendMsg` with more
than one control message. -/
def withoutPktinfo : Winsock Unit where
  layout := cmsgLayout64
  sendto data _ _ _ := (.ok data.length, ())
  wsaSendMsg := some fun message _ _ =>
    if cmsgLayout64.space 4 < message.control.length then
      (.failure WSAEINVAL, ())
    else
      (.success (BitVec.ofNat 32 message.buffer.length), ())
  sleepEx _ := ((0, 0), ())
  wsaSetUdpSendMessageSize := none
  setsockopt _ _ := (.ok (), ())
  getBestInterfaceEx _ _ := (some 7, ())

def eightBytes : UsoRequest where
  data := List.replicate 8 0
  mss := 3
  target := { address := .v4 ⟨0x0A00000F⟩, port := 5000 }
  sourceAddress := .v4 ⟨0x0A000001⟩
  interfaceIndex := 7

theorem sendBufferUso_sends_eight :
    ∃ tried calls, tried.Sublist eightBytes.attempts ∧
      List.Forall₂ (Carried cmsgLayout64 eightBytes) tried calls ∧
      sends (sendBufferUso withoutPktinfo.logged eightBytes ((), [])).2 =
        calls ∧
      tried.getLast? = some false := by
  have cut : eightBytes.Cut :=
    { size := by decide
      mss_pos := by decide
      mss_le := by decide
      segments := by decide }
  obtain ⟨tried, calls, among, carried, seen, reported⟩ :=
    sendBufferUso_sends withoutPktinfo cut ()
  refine ⟨tried, calls, among, carried, seen, ?_⟩
  obtain ⟨includePktinfo, last, path⟩ := reported (by decide +kernel)
  have bindOnly :
      (sendBufferUso withoutPktinfo.logged eightBytes ((), [])).1.path =
        .bindOnly := by decide +kernel
  cases includePktinfo with
  | false => exact last
  | true =>
      rw [path] at bindOnly
      contradiction

end BoostUdp
