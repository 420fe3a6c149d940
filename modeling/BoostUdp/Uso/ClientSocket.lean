import BoostUdp.Uso.BindAddress
import BoostUdp.Uso.SendCalls
import BoostUdp.Uso.Wire

/-!
# The socket of the client

`run_client` of Windows makes a socket, sends its batches through it and closes
it.  What it throws on the way decides whether the socket is left open.
-/

namespace BoostUdp

open LittleEndian

def callFailed (call : String) (error : Word) : ClientError :=
  .runtime (call ++ " failed: " ++ toString error.toInt)

/-- What a run of the client leaves: the socket it made, if it got that far,
what it sent and what it threw. -/
structure ClientOutcome where
  socket : Option Nat := none
  sent : List (List Byte × UsoSendResult) := []
  error : Option ClientError := none
  deriving DecidableEq, Repr

/-- How far the client gets before its loop: it throws without a socket, or
with one whose address is not told, or it can send. -/
inductive OpenedClient where
  | failed (error : ClientError)
  | unnamed (sock : Nat) (error : ClientError)
  | ready (sock : Nat) (socket : UsoSocket)
  deriving DecidableEq, Repr

section Client

variable {σ ρ : Type} (library : SocketLibrary σ)
  (makeAddress : String → Option Address) (toText : AddressV4 → String)
  (byteDist : ρ → Byte × ρ) (options : ClientOptions)

def createUsoUdpSocket (bindAddress : String) (state : σ) :
    Except ClientError Nat × σ :=
  match library.wsaStartup state with
  | (false, state) => (.error (.runtime "WSAStartup failed"), state)
  | (true, state) =>
      match library.wsaSocket state with
      | (.error error, state) => (.error (callFailed "WSASocket" error), state)
      | (.ok sock, state) =>
          match library.setReuseAddr sock state with
          | (.error _, state) =>
              let state := library.closesocket sock state
              (.error (callFailed "SO_REUSEADDR"
                (library.wsaGetLastError state)), state)
          | (.ok _, state) =>
              match library.setSndBuf sock state with
              | (.error _, state) =>
                  let state := library.closesocket sock state
                  (.error (callFailed "SO_SNDBUF"
                    (library.wsaGetLastError state)), state)
              | (.ok _, state) =>
                  -- Here a text that is no address leaves the socket open.
                  match parseAddress makeAddress bindAddress with
                  | none => (.error (.address bindAddress), state)
                  | some (.v6 _) =>
                      (.error (.runtime
                        "USO socket requires IPv4 bind address"),
                        library.closesocket sock state)
                  | some (.v4 address) =>
                      match library.bind sock (.inet 0 address.bytes)
                          state with
                      | (.error error, state) =>
                          (.error (callFailed "bind" error),
                            library.closesocket sock state)
                      | (.ok _, state) => (.ok sock, state)

def usoSocketLocalEndpoint (sock : Nat) (state : σ) :
    Except ClientError Endpoint × σ :=
  match library.getsockname sock state with
  | (.error error, state) => (.error (callFailed "getsockname" error), state)
  | (.ok (port, address), state) =>
      (.ok { address := .v4 ⟨address⟩, port := htons port }, state)

/-- `run_client` up to its loop. -/
def openClient (state : σ) : OpenedClient × σ :=
  match parseAddress makeAddress options.destAddress with
  | none => (.failed (.address options.destAddress), state)
  | some address =>
      let remote : Endpoint := { address := address, port := options.destPort }
      match resolveUsoBindAddress library makeAddress toText
          options.sourceAddress remote state with
      | (.error error, state) => (.failed error, state)
      | (.ok info, state) =>
          match createUsoUdpSocket library makeAddress info.bindAddress
              state with
          | (.error error, state) => (.failed error, state)
          | (.ok sock, state) =>
              match usoSocketLocalEndpoint library sock state with
              | (.error error, state) => (.unnamed sock error, state)
              | (.ok bound, state) =>
                  (.ready sock
                    { remote := remote
                      bound := bound.address
                      interfaceIndex := info.interfaceIndex }, state)

def runClientWindows (rng : ρ) (state : σ) : ClientOutcome × σ :=
  match openClient library makeAddress toText options state with
  | (.failed error, state) => ({ error := some error }, state)
  | (.unnamed sock error, state) =>
      ({ socket := some sock, error := some error }, state)
  | (.ready sock socket, state) =>
      match runLoopWindows library.toWinsock byteDist options socket rng
          state with
      | (run, state) =>
          match run.error with
          | some error =>
              ({ socket := some sock
                 sent := run.sent
                 error := some (.runtime error) }, state)
          | none =>
              ({ socket := some sock, sent := run.sent },
                library.closesocket sock state)

end Client

/-- The calls on the socket of the client keep something. -/
structure Winsock.Keeps {σ β : Type} (system : Winsock σ) (view : σ → β) :
    Prop where
  sendto : ∀ data dest destLen state,
    view (system.sendto data dest destLen state).2 = view state
  wsaSendMsg : ∀ wsasendmsg, system.wsaSendMsg = some wsasendmsg →
    ∀ message overlapped state,
      view (wsasendmsg message overlapped state).2 = view state
  sleepEx : ∀ state, view (system.sleepEx state).2 = view state
  setSize : ∀ setSize, system.wsaSetUdpSendMessageSize = some setSize →
    ∀ mss state, view (setSize mss state).2 = view state
  setsockopt : ∀ mss state,
    view (system.setsockopt mss state).2 = view state
  getBestInterfaceEx : ∀ address state,
    view (system.getBestInterfaceEx address state).2 = view state

section Keeps

variable {σ ρ β : Type} {system : Winsock σ} {view : σ → β}

theorem Winsock.Keeps.invoke (keeps : system.Keeps view)
    {wsasendmsg : WsaMsg → Bool → σ → SendOutcome × σ}
    (available : system.wsaSendMsg = some wsasendmsg) (message : WsaMsg)
    (useCompletionRoutine : Bool) (state : σ) :
    view (invokeWsasendmsg system wsasendmsg message useCompletionRoutine
      state).2 = view state := by
  have called := keeps.wsaSendMsg wsasendmsg available message
    useCompletionRoutine state
  cases useCompletionRoutine with
  | false =>
      rw [invokeWsasendmsg, if_pos (by decide)]
      rcases outcome : wsasendmsg message false state with
        ⟨bytes | error, next⟩
      · rw [outcome] at called
        exact called
      · rw [outcome] at called
        exact called
  | true =>
      rw [invokeWsasendmsg, if_neg (by decide)]
      rcases outcome : wsasendmsg message true state with
        ⟨bytes | error, middle⟩
      · rw [outcome] at called
        exact called
      · rw [outcome] at called
        dsimp only
        by_cases pending : error ≠ WSA_IO_PENDING
        · rw [if_pos pending]
          exact called
        · rw [if_neg pending]
          have slept := keeps.sleepEx middle
          by_cases aborted : (system.sleepEx middle).1.1 ≠ 0
          · rw [if_pos aborted]
            exact slept.trans called
          · rw [if_neg aborted]
            exact slept.trans called

theorem Winsock.Keeps.attempt (keeps : system.Keeps view)
    {request : UsoRequest}
    {wsasendmsg : WsaMsg → Bool → σ → SendOutcome × σ}
    (available : system.wsaSendMsg = some wsasendmsg)
    (several : 1 < request.segments) (includePktinfo : Bool) (state : σ) :
    view (tryWsasendmsgUso system wsasendmsg request includePktinfo
      state).2 = view state := by
  obtain ⟨dest, destLen, known, _⟩ :=
    endpointToSockaddr_roundtrip request.target
  have asked := attemptIndex_keeps keeps.getBestInterfaceEx request
    includePktinfo state
  rw [tryWsasendmsgUso_eq system wsasendmsg several known, attemptSend]
  rcases indexed : attemptIndex system request includePktinfo state with
    ⟨index, middle⟩
  rw [indexed] at asked
  have set := configureUdpSendSegmentSize_keeps keeps.setSize
    keeps.setsockopt (BitVec.ofNat 32 request.mss) middle
  dsimp only
  rcases configured : configureUdpSendSegmentSize system
      (BitVec.ofNat 32 request.mss) middle with ⟨error | _, next⟩
  · rw [configured] at set
    exact set.trans asked
  · rw [configured] at set
    dsimp only
    rw [sendControlled_state]
    exact (keeps.invoke available _ _ next).trans (set.trans asked)

theorem Winsock.Keeps.buffer (keeps : system.Keeps view)
    {request : UsoRequest} (sendable : request.Single ∨ request.Cut)
    (state : σ) :
    view (sendBufferUso system request state).2 = view state := by
  rcases sendable with single | cut
  · rw [sendBufferUso_single system single, sendPlain, sendPlainDatagram]
    obtain ⟨dest, destLen, known, _⟩ :=
      endpointToSockaddr_roundtrip request.target
    have sent := keeps.sendto request.data dest destLen state
    rw [known]
    dsimp only
    rcases outcome : system.sendto request.data dest destLen state with
      ⟨error | bytes, next⟩
    · rw [outcome] at sent
      exact sent
    · rw [outcome] at sent
      dsimp only
      by_cases short : bytes ≠ request.data.length
      · rw [if_pos short]
        exact sent
      · rw [if_neg short]
        exact sent
  · cases available : system.wsaSendMsg with
    | none => rw [sendBufferUso_unavailable system cut available]
    | some wsasendmsg =>
        have kept := @Attempts.inOrder_keeps _ _ _
          (tryWsasendmsgUso system wsasendmsg request) request.attempts 0
          state (fun next => view next = view state)
          (fun _ next => view next = view state) rfl
          (by
            intro includePktinfo _ middle error next unchanged failed
            have attempted := keeps.attempt available cut.segments
              includePktinfo middle
            rw [failed] at attempted
            exact attempted.trans unchanged)
          (by
            intro includePktinfo _ middle next unchanged succeeded
            have attempted := keeps.attempt available cut.segments
              includePktinfo middle
            rw [succeeded] at attempted
            exact attempted.trans unchanged)
        rw [sendBufferUso_cut system cut available]
        rcases outcome : Attempts.inOrder
            (tryWsasendmsgUso system wsasendmsg request) request.attempts 0
            state with ⟨error | includePktinfo, next⟩
        · rw [outcome] at kept
          exact kept
        · rw [outcome] at kept
          exact kept.2

theorem Winsock.Keeps.batch (keeps : system.Keeps view)
    {options : ClientOptions} (socket : UsoSocket) {batch : List Byte}
    (sendable : (usoRequest options socket batch).Single ∨
      (usoRequest options socket batch).Cut) (state : σ) :
    view (sendBatchWindows system options socket batch state).2 =
      view state := by
  have sent := keeps.buffer sendable state
  rw [sendBatchWindows]
  rcases outcome : sendBufferUso system (usoRequest options socket batch)
      state with ⟨result, next⟩
  rw [outcome] at sent
  dsimp only
  cases result.success with
  | false => exact sent
  | true => exact sent

theorem Winsock.Keeps.loop (keeps : system.Keeps view)
    {options : ClientOptions} (sendable : options.Sendable)
    (byteDist : ρ → Byte × ρ) (socket : UsoSocket) (remaining i : Nat)
    {buffer : List Byte} (room : buffer.length = options.batchSize) (rng : ρ)
    (state : σ) :
    view (sendLoopWindows system byteDist options socket remaining i buffer
      rng state).2 = view state := by
  induction remaining generalizing i buffer rng state with
  | zero => rfl
  | succ remaining induction =>
      rw [sendLoopWindows]
      cases built : buildBatch byteDist buffer (BitVec.ofNat 32 i)
          (BitVec.ofNat 32 options.batchCount) rng with
      | error error => rfl
      | ok drawn =>
          obtain ⟨batch, rest⟩ := drawn
          have length := (length_buildBatch built).trans room
          have sent := keeps.batch socket
            (usoRequest_sendable socket sendable length) state
          dsimp only
          rcases outcome : sendBatchWindows system options socket batch
              state with ⟨error | result, next⟩
          · rw [outcome] at sent
            exact sent
          · rw [outcome] at sent
            exact (induction (i + 1) length rest next).trans sent

end Keeps

/-- A successful call opens a new socket and closing it takes it away.  No other
call opens or closes one. -/
structure Handles {σ : Type} (library : SocketLibrary σ)
    (openSockets : σ → List Nat) : Prop where
  wsaSocket : ∀ state, openSockets (library.wsaSocket state).2 =
    match (library.wsaSocket state).1 with
    | .ok sock => sock :: openSockets state
    | .error _ => openSockets state
  closesocket : ∀ sock state, openSockets (library.closesocket sock state) =
    (openSockets state).erase sock
  wsaStartup : ∀ state,
    openSockets (library.wsaStartup state).2 = openSockets state
  setReuseAddr : ∀ sock state,
    openSockets (library.setReuseAddr sock state).2 = openSockets state
  setSndBuf : ∀ sock state,
    openSockets (library.setSndBuf sock state).2 = openSockets state
  bind : ∀ sock address state,
    openSockets (library.bind sock address state).2 = openSockets state
  getsockname : ∀ sock state,
    openSockets (library.getsockname sock state).2 = openSockets state
  getAdaptersAddresses : ∀ size state,
    openSockets (library.getAdaptersAddresses size state).2 =
      openSockets state
  keeps : library.toWinsock.Keeps openSockets

section Sockets

variable {σ ρ : Type} {library : SocketLibrary σ}
  {openSockets : σ → List Nat} (handles : Handles library openSockets)

include handles

theorem Handles.onInterface (ifIndex : Word) (state : σ) :
    openSockets (ipv4OnInterfaceIndex library ifIndex state).2 =
      openSockets state := by
  have listed := handles.getAdaptersAddresses (15 * 1024) state
  rw [ipv4OnInterfaceIndex]
  rcases first : library.getAdaptersAddresses (15 * 1024) state with
    ⟨adapters | bufferSize | _, next⟩
  · rw [first] at listed
    exact listed
  · rw [first] at listed
    have again := handles.getAdaptersAddresses bufferSize next
    dsimp only
    rcases second : library.getAdaptersAddresses bufferSize next with
      ⟨adapters | larger | _, last⟩
    · rw [second] at again
      exact again.trans listed
    · rw [second] at again
      exact again.trans listed
    · rw [second] at again
      exact again.trans listed
  · rw [first] at listed
    exact listed

theorem Handles.egress (destination : Endpoint) (state : σ) :
    openSockets (ipv4EgressForDestination library destination state).2 =
      openSockets state := by
  rw [ipv4EgressForDestination]
  cases destination.address with
  | v6 address => rfl
  | v4 address =>
      have asked := handles.keeps.getBestInterfaceEx
        (.inet (htons destination.port) address.bytes) state
      dsimp only
      rcases routed : library.getBestInterfaceEx
          (.inet (htons destination.port) address.bytes) state with
        ⟨_ | ifIndex, next⟩
      · rw [routed] at asked
        exact asked
      · rw [routed] at asked
        have found := handles.onInterface ifIndex next
        dsimp only
        rcases searched : ipv4OnInterfaceIndex library ifIndex next with
          ⟨_ | egress, last⟩
        · rw [searched] at found
          exact found.trans asked
        · rw [searched] at found
          exact found.trans asked

theorem Handles.source (source : Address) (destination : Endpoint)
    (state : σ) :
    openSockets (sourceInterface library source destination state).2 =
      openSockets state := by
  have asked : openSockets (addressInterface library source state).2 =
      openSockets state := by
    unfold addressInterface
    cases source with
    | v6 address => rfl
    | v4 address =>
        have found := ipv4InterfaceIndex_keeps handles.keeps.getBestInterfaceEx
          address state
        dsimp only
        rcases indexed : ipv4InterfaceIndex library.toWinsock address state
          with ⟨_ | index, next⟩
        · rw [indexed] at found
          exact found
        · rw [indexed] at found
          exact found
  rw [sourceInterface]
  rcases own : addressInterface library source state with
    ⟨interfaceIndex, next⟩
  rw [own] at asked
  dsimp only
  by_cases none : interfaceIndex = 0
  · rw [if_pos none]
    have found := handles.egress destination next
    rcases routed : ipv4EgressForDestination library destination next with
      ⟨_ | egress, last⟩
    · rw [routed] at found
      exact found.trans asked
    · rw [routed] at found
      exact found.trans asked
  · rw [if_neg none]
    exact asked

theorem Handles.resolve (makeAddress : String → Option Address)
    (toText : AddressV4 → String) (sourceOption : String)
    (destination : Endpoint) (state : σ) :
    openSockets (resolveUsoBindAddress library makeAddress toText
      sourceOption destination state).2 = openSockets state := by
  rw [resolveUsoBindAddress]
  by_cases given : (!bindOptionIsWildcard sourceOption) = true
  · rw [if_pos given]
    cases parseAddress makeAddress sourceOption with
    | none => rfl
    | some source => exact handles.source source destination state
  · rw [if_neg given]
    have found := handles.egress destination state
    rcases routed : ipv4EgressForDestination library destination state with
      ⟨_ | egress, next⟩
    · rw [routed] at found
      exact found
    · rw [routed] at found
      exact found

/-- A socket that is not returned is closed, if the text is an address. -/
theorem Handles.create {makeAddress : String → Option Address}
    {bindAddress : String} {address : Address}
    (parsed : parseAddress makeAddress bindAddress = some address)
    (state : σ) :
    openSockets (createUsoUdpSocket library makeAddress bindAddress
        state).2 =
      match (createUsoUdpSocket library makeAddress bindAddress state).1 with
      | .ok sock => sock :: openSockets state
      | .error _ => openSockets state := by
  have started := handles.wsaStartup state
  rw [createUsoUdpSocket]
  rcases began : library.wsaStartup state with ⟨_ | _, begun⟩
  · rw [began] at started
    exact started
  · rw [began] at started
    have opened := handles.wsaSocket begun
    dsimp only
    rcases made : library.wsaSocket begun with ⟨error | sock, next⟩
    · rw [made] at opened
      exact opened.trans started
    · rw [made] at opened
      dsimp only at opened ⊢
      rw [started] at opened
      have closed : ∀ later, openSockets later = openSockets next →
          openSockets (library.closesocket sock later) =
            openSockets state := by
        intro later same
        rw [handles.closesocket, same, opened, List.erase_cons_head]
      have reused := handles.setReuseAddr sock next
      rcases reuse : library.setReuseAddr sock next with ⟨error | _, later⟩
      · rw [reuse] at reused
        exact closed later reused
      · rw [reuse] at reused
        have sized := handles.setSndBuf sock later
        dsimp only
        rcases size : library.setSndBuf sock later with ⟨error | _, last⟩
        · rw [size] at sized
          exact closed last (sized.trans reused)
        · rw [size] at sized
          have kept := sized.trans reused
          rw [parsed]
          cases address with
          | v6 address => exact closed last kept
          | v4 address =>
              have bound := handles.bind sock (.inet 0 address.bytes) last
              dsimp only
              rcases tied : library.bind sock (.inet 0 address.bytes) last
                with ⟨error | _, final⟩
              · rw [tied] at bound
                exact closed final (bound.trans kept)
              · rw [tied] at bound
                exact (bound.trans kept).trans opened

omit handles in
/-- What `run_client` binds to is the text of an address. -/
theorem resolveUsoBindAddress_parses
    {makeAddress : String → Option Address} {toText : AddressV4 → String}
    (renders : ∀ address,
      parseAddress makeAddress (toText address) = some (.v4 address))
    {sourceOption : String} {destination : Endpoint} {state next : σ}
    {info : UsoBindInfo}
    (resolved : resolveUsoBindAddress library makeAddress toText sourceOption
      destination state = (.ok info, next)) :
    ∃ address, parseAddress makeAddress info.bindAddress = some address := by
  rw [resolveUsoBindAddress] at resolved
  by_cases given : (!bindOptionIsWildcard sourceOption) = true
  · rw [if_pos given] at resolved
    cases parsed : parseAddress makeAddress sourceOption with
    | none =>
        rw [parsed] at resolved
        cases resolved
    | some source =>
        rw [parsed] at resolved
        cases resolved
        exact ⟨source, parsed⟩
  · rw [if_neg given] at resolved
    rcases routed : ipv4EgressForDestination library destination state with
      ⟨_ | ⟨egress, ifIndex⟩, last⟩
    · rw [routed] at resolved
      cases resolved
      refine ⟨.v4 ⟨0⟩, ?_⟩
      rw [parseAddress, if_pos]
      simp only [bindOptionIsWildcard, Bool.not_eq_true', Bool.not_eq_false,
        Bool.or_eq_true, decide_eq_true_eq] at given
      grind
    · rw [routed] at resolved
      cases resolved
      exact ⟨.v4 egress, renders egress⟩

/-- Up to its loop the client leaves a socket open only if it has made one. -/
theorem Handles.opens {makeAddress : String → Option Address}
    {toText : AddressV4 → String}
    (renders : ∀ address,
      parseAddress makeAddress (toText address) = some (.v4 address))
    (options : ClientOptions) (state : σ) :
    openSockets (openClient library makeAddress toText options state).2 =
      match (openClient library makeAddress toText options state).1 with
      | .failed _ => openSockets state
      | .unnamed sock _ => sock :: openSockets state
      | .ready sock _ => sock :: openSockets state := by
  rw [openClient]
  cases parseAddress makeAddress options.destAddress with
  | none => rfl
  | some address =>
      have resolving := handles.resolve makeAddress toText
        options.sourceAddress
        { address := address, port := options.destPort } state
      dsimp only
      rcases resolved : resolveUsoBindAddress library makeAddress toText
          options.sourceAddress
          { address := address, port := options.destPort } state with
        ⟨error | info, next⟩
      · rw [resolved] at resolving
        exact resolving
      · rw [resolved] at resolving
        obtain ⟨bindAddress, parsed⟩ :=
          resolveUsoBindAddress_parses renders resolved
        have creating := handles.create parsed next
        dsimp only
        rcases created : createUsoUdpSocket library makeAddress
            info.bindAddress next with ⟨error | sock, later⟩
        · rw [created] at creating
          exact creating.trans resolving
        · rw [created] at creating
          have naming := handles.getsockname sock later
          dsimp only at creating ⊢
          rw [resolving] at creating
          rw [usoSocketLocalEndpoint]
          rcases named : library.getsockname sock later with
            ⟨error | ⟨port, bound⟩, last⟩
          · rw [named] at naming
            exact naming.trans creating
          · rw [named] at naming
            exact naming.trans creating

/-- Whatever the system answers, the client closes its socket if and only if
it throws nothing: what it throws before it has one leaves none behind, and
what it throws later leaves that one open. -/
theorem Handles.client_sockets {makeAddress : String → Option Address}
    {toText : AddressV4 → String}
    (renders : ∀ address,
      parseAddress makeAddress (toText address) = some (.v4 address))
    {options : ClientOptions} (sendable : options.Sendable)
    (byteDist : ρ → Byte × ρ) (rng : ρ) {state next : σ}
    {outcome : ClientOutcome}
    (ran : runClientWindows library makeAddress toText byteDist options rng
      state = (outcome, next)) :
    openSockets next =
      match outcome.socket, outcome.error with
      | some sock, some _ => sock :: openSockets state
      | _, _ => openSockets state := by
  have opened := handles.opens renders options state
  rw [runClientWindows] at ran
  rcases opening : openClient library makeAddress toText options state with
    ⟨error | ⟨sock, error⟩ | ⟨sock, socket⟩, middle⟩
  · rw [opening] at opened ran
    cases ran
    exact opened
  · rw [opening] at opened ran
    cases ran
    exact opened
  · rw [opening] at opened ran
    have room : (List.replicate options.batchSize (0 : Byte)).length =
        options.batchSize := List.length_replicate
    have looping := handles.keeps.loop sendable byteDist socket
      options.batchCount 0 room rng middle
    rw [← runLoopWindows] at looping
    dsimp only at opened ran
    rcases looped : runLoopWindows library.toWinsock byteDist options socket
        rng middle with ⟨run, final⟩
    rw [looped] at looping ran
    dsimp only at ran
    cases thrown : run.error with
    | some error =>
        rw [thrown] at ran
        cases ran
        exact looping.trans opened
    | none =>
        rw [thrown] at ran
        cases ran
        rw [handles.closesocket]
        exact (congrArg (fun sockets => sockets.erase sock)
          (looping.trans opened)).trans (List.erase_cons_head _ _)

end Sockets

/-- A bound socket tells the address that it was bound to. -/
def TellsBound {σ : Type} (library : SocketLibrary σ) : Prop :=
  ∀ {sock address state next port told last}, address ≠ 0 →
    library.bind sock (.inet 0 address) state = (.ok (), next) →
    library.getsockname sock next = (.ok (port, told), last) →
      told = address

/-- The socket sends from an address of the interface that routes to the
destination, and knows that interface. -/
def Egresses (adapters : List Adapter) (route : Option Word)
    (socket : UsoSocket) : Prop :=
  ∃ egress, socket.bound = .v4 egress ∧
    route = some socket.interfaceIndex ∧
    Egress adapters socket.interfaceIndex egress

section Egress

variable {σ : Type} {library : SocketLibrary σ}
  {makeAddress : String → Option Address} {toText : AddressV4 → String}

/-- What is bound is the address in the text. -/
theorem createUsoUdpSocket_bound (tells : TellsBound library)
    {bindAddress : String} {address : AddressV4}
    (parsed : parseAddress makeAddress bindAddress = some (.v4 address))
    (specified : address.isUnspecified = false) {sock : Nat}
    {state next last : σ} {bound : Endpoint}
    (created : createUsoUdpSocket library makeAddress bindAddress state =
      (.ok sock, next))
    (named : usoSocketLocalEndpoint library sock next = (.ok bound, last)) :
    bound.address = .v4 address := by
  have nonzero : address.bytes ≠ 0 := by
    intro zero
    rw [AddressV4.isUnspecified, zero] at specified
    contradiction
  rw [usoSocketLocalEndpoint] at named
  rcases asked : library.getsockname sock next with
    ⟨error | ⟨port, told⟩, final⟩
  · rw [asked] at named
    cases named
  · rw [asked] at named
    cases named
    rw [createUsoUdpSocket] at created
    rcases began : library.wsaStartup state with ⟨_ | _, begun⟩
    · rw [began] at created
      cases created
    rw [began] at created
    dsimp only at created
    rcases made : library.wsaSocket begun with ⟨error | sock', opened⟩
    · rw [made] at created
      cases created
    rw [made] at created
    dsimp only at created
    rcases reused : library.setReuseAddr sock' opened with ⟨error | _, later⟩
    · rw [reused] at created
      cases created
    rw [reused] at created
    dsimp only at created
    rcases sized : library.setSndBuf sock' later with ⟨error | _, last'⟩
    · rw [sized] at created
      cases created
    rw [sized, parsed] at created
    dsimp only at created
    rcases tied : library.bind sock' (.inet 0 address.bytes) last' with
      ⟨error | _, bound'⟩
    · rw [tied] at created
      cases created
    rw [tied] at created
    cases created
    rw [tells nonzero tied asked]

/-- Then every batch that has to be cut up goes out with that address and its
interface at first. -/
theorem Egresses.attempts {adapters : List Adapter} {route : Option Word}
    {socket : UsoSocket} (egresses : Egresses adapters route socket)
    (indexed : socket.interfaceIndex ≠ 0) {options : ClientOptions}
    (told : options.noPktinfo = false) (batch : List Byte) :
    (usoRequest options socket batch).attempts = [true, false, true] := by
  obtain ⟨egress, bound, _, fit⟩ := egresses
  have specified : sourceAddressIsUnspecified socket.bound = false := by
    rw [sourceAddressIsUnspecified_eq, bound]
    exact fit.specified
  have given : decide (socket.interfaceIndex ≠ 0) = true :=
    decide_eq_true indexed
  simp only [UsoRequest.attempts, usoRequest, told, specified, given]
  rfl

/-- A send of the batch that tells the address and the index of the socket, or
leaves them out. -/
def Tells (layout : CmsgLayout) (options : ClientOptions) (socket : UsoSocket)
    (batch : List Byte) (includePktinfo : Bool) (call : SystemCall) : Prop :=
  ∃ message, call = .wsaSendMsg message options.completionRoutine ∧
    message.buffer = batch ∧
    layout.walk message.control =
      (if includePktinfo then
        [pktinfoMessage socket.bound socket.interfaceIndex]
      else
        []) ++ [sendMsgSizeMessage (BitVec.ofNat 32 options.mss)]

/-- What is handed over for a batch that has to be cut up. -/
theorem Egresses.sends {adapters : List Adapter} {route : Option Word}
    {socket : UsoSocket} (egresses : Egresses adapters route socket)
    (indexed : socket.interfaceIndex ≠ 0) {options : ClientOptions}
    {batch : List Byte} (cut : (usoRequest options socket batch).Cut)
    (state : σ) :
    ∃ tried, tried.Sublist (usoRequest options socket batch).attempts ∧
      List.Forall₂ (Tells library.layout options socket batch) tried
        (sends (sendBufferUso library.toWinsock.logged
          (usoRequest options socket batch) (state, [])).2) := by
  obtain ⟨egress, bound, _, fit⟩ := egresses
  have specified : sourceAddressIsUnspecified socket.bound = false := by
    rw [sourceAddressIsUnspecified_eq, bound]
    exact fit.specified
  obtain ⟨tried, made⟩ := sendBufferUso_attempts library.toWinsock cut state
  refine ⟨tried, made.order, made.carried.imp ?_⟩
  rintro includePktinfo call ⟨message, index, sent, whole, _, walked⟩
  have told : (usoRequest options socket batch).interfaceIndex ≠ 0 := indexed
  rw [if_neg told] at walked
  refine ⟨message, sent, whole, walked.trans ?_⟩
  simp only [usoRequest, UsoRequest.messages, UsoRequest.tells, specified,
    Bool.not_false, Bool.and_true]

/-- With the default source the client sends from the interface that routes to
the destination whenever it has an address there, and says so to the system
with every batch that has to be cut up, at first and at last. -/
theorem Host.client_egress {routes : SockAddr → Option Word}
    {adapters : List Adapter} (host : Host library routes adapters)
    (tells : TellsBound library)
    (renders : ∀ address,
      parseAddress makeAddress (toText address) = some (.v4 address))
    {options : ClientOptions}
    (wildcard : bindOptionIsWildcard options.sourceAddress = true)
    {dest : AddressV4}
    (ipv4 : parseAddress makeAddress options.destAddress = some (.v4 dest))
    {sock : Nat} {socket : UsoSocket} {state next : σ}
    (opened : openClient library makeAddress toText options state =
      (.ready sock socket, next)) :
    let route := routes (.inet (htons options.destPort) dest.bytes)
    (Egresses adapters route socket ∧
      (socket.interfaceIndex ≠ 0 → options.noPktinfo = false →
        ∀ batch, (usoRequest options socket batch).attempts =
            [true, false, true] ∧
          ((usoRequest options socket batch).Cut → ∀ before,
            ∃ tried, tried.Sublist [true, false, true] ∧
              List.Forall₂ (Tells library.layout options socket batch) tried
                (sends (sendBufferUso library.toWinsock.logged
                  (usoRequest options socket batch) (before, [])).2)))) ∨
    (socket.interfaceIndex = 0 ∧
      ∀ ifIndex egress, route = some ifIndex →
        ¬Egress adapters ifIndex egress) := by
  intro route
  rw [openClient, ipv4] at opened
  dsimp only at opened
  obtain ⟨info, resolved, selected, unselected⟩ :=
    host.resolve_wildcard makeAddress toText wildcard
      (show ({ address := .v4 dest, port := options.destPort } :
        Endpoint).address = .v4 dest from rfl) state
  rw [resolved] at opened
  dsimp only at opened
  rcases created : createUsoUdpSocket library makeAddress info.bindAddress
      state with ⟨error | sock', later⟩
  · rw [created] at opened
    cases opened
  · rw [created] at opened
    dsimp only at opened
    rcases named : usoSocketLocalEndpoint library sock' later with
      ⟨error | bound, last⟩
    · rw [named] at opened
      cases opened
    · rw [named] at opened
      cases opened
      cases auto : info.autoSelected with
      | true =>
          obtain ⟨egress, text, routed, fit⟩ := selected auto
          have parsed := renders egress
          rw [← text] at parsed
          have egresses : Egresses adapters route
              { remote := { address := .v4 dest, port := options.destPort }
                bound := bound.address
                interfaceIndex := info.interfaceIndex } :=
            ⟨egress, createUsoUdpSocket_bound tells parsed fit.specified
              created named, routed, fit⟩
          refine Or.inl ⟨egresses, fun indexed told batch => ?_⟩
          have attempts := egresses.attempts indexed told batch
          refine ⟨attempts, fun cut before => ?_⟩
          rw [← attempts]
          exact egresses.sends indexed cut before
      | false =>
          obtain ⟨same, none⟩ := unselected auto
          right
          refine ⟨?_, none⟩
          rw [same]

end Egress

def parseByte (digits : List Char) : Option Byte :=
  let value := digits.foldl (fun value digit =>
    10 * value + (digit.toNat - 48)) 0
  if value < 256 ∧ Nat.toDigits 10 value = digits then
    some (BitVec.ofNat 8 value)
  else
    none

def dottedQuad (address : AddressV4) : String :=
  String.ofList (['.'].intercalate
    (address.toBytes.map fun byte => Nat.toDigits 10 byte.toNat))

/-- `make_address` for IPv4. -/
def parseDottedQuad (text : String) : Option Address :=
  match (text.toList.splitOn '.').mapM parseByte with
  | some [first, second, third, fourth] =>
      some (.v4 ⟨wordAt [fourth, third, second, first] 0⟩)
  | _ => none

theorem parseByte_toDigits : ∀ value : Fin 256,
    parseByte (Nat.toDigits 10 value) = some (BitVec.ofNat 8 value) ∧
      '.' ∉ Nat.toDigits 10 value := by
  decide +kernel

theorem parseByte_byte (byte : Byte) :
    parseByte (Nat.toDigits 10 byte.toNat) = some byte ∧
      '.' ∉ Nat.toDigits 10 byte.toNat := by
  have digits := parseByte_toDigits ⟨byte.toNat, byte.isLt⟩
  rw [BitVec.ofNat_toNat, BitVec.setWidth_eq] at digits
  exact digits

theorem parseDottedQuad_dottedQuad (address : AddressV4) :
    parseDottedQuad (dottedQuad address) = some (.v4 address) := by
  have cut : (dottedQuad address).toList.splitOn '.' =
      address.toBytes.map fun byte => Nat.toDigits 10 byte.toNat := by
    rw [dottedQuad, String.toList_ofList]
    apply List.splitOn_intercalate
    · intro digits member
      obtain ⟨byte, _, rfl⟩ := List.mem_map.mp member
      exact (parseByte_byte byte).2
    · simp [AddressV4.toBytes]
  have bytes : address.toBytes =
      [address.bytes.extractLsb' 24 8, address.bytes.extractLsb' 16 8,
        address.bytes.extractLsb' 8 8, address.bytes.extractLsb' 0 8] := rfl
  have word := wordAt_wordBytes_append address.bytes []
  rw [List.append_nil, wordBytes] at word
  rw [parseDottedQuad, cut, bytes]
  simp only [List.map_cons, List.map_nil, List.mapM_cons, List.mapM_nil,
    (parseByte_byte _).1, Option.pure_def, Option.bind_eq_bind,
    Option.bind_some]
  rw [word]

theorem dottedQuad_renders (address : AddressV4) :
    parseAddress parseDottedQuad (dottedQuad address) =
      some (.v4 address) := by
  have parsed := parseDottedQuad_dottedQuad address
  have none : parseDottedQuad "*" = none ∧ parseDottedQuad "0" = none ∧
      parseDottedQuad "::" = none ∧
      parseDottedQuad "0:0:0:0:0:0:0:0" = none := by decide +kernel
  have zero : parseDottedQuad "0.0.0.0" = some (.v4 ⟨0⟩) := by
    decide +kernel
  rw [parseAddress]
  by_cases any : dottedQuad address = "*" ∨ dottedQuad address = "0.0.0.0" ∨
      dottedQuad address = "0"
  · rw [if_pos any]
    rcases any with same | same | same
    · rw [same, none.1] at parsed
      contradiction
    · rw [same, zero] at parsed
      exact parsed
    · rw [same, none.2.1] at parsed
      contradiction
  · rw [if_neg any]
    by_cases any6 : dottedQuad address = "::" ∨
        dottedQuad address = "0:0:0:0:0:0:0:0"
    · rcases any6 with same | same
      · rw [same, none.2.2.1] at parsed
        contradiction
      · rw [same, none.2.2.2] at parsed
        contradiction
    · rw [if_neg any6]
      exact parsed

def lanAdapter : Adapter where
  up := true
  ifIndex := 7
  ipv6IfIndex := 0
  unicast := [none, some (.inet 0 0x7F000001), some (.inet 0 0x0A000001)]

/-- A host with one adapter, on which no `WSASendMsg` finds room.  Its state is
the open sockets and the address that was bound last. -/
def oneRoute : SocketLibrary (List Nat × BitVec 32) where
  layout := cmsgLayout64
  sendto data _ _ state := (.ok data.length, state)
  wsaSendMsg := some fun _ _ state => (.failure 10055, state)
  sleepEx state := ((0, 0), state)
  wsaSetUdpSendMessageSize := none
  setsockopt _ state := (.ok (), state)
  getBestInterfaceEx _ state := (some 7, state)
  wsaGetLastError _ := 0
  getAdaptersAddresses _ state := (.found [lanAdapter], state)
  wsaStartup state := (true, state)
  wsaSocket state := (.ok 100, (100 :: state.1, state.2))
  setReuseAddr _ state := (.ok (), state)
  setSndBuf _ state := (.ok (), state)
  bind _ address state :=
    match address with
    | .inet _ address => (.ok (), (state.1, address))
    | .inet6 _ _ _ => (.error WSAEINVAL, state)
  getsockname _ state := (.ok (htons 50000, state.2), state)
  closesocket sock state := (state.1.erase sock, state.2)

theorem oneRoute_handles : Handles oneRoute Prod.fst :=
  { wsaSocket := fun _ => rfl
    closesocket := fun _ _ => rfl
    wsaStartup := fun _ => rfl
    setReuseAddr := fun _ _ => rfl
    setSndBuf := fun _ _ => rfl
    bind := by
      intro sock address state
      cases address with
      | inet port address => rfl
      | inet6 port address scopeId => rfl
    getsockname := fun _ _ => rfl
    getAdaptersAddresses := fun _ _ => rfl
    keeps :=
      { sendto := fun _ _ _ _ => rfl
        wsaSendMsg := by
          intro wsasendmsg available message overlapped state
          cases available
          rfl
        sleepEx := fun _ => rfl
        setSize := by
          intro setSize available
          cases available
        setsockopt := fun _ _ => rfl
        getBestInterfaceEx := fun _ _ => rfl } }

theorem oneRoute_host :
    Host oneRoute (fun _ => some 7) [lanAdapter] :=
  { best := fun _ _ => rfl
    listed := fun _ => ⟨0, Or.inl rfl, rfl⟩ }

theorem oneRoute_tellsBound : TellsBound oneRoute := by
  intro sock address state next port told last _ bound named
  cases bound
  cases named
  rfl

/-- The same batches as single datagrams. -/
def twoPlainBatches : ClientOptions :=
  { twoSmallBatches.options with mss := 0 }

theorem twoPlainBatches_sendable : twoPlainBatches.Sendable :=
  { twoSmallBatches_undisturbed.sendable with mss := by decide }

/-- Where the batches have to be cut up the first one is refused, and the
socket stays open.  As single datagrams they go out, and it is closed. -/
theorem Handles.client_sockets_refused :
    (∃ outcome next,
      runClientWindows oneRoute parseDottedQuad dottedQuad sameByte
          twoSmallBatches.options 0 ([], 0) = (outcome, next) ∧
        outcome.error = some (.runtime
          "send failed: WSASendMsg failed: 10055") ∧
        next.1 = [100]) ∧
    ∃ outcome next,
      runClientWindows oneRoute parseDottedQuad dottedQuad sameByte
          twoPlainBatches 0 ([], 0) = (outcome, next) ∧
        outcome.error = none ∧ outcome.sent.length = 2 ∧ next.1 = [] := by
  constructor
  · obtain ⟨outcome, next, ran⟩ : ∃ outcome next,
        runClientWindows oneRoute parseDottedQuad dottedQuad sameByte
          twoSmallBatches.options 0 ([], 0) = (outcome, next) := ⟨_, _, rfl⟩
    have sockets := oneRoute_handles.client_sockets dottedQuad_renders
      twoSmallBatches_undisturbed.sendable sameByte 0 ran
    have ended : (runClientWindows oneRoute parseDottedQuad dottedQuad sameByte
        twoSmallBatches.options 0 ([], 0)).1.socket = some 100 ∧
        (runClientWindows oneRoute parseDottedQuad dottedQuad sameByte
          twoSmallBatches.options 0 ([], 0)).1.error =
            some (.runtime "send failed: WSASendMsg failed: 10055") := by
      decide +kernel
    rw [ran] at ended
    rw [ended.1, ended.2] at sockets
    exact ⟨outcome, next, ran, ended.2, sockets⟩
  · obtain ⟨outcome, next, ran⟩ : ∃ outcome next,
        runClientWindows oneRoute parseDottedQuad dottedQuad sameByte
          twoPlainBatches 0 ([], 0) = (outcome, next) := ⟨_, _, rfl⟩
    have sockets := oneRoute_handles.client_sockets dottedQuad_renders
      twoPlainBatches_sendable sameByte 0 ran
    have ended : (runClientWindows oneRoute parseDottedQuad dottedQuad sameByte
        twoPlainBatches 0 ([], 0)).1.socket = some 100 ∧
        (runClientWindows oneRoute parseDottedQuad dottedQuad sameByte
          twoPlainBatches 0 ([], 0)).1.error = none ∧
        (runClientWindows oneRoute parseDottedQuad dottedQuad sameByte
          twoPlainBatches 0 ([], 0)).1.sent.length = 2 := by
      decide +kernel
    rw [ran] at ended
    rw [ended.1, ended.2.1] at sockets
    exact ⟨outcome, next, ran, ended.2.1, ended.2.2, sockets⟩

/-- The client binds to the address of the adapter that is not the host
itself, and says so in the first and the last of the three attempts that this
system refuses. -/
theorem Host.client_egress_lan :
    ∃ sock next, openClient oneRoute parseDottedQuad dottedQuad
        twoSmallBatches.options ([], 0) = (.ready sock socketToFifteen, next) ∧
      Egresses [lanAdapter] (some 7) socketToFifteen ∧
      List.Forall₂
        (Tells cmsgLayout64 twoSmallBatches.options socketToFifteen
          (List.replicate 21 0)) [true, false, true]
        (sends (sendBufferUso oneRoute.toWinsock.logged
          (usoRequest twoSmallBatches.options socketToFifteen
            (List.replicate 21 0)) (next, [])).2) := by
  have opened : openClient oneRoute parseDottedQuad dottedQuad
      twoSmallBatches.options ([], 0) =
        (.ready 100 socketToFifteen, ([100], 0x0A000001)) := by
    decide +kernel
  have parsed : parseAddress parseDottedQuad
      twoSmallBatches.options.destAddress = some (.v4 ⟨0x0A00000F⟩) := by
    decide +kernel
  have cut : (usoRequest twoSmallBatches.options socketToFifteen
      (List.replicate 21 0)).Cut :=
    { size := by decide
      mss_pos := by decide
      mss_le := by decide
      segments := by decide }
  refine ⟨_, _, opened, ?_⟩
  rcases oneRoute_host.client_egress oneRoute_tellsBound dottedQuad_renders
      (by decide) parsed opened with ⟨egresses, tells⟩ | ⟨zero, _⟩
  · obtain ⟨_, sent⟩ := tells (by decide) rfl (List.replicate 21 0)
    obtain ⟨tried, among, told⟩ := sent cut ([100], 0x0A000001)
    have three : (sends (sendBufferUso oneRoute.toWinsock.logged
        (usoRequest twoSmallBatches.options socketToFifteen
          (List.replicate 21 0)) (([100], 0x0A000001), [])).2).length = 3 := by
      decide +kernel
    cases among.eq_of_length (told.length_eq.trans three)
    exact ⟨egresses, told⟩
  · contradiction

end BoostUdp
