import BoostUdp.ClientRun
import BoostUdp.DetectedMss
import BoostUdp.EndToEnd
import BoostUdp.Uso.SendBuffer

/-!
# What goes on the wire

On a system that does what its documentation says, `send_buffer_uso` puts the
same datagrams on the wire as `send_batch_fallback`, whichever of its attempts
succeeds, and nothing when it fails.
-/

namespace BoostUdp

open LittleEndian RecordChain

theorem segmented_cons_iff {mss : Nat} {piece : List Byte}
    {pieces : List (List Byte)} :
    Segmented mss (piece :: pieces) ↔
      (pieces = [] ∧ piece ≠ [] ∧ piece.length ≤ mss) ∨
        (piece.length = mss ∧ Segmented mss pieces) := by
  constructor
  · rintro ⟨full, last, split, same, nonempty, fits⟩
    cases full with
    | nil =>
        cases split
        exact Or.inl ⟨rfl, nonempty, fits⟩
    | cons first full =>
        cases split
        exact Or.inr ⟨same piece List.mem_cons_self, full, last, rfl,
          fun other member => same other (List.mem_cons_of_mem _ member),
          nonempty, fits⟩
  · rintro (⟨rfl, nonempty, fits⟩ | ⟨size, segmented⟩)
    · refine ⟨[], piece, rfl, ?_, nonempty, fits⟩
      intro other member
      contradiction
    · exact segmented.cons size

theorem Segmented.flatten_pos {mss : Nat} {pieces : List (List Byte)}
    (segmented : Segmented mss pieces) : 0 < pieces.flatten.length := by
  obtain ⟨full, last, rfl, _, nonempty, _⟩ := segmented
  rw [List.flatten_append, List.length_append, List.flatten_singleton]
  exact Nat.add_pos_right _ (List.length_pos_of_ne_nil nonempty)

/-- A batch is cut in one way only. -/
theorem Segmented.unique {mss : Nat} {first second : List (List Byte)}
    (cut : Segmented mss first) (cut' : Segmented mss second)
    (same : first.flatten = second.flatten) : first = second := by
  induction first generalizing second with
  | nil =>
      obtain ⟨full, last, split, _⟩ := cut
      have empty := List.append_eq_nil_iff.mp split.symm
      cases empty.2
  | cons piece pieces induction =>
      cases second with
      | nil =>
          obtain ⟨full, last, split, _⟩ := cut'
          have empty := List.append_eq_nil_iff.mp split.symm
          cases empty.2
      | cons piece' pieces' =>
          rw [List.flatten_cons, List.flatten_cons] at same
          have sizes := congrArg List.length same
          rw [List.length_append, List.length_append] at sizes
          rcases segmented_cons_iff.mp cut with
            ⟨rfl, _, fits⟩ | ⟨size, later⟩
          · rcases segmented_cons_iff.mp cut' with
              ⟨rfl, _, _⟩ | ⟨size', later'⟩
            · rw [List.flatten_nil, List.append_nil, List.append_nil] at same
              rw [same]
            · have more := later'.flatten_pos
              rw [List.flatten_nil, List.length_nil] at sizes
              omega
          · rcases segmented_cons_iff.mp cut' with
              ⟨rfl, _, fits'⟩ | ⟨size', later'⟩
            · have more := later.flatten_pos
              rw [List.flatten_nil, List.length_nil] at sizes
              omega
            · obtain ⟨rfl, rest⟩ := List.append_inj same
                (size.trans size'.symm)
              rw [induction later later' rest]

/-- What `send_batch_fallback` sends of a batch. -/
def fallbackPieces (data : List Byte) (mss : Nat) (pieces : List (List Byte)) :
    Prop :=
  sendBatchFallback List.length data mss = .ok pieces

theorem fallbackPieces_cut {data : List Byte} {mss : Nat}
    {pieces : List (List Byte)} (positive : 0 < mss)
    (segmented : Segmented mss pieces) (whole : pieces.flatten = data) :
    fallbackPieces data mss pieces := by
  obtain ⟨pieces', sent, flat⟩ := sendBatchFallback_complete data mss
  have nonempty : data ≠ [] := by
    rw [← whole]
    exact List.ne_nil_of_length_pos segmented.flatten_pos
  have segmented' := sendBatchFallback_segmented positive nonempty sent
  rw [fallbackPieces, sent,
    segmented.unique segmented' (whole.trans flat.symm)]

theorem fallbackPieces_single {data : List Byte} {mss : Nat}
    (nonempty : data ≠ []) (single : mss = 0 ∨ data.length ≤ mss) :
    fallbackPieces data mss [data] := by
  rcases Nat.eq_zero_or_pos mss with zero | positive
  · rw [fallbackPieces, sendBatchFallback, if_pos zero]
    simp
  · apply fallbackPieces_cut positive
    · have short := single.resolve_left (Nat.ne_of_gt positive)
      exact segmented_cons_iff.mpr (Or.inl ⟨rfl, nonempty, short⟩)
    · exact List.append_nil data

theorem fallbackPieces_length {data : List Byte} {mss : Nat}
    {pieces : List (List Byte)} (positive : 0 < mss) (nonempty : data ≠ [])
    (sent : fallbackPieces data mss pieces) :
    pieces.length = (data.length + mss - 1) / mss := by
  have flat := sendBatchFallback_carries.whole sent
  rw [← flat]
  exact (sendBatchFallback_segmented positive nonempty sent).length_eq

/-- The size that a message asks the system to cut at. -/
def requestedSize (message : Cmsg) : Option Word :=
  if message.kind = ⟨IPPROTO_UDP, UDP_SEND_MSG_SIZE⟩ ∧
      message.data.length = 4 then
    some (wordAt message.data 0)
  else
    none

def askedSize (layout : CmsgLayout) (control : List Byte) : Option Word :=
  (layout.walk control).findSome? requestedSize

/-- The datagrams that the system makes of a message: segments of the size that
its control data ask for, or one datagram if they ask for none. -/
inductive SentAs (layout : CmsgLayout) (message : WsaMsg) :
    List (List Byte) → Prop where
  | whole :
      (∀ size, askedSize layout message.control = some size → size = 0) →
      SentAs layout message [message.buffer]
  | cut {size : Word} {pieces : List (List Byte)} :
      askedSize layout message.control = some size →
      Segmented size.toNat pieces →
      pieces.flatten = message.buffer →
      SentAs layout message pieces

/-- The datagrams with where they are sent to. -/
abbrev Wire := List (SockAddr × List Byte)

section System

variable {σ : Type}

/-- A successful send puts all of its bytes on the wire and says so, and a
failed send puts nothing there.  The other calls do not send. -/
structure Honest (system : Winsock σ) (wire : σ → Wire) : Prop where
  sendto_ok : ∀ {data dest destLen state sent next},
    system.sendto data dest destLen state = (.ok sent, next) →
      sent = data.length ∧ wire next = wire state ++ [(dest, data)]
  sendto_error : ∀ {data dest destLen state error next},
    system.sendto data dest destLen state = (.error error, next) →
      wire next = wire state
  wsaSendMsg_success : ∀ {wsasendmsg message overlapped state bytes next},
    system.wsaSendMsg = some wsasendmsg →
    wsasendmsg message overlapped state = (.success bytes, next) →
      bytes = BitVec.ofNat 32 message.buffer.length ∧
        ∃ pieces, SentAs system.layout message pieces ∧
          wire next = wire state ++ pieces.map (Prod.mk message.name)
  wsaSendMsg_failure : ∀ {wsasendmsg message overlapped state error next},
    system.wsaSendMsg = some wsasendmsg →
    wsasendmsg message overlapped state = (.failure error, next) →
    overlapped = false ∨ error ≠ WSA_IO_PENDING →
      wire next = wire state
  completed : ∀ {wsasendmsg message state middle transferred next},
    system.wsaSendMsg = some wsasendmsg →
    wsasendmsg message true state = (.failure WSA_IO_PENDING, middle) →
    system.sleepEx middle = ((0, transferred), next) →
      transferred = BitVec.ofNat 32 message.buffer.length ∧
        ∃ pieces, SentAs system.layout message pieces ∧
          wire next = wire state ++ pieces.map (Prod.mk message.name)
  aborted : ∀ {wsasendmsg message state middle error transferred next},
    system.wsaSendMsg = some wsasendmsg →
    wsasendmsg message true state = (.failure WSA_IO_PENDING, middle) →
    system.sleepEx middle = ((error, transferred), next) → error ≠ 0 →
      wire next = wire state
  setSize : ∀ {setSize}, system.wsaSetUdpSendMessageSize = some setSize →
    ∀ mss state, wire (setSize mss state).2 = wire state
  setsockopt : ∀ mss state,
    wire (system.setsockopt mss state).2 = wire state
  getBestInterfaceEx : ∀ address state,
    wire (system.getBestInterfaceEx address state).2 = wire state

variable {system : Winsock σ} {wire : σ → Wire}

theorem Honest.configure (honest : Honest system wire) (mss : Word)
    (state : σ) :
    wire (configureUdpSendSegmentSize system mss state).2 = wire state :=
  configureUdpSendSegmentSize_keeps (fun _ found => honest.setSize found)
    honest.setsockopt mss state

theorem Honest.index (honest : Honest system wire) (request : UsoRequest)
    (includePktinfo : Bool) (state : σ) :
    wire (attemptIndex system request includePktinfo state).2 =
      wire state :=
  attemptIndex_keeps honest.getBestInterfaceEx request includePktinfo state

/-- In every mode of `WSASendMsg` the result tells what is on the wire. -/
theorem Honest.invoke (honest : Honest system wire)
    {wsasendmsg : WsaMsg → Bool → σ → SendOutcome × σ}
    (available : system.wsaSendMsg = some wsasendmsg) {message : WsaMsg}
    {useCompletionRoutine : Bool} {state next : σ} {result : SendResult}
    (invoked : invokeWsasendmsg system wsasendmsg message useCompletionRoutine
      state = (result, next)) :
    if result.sent then
      result.bytesSent = BitVec.ofNat 32 message.buffer.length ∧
        ∃ pieces, SentAs system.layout message pieces ∧
          wire next = wire state ++ pieces.map (Prod.mk message.name)
    else
      wire next = wire state := by
  cases useCompletionRoutine with
  | false =>
      simp only [invokeWsasendmsg, Bool.not_false, if_true] at invoked
      rcases answered : wsasendmsg message false state with
        ⟨bytes | error, final⟩
      · rw [answered] at invoked
        cases invoked
        exact honest.wsaSendMsg_success available answered
      · rw [answered] at invoked
        cases invoked
        exact honest.wsaSendMsg_failure available answered (Or.inl rfl)
  | true =>
      rw [invokeWsasendmsg, if_neg (by decide)] at invoked
      rcases answered : wsasendmsg message true state with
        ⟨bytes | error, middle⟩
      · rw [answered] at invoked
        cases invoked
        exact honest.wsaSendMsg_success available answered
      · rcases slept : system.sleepEx middle with
          ⟨⟨ioError, transferred⟩, final⟩
        simp only [answered, slept] at invoked
        by_cases pending : error = WSA_IO_PENDING
        · subst pending
          rw [if_neg (not_not_intro rfl)] at invoked
          by_cases done : ioError = 0
          · subst done
            rw [if_neg (not_not_intro rfl)] at invoked
            cases invoked
            exact honest.completed available answered slept
          · rw [if_pos done] at invoked
            cases invoked
            exact honest.aborted available answered slept done
        · rw [if_pos pending] at invoked
          cases invoked
          exact honest.wsaSendMsg_failure available answered
            (Or.inr pending)

/-- The messages of an attempt ask for its segments. -/
theorem askedSize_messages (layout : CmsgLayout) (request : UsoRequest)
    (includePktinfo : Bool) (index : Word) :
    askedSize layout
        (layout.encode (request.messages includePktinfo index)) =
      some (BitVec.ofNat 32 request.mss) := by
  have silent : requestedSize (pktinfoMessage request.sourceAddress index) =
      none := by
    cases request.sourceAddress with
    | v4 address => rfl
    | v6 address => rfl
  have asks : requestedSize
      (sendMsgSizeMessage (BitVec.ofNat 32 request.mss)) =
        some (BitVec.ofNat 32 request.mss) := by
    have size := wordAt_wordBytes_append (BitVec.ofNat 32 request.mss) []
    rw [List.append_nil] at size
    rw [requestedSize, if_pos ⟨rfl, rfl⟩]
    exact congrArg some size
  rw [askedSize, Layout.walk_encode _
    (request.messages_fit layout includePktinfo index), UsoRequest.messages]
  by_cases told : request.tells includePktinfo = true
  · rw [if_pos told, List.singleton_append, List.findSome?_cons, silent,
      List.findSome?_cons, asks]
  · rw [if_neg told, List.nil_append, List.findSome?_cons, asks]

/-- An attempt that succeeds puts the segments of the batch on the wire. -/
theorem Honest.attempt (honest : Honest system wire) {request : UsoRequest}
    (cut : request.Cut)
    {wsasendmsg : WsaMsg → Bool → σ → SendOutcome × σ}
    (available : system.wsaSendMsg = some wsasendmsg) {dest : SockAddr}
    {destLen : Nat}
    (known : endpointToSockaddr request.target = some (dest, destLen))
    {includePktinfo : Bool} {state next : σ} {outcome : Except Word Unit}
    (ended : tryWsasendmsgUso system wsasendmsg request includePktinfo state =
      (outcome, next)) :
    match outcome with
    | .ok _ => ∃ pieces, fallbackPieces request.data request.mss pieces ∧
        wire next = wire state ++ pieces.map (Prod.mk dest)
    | .error _ => wire next = wire state := by
  rw [tryWsasendmsgUso_eq system wsasendmsg cut.segments known, attemptSend]
    at ended
  have unsent := honest.index request includePktinfo state
  rcases found : attemptIndex system request includePktinfo state with
    ⟨index, indexed⟩
  rw [found] at unsent ended
  dsimp only at unsent ended
  have configured := honest.configure (BitVec.ofNat 32 request.mss) indexed
  rcases set : configureUdpSendSegmentSize system
      (BitVec.ofNat 32 request.mss) indexed with ⟨error | _, middle⟩
  · rw [set] at configured ended
    cases ended
    exact configured.trans unsent
  · rw [set] at configured ended
    dsimp only at ended
    rw [sendControlled] at ended
    rcases invoked : invokeWsasendmsg system wsasendmsg
        { name := dest
          namelen := destLen
          buffer := request.data
          control := system.layout.encode
            (request.messages includePktinfo index) }
        request.completionRoutine middle with ⟨result, final⟩
    rw [invoked] at ended
    dsimp only at ended
    have told := honest.invoke available invoked
    rw [configured.trans unsent] at told
    by_cases whole : result.sent = true ∧
        result.bytesSent = BitVec.ofNat 32 request.data.length
    · rw [if_pos whole] at ended
      cases ended
      rw [if_pos whole.1] at told
      obtain ⟨_, pieces, sentAs, grown⟩ := told
      refine ⟨pieces, ?_, grown⟩
      have small : request.mss < 2 ^ 32 :=
        Nat.lt_of_le_of_lt cut.mss_le (by decide)
      have size := askedSize_messages system.layout request includePktinfo
        index
      cases sentAs with
      | whole unasked =>
          have zero := unasked _ size
          have mss := congrArg BitVec.toNat zero
          rw [toNat_ofNat_word small] at mss
          exact absurd mss (Nat.ne_of_gt cut.mss_pos)
      | cut asked segmented flat =>
          cases asked.symm.trans size
          rw [toNat_ofNat_word small] at segmented
          exact fallbackPieces_cut cut.mss_pos segmented flat
    · rw [if_neg whole] at ended
      cases ended
      by_cases sent : result.sent = true
      · rw [if_pos sent] at told
        exact absurd ⟨sent, told.1⟩ whole
      · rw [if_neg sent] at told
        exact told

/-- What is reported of a batch is what is on the wire: all of its datagrams,
which are those of `send_batch_fallback`, or nothing. -/
theorem Honest.buffer (honest : Honest system wire)
    {request : UsoRequest} (sendable : request.Single ∨ request.Cut)
    {dest : SockAddr} {destLen : Nat}
    (known : endpointToSockaddr request.target = some (dest, destLen))
    {state next : σ} {result : UsoSendResult}
    (ended : sendBufferUso system request state = (result, next)) :
    if result.success then
      ∃ pieces, fallbackPieces request.data request.mss pieces ∧
        result.segmentsSent = pieces.length ∧
        result.totalBytes = request.data.length ∧
        wire next = wire state ++ pieces.map (Prod.mk dest)
    else
      wire next = wire state := by
  rcases sendable with single | cut
  · rw [sendBufferUso_single system single, sendPlain, sendPlainDatagram,
      known] at ended
    dsimp only at ended
    rcases sent : system.sendto request.data dest destLen state with
      ⟨error | bytes, final⟩
    · rw [sent] at ended
      cases ended
      exact honest.sendto_error sent
    · obtain ⟨whole, grown⟩ := honest.sendto_ok sent
      rw [sent] at ended
      dsimp only at ended
      rw [if_neg (not_not.mpr whole)] at ended
      cases ended
      exact ⟨[request.data],
        fallbackPieces_single single.nonempty single.single, rfl, rfl,
        grown⟩
  · cases available : system.wsaSendMsg with
    | none =>
        rw [sendBufferUso_unavailable system cut available] at ended
        cases ended
        rfl
    | some wsasendmsg =>
        have reached := @Attempts.inOrder_keeps _ _ _
          (tryWsasendmsgUso system wsasendmsg request) request.attempts 0
          state (fun next => wire next = wire state)
          (fun _ next => ∃ pieces,
            fallbackPieces request.data request.mss pieces ∧
              wire next = wire state ++ pieces.map (Prod.mk dest))
          rfl
          (by
            intro includePktinfo _ middle error next unsent failed
            exact (honest.attempt cut available known failed).trans unsent)
          (by
            intro includePktinfo _ middle next unsent succeeded
            rw [← unsent]
            exact honest.attempt cut available known succeeded)
        rw [sendBufferUso_cut system cut available] at ended
        rcases outcome : Attempts.inOrder
            (tryWsasendmsgUso system wsasendmsg request) request.attempts 0
            state with ⟨error | includePktinfo, final⟩
        · rw [outcome] at reached ended
          cases ended
          exact reached
        · rw [outcome] at reached ended
          cases ended
          obtain ⟨_, pieces, fallback, grown⟩ := reached
          have nonempty : request.data ≠ [] :=
            fun empty => cut.nonempty (by rw [empty]; rfl)
          exact ⟨pieces, fallback,
            (fallbackPieces_length cut.mss_pos nonempty fallback).symm, rfl,
            grown⟩

end System

/-- What the loop of `run_client` knows of its socket: the target, the address
it is bound to and the index of the interface. -/
structure UsoSocket where
  remote : Endpoint
  bound : Address
  interfaceIndex : Word
  deriving DecidableEq, Repr

section Client

variable {σ ρ : Type} (system : Winsock σ) (byteDist : ρ → Byte × ρ)
  (options : ClientOptions) (socket : UsoSocket)

def usoRequest (batch : List Byte) : UsoRequest :=
  { data := batch
    mss := options.mss
    target := socket.remote
    sourceAddress := socket.bound
    interfaceIndex := socket.interfaceIndex
    noPktinfo := options.noPktinfo
    completionRoutine := options.completionRoutine }

/-- `send_batch_windows`. -/
def sendBatchWindows (batch : List Byte) (state : σ) :
    Except String UsoSendResult × σ :=
  match sendBufferUso system (usoRequest options socket batch) state with
  | (result, state) =>
      if !result.success then
        (.error ("send failed: " ++ result.error), state)
      else
        (.ok result, state)

/-- The loop over the batches, from batch `i` on. -/
def sendLoopWindows :
    Nat → Nat → List Byte → ρ → σ → ClientRun UsoSendResult × σ
  | 0, _, _, _, state => ({}, state)
  | remaining + 1, i, batch, rng, state =>
      match buildBatch byteDist batch (BitVec.ofNat 32 i)
          (BitVec.ofNat 32 options.batchCount) rng with
      | .error error => ({ error := some error }, state)
      | .ok (batch, rng) =>
          match sendBatchWindows system options socket batch state with
          | (.error error, state) => ({ error := some error }, state)
          | (.ok result, state) =>
              match sendLoopWindows remaining (i + 1) batch rng state with
              | (run, state) => (run.prepend [(batch, result)], state)

/-- `run_client` from its loop on, up to the end of the loop. -/
def runLoopWindows (rng : ρ) (state : σ) : ClientRun UsoSendResult × σ :=
  sendLoopWindows system byteDist options socket options.batchCount 0
    (List.replicate options.batchSize 0) rng state

/-- A batch is reported as what was sent of it. -/
structure Reported (sent : List Byte × UsoSendResult)
    (entry : List Byte × List (List Byte)) : Prop where
  batch : sent.1 = entry.1
  segments : sent.2.segmentsSent = entry.2.length
  bytes : sent.2.totalBytes = entry.1.length

variable {options}

/-- Every batch of an accepted command line is one datagram or has to be cut
up. -/
theorem usoRequest_sendable (sendable : options.Sendable)
    {batch : List Byte} (size : batch.length = options.batchSize) :
    (usoRequest options socket batch).Single ∨
      (usoRequest options socket batch).Cut := by
  have atLeast := sendable.size_ge
  have positive : 0 < kPacketHeaderSize := by decide
  have nonempty : batch ≠ [] := by
    apply List.ne_nil_of_length_pos
    omega
  have small : batch.length ≤ kUsoMaxBytesPerBatch := by
    rw [size]
    exact sendable.size_le
  by_cases single : options.mss = 0 ∨ batch.length ≤ options.mss
  · exact Or.inl
      { nonempty := nonempty
        size := small
        single := single
        mss_le := Or.inr (Or.inr sendable.mss) }
  · obtain ⟨cut, long⟩ := not_or.mp single
    have mss_pos := Nat.pos_of_ne_zero cut
    right
    exact
      { size := small
        mss_pos := mss_pos
        mss_le := sendable.mss
        segments := by
          change 1 < (batch.length + options.mss - 1) / options.mss
          rw [Nat.lt_iff_add_one_le, Nat.le_div_iff_mul_le mss_pos]
          omega }

variable {socket} {system} {wire : σ → Wire} {dest : SockAddr} {destLen : Nat}

theorem Honest.batch (honest : Honest system wire)
    (sendable : options.Sendable)
    (known : endpointToSockaddr socket.remote = some (dest, destLen))
    {batch : List Byte} (size : batch.length = options.batchSize)
    {pieces : List (List Byte)}
    (fallback : sendBatchFallback List.length batch options.mss = .ok pieces)
    {state next : σ} {outcome : Except String UsoSendResult}
    (ended : sendBatchWindows system options socket batch state =
      (outcome, next)) :
    match outcome with
    | .ok result => Reported (batch, result) (batch, pieces) ∧
        wire next = wire state ++ pieces.map (Prod.mk dest)
    | .error error => (∃ reason, error = "send failed: " ++ reason) ∧
        wire next = wire state := by
  rw [sendBatchWindows] at ended
  rcases sent : sendBufferUso system (usoRequest options socket batch)
    state with ⟨result, final⟩
  have told := honest.buffer
    (usoRequest_sendable socket sendable size) known sent
  rw [sent] at ended
  dsimp only at ended
  by_cases succeeded : result.success = true
  · rw [if_pos succeeded] at told
    rw [if_neg (by rw [succeeded]; decide)] at ended
    cases ended
    obtain ⟨pieces', fallback', segments, bytes, grown⟩ := told
    cases fallback.symm.trans fallback'
    exact ⟨⟨rfl, segments, bytes⟩, grown⟩
  · rw [if_neg succeeded] at told
    rw [if_pos (by simpa using succeeded)] at ended
    cases ended
    exact ⟨⟨result.error, rfl⟩, told⟩

end Client

def socketToFifteen : UsoSocket where
  remote := { address := .v4 ⟨0x0A00000F⟩, port := 5000 }
  bound := .v4 ⟨0x0A000001⟩
  interfaceIndex := 7

end BoostUdp
