import BoostUdp.EventRun

/-!
# Sends with a completion routine

`invoke_wsasendmsg` keeps the context of its completion routine on its own
stack frame.  The system queues a call of the routine for each send that
returns zero or is pending, and runs queued calls only in an alertable wait.  A
pending send waits until its routine has run; a send that returns zero does not
wait, and leaves a call for a context that is gone.
-/

namespace BoostUdp

structure WsaSendMsgIoContext where
  completed : Nat := 0
  ioError : BitVec 32 := 0
  bytesTransferred : BitVec 32 := 0
  deriving DecidableEq, Repr

/-- A queued call of the completion routine: the send whose overlapped
structure it was queued for, and where the context of that send lies. -/
structure RoutineCall where
  send : Nat
  context : Nat
  deriving DecidableEq, Repr

/-- What `WSASendMsg` returns: zero and a number of bytes, or an error. -/
inductive SendOutcome where
  | success (bytes : BitVec 32)
  | failure (error : BitVec 32)
  deriving DecidableEq, Repr

def WSA_IO_PENDING : BitVec 32 := 997

/-- What `invoke_wsasendmsg` returns, with its two output arguments. -/
structure SendResult where
  sent : Bool
  bytesSent : BitVec 32 := 0
  wsaError : BitVec 32 := 0
  deriving DecidableEq, Repr

/-- A queued call that the system runs, and the arguments it gives it. -/
structure RoutineRun where
  index : Nat
  error : BitVec 32
  transferred : BitVec 32
  deriving DecidableEq, Repr

/-- The thread of the client: the sends it has begun, the one that waits, the
queued calls, the stack, and what has been run and returned.  A run is noted
with the send that was waiting. -/
structure SendThread where
  sends : Nat := 0
  waiting : Option RoutineCall := none
  queue : List RoutineCall := []
  contexts : Nat → WsaSendMsgIoContext := fun _ => {}
  ran : List (Nat × Nat) := []
  results : List SendResult := []

namespace SendThread

def setContext (thread : SendThread) (context : Nat)
    (value : WsaSendMsgIoContext) : SendThread :=
  { thread with contexts := Function.update thread.contexts context value }

def enqueue (thread : SendThread) (routine : RoutineCall) : SendThread :=
  { thread with queue := thread.queue ++ [routine] }

/-- The send returns. -/
def finish (thread : SendThread) (result : SendResult) : SendThread :=
  { thread with
    waiting := none
    results := thread.results ++ [result] }

/-- The head of the loop: the send goes on waiting, or returns what its
routine has written. -/
def checkCompleted (thread : SendThread) (send : RoutineCall) : SendThread :=
  let ctx := thread.contexts send.context
  if ctx.completed ≠ 1 then
    { thread with waiting := some send }
  else if ctx.ioError ≠ 0 then
    thread.finish { sent := false, wsaError := ctx.ioError }
  else
    thread.finish
      { sent := true
        bytesSent := ctx.bytesTransferred
        wsaError := WSA_IO_PENDING }

/-- `invoke_wsasendmsg` up to its first wait.  The place of the context is the
stack's, the outcome the system's. -/
def invokeWsasendmsg (thread : SendThread) (useCompletionRoutine : Bool)
    (context : Nat) (outcome : SendOutcome) : SendThread :=
  let send : RoutineCall := ⟨thread.sends, context⟩
  let thread := { thread with sends := thread.sends + 1 }
  if !useCompletionRoutine then
    match outcome with
    | .failure error => thread.finish { sent := false, wsaError := error }
    | .success bytes => thread.finish { sent := true, bytesSent := bytes }
  else
    let thread := thread.setContext context {}
    match outcome with
    | .success syncBytes =>
        let thread := thread.enqueue send
        let ctx := thread.contexts context
        if ctx.completed = 1 then
          thread.finish { sent := true, bytesSent := ctx.bytesTransferred }
        else
          thread.finish { sent := true, bytesSent := syncBytes }
    | .failure error =>
        if error ≠ WSA_IO_PENDING then
          thread.finish { sent := false, wsaError := error }
        else
          (thread.enqueue send).checkCompleted send

/-- `wsasendmsg_completion_routine`. -/
def wsasendmsgCompletionRoutine (thread : SendThread) (routine : RoutineCall)
    (error transferred : BitVec 32) : SendThread :=
  thread.setContext routine.context
    { completed := 1, ioError := error, bytesTransferred := transferred }

/-- The system takes a call from the queue and runs it while `send` waits. -/
def runRoutine (send : RoutineCall) (thread : SendThread)
    (run : RoutineRun) : Option SendThread := do
  let routine ← thread.queue[run.index]?
  let thread :=
    { thread with
      queue := thread.queue.eraseIdx run.index
      ran := thread.ran ++ [(send.send, routine.send)] }
  some (thread.wsasendmsgCompletionRoutine routine run.error run.transferred)

/-- `SleepEx`: the system runs some of the queued calls, or none. -/
def sleepEx (send : RoutineCall) (thread : SendThread)
    (runs : List RoutineRun) : Option SendThread :=
  runs.foldlM (runRoutine send) thread

end SendThread

/-- The client sends again, or one wait of a pending send ends. -/
inductive SendEvent where
  | sends (useCompletionRoutine : Bool) (context : Nat)
      (outcome : SendOutcome)
  | sleeps (runs : List RoutineRun)
  deriving DecidableEq, Repr

def sendStep (thread : SendThread) : SendEvent → Option SendThread
  | .sends useCompletionRoutine context outcome =>
      match thread.waiting with
      | some _ => none
      | none =>
          some (thread.invokeWsasendmsg useCompletionRoutine context outcome)
  | .sleeps runs => do
      let send ← thread.waiting
      let thread ← thread.sleepEx send runs
      some (thread.checkCompleted send)

namespace SendThread

theorem checkCompleted_waits {thread : SendThread} {send : RoutineCall}
    (unset : (thread.contexts send.context).completed ≠ 1) :
    thread.checkCompleted send = { thread with waiting := some send } :=
  if_pos unset

/-- One more send has begun. -/
def begun (thread : SendThread) (contexts : Nat → WsaSendMsgIoContext) :
    SendThread :=
  { thread with sends := thread.sends + 1, contexts := contexts }

section Sends

variable (thread : SendThread) (context : Nat)

/-- A send that does not use the routine or fails at once queues nothing. -/
theorem invokeWsasendmsg_unqueued {useCompletionRoutine : Bool}
    {outcome : SendOutcome}
    (unqueued : useCompletionRoutine = false ∨
      ∃ error, outcome = .failure error ∧ error ≠ WSA_IO_PENDING) :
    ∃ contexts result,
      thread.invokeWsasendmsg useCompletionRoutine context outcome =
        (thread.begun contexts).finish result := by
  cases useCompletionRoutine with
  | false =>
      cases outcome with
      | success bytes => exact ⟨thread.contexts, _, rfl⟩
      | failure error => exact ⟨thread.contexts, _, rfl⟩
  | true =>
      obtain ⟨error, rfl, other⟩ := unqueued.resolve_left Bool.noConfusion
      exact ⟨_, _, if_pos other⟩

/-- A send that returns zero leaves its call in the queue. -/
theorem invokeWsasendmsg_success (bytes : BitVec 32) :
    thread.invokeWsasendmsg true context (.success bytes) =
      ((thread.begun (Function.update thread.contexts context {})).enqueue
        ⟨thread.sends, context⟩).finish
          { sent := true, bytesSent := bytes } := by
  have fresh : (Function.update thread.contexts context {} context).completed
      ≠ 1 := by
    rw [Function.update_self]
    decide
  exact if_neg fresh

/-- A pending send waits for its call. -/
theorem invokeWsasendmsg_pending :
    thread.invokeWsasendmsg true context (.failure WSA_IO_PENDING) =
      { (thread.begun
          (Function.update thread.contexts context {})).enqueue
            ⟨thread.sends, context⟩ with
        waiting := some ⟨thread.sends, context⟩ } := by
  have fresh : (Function.update thread.contexts context {} context).completed
      ≠ 1 := by
    rw [Function.update_self]
    decide
  have pending : ¬WSA_IO_PENDING ≠ WSA_IO_PENDING := fun other => other rfl
  have entered : thread.invokeWsasendmsg true context
      (.failure WSA_IO_PENDING) =
        ((thread.begun (Function.update thread.contexts context {})).enqueue
          ⟨thread.sends, context⟩).checkCompleted
            ⟨thread.sends, context⟩ := by
    simp only [invokeWsasendmsg, Bool.not_true, Bool.false_eq_true, if_false,
      if_neg pending]
    rfl
  rw [entered]
  exact checkCompleted_waits fresh

end Sends

theorem runRoutine_empty {thread : SendThread} (empty : thread.queue = [])
    {send : RoutineCall} {run : RoutineRun} :
    runRoutine send thread run = none := by
  rw [runRoutine, empty]
  rfl

/-- When the call of the waiting send is the only one in the queue, a wait runs
it or nothing. -/
theorem sleepEx_single {thread next : SendThread} {send : RoutineCall}
    {runs : List RoutineRun} (single : thread.queue = [send])
    (slept : thread.sleepEx send runs = some next) :
    next = thread ∨
      ∃ error transferred,
        next = ({ thread with
          queue := []
          ran := thread.ran ++ [(send.send, send.send)] } :
            SendThread).wsasendmsgCompletionRoutine send error
              transferred := by
  cases runs with
  | nil =>
      cases slept
      exact Or.inl rfl
  | cons run runs =>
      obtain ⟨middle, first, rest⟩ := Option.bind_eq_some_iff.mp slept
      obtain ⟨routine, taken, stored⟩ := Option.bind_eq_some_iff.mp first
      cases stored
      rw [single] at taken
      obtain ⟨atStart, same⟩ := List.getElem?_eq_some_iff.mp taken
      have start : run.index = 0 := Nat.lt_one_iff.mp atStart
      simp only [start, List.getElem_cons_zero] at same
      subst same
      have emptied : thread.queue.eraseIdx run.index = [] := by
        rw [single, start]
        rfl
      right
      refine ⟨run.error, run.transferred, ?_⟩
      cases runs with
      | nil =>
          cases rest
          rw [emptied]
      | cons other runs =>
          rw [emptied, List.foldlM_cons] at rest
          obtain ⟨_, second, _⟩ := Option.bind_eq_some_iff.mp rest
          rw [runRoutine_empty rfl] at second
          contradiction

end SendThread

/-- The send was begun and does not wait. -/
def Returned (thread : SendThread) (send : Nat) : Prop :=
  send < thread.sends ∧ ∀ waiting ∈ thread.waiting, waiting.send ≠ send

/-- No queued call refers to the context of a send that has returned, and each
call was run in the wait of its own send. -/
structure Contained (thread : SendThread) : Prop where
  released : ∀ routine ∈ thread.queue, ¬Returned thread routine.send
  own : ∀ run ∈ thread.ran, run.1 = run.2

/-- The invariant behind it: what is queued is the call of the send that waits,
which has not been run. -/
structure Quiet (thread : SendThread) : Prop where
  queue : thread.queue = thread.waiting.toList
  unset : ∀ send ∈ thread.waiting,
    (thread.contexts send.context).completed ≠ 1
  own : ∀ run ∈ thread.ran, run.1 = run.2

theorem Quiet.contained {thread : SendThread} (quiet : Quiet thread) :
    Contained thread :=
  { released := by
      intro routine member returned
      rw [quiet.queue, Option.mem_toList] at member
      exact returned.2 routine member rfl
    own := quiet.own }

theorem quiet_start : Quiet {} :=
  { queue := rfl
    unset := by
      intro send waits
      contradiction
    own := by
      intro run member
      contradiction }

theorem quiet_finish {thread : SendThread} (empty : thread.queue = [])
    (own : ∀ run ∈ thread.ran, run.1 = run.2) (result : SendResult) :
    Quiet (thread.finish result) :=
  { queue := empty
    unset := by
      intro send waits
      contradiction
    own := own }

/-- The head of the loop, behind a wait that ran the call of the send. -/
theorem quiet_checkCompleted {thread : SendThread} {send : RoutineCall}
    (empty : thread.queue = [])
    (own : ∀ run ∈ thread.ran, run.1 = run.2)
    (completed : (thread.contexts send.context).completed = 1) :
    Quiet (thread.checkCompleted send) := by
  unfold SendThread.checkCompleted
  dsimp only
  rw [if_neg fun open' => open' completed]
  split
  · exact quiet_finish empty own _
  · exact quiet_finish empty own _

/-- All but a send with a routine for which `WSASendMsg` returns zero. -/
def SendEvent.Awaited : SendEvent → Prop
  | .sends true _ (.success _) => False
  | _ => True

theorem quiet_sends {thread : SendThread} (quiet : Quiet thread)
    (idle : thread.waiting = none) {useCompletionRoutine : Bool}
    {context : Nat} {outcome : SendOutcome}
    (awaited : (SendEvent.sends useCompletionRoutine context
      outcome).Awaited) :
    Quiet (thread.invokeWsasendmsg useCompletionRoutine context outcome) := by
  have empty : thread.queue = [] := by
    rw [quiet.queue, idle]
    rfl
  by_cases pending : useCompletionRoutine = true ∧
      outcome = .failure WSA_IO_PENDING
  · obtain ⟨rfl, rfl⟩ := pending
    rw [SendThread.invokeWsasendmsg_pending]
    exact
      { queue := by
          rw [SendThread.enqueue, SendThread.begun, empty]
          rfl
        unset := by
          intro send waits
          cases waits
          change (Function.update thread.contexts context {}
            context).completed ≠ 1
          rw [Function.update_self]
          decide
        own := quiet.own }
  · have unqueued : useCompletionRoutine = false ∨
        ∃ error, outcome = .failure error ∧ error ≠ WSA_IO_PENDING := by
      cases useCompletionRoutine with
      | false => exact Or.inl rfl
      | true =>
          cases outcome with
          | success bytes => contradiction
          | failure error =>
              right
              refine ⟨error, rfl, ?_⟩
              rintro rfl
              exact pending ⟨rfl, rfl⟩
    obtain ⟨contexts, result, sent⟩ :=
      thread.invokeWsasendmsg_unqueued context unqueued
    have unchanged : (thread.begun contexts).queue = [] := empty
    rw [sent]
    exact quiet_finish unchanged quiet.own result

theorem quiet_sleeps {thread next : SendThread} (quiet : Quiet thread)
    {send : RoutineCall} (waits : thread.waiting = some send)
    {runs : List RoutineRun}
    (slept : thread.sleepEx send runs = some next) :
    Quiet (next.checkCompleted send) := by
  have single : thread.queue = [send] := by
    rw [quiet.queue, waits]
    rfl
  rcases SendThread.sleepEx_single single slept with
    rfl | ⟨error, transferred, rfl⟩
  · have unset := quiet.unset send waits
    rw [SendThread.checkCompleted_waits unset, ← waits]
    exact quiet
  · apply quiet_checkCompleted
    · rfl
    · intro run member
      rcases List.mem_append.mp member with earlier | last
      · exact quiet.own run earlier
      · cases List.mem_singleton.mp last
        rfl
    · change (Function.update thread.contexts send.context _
        send.context).completed = 1
      rw [Function.update_self]

/-- A step that is not a send with a routine that returns zero keeps what is
queued with the send that waits. -/
theorem sendStep_quiet {thread next : SendThread} {event : SendEvent}
    (awaited : event.Awaited) (quiet : Quiet thread)
    (stepped : sendStep thread event = some next) : Quiet next := by
  cases event with
  | sends useCompletionRoutine context outcome =>
      cases idle : thread.waiting with
      | some send =>
          rw [sendStep, idle] at stepped
          contradiction
      | none =>
          rw [sendStep, idle] at stepped
          cases stepped
          exact quiet_sends quiet idle awaited
  | sleeps runs =>
      obtain ⟨send, waits, rest⟩ := Option.bind_eq_some_iff.mp stepped
      obtain ⟨slept, ran, same⟩ := Option.bind_eq_some_iff.mp rest
      cases same
      exact quiet_sleeps quiet waits ran

/-- A send with a routine that returns zero leaves a call for its own context,
whatever was queued before it. -/
theorem sendStep_leaves {thread next : SendThread} {event : SendEvent}
    (unawaited : ¬event.Awaited)
    (stepped : sendStep thread event = some next) : ¬Contained next := by
  intro contained
  cases event with
  | sleeps runs => exact unawaited trivial
  | sends useCompletionRoutine context outcome =>
      cases useCompletionRoutine with
      | false => exact unawaited trivial
      | true =>
          cases outcome with
          | failure error => exact unawaited trivial
          | success bytes =>
              cases idle : thread.waiting with
              | some send =>
                  rw [sendStep, idle] at stepped
                  contradiction
              | none =>
                  rw [sendStep, idle] at stepped
                  cases stepped
                  rw [SendThread.invokeWsasendmsg_success] at contained
                  apply contained.released ⟨thread.sends, context⟩
                  · exact List.mem_append_right _ List.mem_cons_self
                  · refine ⟨Nat.lt_succ_self _, ?_⟩
                    intro waiting waits
                    contradiction

/-- Over a whole run, whatever the system chooses, no queued call outlives its
context if and only if `WSASendMsg` never returns zero for a send with a
routine. -/
theorem sends_contained_iff {events : List SendEvent} {final : SendThread}
    (ran : EventRun.run sendStep {} events = some final) :
    EventRun.Throughout sendStep Contained {} events ↔
      ∀ event ∈ events, event.Awaited :=
  EventRun.throughout_iff sendStep
    (fun _ _ _ awaited quiet => sendStep_quiet awaited quiet)
    (fun _ quiet => quiet.contained)
    (fun _ _ _ unawaited => sendStep_leaves unawaited)
    quiet_start ran

theorem sends_contained_iff_pending :
    EventRun.Throughout sendStep Contained {}
      [.sends true 0 (.failure WSA_IO_PENDING), .sleeps [],
        .sleeps [⟨0, 0, 1400⟩], .sends true 0 (.failure 10055)] := by
  apply (sends_contained_iff rfl).mpr
  intro event member
  fin_cases member <;> trivial

/-- The first send returns zero and the second waits: the wait runs the call
of the first, which the second, whose context lies at the same place, takes for
its own. -/
theorem stale_routine_runs :
    ∃ final,
      EventRun.run sendStep {}
          [.sends true 0 (.success 1400),
            .sends true 0 (.failure WSA_IO_PENDING),
            .sleeps [⟨0, 0, 1400⟩]] = some final ∧
        final.ran = [(1, 0)] ∧ final.queue = [⟨1, 0⟩] ∧
        final.waiting = none ∧ ¬Contained final := by
  refine ⟨_, rfl, rfl, rfl, rfl, ?_⟩
  intro contained
  have own := contained.own (1, 0) List.mem_cons_self
  contradiction

end BoostUdp
