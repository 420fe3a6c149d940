import BoostUdp.Cli
import BoostUdp.FragmentCount
import BoostUdp.LostCount

/-!
# A run of the server

`run_server` runs one session after the other as long as `--loop` says.  Every
session starts afresh, and every datagram that is received belongs to exactly
one of them.
-/

namespace BoostUdp

open LittleEndian

/-- How `run_server` ends, if it does. -/
inductive ServerStop (ρ : Type) where
  | returned (rest : List (Tick ρ))
  | waiting (receiver : Receiver)
  | endless
  | thrown (error : RunError)
  | outOfFuel

/-- The summaries that were printed before. -/
structure ServerRun (ρ : Type) where
  summaries : List ServerStats := []
  stop : ServerStop ρ

def ServerRun.prepend {ρ : Type} (stats : ServerStats) (run : ServerRun ρ) :
    ServerRun ρ :=
  { run with summaries := stats :: run.summaries }

section Loop

variable {ρ : Type}
  (receiveOne : Receiver → ρ → Except RunError (Bool × Receiver))
  (options : ServerOptions)

def sessionLoop : Nat → Nat → List (Tick ρ) → ServerRun ρ
  | 0, _, _ => { stop := .outOfFuel }
  | fuel + 1, session, ticks =>
      match runReceiveLoop receiveOne options.batchCount ticks with
      | .error error => { stop := .thrown error }
      | .ok (.waiting receiver) => { stop := .waiting receiver }
      | .ok .endless => { stop := .endless }
      | .ok (.summary stats rest) =>
          let session := session + 1
          if !options.loop then
            { summaries := [stats], stop := .returned rest }
          else if options.loopCount.any (fun count => count ≤ session) then
            { summaries := [stats], stop := .returned rest }
          else
            (sessionLoop fuel session rest).prepend stats

/-- `run_server` behind the set-up of its socket.  Every session uses up a
tick. -/
def runServer (ticks : List (Tick ρ)) : ServerRun ρ :=
  sessionLoop receiveOne options (ticks.length + 1) 0 ticks

end Loop

/-- The number of sessions after which `run_server` returns. -/
def ServerOptions.sessionLimit (options : ServerOptions) : Option Nat :=
  if options.loop then options.loopCount.map (max 1) else some 1

/-- Sessions that follow each other, with their summaries. -/
inductive Sessions {ρ : Type}
    (receiveOne : Receiver → ρ → Except RunError (Bool × Receiver))
    (batchCount : Option Nat) :
    List (Tick ρ) → List ServerStats → List (Tick ρ) → Prop where
  | nil (ticks : List (Tick ρ)) :
      Sessions receiveOne batchCount ticks [] ticks
  | cons {ticks between rest : List (Tick ρ)} {stats : ServerStats}
      {summaries : List ServerStats} :
      runReceiveLoop receiveOne batchCount ticks =
        .ok (.summary stats between) →
      Sessions receiveOne batchCount between summaries rest →
      Sessions receiveOne batchCount ticks (stats :: summaries) rest

section Locality

variable {ρ : Type} (wrapper : ReceiveWrapper ρ)

/-- A turn of the idle loop that does not get to its receive call does the same
to every state. -/
theorem idleLoop_untimely_uniform {deadline : Nat} {tick : Tick ρ}
    (untimely :
      ¬(tick.now + millisecond ≤ deadline ∧ tick.readable = true)) :
    (∀ receiver ticks,
      idleLoop wrapper.receive (some deadline) receiver (tick :: ticks) =
        .ok (.left receiver ticks)) ∨
    ∀ receiver ticks,
      idleLoop wrapper.receive (some deadline) receiver (tick :: ticks) =
        idleLoop wrapper.receive (some deadline) receiver ticks := by
  by_cases expired : deadline ≤ tick.now
  · left
    intro receiver ticks
    simp only [idleLoop, if_pos expired]
  · by_cases short : (deadline - tick.now) / millisecond = 0
    · right
      intro receiver ticks
      simp only [idleLoop, if_neg expired, if_pos short]
    · have atLeast := (Nat.div_pos_iff.mp (Nat.pos_of_ne_zero short)).2
      have early : tick.now + millisecond ≤ deadline := by omega
      have silent : tick.readable = false := by
        rw [← Bool.not_eq_true]
        exact fun readable => untimely ⟨early, readable⟩
      left
      intro receiver ticks
      simp only [idleLoop, if_neg expired, if_neg short, silent,
        Bool.not_false, if_true]

/-- What the loop does until it leaves does not depend on later ticks, and it
uses up at least one tick. -/
theorem idleLoop_local {idleDeadline : Option Nat}
    {receiver after : Receiver} {ticks rest : List (Tick ρ)}
    (left : idleLoop wrapper.receive idleDeadline receiver ticks =
      .ok (.left after rest)) :
    rest.length < ticks.length ∧
      ∀ more, idleLoop wrapper.receive idleDeadline receiver
        (ticks ++ more) = .ok (.left after (rest ++ more)) := by
  induction ticks generalizing idleDeadline receiver with
  | nil => cases idleDeadline <;> cases left
  | cons tick ticks induction =>
      rw [List.length_cons, Nat.lt_succ_iff]
      simp only [List.cons_append]
      by_cases timely : ∀ deadline, idleDeadline = some deadline →
          tick.now + millisecond ≤ deadline ∧ tick.readable = true
      · rw [idleLoop_receives wrapper timely] at left
        simp only [idleLoop_receives wrapper timely]
        rcases received : wrapper.receive receiver tick.outcome with
          error | ⟨_ | _, between⟩
        · simp only [received] at left
          contradiction
        · simp only [received] at left ⊢
          by_cases waiting : idleDeadline.isNone = true
          · rw [if_pos waiting] at left
            simp only [if_pos waiting]
            exact ⟨Nat.le_of_lt (induction left).1, (induction left).2⟩
          · rw [if_neg waiting] at left
            cases left
            exact ⟨Nat.le_refl _, fun _ => if_neg waiting⟩
        · simp only [received] at left ⊢
          exact ⟨Nat.le_of_lt (induction left).1, (induction left).2⟩
      · cases idleDeadline with
        | none => simp at timely
        | some deadline =>
            have untimely : ¬(tick.now + millisecond ≤ deadline ∧
                tick.readable = true) := by simpa using timely
            rcases idleLoop_untimely_uniform wrapper untimely with
              leaves | onward
            · rw [leaves] at left
              cases left
              exact ⟨Nat.le_refl _, fun more => leaves _ _⟩
            · rw [onward] at left
              obtain ⟨fewer, later⟩ := induction left
              exact ⟨Nat.le_of_lt fewer, fun more =>
                (onward _ _).trans (later more)⟩

/-- The same of the counting loop, which uses up a tick when there is a batch
to wait for. -/
theorem countLoop_local {wantBatches : Nat} {idleDeadline : Option Nat}
    {receiver after : Receiver} {ticks rest : List (Tick ρ)}
    (left : countLoop wrapper.receive wantBatches idleDeadline receiver
      ticks = .ok (.left after rest)) :
    (receiver.stats.batches < wantBatches → rest.length < ticks.length) ∧
      rest.length ≤ ticks.length ∧
      ∀ more, countLoop wrapper.receive wantBatches idleDeadline receiver
        (ticks ++ more) = .ok (.left after (rest ++ more)) := by
  induction ticks generalizing idleDeadline receiver with
  | nil =>
      by_cases enough : wantBatches ≤ receiver.stats.batches
      · rw [countLoop_enough enough] at left
        cases left
        exact ⟨fun wanted => absurd enough (Nat.not_le.mpr wanted),
          Nat.le_refl _, fun more => countLoop_enough enough _ more⟩
      · rw [countLoop, if_neg enough] at left
        cases left
  | cons tick ticks induction =>
      simp only [List.length_cons, List.cons_append, Nat.lt_succ_iff]
      by_cases enough : wantBatches ≤ receiver.stats.batches
      · rw [countLoop_enough enough] at left
        cases left
        exact ⟨fun wanted => absurd enough (Nat.not_le.mpr wanted),
          Nat.le_refl _, fun _ => if_pos enough⟩
      · by_cases expired :
            (idleDeadline.any fun deadline => deadline ≤ tick.now) = true ∧
              (!receiver.reassembly.active) = true
        · rw [countLoop, if_neg enough, if_pos expired] at left
          simp only [countLoop, if_neg enough, if_pos expired]
          cases left
          exact ⟨fun _ => Nat.le_refl _, Nat.le_succ _, fun _ => rfl⟩
        · rw [countLoop_receives enough expired] at left
          simp only [countLoop_receives enough expired]
          rcases received : wrapper.receive receiver tick.outcome with
            error | ⟨_ | _, between⟩
          · simp only [received] at left
            contradiction
          · simp only [received] at left ⊢
            by_cases waiting : idleDeadline.isNone = true
            · rw [if_pos waiting] at left
              simp only [if_pos waiting]
              obtain ⟨_, fewer, later⟩ := induction left
              exact ⟨fun _ => fewer, Nat.le_succ_of_le fewer, later⟩
            · rw [if_neg waiting] at left
              cases left
              exact ⟨fun _ => Nat.le_refl _, Nat.le_succ _,
                fun _ => if_neg waiting⟩
          · simp only [received] at left ⊢
            obtain ⟨_, fewer, later⟩ := induction left
            exact ⟨fun _ => fewer, Nat.le_succ_of_le fewer, later⟩

/-- A session that prints its summary uses up at least one tick, and later
ticks change nothing about it. -/
theorem runReceiveLoop_local {batchCount : Option Nat}
    (counted : batchCount ≠ some 0) {ticks rest : List (Tick ρ)}
    {stats : ServerStats}
    (finished : runReceiveLoop wrapper.receive batchCount ticks =
      .ok (.summary stats rest)) :
    rest.length < ticks.length ∧
      ∀ more, runReceiveLoop wrapper.receive batchCount (ticks ++ more) =
        .ok (.summary stats (rest ++ more)) := by
  cases batchCount with
  | none =>
      obtain ⟨receiver, left, summarised⟩ := runReceiveLoop_idle.mp finished
      obtain ⟨fewer, later⟩ := idleLoop_local wrapper left
      exact ⟨fewer, fun more =>
        runReceiveLoop_idle.mpr ⟨receiver, later more, summarised⟩⟩
  | some wantBatches =>
      obtain ⟨receiver, left, summarised⟩ :=
        runReceiveLoop_summary_iff.mp finished
      obtain ⟨fewer, _, later⟩ := countLoop_local wrapper left
      have wanted : 0 < wantBatches := by
        apply Nat.pos_of_ne_zero
        rintro rfl
        exact counted rfl
      exact ⟨fewer wanted, fun more => runReceiveLoop_summary_iff.mpr
        ⟨receiver, later more, summarised⟩⟩

end Locality

/-- The number of sessions that are still to come when some are over. -/
def ServerOptions.sessionsLeft (options : ServerOptions) (session : Nat) :
    Option Nat :=
  if options.loop then
    options.loopCount.map fun count => max 1 (count - session)
  else
    some 1

theorem sessionsLeft_zero (options : ServerOptions) :
    options.sessionsLeft 0 = options.sessionLimit := rfl

/-- The loop ends behind the session with this number. -/
def ServerOptions.LastSession (options : ServerOptions) (session : Nat) :
    Prop :=
  options.loop = false ∨
    ∃ count, options.loopCount = some count ∧ count ≤ session + 1

theorem lastSession_iff {options : ServerOptions} {session : Nat} :
    options.LastSession session ↔
      options.loop = false ∨
        options.loopCount.any (fun count => count ≤ session + 1) = true := by
  cases limit : options.loopCount with
  | none => simp [ServerOptions.LastSession, limit]
  | some count => simp [ServerOptions.LastSession, limit]

theorem not_lastSession_iff {options : ServerOptions} {session : Nat} :
    ¬options.LastSession session ↔
      options.loop = true ∧
        options.loopCount.any (fun count => count ≤ session + 1) = false := by
  rw [lastSession_iff, not_or, Bool.not_eq_false, Bool.not_eq_true]

theorem sessionsLeft_last {options : ServerOptions} {session : Nat}
    (last : options.LastSession session) (left : Nat) :
    options.sessionsLeft session = some left ↔ left = 1 := by
  unfold ServerOptions.sessionsLeft
  cases looping : options.loop with
  | false => simp [eq_comm]
  | true =>
      obtain ⟨count, limit, reached⟩ :=
        last.resolve_left (by simp [looping])
      have one : max 1 (count - session) = 1 := by omega
      simp [limit, one, eq_comm]

theorem sessionsLeft_more {options : ServerOptions} {session : Nat}
    (more : ¬options.LastSession session) (left : Nat) :
    options.sessionsLeft session = some (left + 1) ↔
      options.sessionsLeft (session + 1) = some left := by
  unfold ServerOptions.LastSession at more
  push Not at more
  obtain ⟨looping, beyond⟩ := more
  unfold ServerOptions.sessionsLeft
  cases limit : options.loopCount with
  | none => simp [looping]
  | some count =>
      have later := beyond count limit
      simp only [looping, if_true, Option.map_some, Option.some.injEq, ne_eq,
        Bool.not_eq_false] at *
      omega

theorem sessionsLeft_ne_zero (options : ServerOptions) (session : Nat) :
    options.sessionsLeft session ≠ some 0 := by
  unfold ServerOptions.sessionsLeft
  cases looping : options.loop with
  | false => simp
  | true =>
      cases limit : options.loopCount with
      | none => simp
      | some count =>
          simp only [if_true, Option.map_some, ne_eq, Option.some.injEq]
          omega

section Count

variable {ρ : Type} (wrapper : ReceiveWrapper ρ) {options : ServerOptions}
  {ticks rest : List (Tick ρ)} {stats : ServerStats} {fuel session : Nat}

theorem sessionLoop_last
    (finished : runReceiveLoop wrapper.receive options.batchCount ticks =
      .ok (.summary stats rest))
    (last : options.LastSession session) :
    sessionLoop wrapper.receive options (fuel + 1) session ticks =
      { summaries := [stats], stop := .returned rest } := by
  simp only [sessionLoop, finished]
  rcases lastSession_iff.mp last with once | reached
  · simp only [once, Bool.not_false, if_true]
  · simp only [reached, if_true, ite_self]

theorem sessionLoop_more
    (finished : runReceiveLoop wrapper.receive options.batchCount ticks =
      .ok (.summary stats rest))
    (more : ¬options.LastSession session) :
    sessionLoop wrapper.receive options (fuel + 1) session ticks =
      (sessionLoop wrapper.receive options fuel (session + 1) rest).prepend
        stats := by
  obtain ⟨looping, onward⟩ := not_lastSession_iff.mp more
  simp only [sessionLoop, finished, looping, onward, Bool.not_true,
    Bool.false_eq_true, if_false]

theorem sessionLoop_unfinished (fuel session : Nat)
    (unfinished : ∀ stats rest,
      runReceiveLoop wrapper.receive options.batchCount ticks ≠
        .ok (.summary stats rest)) :
    ∃ stop, (∀ rest, stop ≠ .returned rest) ∧ stop ≠ .outOfFuel ∧
      sessionLoop wrapper.receive options (fuel + 1) session ticks =
        { stop := stop } := by
  unfold sessionLoop
  cases ended : runReceiveLoop wrapper.receive options.batchCount ticks with
  | error error => exact ⟨.thrown error, by simp, by simp, rfl⟩
  | ok sessionEnd =>
      cases sessionEnd with
      | waiting receiver => exact ⟨.waiting receiver, by simp, by simp, rfl⟩
      | endless => exact ⟨.endless, by simp, by simp, rfl⟩
      | summary stats rest => exact absurd ended (unfinished stats rest)

/-- The loop over the sessions returns behind as many of them as its limit
says, and otherwise not. -/
theorem sessionLoop_returned_iff (counted : options.batchCount ≠ some 0)
    {summaries : List ServerStats} (enough : ticks.length < fuel) :
    sessionLoop wrapper.receive options fuel session ticks =
        { summaries := summaries, stop := .returned rest } ↔
      Sessions wrapper.receive options.batchCount ticks summaries rest ∧
        options.sessionsLeft session = some summaries.length := by
  induction fuel generalizing session ticks summaries with
  | zero => omega
  | succ fuel induction =>
      by_cases finished : ∃ stats between,
          runReceiveLoop wrapper.receive options.batchCount ticks =
            .ok (.summary stats between)
      · obtain ⟨stats, between, finished⟩ := finished
        obtain ⟨fewer, _⟩ := runReceiveLoop_local wrapper counted finished
        by_cases last : options.LastSession session
        · rw [sessionLoop_last wrapper finished last,
            sessionsLeft_last last]
          constructor
          · intro same
            cases same
            exact ⟨.cons finished (.nil _), rfl⟩
          · rintro ⟨sessions, one⟩
            cases sessions with
            | nil => contradiction
            | cons first later =>
                cases finished.symm.trans first
                cases later with
                | nil => rfl
                | cons second later =>
                    rw [List.length_cons, List.length_cons] at one
                    omega
        · have smaller : between.length < fuel := by omega
          rw [sessionLoop_more wrapper finished last]
          constructor
          · intro same
            have stopped := congrArg ServerRun.stop same
            have printed := congrArg ServerRun.summaries same
            simp only [ServerRun.prepend] at stopped printed
            have onward : sessionLoop wrapper.receive options fuel
                (session + 1) between =
              { summaries := (sessionLoop wrapper.receive options fuel
                  (session + 1) between).summaries
                stop := .returned rest } := by
              rw [← stopped]
            obtain ⟨sessions, left⟩ := (induction smaller).mp onward
            rw [← printed]
            exact ⟨.cons finished sessions,
              (sessionsLeft_more last _).mpr left⟩
          · rintro ⟨sessions, left⟩
            cases sessions with
            | nil => exact absurd left (sessionsLeft_ne_zero options session)
            | cons first later =>
                cases finished.symm.trans first
                rw [(induction smaller).mpr
                  ⟨later, (sessionsLeft_more last _).mp left⟩]
                rfl
      · push Not at finished
        obtain ⟨stop, running, _, unfinished⟩ :=
          sessionLoop_unfinished wrapper fuel session finished
        rw [unfinished]
        constructor
        · intro same
          cases same
          exact absurd rfl (running rest)
        · rintro ⟨sessions, left⟩
          cases sessions with
          | nil => exact absurd left (sessionsLeft_ne_zero options session)
          | cons first later => exact absurd first (finished _ _)

theorem sessionLoop_fuel (counted : options.batchCount ≠ some 0)
    (enough : ticks.length < fuel) :
    (sessionLoop wrapper.receive options fuel session ticks).stop ≠
      .outOfFuel := by
  induction fuel generalizing session ticks with
  | zero => omega
  | succ fuel induction =>
      by_cases finished : ∃ stats between,
          runReceiveLoop wrapper.receive options.batchCount ticks =
            .ok (.summary stats between)
      · obtain ⟨stats, between, finished⟩ := finished
        obtain ⟨fewer, _⟩ := runReceiveLoop_local wrapper counted finished
        by_cases last : options.LastSession session
        · rw [sessionLoop_last wrapper finished last]
          simp
        · rw [sessionLoop_more wrapper finished last]
          exact induction (by omega)
      · push Not at finished
        obtain ⟨stop, _, fuelled, unfinished⟩ :=
          sessionLoop_unfinished wrapper fuel session finished
        rw [unfinished]
        exact fuelled

/-- Only a session with a count that is a multiple of `2 ^ 32` leaves its
receive loop for one that does not end. -/
theorem runReceiveLoop_endless_wraps {batchCount : Option Nat}
    (counted : batchCount ≠ some 0) :
    runReceiveLoop wrapper.receive batchCount ticks = .ok .endless ↔
      ∃ count receiver rest, batchCount = some count ∧ 2 ^ 32 ∣ count ∧
        countLoop wrapper.receive count none {} ticks =
          .ok (.left receiver rest) := by
  rw [runReceiveLoop_endless_iff]
  cases batchCount with
  | none =>
      constructor
      · rintro ⟨receiver, rest, left, silent⟩
        obtain ⟨stats, summarised, _, _⟩ :=
          (tracks_of_ingestAll
            (receiveLoop_ingests wrapper left)).summaryAccounts
        exact absurd (silent.symm.trans summarised) (by simp)
      · rintro ⟨count, _, _, known, _⟩
        contradiction
  | some count =>
      have positive : 1 ≤ count := by
        apply Nat.pos_of_ne_zero
        rintro rfl
        exact counted rfl
      constructor
      · rintro ⟨receiver, rest, left, silent⟩
        refine ⟨count, receiver, rest, rfl, Nat.dvd_of_mod_eq_zero ?_, left⟩
        by_contra ends
        exact absurd (silent.symm.trans (finalizeLost_count positive ends))
          (by simp)
      · rintro ⟨_, receiver, rest, known, wraps, left⟩
        cases known
        exact ⟨receiver, rest, left,
          finalizeLost_endless positive (Nat.mod_eq_zero_of_dvd wraps)⟩

/-- If a loop over the sessions gets into one that does not end, its first
session does. -/
theorem runReceiveLoop_of_endless (counted : options.batchCount ≠ some 0)
    (stuck : (sessionLoop wrapper.receive options fuel session ticks).stop =
      .endless) :
    runReceiveLoop wrapper.receive options.batchCount ticks =
      .ok .endless := by
  induction fuel generalizing session ticks with
  | zero => contradiction
  | succ fuel induction =>
      cases ended : runReceiveLoop wrapper.receive options.batchCount ticks with
      | error error =>
          simp only [sessionLoop, ended] at stuck
          contradiction
      | ok sessionEnd =>
          cases sessionEnd with
          | endless => rfl
          | waiting receiver =>
              simp only [sessionLoop, ended] at stuck
              contradiction
          | summary stats between =>
              by_cases last : options.LastSession session
              · rw [sessionLoop_last wrapper ended last] at stuck
                contradiction
              · -- With the count of a later endless session none is summed up.
                rw [sessionLoop_more wrapper ended last] at stuck
                obtain ⟨count, _, _, known, wraps, _⟩ :=
                  (runReceiveLoop_endless_wraps wrapper counted).mp
                    (induction stuck)
                obtain ⟨receiver, _, summarised⟩ :=
                  runReceiveLoop_summary_iff.mp ended
                have positive : 1 ≤ count := by
                  apply Nat.pos_of_ne_zero
                  rintro rfl
                  exact counted known
                rw [known, sessionSummary, finalizeLost_endless positive
                  (Nat.mod_eq_zero_of_dvd wraps)] at summarised
                contradiction

end Count

/-- With an accepted command line the server returns behind as many sessions
as `--loop` says, or one without it, and otherwise not.  It turns forever
without reading the clock or the socket only behind a first session that was
asked for a multiple of `2 ^ 32` batches. -/
theorem runServer_returned_iff {ρ : Type} (wrapper : ReceiveWrapper ρ)
    {platform : Platform} {argv : List String} {options : ServerOptions}
    (accepted : parseServerOptions platform argv {} = .ok (true, options))
    (ticks rest : List (Tick ρ)) (summaries : List ServerStats) :
    (runServer wrapper.receive options ticks =
        { summaries := summaries, stop := .returned rest } ↔
      Sessions wrapper.receive options.batchCount ticks summaries rest ∧
        options.sessionLimit = some summaries.length) ∧
      (runServer wrapper.receive options ticks).stop ≠ .outOfFuel ∧
      ((runServer wrapper.receive options ticks).stop = .endless ↔
        ∃ count receiver rest, options.batchCount = some count ∧
          2 ^ 32 ∣ count ∧
          countLoop wrapper.receive count none {} ticks =
            .ok (.left receiver rest)) := by
  have inRange := parseServerOptions_inRange accepted
  have counted : options.batchCount ≠ some 0 := by
    intro zero
    exact absurd (inRange.batchCount 0 zero).1 (by decide)
  rw [runServer, ← sessionsLeft_zero,
    ← runReceiveLoop_endless_wraps wrapper counted]
  refine ⟨sessionLoop_returned_iff wrapper counted (Nat.lt_succ_self _),
    sessionLoop_fuel wrapper counted (Nat.lt_succ_self _),
    runReceiveLoop_of_endless wrapper counted, ?_⟩
  intro endless
  simp only [sessionLoop, endless]

/-- A byte that belongs to no batch, and silence behind it. -/
def strayByte (byte : Byte) (now : Nat) : List (Tick RecvFrom) :=
  [⟨now, true, .received [byte], now + 1⟩,
    silence (now + 5) (.failed .timedOut)]

/-- Two sessions of a server that was asked for two, with a third one behind
them that it leaves unread. -/
theorem runServer_returned_iff_two :
    runServer plainReceive.receive
        { port := 5000, loop := true, loopCount := some 2 }
        (strayByte 7 0 ++ (strayByte 8 9 ++ strayByte 9 18)) =
      { summaries := [{ fragments := 1 }, { fragments := 1 }]
        stop := .returned (strayByte 9 18) } := by
  have accepted : parseServerOptions .posix
      ["boostudp_server", "--port", "5000", "--loop", "2"] {} =
        .ok (true, { port := 5000, loop := true, loopCount := some 2 }) := by
    decide
  exact (runServer_returned_iff plainReceive accepted _ _ _).1.mpr
    ⟨.cons rfl (.cons rfl (.nil _)), rfl⟩

section Receives

variable {ρ : Type}
  (receiveOne : Receiver → ρ → Except RunError (Bool × Receiver))
  (options : ServerOptions)

def sessionLoopReceives : Nat → Nat → List (Tick ρ) → List ρ
  | 0, _, _ => []
  | fuel + 1, session, ticks =>
      sessionReceives receiveOne options.batchCount ticks ++
        match runReceiveLoop receiveOne options.batchCount ticks with
        | .ok (.summary _ rest) =>
            let session := session + 1
            if !options.loop then
              []
            else if options.loopCount.any (fun count => count ≤ session) then
              []
            else
              sessionLoopReceives fuel session rest
        | _ => []

/-- The receive calls of a run of the server, by what they report. -/
def serverReceives (ticks : List (Tick ρ)) : List ρ :=
  sessionLoopReceives receiveOne options (ticks.length + 1) 0 ticks

end Receives

/-- A session that receives these datagrams prints this summary. -/
def Summarised (batchCount : Option Nat) (datagrams : List (List Byte))
    (stats : ServerStats) : Prop :=
  ∃ receiver, ingestAll {} datagrams = some receiver ∧
    sessionSummary batchCount receiver = some stats

section Conservation

variable {ρ : Type} (wrapper : ReceiveWrapper ρ) {options : ServerOptions}

theorem sessionLoopReceives_last {fuel session : Nat}
    {ticks rest : List (Tick ρ)} {stats : ServerStats}
    (finished : runReceiveLoop wrapper.receive options.batchCount ticks =
      .ok (.summary stats rest))
    (last : options.LastSession session) :
    sessionLoopReceives wrapper.receive options (fuel + 1) session ticks =
      sessionReceives wrapper.receive options.batchCount ticks := by
  simp only [sessionLoopReceives, finished]
  rcases lastSession_iff.mp last with once | reached
  · simp only [once, Bool.not_false, if_true, List.append_nil]
  · simp only [reached, if_true, ite_self, List.append_nil]

theorem sessionLoopReceives_more {fuel session : Nat}
    {ticks rest : List (Tick ρ)} {stats : ServerStats}
    (finished : runReceiveLoop wrapper.receive options.batchCount ticks =
      .ok (.summary stats rest))
    (more : ¬options.LastSession session) :
    sessionLoopReceives wrapper.receive options (fuel + 1) session ticks =
      sessionReceives wrapper.receive options.batchCount ticks ++
        sessionLoopReceives wrapper.receive options fuel (session + 1)
          rest := by
  obtain ⟨looping, onward⟩ := not_lastSession_iff.mp more
  simp only [sessionLoopReceives, finished, looping, onward, Bool.not_true,
    Bool.false_eq_true, if_false]

theorem sessionLoop_conserves (fuel session : Nat) (ticks : List (Tick ρ)) :
    ∃ groups later,
      (sessionLoopReceives wrapper.receive options fuel session
          ticks).filterMap wrapper.data = groups.flatten ++ later ∧
        List.Forall₂ (Summarised options.batchCount) groups
          (sessionLoop wrapper.receive options fuel session
            ticks).summaries ∧
        ((∃ rest, (sessionLoop wrapper.receive options fuel session
            ticks).stop = .returned rest) → later = []) := by
  induction fuel generalizing session ticks with
  | zero => exact ⟨[], [], rfl, .nil, fun _ => rfl⟩
  | succ fuel induction =>
      by_cases finished : ∃ stats between,
          runReceiveLoop wrapper.receive options.batchCount ticks =
            .ok (.summary stats between)
      · obtain ⟨stats, between, finished⟩ := finished
        have judged : Summarised options.batchCount
            ((sessionReceives wrapper.receive options.batchCount
              ticks).filterMap wrapper.data) stats :=
          runReceiveLoop_ingests wrapper finished
        by_cases last : options.LastSession session
        · rw [sessionLoop_last wrapper finished last,
            sessionLoopReceives_last wrapper finished last]
          refine ⟨[_], [], ?_, .cons judged .nil, fun _ => rfl⟩
          rw [List.flatten_singleton, List.append_nil]
        · rw [sessionLoop_more wrapper finished last,
            sessionLoopReceives_more wrapper finished last]
          obtain ⟨groups, later, split, allJudged, complete⟩ :=
            induction (session + 1) between
          refine ⟨_ :: groups, later, ?_, .cons judged allJudged, complete⟩
          rw [List.filterMap_append, split, List.flatten_cons,
            List.append_assoc]
      · push Not at finished
        obtain ⟨stop, running, _, unfinished⟩ :=
          sessionLoop_unfinished wrapper fuel session finished
        rw [unfinished]
        refine ⟨[], _, rfl, .nil, ?_⟩
        rintro ⟨rest, stopped⟩
        exact absurd stopped (running rest)

/-- Every datagram that a returning server receives goes to exactly one of its
sessions, in order, and each summary is that of a receiver which starts afresh
and sees the datagrams of its session only. -/
theorem runServer_conserves {ticks rest : List (Tick ρ)}
    {summaries : List ServerStats}
    (returned : runServer wrapper.receive options ticks =
      { summaries := summaries, stop := .returned rest }) :
    ∃ groups,
      (serverReceives wrapper.receive options ticks).filterMap
          wrapper.data = groups.flatten ∧
        List.Forall₂ (Summarised options.batchCount) groups summaries := by
  obtain ⟨groups, later, split, judged, complete⟩ :=
    sessionLoop_conserves wrapper (ticks.length + 1) 0 ticks
  rw [runServer] at returned
  rw [returned] at judged complete
  refine ⟨groups, ?_, judged⟩
  rw [serverReceives, split, complete ⟨rest, rfl⟩, List.append_nil]

end Conservation

/-- Two sessions of one datagram each. -/
theorem runServer_conserves_two :
    ∃ groups,
      (serverReceives plainReceive.receive
          { port := 5000, loop := true, loopCount := some 2 }
          (strayByte 7 0 ++ strayByte 8 9)).filterMap plainReceive.data =
        groups.flatten ∧
        List.Forall₂ (Summarised none) groups
          [{ fragments := 1 }, { fragments := 1 }] := by
  have returned : runServer plainReceive.receive
      { port := 5000, loop := true, loopCount := some 2 }
      (strayByte 7 0 ++ strayByte 8 9) =
        { summaries := [{ fragments := 1 }, { fragments := 1 }]
          stop := .returned [] } := rfl
  exact runServer_conserves plainReceive returned

/-- One of the two ways to receive, with what it makes of an arrival and of
silence. -/
structure ReceivePath (ρ : Type) where
  wrapper : ReceiveWrapper ρ
  toTick : Arrival → Tick ρ
  timeout : ρ
  shape : ∀ arrival, (toTick arrival).now = arrival.now ∧
    (toTick arrival).readable = true ∧
    (toTick arrival).after = arrival.after

def ReceivePath.Delivers {ρ : Type} (path : ReceivePath ρ)
    (arrival : Arrival) : Prop :=
  path.wrapper.data (path.toTick arrival).outcome = some arrival.data

def plainPath : ReceivePath RecvFrom :=
  { wrapper := plainReceive
    toTick := Arrival.plain
    timeout := .failed .timedOut
    shape := fun _ => ⟨rfl, rfl, rfl⟩ }

def uroPath : ReceivePath WsaRecvMsg :=
  { wrapper := uroReceive
    toTick := Arrival.uro
    timeout := .failed WSAETIMEDOUT
    shape := fun _ => ⟨rfl, rfl, rfl⟩ }

theorem plainPath_delivers (arrival : Arrival) :
    plainPath.Delivers arrival := rfl

theorem uroPath_delivers_iff (arrival : Arrival) :
    uroPath.Delivers arrival ↔ arrival.data ≠ [] := by
  simp [ReceivePath.Delivers, uroPath, uroReceive, Arrival.uro]

/-- The datagrams of one client, none of them a whole idle timeout behind the
one before, and the clock when the server begins to wait for another. -/
structure Burst where
  arrivals : List Arrival
  quiet : Nat

namespace Burst

def payloads (burst : Burst) : List (List Byte) :=
  BoostUdp.payloads burst.arrivals

theorem length_payloads (burst : Burst) :
    burst.payloads.length = burst.arrivals.length :=
  List.length_map _

/-- Something arrives, in time, and then there is silence. -/
structure Separate (burst : Burst) : Prop where
  traffic : burst.arrivals ≠ []
  timely : Timely burst.quiet none burst.arrivals

def ticks {ρ : Type} (path : ReceivePath ρ) (burst : Burst) :
    List (Tick ρ) :=
  burst.arrivals.map path.toTick ++ [silence burst.quiet path.timeout]

end Burst

section Bursts

variable {ρ : Type} (path : ReceivePath ρ) {options : ServerOptions}

/-- The server prints the summaries of the sessions that the clock and the
socket show, and then returns, or waits for the next client. -/
theorem sessionLoop_sessions (idle : options.batchCount = none)
    {ticks : List (Tick ρ)} {summaries : List ServerStats}
    (sessions : Sessions path.wrapper.receive none ticks summaries [])
    {fuel session : Nat} (enough : ticks.length < fuel)
    (room : ∀ left, options.sessionsLeft session = some left →
      summaries.length ≤ left) :
    sessionLoop path.wrapper.receive options fuel session ticks =
      { summaries := summaries
        stop :=
          if options.sessionsLeft session = some summaries.length then
            .returned []
          else
            .waiting {} } := by
  generalize finish : ([] : List (Tick ρ)) = rest at sessions
  induction sessions generalizing fuel session with
  | nil ticks =>
      subst finish
      obtain ⟨fuel, rfl⟩ := Nat.exists_eq_add_of_lt enough
      have more := sessionsLeft_ne_zero options session
      simp only [sessionLoop, idle, runReceiveLoop, idleLoop,
        List.length_nil, if_neg more]
  | @cons ticks between rest stats summaries first later induction =>
      obtain ⟨fuel, rfl⟩ : ∃ before, fuel = before + 1 :=
        ⟨fuel - 1, by omega⟩
      have fewer := (runReceiveLoop_local path.wrapper (by simp) first).1
      rw [← idle] at first
      by_cases last : options.LastSession session
      · have one := (sessionsLeft_last last 1).mpr rfl
        have few := room 1 one
        have none : summaries = [] := by
          rw [List.length_cons] at few
          exact List.length_eq_zero_iff.mp (by omega)
        subst none
        cases later with
        | nil =>
            subst finish
            rw [sessionLoop_last path.wrapper first last,
              List.length_singleton, if_pos one]
      · have below : ∀ left,
            options.sessionsLeft (session + 1) = some left →
              summaries.length ≤ left := by
          intro left known
          have bound := room (left + 1)
            ((sessionsLeft_more last left).mpr known)
          rw [List.length_cons] at bound
          omega
        have smaller : between.length < fuel := by omega
        have onward := induction smaller below finish
        rw [sessionLoop_more path.wrapper first last, onward]
        simp only [ServerRun.prepend, List.length_cons,
          sessionsLeft_more last]

/-- A session over one burst takes the whole burst and nothing behind it. -/
theorem runReceiveLoop_burst {burst : Burst} (separate : burst.Separate)
    (delivered : ∀ arrival ∈ burst.arrivals, path.Delivers arrival)
    (more : List (Tick ρ)) :
    ∃ stats, Summarised none burst.payloads stats ∧
      runReceiveLoop path.wrapper.receive none (burst.ticks path ++ more) =
        .ok (.summary stats more) := by
  obtain ⟨receiver, ingested, tracks⟩ := ingestAll_fresh burst.payloads
  obtain ⟨stats, summarised, _, _⟩ := tracks.summaryAccounts
  have left := idleLoop_delivers path.wrapper path.toTick path.timeout
    path.shape delivered separate.timely (Or.inr separate.traffic) ingested
  have finished := runReceiveLoop_idle.mpr ⟨receiver, left, summarised⟩
  refine ⟨stats, ⟨receiver, ingested, summarised⟩, ?_⟩
  exact (runReceiveLoop_local path.wrapper (by simp) finished).2 more

theorem sessions_bursts {bursts : List Burst}
    (separate : ∀ burst ∈ bursts, burst.Separate)
    (delivered : ∀ burst ∈ bursts, ∀ arrival ∈ burst.arrivals,
      path.Delivers arrival) :
    ∃ summaries,
      Sessions path.wrapper.receive none
          (bursts.flatMap (Burst.ticks path)) summaries [] ∧
        List.Forall₂ (fun burst => Summarised none burst.payloads) bursts
          summaries := by
  induction bursts with
  | nil => exact ⟨[], .nil [], .nil⟩
  | cons burst bursts induction =>
      obtain ⟨summaries, sessions, judged⟩ := induction
        (fun other member => separate other (List.mem_cons_of_mem _ member))
        (fun other member => delivered other (List.mem_cons_of_mem _ member))
      obtain ⟨stats, first, finished⟩ := runReceiveLoop_burst path
        (separate burst List.mem_cons_self)
        (delivered burst List.mem_cons_self)
        (bursts.flatMap (Burst.ticks path))
      exact ⟨stats :: summaries, .cons finished sessions, .cons first judged⟩

/-- Clients that the server sees one after the other do not disturb each
other: each gets a summary of its own datagrams, as if the server had been
started for it. -/
theorem runServer_bursts (idle : options.batchCount = none)
    {bursts : List Burst} (separate : ∀ burst ∈ bursts, burst.Separate)
    (delivered : ∀ burst ∈ bursts, ∀ arrival ∈ burst.arrivals,
      path.Delivers arrival)
    (room : ∀ limit, options.sessionLimit = some limit →
      bursts.length ≤ limit) :
    ∃ summaries,
      runServer path.wrapper.receive options
          (bursts.flatMap (Burst.ticks path)) =
        { summaries := summaries
          stop :=
            if options.sessionLimit = some bursts.length then
              .returned []
            else
              .waiting {} } ∧
        List.Forall₂ (fun burst => Summarised none burst.payloads) bursts
          summaries := by
  obtain ⟨summaries, sessions, judged⟩ := sessions_bursts path separate
    delivered
  have length : bursts.length = summaries.length := judged.length_eq
  rw [length] at room ⊢
  exact ⟨summaries, sessionLoop_sessions path idle sessions
    (Nat.lt_succ_self _) room, judged⟩

end Bursts

def oneByte (now : Nat) : Burst :=
  { arrivals := [⟨[7], none, now, now + 1⟩], quiet := now + 5 }

theorem oneByte_separate (now : Nat) : (oneByte now).Separate :=
  { traffic := List.cons_ne_nil _ _
    timely := by
      constructor
      · intro deadline none
        contradiction
      · intro deadline known
        cases known
        simp only [oneByte, kIdleTimeout, millisecond]
        omega }

/-- Two clients that send a byte each, and a server that goes on. -/
theorem runServer_bursts_two :
    ∃ summaries,
      runServer receiveDatagram { port := 5000, loop := true }
          ((oneByte 0).ticks plainPath ++ (oneByte 9).ticks plainPath) =
        { summaries := summaries, stop := .waiting {} } ∧
      summaries.length = 2 := by
  have separate : ∀ burst ∈ [oneByte 0, oneByte 9], burst.Separate := by
    intro burst member
    rcases List.mem_pair.mp member with rfl | rfl
    · exact oneByte_separate 0
    · exact oneByte_separate 9
  obtain ⟨summaries, served, judged⟩ := @runServer_bursts _ plainPath
    { port := 5000, loop := true } rfl _ separate
    (fun _ _ arrival _ => plainPath_delivers arrival)
    (by
      intro limit known
      contradiction)
  rw [List.flatMap_cons, List.flatMap_cons, List.flatMap_nil,
    List.append_nil] at served
  exact ⟨summaries, served, judged.length_eq.symm⟩

end BoostUdp
