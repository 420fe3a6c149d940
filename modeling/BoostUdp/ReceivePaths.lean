import BoostUdp.SessionRun
import BoostUdp.SessionSummary

/-!
# The two receive paths

A session without `--count` over `recvfrom` and over `WSARecvMsg`.  The second
path takes an empty datagram for the end of the session, the first one ingests
it.
-/

namespace BoostUdp

open LittleEndian

/-- A datagram that arrives while the session goes on, with the coalescing
information of `WSARecvMsg`, and the clock at the top of the turn that
receives it and at the end. -/
structure Arrival where
  data : List Byte
  info : Option Nat
  now : Nat
  after : Nat

namespace Arrival

def plain (arrival : Arrival) : Tick RecvFrom :=
  { now := arrival.now
    readable := true
    outcome := .received arrival.data
    after := arrival.after }

def uro (arrival : Arrival) : Tick WsaRecvMsg :=
  { now := arrival.now
    readable := true
    outcome := .received arrival.data arrival.info
    after := arrival.after }

end Arrival

/-- The socket stays silent: a wait runs into the idle timeout, and a receive
call times out. -/
def silence {ρ : Type} (now : Nat) (timeout : ρ) : Tick ρ :=
  { now := now, readable := false, outcome := timeout, after := now }

def plainTicks (arrivals : List Arrival) (quiet : Nat) :
    List (Tick RecvFrom) :=
  arrivals.map Arrival.plain ++ [silence quiet (.failed .timedOut)]

def uroTicks (arrivals : List Arrival) (quiet : Nat) :
    List (Tick WsaRecvMsg) :=
  arrivals.map Arrival.uro ++ [silence quiet (.failed WSAETIMEDOUT)]

/-- Every turn begins before the deadline that the turn before it has set, and
the last deadline is waited for in whole milliseconds. -/
def Timely (quiet : Nat) : Option Nat → List Arrival → Prop
  | idleDeadline, [] => ∀ deadline, idleDeadline = some deadline →
      deadline ≤ quiet ∨ quiet + millisecond ≤ deadline
  | idleDeadline, arrival :: arrivals =>
      (∀ deadline, idleDeadline = some deadline →
        arrival.now + millisecond ≤ deadline) ∧
      Timely quiet (some (arrival.after + kIdleTimeout)) arrivals

def payloads (arrivals : List Arrival) : List (List Byte) :=
  arrivals.map Arrival.data

/-- A path that delivers every datagram consumes them all. -/
theorem idleLoop_delivers {ρ : Type} (wrapper : ReceiveWrapper ρ)
    (toTick : Arrival → Tick ρ) (timeout : ρ) {quiet : Nat}
    {arrivals : List Arrival}
    (shape : ∀ arrival, (toTick arrival).now = arrival.now ∧
      (toTick arrival).readable = true ∧
      (toTick arrival).after = arrival.after)
    (delivered : ∀ arrival ∈ arrivals,
      wrapper.data (toTick arrival).outcome = some arrival.data)
    {idleDeadline : Option Nat}
    (timely : Timely quiet idleDeadline arrivals)
    (traffic : idleDeadline ≠ none ∨ arrivals ≠ [])
    {receiver after : Receiver}
    (ingested : ingestAll receiver (payloads arrivals) = some after) :
    idleLoop wrapper.receive idleDeadline receiver
      (arrivals.map toTick ++ [silence quiet timeout]) =
      .ok (.left after []) := by
  induction arrivals generalizing idleDeadline receiver with
  | nil =>
      cases idleDeadline with
      | none => simp at traffic
      | some deadline =>
          cases ingested
          exact idleLoop_timesOut wrapper
            ((timely deadline rfl).imp_right fun early => ⟨early, rfl⟩) _ _
  | cons arrival arrivals induction =>
      obtain ⟨now, readable, later⟩ := shape arrival
      obtain ⟨early, rest⟩ := timely
      cases onward : ingestFragment receiver arrival.data with
      | none => simp [payloads, ingestAll, onward] at ingested
      | some between =>
          have remaining : ingestAll between (payloads arrivals) =
              some after := by
            simpa [payloads, ingestAll, onward] using ingested
          rw [List.map_cons, List.cons_append, idleLoop_receives wrapper
            (fun deadline same =>
              ⟨by rw [now]; exact early deadline same, readable⟩),
            wrapper.delivers (delivered arrival List.mem_cons_self), onward,
            later]
          exact induction
            (fun other member => delivered other (List.mem_cons_of_mem _ member))
            rest (Or.inl (by simp)) remaining

/-- The `WSARecvMsg` path leaves after some of the datagrams, and has ingested
those of them that are not empty. -/
theorem uro_idleLoop_left {quiet : Nat} {arrivals : List Arrival}
    {shared : Option Nat} (timely : Timely quiet shared arrivals)
    {idleDeadline : Option Nat}
    (same : idleDeadline = none ∨ idleDeadline = shared)
    {receiver after : Receiver} {rest : List (Tick WsaRecvMsg)}
    (left : idleLoop uroReceive.receive idleDeadline receiver
      (uroTicks arrivals quiet) = .ok (.left after rest)) :
    ∃ used, used <+: arrivals ∧
      ingestAll receiver
        ((payloads used).filter fun data => !data.isEmpty) = some after := by
  induction arrivals generalizing shared idleDeadline receiver with
  | nil =>
      cases idleDeadline with
      | none => cases left
      | some deadline =>
          have known : shared = some deadline := by
            simpa [eq_comm] using same
          let last : Tick WsaRecvMsg := silence quiet (.failed WSAETIMEDOUT)
          have finished : deadline ≤ last.now ∨
              last.now + millisecond ≤ deadline ∧ last.readable = false :=
            (timely deadline known).imp_right fun early => ⟨early, rfl⟩
          cases left.symm.trans
            (idleLoop_timesOut uroReceive finished receiver [])
          exact ⟨[], List.prefix_rfl, rfl⟩
  | cons arrival arrivals induction =>
      obtain ⟨early, later⟩ := timely
      have awaited : ∀ deadline, idleDeadline = some deadline →
          arrival.uro.now + millisecond ≤ deadline ∧
            arrival.uro.readable = true := by
        intro deadline known
        rcases same with none | equal
        · exact absurd (none.symm.trans known) (by simp)
        · exact ⟨early deadline (equal.symm.trans known), rfl⟩
      have ticks : uroTicks (arrival :: arrivals) quiet =
          arrival.uro :: uroTicks arrivals quiet := rfl
      have received : uroReceive.receive receiver arrival.uro.outcome = _ :=
        receiveUroDatagram_received receiver arrival.data arrival.info
      rw [ticks, idleLoop_receives uroReceive awaited, received] at left
      by_cases empty : arrival.data.isEmpty = true
      · simp only [empty, if_true] at left
        by_cases first : idleDeadline.isNone = true
        · rw [if_pos first] at left
          obtain ⟨used, front, ingested⟩ := induction later
            (Or.inl (Option.isNone_iff_eq_none.mp first)) left
          refine ⟨arrival :: used, List.cons_prefix_cons.mpr ⟨rfl, front⟩, ?_⟩
          simpa [payloads, empty] using ingested
        · rw [if_neg first] at left
          cases left
          exact ⟨[], List.nil_prefix, rfl⟩
      · simp only [empty, Bool.false_eq_true, if_false] at left
        cases onward : ingestFragment receiver arrival.data with
        | none =>
            rw [onward] at left
            contradiction
        | some between =>
            rw [onward] at left
            obtain ⟨used, front, ingested⟩ :=
              induction later (Or.inr rfl) left
            refine ⟨arrival :: used,
              List.cons_prefix_cons.mpr ⟨rfl, front⟩, ?_⟩
            simpa [payloads, empty, ingestAll, onward] using ingested

theorem runReceiveLoop_idle {ρ : Type}
    {receiveOne : Receiver → ρ → Except RunError (Bool × Receiver)}
    {ticks rest : List (Tick ρ)} {stats : ServerStats} :
    runReceiveLoop receiveOne none ticks = .ok (.summary stats rest) ↔
      ∃ receiver, idleLoop receiveOne none {} ticks =
          .ok (.left receiver rest) ∧
        sessionSummary none receiver = some stats :=
  runReceiveLoop_summary_iff

/-- Without an empty datagram the fragments are the datagrams and the salvaged
tails; leaving an empty one out, or leaving at one, shows in their number. -/
theorem fragments_lt_of_empty {arrivals used : List Arrival}
    (front : used <+: arrivals)
    (empty : ∃ arrival ∈ arrivals, arrival.data = [])
    {whole part : Receiver}
    (all : ingestAll {} (payloads arrivals) = some whole)
    (some : ingestAll {}
      ((payloads used).filter fun data => !data.isEmpty) = some part) :
    part.stats.fragments < whole.stats.fragments := by
  have wholeTracks := tracks_of_ingestAll all
  have partTracks := tracks_of_ingestAll some
  have nonempty : ∀ datagrams : List (List Byte),
      (datagrams.filter fun data => !data.isEmpty).flatten =
        datagrams.flatten := by
    intro datagrams
    induction datagrams with
    | nil => rfl
    | cons datagram datagrams induction =>
        cases datagram <;> simp [induction]
  obtain ⟨back, rfl⟩ := front
  have cut : (payloads (used ++ back)).flatten =
      (payloads used).flatten ++ (payloads back).flatten := by
    simp [payloads]
  have salvages : part.verdicts.countP Verdict.isSalvaged ≤
      whole.verdicts.countP Verdict.isSalvaged := by
    rw [← partTracks.logged.trail, ← wholeTracks.logged.trail, nonempty, cut,
      scan_append]
    exact ((scanner.trail_prefix_feed _ _).map _).countP_le
  have fewer : ((payloads used).filter fun data => !data.isEmpty).length <
      (payloads (used ++ back)).length := by
    obtain ⟨arrival, member, blank⟩ := empty
    have shorter : ((payloads (used ++ back)).filter
        fun data => !data.isEmpty).length <
          (payloads (used ++ back)).length := by
      apply List.length_filter_lt_length_iff_exists.mpr
      exact ⟨arrival.data, List.mem_map_of_mem member, by simp [blank]⟩
    refine Nat.lt_of_le_of_lt ?_ shorter
    simp [payloads]
  rw [partTracks.logged.fragments, wholeTracks.logged.fragments]
  omega

/-- Over the same datagrams and the same clock, both receive paths consume
everything and print the same summary exactly when there are datagrams and
none of them is empty. -/
theorem receive_paths_agree_iff {arrivals : List Arrival} {quiet : Nat}
    (timely : Timely quiet none arrivals) :
    (∃ stats,
        runReceiveLoop receiveDatagram none (plainTicks arrivals quiet) =
            .ok (.summary stats []) ∧
          runReceiveLoop receiveUroDatagram none (uroTicks arrivals quiet) =
            .ok (.summary stats [])) ↔
      arrivals ≠ [] ∧ ∀ arrival ∈ arrivals, arrival.data ≠ [] := by
  obtain ⟨whole, ingested, tracks⟩ := ingestAll_fresh (payloads arrivals)
  have plainLeft : arrivals ≠ [] →
      idleLoop receiveDatagram none {} (plainTicks arrivals quiet) =
        .ok (.left whole []) := fun traffic =>
    idleLoop_delivers plainReceive Arrival.plain (.failed .timedOut)
      (fun _ => ⟨rfl, rfl, rfl⟩) (fun _ _ => rfl) timely (Or.inr traffic)
      ingested
  constructor
  · rintro ⟨stats, plainRun, uroRun⟩
    obtain ⟨receiver, left, summarised⟩ := runReceiveLoop_idle.mp plainRun
    have traffic : arrivals ≠ [] := by
      rintro rfl
      cases left
    refine ⟨traffic, ?_⟩
    by_contra blank
    push Not at blank
    cases (plainLeft traffic).symm.trans left
    obtain ⟨part, leftUro, summarisedUro⟩ := runReceiveLoop_idle.mp uroRun
    obtain ⟨used, front, ingestedUro⟩ :=
      uro_idleLoop_left timely (Or.inl rfl) leftUro
    have fewer := fragments_lt_of_empty front blank ingested ingestedUro
    obtain ⟨_, rfl⟩ := sessionSummary_frame summarised
    obtain ⟨_, same⟩ := sessionSummary_frame summarisedUro
    exact absurd (congrArg ServerStats.fragments same) (Nat.ne_of_gt fewer)
  · rintro ⟨traffic, nonempty⟩
    obtain ⟨stats, summarised, _, _⟩ := tracks.summaryAccounts
    refine ⟨stats,
      runReceiveLoop_idle.mpr ⟨whole, plainLeft traffic, summarised⟩,
      runReceiveLoop_idle.mpr ⟨whole, ?_, summarised⟩⟩
    refine idleLoop_delivers uroReceive Arrival.uro (.failed WSAETIMEDOUT)
      (fun _ => ⟨rfl, rfl, rfl⟩) ?_ timely (Or.inr traffic) ingested
    intro arrival member
    simp [uroReceive, Arrival.uro, nonempty arrival member]

/-- Datagrams that arrive at once. -/
def atOnce (datagrams : List (List Byte)) : List Arrival :=
  datagrams.map fun data =>
    { data := data, info := none, now := 0, after := 0 }

theorem receive_paths_agree_iff_magic :
    ∃ stats,
      runReceiveLoop receiveDatagram none
          (plainTicks (atOnce [[0x50#8], [0x44#8, 0x55#8]]) 0) =
          .ok (.summary stats []) ∧
        runReceiveLoop receiveUroDatagram none
          (uroTicks (atOnce [[0x50#8], [0x44#8, 0x55#8]]) 0) =
          .ok (.summary stats []) :=
  (receive_paths_agree_iff
    (show Timely 0 none (atOnce [[0x50#8], [0x44#8, 0x55#8]]) by
      simp [Timely, atOnce, millisecond, kIdleTimeout])).mpr
    ⟨by simp [atOnce], by simp [atOnce]⟩

/-- An empty datagram between two others: `recvfrom` counts all three,
`WSARecvMsg` ends the session at the second and leaves the third unread. -/
theorem empty_datagram_ends_uro_session :
    runReceiveLoop receiveDatagram none
        (plainTicks (atOnce [[0x50#8], [], [0x44#8]]) 0) =
        .ok (.summary { fragments := 3 } []) ∧
      runReceiveLoop receiveUroDatagram none
        (uroTicks (atOnce [[0x50#8], [], [0x44#8]]) 0) =
        .ok (.summary { fragments := 1 } (uroTicks (atOnce [[0x44#8]]) 0)) :=
  ⟨rfl, rfl⟩

end BoostUdp
