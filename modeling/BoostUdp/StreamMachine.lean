import Mathlib.Data.List.Basic
import Mathlib.Data.List.Infix
import Mathlib.Logic.Relation
import Mathlib.Tactic

/-!
# Incremental machines over a stream

A `StreamMachine` reads a stream from the front.  It looks at the bytes that
have arrived and were not consumed yet, and either waits for more or makes a
move: a new state, a number of bytes to consume, and some outputs.  A move may
consume nothing as long as the rank of the state goes down.

The one law that matters is `stable`: a move that is possible stays possible,
unchanged, when more bytes arrive.  Under it the result of a run depends only
on the bytes and not on how they were cut into chunks.
-/

namespace StreamMachine

universe u v w

/-- A move: the next state, the number of bytes consumed and the outputs. -/
structure Move (σ : Type u) (ε : Type w) where
  next : σ
  count : Nat
  outputs : List ε

end StreamMachine

open StreamMachine in
structure StreamMachine (σ : Type u) (α : Type v) (ε : Type w) where
  step : σ → List α → Option (Move σ ε)
  rank : σ → Nat
  consumes : ∀ {state input move}, step state input = some move →
    move.count ≤ input.length
  progress : ∀ {state input move}, step state input = some move →
    0 < move.count ∨ rank move.next < rank state
  stable : ∀ {state input move} (more : List α),
    step state input = some move → step state (input ++ more) = some move

namespace StreamMachine

variable {σ : Type u} {α : Type v} {ε : Type w}

/-- A machine in the middle of a stream: how much it has consumed, what has
arrived beyond that, and its outputs with the position each was made at. -/
structure Config (σ : Type u) (α : Type v) (ε : Type w) where
  state : σ
  position : Nat
  pending : List α
  trail : List (Nat × ε)

namespace Config

/-- More bytes arrive. -/
def extend (config : Config σ α ε) (chunk : List α) : Config σ α ε :=
  { config with pending := config.pending ++ chunk }

@[simp] theorem extend_state (config : Config σ α ε) (chunk : List α) :
    (config.extend chunk).state = config.state := rfl

@[simp] theorem extend_position (config : Config σ α ε) (chunk : List α) :
    (config.extend chunk).position = config.position := rfl

@[simp] theorem extend_pending (config : Config σ α ε) (chunk : List α) :
    (config.extend chunk).pending = config.pending ++ chunk := rfl

@[simp] theorem extend_trail (config : Config σ α ε) (chunk : List α) :
    (config.extend chunk).trail = config.trail := rfl

@[simp] theorem extend_nil (config : Config σ α ε) :
    config.extend [] = config := by
  simp [extend]

@[simp] theorem extend_extend (config : Config σ α ε)
    (first second : List α) :
    (config.extend first).extend second = config.extend (first ++ second) := by
  simp [extend]

/-- Make a move. -/
def apply (config : Config σ α ε) (move : Move σ ε) : Config σ α ε :=
  { state := move.next
    position := config.position + move.count
    pending := config.pending.drop move.count
    trail := config.trail ++
      move.outputs.map (fun output => (config.position, output)) }

/-- The configuration is somewhere in `input`: the pending bytes are what
follows its position. -/
def Inside (input : List α) (config : Config σ α ε) : Prop :=
  config.position ≤ input.length ∧
    config.pending = input.drop config.position

theorem Inside.extend {input : List α} {config : Config σ α ε}
    (inside : Inside input config) (chunk : List α) :
    Inside (input ++ chunk) (config.extend chunk) := by
  constructor
  · simpa using Nat.le_add_right_of_le inside.1
  · simp [inside.2, List.drop_append_of_le_length inside.1]

theorem Inside.length_pending {input : List α} {config : Config σ α ε}
    (inside : Inside input config) :
    config.position + config.pending.length = input.length := by
  have below := inside.1
  simp only [inside.2, List.length_drop]
  omega

end Config

variable (machine : StreamMachine σ α ε)

/-- One move, if one is possible. -/
def advance (config : Config σ α ε) : Option (Config σ α ε) :=
  (machine.step config.state config.pending).map config.apply

theorem advance_eq_some {config next : Config σ α ε}
    (advanced : machine.advance config = some next) :
    ∃ move, machine.step config.state config.pending = some move ∧
      next = config.apply move := by
  obtain ⟨move, stepped, applied⟩ := Option.map_eq_some_iff.mp advanced
  exact ⟨move, stepped, applied.symm⟩

theorem advance_eq_none {config : Config σ α ε}
    (waiting : machine.step config.state config.pending = none) :
    machine.advance config = none := by
  simp [advance, waiting]

theorem step_eq_none {config : Config σ α ε}
    (waiting : machine.advance config = none) :
    machine.step config.state config.pending = none := by
  simpa [advance] using waiting

theorem advance_measure {config next : Config σ α ε}
    (advanced : machine.advance config = some next) :
    next.pending.length < config.pending.length ∨
      next.pending.length = config.pending.length ∧
        machine.rank next.state < machine.rank config.state := by
  obtain ⟨move, stepped, rfl⟩ := machine.advance_eq_some advanced
  have fits := machine.consumes stepped
  have moved := machine.progress stepped
  simp only [Config.apply, List.length_drop]
  omega

/-- Move as long as a move is possible. -/
def drain (config : Config σ α ε) : Config σ α ε :=
  match _advanced : machine.advance config with
  | none => config
  | some next => drain next
termination_by (config.pending.length, machine.rank config.state)
decreasing_by
  rcases machine.advance_measure _advanced with shorter | ⟨same, lower⟩
  · exact Prod.Lex.left _ _ shorter
  · rw [same]
    exact Prod.Lex.right _ lower

theorem drain_of_none {config : Config σ α ε}
    (waiting : machine.advance config = none) :
    machine.drain config = config := by
  rw [drain]
  split
  · rfl
  · simp_all

theorem drain_of_some {config next : Config σ α ε}
    (advanced : machine.advance config = some next) :
    machine.drain config = machine.drain next := by
  rw [drain]
  grind

/-- The invariant rule: what holds at the start and is preserved by every
move holds when the run waits. -/
theorem drain_induction (Invariant : Config σ α ε → Prop)
    (preserved : ∀ {config next}, Invariant config →
      machine.advance config = some next → Invariant next)
    (config : Config σ α ε) (initial : Invariant config) :
    Invariant (machine.drain config) := by
  induction config using drain.induct machine with
  | case1 config waiting =>
      rw [machine.drain_of_none waiting]
      exact initial
  | case2 config next advanced induction =>
      rw [machine.drain_of_some advanced]
      exact induction (preserved initial advanced)

/-- A finished run cannot move. -/
theorem advance_drain (config : Config σ α ε) :
    machine.advance (machine.drain config) = none := by
  induction config using drain.induct machine with
  | case1 config waiting =>
      rw [machine.drain_of_none waiting]
      exact waiting
  | case2 config next advanced induction =>
      rw [machine.drain_of_some advanced]
      exact induction

theorem advance_extend {config next : Config σ α ε} (chunk : List α)
    (advanced : machine.advance config = some next) :
    machine.advance (config.extend chunk) = some (next.extend chunk) := by
  obtain ⟨move, stepped, rfl⟩ := machine.advance_eq_some advanced
  have fits := machine.consumes stepped
  have stepped' := machine.stable chunk stepped
  simp only [advance, Config.extend_state, Config.extend_pending, stepped',
    Option.map_some, Option.some.injEq]
  simp [Config.apply, Config.extend, List.drop_append_of_le_length fits]

/-- Draining before more bytes arrive changes nothing. -/
theorem drain_extend_drain (config : Config σ α ε) (chunk : List α) :
    machine.drain ((machine.drain config).extend chunk) =
      machine.drain (config.extend chunk) := by
  induction config using drain.induct machine with
  | case1 config waiting => rw [machine.drain_of_none waiting]
  | case2 config next advanced induction =>
      rw [machine.drain_of_some advanced, induction,
        ← machine.drain_of_some (machine.advance_extend chunk advanced)]

/-- A chunk arrives and the machine runs until it waits. -/
def feed (config : Config σ α ε) (chunk : List α) : Config σ α ε :=
  machine.drain (config.extend chunk)

def feedAll (config : Config σ α ε) (chunks : List (List α)) :
    Config σ α ε :=
  chunks.foldl machine.feed config

@[simp] theorem feedAll_nil (config : Config σ α ε) :
    machine.feedAll config [] = config := rfl

@[simp] theorem feedAll_cons (config : Config σ α ε) (chunk : List α)
    (chunks : List (List α)) :
    machine.feedAll config (chunk :: chunks) =
      machine.feedAll (machine.feed config chunk) chunks := rfl

theorem feed_feed (config : Config σ α ε) (first second : List α) :
    machine.feed (machine.feed config first) second =
      machine.feed config (first ++ second) := by
  simp only [feed, drain_extend_drain, Config.extend_extend]

/-- However the bytes are cut, a waiting machine ends where it ends when they
arrive in one piece. -/
theorem feedAll_eq_feed {config : Config σ α ε}
    (waiting : machine.advance config = none) (chunks : List (List α)) :
    machine.feedAll config chunks = machine.feed config chunks.flatten := by
  induction chunks generalizing config with
  | nil => simp [feed, machine.drain_of_none waiting]
  | cons chunk chunks induction =>
      have settled : machine.advance (machine.feed config chunk) = none :=
        machine.advance_drain _
      rw [feedAll_cons, induction settled, feed_feed, List.flatten_cons]

theorem advance_inside {input : List α} {config next : Config σ α ε}
    (inside : config.Inside input)
    (advanced : machine.advance config = some next) :
    next.Inside input := by
  obtain ⟨move, stepped, rfl⟩ := machine.advance_eq_some advanced
  have fits := machine.consumes stepped
  have total := inside.length_pending
  constructor
  · simp only [Config.apply]
    omega
  · simp [Config.apply, inside.2, List.drop_drop]

/-- Outputs are only ever added. -/
theorem trail_prefix_drain (config : Config σ α ε) :
    config.trail <+: (machine.drain config).trail := by
  refine machine.drain_induction
    (fun later => config.trail <+: later.trail)
    ?_ config List.prefix_rfl
  intro current next older advanced
  obtain ⟨move, _, rfl⟩ := machine.advance_eq_some advanced
  exact older.trans (List.prefix_append _ _)

theorem trail_prefix_feed (config : Config σ α ε) (chunk : List α) :
    config.trail <+: (machine.feed config chunk).trail :=
  machine.trail_prefix_drain (config.extend chunk)

/-- `later` is on the run from `config`. -/
def Reaches (config later : Config σ α ε) : Prop :=
  Relation.ReflTransGen
    (fun current next => machine.advance current = some next) config later

variable {machine} in
/-- Every configuration on a run has the same end. -/
theorem Reaches.drain_eq {config later : Config σ α ε}
    (reaches : machine.Reaches config later) :
    machine.drain later = machine.drain config := by
  induction reaches with
  | refl => rfl
  | tail _ advanced induction =>
      rw [← machine.drain_of_some advanced, induction]

variable {machine} in
theorem Reaches.invariant {config later : Config σ α ε}
    (reaches : machine.Reaches config later)
    (Invariant : Config σ α ε → Prop)
    (preserved : ∀ {current next}, Invariant current →
      machine.advance current = some next → Invariant next)
    (initial : Invariant config) : Invariant later := by
  induction reaches with
  | refl => exact initial
  | tail _ advanced induction => exact preserved induction advanced

variable {machine} in
/-- What a move on a run has output stays. -/
theorem Reaches.trail_prefix {config current next : Config σ α ε}
    (reaches : machine.Reaches config current)
    (advanced : machine.advance current = some next) :
    next.trail <+: (machine.drain config).trail := by
  have later := machine.trail_prefix_drain next
  rw [← machine.drain_of_some advanced, reaches.drain_eq] at later
  exact later

/-- When no move has two outputs, each output of a run was made by a move on
the run, which had made the outputs before it. -/
theorem exists_output_move
    (single : ∀ {state input move}, machine.step state input = some move →
      move.outputs.length ≤ 1)
    (config : Config σ α ε) {before after : List (Nat × ε)}
    {entry : Nat × ε} (fresh : config.trail.length ≤ before.length)
    (made : (machine.drain config).trail = before ++ entry :: after) :
    ∃ current next, machine.Reaches config current ∧
      machine.advance current = some next ∧ current.trail = before ∧
      next.trail = before ++ [entry] := by
  induction config using drain.induct machine with
  | case1 config waiting =>
      rw [machine.drain_of_none waiting] at made
      simp only [made, List.length_append, List.length_cons] at fresh
      omega
  | case2 config next advanced induction =>
      have samePrefix := machine.trail_prefix_drain next
      rw [machine.drain_of_some advanced] at made
      by_cases early : next.trail.length ≤ before.length
      · obtain ⟨current, later, reaches, moved, trails⟩ := induction early made
        exact ⟨current, later, .head advanced reaches, moved, trails⟩
      · obtain ⟨move, stepped, rfl⟩ := machine.advance_eq_some advanced
        have atMostOne := single stepped
        simp only [Config.apply, List.length_append, List.length_map] at early
        have front : config.trail <+: before ++ entry :: after := by
          rw [← made]
          exact (List.prefix_append _ _).trans samePrefix
        have whole : (config.apply move).trail <+:
            (before ++ [entry]) ++ after := by
          rw [List.append_assoc, List.singleton_append, ← made]
          exact samePrefix
        have sameFront : config.trail = before := by
          apply List.IsPrefix.eq_of_length
            (List.prefix_of_prefix_length_le front
              (List.prefix_append _ _) fresh)
          omega
        refine ⟨config, _, .refl, advanced, sameFront, ?_⟩
        apply List.IsPrefix.eq_of_length
          (List.prefix_of_prefix_length_le whole (List.prefix_append _ _) ?_)
        · simp only [Config.apply, List.length_append, List.length_map,
            List.length_singleton, sameFront]
          omega
        · simp only [Config.apply, List.length_append, List.length_map,
            List.length_singleton, sameFront]
          omega

theorem length_pending_feed_le (config : Config σ α ε) (chunk : List α) :
    (machine.feed config chunk).pending.length ≤
      config.pending.length + chunk.length := by
  refine machine.drain_induction
    (fun later => later.pending.length ≤
      config.pending.length + chunk.length) ?_ _ (by simp)
  intro current next bound advanced
  rcases machine.advance_measure advanced with shorter | ⟨same, _⟩
  · omega
  · omega

end StreamMachine
