import Mathlib.Tactic

/-!
# Runs of a partial step function

A step says what an event does to a state, or that it cannot happen there.  A
property holds throughout a run when it holds in each state the run goes
through.
-/

namespace EventRun

universe u v

variable {σ : Type u} {ε : Type v} (step : σ → ε → Option σ)

def run (start : σ) (events : List ε) : Option σ := events.foldlM step start

theorem run_append (start : σ) (first second : List ε) :
    run step start (first ++ second) =
      (run step start first).bind fun state => run step state second :=
  List.foldlM_append

theorem run_single (start : σ) (event : ε) :
    run step start [event] = step start event := by
  rw [run, List.foldlM_cons]
  exact Option.bind_fun_some _

theorem run_concat (start : σ) (events : List ε) (event : ε) :
    run step start (events ++ [event]) =
      (run step start events).bind fun state => step state event := by
  rw [run_append]
  simp only [run_single]

/-- The states that the run goes through have the property. -/
def Throughout (Holds : σ → Prop) (start : σ) (events : List ε) : Prop :=
  ∀ before after, events = before ++ after →
    ∀ state, run step start before = some state → Holds state

/-- What the events of a run keep holds where the run ends. -/
theorem run_keeps {Invariant : σ → Prop} {start : σ} {events : List ε}
    (kept : ∀ event ∈ events, ∀ state next, Invariant state →
      step state event = some next → Invariant next)
    (initial : Invariant start) {final : σ}
    (ran : run step start events = some final) : Invariant final := by
  induction events generalizing start with
  | nil =>
      cases ran
      exact initial
  | cons event events induction =>
      obtain ⟨next, stepped, rest⟩ := Option.bind_eq_some_iff.mp ran
      apply induction
      · intro other member
        exact kept other (List.mem_cons_of_mem _ member)
      · exact kept event List.mem_cons_self start next initial stepped
      · exact rest

/-- When the good events keep an invariant, and each other event breaks the
property at once, the runs that have it are those of good events. -/
theorem throughout_iff {Good : ε → Prop} {Invariant Holds : σ → Prop}
    (kept : ∀ event state next, Good event → Invariant state →
      step state event = some next → Invariant next)
    (holds : ∀ state, Invariant state → Holds state)
    (breaks : ∀ event state next, ¬Good event →
      step state event = some next → ¬Holds next)
    {start final : σ} {events : List ε} (initial : Invariant start)
    (ran : run step start events = some final) :
    Throughout step Holds start events ↔ ∀ event ∈ events, Good event := by
  constructor
  · intro throughout event member
    by_contra bad
    obtain ⟨before, after, split⟩ := List.append_of_mem member
    have rejoined : events = (before ++ [event]) ++ after := by
      rw [split, List.append_assoc]
      rfl
    rw [rejoined, run_append] at ran
    obtain ⟨next, reached, _⟩ := Option.bind_eq_some_iff.mp ran
    have held := throughout _ after rejoined next reached
    rw [run_concat] at reached
    obtain ⟨state, _, stepped⟩ := Option.bind_eq_some_iff.mp reached
    exact breaks event state next bad stepped held
  · intro good before after split state reached
    apply holds
    apply run_keeps step ?_ initial reached
    intro event member current next
    apply kept
    apply good
    rw [split]
    exact List.mem_append_left _ member

end EventRun
