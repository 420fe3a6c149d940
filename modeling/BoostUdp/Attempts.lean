import Mathlib.Data.List.Forall2

/-!
# Attempts in order

Ways to do something, tried one after the other until one succeeds.  Every try
may change the state, also one that fails.
-/

namespace Attempts

universe u v w x

variable {α : Type u} {σ : Type v} {ε : Type w}
  (attempt : α → σ → Except ε Unit × σ)

/-- The choice that succeeded, or the error of the last one. -/
def inOrder : List α → ε → σ → Except ε α × σ
  | [], error, state => (.error error, state)
  | choice :: rest, _, state =>
      match attempt choice state with
      | (.ok _, state) => (.ok choice, state)
      | (.error error, state) => inOrder rest error state

variable {attempt} {choices : List α} {choice : α} {error : ε} {state : σ}

theorem inOrder_append (first rest : List α) :
    inOrder attempt (first ++ rest) error state =
      match inOrder attempt first error state with
      | (.ok choice, state) => (.ok choice, state)
      | (.error error, state) => inOrder attempt rest error state := by
  induction first generalizing error state with
  | nil => rfl
  | cons choice first induction =>
      rw [List.cons_append, inOrder, inOrder]
      match attempt choice state with
      | (.ok _, state) => rfl
      | (.error _, state) => exact induction

/-- A choice that is only made under a condition. -/
theorem inOrder_optional (condition : Prop) [Decidable condition] :
    inOrder attempt (if condition then [choice] else []) error state =
      match if condition then attempt choice state
        else (.error error, state) with
      | (.ok _, state) => (.ok choice, state)
      | (.error error, state) => (.error error, state) := by
  split
  · rfl
  · rfl

/-- What every failing attempt keeps holds behind all of them, and behind a
success what a success brings about. -/
theorem inOrder_keeps {Invariant : σ → Prop} {Reached : α → σ → Prop}
    (holds : Invariant state)
    (fails : ∀ choice ∈ choices, ∀ state error next, Invariant state →
      attempt choice state = (.error error, next) → Invariant next)
    (succeeds : ∀ choice ∈ choices, ∀ state next, Invariant state →
      attempt choice state = (.ok (), next) → Reached choice next) :
    match inOrder attempt choices error state with
    | (.ok choice, final) => choice ∈ choices ∧ Reached choice final
    | (.error _, final) => Invariant final := by
  induction choices generalizing error state with
  | nil => exact holds
  | cons first rest induction =>
      rw [inOrder]
      rcases ended : attempt first state with ⟨error | _, next⟩
      · have kept := fails first List.mem_cons_self state error next holds
          ended
        have later := @induction error next kept
          (fun choice member =>
            fails choice (List.mem_cons_of_mem _ member))
          (fun choice member =>
            succeeds choice (List.mem_cons_of_mem _ member))
        dsimp only
        rcases outcome : inOrder attempt rest error next with
          ⟨last | choice, final⟩
        · rw [outcome] at later
          exact later
        · rw [outcome] at later
          exact ⟨List.mem_cons_of_mem _ later.1, later.2⟩
      · exact ⟨List.mem_cons_self,
          succeeds first List.mem_cons_self state next holds ended⟩

/-- What can be seen of the attempts: a failed one shows an item or nothing,
one that succeeds shows one. -/
theorem inOrder_seen {γ : Type x} {seen : σ → List γ} {Shows : α → γ → Prop}
    (fails : ∀ choice ∈ choices, ∀ state error next,
      attempt choice state = (.error error, next) →
        seen next = seen state ∨
          ∃ item, Shows choice item ∧ seen next = seen state ++ [item])
    (succeeds : ∀ choice ∈ choices, ∀ state next,
      attempt choice state = (.ok (), next) →
        ∃ item, Shows choice item ∧ seen next = seen state ++ [item]) :
    ∃ tried items, tried.Sublist choices ∧
      List.Forall₂ Shows tried items ∧
      seen (inOrder attempt choices error state).2 = seen state ++ items ∧
      ∀ choice, (inOrder attempt choices error state).1 = .ok choice →
        tried.getLast? = some choice := by
  induction choices generalizing error state with
  | nil =>
      refine ⟨[], [], List.Sublist.slnil, .nil, ?_, ?_⟩
      · rw [List.append_nil]
        rfl
      · intro choice ended
        cases ended
  | cons first rest induction =>
      rw [inOrder]
      match ended : attempt first state with
      | (.ok _, next) =>
          obtain ⟨item, shown, grown⟩ :=
            succeeds first List.mem_cons_self state next ended
          refine ⟨[first], [item], ?_, .cons shown .nil, grown, ?_⟩
          · exact List.Sublist.cons_cons first (List.nil_sublist rest)
          · intro choice same
            cases same
            rfl
      | (.error error, next) =>
          obtain ⟨tried, items, among, shown, grown, last⟩ := @induction
            error next
            (fun choice member =>
              fails choice (List.mem_cons_of_mem _ member))
            (fun choice member =>
              succeeds choice (List.mem_cons_of_mem _ member))
          dsimp only
          rcases fails first List.mem_cons_self state error next ended with
            unseen | ⟨item, shown', grown'⟩
          · rw [unseen] at grown
            exact ⟨tried, items, among.cons first, shown, grown, last⟩
          · rw [grown', List.append_assoc] at grown
            refine ⟨first :: tried, item :: items, among.cons_cons first,
              .cons shown' shown, grown, ?_⟩
            intro choice same
            rw [List.getLast?_cons, last choice same]
            rfl

end Attempts
