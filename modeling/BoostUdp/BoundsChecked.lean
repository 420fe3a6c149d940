import Mathlib.Data.List.Basic
import Mathlib.Tactic

/-!
# Bounds-checked buffers

Reads, copies and erasures of a buffer as a program makes them, each of which
fails unless all of it lies inside the buffer, and what they return when it
does.  The fault is the caller's.
-/

namespace BoundsChecked

universe u v

variable {α : Type u} {ε : Type v}

/-- Go on only if the condition holds. -/
def require (fault : ε) (condition : Prop) [Decidable condition] :
    Except ε Unit :=
  if condition then .ok () else .error fault

theorem require_ok {fault : ε} {condition : Prop} [Decidable condition]
    (holds : condition) : require fault condition = .ok () :=
  if_pos holds

/-- Subtraction that does not wrap. -/
def subtract (fault : ε) (first second : Nat) : Except ε Nat :=
  if second ≤ first then .ok (first - second) else .error fault

theorem subtract_ok {fault : ε} {first second : Nat}
    (below : second ≤ first) :
    subtract fault first second = .ok (first - second) :=
  if_pos below

/-- Copy `count` elements out of the buffer. -/
def readAt (fault : ε) (buffer : List α) (start count : Nat) :
    Except ε (List α) :=
  if start + count ≤ buffer.length then
    .ok ((buffer.drop start).take count)
  else
    .error fault

theorem readAt_ok {fault : ε} {buffer : List α} {start count : Nat}
    (inside : start + count ≤ buffer.length) :
    readAt fault buffer start count = .ok ((buffer.drop start).take count) :=
  if_pos inside

/-- Copy elements over those in the buffer. -/
def writeAt (fault : ε) (buffer : List α) (start : Nat) (elements : List α) :
    Except ε (List α) :=
  if start + elements.length ≤ buffer.length then
    .ok (buffer.take start ++ elements ++
      buffer.drop (start + elements.length))
  else
    .error fault

theorem writeAt_ok {fault : ε} {buffer elements : List α} {start : Nat}
    (inside : start + elements.length ≤ buffer.length) :
    writeAt fault buffer start elements =
      .ok (buffer.take start ++ elements ++
        buffer.drop (start + elements.length)) :=
  if_pos inside

/-- Erase elements at the front. -/
def eraseFront (fault : ε) (buffer : List α) (count : Nat) :
    Except ε (List α) :=
  if count ≤ buffer.length then .ok (buffer.drop count) else .error fault

theorem eraseFront_ok {fault : ε} {buffer : List α} {count : Nat}
    (inside : count ≤ buffer.length) :
    eraseFront fault buffer count = .ok (buffer.drop count) :=
  if_pos inside

/-- A test that is made in both programs. -/
theorem ok_ite {condition : Prop} [Decidable condition]
    {checked other : Except ε α} {value value' : α}
    (holds : condition → checked = .ok value)
    (fails : ¬condition → other = .ok value') :
    (if condition then checked else other) =
      .ok (if condition then value else value') := by
  by_cases test : condition
  · rw [if_pos test, if_pos test, holds test]
  · rw [if_neg test, if_neg test, fails test]

theorem ok_bind {β γ : Type u} (value : β) (next : β → Except ε γ) :
    (Except.ok value >>= next) = next value := rfl

end BoundsChecked
