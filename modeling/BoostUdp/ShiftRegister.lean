import Mathlib.Dynamics.PeriodicPts.Lemmas
import Mathlib.Tactic

/-!
# Linear feedback shift registers

A register of any width that shifts right and folds the bit that falls out
back in at its taps.  Its step is linear over exclusive or, and injective when
the top bit is tapped.  Feeding it a stream of bits therefore superposes: the
difference of two runs is the run over the difference of their streams.
-/

namespace ShiftRegister

variable {w : Nat} (taps : BitVec w)

def step (register : BitVec w) : BitVec w :=
  if register.getLsbD 0 then (register >>> 1) ^^^ taps else register >>> 1

@[simp] theorem step_zero : step taps 0#w = 0#w := by
  simp [step]

theorem step_xor (left right : BitVec w) :
    step taps (left ^^^ right) = step taps left ^^^ step taps right := by
  have twice : ∀ a b c : BitVec w, a ^^^ c ^^^ (b ^^^ c) = a ^^^ b := by
    intro a b c
    rw [BitVec.xor_assoc, BitVec.xor_comm b c, ← BitVec.xor_assoc c c b,
      BitVec.xor_self, BitVec.zero_xor]
  unfold step
  simp only [BitVec.getLsbD_xor, BitVec.ushiftRight_xor_distrib]
  cases left.getLsbD 0 <;> cases right.getLsbD 0 <;>
    simp only [Bool.xor_false, Bool.xor_true, Bool.not_false, Bool.not_true,
      Bool.false_eq_true, if_true, if_false]
  · ac_rfl
  · ac_rfl
  · exact (twice _ _ _).symm

theorem iterate_step_zero (count : Nat) :
    (step taps)^[count] 0#w = 0#w :=
  Function.iterate_fixed (step_zero taps) count

theorem iterate_step_xor (count : Nat) (left right : BitVec w) :
    (step taps)^[count] (left ^^^ right) =
      (step taps)^[count] left ^^^ (step taps)^[count] right := by
  induction count generalizing left right with
  | zero => rfl
  | succ count induction =>
      rw [Function.iterate_succ_apply, step_xor, induction]
      rfl

/-- With the top bit tapped no step can empty a register. -/
theorem step_eq_zero {taps : BitVec w} (top : taps.msb = true)
    {register : BitVec w} (empty : step taps register = 0#w) :
    register = 0#w := by
  have shifted : (register >>> 1).msb = false := by
    simp [BitVec.msb_ushiftRight]
  unfold step at empty
  by_cases low : register.getLsbD 0 = true
  · rw [if_pos low] at empty
    have same : register >>> 1 = taps := by
      rwa [BitVec.xor_eq_zero_iff] at empty
    rw [same, top] at shifted
    contradiction
  · rw [if_neg low] at empty
    apply BitVec.eq_of_getLsbD_eq
    intro index below
    cases index with
    | zero => simpa using low
    | succ index =>
        have bit := congrArg (fun value => value.getLsbD index) empty
        simpa [Nat.add_comm] using bit

theorem step_injective {taps : BitVec w} (top : taps.msb = true) :
    Function.Injective (step taps) := by
  intro left right same
  have empty : step taps (left ^^^ right) = 0#w := by
    rw [step_xor, same, BitVec.xor_self]
  exact BitVec.xor_eq_zero_iff.mp (step_eq_zero top empty)

theorem iterate_step_eq_zero {taps : BitVec w} (top : taps.msb = true)
    {count : Nat} {register : BitVec w}
    (empty : (step taps)^[count] register = 0#w) : register = 0#w := by
  apply (step_injective top).iterate count
  rw [empty, iterate_step_zero]

/-- A single bit moves down unchanged until it reaches the low end. -/
theorem iterate_step_twoPow {index : Nat} (inside : index < w) :
    (step taps)^[index] (BitVec.twoPow w index) = 1#w := by
  induction index with
  | zero => exact BitVec.twoPow_zero
  | succ index induction =>
      have moved : step taps (BitVec.twoPow w (index + 1)) =
          BitVec.twoPow w index := by
        have low : (BitVec.twoPow w (index + 1)).getLsbD 0 = false := by
          simp [BitVec.getLsbD_twoPow]
        rw [step, low]
        apply BitVec.eq_of_getLsbD_eq
        intro other below
        simp only [BitVec.getLsbD_twoPow]
        grind
      rw [Function.iterate_succ_apply, moved]
      exact induction (by omega)

/-- The register after `count` bits of the stream, each mixed into the low end
before its step. -/
def run (register : BitVec w) (bits : Nat → Bool) : Nat → BitVec w
  | 0 => register
  | count + 1 =>
      step taps (run register bits count ^^^ if bits count then 1#w else 0#w)

theorem run_xor (first second : BitVec w) (bits others : Nat → Bool)
    (count : Nat) :
    run taps (first ^^^ second) (fun index => bits index ^^ others index)
        count =
      run taps first bits count ^^^ run taps second others count := by
  induction count with
  | zero => rfl
  | succ count induction =>
      have mixed : ∀ a b : Bool, (if (a ^^ b) = true then 1#w else 0#w) =
          (if a = true then 1#w else 0#w) ^^^
            (if b = true then 1#w else 0#w) := by
        intro a b
        cases a <;> cases b <;> simp
      rw [run, run, run, ← step_xor, induction, mixed]
      congr 1
      ac_rfl

theorem run_congr {register : BitVec w} {bits others : Nat → Bool}
    {count : Nat} (same : ∀ index < count, bits index = others index) :
    run taps register bits count = run taps register others count := by
  induction count with
  | zero => rfl
  | succ count induction =>
      rw [run, run, induction (fun index below => same index (by omega)),
        same count (Nat.lt_succ_self count)]

theorem run_add (register : BitVec w) (bits : Nat → Bool)
    (first second : Nat) :
    run taps register bits (first + second) =
      run taps (run taps register bits first)
        (fun index => bits (first + index)) second := by
  induction second with
  | zero => rfl
  | succ second induction =>
      rw [← Nat.add_assoc, run, run, induction]

/-- A silent stream leaves the register to its own steps. -/
theorem run_silent {register : BitVec w} {bits : Nat → Bool} {count : Nat}
    (silent : ∀ index < count, bits index = false) :
    run taps register bits count = (step taps)^[count] register := by
  induction count with
  | zero => rfl
  | succ count induction =>
      rw [run, induction (fun index below => silent index (by omega)),
        silent count (Nat.lt_succ_self count), Function.iterate_succ_apply']
      simp

/-- The first `count` bits of a stream side by side, the first at the low
end. -/
def word (bits : Nat → Bool) : Nat → BitVec w
  | 0 => 0#w
  | count + 1 =>
      word bits count ^^^ if bits count then BitVec.twoPow w count else 0#w

theorem getLsbD_word (bits : Nat → Bool) (count index : Nat) :
    (word (w := w) bits count).getLsbD index =
      (decide (index < w) && decide (index < count) && bits index) := by
  induction count with
  | zero => simp [word]
  | succ count induction =>
      rw [word, BitVec.getLsbD_xor, induction]
      cases given : bits count with
      | false =>
          simp only [Bool.false_eq_true, if_false, BitVec.getLsbD_zero,
            Bool.xor_false]
          by_cases here : index = count
          · subst here
            simp [given]
          · grind
      | true =>
          simp only [if_true, BitVec.getLsbD_twoPow]
          by_cases here : index = count
          · subst here
            simp [given]
          · grind

theorem word_xor (bits others : Nat → Bool) (count : Nat) :
    word (w := w) (fun index => bits index ^^ others index) count =
      word bits count ^^^ word others count := by
  apply BitVec.eq_of_getLsbD_eq
  intro index below
  simp only [BitVec.getLsbD_xor, getLsbD_word]
  cases decide (index < w) <;> cases decide (index < count) <;> simp

theorem word_congr {bits others : Nat → Bool} {count : Nat}
    (same : ∀ index < count, bits index = others index) :
    word (w := w) bits count = word others count := by
  induction count with
  | zero => rfl
  | succ count induction =>
      rw [word, word, induction (fun index below => same index (by omega)),
        same count (Nat.lt_succ_self count)]

/-- Up to its width a register may take all bits first and make all steps
after. -/
theorem run_eq_iterate {count : Nat} (register : BitVec w)
    (bits : Nat → Bool) (narrow : count ≤ w) :
    run taps register bits count =
      (step taps)^[count] (register ^^^ word bits count) := by
  induction count with
  | zero => simp [run, word]
  | succ count induction =>
      have last : (step taps)^[count]
          (if bits count then BitVec.twoPow w count else 0#w) =
            if bits count then 1#w else 0#w := by
        split
        · exact iterate_step_twoPow taps (by omega)
        · exact iterate_step_zero taps count
      calc
        run taps register bits (count + 1)
            = step taps ((step taps)^[count] (register ^^^ word bits count) ^^^
                (step taps)^[count]
                  (if bits count then BitVec.twoPow w count else 0#w)) := by
              rw [run, induction (by omega), last]
        _ = step taps ((step taps)^[count]
              (register ^^^ word bits (count + 1))) := by
              rw [← iterate_step_xor, word, BitVec.xor_assoc]
        _ = (step taps)^[count + 1] (register ^^^ word bits (count + 1)) :=
              (Function.iterate_succ_apply' ..).symm

/-- A stream that is silent outside a window no wider than the register leaves
a trace of it, unless it is silent everywhere. -/
theorem run_window {taps : BitVec w} (top : taps.msb = true)
    {bits : Nat → Bool} {start width rest : Nat} (narrow : width ≤ w)
    (silent : ∀ index < start + width + rest,
      index < start ∨ start + width ≤ index → bits index = false)
    (empty : run taps 0#w bits (start + width + rest) = 0#w) :
    ∀ index < start + width + rest, bits index = false := by
  have before : run taps 0#w bits start = 0#w := by
    rw [run_silent taps fun index below =>
      silent index (by omega) (Or.inl below)]
    exact iterate_step_zero taps start
  rw [run_add, run_add, before, run_silent taps fun index below =>
    silent (start + width + index) (by omega) (Or.inr (by omega))] at empty
  have window := iterate_step_eq_zero top empty
  rw [run_eq_iterate taps _ _ narrow, BitVec.zero_xor] at window
  have blank := iterate_step_eq_zero top window
  intro index below
  by_cases inside : start ≤ index ∧ index < start + width
  · have bit := getLsbD_word (w := w) (fun other => bits (start + other))
      width (index - start)
    rw [blank, Nat.add_sub_cancel' inside.1] at bit
    have near : index - start < w ∧ index - start < width := by omega
    simpa [near] using bit
  · exact silent index below (by omega)

/-- What a single bit leaves in an empty register. -/
theorem run_single {bits : Nat → Bool} {place rest : Nat}
    (only : ∀ index < place + 1 + rest, bits index = decide (index = place)) :
    run taps 0#w bits (place + 1 + rest) = (step taps)^[rest + 1] 1#w := by
  have before : run taps 0#w bits place = 0#w := by
    rw [run_silent taps fun index below => by
      rw [only index (by omega)]
      simp
      omega]
    exact iterate_step_zero taps place
  have hit : bits place = true := by
    rw [only place (by omega)]
    simp
  rw [run_add, run, before, hit, run_silent taps fun index below => by
      rw [only (place + 1 + index) (by omega)]
      simp
      omega,
    if_pos rfl, BitVec.zero_xor, ← Function.iterate_succ_apply]

/-- `register` rebuilt bit by bit with `image` in place of the top bit. -/
def rebuild (image register : BitVec w) : Nat → BitVec w
  | 0 => 0#w
  | count + 1 =>
      step taps (rebuild image register count) ^^^
        if register.getLsbD count then image else 0#w

theorem rebuild_iterate (steps : Nat) (image register : BitVec w)
    (count : Nat) :
    rebuild taps ((step taps)^[steps] image) register count =
      (step taps)^[steps] (rebuild taps image register count) := by
  induction count with
  | zero => exact (iterate_step_zero taps steps).symm
  | succ count induction =>
      have last : (if register.getLsbD count then (step taps)^[steps] image
          else 0#w) =
          (step taps)^[steps]
            (if register.getLsbD count then image else 0#w) := by
        split
        · rfl
        · exact (iterate_step_zero taps steps).symm
      rw [rebuild, rebuild, induction, last, iterate_step_xor,
        ← Function.iterate_succ_apply' (step taps) steps,
        ← Function.iterate_succ_apply (step taps) steps]

/-- The single bit at the top. -/
def topBit (w : Nat) : BitVec w := BitVec.twoPow w (w - 1)

theorem getLsbD_rebuild_topBit (register : BitVec w) {count : Nat}
    (inside : count ≤ w) (index : Nat) :
    (rebuild taps (topBit w) register count).getLsbD index =
      (decide (index < w) && decide (w ≤ index + count) &&
        register.getLsbD (index + count - w)) := by
  induction count generalizing index with
  | zero =>
      simp only [rebuild, BitVec.getLsbD_zero, Nat.add_zero]
      grind
  | succ count induction =>
      have low : (rebuild taps (topBit w) register count).getLsbD 0 = false := by
        rw [induction (by omega)]
        grind
      have top : (if register.getLsbD count then topBit w
          else 0#w).getLsbD index =
          (decide (index + 1 = w) && register.getLsbD count) := by
        by_cases given : register.getLsbD count = true
        · rw [if_pos given, given, topBit, BitVec.getLsbD_twoPow]
          grind
        · simp [given]
      have moved : 1 + index + count = index + (count + 1) := by omega
      rw [rebuild, step, low, BitVec.getLsbD_xor, top]
      simp only [Bool.false_eq_true, if_false, BitVec.getLsbD_ushiftRight]
      rw [induction (by omega), moved]
      by_cases last : index + 1 = w
      · have above : ¬1 + index < w := by omega
        have below : index < w := by omega
        have reached : w ≤ index + (count + 1) := by omega
        have bit : index + (count + 1) - w = count := by omega
        simp [last, above, below, reached, bit]
      · have range : (1 + index < w) = (index < w) := by
          apply propext
          omega
        simp [last, range]

theorem rebuild_topBit (register : BitVec w) :
    rebuild taps (topBit w) register w = register := by
  apply BitVec.eq_of_getLsbD_eq
  intro index below
  rw [getLsbD_rebuild_topBit taps register (Nat.le_refl w), Nat.add_sub_cancel]
  simp [below]

/-- The steps from the top bit determine the steps from any register. -/
theorem iterate_eq_rebuild (steps : Nat) (register : BitVec w) :
    (step taps)^[steps] register =
      rebuild taps ((step taps)^[steps] (topBit w)) register w := by
  rw [rebuild_iterate, rebuild_topBit]

/-- Twice as many steps from the top bit. -/
def square (image : BitVec w) : BitVec w :=
  rebuild taps image image w

/-- Repeated squaring reaches the top bit after `2 ^ count` steps. -/
theorem iterate_square (count : Nat) :
    (square taps)^[count] (step taps (topBit w)) =
      (step taps)^[2 ^ count] (topBit w) := by
  induction count with
  | zero => rfl
  | succ count induction =>
      rw [Function.iterate_succ_apply', induction, square,
        ← iterate_eq_rebuild, ← Function.iterate_add_apply, ← Nat.two_mul,
        Nat.pow_succ, Nat.mul_comm 2]

/-- The low bit returns when the top bit does. -/
theorem iterate_topBit_of_one {taps : BitVec w} (top : taps.msb = true)
    {steps : Nat} (returns : (step taps)^[steps] 1#w = 1#w) :
    (step taps)^[steps] (topBit w) = topBit w := by
  have positive : 0 < w := by
    cases w with
    | zero => simp [BitVec.of_length_zero] at top
    | succ w => exact Nat.succ_pos w
  have down : (step taps)^[w - 1] (BitVec.twoPow w (w - 1)) = 1#w :=
    iterate_step_twoPow taps (by omega)
  apply (step_injective top).iterate (w - 1)
  rw [topBit, ← Function.iterate_add_apply, Nat.add_comm,
    Function.iterate_add_apply, down, returns]

end ShiftRegister
