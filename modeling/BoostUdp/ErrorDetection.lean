import BoostUdp.Checksum

/-!
# Transmission errors the validator never accepts

A valid batch with one or two flipped bits, or with flipped bits inside a
window of 32 that does not straddle the checksum field's ends, is not valid.
-/

namespace BoostUdp

open LittleEndian ShiftRegister

/-- Where the bits of two byte strings of one length differ. -/
def differingBits (batch damaged : List Byte) : Finset Nat :=
  (Finset.range (8 * batch.length)).filter fun index =>
    bitAt batch index ≠ bitAt damaged index

theorem mem_differingBits {batch damaged : List Byte} {index : Nat}
    (inside : index < 8 * batch.length) :
    index ∈ differingBits batch damaged ↔
      (bitAt batch index ^^ bitAt damaged index) = true := by
  simp [differingBits, inside]

theorem ValidBatch.bits_complete {batch : List Byte}
    (valid : ValidBatch batch) : 160 ≤ 8 * batch.length := by
  have header := valid.wellFormed.complete
  unfold kPacketHeaderSize at header
  omega

/-- The places where two valid batches of one size differ have no syndrome. -/
theorem syndrome_differingBits {batch other : List Byte} {bits : Nat → Bool}
    (valid : ValidBatch batch) (accepted : ValidBatch other)
    (sized : other.length = batch.length)
    (places : ∀ index, index ∈ differingBits batch other ↔
      bits index = true) :
    syndrome bits (8 * batch.length) = 0#32 := by
  rw [← syndrome_eq_zero valid accepted sized]
  apply syndrome_congr valid.bits_complete
  intro index inside
  rw [Bool.eq_iff_iff, ← mem_differingBits inside, places]

/-- How many steps after 31 more bring a flipped bit's syndrome from the single
low bit. -/
def syndromeSteps (count place : Nat) : Nat :=
  if 128 ≤ place ∧ place < 160 then 159 - place else 31 + (count - place)

theorem syndrome_single {count place : Nat} (inside : place < count) :
    (step kCrcTaps)^[31]
        (syndrome (fun index => decide (index = place)) count) =
      (step kCrcTaps)^[syndromeSteps count place] 1#32 := by
  by_cases field : 128 ≤ place ∧ place < 160
  · have compared : syndrome (fun index => decide (index = place)) count =
        word (fun index => decide (128 + index = place)) 32 := by
      apply syndrome_inside_field
      intro index _ outside
      simp only [decide_eq_false_iff_not]
      omega
    have bit : word (fun index => decide (128 + index = place)) 32 =
        BitVec.twoPow 32 (place - 128) := by
      apply BitVec.eq_of_getLsbD_eq
      intro index below
      rw [getLsbD_word, BitVec.getLsbD_twoPow]
      grind
    have split : 31 = 159 - place + (place - 128) := by omega
    have down : (step kCrcTaps)^[place - 128]
        (BitVec.twoPow 32 (place - 128)) = 1#32 :=
      iterate_step_twoPow kCrcTaps (by omega)
    rw [compared, bit, syndromeSteps, if_pos field]
    nth_rewrite 1 [split]
    rw [Function.iterate_add_apply, down]
  · have length : count = place + 1 + (count - place - 1) := by omega
    have last : count - place - 1 + 1 = count - place := by omega
    have single : run kCrcTaps 0#32
        (fun index => decide (index = place)) count =
          (step kCrcTaps)^[count - place] 1#32 := by
      nth_rewrite 1 [length]
      rw [run_single kCrcTaps fun index _ => rfl, last]
    rw [syndrome_outside_field, single, ← Function.iterate_add_apply,
      syndromeSteps, if_neg field]
    intro index after before
    simp only [decide_eq_false_iff_not]
    omega

theorem syndromeSteps_injective {count first second : Nat}
    (firstInside : first < count) (secondInside : second < count)
    (same : syndromeSteps count first = syndromeSteps count second) :
    first = second := by
  unfold syndromeSteps at same
  split at same <;> split at same <;> omega

theorem iterate_one_ne {first second : Nat} (different : first ≠ second)
    (short : first < 65537 * 257) (short' : second < 65537 * 257) :
    (step kCrcTaps)^[first] 1#32 ≠ (step kCrcTaps)^[second] 1#32 := by
  have apart : ∀ {low high : Nat}, low < high → high < 65537 * 257 →
      (step kCrcTaps)^[low] 1#32 ≠ (step kCrcTaps)^[high] 1#32 := by
    intro low high ordered bounded same
    have split : high = low + (high - low) := by omega
    rw [split, Function.iterate_add_apply] at same
    have returns := (step_injective kCrcTaps_msb).iterate low same
    exact iterate_ne_self (by omega) (by omega) returns.symm
  rcases Nat.lt_or_gt_of_ne different with below | above
  · exact apart below short'
  · exact (apart above short).symm

/-- Flipping one bit or two of a valid batch, wherever they are, makes it
invalid. -/
theorem validateBatch_flipped_bits {batch damaged : List Byte}
    (valid : validateBatch batch batch.length = .ok)
    (sized : damaged.length = batch.length)
    (few : (differingBits batch damaged).card = 1 ∨
      (differingBits batch damaged).card = 2) :
    validateBatch damaged damaged.length ≠ .ok := by
  intro accepted
  have original : ValidBatch batch := valid
  have bounded : 8 * batch.length ≤ 8 * 65536 := by
    have small := original.wellFormed.length_le
    rw [original.header_length] at small
    unfold kMaxPacketLength at small
    omega
  have below : ∀ {place}, place ∈ differingBits batch damaged →
      place < 8 * batch.length := by
    intro place member
    exact Finset.mem_range.mp (Finset.mem_filter.mp member).1
  have steps : ∀ {place}, place < 8 * batch.length →
      syndromeSteps (8 * batch.length) place < 65537 * 257 := by
    intro place inside
    unfold syndromeSteps
    split <;> omega
  rcases few with one | two
  · obtain ⟨place, only⟩ := Finset.card_eq_one.mp one
    have inside := below (only ▸ Finset.mem_singleton_self place)
    have single : syndrome (fun index => decide (index = place))
        (8 * batch.length) = 0#32 := by
      apply syndrome_differingBits original accepted sized
      intro index
      rw [only]
      simp
    have trace := syndrome_single inside
    rw [single, iterate_step_zero] at trace
    have empty := iterate_step_eq_zero kCrcTaps_msb trace.symm
    exact absurd empty (by decide)
  · obtain ⟨first, second, different, both⟩ := Finset.card_eq_two.mp two
    have firstInside := below (both ▸ Finset.mem_insert_self first {second})
    have secondInside := below (both ▸
      Finset.mem_insert_of_mem (Finset.mem_singleton_self second))
    have pair : syndrome (fun index =>
        decide (index = first) ^^ decide (index = second))
        (8 * batch.length) = 0#32 := by
      apply syndrome_differingBits original accepted sized
      intro index
      rw [both]
      grind
    rw [syndrome_xor] at pair
    have same := BitVec.xor_eq_zero_iff.mp pair
    have traces := congrArg (step kCrcTaps)^[31] same
    rw [syndrome_single firstInside,
      syndrome_single secondInside] at traces
    have apart : syndromeSteps (8 * batch.length) first ≠
        syndromeSteps (8 * batch.length) second := fun equal =>
      different (syndromeSteps_injective firstInside secondInside equal)
    exact iterate_one_ne apart (steps firstInside) (steps secondInside) traces

theorem validateBatch_flipped_bits_two :
    validateBatch ((encodeBatch 0 1 [0x50#8]).set 20 0x53#8) 21 ≠ .ok :=
  validateBatch_flipped_bits
    (show validateBatch (encodeBatch 0 1 [0x50#8]) 21 = .ok by decide +kernel)
    (show ((encodeBatch 0 1 [0x50#8]).set 20 0x53#8).length = 21 by rfl)
    (Or.inr (by decide +kernel))

/-- Bits in the checksum field without a syndrome are all zero. -/
theorem silent_inside_field {bits : Nat → Bool} {count : Nat}
    (quiet : ∀ index < count, index < 128 ∨ 160 ≤ index →
      bits index = false)
    (zero : syndrome bits count = 0#32) :
    ∀ index < count, bits index = false := by
  rw [syndrome_inside_field quiet] at zero
  intro index inside
  by_cases field : 128 ≤ index ∧ index < 160
  · have near : index - 128 < 32 := by omega
    have bit := getLsbD_word (w := 32) (fun other => bits (128 + other))
      32 (index - 128)
    rw [zero, Nat.add_sub_cancel' field.1] at bit
    simpa [near] using bit
  · exact quiet index inside (by omega)

/-- Bits in a window of at most 32 outside the checksum field without a
syndrome are all zero. -/
theorem silent_outside_field {bits : Nat → Bool} {start width count : Nat}
    (narrow : width ≤ 32) (inside : start + width ≤ count)
    (complete : 160 ≤ count) (apart : start + width ≤ 128 ∨ 160 ≤ start)
    (quiet : ∀ index < count, index < start ∨ start + width ≤ index →
      bits index = false)
    (zero : syndrome bits count = 0#32) :
    ∀ index < count, bits index = false := by
  have length : count = start + width + (count - (start + width)) := by omega
  rw [syndrome_outside_field count fun index after before =>
    quiet index (by omega) (by omega), length] at zero
  rw [length] at quiet ⊢
  exact run_window kCrcTaps_msb narrow quiet zero

/-- A valid batch with other bits inside a window of at most 32, wholly before
the checksum field, wholly inside it or wholly after it, is invalid. -/
theorem validateBatch_burst {batch damaged : List Byte} {start width : Nat}
    (valid : validateBatch batch batch.length = .ok)
    (sized : damaged.length = batch.length) (different : damaged ≠ batch)
    (narrow : width ≤ 32)
    (region : start + width ≤ 8 * 16 ∨
      (8 * 16 ≤ start ∧ start + width ≤ 8 * 20) ∨
      (8 * 20 ≤ start ∧ start + width ≤ 8 * batch.length))
    (burst : ∀ index ∈ differingBits batch damaged,
      start ≤ index ∧ index < start + width) :
    validateBatch damaged damaged.length ≠ .ok := by
  intro accepted
  have original : ValidBatch batch := valid
  have complete := original.bits_complete
  let error := fun index => bitAt batch index ^^ bitAt damaged index
  have zero : syndrome error (8 * batch.length) = 0#32 :=
    syndrome_eq_zero original accepted sized
  have quiet : ∀ index < 8 * batch.length,
      index < start ∨ start + width ≤ index → error index = false := by
    intro index inside outside
    by_contra flipped
    have window := burst index ((mem_differingBits inside).mpr
      (by simpa [error] using flipped))
    omega
  have silent : ∀ index < 8 * batch.length, error index = false := by
    by_cases field : 8 * 16 ≤ start ∧ start + width ≤ 8 * 20
    · apply silent_inside_field _ zero
      intro index inside outside
      exact quiet index inside (by omega)
    · exact silent_outside_field narrow (by omega) complete (by omega) quiet
        zero
  apply different
  apply eq_of_bitAt_eq sized
  intro index inside
  have equal : (bitAt batch index ^^ bitAt damaged index) = false :=
    silent index (by rw [← sized]; exact inside)
  cases original : bitAt batch index <;> simpa [original] using equal

theorem validateBatch_burst_payload :
    validateBatch ((encodeBatch 0 1 [0x50#8]).set 20 0xAF#8) 21 ≠ .ok := by
  have whole : 8 * 20 ≤ 160 ∧ 160 + 8 ≤ 8 * 21 := by decide
  exact validateBatch_burst
    (show validateBatch (encodeBatch 0 1 [0x50#8]) 21 = .ok by decide +kernel)
    (show ((encodeBatch 0 1 [0x50#8]).set 20 0xAF#8).length = 21 by rfl)
    (by decide +kernel) (show 8 ≤ 32 by decide) (Or.inr (Or.inr whole))
    (by decide +kernel)

end BoostUdp
