import BoostUdp.Packet
import BoostUdp.ShiftRegister

/-!
# What the checksum detects

The checksum runs a 32-bit shift register over the bits of the batch, each
byte from its lowest bit on, with the bits of the checksum field left out.
Two valid batches of one size therefore differ by bits with a zero syndrome.
A single bit moves the register a number of steps that its place determines,
and no two places of a batch meet in the register's cycle; a short run of
flipped bits is read back from the register.
-/

namespace BoostUdp

open LittleEndian ShiftRegister

/-- The polynomial of `crc32_update`, the coefficient of the highest power at
the low end. -/
def kCrcTaps : Word := 0xEDB88320#32

theorem kCrcTaps_msb : kCrcTaps.msb = true := by decide

theorem crc32Bit_eq_step (crc : Word) : crc32Bit crc = step kCrcTaps crc := by
  rw [crc32Bit, step, BitVec.and_one_eq_setWidth_ofBool_getLsbD]
  cases crc.getLsbD 0 with
  | false => simp
  | true =>
      have all : -(BitVec.ofBool true).setWidth 32 = BitVec.allOnes 32 := by
        decide
      rw [all, BitVec.and_allOnes]
      rfl

theorem iterate_two_pow_8 :
    (step kCrcTaps)^[2 ^ 8] (topBit 32) = 0xED627DAE#32 := by
  rw [← iterate_square]
  decide +kernel

theorem iterate_two_pow_add_8 {exponent : Nat} {reached : Word}
    (known : (step kCrcTaps)^[2 ^ exponent] (topBit 32) = reached) :
    (step kCrcTaps)^[2 ^ (8 + exponent)] (topBit 32) =
      (square kCrcTaps)^[8] reached := by
  rw [← iterate_square, Function.iterate_add_apply, iterate_square, known]

theorem iterate_two_pow_16 :
    (step kCrcTaps)^[2 ^ 16] (topBit 32) = 0x83852D0F#32 := by
  rw [iterate_two_pow_add_8 iterate_two_pow_8]
  decide +kernel

theorem iterate_two_pow_24 :
    (step kCrcTaps)^[2 ^ 24] (topBit 32) = 0xBAD90E37#32 := by
  rw [iterate_two_pow_add_8 iterate_two_pow_16]
  decide +kernel

theorem iterate_two_pow_32 :
    (step kCrcTaps)^[2 ^ 32] (topBit 32) = step kCrcTaps (topBit 32) := by
  rw [iterate_two_pow_add_8 iterate_two_pow_24]
  decide +kernel

theorem isPeriodicPt_whole :
    Function.IsPeriodicPt (step kCrcTaps) (65537 * 65535) (topBit 32) := by
  have next : (step kCrcTaps)^[65537 * 65535 + 1] (topBit 32) =
      step kCrcTaps (topBit 32) := iterate_two_pow_32
  rw [Function.iterate_succ_apply'] at next
  exact step_injective kCrcTaps_msb next

theorem not_isPeriodicPt_65535 :
    ¬Function.IsPeriodicPt (step kCrcTaps) 65535 (topBit 32) := by
  intro returns
  have next : (step kCrcTaps)^[65535 + 1] (topBit 32) =
      step kCrcTaps (topBit 32) := by
    rw [Function.iterate_succ_apply', returns]
  have same := iterate_two_pow_16.symm.trans next
  exact absurd same (by decide +kernel)

theorem not_isPeriodicPt_16711935 :
    ¬Function.IsPeriodicPt (step kCrcTaps) 16711935 (topBit 32) := by
  intro returns
  have long : (step kCrcTaps)^[2 ^ 24 + 2 ^ 8] (topBit 32) =
      rebuild kCrcTaps 0xBAD90E37#32 0xED627DAE#32 32 := by
    rw [Function.iterate_add_apply, iterate_two_pow_8, iterate_eq_rebuild,
      iterate_two_pow_24]
  have short : (step kCrcTaps)^[1 + 2 ^ 16] (topBit 32) =
      step kCrcTaps 0x83852D0F#32 := by
    rw [Function.iterate_add_apply, iterate_two_pow_16]
    rfl
  have moved : (step kCrcTaps)^[1 + 2 ^ 16 + 16711935] (topBit 32) =
      (step kCrcTaps)^[1 + 2 ^ 16] (topBit 32) := by
    rw [Function.iterate_add_apply, returns]
  have same := long.symm.trans (moved.trans short)
  exact absurd same (by decide +kernel)

theorem prime_dvd_of_not_dvd {prime period rest : Nat}
    (isPrime : prime.Prime) (whole : period ∣ prime * rest)
    (part : ¬period ∣ rest) : prime ∣ period := by
  by_contra separate
  have coprime : Nat.Coprime period prime :=
    ((Nat.Prime.coprime_iff_not_dvd isPrime).mpr separate).symm
  exact part (coprime.dvd_of_dvd_mul_left whole)

/-- The cycle of the register is longer than any batch: it returns to a single
bit after `2 ^ 32 - 1` steps, but not after a 65537th or a 257th of them. -/
theorem iterate_ne_self {steps : Nat} (positive : 0 < steps)
    (short : steps < 65537 * 257) :
    (step kCrcTaps)^[steps] 1#32 ≠ 1#32 := by
  intro returns
  let period := Function.minimalPeriod (step kCrcTaps) (topBit 32)
  have whole : period ∣ 65537 * 65535 := isPeriodicPt_whole.minimalPeriod_dvd
  have regrouped : period ∣ 257 * 16711935 := whole
  have first : 65537 ∣ period := by
    apply prime_dvd_of_not_dvd (by norm_num) whole
    intro part
    exact not_isPeriodicPt_65535
      ((Function.isPeriodicPt_minimalPeriod _ _).trans_dvd part)
  have second : 257 ∣ period := by
    apply prime_dvd_of_not_dvd (by norm_num) regrouped
    intro part
    exact not_isPeriodicPt_16711935
      ((Function.isPeriodicPt_minimalPeriod _ _).trans_dvd part)
  have both : 65537 * 257 ∣ period :=
    Nat.Coprime.mul_dvd_of_dvd_of_dvd (by norm_num) first second
  have cycle : Function.IsPeriodicPt (step kCrcTaps) steps (topBit 32) :=
    iterate_topBit_of_one kCrcTaps_msb returns
  have least : period ∣ steps := cycle.minimalPeriod_dvd
  have atLeast := Nat.le_of_dvd positive (both.trans least)
  omega

/-- The bits of the data byte by byte, the lowest bit of each byte first. -/
def bitAt (data : List Byte) (index : Nat) : Bool :=
  (data.getD (index / 8) 0).getLsbD (index % 8)

theorem bitAt_append_left {data : List Byte} {index : Nat}
    (inside : index < 8 * data.length) (more : List Byte) :
    bitAt (data ++ more) index = bitAt data index := by
  rw [bitAt, List.getD_append data more 0 _ (by omega), bitAt]

theorem bitAt_append_right {before : List Byte} (data : List Byte)
    {index : Nat} (past : 8 * before.length ≤ index) :
    bitAt (before ++ data) index =
      bitAt data (index - 8 * before.length) := by
  have byte : index / 8 - before.length =
      (index - 8 * before.length) / 8 := by omega
  have bit : index % 8 = (index - 8 * before.length) % 8 := by omega
  rw [bitAt, List.getD_append_right before data 0 _ (by omega), byte, bit,
    bitAt]

/-- Data of one length with the same bits is the same. -/
theorem eq_of_bitAt_eq {left right : List Byte}
    (sized : left.length = right.length)
    (same : ∀ index < 8 * left.length, bitAt left index = bitAt right index) :
    left = right := by
  apply List.ext_getElem sized
  intro place below below'
  apply BitVec.eq_of_getLsbD_eq
  intro bit small
  have equal := same (8 * place + bit) (by omega)
  have byte : (8 * place + bit) / 8 = place := by omega
  have inside : (8 * place + bit) % 8 = bit := by omega
  rw [bitAt, bitAt, byte, inside] at equal
  simpa [below, below'] using equal

theorem crc32Update_eq_run (crc : Word) (byte : Byte) :
    crc32Update crc byte = run kCrcTaps crc (fun index => byte.getLsbD index) 8 := by
  have bits : word (fun index => byte.getLsbD index) 8 = byte.setWidth 32 := by
    apply BitVec.eq_of_getLsbD_eq
    intro index below
    rw [getLsbD_word, BitVec.getLsbD_setWidth]
    by_cases small : index < 8
    · simp [below, small]
    · have high : byte.getLsbD index = false :=
        BitVec.getLsbD_of_ge byte index (by omega)
      simp [high]
  have steps : crc32Bit = step kCrcTaps := funext crc32Bit_eq_step
  rw [run_eq_iterate kCrcTaps crc _ (by decide), bits, crc32Update, steps]

theorem foldl_crc32Update_eq_run (crc : Word) (data : List Byte) :
    data.foldl crc32Update crc =
      run kCrcTaps crc (bitAt data) (8 * data.length) := by
  induction data using List.reverseRecOn with
  | nil => rfl
  | append_singleton data byte induction =>
      have front : run kCrcTaps crc (bitAt (data ++ [byte]))
          (8 * data.length) =
            run kCrcTaps crc (bitAt data) (8 * data.length) := by
        apply run_congr
        intro index below
        exact bitAt_append_left below [byte]
      have last : ∀ register, run kCrcTaps register
          (fun index => bitAt (data ++ [byte]) (8 * data.length + index)) 8 =
            run kCrcTaps register (fun index => byte.getLsbD index) 8 := by
        intro register
        apply run_congr
        intro index below
        have byteIndex : index / 8 = 0 := by omega
        have bitIndex : index % 8 = index := by omega
        rw [bitAt_append_right _ (Nat.le_add_right _ _),
          Nat.add_sub_cancel_left, bitAt, byteIndex, bitIndex]
        rfl
      rw [List.foldl_append, induction, List.length_append,
        List.length_singleton, Nat.mul_add, Nat.mul_one, run_add, front, last]
      exact crc32Update_eq_run _ byte

theorem wordAt_eq_word (data : List Byte) (offset : Nat) :
    wordAt data offset =
      word (fun index => bitAt data (8 * offset + index)) 32 := by
  apply BitVec.eq_of_getLsbD_eq
  intro index below
  have byte : (8 * offset + index) / 8 = offset + index / 8 := by omega
  have bit : (8 * offset + index) % 8 = index % 8 := by omega
  have lane : index / 8 = 0 ∨ index / 8 = 1 ∨ index / 8 = 2 ∨
      index / 8 = 3 := by omega
  rw [getLsbD_word, bitAt, byte, bit, wordAt]
  simp only [BitVec.getLsbD_append, below, decide_true, Bool.true_and]
  rcases lane with lane | lane | lane | lane
  · have low : index < 8 := by omega
    have rest : index % 8 = index := by omega
    simp [lane, low, rest]
  · have low : ¬index < 8 := by omega
    have mid : index - 8 < 8 := by omega
    have rest : index % 8 = index - 8 := by omega
    simp [lane, low, mid, rest]
  · have low : ¬index < 8 := by omega
    have mid : ¬index - 8 < 8 := by omega
    have high : index - 8 - 8 < 8 := by omega
    have rest : index % 8 = index - 8 - 8 := by omega
    simp [lane, low, mid, high, rest]
  · have low : ¬index < 8 := by omega
    have mid : ¬index - 8 < 8 := by omega
    have high : ¬index - 8 - 8 < 8 := by omega
    have rest : index % 8 = index - 8 - 8 - 8 := by omega
    simp [lane, low, mid, high, rest]

/-- The stream with the 32 bits of the checksum field left out. -/
def blankField (bits : Nat → Bool) (index : Nat) : Bool :=
  if 128 ≤ index ∧ index < 160 then false else bits index

theorem bitAt_storeWord_zero {data : List Byte}
    (complete : kPacketHeaderSize ≤ data.length) (index : Nat) :
    bitAt (storeWord data 16 0) index = blankField (bitAt data) index := by
  unfold kPacketHeaderSize at complete
  have front : (data.take 16).length = 16 := by
    rw [List.length_take]
    omega
  have middle : (data.take 16 ++ wordBytes 0).length = 20 := by
    rw [List.length_append, front, length_wordBytes]
  have header : (data.take 20).length = 20 := by
    rw [List.length_take]
    omega
  rw [storeWord, blankField]
  by_cases before : index < 128
  · have kept : ∀ more, bitAt (data.take 16 ++ more) index =
        bitAt (data.take 16) index := bitAt_append_left (by omega)
    rw [if_neg (by omega), List.append_assoc, kept, ← kept (data.drop 16),
      List.take_append_drop]
  · by_cases inside : index < 160
    · have zeros : wordBytes 0 = List.replicate 4 0 := by decide
      have byte : (index - 128) / 8 < 4 := by omega
      rw [if_pos (by omega), bitAt_append_left (by omega),
        bitAt_append_right _ (by omega), front, bitAt, zeros,
        List.getD_replicate _ byte]
      simp
    · have kept : bitAt (data.take 20 ++ data.drop 20) index =
          bitAt (data.drop 20) (index - 8 * (data.take 20).length) :=
        bitAt_append_right _ (by omega)
      rw [List.take_append_drop, header] at kept
      rw [if_neg (by omega), bitAt_append_right _ (by omega), middle, kept]

theorem blankField_xor (bits others : Nat → Bool) :
    blankField (fun index => bits index ^^ others index) =
      fun index => blankField bits index ^^ blankField others index := by
  funext index
  unfold blankField
  split <;> simp

/-- What the receiver compares: the checksum field against what the register
holds after the rest. -/
def syndrome (bits : Nat → Bool) (count : Nat) : Word :=
  word (fun index => bits (128 + index)) 32 ^^^
    run kCrcTaps 0#32 (blankField bits) count

theorem syndrome_congr {bits others : Nat → Bool} {count : Nat}
    (complete : 160 ≤ count)
    (same : ∀ index < count, bits index = others index) :
    syndrome bits count = syndrome others count := by
  have field : word (w := 32) (fun index => bits (128 + index)) 32 =
      word (fun index => others (128 + index)) 32 := by
    apply word_congr
    intro index below
    exact same _ (by omega)
  have rest : run kCrcTaps 0#32 (blankField bits) count =
      run kCrcTaps 0#32 (blankField others) count := by
    apply run_congr
    intro index below
    unfold blankField
    rw [same index below]
  rw [syndrome, syndrome, field, rest]

theorem syndrome_xor (bits others : Nat → Bool) (count : Nat) :
    syndrome (fun index => bits index ^^ others index) count =
      syndrome bits count ^^^ syndrome others count := by
  have rest := run_xor kCrcTaps 0#32 0#32 (blankField bits)
    (blankField others) count
  rw [BitVec.xor_self] at rest
  rw [syndrome, syndrome, syndrome, blankField_xor, rest, word_xor]
  ac_rfl

/-- Bits that are all in the checksum field are compared as they are. -/
theorem syndrome_inside_field {bits : Nat → Bool} {count : Nat}
    (quiet : ∀ index < count, index < 128 ∨ 160 ≤ index →
      bits index = false) :
    syndrome bits count = word (fun index => bits (128 + index)) 32 := by
  have silent : ∀ index < count, blankField bits index = false := by
    intro index inside
    unfold blankField
    split
    · rfl
    · exact quiet index inside (by omega)
  have empty : run kCrcTaps 0#32 (blankField bits) count = 0#32 := by
    rw [run_silent kCrcTaps silent]
    exact iterate_step_zero kCrcTaps count
  rw [syndrome, empty, BitVec.xor_zero]

/-- Bits outside the checksum field go through the register. -/
theorem syndrome_outside_field {bits : Nat → Bool} (count : Nat)
    (quiet : ∀ index, 128 ≤ index → index < 160 → bits index = false) :
    syndrome bits count = run kCrcTaps 0#32 bits count := by
  have empty : word (w := 32) (fun index => bits (128 + index)) 32 =
      0#32 := by
    apply BitVec.eq_of_getLsbD_eq
    intro index below
    rw [getLsbD_word, BitVec.getLsbD_zero,
      quiet (128 + index) (by omega) (by omega), Bool.and_false]
  have same : blankField bits = bits := by
    funext index
    unfold blankField
    by_cases inside : 128 ≤ index ∧ index < 160
    · rw [if_pos inside, quiet index inside.1 inside.2]
    · exact if_neg inside
  rw [syndrome, empty, BitVec.zero_xor, same]

theorem ValidBatch.crcField_eq {batch : List Byte} (valid : ValidBatch batch) :
    word (fun index => bitAt batch (128 + index)) 32 =
      run kCrcTaps 0xFFFFFFFF#32 (blankField (bitAt batch))
        (8 * batch.length) ^^^ 0xFFFFFFFF#32 := by
  obtain ⟨complete, _, _, _, crc⟩ := validateBatch_eq_ok valid
  have sized : (storeWord batch 16 0).length = batch.length :=
    length_storeWord 0 complete
  have blank : bitAt (storeWord batch 16 0) = blankField (bitAt batch) :=
    funext (bitAt_storeWord_zero complete)
  calc
    word (fun index => bitAt batch (128 + index)) 32
        = (PacketHeader.decode batch).crc32 := (wordAt_eq_word batch 16).symm
    _ = crc32Compute (storeWord batch 16 0) := by
          rw [crc, batchCrc32, List.take_length]
    _ = _ := by
          rw [crc32Compute, foldl_crc32Update_eq_run, sized, blank]

/-- The bits in which two valid batches of one size differ have no
syndrome. -/
theorem syndrome_eq_zero {batch other : List Byte} (valid : ValidBatch batch)
    (accepted : ValidBatch other) (sized : other.length = batch.length) :
    syndrome (fun index => bitAt batch index ^^ bitAt other index)
      (8 * batch.length) = 0#32 := by
  have cancel : ∀ a b c : Word, (a ^^^ c) ^^^ (b ^^^ c) ^^^ (a ^^^ b) = 0#32 := by
    intro a b c
    have pairs : (a ^^^ c) ^^^ (b ^^^ c) ^^^ (a ^^^ b) =
        (a ^^^ a) ^^^ (b ^^^ b) ^^^ (c ^^^ c) := by ac_rfl
    simp [pairs]
  have rest := run_xor kCrcTaps 0xFFFFFFFF#32 0xFFFFFFFF#32
    (blankField (bitAt batch)) (blankField (bitAt other)) (8 * batch.length)
  rw [BitVec.xor_self] at rest
  have field := accepted.crcField_eq
  rw [sized] at field
  rw [syndrome, word_xor, valid.crcField_eq, field, blankField_xor, rest]
  exact cancel _ _ _

end BoostUdp
