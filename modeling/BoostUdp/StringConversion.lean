import Mathlib.Data.List.TakeWhile
import Mathlib.Tactic

/-!
# Unsigned numbers in strings

The conversion of a C string to an unsigned integer: leading white space, a
sign, and as many digits as there are.  What follows the digits is ignored,
and a minus sign negates modulo the width of the result.
-/

namespace StringConversion

/-- What the conversion throws. -/
inductive ConversionError where
  | invalidArgument
  | outOfRange
  deriving DecidableEq, Repr

/-- `isspace` in the C locale. -/
def isSpace (char : Char) : Bool :=
  char.toNat = 32 ∨ (9 ≤ char.toNat ∧ char.toNat ≤ 13)

def readSign : List Char → Bool × List Char
  | '-' :: rest => (true, rest)
  | '+' :: rest => (false, rest)
  | text => (false, text)

def digitsValue (digits : List Char) : Nat :=
  digits.foldl (fun value digit => 10 * value + (digit.toNat - 48)) 0

def toUnsigned (bits : Nat) (text : String) : Except ConversionError Nat :=
  let (negative, rest) := readSign (text.toList.dropWhile isSpace)
  let digits := rest.takeWhile Char.isDigit
  if digits.isEmpty then
    .error .invalidArgument
  else
    let value := digitsValue digits
    if 2 ^ bits ≤ value then
      .error .outOfRange
    else if negative then
      .ok ((2 ^ bits - value) % 2 ^ bits)
    else
      .ok value

theorem toUnsigned_lt {bits value : Nat} {text : String}
    (converted : toUnsigned bits text = .ok value) : value < 2 ^ bits := by
  unfold toUnsigned at converted
  generalize readSign (text.toList.dropWhile isSpace) = sign at converted
  obtain ⟨negative, rest⟩ := sign
  dsimp only at converted
  by_cases none : (rest.takeWhile Char.isDigit).isEmpty = true
  · rw [if_pos none] at converted
    contradiction
  · rw [if_neg none] at converted
    by_cases large : 2 ^ bits ≤ digitsValue (rest.takeWhile Char.isDigit)
    · rw [if_pos large] at converted
      contradiction
    · rw [if_neg large] at converted
      cases negative with
      | true =>
          cases converted
          exact Nat.mod_lt _ (Nat.two_pow_pos bits)
      | false =>
          cases converted
          exact Nat.not_le.mp large

theorem isSpace_of_isDigit {char : Char} (digit : char.isDigit = true) :
    isSpace char = false := by
  rw [Char.isDigit, Bool.and_eq_true, decide_eq_true_eq] at digit
  have low : 48 ≤ char.toNat := digit.1
  rw [isSpace, decide_eq_false_iff_not]
  omega

theorem readSign_digit {char : Char} (digit : char.isDigit = true)
    (rest : List Char) : readSign (char :: rest) = (false, char :: rest) := by
  rw [readSign]
  · intro after minus
    cases minus
    contradiction
  · intro after plus
    cases plus
    contradiction

/-- The decimal digits of a number that fits are read back. -/
theorem toUnsigned_toString {bits value : Nat} (fits : value < 2 ^ bits) :
    toUnsigned bits (toString value) = .ok value := by
  have text : (toString value).toList = Nat.toDigits 10 value :=
    Nat.toList_repr
  have digits : ∀ char ∈ Nat.toDigits 10 value, char.isDigit = true :=
    fun char member => Nat.isDigit_of_mem_toDigits (by decide) (by decide)
      member
  have number : digitsValue (Nat.toDigits 10 value) = value :=
    Nat.ofDigitChars_ten_toDigits
  have some : Nat.toDigits 10 value ≠ [] := Nat.toDigits_ne_nil
  rw [toUnsigned, text]
  generalize Nat.toDigits 10 value = chars at digits number some
  cases chars with
  | nil => exact absurd rfl some
  | cons char rest =>
      have digit := digits char List.mem_cons_self
      have kept : ¬isSpace char = true :=
        Bool.eq_false_iff.mp (isSpace_of_isDigit digit)
      rw [List.dropWhile_cons_of_neg kept, readSign_digit digit]
      dsimp only
      rw [List.takeWhile_eq_self_iff.2 digits, number, List.isEmpty_cons,
        if_neg Bool.false_ne_true, if_neg (Nat.not_le.mpr fits)]
      rfl

example : toUnsigned 64 " -1x" = .ok (2 ^ 64 - 1) := by decide

end StringConversion
