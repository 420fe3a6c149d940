import Mathlib.Data.List.Basic
import Mathlib.Data.List.GetD
import Mathlib.Tactic

/-!
# Little-endian words in byte lists

Reading and writing 32-bit words at byte offsets of a list.  A read depends
only on the four bytes it covers, and writing a word and reading it back at
the same offset gives the word.
-/

namespace LittleEndian

abbrev Byte := BitVec 8
abbrev Word := BitVec 32

/-- The word whose bytes are at `offset .. offset + 3`, lowest byte first.
Bytes past the end of the data read as zero. -/
def wordAt (data : List Byte) (offset : Nat) : Word :=
  data.getD (offset + 3) 0 ++ data.getD (offset + 2) 0 ++
    data.getD (offset + 1) 0 ++ data.getD offset 0

/-- The four bytes of a word, lowest byte first. -/
def wordBytes (word : Word) : List Byte :=
  [word.extractLsb' 0 8, word.extractLsb' 8 8,
    word.extractLsb' 16 8, word.extractLsb' 24 8]

/-- Overwrite the four bytes at `offset`. -/
def storeWord (data : List Byte) (offset : Nat) (word : Word) : List Byte :=
  data.take offset ++ wordBytes word ++ data.drop (offset + 4)

@[simp] theorem length_wordBytes (word : Word) :
    (wordBytes word).length = 4 := rfl

theorem length_storeWord {data : List Byte} {offset : Nat} (word : Word)
    (fits : offset + 4 ≤ data.length) :
    (storeWord data offset word).length = data.length := by
  simp only [storeWord, List.length_append, List.length_take,
    length_wordBytes, List.length_drop]
  omega

theorem wordAt_append_left {data : List Byte} {offset : Nat}
    (fits : offset + 4 ≤ data.length) (more : List Byte) :
    wordAt (data ++ more) offset = wordAt data offset := by
  have inside : ∀ index, index < data.length →
      (data ++ more).getD index 0 = data.getD index 0 := by
    intro index below
    exact List.getD_append data more 0 index below
  simp only [wordAt]
  rw [inside _ (by omega), inside _ (by omega), inside _ (by omega),
    inside _ (by omega)]

theorem wordAt_append_right {before : List Byte} (data : List Byte)
    {offset : Nat} (past : before.length ≤ offset) :
    wordAt (before ++ data) offset = wordAt data (offset - before.length) := by
  have outside : ∀ count,
      (before ++ data).getD (offset + count) 0 =
        data.getD (offset - before.length + count) 0 := by
    intro count
    rw [List.getD_append_right before data 0 (offset + count) (by omega)]
    congr 1
    omega
  have first := outside 0
  simp only [Nat.add_zero] at first
  simp only [wordAt, outside, first]

/-- A word list laid out in front of other bytes reads back at its start. -/
@[simp] theorem wordAt_wordBytes_append (word : Word) (rest : List Byte) :
    wordAt (wordBytes word ++ rest) 0 = word := by
  simp only [wordAt, wordBytes, List.cons_append, List.nil_append,
    List.getD_cons_succ, List.getD_cons_zero, Nat.zero_add]
  rw [BitVec.extractLsb'_append_extractLsb'_eq_extractLsb' (by rfl),
    BitVec.extractLsb'_append_extractLsb'_eq_extractLsb' (by rfl),
    BitVec.extractLsb'_append_extractLsb'_eq_extractLsb' (by rfl)]
  exact BitVec.extractLsb'_eq_self

/-- Reading a word and writing its bytes gives the bytes that were there. -/
theorem wordBytes_wordAt {data : List Byte} {offset : Nat}
    (fits : offset + 4 ≤ data.length) :
    wordBytes (wordAt data offset) = (data.drop offset).take 4 := by
  have front : (data.take offset).length = offset := by
    rw [List.length_take]
    omega
  have moved : wordAt data offset = wordAt (data.drop offset) 0 := by
    have split := wordAt_append_right (data.drop offset) (Nat.le_of_eq front)
    rw [List.take_append_drop, front, Nat.sub_self] at split
    exact split
  have room : 4 ≤ (data.drop offset).length := by
    rw [List.length_drop]
    omega
  rw [moved]
  match data.drop offset, room with
  | first :: second :: third :: fourth :: rest, _ =>
      have bytes : ∀ high higher highest low : Byte,
          wordBytes (highest ++ higher ++ high ++ low) =
            [low, high, higher, highest] := by
        intro high higher highest low
        simp only [wordBytes, List.cons.injEq, and_true]
        refine ⟨?_, ?_, ?_, ?_⟩
        all_goals
          apply BitVec.eq_of_getLsbD_eq
          intro index below
          grind
      exact bytes second third fourth first

end LittleEndian
