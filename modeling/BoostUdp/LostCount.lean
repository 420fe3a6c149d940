import BoostUdp.SessionSummary

/-!
# Counting lost batches up to a requested count

`finalize_lost` narrows the requested count minus one to 32 bits and counts a
32-bit number up to it, the bound included.  What it adds is exact below
`2 ^ 32`; from there on the bound has wrapped around, or is the largest counter
value and the loop never ends.
-/

namespace BoostUdp

open LittleEndian

/-- The sequence numbers below `count` that were not seen, as integers. -/
def unseenBelow (seen : Finset Word) (count : Nat) : Finset Nat :=
  Finset.range count \ seen.image BitVec.toNat

theorem missing_eq_card_unseenBelow {seen : Finset Word} {count : Nat}
    (small : count ≤ 2 ^ 32) :
    missing seen count = (unseenBelow seen count).card := by
  have unseen : unseenBelow seen count =
      (Finset.range count).filter fun seq => BitVec.ofNat 32 seq ∉ seen := by
    ext seq
    simp only [unseenBelow, Finset.mem_sdiff, Finset.mem_image,
      Finset.mem_filter, Finset.mem_range]
    constructor
    · rintro ⟨below, never⟩
      refine ⟨below, fun member => never ⟨_, member, ?_⟩⟩
      rw [BitVec.toNat_ofNat, Nat.mod_eq_of_lt (by omega)]
    · rintro ⟨below, never⟩
      refine ⟨below, ?_⟩
      rintro ⟨word, member, rfl⟩
      apply never
      simpa using member
  rw [unseen, missing, List.countP_eq_length_filter]
  rfl

/-- No counter value is above the largest one: the loop outlasts any fuel. -/
theorem lostLoop_endless {upper : Word} (largest : upper.toNat + 1 = 2 ^ 32)
    (fuel : Nat) (seq : Word) (stats : ServerStats) :
    lostLoop upper fuel seq stats = none := by
  induction fuel generalizing seq stats with
  | zero => rfl
  | succ fuel induction =>
      have inside : seq ≤ upper := by
        rw [BitVec.le_def]
        have range := seq.isLt
        omega
      rw [lostLoop, if_pos inside]
      exact induction _ _

/-- The bound after the narrowing. -/
theorem toNat_narrowed {count : Nat} (positive : 1 ≤ count)
    (ends : count % 2 ^ 32 ≠ 0) :
    (BitVec.ofNat 32 (count - 1)).toNat + 1 = count % 2 ^ 32 := by
  rw [BitVec.toNat_ofNat]
  omega

theorem finalizeLost_count {stats : ServerStats} {count : Nat}
    (positive : 1 ≤ count) (ends : count % 2 ^ 32 ≠ 0) :
    finalizeLost stats (some count) =
      some
        { stats with
          lost := stats.lost +
            (unseenBelow stats.seenSeq (count % 2 ^ 32)).card } := by
  have upper := toNat_narrowed positive ends
  have range : count % 2 ^ 32 < 2 ^ 32 := Nat.mod_lt _ (by decide)
  have bounded : (BitVec.ofNat 32 (count - 1)).toNat + 1 < 2 ^ 32 := by
    rw [upper]
    exact range
  have reach : (0 : Word).toNat + count % 2 ^ 32 =
      (BitVec.ofNat 32 (count - 1)).toNat + 1 := by
    rw [upper]
    exact Nat.zero_add _
  rw [finalizeLost, if_neg (by omega), lostFuel,
    lostLoop_eq bounded (count % 2 ^ 32) reach (Nat.lt_succ_of_lt range),
    ← missing_eq_card_unseenBelow (Nat.le_of_lt range), missing,
    List.range_eq_range']
  rfl

theorem finalizeLost_endless {stats : ServerStats} {count : Nat}
    (positive : 1 ≤ count) (wraps : count % 2 ^ 32 = 0) :
    finalizeLost stats (some count) = none := by
  have largest : (BitVec.ofNat 32 (count - 1)).toNat + 1 = 2 ^ 32 := by
    rw [BitVec.toNat_ofNat]
    omega
  rw [finalizeLost, if_neg (by omega)]
  exact lostLoop_endless largest _ _ _

/-- A wrapped bound counts fewer sequence numbers: at least `2 ^ 32` itself,
which no 32-bit number equals, is left out. -/
theorem unseenBelow_wrapped_lt (seen : Finset Word) {count : Nat}
    (large : 2 ^ 32 ≤ count) (ends : count % 2 ^ 32 ≠ 0) :
    (unseenBelow seen (count % 2 ^ 32)).card < (unseenBelow seen count).card := by
  have range : count % 2 ^ 32 < 2 ^ 32 := Nat.mod_lt _ (by decide)
  apply Finset.card_lt_card
  constructor
  · apply Finset.sdiff_subset_sdiff
    · exact Finset.range_mono (Nat.mod_le _ _)
    · exact Finset.Subset.refl _
  · intro subset
    have outside : 2 ^ 32 ∈ unseenBelow seen count := by
      simp only [unseenBelow, Finset.mem_sdiff, Finset.mem_range,
        Finset.mem_image]
      refine ⟨by omega, ?_⟩
      rintro ⟨word, _, same⟩
      have small := word.isLt
      omega
    have inside := Finset.mem_range.mp (Finset.mem_sdiff.mp (subset outside)).1
    omega

/-- The loop over a requested count ends, with exactly the unseen sequence
numbers below the count added to the lost ones, if and only if the count fits
into 32 bits. -/
theorem finalizeLost_exact_iff (stats : ServerStats) (count : Nat) :
    finalizeLost stats (some count) =
        some
          { stats with
            lost := stats.lost + (unseenBelow stats.seenSeq count).card } ↔
      count < 2 ^ 32 := by
  constructor
  · intro exact
    by_contra above
    have large : 2 ^ 32 ≤ count := Nat.le_of_not_lt above
    have positive : 1 ≤ count := Nat.le_trans (by decide) large
    by_cases wraps : count % 2 ^ 32 = 0
    · rw [finalizeLost_endless positive wraps] at exact
      contradiction
    · rw [finalizeLost_count positive wraps] at exact
      have sameStats := Option.some.inj exact
      have sameLost := congrArg ServerStats.lost sameStats
      have fewer := unseenBelow_wrapped_lt stats.seenSeq large wraps
      simp only at sameLost
      omega
  · intro small
    have whole : count % 2 ^ 32 = count := Nat.mod_eq_of_lt small
    cases count with
    | zero => simp [finalizeLost, unseenBelow]
    | succ count =>
        have ends : (count + 1) % 2 ^ 32 ≠ 0 := by
          rw [whole]
          exact Nat.succ_ne_zero count
        rw [finalizeLost_count (Nat.le_add_left 1 count) ends, whole]

/-- With 2^32 requested batches the loop never ends, and with one more it
counts one lost batch where all of them are. -/
theorem large_count_not_exact :
    finalizeLost {} (some (2 ^ 32)) = none ∧
      finalizeLost {} (some (2 ^ 32 + 1)) = some { lost := 1 } ∧
      (unseenBelow ∅ (2 ^ 32 + 1)).card = 2 ^ 32 + 1 := by
  refine ⟨finalizeLost_endless (by decide) (by decide), ?_, ?_⟩
  · rw [finalizeLost_count (by decide) (by decide)]
    have one : (2 ^ 32 + 1) % 2 ^ 32 = 1 := by decide
    rw [one]
    rfl
  · simp [unseenBelow]

end BoostUdp
