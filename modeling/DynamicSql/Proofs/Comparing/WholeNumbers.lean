import DynamicSql.Proofs.Comparing.Doubles
import DynamicSql.Template.Condition

/-!
# Comparing whole numbers

Whole numbers are compared as doubles. Up to 2 ^ 53 this is their own order. Beyond it
numbers that are rounded to the same double are equal to each other, and all others
are still in their order.
-/

namespace DynamicSql

namespace WholeNumber

/-- The number that a whole number is rounded to, which keeps its sign. -/
def nearest (n : WholeNumber) : Int := n.val.sign * DynamicSql.nearest n.val.natAbs

theorem nearest_of_neg {n : WholeNumber} (negative : n.val < 0) :
    n.nearest = -(DynamicSql.nearest n.val.natAbs : Int) := by
  rw [nearest, Int.sign_eq_neg_one_of_neg negative, Int.neg_one_mul]

theorem nearest_of_nonneg {n : WholeNumber} (nonnegative : 0 ≤ n.val) :
    n.nearest = DynamicSql.nearest n.val.natAbs := by
  rcases Int.le_iff_lt_or_eq.mp nonnegative with positive | zero
  · rw [nearest, Int.sign_eq_one_of_pos positive, Int.one_mul]
  · rw [nearest, ← zero]
    rfl

/-- Whole numbers with at most 53 digits, and the next one, are not rounded. -/
theorem nearest_eq_val {n : WholeNumber} (short : n.val.natAbs ≤ 2 ^ 53) : n.nearest = n.val := by
  rw [nearest, nearest_eq_self short, Int.sign_mul_natAbs]

/-- Rounding keeps the order of whole numbers. -/
theorem nearest_le_nearest {l r : WholeNumber} (le : l.val ≤ r.val) : l.nearest ≤ r.nearest := by
  rcases lt_or_ge l.val 0 with negative | nonnegative
  · rw [nearest_of_neg negative]
    rcases lt_or_ge r.val 0 with both | one
    · rw [nearest_of_neg both]
      have rounded := nearest_mono (show r.val.natAbs ≤ l.val.natAbs by omega)
      omega
    · rw [nearest_of_nonneg one]
      omega
  · rw [nearest_of_nonneg nonnegative, nearest_of_nonneg (by omega)]
    have rounded := nearest_mono (show l.val.natAbs ≤ r.val.natAbs by omega)
    omega

/-- Rounded numbers are in the order of the numbers, or are equal. -/
theorem compare_nearest (l r : WholeNumber) :
    Ord.compare l.nearest r.nearest =
      if l.nearest = r.nearest then .eq else Ord.compare l.val r.val := by
  split
  · next same => exact Int.compare_eq_eq.mpr same
  · next differs =>
    rcases Int.lt_trichotomy l.val r.val with less | same | greater
    · have rounded := nearest_le_nearest (Int.le_of_lt less)
      rw [Int.compare_eq_lt.mpr less, Int.compare_eq_lt]
      omega
    · refine absurd ?_ differs
      rw [nearest, nearest, same]
    · have rounded := nearest_le_nearest (Int.le_of_lt greater)
      rw [Int.compare_eq_gt.mpr greater, Int.compare_eq_gt]
      omega

/-- The double of a whole number stands for the number that it is rounded to. -/
theorem standsFor_toFloat (n : WholeNumber) : StandsFor n.toFloat.toModel.unpack n.nearest := by
  obtain ⟨val, lower, upper⟩ := n
  have bounded : val.natAbs < UInt64.size := by
    have least : Int64.minValue.toInt = -2 ^ 63 := by decide
    have most : UInt64.size = 2 ^ 64 := rfl
    omega
  have whole : val.natAbs.toUInt64.toNat = val.natAbs := UInt64.toNat_ofNat_of_lt bounded
  have magnitude := DynamicSql.standsFor_toFloat val.natAbs.toUInt64
  rw [whole] at magnitude
  rw [toFloat]
  split
  · next negative =>
    rw [nearest_of_neg negative]
    exact standsFor_neg magnitude
  · next nonnegative =>
    rw [nearest_of_nonneg (Int.not_lt.mp nonnegative)]
    exact magnitude

end WholeNumber

namespace Value

theorem compare_whole (l r : WholeNumber) : (number (.whole l)).compare (number (.whole r)) =
    some (if l.nearest = r.nearest then .eq else Ord.compare l.val r.val) := by
  rw [← WholeNumber.compare_nearest]
  exact compareFloats_eq l.standsFor_toFloat r.standsFor_toFloat

/-- Whole numbers that are rounded to the same double compare equal, and all others as they
    are ordered, so that up to 2 ^ 53 every comparison is exact. -/
theorem compare_by_nearest (l r : WholeNumber) :
    (number (.whole l)).compare (number (.whole r)) =
      some (if l.nearest = r.nearest then .eq else Ord.compare l.val r.val) ∧
    (∀ param,
      (Condition.isEqual.holds param (some (number (.whole l))) (number (.whole r)) = true ↔
        l.nearest = r.nearest) ∧
      (Condition.isGreaterThan.holds param (some (number (.whole l))) (number (.whole r)) = true ↔
        r.val < l.val ∧ l.nearest ≠ r.nearest) ∧
      (Condition.isLessThan.holds param (some (number (.whole l))) (number (.whole r)) = true ↔
        l.val < r.val ∧ l.nearest ≠ r.nearest)) ∧
    (l.val.natAbs ≤ 2 ^ 53 → r.val.natAbs ≤ 2 ^ 53 →
      (number (.whole l)).compare (number (.whole r)) = some (Ord.compare l.val r.val)) := by
  refine ⟨compare_whole l r, fun param => ?_, fun shortLeft shortRight => ?_⟩
  · have same : l.val = r.val → l.nearest = r.nearest := by
      intro same
      rw [WholeNumber.nearest, WholeNumber.nearest, same]
    simp only [Condition.holds, Option.getD_some, compare_whole, beq_iff_eq, Option.some.injEq]
    split
    · next rounded => simp [rounded]
    · next rounded =>
      refine ⟨?_, ?_, ?_⟩
      · simpa [Int.compare_eq_eq, rounded] using mt same rounded
      · simp [Int.compare_eq_gt, rounded]
      · simp [Int.compare_eq_lt, rounded]
  · rw [compare_whole, WholeNumber.nearest_eq_val shortLeft, WholeNumber.nearest_eq_val shortRight]
    split
    · next same => rw [Int.compare_eq_eq.mpr same]
    · rfl

/-- The first and the last of the numbers up to 2 ^ 53. -/
theorem compare_by_nearest_at_limits :
    (number (.whole ⟨-2 ^ 53, by decide, by decide⟩)).compare
      (number (.whole ⟨2 ^ 53, by decide, by decide⟩)) = some .lt :=
  (compare_by_nearest _ _).2.2 (by decide) (by decide)

/-- 2 ^ 53 and the number behind it are equal to each other, so that the order is not that of
    whole numbers. -/
theorem compare_beyond_limit :
    (number (.whole ⟨2 ^ 53, by decide, by decide⟩)).compare
      (number (.whole ⟨2 ^ 53 + 1, by decide, by decide⟩)) = some .eq ∧
    Condition.isEqual.holds null (some (number (.whole ⟨2 ^ 53, by decide, by decide⟩)))
      (number (.whole ⟨2 ^ 53 + 1, by decide, by decide⟩)) = true ∧
    ¬ ∀ l r : WholeNumber,
      (number (.whole l)).compare (number (.whole r)) = some (Ord.compare l.val r.val) := by
  have collapsed : (number (.whole ⟨2 ^ 53, by decide, by decide⟩)).compare
      (number (.whole ⟨2 ^ 53 + 1, by decide, by decide⟩)) = some .eq := by decide +kernel
  refine ⟨collapsed, by decide +kernel, fun exact => ?_⟩
  rw [exact] at collapsed
  exact absurd collapsed (by decide)

end Value

end DynamicSql
