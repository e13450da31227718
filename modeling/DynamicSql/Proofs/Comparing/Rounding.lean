import Mathlib

/-!
# Rounding to significant digits

A double has 53 binary digits. A natural number with more of them is rounded to the
nearest one that has so many, and halfway between two of these to the even one.
Numbers keep their order when they are rounded, but different ones may become equal.
-/

namespace DynamicSql

/-- How often a unit goes into a number, rounded to the nearest count, and to an even one
    halfway between two. -/
def divNearest (n unit : Nat) : Nat :=
  if 2 * (n % unit) < unit then n / unit
  else if unit < 2 * (n % unit) then n / unit + 1
  else n / unit + n / unit % 2

theorem divNearest_mul {unit : Nat} (positive : 0 < unit) (count : Nat) :
    divNearest (count * unit) unit = count := by
  rw [divNearest, Nat.mul_mod_left, Nat.mul_div_cancel count positive]
  simp [positive]

theorem divNearest_mono (unit : Nat) {n m : Nat} (le : n ≤ m) :
    divNearest n unit ≤ divNearest m unit := by
  have counts : n / unit ≤ m / unit := Nat.div_le_div_right le
  have rests : n / unit = m / unit → n % unit ≤ m % unit := by
    intro same
    have first := Nat.div_add_mod n unit
    have second := Nat.div_add_mod m unit
    rw [same] at first
    omega
  unfold divNearest
  split_ifs <;> omega

/-- No other multiple of the unit is nearer. -/
theorem divNearest_closest {unit : Nat} (positive : 0 < unit) (n count : Nat) :
    ((n : Int) - (divNearest n unit * unit : Nat)).natAbs ≤
      ((n : Int) - (count * unit : Nat)).natAbs := by
  have whole := Nat.div_add_mod' n unit
  have less := Nat.mod_lt n positive
  have above : (n / unit + 1) * unit = n / unit * unit + unit := Nat.succ_mul _ _
  -- A multiple is not between the one below the number and the next one.
  have outside : count * unit ≤ n / unit * unit ∨ n / unit * unit + unit ≤ count * unit := by
    rcases Nat.lt_or_ge (n / unit) count with later | earlier
    · exact .inr (above ▸ Nat.mul_le_mul_right unit later)
    · exact .inl (Nat.mul_le_mul_right unit earlier)
  have rounded : divNearest n unit * unit = n / unit * unit ∧ 2 * (n % unit) ≤ unit ∨
      divNearest n unit * unit = n / unit * unit + unit ∧ unit ≤ 2 * (n % unit) := by
    unfold divNearest
    split_ifs with below beyond
    · exact .inl ⟨rfl, by omega⟩
    · exact .inr ⟨above, by omega⟩
    · rcases Nat.mod_two_eq_zero_or_one (n / unit) with even | odd
      · exact .inl ⟨by rw [even]; rfl, by omega⟩
      · exact .inr ⟨by rw [odd, above], by omega⟩
  omega

/-- How many binary digits a number has beyond 53. -/
def surplus (n : Nat) : Nat := n.log2 - 52

/-- A number rounded to 53 binary digits. -/
def nearest (n : Nat) : Nat := divNearest n (2 ^ surplus n) * 2 ^ surplus n

theorem surplus_eq_zero {n : Nat} (short : n < 2 ^ 53) : surplus n = 0 := by
  rcases Nat.eq_zero_or_pos n with rfl | positive
  · rfl
  · have digits := (Nat.log2_lt (Nat.pos_iff_ne_zero.mp positive)).mpr short
    rw [surplus]
    omega

/-- A number with 53 binary digits is its own rounding, and so is the next one. -/
theorem nearest_eq_self {n : Nat} (short : n ≤ 2 ^ 53) : nearest n = n := by
  rcases Nat.lt_or_eq_of_le short with less | rfl
  · have count : divNearest (n * 1) 1 = n := divNearest_mul Nat.one_pos n
    rw [Nat.mul_one] at count
    rw [nearest, surplus_eq_zero less, Nat.pow_zero, count, Nat.mul_one]
  · decide +kernel

theorem nearest_between {n : Nat} (positive : 0 < n) :
    2 ^ n.log2 ≤ nearest n ∧ nearest n ≤ 2 ^ (n.log2 + 1) := by
  have unit : 0 < 2 ^ surplus n := Nat.two_pow_pos _
  have least : 2 ^ n.log2 = 2 ^ (n.log2 - surplus n) * 2 ^ surplus n := by
    rw [← Nat.pow_add]
    congr 1
    rw [surplus]
    omega
  have most : 2 ^ (n.log2 + 1) = 2 ^ (n.log2 - surplus n + 1) * 2 ^ surplus n := by
    rw [← Nat.pow_add]
    congr 1
    rw [surplus]
    omega
  have lower := divNearest_mono (2 ^ surplus n) (Nat.log2_self_le (Nat.pos_iff_ne_zero.mp positive))
  have upper := divNearest_mono (2 ^ surplus n) (Nat.le_of_lt (Nat.lt_log2_self (n := n)))
  rw [least, divNearest_mul unit] at lower
  rw [most, divNearest_mul unit] at upper
  rw [nearest]
  constructor
  · rw [least]
    exact Nat.mul_le_mul_right _ lower
  · rw [most]
    exact Nat.mul_le_mul_right _ upper

theorem log2_eq_add_surplus {n : Nat} (least : 2 ^ 52 ≤ n) : n.log2 = 52 + surplus n := by
  have positive : 0 < n := Nat.lt_of_lt_of_le (Nat.two_pow_pos 52) least
  have digits := (Nat.le_log2 (Nat.pos_iff_ne_zero.mp positive)).mpr least
  rw [surplus]
  omega

/-- The count that a number with at least 53 digits is rounded to has 53, or is the next one. -/
theorem divNearest_between {n : Nat} (least : 2 ^ 52 ≤ n) :
    2 ^ 52 ≤ divNearest n (2 ^ surplus n) ∧ divNearest n (2 ^ surplus n) ≤ 2 ^ 53 := by
  have unit : 0 < 2 ^ surplus n := Nat.two_pow_pos _
  have positive : 0 < n := Nat.lt_of_lt_of_le (Nat.two_pow_pos 52) least
  obtain ⟨lower, upper⟩ := nearest_between positive
  rw [nearest, log2_eq_add_surplus least, Nat.pow_add] at lower
  rw [nearest, log2_eq_add_surplus least, Nat.add_right_comm, Nat.pow_add] at upper
  exact ⟨Nat.le_of_mul_le_mul_right lower unit, Nat.le_of_mul_le_mul_right upper unit⟩

/-- A number with 53 digits, or the next one, as 53 digits at a place. -/
theorem normalized {n : Nat} (least : 2 ^ 52 ≤ n) (most : n ≤ 2 ^ 53) :
    2 ^ 52 ≤ n / 2 ^ surplus n ∧ n / 2 ^ surplus n < 2 ^ 53 ∧
      n / 2 ^ surplus n * 2 ^ surplus n = n ∧ surplus n ≤ 1 := by
  rcases Nat.lt_or_eq_of_le most with short | rfl
  · rw [surplus_eq_zero short]
    omega
  · decide +kernel

/-- Rounding keeps the order of numbers. -/
theorem nearest_mono {n m : Nat} (le : n ≤ m) : nearest n ≤ nearest m := by
  rcases Nat.eq_zero_or_pos n with rfl | positive
  · exact Nat.zero_le _
  have digits : n.log2 ≤ m.log2 :=
    (Nat.le_log2 (by omega)).mpr (Nat.le_trans (Nat.log2_self_le (by omega)) le)
  rcases Nat.lt_or_eq_of_le digits with fewer | same
  · calc nearest n ≤ 2 ^ (n.log2 + 1) := (nearest_between positive).2
      _ ≤ 2 ^ m.log2 := Nat.pow_le_pow_right Nat.two_pos fewer
      _ ≤ nearest m := (nearest_between (by omega)).1
  · rw [nearest, nearest, surplus, surplus, same]
    exact Nat.mul_le_mul_right _ (divNearest_mono _ le)

/-- A rounded number has 53 binary digits, with zeros behind them. -/
theorem exists_nearest_eq (n : Nat) :
    ∃ digits place, digits < 2 ^ 53 ∧ nearest n = digits * 2 ^ place := by
  rcases Nat.lt_or_ge n (2 ^ 52) with short | long
  · exact ⟨n, 0, by omega, by rw [nearest_eq_self (by omega), Nat.pow_zero, Nat.mul_one]⟩
  · obtain ⟨lower, upper⟩ := divNearest_between long
    obtain ⟨-, short, whole, -⟩ := normalized lower upper
    refine ⟨_, surplus (divNearest n (2 ^ surplus n)) + surplus n, short, ?_⟩
    rw [Nat.pow_add, ← Nat.mul_assoc, whole, nearest]

/-- No number with 53 binary digits, and zeros behind them, is nearer. -/
theorem nearest_closest (n : Nat) {digits : Nat} (short : digits < 2 ^ 53) (place : Nat) :
    ((n : Int) - nearest n).natAbs ≤ ((n : Int) - (digits * 2 ^ place : Nat)).natAbs := by
  have unit : 0 < 2 ^ surplus n := Nat.two_pow_pos _
  rcases Nat.lt_or_ge place (surplus n) with fine | coarse
  · -- A number with its last digit at a lower place is less than the least multiple
    -- that has the digits of this one.
    have long : 2 ^ 53 ≤ n := by
      by_contra less
      rw [surplus_eq_zero (Nat.lt_of_not_le less)] at fine
      exact Nat.not_lt_zero place fine
    have least : 2 ^ 52 * 2 ^ surplus n ≤ n := by
      rw [← Nat.pow_add, ← log2_eq_add_surplus (by omega)]
      exact Nat.log2_self_le (by omega)
    have below : digits * 2 ^ place ≤ 2 ^ 52 * 2 ^ surplus n := by
      calc digits * 2 ^ place ≤ 2 ^ 53 * 2 ^ place := Nat.mul_le_mul_right _ (Nat.le_of_lt short)
        _ = 2 ^ 52 * 2 ^ (place + 1) := by rw [Nat.pow_succ 2 place]; omega
        _ ≤ 2 ^ 52 * 2 ^ surplus n := Nat.mul_le_mul_left _ (Nat.pow_le_pow_right Nat.two_pos fine)
    have closest := divNearest_closest unit n (2 ^ 52)
    rw [nearest]
    omega
  · have multiple : digits * 2 ^ place = digits * 2 ^ (place - surplus n) * 2 ^ surplus n := by
      rw [Nat.mul_assoc, ← Nat.pow_add, Nat.sub_add_cancel coarse]
    rw [multiple]
    exact divNearest_closest unit n _

theorem log2_mul_two_pow {n : Nat} (positive : 0 < n) (places : Nat) :
    (n * 2 ^ places).log2 = n.log2 + places := by
  have nonzero := Nat.pos_iff_ne_zero.mp positive
  have unit : 0 < 2 ^ places := Nat.two_pow_pos _
  rw [Nat.log2_eq_iff (Nat.pos_iff_ne_zero.mp (Nat.mul_pos positive unit)), Nat.add_right_comm,
    Nat.pow_add, Nat.pow_add]
  exact ⟨Nat.mul_le_mul_right _ (Nat.log2_self_le nonzero),
    Nat.mul_lt_mul_of_pos_right Nat.lt_log2_self unit⟩

/-- The zeros that are written behind a number with fewer than 53 digits. -/
def zeros (n : Nat) : Nat := 52 - n.log2

theorem log2_padded {n : Nat} (positive : 0 < n) :
    (n * 2 ^ zeros n).log2 = 52 + surplus n := by
  rw [log2_mul_two_pow positive, zeros, surplus]
  omega

theorem surplus_padded {n : Nat} (positive : 0 < n) : surplus (n * 2 ^ zeros n) = surplus n := by
  rw [surplus, log2_padded positive, Nat.add_sub_cancel_left]

theorem two_pow_le_padded {n : Nat} (positive : 0 < n) : 2 ^ 52 ≤ n * 2 ^ zeros n := by
  have nonzero := Nat.pos_iff_ne_zero.mp (Nat.mul_pos positive (Nat.two_pow_pos (zeros n)))
  refine (Nat.le_log2 nonzero).mp ?_
  rw [log2_padded positive]
  exact Nat.le_add_right 52 _

/-- Zeros behind a number do not change what it is rounded to. -/
theorem nearest_padded {n : Nat} (positive : 0 < n) :
    nearest (n * 2 ^ zeros n) = nearest n * 2 ^ zeros n := by
  rcases Nat.eq_zero_or_pos (zeros n) with none | some
  · rw [none, Nat.pow_zero, Nat.mul_one, Nat.mul_one]
  · have few : surplus n = 0 := by
      rw [zeros] at some
      rw [surplus]
      omega
    have nonzero := Nat.pos_iff_ne_zero.mp (Nat.mul_pos positive (Nat.two_pow_pos (zeros n)))
    have short : n * 2 ^ zeros n < 2 ^ 53 := by
      rw [← Nat.log2_lt nonzero, log2_padded positive, few]
      decide
    have less : n ≤ n * 2 ^ zeros n := Nat.le_mul_of_pos_right n (Nat.two_pow_pos _)
    rw [nearest_eq_self (Nat.le_of_lt short), nearest_eq_self (by omega)]

end DynamicSql
