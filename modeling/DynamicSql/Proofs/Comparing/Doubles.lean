import DynamicSql.Value.Order
import DynamicSql.Proofs.Comparing.Rounding

/-!
# Whole numbers as doubles

A double that is not zero has a sign, 53 binary digits of which the first one is not
zero, and a place that they stand at. Two of them are compared by their signs, places
and digits in this row, and so by the numbers that they stand for. The double of a
natural number stands for the number that it is rounded to.
-/

namespace DynamicSql

open Float.Model Float.Model.UnpackedFloat

/-- What is left of a number in a unit, and what the digits that are dropped say about
    the half of this unit. -/
structure InUnit (n unit : Nat) (extended : ExtendedMantissa) : Prop where
  mantissa : extended.mantissa = n / unit
  roundBit : extended.roundBit = true ↔ unit ≤ 2 * (n % unit)
  stickyBit : extended.stickyBit = true ↔ n % unit ≠ 0 ∧ 2 * (n % unit) ≠ unit

theorem InUnit.shiftRightOne {n unit : Nat} {extended : ExtendedMantissa} (positive : 0 < unit)
    (inUnit : InUnit n unit extended) : InUnit n (2 * unit) extended.shiftRightOne := by
  obtain ⟨mantissa, roundBit, stickyBit⟩ := extended
  obtain ⟨rfl, half, rest⟩ := inUnit
  have less := Nat.mod_lt n positive
  have longer : n % (2 * unit) = n % unit + unit * (n / unit % 2) := by
    rw [Nat.mul_comm, Nat.mod_mul]
  have shorter : n / (2 * unit) = n / unit / 2 := by
    rw [Nat.mul_comm, Nat.div_div_eq_div_mul]
  dsimp only at half rest
  -- The last digit is the half of the new unit.
  rcases Nat.mod_two_eq_zero_or_one (n / unit) with last | last
  · rw [last, Nat.mul_zero] at longer
    constructor <;>
      simp only [ExtendedMantissa.shiftRightOne, bne_iff_ne, Bool.or_eq_true, half, rest, longer,
        shorter, last] <;> omega
  · rw [last, Nat.mul_one] at longer
    constructor <;>
      simp only [ExtendedMantissa.shiftRightOne, bne_iff_ne, Bool.or_eq_true, half, rest, longer,
        shorter, last] <;> omega

theorem inUnit_shiftRight (n places : Nat) :
    InUnit n (2 ^ places) ((⟨n, false, false⟩ : ExtendedMantissa) >>> places) := by
  induction places with
  | zero =>
    show InUnit n 1 ⟨n, false, false⟩
    constructor <;> simp [Nat.mod_one]
  | succ places ih =>
    rw [Nat.pow_succ']
    exact ih.shiftRightOne (Nat.two_pow_pos places)

/-- What is left is rounded to the nearest count of the unit. -/
theorem InUnit.roundedMantissa {n unit : Nat} {extended : ExtendedMantissa} (positive : 0 < unit)
    (inUnit : InUnit n unit extended) : extended.roundedMantissa = divNearest n unit := by
  obtain ⟨mantissa, roundBit, stickyBit⟩ := extended
  obtain ⟨rfl, half, rest⟩ := inUnit
  have less := Nat.mod_lt n positive
  dsimp only at half rest
  rw [divNearest, ExtendedMantissa.roundedMantissa]
  cases roundBit <;> cases stickyBit <;>
    simp only [ExtendedMantissa.accuracy, Accuracy.roundToNearestEven, Bool.false_eq_true,
      false_iff, true_iff] at half rest ⊢ <;> split_ifs <;> omega

theorem shiftToTargetExponent_eq (n : Nat) {exponent : Int} (normal : -1000 ≤ exponent) :
    shiftToTargetExponent Format.binary64 n exponent .exact =
      ((⟨n, false, false⟩ : ExtendedMantissa) >>> surplus n, exponent + surplus n) := by
  have places : (Format.binary64.targetExponent (totalExponent n exponent) - exponent).toNat =
      surplus n := by
    simp only [Format.targetExponent, totalExponent, Format.minExponent, Format.mantissaBits,
      surplus]
    omega
  rw [shiftToTargetExponent, shiftToExponent, places]
  rfl

/-- A number with at least 53 digits is rounded to so many. -/
theorem roundWithAccuracy_eq (sign : Sign) {n : Nat} (least : 2 ^ 52 ≤ n) {exponent : Int}
    (normal : -1000 ≤ exponent) :
    ∃ (digits carry : Nat) (some : 0 < digits), 2 ^ 52 ≤ digits ∧ digits < 2 ^ 53 ∧ carry ≤ 1 ∧
      digits * 2 ^ carry = divNearest n (2 ^ surplus n) ∧
      roundWithAccuracy Format.binary64 sign n exponent .exact =
        .finite sign digits (exponent + surplus n + carry) some := by
  obtain ⟨lower, upper⟩ := divNearest_between least
  have rounded := (inUnit_shiftRight n (surplus n)).roundedMantissa (Nat.two_pow_pos _)
  generalize divNearest n (2 ^ surplus n) = count at lower upper rounded
  obtain ⟨least, short, whole, carry⟩ := normalized lower upper
  have some : 0 < count / 2 ^ surplus count := Nat.lt_of_lt_of_le (Nat.two_pow_pos 52) least
  refine ⟨count / 2 ^ surplus count, surplus count, some, least, short, carry, whole, ?_⟩
  have first := shiftToTargetExponent_eq n normal
  have second := shiftToTargetExponent_eq count (show -1000 ≤ exponent + surplus n by omega)
  have kept := (inUnit_shiftRight count (surplus count)).mantissa
  rw [roundWithAccuracy, first]
  simp only [rounded, second, kept]
  rw [dif_neg (Nat.pos_iff_ne_zero.mp some)]

/-- A double stands for zero, or for its digits at its place, with its sign. The places are
    counted from the one at which the last of 53 digits has the value of 2 ^ -52. -/
inductive StandsFor : UnpackedFloat → Int → Prop
  | zero (sign : Sign) : StandsFor (.zero sign) 0
  | finite (sign : Sign) {digits place magnitude : Nat} (some : 0 < digits)
      (least : 2 ^ 52 ≤ digits) (short : digits < 2 ^ 53) (bounded : place < 1024)
      (value : magnitude * 2 ^ 52 = digits * 2 ^ place) :
      StandsFor (.finite sign digits (place - 52) some) (sign.apply magnitude)

theorem round_eq (sign : Sign) (n : Nat) :
    UnpackedFloat.round Format.binary64 sign n 0 =
      roundWithAccuracy Format.binary64 sign (n * 2 ^ zeros n) (-(zeros n : Int)) .exact := by
  have places : (-Format.binary64.targetExponent (totalExponent n 0)).toNat = zeros n := by
    simp only [Format.targetExponent, totalExponent, Format.minExponent, Format.mantissaBits, zeros]
    omega
  simp only [UnpackedFloat.round, decreaseExponent, Int.zero_sub, places, Nat.shiftLeft_eq]

/-- The double of a natural number stands for the number that it is rounded to. -/
theorem standsFor_ofNat {n : Nat} (bounded : n < 2 ^ 64) :
    StandsFor (UnpackedFloat.ofNat Format.binary64 n) (nearest n) := by
  rcases Nat.eq_zero_or_pos n with rfl | positive
  · exact .zero .positive
  have sign : Ord.compare (n : Int) 0 = .gt := Int.compare_eq_gt.mpr (by omega)
  have rounded : UnpackedFloat.ofNat Format.binary64 n =
      UnpackedFloat.round Format.binary64 .positive n 0 := by
    simp only [UnpackedFloat.ofNat, UnpackedFloat.ofInt, UnpackedFloat.normalize, sign,
      Int.toNat_natCast]
  have places : zeros n ≤ 52 := Nat.sub_le 52 _
  have digits64 : n.log2 < 64 := (Nat.log2_lt (Nat.pos_iff_ne_zero.mp positive)).mpr bounded
  have few : surplus n ≤ 11 := by
    rw [surplus]
    omega
  obtain ⟨digits, carry, some, least, short, one, whole, result⟩ :=
    roundWithAccuracy_eq .positive (two_pow_le_padded positive)
      (show -1000 ≤ -(zeros n : Int) by omega)
  rw [surplus_padded positive] at whole result
  have exponent : -(zeros n : Int) + surplus n + carry =
      (52 - zeros n + surplus n + carry : Nat) - 52 := by omega
  have value : nearest n * 2 ^ 52 = digits * 2 ^ (52 - zeros n + surplus n + carry) := by
    calc nearest n * 2 ^ 52 = nearest n * 2 ^ zeros n * 2 ^ (52 - zeros n) := by
          rw [Nat.mul_assoc, ← Nat.pow_add, Nat.add_sub_cancel' places]
      _ = digits * 2 ^ carry * 2 ^ surplus n * 2 ^ (52 - zeros n) := by
          rw [← nearest_padded positive, nearest, surplus_padded positive, whole]
      _ = digits * 2 ^ (52 - zeros n + surplus n + carry) := by
          rw [Nat.pow_add, Nat.pow_add]
          ring
  rw [rounded, round_eq, result, exponent]
  exact .finite .positive some least short (by omega) value

theorem unpackSign_packComponents {format : Format} {sign : Sign}
    {exponent : BitVec format.exponentBits}
    {mantissa : BitVec format.mantissaBitsWithoutImplicit} :
    unpackSign (packComponents format sign exponent mantissa) = sign.toBitVec := by
  ext i hi
  have mantissa : ¬ format.mantissaBitsWithoutImplicit + format.exponentBits + i <
      format.mantissaBitsWithoutImplicit := by omega
  have exponent : ¬ format.mantissaBitsWithoutImplicit + format.exponentBits + i -
      format.mantissaBitsWithoutImplicit < format.exponentBits := by omega
  have last : format.mantissaBitsWithoutImplicit + format.exponentBits + i -
      format.mantissaBitsWithoutImplicit - format.exponentBits = i := by omega
  simp [unpackSign, packComponents, BitVec.getLsbD_append, mantissa, exponent, last,
    BitVec.getLsbD_eq_getElem, hi]

theorem ofBitVec_toBitVec (sign : Sign) : Sign.ofBitVec sign.toBitVec = sign := by
  cases sign <;> rfl

theorem StandsFor.neg {x : UnpackedFloat} {value : Int} (stands : StandsFor x value) :
    StandsFor x.neg (-value) := by
  cases stands with
  | zero sign => exact .zero _
  | finite sign some least short bounded value =>
    cases sign with
    | positive => exact .finite .negative some least short bounded value
    | negative =>
      rw [Sign.apply, Int.neg_neg]
      exact .finite .positive some least short bounded value

section Bits

variable {digits place : Nat} (least : 2 ^ 52 ≤ digits) (short : digits < 2 ^ 53)

include least short

/-- The first of the digits is left out of the bits. -/
theorem pack_finite (sign : Sign) (some : 0 < digits) (bounded : place < 1024) :
    UnpackedFloat.pack Format.binary64 (.finite sign digits (place - 52) some) =
      packComponents Format.binary64 sign (BitVec.ofNat 11 (place + 1023))
        (BitVec.ofNat 52 digits) := by
  have log : digits.log2 = 52 :=
    (Nat.log2_eq_iff (Nat.pos_iff_ne_zero.mp some)).mpr ⟨least, short⟩
  have biased : ((place : Int) - 52 + Format.binary64.exponentBias +
      Format.binary64.mantissaBitsWithoutImplicit).toNat = place + 1023 := by
    simp only [Format.exponentBias]
    omega
  simp only [UnpackedFloat.pack, biased, log]
  rw [if_neg (by omega), if_pos (by rfl)]

theorem toNat_one_append : (1#1 ++ BitVec.ofNat 52 digits).toNat = digits := by
  rw [BitVec.toNat_append, ← Nat.shiftLeft_add_eq_or_of_lt (BitVec.isLt _), Nat.shiftLeft_eq,
    BitVec.toNat_ofNat, BitVec.toNat_ofNat, Nat.mod_eq_sub_mod least,
    Nat.mod_eq_of_lt (show digits - 2 ^ 52 < 2 ^ 52 by omega)]
  exact Nat.add_sub_cancel' least

end Bits

/-- A double that stands for a number is kept by its 64 bits. -/
theorem StandsFor.unpack_pack {x : UnpackedFloat} {value : Int} (stands : StandsFor x value) :
    UnpackedFloat.unpack Format.binary64 (UnpackedFloat.pack Format.binary64 x) = x := by
  cases stands with
  | zero sign => cases sign <;> rfl
  | @finite sign digits place magnitude some least short bounded value =>
    rw [pack_finite least short sign some bounded, UnpackedFloat.unpack]
    simp only [unpackMantissa_packComponents, unpackExponent_packComponents,
      unpackSign_packComponents, ofBitVec_toBitVec]
    -- The exponent is neither that of the infinite ones nor that of the smallest ones.
    have exponent : (BitVec.ofNat 11 (place + 1023)).toNat = place + 1023 := by
      rw [BitVec.toNat_ofNat, Nat.mod_eq_of_lt (by omega)]
    have finite : BitVec.ofNat 11 (place + 1023) ≠ -1#11 := by
      intro same
      rw [same] at exponent
      exact absurd exponent (by simp; omega)
    have normal : BitVec.ofNat 11 (place + 1023) ≠ 0#11 := by
      intro same
      rw [same] at exponent
      exact absurd exponent (by simp)
    rw [if_neg finite, if_neg normal]
    simp only [toNat_one_append least short, exponent, UnpackedFloat.finite.injEq, true_and,
      Format.exponentBias]
    omega

section Magnitudes

variable {digits others place elsewhere magnitude another : Nat}

theorem magnitude_pos (least : 2 ^ 52 ≤ digits)
    (value : magnitude * 2 ^ 52 = digits * 2 ^ place) : 0 < magnitude := by
  have positive : 0 < digits * 2 ^ place :=
    Nat.mul_pos (Nat.lt_of_lt_of_le (Nat.two_pow_pos 52) least) (Nat.two_pow_pos place)
  omega

/-- Of numbers with equally many digits the one at the lower place is less. -/
theorem magnitude_lt (short : digits < 2 ^ 53) (least : 2 ^ 52 ≤ others)
    (value : magnitude * 2 ^ 52 = digits * 2 ^ place)
    (other : another * 2 ^ 52 = others * 2 ^ elsewhere)
    (lower : place < elsewhere ∨ place = elsewhere ∧ digits < others) : magnitude < another := by
  refine Nat.lt_of_mul_lt_mul_right (a := 2 ^ 52) ?_
  rw [value, other]
  rcases lower with earlier | ⟨rfl, less⟩
  · calc digits * 2 ^ place < 2 ^ 53 * 2 ^ place :=
          Nat.mul_lt_mul_of_pos_right short (Nat.two_pow_pos place)
      _ = 2 ^ 52 * 2 ^ (place + 1) := by ring
      _ ≤ others * 2 ^ elsewhere :=
          Nat.mul_le_mul least (Nat.pow_le_pow_right Nat.two_pos earlier)
  · exact Nat.mul_lt_mul_of_pos_right less (Nat.two_pow_pos place)

/-- Numbers with equally many digits are compared by their places, and at one place by
    their digits. -/
theorem compare_magnitudes (least : 2 ^ 52 ≤ digits) (short : digits < 2 ^ 53)
    (leastOther : 2 ^ 52 ≤ others) (shortOther : others < 2 ^ 53)
    (value : magnitude * 2 ^ 52 = digits * 2 ^ place)
    (other : another * 2 ^ 52 = others * 2 ^ elsewhere) :
    (Ord.compare ((place : Int) - 52) (elsewhere - 52)).then (Ord.compare digits others) =
      Ord.compare (magnitude : Int) another := by
  have less := magnitude_lt short leastOther value other
  have greater := magnitude_lt shortOther least other value
  rcases Nat.lt_trichotomy place elsewhere with earlier | rfl | later
  · have lower := less (.inl earlier)
    rw [Int.compare_eq_lt.mpr (by omega), Int.compare_eq_lt.mpr (by omega)]
    rfl
  · rw [Int.compare_eq_eq.mpr rfl]
    rcases Nat.lt_trichotomy digits others with fewer | rfl | more
    · have lower := less (.inr ⟨rfl, fewer⟩)
      rw [Nat.compare_eq_lt.mpr fewer, Int.compare_eq_lt.mpr (by omega)]
      rfl
    · rw [Nat.compare_eq_eq.mpr rfl, Int.compare_eq_eq.mpr (by omega)]
      rfl
    · have higher := greater (.inr ⟨rfl, more⟩)
      rw [Nat.compare_eq_gt.mpr more, Int.compare_eq_gt.mpr (by omega)]
      rfl
  · have higher := greater (.inl later)
    rw [Int.compare_eq_gt.mpr (by omega), Int.compare_eq_gt.mpr (by omega)]
    rfl

end Magnitudes

theorem compare_neg (a b : Int) : Ord.compare (-a) (-b) = (Ord.compare a b).swap := by
  rw [Int.compare_swap, Int.compare_eq_ite_lt, Int.compare_eq_ite_lt]
  simp

/-- Doubles are compared by the numbers that they stand for. -/
theorem StandsFor.compare {x y : UnpackedFloat} {value other : Int} (stands : StandsFor x value)
    (standsOther : StandsFor y other) : x.compare y = some (Ord.compare value other) := by
  have less {a b : Int} (lower : a < b) : some Ordering.lt = some (Ord.compare a b) := by
    rw [Int.compare_eq_lt.mpr lower]
  have greater {a b : Int} (higher : b < a) : some Ordering.gt = some (Ord.compare a b) := by
    rw [Int.compare_eq_gt.mpr higher]
  cases stands with
  | zero sign =>
    cases standsOther with
    | zero sign => rfl
    | finite sign _ least _ _ value =>
      have positive := magnitude_pos least value
      cases sign with
      | positive => exact less (Int.natCast_pos.mpr positive)
      | negative => exact greater (Int.neg_neg_of_pos (Int.natCast_pos.mpr positive))
  | finite sign _ least short _ value =>
    have positive := magnitude_pos least value
    cases standsOther with
    | zero _ =>
      cases sign with
      | positive => exact greater (Int.natCast_pos.mpr positive)
      | negative => exact less (Int.neg_neg_of_pos (Int.natCast_pos.mpr positive))
    | finite signOther _ leastOther shortOther _ other =>
      have positiveOther := magnitude_pos leastOther other
      have order := compare_magnitudes least short leastOther shortOther value other
      cases sign <;> cases signOther <;> simp only [Sign.apply]
      · rw [compare_neg, ← order]
        rfl
      · exact less (by omega)
      · exact greater (by omega)
      · exact congrArg Option.some order

theorem lt_iff_compare {x y : Float} :
    x < y ↔ x.toModel.unpack.compare y.toModel.unpack = some .lt := by
  show decide (Float.Model.lt x.toModel y.toModel = true) = true ↔ _
  rw [decide_eq_true_iff, Float.Model.lt, UnpackedFloat.lt, beq_iff_eq]

theorem beq_iff_compare {x y : Float} :
    (x == y) = true ↔ x.toModel.unpack.compare y.toModel.unpack = some .eq := by
  show (Float.Model.beq x.toModel y.toModel) = true ↔ _
  rw [Float.Model.beq, UnpackedFloat.beq, beq_iff_eq]

theorem compareFloats_eq {x y : Float} {value other : Int}
    (stands : StandsFor x.toModel.unpack value) (standsOther : StandsFor y.toModel.unpack other) :
    compareFloats x y = some (Ord.compare value other) := by
  have order := stands.compare standsOther
  have reverse := standsOther.compare stands
  rw [compareFloats]
  rcases Int.lt_trichotomy value other with less | rfl | greater
  · rw [Int.compare_eq_lt.mpr less] at order ⊢
    rw [if_pos (lt_iff_compare.mpr order)]
  · rw [Int.compare_eq_eq.mpr rfl] at order ⊢
    rw [if_neg (by simp [lt_iff_compare, order]), if_pos (beq_iff_compare.mpr order)]
  · rw [Int.compare_eq_gt.mpr greater] at order ⊢
    rw [Int.compare_eq_lt.mpr greater] at reverse
    rw [if_neg (by simp [lt_iff_compare, order]), if_neg (by simp [beq_iff_compare, order]),
      if_pos (lt_iff_compare.mpr reverse)]

theorem standsFor_toFloat (n : UInt64) : StandsFor n.toFloat.toModel.unpack (nearest n.toNat) := by
  have stands := standsFor_ofNat n.toNat_lt
  rw [← stands.unpack_pack] at stands
  exact stands

theorem standsFor_neg {x : Float} {value : Int} (stands : StandsFor x.toModel.unpack value) :
    StandsFor (-x).toModel.unpack (-value) := by
  have negated := stands.neg
  rw [← negated.unpack_pack] at negated
  exact negated

end DynamicSql
