/-!
# The shortest decimal of a double

A double stands for every real number that rounds to it. Among the decimals in
that interval the shortest is the one with the fewest digits, and of several
with equally many the nearest to the double. The interval and the decimals are
compared exactly, as natural numbers over a common denominator.
-/

namespace DynamicSql

/-- The decimal `d.ddd · 10 ^ exponent` with the given digits. -/
structure Decimal where
  digits : List Char
  exponent : Int
  deriving DecidableEq, Repr

/-- A positive double in units of a quarter of its last place: the double is
    `value · 2 ^ exponent`, and the numbers between `low` and `high` round to it. -/
structure RoundingInterval where
  low : Nat
  value : Nat
  high : Nat
  exponent : Int
  /-- Whether the ends of the interval round to the double as well. -/
  closed : Bool
  deriving DecidableEq, Repr

namespace RoundingInterval

/-- The interval of the positive double with the given bits. Below a power of
    two the doubles lie twice as close as above it. -/
def ofBits (bits : UInt64) : RoundingInterval :=
  let field : Nat := (bits >>> 52).toNat % Nat.pow 2 11
  let fraction : Nat := bits.toNat % Nat.pow 2 52
  let mantissa : Nat := if field = 0 then fraction else Nat.pow 2 52 + fraction
  let exponent : Int := if field = 0 then -1074 else (field : Int) - 1075
  { low := if fraction = 0 ∧ 1 < field then 4 * mantissa - 1 else 4 * mantissa - 2
    value := 4 * mantissa
    high := 4 * mantissa + 2
    exponent := exponent - 2
    closed := mantissa % 2 = 0 }

/-- `count · 2 ^ exponent` over the unit `10 ^ place`, as a numerator of the
    denominator `denominator place`. -/
def scaled (r : RoundingInterval) (place : Int) (count : Nat) : Nat :=
  count * Nat.pow 2 r.exponent.toNat * Nat.pow 10 (-place).toNat

/-- The common denominator of the counts over the unit `10 ^ place`. -/
def denominator (r : RoundingInterval) (place : Int) : Nat :=
  Nat.pow 2 (-r.exponent).toNat * Nat.pow 10 place.toNat

/-- `count · 10 ^ place` lies in the interval. -/
def contains (r : RoundingInterval) (place : Int) (count : Nat) : Bool :=
  let low := r.scaled place r.low
  let high := r.scaled place r.high
  let here := count * r.denominator place
  if r.closed then low ≤ here && here ≤ high else low < here && here < high

/-- The multiple of `10 ^ place` nearest to the double of those that lie in the
    interval, the even one of two equally near. -/
def nearest? (r : RoundingInterval) (place : Int) : Option Nat :=
  let value := r.scaled place r.value
  let below := value / r.denominator place
  let twiceRest := 2 * (value % r.denominator place)
  match r.contains place below, r.contains place (below + 1) with
  | false, false => none
  | true, false => some below
  | false, true => some (below + 1)
  | true, true =>
    if twiceRest < r.denominator place then some below
    else if r.denominator place < twiceRest then some (below + 1)
    else if below % 2 = 0 then some below
    else some (below + 1)

/-- The place of the first digit of the double. Scaled by `10 ^ 400` every
    double is above one, so that the count of digits gives the place. -/
def leadingPlace (r : RoundingInterval) : Int :=
  let whole := r.scaled (-400) r.value / r.denominator (-400)
  ((Nat.toDigits 10 whole).length : Int) - 401

/-- The place and the count of the shortest decimal; seventeen digits always
    reach into the interval. -/
def shortest (r : RoundingInterval) : Nat × Int :=
  let attempt (digits : Nat) : Option (Nat × Int) :=
    let place := r.leadingPlace - digits + 1
    (r.nearest? place).map (·, place)
  ((List.range' 1 17).findSome? attempt).getD (r.value, r.exponent)

end RoundingInterval

/-- The decimal `count · 10 ^ place` without zeros at the end of its digits. -/
def Decimal.ofCount (count : Nat) (place : Int) : Decimal :=
  let digits := Nat.toDigits 10 count
  { digits := (digits.reverse.dropWhile (· == '0')).reverse
    exponent := place + digits.length - 1 }

/-- The shortest decimal of the positive double with the given bits. -/
def Decimal.ofBits (bits : UInt64) : Decimal :=
  let (count, place) := (RoundingInterval.ofBits bits).shortest
  Decimal.ofCount count place

end DynamicSql
