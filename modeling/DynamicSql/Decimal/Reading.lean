/-!
# Reading decimals

A decimal literal has a sign, digits with at most one point among them, and an
exponent; all but one digit may be left out. Infinity and the undefined number
have names, in any case. The double of a literal is the nearest one.
-/

namespace DynamicSql.Decimal

/-- The double nearest to `mantissa · 10 ^ exponent`. Far outside the range of
    doubles the answer is known from the count of digits alone. -/
def nearestFloat (mantissa : Nat) (exponent : Int) : Float :=
  let leading := exponent + (Nat.toDigits 10 mantissa).length
  if mantissa = 0 ∨ leading < -330 then 0.0
  else if 310 < leading then 1.0 / 0.0
  else Float.ofScientific mantissa (exponent < 0) exponent.natAbs

/-- The exponent after the letter `e`, zero if there is none. -/
def readExponent? : List Char → Option Int
  | [] => some 0
  | c :: rest =>
    let digits? (cs : List Char) : Option Int :=
      if cs.isEmpty || ! cs.all Char.isDigit then none
      else some (Nat.ofDigitChars 10 cs 0)
    if c == 'e' || c == 'E' then
      match rest with
      | '-' :: digits => (digits? digits).map (- ·)
      | '+' :: digits => digits? digits
      | digits => digits? digits
    else none

/-- The double of a literal without a sign. -/
def readUnsigned? (cs : List Char) : Option Float :=
  let whole := cs.takeWhile Char.isDigit
  let afterWhole := cs.dropWhile Char.isDigit
  let (fraction, rest) := match afterWhole with
    | '.' :: tail => (tail.takeWhile Char.isDigit, tail.dropWhile Char.isDigit)
    | tail => ([], tail)
  if whole.isEmpty && fraction.isEmpty then none
  else
    (readExponent? rest).map fun exponent =>
      nearestFloat (Nat.ofDigitChars 10 (whole ++ fraction) 0) (exponent - fraction.length)

/-- The double that a literal or a name stands for. -/
def readMagnitude? (cs : List Char) : Option Float :=
  let name := cs.map Char.toLower
  if name = ['i', 'n', 'f'] ∨ name = ['i', 'n', 'f', 'i', 'n', 'i', 't', 'y'] then
    some (1.0 / 0.0)
  else if name = ['n', 'a', 'n'] then some (0.0 / 0.0)
  else readUnsigned? cs

/-- The double of a decimal literal with an optional sign. -/
def readFloat? : List Char → Option Float
  | '-' :: rest => (readMagnitude? rest).map (- ·)
  | '+' :: rest => readMagnitude? rest
  | cs => readMagnitude? cs

end DynamicSql.Decimal
