import DynamicSql.Decimal.Shortest

/-!
# Writing decimals

A decimal is written positionally if its exponent is moderate and with an
exponent otherwise. Which exponents are moderate is a matter of the format.
-/

namespace DynamicSql

/-- The exponents of the decimals that are written positionally. -/
structure DecimalLayout where
  lowest : Int
  highest : Int
  deriving DecidableEq, Repr

namespace DecimalLayout

/-- Digits with a point after the digit of `10 ^ 0`; a whole number keeps one
    zero after the point. -/
def positional (d : Decimal) : List Char :=
  if d.exponent < 0 then
    '0' :: '.' :: (List.replicate ((-d.exponent).toNat - 1) '0' ++ d.digits)
  else
    let whole := d.exponent.toNat + 1
    let fraction := d.digits.drop whole
    d.digits.take whole ++ List.replicate (whole - d.digits.length) '0' ++
      '.' :: (if fraction.isEmpty then ['0'] else fraction)

/-- One digit, the others after a point, and the exponent with its sign. -/
def scientific (d : Decimal) : List Char :=
  let sign := if d.exponent < 0 then '-' else '+'
  let rest := d.digits.drop 1
  d.digits.take 1 ++ (if rest.isEmpty then [] else '.' :: rest) ++
    'e' :: sign :: Nat.toDigits 10 d.exponent.natAbs

/-- A decimal in the given format. -/
def write (layout : DecimalLayout) (d : Decimal) : List Char :=
  if layout.lowest ≤ d.exponent ∧ d.exponent ≤ layout.highest then positional d
  else scientific d

/-- A finite double in the given format: its sign, also that of zero, and its
    shortest decimal. -/
def writeFloat (layout : DecimalLayout) (x : Float) : List Char :=
  let bits := x.toBits
  let magnitude := bits % 0x8000000000000000
  let text := if magnitude = 0 then ['0', '.', '0'] else layout.write (.ofBits magnitude)
  if bits < 0x8000000000000000 then text else '-' :: text

end DecimalLayout

end DynamicSql
