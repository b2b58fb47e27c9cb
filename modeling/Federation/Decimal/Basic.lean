/-!
Decimal numbers as they are written.

* `Decimal`: a sign, digits and a power of ten. The sign of zero is kept.
* `Decimal.render`: positional with at least one decimal where the point falls among the digits or
  near them, and with an exponent otherwise.
* `Decimal.toFloat`: the nearest floating point number.
-/

namespace Federation

/-- The number `± digits * 10 ^ exponent`. -/
structure Decimal where
  negative : Bool
  digits : Nat
  exponent : Int
deriving DecidableEq

namespace Decimal

/-- The digits of a number without its sign. The point stands after `point` digits, which may lie
before the first or behind the last digit; up to 16 places before the point and up to five behind it
are written out. -/
def renderDigits (ds : List Char) (point : Int) : List Char :=
  let n : Int := ds.length
  if 0 < point ∧ point ≤ 16 then
    if n ≤ point then ds ++ List.replicate (point - n).toNat '0' ++ ['.', '0']
    else ds.take point.toNat ++ '.' :: ds.drop point.toNat
  else if -5 < point ∧ point ≤ 0 then
    ['0', '.'] ++ List.replicate (-point).toNat '0' ++ ds
  else
    ds.take 1 ++ (if ds.length = 1 then [] else '.' :: ds.drop 1) ++
      'e' :: (toString (point - 1)).toList

/-- The text of a decimal number. -/
def render (d : Decimal) : List Char :=
  let ds := Nat.toDigits 10 d.digits
  (if d.negative then ['-'] else []) ++
    if d.digits = 0 then ['0', '.', '0'] else renderDigits ds (ds.length + d.exponent)

/-- The floating point number nearest to a decimal number. -/
def toFloat (d : Decimal) : Float :=
  let x := if 0 ≤ d.exponent then Float.ofScientific d.digits false d.exponent.toNat
    else Float.ofScientific d.digits true (-d.exponent).toNat
  if d.negative then -x else x

end Decimal

end Federation
