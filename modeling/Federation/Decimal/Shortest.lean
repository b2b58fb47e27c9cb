import Federation.Decimal.Basic

/-!
The shortest decimal number that denotes a floating point number.

* `Decimal.ofFloat`: the number with the fewest digits among those that are nearer to a floating
  point number than to its neighbours, and of these the nearest one.

A finite number is `m * 2 ^ q`. The reals that round to it form an interval whose ends lie half way
to the neighbours; they belong to it if `m` is even. For one digit, two digits and so on up to
seventeen the number's two neighbours on the grid of such decimals are tried; if any point of the
grid lies in the interval, so does one of these two. All quantities are scaled to natural numbers.
-/

namespace Federation.Decimal

/-- The value of the leading binary digit that a number of normal size does not store, which is also
the number of fractions with the same exponent. -/
def implicitBit : Nat := 1 <<< 52

/-- The interval of reals that round to a number, and the number, all scaled by the same factor. It
is closed if its ends round to the number, too. -/
structure Rounding where
  low : Nat
  value : Nat
  high : Nat
  closed : Bool

namespace Rounding

/-- Whether a scaled number rounds to the number. -/
def accepts (r : Rounding) (x : Nat) : Bool :=
  if r.closed then r.low ≤ x && x ≤ r.high else r.low < x && x < r.high

/-- The interval of the number with the given bits below the sign. The factor is
`2 ^ 1076 * 10 ^ 345`. -/
def ofBits (bits : Nat) : Rounding :=
  let fraction := bits % implicitBit
  let biased := bits / implicitBit
  let m := if biased = 0 then fraction else implicitBit + fraction
  let shift := biased - 1
  -- the gap below a power of two is half the gap above it
  let below := if fraction = 0 ∧ 1 < biased then 1 else 2
  let scale := (Nat.pow 10 345) <<< shift
  ⟨(4 * m - below) * scale, 4 * m * scale, (4 * m + 2) * scale, m % 2 == 0⟩

/-- The number `10 ^ (k - 345)`, scaled. -/
def unit (k : Nat) : Nat := (Nat.pow 10 k) <<< 1076

/-- The point of the grid with distance `10 ^ (k - 345)` that rounds to the number and is nearest
to it, counted in units. -/
def gridPoint? (r : Rounding) (k : Nat) : Option Nat :=
  let u := unit k
  let c := r.value / u
  let down := r.accepts (c * u)
  let up := r.accepts ((c + 1) * u)
  if down && (!up || r.value - c * u ≤ (c + 1) * u - r.value) then some c
  else if up then some (c + 1)
  else none

end Rounding

/-- Digits without zeros at the end, which go into the exponent. -/
def normalize (digits : Nat) (exponent : Int) : Nat × Int :=
  if h : digits ≠ 0 ∧ digits % 10 = 0 then normalize (digits / 10) (exponent + 1)
  else (digits, exponent)
termination_by digits
decreasing_by exact Nat.div_lt_self (Nat.pos_of_ne_zero h.1) (by decide)

/-- The shortest decimal number that denotes `x`; `0` if `x` is not finite. -/
def ofFloat (x : Float) : Decimal :=
  let bits := x.toBits.toNat
  let negative := decide (2048 * implicitBit ≤ bits)
  let bits := bits % (2048 * implicitBit)
  if bits = 0 ∨ 2047 * implicitBit ≤ bits then ⟨negative, 0, 0⟩
  else
    let r := Rounding.ofBits bits
    -- the largest power of ten that does not exceed the number
    let top := (Nat.toDigits 10 (r.value >>> 1076)).length - 1
    let hits := (List.range 17).filterMap fun n =>
      (r.gridPoint? (top - n)).map fun c => (c, top - n)
    match hits with
    | (c, k) :: _ =>
      let (digits, exponent) := normalize c ((k : Int) - 345)
      ⟨negative, digits, exponent⟩
    | [] => ⟨negative, 0, 0⟩

end Federation.Decimal
