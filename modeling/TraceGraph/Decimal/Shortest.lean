import TraceGraph.Decimal.Binary64

/-!
# The shortest decimal of a double

The reals that round to a double `v = m · 2 ^ e` form an interval around it: half a unit above, and
half a unit below, or a quarter where the doubles get denser.  The ends belong to it when `m` is
even, since a tie goes to the even mantissa.  `shortest` finds the decimal with the fewest digits in
that interval and, of those, the one nearest to `v`.

Everything is done on naturals.  In quarters of a unit the value is `4 m` and the ends are
`4 m - 2` (or `4 m - 1`) and `4 m + 2`, so a comparison with `d · 10 ^ p` is one between two products.
-/

namespace TraceGraph.Decimal

/-- A decimal `significand · 10 ^ exponent`. -/
structure Scientific where
  significand : Nat
  exponent : Int
deriving DecidableEq, Repr

/-- The number of decimal digits of a natural number; `0` has one. -/
def digitCount (n : Nat) : Nat := (Nat.toDigits 10 n).length

/-- The `p` with `10 ^ (p - 1) ≤ num / den < 10 ^ p`, for a positive quotient. -/
def magnitude (num den : Nat) : Int :=
  if den ≤ num then digitCount (num / den)
  else 1 - (digitCount ((den + num - 1) / num - 1) : Int)

/-- The rounding interval of a double in quarters of its unit, which is `num / den`. -/
structure Interval where
  value : Nat
  low : Nat
  high : Nat
  closed : Bool
  num : Nat
  den : Nat
deriving DecidableEq, Repr

/-- The interval of `mantissa · 2 ^ exponent`.  Below the first mantissa of a binade the doubles are
twice as dense, except at the bottom, where the spacing is the same on both sides. -/
def Interval.around (mantissa : Nat) (exponent : Int) : Interval :=
  let denser := mantissa == Nat.pow 2 52 && decide (-1074 < exponent)
  { value := 4 * mantissa
    low := 4 * mantissa - if denser then 1 else 2
    high := 4 * mantissa + 2
    closed := mantissa % 2 == 0
    num := Nat.pow 2 (exponent - 2).toNat
    den := Nat.pow 2 (2 - exponent).toNat }

namespace Interval

/-- The interval measured on the grid of the multiples of `10 ^ p`: what one quarter and one grid
step come to in a common unit. -/
def scale (i : Interval) (p : Int) : Nat × Nat :=
  (i.num * Nat.pow 10 (-p).toNat, i.den * Nat.pow 10 p.toNat)

/-- Does `d · 10 ^ p` lie in the interval? -/
def holds (i : Interval) (p : Int) (d : Nat) : Bool :=
  let (quarter, step) := i.scale p
  if i.closed then i.low * quarter ≤ d * step && d * step ≤ i.high * quarter
  else i.low * quarter < d * step && d * step < i.high * quarter

/-- The point of the grid of `10 ^ p` in the interval that is nearest to its value, if there is one.
Only the two neighbours of the value can be; of two at the same distance the even one is taken. -/
def nearest? (i : Interval) (p : Int) : Option Nat :=
  let (quarter, step) := i.scale p
  let below := i.value * quarter / step
  match i.holds p below, i.holds p (below + 1) with
  | true, false => some below
  | false, true => some (below + 1)
  | false, false => none
  | true, true =>
    let down := i.value * quarter - below * step
    let up := (below + 1) * step - i.value * quarter
    if down < up || (down == up && below % 2 == 0) then some below else some (below + 1)

end Interval

/-- The shortest decimal of the positive double `mantissa · 2 ^ exponent`: grids of one, two, … digits
are tried in turn, and seventeen always suffice. -/
def shortest (mantissa : Nat) (exponent : Int) : Scientific :=
  let i := Interval.around mantissa exponent
  let top := magnitude (i.value * i.num) i.den
  let found := (List.range 17).findSome? fun k =>
    let p := top - (k + 1 : Nat)
    (i.nearest? p).map fun d => { significand := d, exponent := p : Scientific }
  found.getD { significand := i.value * i.num / i.den, exponent := 0 }

end TraceGraph.Decimal
