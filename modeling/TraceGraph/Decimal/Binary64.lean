/-!
# The parts of a double

A double is not a number, an infinity, or `± mantissa · 2 ^ exponent`.  `Binary64.ofFloat` reads the
three cases off the bits, and everything that is exact about a double is computed from them: the
integer it equals, if it equals one, and its shortest decimal (`Decimal/Shortest.lean`).
-/

namespace TraceGraph.Decimal

/-- A double taken apart.  The mantissa is below `2 ^ 53`, and the exponent is at least `-1074`. -/
inductive Binary64 where
  | nan
  | infinite (negative : Bool)
  | finite (negative : Bool) (mantissa : Nat) (exponent : Int)
deriving DecidableEq, Repr

namespace Binary64

/-- The parts that the 64 bits of a double stand for: a sign bit, eleven bits of exponent and
fifty-two bits of fraction. -/
def ofBits (bits : Nat) : Binary64 :=
  let negative := bits / Nat.pow 2 63 == 1
  let field : Nat := bits / Nat.pow 2 52 % Nat.pow 2 11
  let fraction : Nat := bits % Nat.pow 2 52
  if field = 2047 then
    if fraction = 0 then .infinite negative else .nan
  else if field = 0 then .finite negative fraction (-1074)
  else .finite negative (Nat.pow 2 52 + fraction) ((field : Int) - 1075)

/-- The parts of a double. -/
def ofFloat (x : Float) : Binary64 := ofBits x.toBits.toNat

/-- The integer that the parts amount to, if they amount to one. -/
def toInt? : Binary64 → Option Int
  | .finite negative mantissa exponent =>
    let size :=
      if 0 ≤ exponent then some (mantissa * Nat.pow 2 exponent.toNat)
      else if mantissa % Nat.pow 2 (-exponent).toNat = 0 then some (mantissa / Nat.pow 2 (-exponent).toNat)
      else none
    size.map fun n => if negative then -(n : Int) else n
  | _ => none

end Binary64

/-- The double nearest to an integer, a tie going to the even mantissa.  An integer beyond the
doubles has none. -/
def ofInt? (n : Int) : Option Float :=
  let x := Float.ofInt n
  if x.isFinite then some x else none

end TraceGraph.Decimal
