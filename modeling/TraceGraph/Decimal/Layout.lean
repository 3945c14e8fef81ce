import TraceGraph.Decimal.Shortest

/-!
# Laying out a number

Which digits a double is written with is decided by `shortest`; how they are laid out is decided by a
`Layout`: from which size on an exponent is written, how many digits the exponent has at least, and
the words for what is not finite.  `Layout.text` puts the two together.
-/

namespace TraceGraph.Decimal

/-- The choices of a number format. -/
structure Layout where
  /-- The exponents of the first digit, from `least` to `greatest`, that are written positionally. -/
  least : Int
  greatest : Int
  /-- An exponent is padded to this many digits. -/
  exponentWidth : Nat
  infinity : String
  nan : String
deriving DecidableEq, Repr

namespace Layout

/-- `n` zeros. -/
def zeros (n : Nat) : List Char := List.replicate n '0'

/-- The digits of a positional decimal; `point` of them stand before the point.  There is always a
digit on both sides of it. -/
def positional (digits : List Char) (point : Int) : List Char :=
  if point ≤ 0 then '0' :: '.' :: (zeros (-point).toNat ++ digits)
  else
    let whole := point.toNat
    if digits.length ≤ whole then digits ++ zeros (whole - digits.length) ++ ['.', '0']
    else digits.take whole ++ '.' :: digits.drop whole

/-- One digit before the point, and a signed exponent; a single digit has no point. -/
def scientific (layout : Layout) (digits : List Char) (exponent : Int) : List Char :=
  let fraction := match digits.drop 1 with
    | [] => []
    | rest => '.' :: rest
  let size := Nat.toDigits 10 exponent.natAbs
  digits.take 1 ++ fraction ++ 'e' :: (if exponent < 0 then '-' else '+') ::
    (zeros (layout.exponentWidth - size.length) ++ size)

/-- The digits of a natural number without the zeros at its end. -/
def significantDigits (n : Nat) : List Char :=
  ((Nat.toDigits 10 n).reverse.dropWhile (· == '0')).reverse

/-- A positive decimal, laid out. -/
def decimal (layout : Layout) (d : Scientific) : List Char :=
  let digits := significantDigits d.significand
  let point := d.exponent + digitCount d.significand
  if layout.least ≤ point - 1 ∧ point - 1 ≤ layout.greatest then positional digits point
  else layout.scientific digits (point - 1)

/-- The text of a double taken apart. -/
def parts (layout : Layout) : Binary64 → String
  | .nan => layout.nan
  | .infinite negative => (if negative then "-" else "") ++ layout.infinity
  | .finite negative mantissa exponent =>
    (if negative then "-" else "") ++
      if mantissa = 0 then "0.0" else String.ofList (layout.decimal (shortest mantissa exponent))

/-- The text of a double. -/
def text (layout : Layout) (x : Float) : String := layout.parts (Binary64.ofFloat x)

end Layout

/-- Numbers are written with the fewest digits that identify them, positionally from `0.0001` up to
sixteen digits before the point, and otherwise with a signed exponent of two digits or more. -/
def plain : Layout :=
  { least := -4, greatest := 15, exponentWidth := 2, infinity := "inf", nan := "nan" }

/-- The text of a double in the plain layout. -/
def text (x : Float) : String := plain.text x

end TraceGraph.Decimal
