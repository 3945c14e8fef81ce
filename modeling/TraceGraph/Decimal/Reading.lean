import TraceGraph.Decimal.Shortest

/-!
# Reading decimals

`Scientific.toFloat` is the double nearest to a decimal.  Decimals far outside the doubles are settled
by their size, so that a long exponent costs nothing.  `read?` reads the texts that
`Decimal/Layout.lean` writes.
-/

namespace TraceGraph.Decimal

/-- The double nearest to `significand · 10 ^ exponent`. -/
def Scientific.toFloat (d : Scientific) : Float :=
  let size := d.exponent + digitCount d.significand
  if d.significand = 0 ∨ size < -330 then 0.0
  else if 310 < size then 1.0 / 0.0
  else Float.ofScientific d.significand (d.exponent < 0) d.exponent.natAbs

/-- The value of a digit in a base up to sixteen. -/
def digitValue? (base : Nat) (c : Char) : Option Nat :=
  let n :=
    if '0' ≤ c ∧ c ≤ '9' then c.toNat - '0'.toNat
    else if 'a' ≤ c ∧ c ≤ 'f' then c.toNat - 'a'.toNat + 10
    else if 'A' ≤ c ∧ c ≤ 'F' then c.toNat - 'A'.toNat + 10
    else base
  if n < base then some n else none

/-- Is the character a digit in this base? -/
def isDigit (base : Nat) (c : Char) : Bool := (digitValue? base c).isSome

/-- The number that the digits of a text spell in a base; other characters are passed over. -/
def ofDigits (base : Nat) (digits : List Char) : Nat :=
  digits.foldl (fun n c => ((digitValue? base c).map (n * base + ·)).getD n) 0

/-- The exponent at the end of a decimal: `e`, an optional sign and digits. -/
def readExponent? : List Char → Option Int
  | [] => some 0
  | e :: rest =>
    if e = 'e' ∨ e = 'E' then
      let (negative, digits) := match rest with
        | '-' :: ds => (true, ds)
        | '+' :: ds => (false, ds)
        | ds => (false, ds)
      if digits.isEmpty ∨ ¬ digits.all (isDigit 10) then none
      else some (if negative then -(ofDigits 10 digits : Int) else ofDigits 10 digits)
    else none

/-- An unsigned decimal: digits, a point with digits, an exponent. -/
def readUnsigned? (cs : List Char) : Option Float :=
  let whole := cs.takeWhile (isDigit 10)
  let rest := cs.dropWhile (isDigit 10)
  let (fraction, tail) := match rest with
    | '.' :: ds => (ds.takeWhile (isDigit 10), ds.dropWhile (isDigit 10))
    | ds => ([], ds)
  if whole.isEmpty ∧ fraction.isEmpty then none
  else (readExponent? tail).map fun e =>
    { significand := ofDigits 10 (whole ++ fraction), exponent := e - fraction.length : Scientific }.toFloat

/-- The double that a text stands for, if it is the text of one. -/
def read? (s : String) : Option Float :=
  match s.toList with
  | '-' :: cs => (magnitudeOf cs).map (- ·)
  | cs => magnitudeOf cs
where
  /-- The size of the number, the sign taken off. -/
  magnitudeOf (cs : List Char) : Option Float :=
    if cs = ['i', 'n', 'f'] then some (1.0 / 0.0)
    else if cs = ['n', 'a', 'n'] then some (0.0 / 0.0)
    else readUnsigned? cs

end TraceGraph.Decimal
