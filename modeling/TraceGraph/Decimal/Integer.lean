import TraceGraph.Text.Blank
import TraceGraph.Text.WordPart

/-!
# Integers as text

Integers have no bound, but the text of one has: there is none with more than `digitLimit` digits.

An integer that is typed may have blanks around it and a sign, its digits may be of any script, and a
low line may stand between two digits.  Zeros at the front count towards the limit.
-/

namespace TraceGraph.Decimal

/-- The number of digits that the text of an integer may have. -/
def digitLimit : Nat := 4300

/-- The text of an integer, if its digits are not too many. -/
def integerText? (n : Int) : Option String :=
  if n.natAbs < Nat.pow 10 digitLimit then some (toString n) else none

/-- The value of a decimal digit of any script.  The digits of a script are ten code points in a row. -/
def anyDigit? (c : Char) : Option Nat :=
  (Text.decimalDigits.find? fun range => range.1 ≤ c.toNat && c.toNat ≤ range.2).map fun range =>
    (c.toNat - range.1) % 10

/-- Reads on after a digit, with the number so far. -/
def digitsAfter? (n : Nat) : List Char → Option Nat
  | [] => some n
  | '_' :: c :: rest => (anyDigit? c).bind fun d => digitsAfter? (10 * n + d) rest
  | c :: rest => (anyDigit? c).bind fun d => digitsAfter? (10 * n + d) rest

/-- A number without a sign. -/
def natural? (cs : List Char) : Option Nat :=
  if digitLimit < cs.countP (· != '_') then none
  else match cs with
    | [] => none
    | c :: rest => (anyDigit? c).bind fun d => digitsAfter? d rest

/-- The integer that a text spells. -/
def integer? (s : String) : Option Int :=
  match Text.trim s.toList with
  | '-' :: digits => (natural? digits).map fun n => -(n : Int)
  | '+' :: digits => (natural? digits).map Int.ofNat
  | digits => (natural? digits).map Int.ofNat

end TraceGraph.Decimal
