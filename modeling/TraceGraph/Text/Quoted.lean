/-!
# Quoted text

Text between quotes, in two conventions.  `doubleQuoted` keeps to printable ASCII: the quote, the
backslash and five controls have a short escape, and everything else outside the range is written as
its UTF-16 units, `\uXXXX` each.  `singleQuoted` escapes the quote and the backslash only.
-/

namespace TraceGraph.Text

/-- A number in lower-case hexadecimal, padded with zeros to a width. -/
def hex (width n : Nat) : List Char :=
  let digits := Nat.toDigits 16 n
  List.replicate (width - digits.length) '0' ++ digits

/-- The UTF-16 units of a character. -/
def units (c : Char) : List Nat :=
  if c.toNat < 0x10000 then [c.toNat]
  else
    let n := c.toNat - 0x10000
    [0xd800 + n / 0x400, 0xdc00 + n % 0x400]

/-- A UTF-16 unit as an escape. -/
def unitEscape (unit : Nat) : List Char := '\\' :: 'u' :: hex 4 unit

/-- A character between double quotes. -/
def escape (c : Char) : List Char :=
  if c = '"' then ['\\', '"']
  else if c = '\\' then ['\\', '\\']
  else if c = '\n' then ['\\', 'n']
  else if c = '\r' then ['\\', 'r']
  else if c = '\t' then ['\\', 't']
  else if c = '\x08' then ['\\', 'b']
  else if c = '\x0c' then ['\\', 'f']
  else if 0x20 ≤ c.toNat ∧ c.toNat ≤ 0x7e then [c]
  else (units c).flatMap unitEscape

/-- The text between double quotes, in printable ASCII. -/
def doubleQuoted (s : String) : String :=
  String.ofList ('"' :: s.toList.flatMap escape ++ ['"'])

/-- A character between single quotes. -/
def escapeSingle (c : Char) : List Char :=
  if c = '\\' then ['\\', '\\'] else if c = '\x27' then ['\\', '\x27'] else [c]

/-- The text between single quotes. -/
def singleQuoted (s : String) : String :=
  String.ofList ('\x27' :: s.toList.flatMap escapeSingle ++ ['\x27'])

end TraceGraph.Text
