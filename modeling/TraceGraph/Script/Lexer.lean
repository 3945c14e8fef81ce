import TraceGraph.Script.Token

/-!
# Reading tokens

`tokens` cuts a script into tokens, or fails where no token can be read.  Blank space and comments stand
between tokens and leave only the line breaks in them.

Besides the two usual forms of comments there are those that hide a script from a page that it stands
in: `<!--` starts a comment anywhere, and `-->` where nothing but blank space and comments stands before
it in its line.  Both reach to the end of the line.

Each reader returns what it read and the characters that remain.
-/

namespace TraceGraph.Script

/-! ### Numbers -/

/-- The digits at the front, and what remains. -/
def digits (base : Nat) (cs : List Char) : List Char × List Char :=
  (cs.takeWhile (Decimal.isDigit base), cs.dropWhile (Decimal.isDigit base))

/-- A number may not run into a name. -/
def notInName (cs : List Char) : Bool :=
  match cs with
  | c :: _ => !isNameStart c && c != '\\'
  | [] => true

/-- A number may not run into a name or another digit. -/
def notInNumber (cs : List Char) : Bool :=
  notInName cs && !(cs.head?.any (Decimal.isDigit 10))

/-- The digits of a whole number in a base, after its mark. -/
def readBase (base : Nat) (legacy : Bool) (cs : List Char) : Option (Literal × Bool × List Char) :=
  let (ds, rest) := digits base cs
  if ds.isEmpty || !(if base = 16 then notInName rest else notInNumber rest) then none
  else some (.int (Decimal.ofDigits base ds), legacy, rest)

/-- The exponent of a decimal, if there is one; a mark without digits is an error. -/
def readExponent (cs : List Char) : Option (Int × List Char) :=
  match cs with
  | e :: rest =>
    if e = 'e' ∨ e = 'E' then
      let (negative, rest) := match rest with
        | '-' :: rest => (true, rest)
        | '+' :: rest => (false, rest)
        | rest => (false, rest)
      let (ds, rest) := digits 10 rest
      if ds.isEmpty then none
      else
        let size : Int := Decimal.ofDigits 10 ds
        some (if negative then -size else size, rest)
    else some (0, cs)
  | [] => some (0, [])

/-- The literal of a decimal: a double, or the integer that the double is. -/
def decimalLiteral (d : Decimal.Scientific) : Literal :=
  let x := d.toFloat
  match (Decimal.Binary64.ofFloat x).toInt? with
  | some n => .int n
  | none => .float x

/-- A decimal: digits, a point with digits, an exponent. -/
def readDecimal (cs : List Char) : Option (Literal × Bool × List Char) := do
  let (whole, rest) := digits 10 cs
  let (fraction, rest) := match rest with
    | '.' :: rest => digits 10 rest
    | rest => ([], rest)
  let (exponent, rest) ← readExponent rest
  guard (notInName rest)
  let value : Decimal.Scientific :=
    { significand := Decimal.ofDigits 10 (whole ++ fraction), exponent := exponent - fraction.length }
  return (decimalLiteral value, false, rest)

/-- Do the digits after a leading zero make an octal number of the old form?  Then there is no eight
or nine among them. -/
def isLegacyOctal (cs : List Char) : Bool :=
  let ds := cs.takeWhile (Decimal.isDigit 10)
  cs.head?.any (Decimal.isDigit 8) && ds.all (Decimal.isDigit 8)

/-- A number. -/
def readNumber (cs : List Char) : Option (Literal × Bool × List Char) :=
  match cs with
  | '0' :: mark :: rest =>
    if mark = 'x' ∨ mark = 'X' then readBase 16 false rest
    else if mark = 'b' ∨ mark = 'B' then readBase 2 false rest
    else if mark = 'o' ∨ mark = 'O' then readBase 8 false rest
    else if isLegacyOctal (mark :: rest) then readBase 8 true (mark :: rest)
    else readDecimal cs
  | _ => readDecimal cs

/-! ### Strings -/

/-- The value of exactly so many hexadecimal digits. -/
def readHex (count : Nat) (cs : List Char) : Option (Nat × List Char) :=
  let ds := cs.take count
  if ds.length = count ∧ ds.all (Decimal.isDigit 16) then
    some (Decimal.ofDigits 16 ds, cs.drop count)
  else none

/-- The character of two UTF-16 units. -/
def ofUnits (high low : Nat) : Char :=
  Char.ofNat (0x10000 + (high - 0xd800) * 0x400 + (low - 0xdc00))

/-- The character of an escape by UTF-16 units, after the `u`.  A character beyond the first plane is
two escapes; half of one has no character, and is replaced. -/
def readUnits (cs : List Char) : Option (Char × List Char) := do
  let (unit, rest) ← readHex 4 cs
  if 0xd800 ≤ unit ∧ unit < 0xdc00 then
    match rest with
    | '\\' :: 'u' :: next =>
      match readHex 4 next with
      | some (low, after) =>
        if 0xdc00 ≤ low ∧ low < 0xe000 then return (ofUnits unit low, after)
        else return ('\ufffd', rest)
      | none => return ('\ufffd', rest)
    | _ => return ('\ufffd', rest)
  else if 0xdc00 ≤ unit ∧ unit < 0xe000 then return ('\ufffd', rest)
  else return (Char.ofNat unit, rest)

/-- The character of an escape by code point in braces, after the opening brace. -/
def readCodePoint (cs : List Char) : Option (Char × List Char) :=
  let (ds, rest) := digits 16 cs
  let point := Decimal.ofDigits 16 ds
  match rest with
  | '\x7d' :: rest =>
    if ds.isEmpty || 0x10ffff < point then none else some (Char.ofNat point, rest)
  | _ => none

/-- An octal escape of the old form: up to three digits, the value below 256. -/
def readOctalEscape (cs : List Char) : Char × Bool × List Char :=
  let count := if cs.head?.any fun c => c ∈ ['0', '1', '2', '3'] then 3 else 2
  let ds := (cs.take count).takeWhile (Decimal.isDigit 8)
  (Char.ofNat (Decimal.ofDigits 8 ds), ds != ['0'], cs.drop ds.length)

/-- What an escape stands for, after the backslash: characters, and whether it is of the old form.  A
line break stands for nothing. -/
def readEscape : List Char → Option (List Char × Bool × List Char)
  | [] => none
  | '\r' :: '\n' :: rest => some ([], false, rest)
  | 'u' :: '\x7b' :: rest => (readCodePoint rest).map fun (c, rest) => ([c], false, rest)
  | 'u' :: rest => (readUnits rest).map fun (c, rest) => ([c], false, rest)
  | 'x' :: rest => (readHex 2 rest).map fun (n, rest) => ([Char.ofNat n], false, rest)
  | 'n' :: rest => some (['\n'], false, rest)
  | 'r' :: rest => some (['\r'], false, rest)
  | 't' :: rest => some (['\t'], false, rest)
  | 'b' :: rest => some (['\x08'], false, rest)
  | 'f' :: rest => some (['\x0c'], false, rest)
  | 'v' :: rest => some (['\x0b'], false, rest)
  | c :: rest =>
    if isLineBreak c then some ([], false, rest)
    else if c = '8' ∨ c = '9' then none
    else if Decimal.isDigit 8 c then
      let (value, legacy, rest) := readOctalEscape (c :: rest)
      some ([value], legacy, rest)
    else some ([c], false, rest)

/-- The rest of a string up to its closing quote: the characters, whether an escape of the old form is
among them, and what remains.  There are at most `limit` characters and escapes. -/
def readString (quote : Char) : Nat → List Char → Option (List Char × Bool × List Char)
  | 0, _ | _, [] => none
  | limit + 1, c :: rest =>
    if c = quote then some ([], false, rest)
    else if c = '\\' then do
      let (chars, legacy, rest) ← readEscape rest
      let (others, otherLegacy, rest) ← readString quote limit rest
      return (chars ++ others, legacy || otherLegacy, rest)
    else if isLineBreak c then none
    else do
      let (others, legacy, rest) ← readString quote limit rest
      return (c :: others, legacy, rest)

/-! ### Names -/

/-- The character of an escape in a name, after the backslash.  By its UTF-16 unit it has to be one that
the name may have there; in braces any code point is taken. -/
def readNameEscape (allowed : Char → Bool) : List Char → Option (Char × List Char)
  | 'u' :: '\x7b' :: rest => readCodePoint rest
  | 'u' :: rest => do
    let (unit, rest) ← readHex 4 rest
    guard (unit.isValidChar && allowed (Char.ofNat unit))
    return (Char.ofNat unit, rest)
  | _ => none

/-- The rest of a name, of at most `limit` characters, and whether there is an escape in it. -/
def readNameRest : Nat → List Char → Option (List Char × Bool × List Char)
  | 0, _ => none
  | _, [] => some ([], false, [])
  | limit + 1, c :: rest =>
    if c = '\\' then do
      let (d, rest) ← readNameEscape isNamePart rest
      let (others, _, rest) ← readNameRest limit rest
      return (d :: others, true, rest)
    else if isNamePart c then do
      let (others, escaped, rest) ← readNameRest limit rest
      return (c :: others, escaped, rest)
    else some ([], false, c :: rest)

/-- A name of at most `limit` characters.  A reserved word cannot be written with escapes. -/
def readName (limit : Nat) (cs : List Char) : Option (Word × List Char) := do
  let (first, escaped, rest) ← match cs with
    | '\\' :: rest => (readNameEscape isNameStart rest).map fun (c, rest) => (c, true, rest)
    | c :: rest => some (c, false, rest)
    | [] => none
  let (others, otherEscaped, after) ← readNameRest limit rest
  let name := String.ofList (first :: others)
  let word := Word.ofName name
  guard (!(escaped || otherEscaped) || word = .identifier name)
  return (word, after)

/-! ### Templates -/

/-- A piece of a template: what remains after it, and whether the template ends with it.  Octal escapes
are refused; an escape by UTF-16 unit without its digits is taken as it stands. -/
def readTemplate : Nat → List Char → Option (Bool × List Char)
  | 0, _ | _, [] => none
  | limit + 1, c :: rest =>
    if c = '\x60' then some (true, rest)
    else if c = '\\' then
      match rest with
      | [] => none
      | 'u' :: '\x7b' :: rest => do
        let (_, rest) ← readCodePoint rest
        readTemplate limit rest
      | 'x' :: rest => do
        let (_, rest) ← readHex 2 rest
        readTemplate limit rest
      | '0' :: rest => if rest.head?.any (Decimal.isDigit 10) then none else readTemplate limit rest
      | d :: rest => if Decimal.isDigit 8 d then none else readTemplate limit rest
    else match c, rest with
      | '$', '\x7b' :: rest => some (false, rest)
      | _, rest => readTemplate limit rest

/-! ### Between tokens -/

/-- The number of line breaks among characters. -/
def breaks (cs : List Char) : Nat := cs.countP isLineBreak

/-- What follows a comment of several lines, and the number of line breaks in it. -/
def skipComment : List Char → Option (Nat × List Char)
  | [] => none
  | '*' :: '/' :: rest => some (0, rest)
  | c :: rest => (skipComment rest).map fun (n, rest) => (n + breaks [c], rest)

/-- What follows a comment up to the end of its line, and the number of line breaks in it.  The end of
the line belongs to it. -/
def skipLine (cs : List Char) : Nat × List Char :=
  match cs.dropWhile fun c => !isLineBreak c with
  | '\r' :: '\n' :: rest => (1, rest)
  | _ :: rest => (1, rest)
  | [] => (0, [])

/-- What follows the blank space and the comments at the front, and the number of line breaks in them.
A `-->` starts a comment where `fresh`: at the start of the script, and after a line break that is in no
comment or ends one with `//`.  There are at most `limit` of blanks and comments. -/
def skipBlanks : Bool → Nat → List Char → Option (Nat × List Char)
  | _, 0, cs => some (0, cs)
  | fresh, limit + 1, cs => do
    let skipped ← match cs with
      | '/' :: '/' :: rest => some (some (true, skipLine rest))
      | '/' :: '*' :: rest => (skipComment rest).map fun after => some (fresh, after)
      | '<' :: '!' :: '-' :: '-' :: rest => some (some (fresh, skipLine rest))
      | '-' :: '-' :: '>' :: rest => some (if fresh then some (fresh, skipLine rest) else none)
      | c :: rest =>
        if isLineBreak c then some (some (true, 1, rest))
        else if isBlank c then some (some (fresh, 0, rest))
        else some none
      | [] => some none
    match skipped with
    | none => return (0, cs)
    | some (fresh, n, rest) =>
      let (others, rest) ← skipBlanks fresh limit rest
      return (n + others, rest)

/-! ### Tokens -/

/-- The punctuator at the front. -/
def readPunctuator (cs : List Char) : Option (Word × List Char) :=
  (punctuators.find? fun mark => mark.toList.isPrefixOf cs).map fun mark =>
    (.punctuator mark, cs.drop mark.length)

/-- The characters that were read, given those that remain. -/
def consumed (cs rest : List Char) : String := String.ofList (cs.take (cs.length - rest.length))

/-- The word at the front, of at most `limit` characters.  A closing brace goes on with a template
where `inTemplate`. -/
def readWord (inTemplate : Bool) (limit : Nat) (cs : List Char) : Option (Word × List Char) :=
  match cs with
  | [] => none
  | c :: rest =>
    if isNameStart c || c = '\\' then readName limit cs
    else if c = '"' ∨ c = '\x27' then do
      let (chars, legacy, after) ← readString c limit rest
      return (.literal (.str (String.ofList chars)) (consumed cs after) legacy, after)
    else if Decimal.isDigit 10 c || (c == '.' && rest.head?.any (Decimal.isDigit 10)) then do
      let (value, legacy, after) ← readNumber cs
      return (.literal value (consumed cs after) legacy, after)
    else if c = '\x60' ∨ (c = '\x7d' ∧ inTemplate) then do
      let (tail, after) ← readTemplate limit rest
      return (.template (consumed cs after) (c == '\x60') tail, after)
    else readPunctuator cs

/-- The number of line breaks in a word. -/
def Word.breaks : Word → Nat
  | .literal _ raw _ | .template raw .. => Script.breaks raw.toList
  | _ => 0

/-- The open braces after a word, given those before it; true is one that a template opened. -/
def Word.braces (before : List Bool) : Word → List Bool
  | .punctuator "\x7b" => false :: before
  | .punctuator "\x7d" => before.tail
  | .template _ true false => true :: before
  | .template _ false true => before.tail
  | _ => before

/-- The tokens of a script of fewer than `limit` characters, after so many line breaks and with these
open braces. -/
def tokensWithin (fresh : Bool) (line : Nat) (braces : List Bool) :
    Nat → List Char → Option (List Token)
  | 0, _ => none
  | limit + 1, cs => do
    let (skipped, cs) ← skipBlanks fresh limit cs
    match cs with
    | [] => return []
    | _ =>
      let (word, rest) ← readWord (braces.head?.getD false) (limit + 1) cs
      let line := line + skipped + word.breaks
      let others ← tokensWithin false line (word.braces braces) limit rest
      return { word, line } :: others

/-- The tokens of a script. -/
def tokens (source : String) : Option (List Token) :=
  let cs := source.toList
  tokensWithin true 0 [] (cs.length + 1) cs

end TraceGraph.Script
