import TraceGraph.Decimal.Integer

/-!
# Words of the command line

Each word is taken for what it is before any of them is acted upon.  A switch is written in full, as a
beginning that no other switch has, or as one letter after one dash; a parameter takes its value from
the same word, after an equals sign or right after the letter, or else from the next word.  Letters of
flags can be put together in one word.  After the divider `--` every word is plain.
-/

namespace TraceGraph.CommandLine

/-- Switches that stand for themselves. -/
inductive Flag where
  | help
  | verbose
deriving DecidableEq, Repr

/-- Switches that take a value. -/
inductive Parameter where
  | className
  | iterations
  | output
deriving DecidableEq, Repr

/-- What a dash announces. -/
inductive Switch where
  | flag (flag : Flag)
  | parameter (parameter : Parameter)
deriving DecidableEq, Repr

/-- The spellings of the switches. -/
def spellings : List (String × Switch) :=
  [("-h", .flag .help), ("--help", .flag .help), ("--class-name", .parameter .className),
   ("--iterations", .parameter .iterations), ("--output", .parameter .output),
   ("-o", .parameter .output), ("--verbose", .flag .verbose), ("-v", .flag .verbose)]

/-- The switch with exactly this spelling. -/
def Switch.ofSpelling? (cs : List Char) : Option Switch := spellings.lookup (String.ofList cs)

/-- The switches whose spelling begins like this. -/
def Switch.beginning (cs : List Char) : List Switch :=
  (spellings.filter fun entry => cs.isPrefixOf entry.1.toList).map Prod.snd

/-- A switch as it was used. -/
inductive Setting where
  | flag (flag : Flag)
  | parameter (parameter : Parameter) (value : String)
deriving DecidableEq, Repr

/-- What a word is taken for. -/
inductive Word where
  | plain (text : String)
  | divider
  /-- Settings, and a parameter that takes the next word for its value. -/
  | settings (given : List Setting) (awaiting : Option Parameter)
  /-- Settings with letters behind them that are no switches. -/
  | partly (given : List Setting)
  /-- A word with a dash that is no switch. -/
  | unknown
  /-- Switches that cannot be used as they are. -/
  | faulty
deriving DecidableEq, Repr

namespace Word

/-- Letters put together after one dash.  The first parameter takes the letters behind it, with or
without an equals sign between them; a flag takes no value, and no second dash follows a letter. -/
def group (given : List Setting) : List Char → Word
  | [] => .settings given none
  | '-' :: _ => .faulty
  | c :: rest =>
    match Switch.ofSpelling? ['-', c], rest with
    | none, _ => .partly given
    | some (.flag _), '=' :: _ => .faulty
    | some (.flag flag), rest => group (given ++ [.flag flag]) rest
    | some (.parameter parameter), [] => .settings given (some parameter)
    | some (.parameter parameter), '=' :: value | some (.parameter parameter), value =>
      .settings (given ++ [.parameter parameter (String.ofList value)]) none

/-- A switch on its own. -/
def ofSwitch : Switch → Word
  | .flag flag => .settings [.flag flag] none
  | .parameter parameter => .settings [] (some parameter)

/-- A switch with a value after an equals sign, which only a parameter can have. -/
def withValue (value : List Char) : Switch → Word
  | .flag _ => .faulty
  | .parameter parameter => .settings [.parameter parameter (String.ofList value)] none

/-- A decimal digit of any script. -/
def isAnyDigit (c : Char) : Bool := (Decimal.anyDigit? c).isSome

/-- Is this the text of a negative number without its sign: digits, or a point with digits behind it?
A line feed at the end does no harm. -/
def isMagnitude (cs : List Char) : Bool :=
  let cs := if cs.getLast? = some '\n' then cs.dropLast else cs
  match cs.dropWhile isAnyDigit with
  | [] => !cs.isEmpty
  | '.' :: fraction => !fraction.isEmpty && fraction.all isAnyDigit
  | _ => false

/-- A word after a dash that begins like no switch.  Negative numbers and texts with spaces are plain. -/
def ordinary (text : String) : Word :=
  if isMagnitude (text.toList.drop 1) || text.toList.contains ' ' then .plain text else .unknown

/-- What a word before the divider is taken for, unless it begins like several switches. -/
def ofText (text : String) : Option Word :=
  match text.toList with
  | '-' :: second :: tail =>
    let name := text.toList.takeWhile (· != '=')
    let understood : Switch → Word :=
      if text.toList.contains '=' then withValue (text.toList.drop (name.length + 1)) else ofSwitch
    match Switch.ofSpelling? name with
    | some switch => some (understood switch)
    | none =>
      if second = '-' then
        match Switch.beginning name with
        | [] => some (ordinary text)
        | [switch] => some (understood switch)
        | _ => none
      else if (Switch.ofSpelling? ['-', second]).isSome then some (group [] (second :: tail))
      else some (ordinary text)
  | _ => some (.plain text)

/-- What the words are taken for. -/
def ofTexts : List String → Option (List Word)
  | [] => some []
  | text :: rest =>
    if text = "--" then some (.divider :: rest.map .plain)
    else do
      let word ← ofText text
      return word :: (← ofTexts rest)

end Word

end TraceGraph.CommandLine
