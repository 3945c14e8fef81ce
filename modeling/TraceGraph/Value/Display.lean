import TraceGraph.Decimal.Integer
import TraceGraph.Decimal.Layout
import TraceGraph.Error
import TraceGraph.Text.Join
import TraceGraph.Text.Printable
import TraceGraph.Text.Quoted
import TraceGraph.Value

/-!
# The text of a value

Where a value stands in a message or in generated code it is written as text.  A string is written as
it is; inside a list or an object it is quoted, with single quotes unless it holds one and no double
quote, and what does not print is escaped by its code point.
-/

namespace TraceGraph.Value

/-- The quote a string is shown in. -/
def quoteFor (s : String) : Char :=
  if s.toList.contains '\x27' && !s.toList.contains '"' then '"' else '\x27'

/-- A character of a shown string. -/
def showChar (quote c : Char) : List Char :=
  if c = quote ∨ c = '\\' then ['\\', c]
  else if c = '\n' then ['\\', 'n']
  else if c = '\r' then ['\\', 'r']
  else if c = '\t' then ['\\', 't']
  else if Text.isPrintable c then [c]
  else if c.toNat < 0x100 then '\\' :: 'x' :: Text.hex 2 c.toNat
  else if c.toNat < 0x10000 then '\\' :: 'u' :: Text.hex 4 c.toNat
  else '\\' :: 'U' :: Text.hex 8 c.toNat

/-- A string between quotes. -/
def showString (s : String) : String :=
  let quote := quoteFor s
  String.ofList (quote :: s.toList.flatMap (showChar quote) ++ [quote])

mutual

/-- A value as it is shown inside another. -/
def shown : Value → String
  | .null => "None"
  | .bool b => if b then "True" else "False"
  | .int n => toString n
  | .float x => Decimal.text x
  | .str s => showString s
  | .list items => "[" ++ Text.commas (shownItems items) ++ "]"
  | .object fields => "\x7b" ++ Text.commas (shownFields fields) ++ "\x7d"

/-- The items of a list, shown. -/
def shownItems : List Value → List String
  | [] => []
  | item :: rest => item.shown :: shownItems rest

/-- The fields of an object, shown. -/
def shownFields : List (String × Value) → List String
  | [] => []
  | (key, value) :: rest => (showString key ++ ": " ++ value.shown) :: shownFields rest

end

/-- The text of a value. -/
def text : Value → String
  | .str s => s
  | v => v.shown

mutual

/-- Has every integer in the value a text? -/
def hasText : Value → Bool
  | .int n => (Decimal.integerText? n).isSome
  | .list items => itemsHaveText items
  | .object fields => fieldsHaveText fields
  | _ => true

/-- Has every integer in a list a text? -/
def itemsHaveText : List Value → Bool
  | [] => true
  | item :: rest => item.hasText && itemsHaveText rest

/-- Has every integer among the fields of an object a text? -/
def fieldsHaveText : List (String × Value) → Bool
  | [] => true
  | (_, value) :: rest => value.hasText && fieldsHaveText rest

end

/-- The text of a value, where it is to be written out.  An integer of too many digits has none. -/
def writtenText (v : Value) : Except Error String :=
  if v.hasText then .ok v.text else .error .tooManyDigits

end TraceGraph.Value
