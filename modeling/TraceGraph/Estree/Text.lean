import TraceGraph.Text.Letter
import TraceGraph.Value.Display
import TraceGraph.Value.Fields

/-!
# The text of an expression

An expression of a syntax tree, written out again as JavaScript.  Strings are written in single quotes,
other literals as they were spelled, and binary expressions always in parentheses.  Nothing is checked
beforehand: a field that is missing or of the wrong type is met when it is needed, the arguments of a
call before what is called.

As in `Trace/Reading.lean` the recursion is on the levels of nesting that are left.
-/

namespace TraceGraph.Estree

/-- The types of expressions that have a text. -/
inductive ExpressionType where
  | identifier | literal | array | call | member | unary | binary | logical
deriving DecidableEq, Repr

namespace ExpressionType

/-- The name of a type in a syntax tree. -/
def name : ExpressionType → String
  | .identifier => "Identifier"
  | .literal => "Literal"
  | .array => "ArrayExpression"
  | .call => "CallExpression"
  | .member => "MemberExpression"
  | .unary => "UnaryExpression"
  | .binary => "BinaryExpression"
  | .logical => "LogicalExpression"

/-- All types of expressions that have a text. -/
def all : List ExpressionType :=
  [.identifier, .literal, .array, .call, .member, .unary, .binary, .logical]

/-- The type of a name. -/
def ofName? (s : String) : Option ExpressionType := all.find? fun t => t.name == s

end ExpressionType

/-- The type of an expression, if it is one that has a text. -/
def expressionType? (fields : List (String × Value)) : Option ExpressionType :=
  match fields.lookup "type" with
  | some (.str s) => ExpressionType.ofName? s
  | _ => none

/-- A literal without a spelling of its own. -/
def plainLiteral : Value → Except Error String
  | .null => .ok "null"
  | .bool b => .ok (if b then "true" else "false")
  | .str s => .ok (Text.singleQuoted s)
  | v => v.writtenText

/-- A literal, by its spelling if it has one; a string is quoted again. -/
def literalText (value raw : Value) : Except Error String :=
  match raw with
  | .str s =>
    match s.toList with
    | [] => plainLiteral value
    | c :: _ =>
      if c = '"' ∨ c = '\x27' then do return Text.singleQuoted (← value.writtenText) else .ok s
  | _ => plainLiteral value

/-- The items of a field that may be missing, null or empty. -/
def itemsOrNone (fields : List (String × Value)) (key : String) : Except Error (List Value) :=
  match fields.lookup key with
  | none => .ok []
  | some v => if v.truthy then v.items else .ok []

/-- A unary expression; an operator that is a word stands apart. -/
def unaryText (operator : Value) (argument : String) : Except Error String :=
  match operator with
  | .str s =>
    if s ≠ "" ∧ s.toList.all Text.isLetter then .ok (s ++ " " ++ argument) else .ok (s ++ argument)
  | _ => .error .operatorNotText

/-- The text of an expression of at most so many levels. -/
def textWithin : Nat → Value → Except Error String
  | level + 1, .object fields =>
    match expressionType? fields with
    | some .identifier => do
      let name ← Value.require fields "name"
      name.writtenText
    | some .literal =>
      literalText ((fields.lookup "value").getD .null) ((fields.lookup "raw").getD .null)
    | some .array => do
      let items ← itemsOrNone fields "elements"
      let elements ← items.mapM (textWithin level)
      return "[" ++ Text.commas elements ++ "]"
    | some .call => do
      let items ← itemsOrNone fields "arguments"
      let args ← items.mapM (textWithin level)
      let callee ← textWithin level (← Value.require fields "callee")
      return callee ++ "(" ++ Text.commas args ++ ")"
    | some .member => do
      let object ← textWithin level (← Value.require fields "object")
      let property ← textWithin level (← Value.require fields "property")
      if ((fields.lookup "computed").getD .null).truthy then
        return object ++ "[" ++ property ++ "]"
      else return object ++ "." ++ property
    | some .unary => do
      let operator ← Value.require fields "operator"
      let argument ← textWithin level (← Value.require fields "argument")
      unaryText operator argument
    | some .binary | some .logical => do
      let left ← textWithin level (← Value.require fields "left")
      let operator ← (← Value.require fields "operator").writtenText
      let right ← textWithin level (← Value.require fields "right")
      return "(" ++ left ++ " " ++ operator ++ " " ++ right ++ ")"
    | none => do throw (.unsupportedNode (← ((fields.lookup "type").getD .null).writtenText))
  | _, _ => .error .noFields

/-- The text of an expression. -/
def expressionText (v : Value) : Except Error String := textWithin v.height v

end TraceGraph.Estree
