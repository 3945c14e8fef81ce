import TraceGraph.Decimal.Integer
import TraceGraph.Decimal.Layout
import TraceGraph.Error
import TraceGraph.Text.Join
import TraceGraph.Text.Quoted
import TraceGraph.Trace.Node

/-!
# Java expressions

Arguments of a traced program as Java expressions: a variable by its name, a literal as a Java literal,
an array as an array creation and raw text as it is.
-/

namespace TraceGraph

namespace Literal

/-- Is the literal a number? -/
def isNumber : Literal → Bool
  | .int _ | .float _ => true
  | _ => false

/-- Is the literal a Boolean? -/
def isBool : Literal → Bool
  | .bool _ => true
  | _ => false

/-- Is the literal a text? -/
def isText : Literal → Bool
  | .str _ => true
  | _ => false

/-- The literal in Java.  An integer of too many digits has no text. -/
def java : Literal → Except Error String
  | .null => .ok "null"
  | .bool b => .ok (if b then "true" else "false")
  | .int n =>
    match Decimal.integerText? n with
    | some text => .ok text
    | none => .error .tooManyDigits
  | .float x => .ok (Decimal.text x)
  | .str s => .ok (Text.doubleQuoted s)

end Literal

namespace Node

/-- The literal that a node is. -/
def literal? : Node → Option Literal
  | .const value => some value
  | _ => none

/-- The element type of a Java array with these elements.  Literals of one sort have a type of their
own; everything else is an array of objects, and so is an empty one. -/
def elementType (elements : List Node) : String :=
  match elements.mapM literal? with
  | none | some [] => "Object"
  | some values =>
    if values.all Literal.isBool then "boolean"
    else if values.all Literal.isNumber then "double"
    else if values.all Literal.isText then "String"
    else "Object"

/-- The creation of a Java array. -/
def arrayCreation (type : String) (elements : List String) : String :=
  "new " ++ type ++ "[] \x7b" ++ Text.commas elements ++ "\x7d"

mutual

/-- The node as a Java expression. -/
def java : Node → Except Error String
  | .var name => .ok name
  | .const value => value.java
  | .array elements => do
    return arrayCreation (elementType elements) (← javaAll elements)
  | .raw text => .ok text
  | node => .error (.unrenderable node.description)

/-- The nodes as Java expressions. -/
def javaAll : List Node → Except Error (List String)
  | [] => .ok []
  | node :: rest => do
    let first ← node.java
    let others ← javaAll rest
    return first :: others

end

/-- The number that a node is, as a double.  An integer beyond the doubles is an error. -/
def number? : Node → Except Error (Option Float)
  | .const (.int n) =>
    match Decimal.ofInt? n with
    | some x => .ok (some x)
    | none => .error .outOfRange
  | .const (.float x) => .ok (some x)
  | _ => .ok none

end Node

end TraceGraph
