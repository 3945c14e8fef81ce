import TraceGraph.Error
import TraceGraph.Trace.Node
import TraceGraph.Value

/-!
# Writing a program as a value

The written form of a node is an object whose field `kind` says what it is.  A blank node has none, and
neither has a node that holds one.
-/

namespace TraceGraph

/-- A literal as a value. -/
def Literal.toValue : Literal → Value
  | .null => .null
  | .bool b => .bool b
  | .int n => .int n
  | .float x => .float x
  | .str s => .str s

namespace Node

/-- An object of a kind. -/
def written (kind : Kind) (fields : List (String × Value)) : Value :=
  .object (("kind", .str kind.name) :: fields)

/-- The written form of an assignment of a written initializer. -/
def assigned (name : String) (init : Value) : Value :=
  written .assign [("name", .str name), ("init", init)]

mutual

/-- The written form of a node. -/
def toValue : Node → Except Error Value
  | .blank => .error .blankNode
  | .var name => .ok (written .var [("name", .str name)])
  | .const value => .ok (written .const [("value", value.toValue)])
  | .array elements => do
    return written .array [("elements", .list (← toValues elements))]
  | .raw text => .ok (written .raw [("text", .str text)])
  | .call callee args => do
    return written .call [("callee", .str callee), ("args", .list (← toValues args))]
  | .assign name init => do
    return written .assign [("name", .str name), ("init", ← init.toValue)]
  | .evidence kind name =>
    .ok (written .evidence [("evidence", .str kind.name), ("name", .str name)])
  | .choice test merge thenBody thenValue elseBody elseValue => do
    let test ← test.toValue
    let thenBody ← toValues thenBody
    let thenValue ← thenValue.toValue
    let elseBody ← toValues elseBody
    let elseValue ← elseValue.toValue
    return written .choice
      [("test", test),
       ("consequent", .list (thenBody ++ [assigned merge thenValue])),
       ("alternate", .list (elseBody ++ [assigned merge elseValue]))]
  | .query name => .ok (written .query [("name", .str name)])
  | .program body => do
    return written .program [("body", .list (← toValues body))]

/-- The written forms of a list of nodes. -/
def toValues : List Node → Except Error (List Value)
  | [] => .ok []
  | node :: rest => do return (← node.toValue) :: (← toValues rest)

end

end Node

end TraceGraph
