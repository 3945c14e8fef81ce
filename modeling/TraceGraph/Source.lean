import TraceGraph.Compile
import TraceGraph.Estree.Program
import TraceGraph.Script.Parser

/-!
# Sources

A program comes as nodes, as JavaScript text or as a syntax tree; all three become the statements of a
traced program, and from there Java code.
-/

namespace TraceGraph

/-- What a program can be given as. -/
inductive Source where
  | node (node : Node)
  | script (text : String)
  | tree (tree : Value)
deriving Inhabited

namespace Source

/-- The source that a value is: a text is a script, anything else a syntax tree. -/
def ofValue : Value → Source
  | .str s => .script s
  | v => .tree v

/-- The statements of a syntax tree. -/
def ofTree (v : Value) : Report (List Node) :=
  match Estree.program v with
  | .error e => .silent (.error e)
  | .ok body => { result := .ok body, notices := [.decoded body.length] }

/-- The statements of a script. -/
def ofScript (text : String) : Report (List Node) :=
  match Script.parse? text with
  | none => .silent (.error .unparsable)
  | some body => ofTree (Script.scriptTree body)

/-- The statements of a source. -/
def program : Source → Report (List Node)
  | .node (.program body) => .silent (.ok body)
  | .node other => .silent (.error (.notAProgram other.description))
  | .script text => ofScript text
  | .tree (.object fields) => ofTree (.object fields)
  | .tree v => .silent (.error (.notAProgram v.typeName))

end Source

namespace Compiler

/-- The statements that a source becomes. -/
def statementsOf (c : Compiler) (source : Source) : Report (List Java.Statement) :=
  source.program.andThen c.statements

/-- The Java code that a source becomes. -/
def code (c : Compiler) (source : Source) : Report String :=
  (c.statementsOf source).andThen fun statements =>
    .silent (Java.Statement.render c.settings.graphName statements)

end Compiler

end TraceGraph
