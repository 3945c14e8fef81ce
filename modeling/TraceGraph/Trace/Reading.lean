import TraceGraph.Trace.Node
import TraceGraph.Value.Display
import TraceGraph.Value.Fields

/-!
# Reading a program from a value

`Node.read` reads a node from an object whose field `kind` says what it is.  Fields are looked at in a
fixed order, and the first fault is reported.  A `strict` reading checks what may stand where: arguments
of calls, initializers, statements, tests.  A `loose` one reads any node anywhere, and also the blank
node; each node's own conditions, on names and on the branches of a conditional, hold in both.

The recursion is on the levels of nesting that are left.  Without any, only a scalar can remain, and a
scalar has no fields.
-/

namespace TraceGraph

/-- How much of the grammar a reading checks. -/
inductive Grammar where
  | strict
  | loose
deriving DecidableEq, Repr

/-- The literal that a value is, if it is a scalar. -/
def Literal.ofValue : Value → Except Error Literal
  | .null => .ok .null
  | .bool b => .ok (.bool b)
  | .int n => .ok (.int n)
  | .float x => .ok (.float x)
  | .str s => .ok (.str s)
  | v => .error (.unsupportedLiteral v.typeName)

namespace Node

/-- The node, if the grammar lets it stand where an argument is wanted. -/
def asArgument (grammar : Grammar) (node : Node) : Except Error Node :=
  if grammar = .loose ∨ node.isArgument then .ok node else .error (.argumentKind node.kindName)

/-- The node, if the grammar lets it stand where an initializer is wanted. -/
def asInitializer (grammar : Grammar) (node : Node) : Except Error Node :=
  if grammar = .loose ∨ node.isInitializer then .ok node else .error (.initializerKind node.kindName)

/-- The node, if the grammar lets it stand where a statement is wanted. -/
def asStatement (grammar : Grammar) (node : Node) : Except Error Node :=
  if grammar = .loose ∨ node.isStatement then .ok node else .error (.statementKind node.kindName)

/-- The node, if the grammar lets it stand where a test is wanted. -/
def asTest (grammar : Grammar) : Node → Except Error Node
  | .var name => .ok (.var name)
  | node => if grammar = .loose then .ok node else .error .testNotVariable

/-- The conditional with these branches.  Both have to end with an assignment, and to the same
variable. -/
def conditional (test : Node) (consequent alternate : List Node) : Except Error Node :=
  match consequent.getLast?, alternate.getLast? with
  | some (.assign merge thenValue), some (.assign other elseValue) =>
    if merge = other then
      .ok (.choice test merge consequent.dropLast thenValue alternate.dropLast elseValue)
    else .error (.mergeMismatch merge other)
  | some _, some _ => .error .branchWithoutMerge
  | _, _ => .error .emptyBranch

/-- The kind that an object says it has. -/
def kindOf (fields : List (String × Value)) : Option Kind :=
  match fields.lookup "kind" with
  | some (.str s) => Kind.ofName? s
  | _ => none

/-- The node of an object of no known kind: the blank one, where a loose reading meets its name. -/
def readUnknown (grammar : Grammar) (fields : List (String × Value)) : Except Error Node := do
  let written ← ((fields.lookup "kind").getD .null).writtenText
  if grammar = .loose ∧ written = "node" then return .blank else throw (.unsupportedNode written)

/-- Reads a node of at most so many levels. -/
def read (grammar : Grammar) : Nat → Value → Except Error Node
  | level + 1, .object fields =>
    match kindOf fields with
    | some .var => do
      let name ← (← Value.require fields "name").nameFor .referred
      return .var name
    | some .const => do
      let value ← Literal.ofValue ((fields.lookup "value").getD .null)
      return .const value
    | some .array => do
      let items ← Value.itemsOf fields "elements"
      let elements ← items.mapM fun item => do (← read grammar level item).asArgument grammar
      return .array elements
    | some .raw => do
      let text ← Value.require fields "text"
      return .raw (← text.writtenText)
    | some .call => do
      let callee ← Value.require fields "callee"
      let items ← Value.itemsOf fields "args"
      let args ← items.mapM fun item => do (← read grammar level item).asArgument grammar
      let callee ← callee.nameFor .callee
      return .call callee args
    | some .assign => do
      let init ← (← read grammar level (← Value.require fields "init")).asInitializer grammar
      let name ← (← Value.require fields "name").nameFor .assigned
      return .assign name init
    | some .evidence => do
      let kind ← Value.require fields "evidence"
      let name ← Value.require fields "name"
      match EvidenceKind.ofName? (← kind.writtenText) with
      | none => .error (.evidenceKind kind.text)
      | some kind => do
        let name ← name.nameFor .observed
        return .evidence kind name
    | some .choice => do
      let test ← (← read grammar level (← Value.require fields "test")).asTest grammar
      let items ← Value.itemsOf fields "consequent"
      let consequent ← items.mapM fun item => do (← read grammar level item).asStatement grammar
      let items ← Value.itemsOf fields "alternate"
      let alternate ← items.mapM fun item => do (← read grammar level item).asStatement grammar
      conditional test consequent alternate
    | some .query => do
      let name ← (← Value.require fields "name").nameFor .queried
      return .query name
    | some .program => do
      let items ← Value.itemsOf fields "body"
      let body ← items.mapM fun item => do (← read grammar level item).asStatement grammar
      return .program body
    | none => readUnknown grammar fields
  | _, _ => .error .noFields

theorem read_zero (grammar : Grammar) (v : Value) : read grammar 0 v = .error .noFields := by
  rw [read]
  rintro _ _ h
  cases h

/-- Reads a node. -/
def ofValue (grammar : Grammar) (v : Value) : Except Error Node := read grammar v.height v

end Node

end TraceGraph
