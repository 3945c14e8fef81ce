import TraceGraph.Trace.Reading

/-!
# The shape of syntax trees

A syntax tree in the ESTree format is a value: an object whose field `type` says what node it is.  Before
a node is used, the fields that matter are checked: each has a type, some have a default for when they
are missing, and some may be null.  All other fields are passed over, and so are the insides of child
nodes, which are checked when their turn comes.
-/

namespace TraceGraph.Estree

/-- The type that a node says it is, as text. -/
def typeText (fields : List (String × Value)) : Except Error String :=
  ((fields.lookup "type").getD .null).writtenText

/-- The type of a tree; only an object has one. -/
def typeOf : Value → Except Error String
  | .object fields => typeText fields
  | v => .error (.treeNotObject v.typeName)

/-- Is a tree an object? -/
def isObject : Value → Bool
  | .object _ => true
  | _ => false

/-- Is a tree an object or null? -/
def isObjectOrNull : Value → Bool
  | .object _ | .null => true
  | _ => false

/-- May the node be of this type?  A node that does not say its type may. -/
def hasType (fields : List (String × Value)) (type : String) : Bool :=
  match fields.lookup "type" with
  | none => true
  | some (.str s) => s == type
  | some _ => false

/-- A child node. -/
def child? (fields : List (String × Value)) (key : String) : Option Value :=
  (fields.lookup key).filter isObject

/-- A child node that may be missing or null. -/
def optionalChild? (fields : List (String × Value)) (key : String) : Option (Option Value) :=
  match fields.lookup key with
  | none | some .null => some none
  | some v => if isObject v then some (some v) else none

/-- A list of children that all pass a test. -/
def children? (test : Value → Bool) (fields : List (String × Value)) (key : String) :
    Option (List Value) :=
  match fields.lookup key with
  | some (.list items) => if items.all test then some items else none
  | _ => none

/-- A list of children that all pass a test; none if it is missing. -/
def childrenOrNone? (test : Value → Bool) (fields : List (String × Value)) (key : String) :
    Option (List Value) :=
  match fields.lookup key with
  | none => some []
  | some _ => children? test fields key

/-- A field that is a text. -/
def text? (fields : List (String × Value)) (key : String) : Option String :=
  match fields.lookup key with
  | some (.str s) => some s
  | _ => none

/-- A field that is a text, null or missing. -/
def isOptionalText (fields : List (String × Value)) (key : String) : Bool :=
  match fields.lookup key with
  | none | some .null | some (.str _) => true
  | some _ => false

/-- What a malformed node is called: what it says it is, if it does. -/
def typeLabel (fields : List (String × Value)) : Except Error String :=
  if (fields.lookup "type").isSome then typeText fields else .ok "ESTree"

/-- Checks a node against a shape.  The error names the type that the node says it is. -/
def expect {α : Type} (shape : List (String × Value) → Option α) : Value → Except Error α
  | .object fields =>
    match shape fields with
    | some a => .ok a
    | none => do throw (.malformedTree (← typeLabel fields))
  | v => .error (.treeNotObject v.typeName)

/-! ### The shapes -/

/-- A program or a block: its statements. -/
def bodyShape (type : String) (fields : List (String × Value)) : Option (List Value) :=
  if hasType fields type then childrenOrNone? isObject fields "body" else none

/-- A declaration: one declarator or more. -/
def declarationShape (fields : List (String × Value)) : Option (List Value) :=
  if hasType fields "VariableDeclaration" then
    (children? isObject fields "declarations").filter fun items => !items.isEmpty
  else none

/-- A declarator: what it declares, and the initializer if there is one. -/
def declaratorShape (fields : List (String × Value)) : Option (Value × Option Value) := do
  guard (hasType fields "VariableDeclarator")
  return (← child? fields "id", ← optionalChild? fields "init")

/-- An expression statement: its expression. -/
def expressionShape (fields : List (String × Value)) : Option Value := do
  guard (hasType fields "ExpressionStatement")
  child? fields "expression"

/-- A conditional: its test, its branch, and the other branch if there is one. -/
def conditionalShape (fields : List (String × Value)) : Option (Value × Value × Option Value) := do
  guard (hasType fields "IfStatement")
  return (← child? fields "test", ← child? fields "consequent", ← optionalChild? fields "alternate")

/-- An identifier: its name, which is not empty. -/
def identifierShape (fields : List (String × Value)) : Option String := do
  guard (hasType fields "Identifier")
  (text? fields "name").filter fun name => name != ""

/-- A literal: its value, null if it is missing. -/
def literalShape (fields : List (String × Value)) : Option Literal := do
  guard (hasType fields "Literal" && isOptionalText fields "raw")
  (Literal.ofValue ((fields.lookup "value").getD .null)).toOption

/-- An array: its elements, where a hole is null. -/
def arrayShape (fields : List (String × Value)) : Option (List Value) := do
  guard (hasType fields "ArrayExpression")
  childrenOrNone? isObjectOrNull fields "elements"

/-- A call: what is called, and the arguments. -/
def callShape (fields : List (String × Value)) : Option (Value × List Value) := do
  guard (hasType fields "CallExpression")
  return (← child? fields "callee", ← childrenOrNone? isObject fields "arguments")

/-- A unary expression: the operator and the operand. -/
def unaryShape (fields : List (String × Value)) : Option (String × Value) := do
  guard (hasType fields "UnaryExpression")
  return (← text? fields "operator", ← child? fields "argument")

end TraceGraph.Estree
