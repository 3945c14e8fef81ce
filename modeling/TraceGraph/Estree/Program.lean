import TraceGraph.Estree.Shape
import TraceGraph.Estree.Text
import TraceGraph.Evidence

/-!
# From a syntax tree to a traced program

Statements: a declaration of one variable is an assignment, a call of `condition` or `factor` is
evidence, a bare identifier is a query, and an `if` with an `else` is a conditional.  Empty statements
leave no trace.

Expressions: identifiers, literals, arrays and negated numbers are understood.  Any other argument of a
call is kept as text, and so is a callee that is no identifier; anywhere else such an expression is
refused.
-/

namespace TraceGraph.Estree

/-- An identifier's name. -/
def identifier (v : Value) : Except Error String := expect identifierShape v

/-- A negated number, if the unary expression is one. -/
def negatedNumber? (v : Value) : Except Error (Option Literal) := do
  let (operator, argument) ← expect unaryShape v
  if operator ≠ "-" then return none
  if (← typeOf argument) ≠ "Literal" then return none
  match ← expect literalShape argument with
  | .int n => return some (.int (-n))
  | .float x => return some (.float (-x))
  | _ => return none

/-- An argument of at most so many levels. -/
def argumentWithin : Nat → Value → Except Error Node
  | level + 1, .object fields =>
    let v : Value := .object fields
    match expressionType? fields with
    | some .literal => do return .const (← expect literalShape v)
    | some .identifier => do return .var (← identifier v)
    | some .array => do
      let items ← expect arrayShape v
      let elements ← items.mapM fun
        | .null => .error .sparseArray
        | item => argumentWithin level item
      return .array elements
    | some .unary => do
      match ← negatedNumber? v with
      | some value => return .const value
      | none => return .raw (← expressionText v)
    | _ => do return .raw (← expressionText v)
  | _, v => .error (.treeNotObject v.typeName)

/-- An argument of a call or an element of an array. -/
def argument (v : Value) : Except Error Node := argumentWithin v.height v

/-- What a call calls: a name, or else the text of an expression. -/
def callee (v : Value) : Except Error String := do
  if (← typeOf v) = "Identifier" then identifier v else expressionText v

/-- The callee and the arguments of a call. -/
def call (v : Value) : Except Error (String × List Node) := do
  let (function, items) ← expect callShape v
  let name ← callee function
  let args ← items.mapM argument
  if name = "" then throw (.emptyName .callee)
  return (name, args)

/-- What a variable is assigned. -/
def initializer (v : Value) : Except Error Node := do
  let type ← typeOf v
  match ExpressionType.ofName? type with
  | some .call => do
    let (name, args) ← call v
    return .call name args
  | some .identifier => do return .var (← identifier v)
  | some .literal => do return .const (← expect literalShape v)
  | some .array => argument v
  | some .unary => do
    match ← negatedNumber? v with
    | some value => return .const value
    | none => throw (.unsupportedNode type)
  | _ => throw (.unsupportedNode type)

/-- A declaration: one declarator, of a name, with an initializer. -/
def declaration (v : Value) : Except Error Node := do
  match ← expect declarationShape v with
  | [declarator] => do
    let (id, init) ← expect declaratorShape declarator
    let idType ← typeOf id
    if idType ≠ "Identifier" then throw (.unsupportedNode ("VariableDeclarator id " ++ idType))
    let name ← identifier id
    match init with
    | none => throw (.malformedLiteral name "declaration has no initializer")
    | some init => return .assign name (← initializer init)
  | declarators => throw (.declaratorCount declarators.length)

/-- An expression statement: a query or evidence. -/
def expressionStatement (v : Value) : Except Error Node := do
  let expression ← expect expressionShape v
  let type ← typeOf expression
  match ExpressionType.ofName? type with
  | some .identifier => do return .query (← identifier expression)
  | some .call => do
    let (name, args) ← call expression
    match EvidenceKind.ofName? name with
    | some kind => return .evidence kind (← Evidence.target name args)
    | none => throw (.unsupportedNode ("ExpressionStatement " ++ type))
  | _ => throw (.unsupportedNode ("ExpressionStatement " ++ type))

/-- The types of statements that are understood. -/
inductive StatementType where
  | empty | declaration | expression | conditional
deriving DecidableEq, Repr

namespace StatementType

/-- The name of a type in a syntax tree. -/
def name : StatementType → String
  | .empty => "EmptyStatement"
  | .declaration => "VariableDeclaration"
  | .expression => "ExpressionStatement"
  | .conditional => "IfStatement"

/-- All types of statements that are understood. -/
def all : List StatementType := [.empty, .declaration, .expression, .conditional]

/-- The type of a name. -/
def ofName? (s : String) : Option StatementType := all.find? fun t => t.name == s

end StatementType

/-- The statements of a branch: those of a block, or the one statement that it is. -/
def branchItems (v : Value) : Except Error (List Value) := do
  if (← typeOf v) = "BlockStatement" then expect (bodyShape "BlockStatement") v else return [v]

/-- A statement of at most so many levels; an empty one is none. -/
def statementWithin : Nat → Value → Except Error (Option Node)
  | level + 1, .object fields => do
    let v : Value := .object fields
    let type ← typeOf v
    match StatementType.ofName? type with
    | some .empty => return none
    | some .declaration => return some (← declaration v)
    | some .expression => return some (← expressionStatement v)
    | some .conditional => do
      let (test, consequent, alternate) ← expect conditionalShape v
      let testType ← typeOf test
      if testType ≠ "Identifier" then throw (.unsupportedNode ("IfStatement test " ++ testType))
      match alternate with
      | none => throw .missingElse
      | some alternate => do
        let test ← identifier test
        let thenItems ← branchItems consequent
        let thenBranch ← thenItems.mapM (statementWithin level)
        let elseItems ← branchItems alternate
        let elseBranch ← elseItems.mapM (statementWithin level)
        let node ← Node.conditional (.var test) (thenBranch.filterMap id) (elseBranch.filterMap id)
        return some node
    | none => throw (.unsupportedNode type)
  | _, v => .error (.treeNotObject v.typeName)

/-- A statement; an empty one is none. -/
def statement (v : Value) : Except Error (Option Node) := statementWithin v.height v

/-- The statements of a program. -/
def program (v : Value) : Except Error (List Node) := do
  let items ← expect (bodyShape "Program") v
  let body ← items.mapM statement
  return body.filterMap id

end TraceGraph.Estree
