import TraceGraph.Evidence
import TraceGraph.Factor.Call

/-!
# From a traced program to a factor graph

One pass over the program, depth first, emits the statements that build its factor graph.

* A call declares a variable and adds the factor that its producer describes.
* An alias declares a variable of its source's type, tied to it by a factor.
* A literal becomes a plain local.
* Evidence and the query become the statements that their modules give.
* A conditional runs both of its branches: their statements are emitted one after the other, and a
  multiplexer picks the merge variable's value by the test.  Since a zero picks the first input, the
  alternate value stands before the consequent one.  Evidence and queries cannot be made conditional,
  so there are none inside a branch; and a call that gives the merge variable its value is assigned to
  a variable of its own first, whose name must be free.

The pass keeps the type of each variable declared so far and the names that the program assigns
anywhere.  Notices outlive a failure, so they are part of the state.
-/

namespace TraceGraph

/-- What a compilation depends on: the settings, and the producer of each primitive. -/
structure Compiler where
  settings : Settings
  find : String → Option Factor.Producer

namespace Compiler

/-- What is known in the middle of a compilation. -/
structure Scope where
  /-- The statements emitted so far. -/
  output : List Java.Statement := []
  /-- The variables declared so far with their types, the latest first. -/
  types : List (String × VariableType) := []
  /-- The names that the program assigns, anywhere. -/
  assigned : List String := []
  notices : List Notice := []
deriving Inhabited

/-- A step of a compilation. -/
abbrev Step (α : Type) := EStateM Error Scope α

/-- The type that a variable was last declared with. -/
def typeOf (name : String) : Step (Option VariableType) := do
  return (← get).types.lookup name

/-- A step that fails or gives a value. -/
def lift {α : Type} : Except Error α → Step α
  | .ok a => pure a
  | .error e => throw e

/-- Emits statements. -/
def emit (statements : List Java.Statement) : Step Unit :=
  modify fun s => { s with output := s.output ++ statements }

/-- Gives notices. -/
def tell (notices : List Notice) : Step Unit :=
  modify fun s => { s with notices := s.notices ++ notices }

/-- Records the type of a variable. -/
def declare (name : String) (type : VariableType) : Step Unit :=
  modify fun s => { s with types := (name, type) :: s.types }

/-- Emits a variable of a type with its factor. -/
def emitVariable (type : VariableType) (name factor : String) (inputs : List String) : Step Unit := do
  declare name type
  emit [.declareVariable type.name name [], .addFactor factor name [] inputs]

/-- States evidence. -/
def observe (c : Compiler) (kind : EvidenceKind) (name : String) : Step Unit := do
  let declared := (← typeOf name).map VariableType.name
  let statement ← lift (Evidence.statement c.settings name kind)
  tell (Evidence.notices c.settings name declared kind)
  emit [statement]

/-- Assigns a call of a primitive. -/
def assignCall (c : Compiler) (name callee : String) (args : List Node) : Step Unit := do
  let report := Factor.describe c.settings c.find name callee args
  tell report.notices
  match report.result with
  | .error e => throw e
  | .ok d =>
    declare name d.variableType
    emit d.statements

/-- Assigns an alias; its type is that of the source, or a bit if that has none. -/
def assignAlias (c : Compiler) (name source : String) : Step Unit := do
  match ← typeOf source with
  | some type => emitVariable type name c.settings.aliasFactor [source]
  | none =>
    tell [.aliasUntyped name source]
    emitVariable .bit name c.settings.aliasFactor [source]

/-- The Java type of a local that holds a literal. -/
def localType (name : String) : Literal → Except Error String
  | .null => .error (.malformedLiteral name "null has no Java type")
  | .bool _ => .ok "boolean"
  | .int _ => .ok "int"
  | .float _ => .ok "double"
  | .str _ => .ok "String"

/-- Assigns an initializer to a name. -/
def assign (c : Compiler) (name : String) : Node → Step Unit
  | .call callee args =>
    match EvidenceKind.ofName? callee with
    | some kind => do
      let target ← lift (Evidence.target callee args)
      c.observe kind target
    | none => c.assignCall name callee args
  | .var source => c.assignAlias name source
  | .const value => do
    let type ← lift (localType name value)
    let text ← lift value.java
    emit [.declareLocal type name text]
  | .array elements =>
    if elements.isEmpty then throw (.malformedLiteral name "empty array has no element type")
    else do
      let text ← lift (Node.array elements).java
      emit [.declareLocal (Node.elementType elements ++ "[]") name text]
  | node => throw (.unsupportedNode node.description)

/-- Asks for the belief of a variable. -/
def ask (c : Compiler) (name : String) : Step Unit :=
  emit [.setIterations c.settings.iterations, .solve,
        .extractBelief c.settings.beliefName name, .printBelief c.settings.beliefName]

/-- The two branches of a conditional. -/
inductive Branch where
  | consequent
  | alternate
deriving DecidableEq, Repr

/-- The word for a branch. -/
def Branch.name : Branch → String
  | .consequent => "then"
  | .alternate => "else"

/-- The variable that holds the value of a branch if that is a call. -/
def Branch.variableName (branch : Branch) (merge : String) : String :=
  merge ++ "_" ++ branch.name

/-- The value that a branch gives the merge variable, and its type if it is known. -/
def branchValue (c : Compiler) (merge : String) (branch : Branch) :
    Node → Step (String × Option VariableType)
  | .var name => do return (name, ← typeOf name)
  | .const (.bool b) => return (if b then "1" else "0", some .bit)
  | .const value => do
    let text ← lift value.java
    return (text, if value.isNumber then some .real else none)
  | .call callee args =>
    if (EvidenceKind.ofName? callee).isSome then throw (.mergeFromEvidence merge callee)
    else do
      let name := branch.variableName merge
      let scope ← get
      if (scope.types.lookup name).isSome ∨ name ∈ scope.assigned then throw (.branchValueTaken name)
      c.assignCall name callee args
      return (name, ← typeOf name)
  | node => throw (.unsupportedNode ("branch value " ++ node.description))

/-- Emits the merge variable of a conditional. -/
def emitMerge (c : Compiler) (merge : String) (type : Option VariableType)
    (inputs : List String) : Step Unit := do
  match type with
  | some type => emitVariable type merge c.settings.multiplexerFactor inputs
  | none =>
    tell [.mergeUntyped merge]
    emitVariable .bit merge c.settings.multiplexerFactor inputs

/-- Does a statement state evidence, on its own or as an assigned call? -/
def isEvidence : Node → Bool
  | .evidence .. => true
  | .assign _ (.call callee _) => (EvidenceKind.ofName? callee).isSome
  | _ => false

/-- The variable that a query asks for. -/
def queried? : Node → Option String
  | .query name => some name
  | _ => none

mutual

/-- The names that a statement assigns, in its branches too. -/
def namesOf : Node → List String
  | .assign name _ => [name]
  | .choice _ merge thenBody _ elseBody _ =>
    namesOfAll thenBody ++ merge :: (namesOfAll elseBody ++ [merge])
  | _ => []

/-- The names that statements assign. -/
def namesOfAll : List Node → List String
  | [] => []
  | node :: rest => namesOf node ++ namesOfAll rest

end

/-- Takes note of the names that a program assigns. -/
def enter (body : List Node) : Step Unit :=
  modify fun s => { s with assigned := s.assigned ++ namesOfAll body }

mutual

/-- Compiles a node.  A variable stands for its name. -/
def visit (c : Compiler) : Node → Step (Option String)
  | .var name => return some name
  | .program body => do
    enter body
    c.visitBody body
    return none
  | .assign name init => do
    c.assign name init
    return none
  | .evidence kind name => do
    c.observe kind name
    return none
  | .choice test merge thenBody thenValue elseBody elseValue => do
    let selector ← c.visit test
    c.visitBranch merge .consequent thenBody
    let (consequent, thenType) ← c.branchValue merge .consequent thenValue
    c.visitBranch merge .alternate elseBody
    let (alternate, elseType) ← c.branchValue merge .alternate elseValue
    c.emitMerge merge (thenType <|> elseType) [selector.getD "None", alternate, consequent]
    return none
  | .query name => do
    c.ask name
    return none
  | node => throw (.unsupportedNode node.description)

/-- Compiles the statements of a program, where a query can only be the last. -/
def visitBody (c : Compiler) : List Node → Step Unit
  | [] => return ()
  | node :: rest => do
    match queried? node, rest with
    | some name, _ :: _ => throw (.queryNotLast name)
    | _, _ =>
      let _ ← c.visit node
      c.visitBody rest

/-- Compiles the statements of a branch, among which there is neither a query nor evidence. -/
def visitBranch (c : Compiler) (merge : String) (branch : Branch) : List Node → Step Unit
  | [] => return ()
  | node :: rest => do
    match queried? node with
    | some name => throw (.queryInBranch name)
    | none =>
      if isEvidence node then throw (.evidenceInBranch branch.name merge)
      let _ ← c.visit node
      c.visitBranch merge branch rest

end

/-- The statements that a program of these statements becomes. -/
def statements (c : Compiler) (body : List Node) : Report (List Java.Statement) :=
  match (c.visit (.program body)).run {} with
  | .error e s => { result := .error e, notices := s.notices }
  | .ok _ s =>
    { result := .ok s.output
      notices := s.notices ++ [.compiled body.length s.output.length] }

end Compiler

end TraceGraph
