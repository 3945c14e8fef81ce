/-!
# Traced programs

A tracer records what a probabilistic program did as a list of statements in a simple form: each
assigns a variable once, by a call, an alias or a literal; evidence is stated of variables; a conditional
picks the value of one merge variable; and a query may end the program.

All of it is one type of `Node`, so that a node may be looked at before it is known where it stands.
The grammar that says what may stand where is checked on reading (`Trace/Reading.lean`).  One rule is
in the type: both branches of a conditional end by giving the merge variable its value, so a branch
is the statements before that, and the value.
-/

namespace TraceGraph

/-- A literal of a traced program. -/
inductive Literal where
  | null
  | bool (b : Bool)
  | int (n : Int)
  | float (x : Float)
  | str (s : String)
deriving DecidableEq, Inhabited, Repr

/-- The two ways to state evidence: a variable is observed, or it weighs the run. -/
inductive EvidenceKind where
  | condition
  | factor
deriving DecidableEq, Inhabited, Repr

namespace EvidenceKind

/-- The function that states the evidence. -/
def name : EvidenceKind → String
  | .condition => "condition"
  | .factor => "factor"

/-- The evidence that a function states, if it is one of the two. -/
def ofName? (s : String) : Option EvidenceKind :=
  if s = "condition" then some .condition else if s = "factor" then some .factor else none

@[simp]
theorem ofName?_name (k : EvidenceKind) : ofName? k.name = some k := by
  cases k <;> decide

theorem name_of_ofName? {s : String} {k : EvidenceKind} (h : ofName? s = some k) : k.name = s := by
  unfold ofName? at h
  split at h
  · next hs => cases h; exact hs.symm
  · split at h
    · next hs => cases h; exact hs.symm
    · cases h

end EvidenceKind

/-- A node of a traced program. -/
inductive Node where
  /-- A node of no kind. -/
  | blank
  /-- A reference to a variable. -/
  | var (name : String)
  | const (value : Literal)
  /-- A literal array. -/
  | array (elements : List Node)
  /-- An expression that is kept as text. -/
  | raw (text : String)
  /-- A call of a primitive. -/
  | call (callee : String) (args : List Node)
  | assign (name : String) (init : Node)
  | evidence (kind : EvidenceKind) (name : String)
  /-- A conditional.  Each branch runs some statements and gives the merge variable a value. -/
  | choice (test : Node) (merge : String) (thenBody : List Node) (thenValue : Node)
      (elseBody : List Node) (elseValue : Node)
  /-- Asks for the belief of a variable. -/
  | query (name : String)
  | program (body : List Node)
deriving Inhabited, Repr

namespace Node

/-- The kinds of nodes that have a written form. -/
inductive Kind where
  | var | const | array | raw | call | assign | evidence | choice | query | program
deriving DecidableEq, Repr

/-- The written name of a kind. -/
def Kind.name : Kind → String
  | .var => "var"
  | .const => "const"
  | .array => "array"
  | .raw => "raw"
  | .call => "call"
  | .assign => "assign"
  | .evidence => "evidence"
  | .choice => "if"
  | .query => "query"
  | .program => "program"

/-- All kinds. -/
def Kind.all : List Kind :=
  [.var, .const, .array, .raw, .call, .assign, .evidence, .choice, .query, .program]

/-- The kind of a written name. -/
def Kind.ofName? (s : String) : Option Kind := Kind.all.find? fun k => k.name == s

@[simp]
theorem Kind.ofName?_name (k : Kind) : Kind.ofName? k.name = some k := by
  cases k <;> decide

theorem Kind.name_of_ofName? {s : String} {k : Kind} (h : Kind.ofName? s = some k) : k.name = s := by
  simpa using List.find?_some (p := fun k : Kind => k.name == s) h

/-- The kind of a node; a blank node has none. -/
def kind? : Node → Option Kind
  | .blank => none
  | .var _ => some .var
  | .const _ => some .const
  | .array _ => some .array
  | .raw _ => some .raw
  | .call .. => some .call
  | .assign .. => some .assign
  | .evidence .. => some .evidence
  | .choice .. => some .choice
  | .query _ => some .query
  | .program _ => some .program

/-- The written name of a node's kind. -/
def kindName (node : Node) : String := (node.kind?.map Kind.name).getD "node"

/-- What a node is called in messages. -/
def description : Node → String
  | .blank => "IRNode"
  | .var _ => "Var"
  | .const _ => "Const"
  | .array _ => "ArrayLit"
  | .raw _ => "RawExpr"
  | .call .. => "Call"
  | .assign .. => "Assign"
  | .evidence .. => "Evidence"
  | .choice .. => "If"
  | .query _ => "Query"
  | .program _ => "Program"

/-- May the node be an argument of a call or an element of an array? -/
def isArgument : Node → Bool
  | .var _ | .const _ | .array _ | .raw _ => true
  | _ => false

/-- May the node be what a variable is assigned? -/
def isInitializer : Node → Bool
  | .call .. | .var _ | .const _ | .array _ => true
  | _ => false

/-- May the node be a statement? -/
def isStatement : Node → Bool
  | .assign .. | .evidence .. | .choice .. | .query _ => true
  | _ => false

end Node

end TraceGraph
