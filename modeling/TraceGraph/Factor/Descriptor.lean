import TraceGraph.Java.Expression
import TraceGraph.Java.Statement

/-!
# Describing a factor

A call of a primitive becomes a variable with a factor.  What is known of the call is handed to a
producer as a `Draft`; the producer chooses the type of the variable, the factor and how the arguments
are wired to it; and `Draft.complete` checks the choice and fills in what was left open.
-/

namespace TraceGraph

/-- The types of graph variables. -/
inductive VariableType where
  | discrete
  | bit
  | real
  | realJoint
  | finiteField
deriving DecidableEq, Inhabited, Repr

namespace VariableType

/-- The class of a variable type. -/
def name : VariableType → String
  | .discrete => "Discrete"
  | .bit => "Bit"
  | .real => "Real"
  | .realJoint => "RealJoint"
  | .finiteField => "FiniteFieldVariable"

/-- All variable types. -/
def all : List VariableType := [.discrete, .bit, .real, .realJoint, .finiteField]

/-- The variable type of a class. -/
def ofName? (s : String) : Option VariableType := all.find? fun t => t.name == s

@[simp]
theorem ofName?_name (t : VariableType) : ofName? t.name = some t := by
  cases t <;> decide

theorem name_of_ofName? {s : String} {t : VariableType} (h : ofName? s = some t) : t.name = s := by
  simpa using List.find?_some (p := fun t : VariableType => t.name == s) h

end VariableType

namespace Factor

/-- A factor in the making. -/
structure Draft where
  /-- The variable that is declared. -/
  output : String
  /-- The primitive that is called. -/
  primitive : String
  args : List Node
  /-- The arguments as Java expressions. -/
  rendered : List String
  variableType : Option String := none
  factor : Option String := none
  /-- What the factor is constructed with. -/
  factorArgs : Option (List String) := none
  /-- The variables that the factor joins to its output. -/
  inputs : Option (List String) := none
  /-- What the variable is constructed with, such as its domain. -/
  variableArgs : Option (List String) := none
deriving Inhabited, Repr

/-- A variable and its factor. -/
structure Descriptor where
  output : String
  primitive : String
  args : List Node
  rendered : List String
  variableType : VariableType
  factor : String
  factorArgs : List String
  inputs : List String
  variableArgs : List String
deriving Inhabited, Repr

namespace Draft

/-- The draft that a call starts with. -/
def ofCall (output primitive : String) (args : List Node) : Except Error Draft := do
  return { output, primitive, args, rendered := ← Node.javaAll args }

/-- The finished description.  The producer has to choose a type that exists and a factor; argument
lists left open are empty. -/
def complete (draft : Draft) : Except Error Descriptor :=
  match draft.variableType with
  | none => .error (.variableTypeMissing draft.primitive)
  | some type =>
    match VariableType.ofName? type with
    | none => .error (.variableTypeUnknown draft.primitive type)
    | some variableType =>
      match draft.factor with
      | none | some "" => .error (.constructorMissing draft.primitive)
      | some factor =>
        .ok { output := draft.output
              primitive := draft.primitive
              args := draft.args
              rendered := draft.rendered
              variableType
              factor
              factorArgs := draft.factorArgs.getD []
              inputs := draft.inputs.getD []
              variableArgs := draft.variableArgs.getD [] }

end Draft

namespace Descriptor

/-- The declaration of the variable. -/
def declaration (d : Descriptor) : Java.Statement :=
  .declareVariable d.variableType.name d.output d.variableArgs

/-- The factor on the variable. -/
def attachment (d : Descriptor) : Java.Statement :=
  .addFactor d.factor d.output d.factorArgs d.inputs

/-- The variable is declared, and its factor added. -/
def statements (d : Descriptor) : List Java.Statement := [d.declaration, d.attachment]

end Descriptor

/-- A rule that describes the calls of a primitive. -/
structure Producer where
  /-- What the producer is called where one has to be told from another. -/
  label : String
  fill : Draft → Except Error Draft

/-- Runs a producer on a draft and checks what it chose. -/
def Producer.describe (producer : Producer) (draft : Draft) : Except Error Descriptor := do
  (← producer.fill draft).complete

end Factor

end TraceGraph
