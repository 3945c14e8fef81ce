import TraceGraph.Proofs.Declaration

/-!
# What programs and their code mean

A traced program and the code that is generated for it are given a meaning over the same values.
A `Meaning` says which values count as true, what the text of a literal stands for, and what value a
factor gives its output, from the factor's name and parameters and the values of its inputs.

* `Trace.run` runs a program: a conditional runs the branch that its test picks and no other.  The run is
  stuck where a variable has no value.
* `Java.run` runs generated code, statement by statement; there are no conditionals in it.  A factor of
  the three kinds that the settings name copies, picks or weighs, and any other gives its output a value.

Both keep the values of variables, the evidence that was stated and the answer to the query.
-/

namespace TraceGraph

universe u

/-- A domain of values for programs and code. -/
structure Meaning (V : Type u) where
  /-- Does a value count as true? -/
  truth : V → Bool
  /-- What the text of a literal stands for. -/
  literal : String → V
  /-- The value of an output, from its factor, the parameters of the factor and the inputs. -/
  interpret : (output factor : String) → (factorArgs : List String) → (inputs : List V) → V

/-- A piece of evidence: a variable with its value, and the text that a condition fixes it to. -/
structure Observation (V : Type u) where
  name : String
  value : V
  fixedTo : Option String

/-- What is known in the middle of a run. -/
structure Run (V : Type u) where
  value? : String → Option V := fun _ => none
  observations : List (Observation V) := []
  /-- The variable that was asked for, with its value. -/
  answer : Option (String × V) := none

namespace Run

variable {V : Type u}

/-- Gives a variable a value. -/
def assign (s : Run V) (name : String) (v : V) : Run V :=
  { s with value? := fun x => if x = name then some v else s.value? x }

/-- Takes note of evidence. -/
def observe (s : Run V) (observation : Observation V) : Run V :=
  { s with observations := s.observations ++ [observation] }

/-- Answers the query. -/
def reply (s : Run V) (name : String) (v : V) : Run V := { s with answer := some (name, v) }

variable (s : Run V) (name x : String) (v : V) (observation : Observation V)

@[simp] theorem value?_assign_self : (s.assign name v).value? name = some v := by
  simp [assign]

theorem value?_assign_of_ne (h : x ≠ name) : (s.assign name v).value? x = s.value? x := by
  simp [assign, h]

@[simp] theorem observations_assign : (s.assign name v).observations = s.observations := rfl

@[simp] theorem answer_assign : (s.assign name v).answer = s.answer := rfl

@[simp] theorem value?_observe : (s.observe observation).value? = s.value? := rfl

@[simp] theorem observations_observe :
    (s.observe observation).observations = s.observations ++ [observation] := rfl

@[simp] theorem answer_observe : (s.observe observation).answer = s.answer := rfl

@[simp] theorem value?_reply : (s.reply name v).value? = s.value? := rfl

@[simp] theorem observations_reply : (s.reply name v).observations = s.observations := rfl

@[simp] theorem answer_reply : (s.reply name v).answer = some (name, v) := rfl

end Run

/-- The text that evidence fixes its variable to, if it is a condition. -/
def Evidence.fixedTo (settings : Settings) : EvidenceKind → Option String
  | .condition => some settings.conditionValue.text
  | .factor => none

/-! ### Programs -/

namespace Trace

open Compiler (Branch)

variable {V : Type u} (M : Meaning V) (settings : Settings)

/-- The value of an argument: that of the variable, or what its text stands for. -/
def argumentValue (s : Run V) : Node → Option V
  | .var name => s.value? name
  | arg => arg.java.toOption.map M.literal

/-- The value that a call gives a variable.  Its factor may have all of the arguments as inputs, or none
of them. -/
def callValue (s : Run V) (output callee : String) (args : List Node) : Option V :=
  match (Factor.describe settings Factor.Registry.builtin.find? output callee args).result with
  | .error _ => none
  | .ok d =>
    (if d.inputs.isEmpty then some [] else d.args.mapM (argumentValue M s)).map
      (M.interpret output d.factor d.factorArgs)

/-- The value that an initializer gives a variable. -/
def initialValue (s : Run V) (output : String) : Node → Option V
  | .call callee args => callValue M settings s output callee args
  | .var source => s.value? source
  | .const value => value.java.toOption.map M.literal
  | .array elements => (Node.array elements).java.toOption.map M.literal
  | _ => none

/-- The value at the end of a branch.  A call gives it to a variable of the branch, and a Boolean is a
bit. -/
def valueAtEnd (s : Run V) (merge : String) (branch : Branch) : Node → Option V
  | .const value => (branchText value).toOption.map M.literal
  | value => initialValue M settings s (branch.variableName merge) value

/-- States evidence on a variable. -/
def stateEvidence (s : Run V) (kind : EvidenceKind) (name : String) : Option (Run V) :=
  (s.value? name).map fun v => s.observe ⟨name, v, Evidence.fixedTo settings kind⟩

mutual

/-- Runs a statement. -/
def runNode : Node → Run V → Option (Run V)
  | .assign name (.call callee args), s =>
    match EvidenceKind.ofName? callee, args with
    | some kind, [.var target] => stateEvidence settings s kind target
    | some _, _ => none
    | none, args => (callValue M settings s name callee args).map (s.assign name)
  | .assign name init, s => (initialValue M settings s name init).map (s.assign name)
  | .evidence kind name, s => stateEvidence settings s kind name
  | .choice test merge thenBody thenValue elseBody elseValue, s =>
    (argumentValue M s test).bind fun v =>
      if M.truth v then
        (run thenBody s).bind fun s =>
          (valueAtEnd M settings s merge .consequent thenValue).map (s.assign merge)
      else
        (run elseBody s).bind fun s =>
          (valueAtEnd M settings s merge .alternate elseValue).map (s.assign merge)
  | .query name, s => (s.value? name).map (s.reply name)
  | _, _ => none

/-- Runs the statements of a body. -/
def run : List Node → Run V → Option (Run V)
  | [], s => some s
  | node :: rest, s => (runNode node s).bind (run rest)

end

end Trace

/-! ### Generated code -/

namespace Java

variable {V : Type u} (M : Meaning V) (settings : Settings)

/-- The value of an expression: that of the variable of this name, or what the text stands for. -/
def expressionValue (s : Run V) (text : String) : V := (s.value? text).getD (M.literal text)

/-- Runs a statement. -/
def step (s : Run V) : Statement → Run V
  | .addFactor factor output factorArgs inputs =>
    if factor = settings.multiplexerFactor then
      match inputs.map (expressionValue M s) with
      | [selector, alternate, consequent] =>
        s.assign output (if M.truth selector then consequent else alternate)
      | _ => s
    else if factor = settings.aliasFactor then
      match inputs.map (expressionValue M s) with
      | [source] => s.assign output source
      | _ => s
    else if factor = settings.evidenceFactor then
      s.observe ⟨output, expressionValue M s output, none⟩
    else s.assign output (M.interpret output factor factorArgs (inputs.map (expressionValue M s)))
  | .fixValue name text => s.observe ⟨name, expressionValue M s name, some text⟩
  | .declareLocal _ name text => s.assign name (M.literal text)
  | .extractBelief _ name => s.reply name (expressionValue M s name)
  | _ => s

/-- Runs statements one after the other. -/
def run (s : Run V) (statements : List Statement) : Run V := statements.foldl (step M settings) s

@[simp] theorem run_nil (s : Run V) : run M settings s [] = s := rfl

@[simp] theorem run_append (s : Run V) (a b : List Statement) :
    run M settings s (a ++ b) = run M settings (run M settings s a) b :=
  List.foldl_append

end Java

/-- The factors of evidence, of conditionals and of aliases can be told from each other and from those of
the built-in primitives. -/
def Settings.DistinctFactors (settings : Settings) : Prop :=
  [settings.evidenceFactor, settings.multiplexerFactor, settings.aliasFactor].Nodup ∧
    ∀ factor ∈ Factor.builtinFactors,
      factor ∉ [settings.evidenceFactor, settings.multiplexerFactor, settings.aliasFactor]

instance (settings : Settings) : Decidable settings.DistinctFactors :=
  inferInstanceAs (Decidable (_ ∧ _))

end TraceGraph
