import TraceGraph.Java.Statement
import TraceGraph.Report
import TraceGraph.Settings
import TraceGraph.Trace.Node

/-!
# Evidence

A condition fixes its variable to the value from the settings; a weight attaches the evidence factor
to its variable alone.  Variables are bits as a rule, so fixing one of another type is worth a notice.
-/

namespace TraceGraph.Evidence

/-- What a condition fixes its variable to, as text.  An integer of too many digits has none. -/
def fixedText (settings : Settings) : Except Error String :=
  if settings.conditionValue.hasText then .ok settings.conditionValue.text
  else .error .tooManyDigits

/-- The statement that a piece of evidence becomes. -/
def statement (settings : Settings) (name : String) : EvidenceKind → Except Error Java.Statement
  | .condition => do return .fixValue name (← fixedText settings)
  | .factor => .ok (.addFactor settings.evidenceFactor name [] [])

/-- What is worth telling of evidence on a variable declared with a type. -/
def notices (settings : Settings) (name : String) (declared : Option String) :
    EvidenceKind → List Notice
  | .condition =>
    match declared with
    | none => []
    | some type =>
      if type = "Bit" then [] else [.fixedType name type settings.conditionValue.text]
  | .factor => []

/-- Evidence stated by the name of its kind. -/
def report (settings : Settings) (kind name : String) (declared : Option String) :
    Report (List Java.Statement) :=
  match EvidenceKind.ofName? kind with
  | none => .silent (.error (.unknownEvidence kind))
  | some kind =>
    match statement settings name kind with
    | .error e => .silent (.error e)
    | .ok statement => { result := .ok [statement], notices := notices settings name declared kind }

/-- The variable that an evidence call is about: its only argument. -/
def target (callee : String) : List Node → Except Error String
  | [.var name] => .ok name
  | _ => .error (.evidenceArguments callee)

end TraceGraph.Evidence
