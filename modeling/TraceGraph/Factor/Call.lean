import TraceGraph.Factor.Descriptor
import TraceGraph.Report
import TraceGraph.Settings

/-!
# Calls of primitives

A tracer may call a random primitive through a dispatcher, which gets the primitive's name and an array
of its arguments with the tracer's own data at the end.  `unwrap` takes the dispatcher off; `describe`
renders the arguments, finds the primitive's producer and has it describe the call.
-/

namespace TraceGraph.Factor

/-- The primitive and the arguments of a call, without the dispatcher. -/
def unwrap (settings : Settings) (primitive : String) (args : List Node) :
    Except Error (String × List Node) :=
  if primitive ≠ settings.dispatcherName then .ok (primitive, args)
  else match args with
    | name :: arguments :: _ =>
      match name with
      | .const (.str name) =>
        if name = "" then .error (.dispatchedName primitive)
        else match arguments with
          | .array elements => .ok (name, elements.dropLast)
          | _ => .error (.dispatchedArguments primitive)
      | _ => .error (.dispatchedName primitive)
    | _ => .error (.dispatcherArguments primitive args.length)

/-- The draft of a call, with the dispatcher taken off. -/
def draft (settings : Settings) (output primitive : String) (args : List Node) :
    Except Error Draft := do
  let (primitive, args) ← unwrap settings primitive args
  Draft.ofCall output primitive args

/-- Describes a call by the producer that `find` has for the primitive. -/
def describe (settings : Settings) (find : String → Option Producer) (output primitive : String)
    (args : List Node) : Report Descriptor :=
  match draft settings output primitive args with
  | .error e => .silent (.error e)
  | .ok draft =>
    match find draft.primitive with
    | none => .silent (.error (.unknownPrimitive draft.primitive))
    | some producer =>
      match producer.describe draft with
      | .error e => { result := .error e, notices := [.resolved draft.primitive] }
      | .ok d =>
        { result := .ok d
          notices :=
            [.resolved draft.primitive,
             .described output draft.primitive d.variableType.name d.factor] }

end TraceGraph.Factor
