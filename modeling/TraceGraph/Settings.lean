import TraceGraph.Value.Display
import TraceGraph.Value.Fields

/-!
# Settings

The names and constants that end up in the generated code.  `Settings.ofFields` reads them from named
values: an unknown name is refused first, then the texts are checked in order, and last the number of
iterations.  The value that a condition fixes a variable to is taken as it is.
-/

namespace TraceGraph

/-- The names and constants of the generated code. -/
structure Settings where
  /-- The local that holds the factor graph. -/
  graphName : String := "myGraph"
  /-- How many iterations the solver runs. -/
  iterations : Int := 10000
  /-- The array that holds the belief asked for. -/
  beliefName : String := "belief"
  /-- The function through which primitives are drawn from. -/
  dispatcherName : String := "random"
  /-- What a condition fixes its variable to. -/
  conditionValue : Value := .int 1
  /-- The factor that a weight becomes. -/
  evidenceFactor : String := "Identity"
  /-- The factor that picks the value of a conditional. -/
  multiplexerFactor : String := "Multiplexer"
  /-- The factor that ties an alias to its source. -/
  aliasFactor : String := "Equality"
deriving Inhabited, Repr

namespace Settings

/-- The written names of the settings. -/
def names : List String :=
  ["graph_name", "num_iterations", "belief_name", "dispatcher_name", "condition_value",
   "evidence_factor", "multiplexer_factor", "alias_factor"]

/-- A setting that is a non-empty text, or its default. -/
def textOr (fields : List (String × Value)) (name default : String) : Except Error String :=
  match fields.lookup name with
  | none => .ok default
  | some (.str s) => if s = "" then .error (.settingNotText name) else .ok s
  | some _ => .error (.settingNotText name)

/-- The number of iterations, or its default. -/
def iterationsOr (fields : List (String × Value)) (default : Int) : Except Error Int :=
  match fields.lookup "num_iterations" with
  | none => .ok default
  | some (.int n) => if n ≤ 0 then .error (.iterationsNotPositive n) else .ok n
  | some _ => .error .iterationsNotInteger

/-- Settings from named values. -/
def ofFields (fields : List (String × Value)) : Except Error Settings := do
  if let some field := fields.find? fun field => !names.contains field.1 then
    throw (.unknownSetting field.1)
  let default : Settings := {}
  let graphName ← textOr fields "graph_name" default.graphName
  let beliefName ← textOr fields "belief_name" default.beliefName
  let dispatcherName ← textOr fields "dispatcher_name" default.dispatcherName
  let evidenceFactor ← textOr fields "evidence_factor" default.evidenceFactor
  let multiplexerFactor ← textOr fields "multiplexer_factor" default.multiplexerFactor
  let aliasFactor ← textOr fields "alias_factor" default.aliasFactor
  let iterations ← iterationsOr fields default.iterations
  let conditionValue := (fields.lookup "condition_value").getD default.conditionValue
  return { graphName, iterations, beliefName, dispatcherName, conditionValue, evidenceFactor,
           multiplexerFactor, aliasFactor }

/-- The settings as named values. -/
def toFields (s : Settings) : List (String × Value) :=
  [("graph_name", .str s.graphName), ("num_iterations", .int s.iterations),
   ("belief_name", .str s.beliefName), ("dispatcher_name", .str s.dispatcherName),
   ("condition_value", s.conditionValue), ("evidence_factor", .str s.evidenceFactor),
   ("multiplexer_factor", .str s.multiplexerFactor), ("alias_factor", .str s.aliasFactor)]

end Settings

end TraceGraph
