import TraceGraph.Decimal.Integer
import TraceGraph.Error
import TraceGraph.Text.Join

/-!
# Statements of the generated program

The generated code builds a factor graph: it declares variables, adds factors between them, fixes
values, and at the end solves the graph and prints a belief.  Each statement is one line of Java.
-/

namespace TraceGraph.Java

/-- A statement of the generated program. -/
inductive Statement where
  /-- A statement with no content, which has no line. -/
  | blank
  | declareVariable (type name : String) (args : List String)
  /-- A factor between its output variable and its inputs. -/
  | addFactor (factor output : String) (factorArgs inputs : List String)
  | fixValue (name value : String)
  /-- A plain Java local. -/
  | declareLocal (type name value : String)
  | setIterations (count : Int)
  | solve
  | extractBelief (belief name : String)
  | printBelief (belief : String)
deriving DecidableEq, Inhabited, Repr

namespace Statement

/-- The graph variables that a statement names, the declared one included. -/
def graphVariables : Statement → List String
  | .declareVariable _ name _ => [name]
  | .addFactor _ output _ inputs => output :: inputs
  | .fixValue name _ => [name]
  | .extractBelief _ name => [name]
  | _ => []

/-- The statement as a line of Java, for a graph of this name. -/
def line (graph : String) : Statement → Except Error String
  | .blank => .error (.unsupportedStatement "TargetStatement")
  | .declareVariable type name args =>
    .ok (type ++ " " ++ name ++ " = new " ++ type ++ "(" ++ Text.commas args ++ ");")
  | .addFactor factor output factorArgs inputs =>
    .ok (graph ++ ".addFactor(new " ++ factor ++ "(" ++ Text.commas factorArgs ++ "), " ++
      Text.commas (output :: inputs) ++ ");")
  | .fixValue name value => .ok (name ++ ".setFixedValue(" ++ value ++ ");")
  | .declareLocal type name value => .ok (type ++ " " ++ name ++ " = " ++ value ++ ";")
  | .setIterations count =>
    match Decimal.integerText? count with
    | some text => .ok (graph ++ ".getSolver().setNumIterations(" ++ text ++ ");")
    | none => .error .tooManyDigits
  | .solve => .ok (graph ++ ".solve();")
  | .extractBelief belief name =>
    .ok ("double[] " ++ belief ++ " = " ++ name ++ ".getBelief();")
  | .printBelief belief => .ok ("System.out.println(Arrays.toString(" ++ belief ++ "));")

/-- The statements as lines of Java, one below the other. -/
def render (graph : String) (statements : List Statement) : Except Error String := do
  return Text.join "\n" (← statements.mapM (line graph))

end Statement

end TraceGraph.Java
