import TraceGraph.Error
import TraceGraph.Text.Identifier
import TraceGraph.Text.Join
import TraceGraph.Text.Lines

/-!
# A runnable Java file

The generated statements, wrapped in a class with a `main` method that creates the graph first.
-/

namespace TraceGraph.Java

/-- What the generated code imports. -/
def imports : List String :=
  ["java.util.Arrays", "com.analog.lyric.dimple.model.core.FactorGraph",
   "com.analog.lyric.dimple.model.variables.*", "com.analog.lyric.dimple.factorfunctions.*"]

/-- The lines before the statements. -/
def header (className graph : String) : List String :=
  imports.map (fun name => "import " ++ name ++ ";") ++
    ["",
     "public class " ++ className ++ " \x7b",
     "    public static void main(String[] args) \x7b",
     "        FactorGraph " ++ graph ++ " = new FactorGraph();"]

/-- The lines after the statements. -/
def footer : List String := ["    \x7d", "\x7d"]

/-- A line of the body; an empty one is not indented. -/
def indent (line : String) : String := if line = "" then "" else "        " ++ line

/-- The file that runs some lines of code. -/
def sourceFile (className graph code : String) : Except Error String :=
  if Text.isIdentifier className then
    .ok (Text.join "\n" (header className graph ++ (Text.lines code).map indent ++ footer) ++ "\n")
  else .error (.className className)

/-- The class name that a file has unless another is given. -/
def defaultClassName : String := "DimpleModel"

end TraceGraph.Java
