import TraceGraph.CommandLine.Invocation

/-!
# The command line

Reads the trace, compiles it, and prints or writes the Java file.
-/

namespace TraceGraph.CommandLine

/-- The switches, as they are explained. -/
def usage : String :=
  Text.join "\n"
    ["usage: tracegraph [-h] [--class-name NAME] [--iterations N] [--output FILE] [--verbose] [trace]",
     "",
     "Compiles a trace to a Java program that builds a factor graph.",
     "",
     "  trace                  trace file; a built-in sample is used if omitted",
     "  -h, --help             show this text",
     "  --class-name NAME      the class of the program",
     "  --iterations N         how many iterations the solver runs",
     "  -o, --output FILE      write the program here instead of printing it",
     "  -v, --verbose          tell what is done"]

/-- The contents of a file, if it can be read. -/
def contents? (path : String) : IO (Option String) := do
  try
    return some (← IO.FS.readFile path)
  catch _ => return none

/-- Does what an invocation asks for. -/
def perform (i : Invocation) : IO UInt32 := do
  let text ← match i.tracePath with
    | none => pure none
    | some path => contents? path
  let report := i.run fun _ => text
  for notice in report.notices do
    if i.tells notice then IO.eprintln notice.line
  match report.result with
  | .error e =>
    IO.eprintln e.message
    return 1
  | .ok java =>
    match i.outputPath with
    | none => IO.println java
    | some path => IO.FS.writeFile path java
    return 0

end TraceGraph.CommandLine

/-- The program. -/
def main (arguments : List String) : IO UInt32 :=
  match TraceGraph.CommandLine.Invocation.ofArguments arguments with
  | .error .help => do
    IO.println TraceGraph.CommandLine.usage
    return 0
  | .error .usage => do
    IO.eprintln TraceGraph.CommandLine.usage
    return 2
  | .ok invocation => TraceGraph.CommandLine.perform invocation
