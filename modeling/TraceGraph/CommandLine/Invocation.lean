import TraceGraph.CommandLine.Word
import TraceGraph.Session

/-!
# Invocations

What a command line asks for: the trace to compile, where the Java file goes, and how it is made.
`Invocation.ofArguments` reads it off the words, or says why nothing is to be run; `Invocation.run`
makes the file, with the files that can be read given as a function.
-/

namespace TraceGraph.CommandLine

/-- What is asked for. -/
structure Invocation where
  /-- The file with the trace; the sample is used where it is missing or empty. -/
  trace : Option String := none
  className : String := Java.defaultClassName
  iterations : Int := 10000
  /-- The file that is written; where it is missing or empty, the result is printed. -/
  output : Option String := none
  verbose : Bool := false
deriving DecidableEq, Inhabited, Repr

/-- Why nothing is to be run. -/
inductive Stop where
  | help
  | usage
deriving DecidableEq, Repr

namespace Invocation

/-- Uses a switch.  A later use of a parameter wins. -/
def apply (i : Invocation) : Setting → Except Stop Invocation
  | .flag .help => .error .help
  | .flag .verbose => .ok { i with verbose := true }
  | .parameter .className value => .ok { i with className := value }
  | .parameter .iterations value =>
    match Decimal.integer? value with
    | none => .error .usage
    | some n => .ok { i with iterations := n }
  | .parameter .output value => .ok { i with output := some value }

/-- Reads on in the words.  One plain word is the trace; `surplus` says that there was a word with no
use, which is a fault unless help is asked for before the end. -/
def ofWords (i : Invocation) (surplus : Bool) : List Word → Except Stop Invocation
  | [] => if surplus then .error .usage else .ok i
  | .plain text :: .divider :: rest =>
    if i.trace.isSome then .error .usage else ofWords { i with trace := some text } surplus rest
  | .plain text :: rest =>
    if i.trace.isSome then ofWords i true rest
    else ofWords { i with trace := some text } surplus rest
  | .divider :: rest => if i.trace.isSome then .error .usage else ofWords i surplus rest
  | .settings given none :: rest => do ofWords (← given.foldlM apply i) surplus rest
  | .settings given (some parameter) :: .plain value :: rest => do
    ofWords (← (given ++ [Setting.parameter parameter value]).foldlM apply i) surplus rest
  | .settings _ (some _) :: _ => .error .usage
  | .partly given :: rest => do ofWords (← given.foldlM apply i) true rest
  | .unknown :: rest => ofWords i true rest
  | .faulty :: _ => .error .usage

/-- What a command line asks for. -/
def ofArguments (arguments : List String) : Except Stop Invocation :=
  match Word.ofTexts arguments with
  | none => .error .usage
  | some words => ofWords {} false words

/-- The trace that is compiled where none is given. -/
def sampleTrace : String :=
  Text.join "\n"
    ["",
     "var ab0 = random('wrapped_flip', [0.5, JSON.parse('null')]);",
     "var ab1 = random('wrapped_flip', [0.3, JSON.parse('null')]);",
     "var ab2 = and(ab0, ab1);",
     "condition(ab2);",
     "if (ab0) \x7b var ab3 = ab1; \x7d else \x7b var ab3 = ab2; \x7d",
     "ab3",
     ""]

/-- The file that is read, if there is one. -/
def tracePath (i : Invocation) : Option String := i.trace.filter (· != "")

/-- The file that is written, if there is one. -/
def outputPath (i : Invocation) : Option String := i.output.filter (· != "")

/-- The text of the trace. -/
def source (i : Invocation) (read : String → Option String) : Except Error String :=
  match i.tracePath with
  | none => .ok sampleTrace
  | some path =>
    match read path with
    | none => .error (.missingFile path)
    | some text => .ok (String.ofList (Text.unifyNewlines text.toList))

/-- The Java file that is asked for. -/
def run (i : Invocation) (read : String → Option String) : Report String :=
  (Report.silent (i.source read)).andThen fun source =>
    (Report.silent (Settings.ofFields [("num_iterations", .int i.iterations)])).andThen
      fun settings => javaFile settings i.className (.script source)

/-- Is a notice told? -/
def tells (i : Invocation) (notice : Notice) : Bool := i.verbose || notice.level == .warning

end Invocation

end TraceGraph.CommandLine
