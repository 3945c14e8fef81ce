import TraceGraph.Factor.Registry
import TraceGraph.Java.SourceFile
import TraceGraph.Source

/-!
# Sessions

A session is a registry in use: producers are registered, names are resolved, calls described and
programs compiled, one request after the other.  A request that fails changes nothing but what the
registry remembers.
-/

namespace TraceGraph

open Factor (Producer Registry)

/-- A registry in use. -/
structure Session where
  registry : Registry
  settings : Settings

namespace Session

/-- What can be asked of a session.  Where a producer is offered, there may be none. -/
inductive Request where
  | register (name : String) (producer : Option Producer) (replace : Bool)
  /-- Registers a producer and gives it back. -/
  | adopt (name : String) (producer : Option Producer)
  | resolve (name : String)
  /-- Does the name stand for a producer?  What is no text does not. -/
  | contains (name : Option String)
  | names
  | preload
  | describe (output primitive : String) (args : List Node)
  | compile (source : Source)

/-- What a session answers. -/
inductive Answer where
  | done
  | label (label : String)
  | truth (b : Bool)
  | names (names : List String)
  | descriptor (d : Factor.Descriptor)
  | code (text : String)

/-- The session after a run that used its registry, and the report with the notices settled. -/
def settle {α : Type} (s : Session) (report : Report α) : Session × Report α :=
  let (registry, notices) := s.registry.settle report.notices
  ({ s with registry }, { report with notices })

/-- Registers a producer. -/
def register (s : Session) (name : String) (producer : Option Producer) (replace : Bool)
    (answer : Answer) : Session × Report Answer :=
  match s.registry.register name producer replace with
  | .error e => (s, .silent (.error e))
  | .ok registry => ({ s with registry }, .silent (.ok answer))

/-- Describes a call with the producer that the registry has for it. -/
def describe (s : Session) (output primitive : String) (args : List Node) :
    Report Factor.Descriptor :=
  match Factor.Draft.ofCall output primitive args with
  | .error e => .silent (.error e)
  | .ok draft =>
    match s.registry.find? primitive with
    | none => .silent (.error (.unknownPrimitive primitive))
    | some producer => { result := producer.describe draft, notices := [.resolved primitive] }

/-- The compiler that a session stands for. -/
def compiler (s : Session) : Compiler := { settings := s.settings, find := s.registry.find? }

/-- The Java code of a source. -/
def code (s : Session) (source : Source) : Session × Report String :=
  s.settle (s.compiler.code source)

/-- A session with the built-in primitives. -/
def builtin (settings : Settings) : Session := { registry := .builtin, settings }

/-- Answers a request. -/
def answer (s : Session) : Request → Session × Report Answer
  | .register name producer replace => s.register name producer replace .done
  | .adopt name producer =>
    s.register name producer false (.label ((producer.map Producer.label).getD ""))
  | .resolve name =>
    match s.registry.resolve name with
    | none => (s, .silent (.error (.unknownPrimitive name)))
    | some (producer, notice, registry) =>
      ({ s with registry }, { result := .ok (.label producer.label), notices := [notice] })
  | .contains none => (s, .silent (.ok (.truth false)))
  | .contains (some name) =>
    match s.registry.resolve name with
    | none => (s, .silent (.ok (.truth false)))
    | some (_, notice, registry) =>
      ({ s with registry }, { result := .ok (.truth true), notices := [notice] })
  | .names => (s, .silent (.ok (.names s.registry.names)))
  | .preload =>
    let (registry, notices) := s.registry.preload
    ({ s with registry }, { result := .ok .done, notices })
  | .describe output primitive args =>
    s.settle ((s.describe output primitive args).andThen fun d => .silent (.ok (.descriptor d)))
  | .compile source =>
    let (next, report) := s.code source
    (next, report.andThen fun text => .silent (.ok (.code text)))

/-- Answers requests in turn. -/
def answers (s : Session) : List Request → List (Report Answer)
  | [] => []
  | request :: rest =>
    let (next, report) := s.answer request
    report :: next.answers rest

end Session

/-- The runnable Java file that a source becomes with the built-in primitives. -/
def javaFile (settings : Settings) (className : String) (source : Source) : Report String :=
  ((Session.builtin settings).code source).2.andThen fun code =>
    .silent (Java.sourceFile className settings.graphName code)

end TraceGraph
