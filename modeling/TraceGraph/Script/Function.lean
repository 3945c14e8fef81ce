import TraceGraph.Script.Reader

/-!
# Patterns, parameters and functions

What a declaration declares is a name or a pattern of names, with defaults.  The parameters of a
function are such patterns too, and in strict code no name may occur twice among them.
-/

namespace TraceGraph.Script

/-! ### Patterns -/

/-- A name that is declared.  Outside strict code `yield` is one, and after `var` also `let`, in
whatever way it is written. -/
def declaredName (kind : DeclarationKind) (mode : Mode) : Parse String := do
  let strict := (← get).strict
  match ← peek with
  | some (.identifier name) =>
    guard (!(mode.awaits && name == "await"))
    skip
    return name
  | some (.keyword "yield") =>
    guard (!strict && !mode.yields)
    skip
    return "yield"
  | some word =>
    guard (!strict && kind == .free && word.text? == some "let")
    skip
    return "let"
  | none => failure

/-- The key of a property, if it is given by a name or a string. -/
def propertyKey (r : Readers) (mode : Mode) : Parse (Option String) := do
  match ← peek with
  | some (.literal value _ legacy) =>
    guard (!((← get).strict && legacy))
    skip
    match value with
    | .str key => return some key
    | _ => return none
  | some (.punctuator "[") =>
    skip
    let _ ← isolated (r.assignment mode)
    expectMark "]"
    return none
  | _ => return some (← anyName)

/-- A pattern with its default.  In the default `yield` is a name again. -/
def defaulted (r : Readers) (kind : DeclarationKind) (mode : Mode) : Parse Pattern := do
  let target ← r.pattern kind mode
  if ← accept "=" then
    let _ ← isolated (r.assignment { mode with yields := false })
    return { target with binding := .pattern "AssignmentPattern" }
  else return target

/-- The elements of an array pattern, and the closing bracket. -/
def arrayPattern (r : Readers) (kind : DeclarationKind) (mode : Mode) : Parse (List String) :=
  repeated (fun names => do
    if ← accept "]" then return .inr names
    else if ← accept "," then return .inl names
    else if ← accept "..." then
      let rest ← r.pattern kind mode
      expectMark "]"
      return .inr (names ++ rest.names)
    else
      let element ← defaulted r kind mode
      if !(← atMark "]") then expectMark ","
      return .inl (names ++ element.names)) []

/-- A property of an object pattern.  The default of a shorthand property is not isolated from what
stands around it. -/
def propertyPattern (r : Readers) (kind : DeclarationKind) (mode : Mode) : Parse (List String) := do
  match ← peek with
  | some (.punctuator "...") =>
    skip
    let rest ← r.pattern .parameter mode
    guard (← atMark "\x7d")
    return rest.names
  | some (.identifier _) =>
    let name ← declaredName .parameter mode
    if ← accept "=" then
      let _ ← r.assignment mode
      return [name]
    else if ← accept ":" then return (← defaulted r kind mode).names
    else return [name]
  | _ =>
    let _ ← propertyKey r mode
    expectMark ":"
    return (← defaulted r kind mode).names

/-- What is declared: a name or a pattern. -/
def pattern (r : Readers) (kind : DeclarationKind) (mode : Mode) : Parse Pattern := do
  if ← accept "[" then
    return { binding := .pattern "ArrayPattern", names := ← arrayPattern r kind mode }
  else if ← accept "\x7b" then
    let names ← listUntil "\x7d" (propertyPattern r kind mode)
    return { binding := .pattern "ObjectPattern", names := names.flatten }
  else
    let name ← declaredName kind mode
    return { binding := .named name, names := [name] }

/-! ### Parameters -/

/-- A parameter that takes all remaining arguments; it is the last and has no default. -/
def restParameter (r : Readers) (mode : Mode) : Parse Parameter := do
  expectMark "..."
  let target ← r.pattern .parameter mode
  guard (← atMark ")")
  return { simple := false, rest := true, names := target.names }

/-- A parameter of a function. -/
def parameter (r : Readers) (mode : Mode) : Parse Parameter := do
  if ← atMark "..." then restParameter r mode
  else
    let target ← defaulted r .parameter mode
    match target.binding with
    | .named _ => return { simple := true, names := target.names }
    | .pattern _ => return { simple := false, names := target.names }

/-- The parameters of a function, in their parentheses. -/
def parameters (r : Readers) (mode : Mode) : Parse (List Parameter) := do
  expectMark "("
  listUntil ")" (parameter r mode)

/-- What is wrong with the names of a function and its parameters. -/
structure NameCheck where
  /-- A name cannot stand in strict code, which is not known yet. -/
  restricted : Bool := false
  /-- A name occurs twice, or is known not to stand in strict code. -/
  refused : Bool := false
  /-- The last thing found is a name that occurs twice. -/
  twice : Bool := false
  seen : List String := []
deriving Inhabited, Repr

namespace NameCheck

/-- Checks one more name. -/
def add (strict : Bool) (check : NameCheck) (name : String) : NameCheck :=
  let known := name ∈ check.seen
  let next := { check with seen := name :: check.seen }
  if strict then
    if known then { next with refused := true, twice := true }
    else if name ∈ restrictedNames then { next with refused := true, twice := false }
    else next
  else if check.restricted then next
  else if name ∈ restrictedNames || name ∈ strictKeywords then
    { next with restricted := true, twice := false }
  else if known then { next with refused := true, twice := true }
  else next

/-- Checks the names of parameters. -/
def addAll (strict : Bool) (check : NameCheck) (parameters : List Parameter) : NameCheck :=
  (parameters.flatMap Parameter.names).foldl (add strict) check

/-- May the names stand in strict code? -/
def strictly (check : NameCheck) : Bool := !check.restricted && !check.refused

end NameCheck

/-- The name of a function: whether it can stand in strict code is checked together with those of the
parameters, since the function may make itself strict. -/
def functionName (mode : Mode) : Parse NameCheck := do
  let name ← declaredName .parameter mode
  if (← get).strict then
    guard (name ∉ restrictedNames)
    return {}
  else return { restricted := name ∈ restrictedNames || name ∈ strictKeywords }

/-! ### Functions -/

/-- Reads a body with a check of the names before it.  Afterwards the code is as strict as before. -/
def withBody (check : NameCheck) (body : Parse Unit) : Parse Unit := do
  let strict := (← get).strict
  body
  guard (!(← get).strict || check.strictly)
  modify fun s => { s with strict }

/-- The parameters and the body of a function. -/
def functionRest (r : Readers) (check : NameCheck) (mode : Mode) : Parse Unit := do
  let ps ← parameters r mode
  let check := check.addAll (← get).strict ps
  withBody check (r.body (ps.all Parameter.simple) mode)

/-- The parameters and the body of a method.  The number of parameters may be prescribed. -/
def method (r : Readers) (allowed : List Parameter → Bool) (mode inner : Mode) : Parse Unit := do
  let ps ← parameters r mode
  guard (allowed ps)
  let check := ({} : NameCheck).addAll (← get).strict ps
  refuse
  withBody check (isolated (r.body (ps.all Parameter.simple) inner))

/-- A method without anything special about it. -/
def plainMethod (r : Readers) (mode : Mode) : Parse Unit :=
  let mode := { mode with yields := false }
  method r (fun _ => true) mode mode

/-- An asynchronous method. -/
def asyncMethod (r : Readers) (mode : Mode) : Parse Unit :=
  let mode := { mode with yields := true, awaits := true }
  method r (fun _ => true) mode mode

/-- A method that yields. -/
def generatorMethod (r : Readers) (mode : Mode) : Parse Unit :=
  method r (fun _ => true) { mode with yields := false } { mode with yields := true }

/-- A method that computes a property. -/
def getterMethod (r : Readers) (mode : Mode) : Parse Unit :=
  let mode := { mode with yields := false }
  method r List.isEmpty mode mode

/-- A method that sets a property. -/
def setterMethod (r : Readers) (mode : Mode) : Parse Unit :=
  let mode := { mode with yields := false }
  method r (fun ps => ps.length == 1 && !ps.any Parameter.rest) mode mode

/-- Does an asynchronous function come next? -/
def atAsyncFunction : Parse Bool := do
  match (← get).tokens with
  | first :: second :: _ =>
    return first.word == .identifier "async" && second.word == .keyword "function" &&
      first.line == second.line
  | _ => return false

/-- The front of a function: whether it is asynchronous, and whether it yields. -/
def functionFront : Parse (Bool × Bool) := do
  let async ← acceptWord (.identifier "async")
  expectKeyword "function"
  let generator ← if async then pure false else accept "*"
  return (async, generator)

/-- A function that is declared; the result says whether it yields. -/
def functionDeclaration (r : Readers) (mode : Mode) : Parse Bool := do
  let (async, generator) ← functionFront
  let check ← functionName mode
  functionRest r check { mode with awaits := async, yields := generator }
  return generator

/-- A function as an expression, with or without a name. -/
def functionExpression (r : Readers) (mode : Mode) : Parse Unit := do
  let (async, generator) ← functionFront
  let inner := { mode with awaits := async, yields := generator }
  let check ← if ← atMark "(" then pure {} else functionName inner
  functionRest r check inner

end TraceGraph.Script
