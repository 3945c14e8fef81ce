import TraceGraph.Script.Expressions

/-!
# Reading statements

The rules for statements.  A list of statements may have declarations with `let` and `const`, functions
and classes in it; where a single statement is asked for, there may be functions only.

The strings at the front of a script or of a function's body are directives, up to the first one that is
empty.  One of them makes the code strict, from the second word after it on.
-/

namespace TraceGraph.Script

/-! ### Declarations -/

/-- The initializer of a declarator, where it has one.  A pattern needs one unless it is in the head of
a loop; a constant does wherever no list to run through can follow. -/
def initializer (r : Readers) (kind : DeclarationKind) (inHead : Bool) (mode : Mode)
    (target : Binding) : Parse (Option Expression) := do
  if kind == .constant && ((← atKeyword "in") || (← atWord (.identifier "of"))) then return none
  else if ← accept "=" then
    let value ← isolated (assignment r mode)
    return some value.value
  else
    guard (kind != .constant)
    match target with
    | .named _ => return none
    | .pattern _ =>
      guard inHead
      return none

/-- A declarator. -/
def declarator (r : Readers) (kind : DeclarationKind) (inHead : Bool) (mode : Mode) :
    Parse Declarator := do
  let target ← pattern r kind mode
  match target.binding with
  | .named name => guard (!((← get).strict && name ∈ restrictedNames))
  | .pattern _ => pure ()
  let init ← initializer r kind inHead mode target.binding
  return { binding := target.binding, init }

/-- The declarators of a declaration. -/
def declarators (r : Readers) (kind : DeclarationKind) (inHead : Bool) (mode : Mode) :
    Parse (List Declarator) := do
  let first ← declarator r kind inHead mode
  repeated (fun (ds : List Declarator) => do
    if ← accept "," then
      let next ← declarator r kind inHead mode
      return .inl (ds ++ [next])
    else return .inr ds) [first]

/-- A declaration as a statement, after its keyword. -/
def declaration (r : Readers) (kind : DeclarationKind) (mode : Mode) : Parse Statement := do
  let ds ← declarators r kind false mode
  endStatement
  return .declaration ds

/-- Does a `let` start a declaration?  It does before a name or a pattern. -/
def startsDeclaration : Parse Bool := do
  match (← get).tokens with
  | _ :: next :: _ =>
    match next.word with
    | .identifier _ => return true
    | .punctuator mark => return mark == "[" || mark == "\x7b"
    | .keyword name => return name == "let" || name == "yield"
    | _ => return false
  | _ => return false

/-! ### Loops -/

/-- What is run through in a loop over a list, after its `in` or `of`, if one of them comes next: the
type of the loop.  The loop has one declarator, which in most cases has no initializer. -/
def listHead (r : Readers) (overKeys overItems : Bool) (mode : Mode) : Parse (Option String) := do
  if overKeys && (← atKeyword "in") then
    skip
    let _ ← wholeExpression r mode
    return some "ForInStatement"
  else if overItems && (← atWord (.identifier "of")) then
    skip
    let _ ← assignment r mode
    return some "ForOfStatement"
  else return none

/-- The head of a loop with variables that `var` declares. -/
def variableHead (r : Readers) (mode : Mode) : Parse (Option String) := do
  let ds ← declarators r .free true { mode with allowIn := false }
  match ds with
  | [d] =>
    if ← atKeyword "in" then
      match d.binding, d.init with
      | .pattern _, some _ => failure
      | _, some _ => guard !(← get).strict
      | _, none => pure ()
    match ← listHead r true d.init.isNone mode with
    | some type => return some type
    | none =>
      expectMark ";"
      return none
  | _ =>
    expectMark ";"
    return none

/-- The head of a loop with variables that `let` or `const` declares.  The first semicolon may be
understood there. -/
def lexicalHead (r : Readers) (kind : DeclarationKind) (mode : Mode) : Parse (Option String) := do
  if !(← get).strict && (← peek).bind Word.text? == some "in" then
    skip
    let _ ← wholeExpression r mode
    return some "ForInStatement"
  else
    let ds ← declarators r kind true { mode with allowIn := false }
    let bare := match ds with
      | [d] => d.init.isNone
      | _ => false
    match ← listHead r bare bare mode with
    | some type => return some type
    | none =>
      endStatement
      return none

/-- The head of a loop that starts with an expression. -/
def expressionHead (r : Readers) (mode : Mode) : Parse (Option String) := do
  let inner := { mode with allowIn := false }
  let first ← combined (assignment r inner)
  if (← atKeyword "in") || (← atWord (.identifier "of")) then
    guard (← get).assignable
    match first.value with
    | .other "AssignmentExpression" => failure
    | _ => listHead r true true mode
  else
    repeated (fun () => do
      if ← accept "," then
        let _ ← isolated (assignment r mode)
        return .inl ()
      else return .inr ()) ()
    expectMark ";"
    return none

/-- The front of a loop's head: the type of the loop, if it is one over a list. -/
def headFront (r : Readers) (mode : Mode) : Parse (Option String) := do
  if ← accept ";" then return none
  else if ← acceptKeyword "var" then variableHead r mode
  else if ← acceptKeyword "let" then lexicalHead r .block mode
  else if ← acceptKeyword "const" then lexicalHead r .constant mode
  else expressionHead r mode

/-- The head of a loop, in its parentheses: the type of the loop. -/
def loopHead (r : Readers) (mode : Mode) : Parse String := do
  expectMark "("
  let type ← headFront r mode
  if type.isNone then
    if !(← atMark ";") then
      let _ ← wholeExpression r mode
    expectMark ";"
    if !(← atMark ")") then
      let _ ← wholeExpression r mode
  expectMark ")"
  return type.getD "ForStatement"

/-! ### Other statements -/

/-- An expression in parentheses. -/
def condition (r : Readers) (mode : Mode) : Parse Expression := do
  expectMark "("
  let test ← wholeExpression r mode
  expectMark ")"
  return test.value

/-- A branch of a conditional.  In strict code it cannot be a function. -/
def clause (r : Readers) (mode : Mode) : Parse Statement := do
  guard !((← get).strict && (← atKeyword "function"))
  r.statement mode

/-- A conditional. -/
def conditionalStatement (r : Readers) (mode : Mode) : Parse Statement := do
  let test ← condition r mode
  let consequent ← clause r mode
  if ← acceptKeyword "else" then
    let alternate ← clause r mode
    return .conditional test consequent (some alternate)
  else return .conditional test consequent none

/-- The statements of a block after the opening brace, and the closing one. -/
def blockRest (r : Readers) (mode : Mode) : Parse (List Statement) :=
  repeated (fun (body : List Statement) => do
    if ← accept "\x7d" then return .inr body
    else
      let next ← r.item mode
      return .inl (body ++ [next])) []

/-- A block in its braces. -/
def block (r : Readers) (mode : Mode) : Parse Unit := do
  expectMark "\x7b"
  let _ ← blockRest r mode

/-- The end of a `break` or `continue`: a label that is around it, or none where one may be missing. -/
def jumpEnd (bare : Bool) (mode : Mode) : Parse Unit := do
  let labelled ← match ← peek with
    | some (.identifier name) =>
      if ← afterBreak then pure false
      else
        guard (name ∈ mode.labels)
        let _ ← declaredName .parameter mode
        pure true
    | _ => pure false
  endStatement
  guard (labelled || bare)

/-- The end of a `return`, with its value.  A string is taken for the value even on the next line. -/
def returnEnd (r : Readers) (mode : Mode) : Parse Unit := do
  let value ← match ← peek with
    | some (.literal (.str _) ..) | some (.template ..) => pure true
    | none => pure false
    | some _ => pure (!((← atAnyMark [";", "\x7d"]) || (← afterBreak)))
  if value then
    let _ ← wholeExpression r mode
  endStatement

/-- The cases of a `switch` with their statements, and the closing brace.  One of them at most is the
default. -/
def cases (r : Readers) (mode : Mode) : Parse Unit :=
  repeated (fun ((started, defaulted) : Bool × Bool) => do
    if ← accept "\x7d" then return .inr ()
    else if ← acceptKeyword "default" then
      guard !defaulted
      expectMark ":"
      return .inl (true, true)
    else if ← acceptKeyword "case" then
      let _ ← wholeExpression r mode
      expectMark ":"
      return .inl (true, defaulted)
    else
      guard started
      let _ ← r.item mode
      return .inl (started, defaulted)) (false, false)

/-- The handlers of a `try`, of which there is at least one.  The names that a handler declares differ. -/
def handlers (r : Readers) (mode : Mode) : Parse Unit := do
  let caught ← acceptKeyword "catch"
  if caught then
    expectMark "("
    let target ← pattern r .parameter mode
    guard target.names.Nodup
    match target.binding with
    | .named name => guard (!((← get).strict && name ∈ restrictedNames))
    | .pattern _ => pure ()
    expectMark ")"
    block r mode
  let final ← acceptKeyword "finally"
  if final then block r mode
  guard (caught || final)

/-- A statement that starts with a name: an expression, or a labelled statement. -/
def namedStatement (r : Readers) (mode : Mode) : Parse Statement := do
  let value ← wholeExpression r mode
  match value.name?, ← atMark ":" with
  | some name, true =>
    skip
    guard (name ∉ mode.labels)
    guard !(← atKeyword "class")
    if ← atKeyword "function" then
      let generator ← functionDeclaration r mode
      guard !((← get).strict || generator)
    else
      let _ ← r.statement { mode with labels := name :: mode.labels }
    return .other "LabeledStatement"
  | _, _ =>
    endStatement
    return .expression value.value

/-- An expression as a statement. -/
def expressionStatement (r : Readers) (mode : Mode) : Parse Statement := do
  let value ← wholeExpression r mode
  endStatement
  return .expression value.value

/-- The rest of a statement after a keyword that is its alone; the type of the statement. -/
def keywordRest? (r : Readers) (mode : Mode) : String → Option (Parse String)
  | "break" => some do
    jumpEnd (mode.inLoop || mode.inSwitch) mode
    return "BreakStatement"
  | "continue" => some do
    jumpEnd mode.inLoop mode
    return "ContinueStatement"
  | "debugger" => some do
    endStatement
    return "DebuggerStatement"
  | "do" => some do
    let _ ← r.statement { mode with inLoop := true }
    expectKeyword "while"
    let _ ← condition r mode
    let _ ← accept ";"
    return "DoWhileStatement"
  | "for" => some do
    let type ← loopHead r mode
    let _ ← isolated (r.statement { mode with inLoop := true })
    return type
  | "return" => some do
    guard mode.inFunction
    returnEnd r mode
    return "ReturnStatement"
  | "switch" => some do
    let _ ← condition r mode
    expectMark "\x7b"
    cases r { mode with inSwitch := true }
    return "SwitchStatement"
  | "throw" => some do
    guard !(← afterBreak)
    let _ ← wholeExpression r mode
    endStatement
    return "ThrowStatement"
  | "try" => some do
    block r mode
    handlers r mode
    return "TryStatement"
  | "while" => some do
    let _ ← condition r mode
    let _ ← r.statement { mode with inLoop := true }
    return "WhileStatement"
  | "with" => some do
    guard !(← get).strict
    let _ ← condition r mode
    let _ ← r.statement mode
    return "WithStatement"
  | _ => none

/-- A statement that starts with a keyword. -/
def keywordStatement (r : Readers) (mode : Mode) (name : String) : Parse Statement := do
  match name, keywordRest? r mode name with
  | _, some rest =>
    skip
    return .other (← rest)
  | "function", none =>
    let _ ← functionDeclaration r mode
    return .other "FunctionDeclaration"
  | "if", none =>
    skip
    conditionalStatement r mode
  | "var", none =>
    skip
    declaration r .free mode
  | _, none => expressionStatement r mode

/-- A statement that stands alone. -/
def statement (r : Readers) (mode : Mode) : Parse Statement := do
  match ← peek with
  | some (.punctuator "\x7b") =>
    skip
    return .block (← blockRest r mode)
  | some (.punctuator ";") =>
    skip
    return .empty
  | some (.identifier _) =>
    if ← atAsyncFunction then
      let _ ← functionDeclaration r mode
      return .other "FunctionDeclaration"
    else namedStatement r mode
  | some (.keyword name) => keywordStatement r mode name
  | some _ => expressionStatement r mode
  | none => failure

/-- A statement in a list. -/
def item (r : Readers) (mode : Mode) : Parse Statement := do
  modify fun s => { s with assignable := true, bindable := true }
  match ← peek with
  | some (.keyword "const") =>
    skip
    declaration r .constant mode
  | some (.keyword "let") =>
    if ← startsDeclaration then
      skip
      declaration r .block mode
    else statement r mode
  | some (.keyword "class") =>
    classRest r true mode
    return .other "ClassDeclaration"
  | _ => statement r mode

/-! ### Bodies -/

/-- The text between the quotes of a string. -/
def betweenQuotes (raw : String) : String := String.ofList (raw.toList.drop 1).dropLast

/-- The directives at the front.  The code becomes strict only where that is `allowed`, and not after an
octal escape. -/
def directives (r : Readers) (allowed : Bool) (mode : Mode) : Parse (List Statement) :=
  repeated (fun ((legacy, body) : Bool × List Statement) => do
    match ← peek with
    | some (.literal (.str _) raw octal) =>
      let next ← expressionStatement r mode
      match next, betweenQuotes raw with
      | .expression (.literal ..), "use strict" =>
        modify fun s => { s with strict := true }
        guard (allowed && !legacy)
        return .inl (legacy, body ++ [next])
      | .expression (.literal ..), "" => return .inr (body ++ [next])
      | .expression (.literal ..), _ => return .inl (legacy || octal, body ++ [next])
      | _, _ => return .inr (body ++ [next])
    | _ => return .inr body) (false, [])

/-- The body of a function, in its braces. -/
def functionBody (r : Readers) (simple : Bool) (mode : Mode) : Parse Unit := do
  expectMark "\x7b"
  let _ ← directives r simple mode
  let _ ← blockRest r
    { mode with inFunction := true, inLoop := false, inSwitch := false, labels := [] }

end TraceGraph.Script
