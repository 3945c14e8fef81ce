import TraceGraph.Script.Function

/-!
# Reading expressions

The rules for expressions, from the tightest to the loosest: names, literals and what stands in
brackets; members and calls; unary operators; powers; binary operators by precedence; conditionals;
assignments and arrow functions; expressions with commas.

The rules are not recursive: what is nested in a text is read by the readers that they are given.
-/

namespace TraceGraph.Script

/-! ### Operators -/

/-- The precedence of a binary operator; a higher one binds more tightly. -/
def precedence? (mode : Mode) : Word → Option Nat
  | .punctuator mark =>
    if mark = "||" then some 1
    else if mark = "&&" then some 2
    else if mark = "|" then some 3
    else if mark = "^" then some 4
    else if mark = "&" then some 5
    else if mark ∈ ["==", "!=", "===", "!=="] then some 6
    else if mark ∈ ["<", ">", "<=", ">="] then some 7
    else if mark ∈ ["<<", ">>", ">>>"] then some 8
    else if mark ∈ ["+", "-"] then some 9
    else if mark ∈ ["*", "/", "%"] then some 11
    else none
  | .keyword name =>
    if name = "instanceof" ∨ (name = "in" ∧ mode.allowIn) then some 7 else none
  | _ => none

/-- A binary expression. -/
def binaryNode (operator : String) (left right : Expression) : Expression :=
  if operator = "&&" ∨ operator = "||" then .logical operator left right
  else .binary operator left right

/-- The operator that a unary expression starts with. -/
def unaryOperator? : Word → Option String
  | .punctuator mark => if mark ∈ ["+", "-", "~", "!"] then some mark else none
  | .keyword name => if name ∈ ["typeof", "void", "delete"] then some name else none
  | _ => none

/-- The operators that assign. -/
def assignments : List String :=
  ["=", "*=", "**=", "/=", "%=", "+=", "-=", "<<=", ">>=", ">>>=", "&=", "^=", "|="]

/-- Is the expression unary? -/
def isUnaryExpression : Expression → Bool
  | .unary .. => true
  | _ => false

/-- Can a name be assigned to in this state? -/
def mayAssignName (name : String) : Parse Bool :=
  return !((← get).strict && (name ∈ restrictedNames || name ∈ strictKeywords))

/-- Can a name be incremented in this state? -/
def mayCount (x : Operand) : Parse Bool := do
  let s ← get
  return s.assignable && !(s.strict && x.name?.any fun name => name ∈ restrictedNames)

/-! ### Brackets -/

/-- Expressions with commas between them, each of which stands for itself. -/
def expression (r : Readers) (first : Parse Operand) (mode : Mode) : Parse Operand := do
  let start ← isolated first
  if ← atMark "," then
    repeated (fun () => do
      if ← accept "," then
        let _ ← isolated (r.assignment mode)
        return .inl ()
      else return .inr (Operand.other "SequenceExpression")) ()
  else return start

/-- An expression inside another one. -/
def innerExpression (r : Readers) (mode : Mode) : Parse Operand :=
  expression r (r.assignment mode) mode

/-- A spread: the dots, and what is spread. -/
def spread (r : Readers) (mode : Mode) : Parse Operand := do
  expectMark "..."
  let argument ← combined (r.assignment mode)
  return { value := .other "SpreadElement", names := argument.names }

/-- The arguments of a call, in their parentheses. -/
def arguments (r : Readers) (argument : Parse Operand) (mode : Mode) : Parse (List Operand) := do
  expectMark "("
  listUntil ")" do
    if ← atMark "..." then spread r mode else isolated argument

/-- An argument where the call may turn out to be the front of an asynchronous arrow function. -/
def asyncArgument (r : Readers) (mode : Mode) : Parse Operand := do
  let argument ← r.assignment mode
  modify fun s => { s with unfinished := false }
  return argument

/-- The elements of an array, in its brackets.  A spread that is not the last element cannot be part of
a target. -/
def arrayLiteral (r : Readers) (mode : Mode) : Parse Operand := do
  expectMark "["
  let elements ← repeated (fun (elements : List Operand) => do
    if ← accept "]" then return .inr elements
    else if ← accept "," then return .inl (elements ++ [{ value := .hole }])
    else if ← atMark "..." then
      let element ← spread r mode
      if !(← atMark "]") then
        refuse
        expectMark ","
      return .inl (elements ++ [element])
    else
      let element ← combined (r.assignment mode)
      if !(← atMark "]") then expectMark ","
      return .inl (elements ++ [element])) []
  return { value := .array (elements.map Operand.value), names := elements.flatMap Operand.names }

/-- Can the next word be the key of a property? -/
def atPropertyKey : Parse Bool := do
  match ← peek with
  | some (.punctuator mark) => return mark == "["
  | some (.template ..) | none => return false
  | some _ => return true

/-- The rest of a property after its key; `shorthand` is the name that the property has if nothing
follows.  The result has the names it declares as a pattern, and whether it sets the prototype. -/
def propertyRest (r : Readers) (key shorthand : Option String) (mode : Mode) :
    Parse (List String × Bool) := do
  if ← accept ":" then
    let value ← combined (r.assignment mode)
    return (value.names, key == some "__proto__")
  else if ← atMark "(" then
    plainMethod r mode
    return ([], false)
  else match shorthand with
    | none => failure
    | some name =>
      if ← atMark "=" then
        modify fun s => { s with unfinished := true }
        skip
        let _ ← isolated (r.assignment mode)
      return ([name], false)

/-- A property that starts with the name `async`: an asynchronous method, or else a shorthand. -/
def asyncProperty (r : Readers) (mode : Mode) : Parse (List String × Bool) := do
  let _ ← propertyKey r mode
  if ← atMark "(" then
    asyncMethod r mode
    return ([], false)
  else
    guard !(← atMark ":")
    propertyRest r none (some "async") mode

/-- A property of an object. -/
def property (r : Readers) (mode : Mode) : Parse (List String × Bool) := do
  match ← peek with
  | some (.punctuator "...") =>
    let value ← spread r mode
    return (value.names, false)
  | some (.punctuator "*") =>
    skip
    guard (← atPropertyKey)
    let _ ← propertyKey r mode
    generatorMethod r mode
    return ([], false)
  | some (.identifier name) =>
    skip
    if name == "async" && !(← afterBreak) && !(← atAnyMark [":", "(", "*", ","]) then
      asyncProperty r mode
    else if name == "get" && (← atPropertyKey) then
      let _ ← propertyKey r mode
      getterMethod r mode
      return ([], false)
    else if name == "set" && (← atPropertyKey) then
      let _ ← propertyKey r mode
      setterMethod r mode
      return ([], false)
    else propertyRest r (some name) (some name) mode
  | _ =>
    let key ← propertyKey r mode
    propertyRest r key none mode

/-- The properties of an object, in its braces.  The prototype is set once at most. -/
def objectLiteral (r : Readers) (mode : Mode) : Parse Operand := do
  expectMark "\x7b"
  let properties ← listUntil "\x7d" (property r mode)
  guard (properties.countP Prod.snd ≤ 1)
  return { value := .other "ObjectExpression", names := properties.flatMap Prod.fst }

/-- The end of an expression in parentheses, which are parameters if `=>` follows. -/
def groupEnd (items : List Operand) (whole : Operand) : Parse Operand := do
  expectMark ")"
  let arrow ← atMark "=>"
  guard (!arrow || (← get).bindable)
  modify fun s => { s with bindable := false }
  return if arrow then .ofParameters (items.map Operand.parameter) false else whole

/-- The rest of a list in parentheses.  A comma or dots at its end make it a list of parameters. -/
def groupRest (r : Readers) (mode : Mode) (first : Operand) : Parse Operand := do
  modify fun s => { s with assignable := false }
  repeated (fun (items : List Operand) => do
    if !(← accept ",") then
      return .inr (← groupEnd items (.other "SequenceExpression"))
    else if ← accept ")" then
      return .inr (.ofParameters (items.map Operand.parameter) false)
    else if ← atMark "..." then
      guard (← get).bindable
      let rest ← restParameter r mode
      expectMark ")"
      guard (← atMark "=>")
      modify fun s => { s with bindable := false }
      return .inr (.ofParameters (items.map Operand.parameter ++ [rest]) false)
    else
      let next ← combined (r.assignment mode)
      return .inl (items ++ [next])) [first]

/-- What stands in parentheses: an expression, or the parameters of an arrow function. -/
def group (r : Readers) (mode : Mode) : Parse Operand := do
  expectMark "("
  if ← accept ")" then
    guard (← atMark "=>")
    return .ofParameters [] false
  else if ← atMark "..." then
    let rest ← restParameter r mode
    expectMark ")"
    guard (← atMark "=>")
    return .ofParameters [rest] false
  else
    modify fun s => { s with bindable := true }
    let first ← combined (r.assignment mode)
    if ← atMark "," then groupRest r mode first else groupEnd [first] first

/-- A template: pieces of text with expressions between them. -/
def templateLiteral (r : Readers) (mode : Mode) : Parse Unit := do
  match ← peek with
  | some (.template _ true tail) =>
    skip
    if !tail then
      repeated (fun () => do
        let _ ← innerExpression r mode
        match ← peek with
        | some (.template _ _ tail) =>
          skip
          return if tail then .inr () else .inl ()
        | _ => failure) ()
  | _ => failure

/-- Does a template start here? -/
def atTemplate : Parse Bool := do
  match ← peek with
  | some (.template _ head _) => return head
  | _ => return false

/-! ### Members and calls -/

/-- Is this the keyword of a dynamic import, with its parenthesis? -/
def atImportCall : Parse Bool := do
  match (← get).tokens with
  | first :: second :: _ =>
    return first.word == .keyword "import" && second.word == .punctuator "("
  | _ => return false

/-- A member of an expression, where one comes next. -/
def member? (r : Readers) (mode : Mode) (object : Operand) : Parse (Option Operand) := do
  if ← atMark "." then
    takeAsTarget
    skip
    let name ← anyName
    return some { value := .member object.value (.identifier name) false }
  else if ← atMark "[" then
    takeAsTarget
    skip
    let key ← isolated (innerExpression r mode)
    expectMark "]"
    return some { value := .member object.value key.value true }
  else if ← atTemplate then
    templateLiteral r mode
    return some (.other "TaggedTemplateExpression")
  else return none

/-- A call of an expression.  A dynamic import has one argument.  A call of `async` is the front of an
arrow function if `=>` follows. -/
def call (r : Readers) (mode : Mode) (async : Bool) (callee : Operand) : Parse Operand := do
  refuse
  let argument := if async then asyncArgument r mode else r.assignment mode
  let args ← arguments r argument mode
  match callee.value with
  | .other "Import" => guard (args.length == 1)
  | _ => pure ()
  if async && (← atMark "=>") then return .ofParameters (args.map Operand.parameter) true
  else return { value := .call callee.value (args.map Operand.value) }

/-- The creation of an instance, or `new.target`. -/
def newExpression (r : Readers) (mode : Mode) : Parse Operand := do
  expectKeyword "new"
  if ← accept "." then
    guard mode.inFunction
    guard (← acceptWord (.identifier "target"))
    return .other "MetaProperty"
  else
    guard !(← atKeyword "import")
    let _ ← isolated (r.constructed mode)
    if ← atMark "(" then
      let _ ← arguments r (r.assignment mode) mode
    refuse
    return .other "NewExpression"

/-! ### Classes -/

/-- The rest of a member of a class after its key; `word` is the one that the key starts with. -/
def classMemberRest (r : Readers) (mode : Mode) (word : Option Word) (key : Option String) :
    Parse (Option String × Bool) := do
  let accessor ← atPropertyKey
  if word == some (.identifier "get") && accessor then
    let key ← propertyKey r mode
    getterMethod r mode
    return (key, false)
  else if word == some (.identifier "set") && accessor then
    let key ← propertyKey r mode
    setterMethod r mode
    return (key, false)
  else if word == some (.punctuator "*") && accessor then
    let key ← propertyKey r mode
    generatorMethod r mode
    return (key, false)
  else
    guard (word != some (.punctuator "*"))
    plainMethod r mode
    return (key, true)

/-- A member of a class, after `static` if it is there: its key, and whether it is a plain method. -/
def classMember (r : Readers) (mode : Mode) (word : Option Word) (key : Option String) :
    Parse (Option String × Bool) := do
  if word == some (.identifier "async") && !(← afterBreak) && !(← atAnyMark [":", "(", "*"]) then
    let key ← propertyKey r mode
    guard (key != some "constructor")
    asyncMethod r mode
    return (key, true)
  else classMemberRest r mode word key

/-- The word that the key of a member starts with, and the key unless it comes later. -/
def classKey (r : Readers) (mode : Mode) : Parse (Option Word × Option String) := do
  let word ← peek
  if ← accept "*" then return (word, none)
  else return (word, ← propertyKey r mode)

/-- A member of a class; the result says whether it is the constructor. -/
def classElement (r : Readers) (mode : Mode) : Parse Bool := do
  let (word, key) ← classKey r mode
  if key == some "static" && ((← atPropertyKey) || (← atMark "*")) then
    let (word, key) ← classKey r mode
    let (key, _) ← classMember r mode word key
    guard (key != some "prototype")
    return false
  else
    let (key, plain) ← classMember r mode word key
    guard (plain || key != some "constructor")
    return key == some "constructor"

/-- The members of a class, in its braces.  There is one constructor at most. -/
def classBody (r : Readers) (mode : Mode) : Parse Unit := do
  expectMark "\x7b"
  repeated (fun (constructors : Nat) => do
    if ← accept "\x7d" then return .inr ()
    else if ← accept ";" then return .inl constructors
    else
      let constructors := constructors + (if ← classElement r mode then 1 else 0)
      guard (constructors ≤ 1)
      return .inl constructors) 0

/-- A class, with a name if it needs one or has one.  Its code is strict. -/
def classRest (r : Readers) (needsName : Bool) (mode : Mode) : Parse Unit := do
  let strict := (← get).strict
  modify fun s => { s with strict := true }
  expectKeyword "class"
  let named := match ← peek with
    | some (.identifier _) => true
    | _ => false
  if needsName || named then
    let _ ← declaredName .parameter mode
  if ← acceptKeyword "extends" then
    let _ ← isolated (r.leftHandSide mode)
  classBody r mode
  modify fun s => { s with strict }

/-! ### Primary expressions -/

/-- A primary expression that starts with a keyword. -/
def keywordExpression (r : Readers) (mode : Mode) (name : String) : Parse Operand := do
  let strict := (← get).strict
  if !strict && (name == "let" || (name == "yield" && !mode.yields)) then
    skip
    return .named name
  else
    refuse
    if name = "function" then
      functionExpression r mode
      return .other "FunctionExpression"
    else if name = "this" then
      skip
      return .other "ThisExpression"
    else if name = "class" then
      classRest r false mode
      return .other "ClassExpression"
    else
      guard (← atImportCall)
      skip
      return .other "Import"

/-- A name, a literal, or something in brackets. -/
def primary (r : Readers) (mode : Mode) : Parse Operand := do
  match ← peek with
  | some (.identifier name) =>
    guard (!(mode.awaits && name == "await"))
    if ← atAsyncFunction then
      functionExpression r mode
      return .other "FunctionExpression"
    else
      skip
      return .named name
  | some (.literal value raw legacy) =>
    guard (!((← get).strict && legacy))
    refuse
    skip
    return { value := .literal value raw }
  | some (.constant name) =>
    refuse
    skip
    let value := if name = "null" then Literal.null else .bool (name == "true")
    return { value := .literal value name }
  | some (.template ..) =>
    templateLiteral r mode
    return .other "TemplateLiteral"
  | some (.keyword name) => keywordExpression r mode name
  | some (.punctuator "(") =>
    modify fun s => { s with bindable := false }
    combined (group r mode)
  | some (.punctuator "[") => combined (arrayLiteral r mode)
  | some (.punctuator "\x7b") => combined (objectLiteral r mode)
  | _ => failure

/-- The start of a chain of members and calls.  After `super` one of the given marks has to come. -/
def chainStart (r : Readers) (marks : List String) (mode : Mode) : Parse Operand := do
  if mode.inFunction && (← atKeyword "super") then
    skip
    guard (← atAnyMark marks)
    return .other "Super"
  else if ← atKeyword "new" then combined (newExpression r mode)
  else combined (primary r mode)

/-- A primary expression with its members, as something that an instance is created of. -/
def constructed (r : Readers) (mode : Mode) : Parse Operand := do
  let start ← chainStart r [".", "["] mode
  repeated (fun object => do
    match ← member? r mode object with
    | some x => return .inl x
    | none => return .inr object) start

/-- A primary expression with its members and calls, in which `in` is an operator. -/
def leftHandSide (r : Readers) (mode : Mode) : Parse Operand := do
  let mode := { mode with allowIn := true }
  let first ← peekToken
  let start ← chainStart r ["(", ".", "["] mode
  repeated (fun object => do
    if ← atMark "(" then
      let async := match first with
        | some token => token.word == .identifier "async"
        | none => false
      let sameLine := (← peekToken).map Token.line == first.map Token.line
      return .inl (← call r mode (async && sameLine) object)
    else match ← member? r mode object with
      | some x => return .inl x
      | none => return .inr object) start

/-! ### Unary and binary operators -/

/-- An expression with an increment or a decrement, or one without. -/
def update (r : Readers) (mode : Mode) : Parse Operand := do
  if ← atAnyMark ["++", "--"] then
    skip
    let operand ← combined (r.unary mode)
    guard (← mayCount operand)
    refuse
    return .other "UpdateExpression"
  else
    let operand ← combined (leftHandSide r mode)
    if !(← afterBreak) && (← atAnyMark ["++", "--"]) then
      guard (← mayCount operand)
      refuse
      skip
      return .other "UpdateExpression"
    else return operand

/-- A unary expression, an increment or a decrement. -/
def unary (r : Readers) (mode : Mode) : Parse Operand := do
  match (← peek).bind unaryOperator? with
  | some operator =>
    skip
    let argument ← combined (r.unary mode)
    guard (!((← get).strict && operator == "delete" && argument.name?.isSome))
    refuse
    return { value := .unary operator argument.value }
  | none =>
    if mode.awaits && (← atWord (.identifier "await")) then
      skip
      let _ ← r.unary mode
      return .other "AwaitExpression"
    else update r mode

/-- A power, which groups to the right and has no unary expression on its left. -/
def power (r : Readers) (mode : Mode) : Parse Operand := do
  let base ← combined (unary r mode)
  if !isUnaryExpression base.value && (← atMark "**") then
    skip
    refuse
    let exponent ← isolated (r.power mode)
    return { value := .binary "**" base.value exponent.value }
  else return base

/-- Binary operators of at least a precedence, after an operand that was read already.  There are at
most `limit` of them. -/
def binaryRest (r : Readers) (mode : Mode) : Nat → Nat → Expression → Parse Expression
  | 0, _, _ => failure
  | limit + 1, least, left => do
    let word ← peek
    match word.bind (precedence? mode), word.bind Word.text? with
    | some level, some operator =>
      if level < least then return left
      else
        skip
        let operand ← isolated (power r mode)
        let right ← binaryRest r mode limit (level + 1) operand.value
        binaryRest r mode limit least (binaryNode operator left right)
    | _, _ => return left

/-- An expression of binary operators. -/
def binary (r : Readers) (mode : Mode) : Parse Operand := do
  let first ← combined (power r mode)
  if ((← peek).bind (precedence? mode)).isSome then
    refuse
    return { value := ← binaryRest r mode ((← get).size + 1) 1 first.value }
  else return first

/-! ### Conditionals, assignments, arrow functions -/

/-- An expression with a question mark, or one of binary operators. -/
def conditional (r : Readers) (mode : Mode) : Parse Operand := do
  let test ← combined (binary r mode)
  if ← accept "?" then
    let _ ← isolated (r.assignment { mode with allowIn := true })
    expectMark ":"
    let _ ← isolated (r.assignment mode)
    refuse
    return .other "ConditionalExpression"
  else return test

/-- Can an expression start here?  It can at the end of the script, where none will follow. -/
def atExpression : Parse Bool := do
  match ← peek with
  | some (.punctuator mark) =>
    return mark ∈ ["[", "(", "\x7b", "+", "-", "!", "~", "++", "--", "/", "/="]
  | some (.keyword name) =>
    return name ∈ ["class", "delete", "function", "let", "new", "super", "this", "typeof", "void",
                   "yield"]
  | _ => return true

/-- A `yield` with its value, if it has one. -/
def yielding (r : Readers) (mode : Mode) : Parse Operand := do
  expectKeyword "yield"
  if !(← afterBreak) then
    let delegate ← accept "*"
    if delegate || (← atExpression) then
      let _ ← r.assignment mode
  return .other "YieldExpression"

/-- An arrow function, after its parameters. -/
def arrow (r : Readers) (mode : Mode) (ps : List Parameter) (async : Bool) : Parse Operand := do
  guard (!(async && ps.any fun p => p.simple && p.names == ["await"]))
  let check := ({} : NameCheck).addAll (← get).strict ps
  guard !check.twice
  guard !(← afterBreak)
  modify fun s => { s with unfinished := false }
  expectMark "=>"
  let inner := { mode with yields := false, awaits := async }
  withBody check do
    if ← atMark "\x7b" then
      r.body (ps.all Parameter.simple) { inner with allowIn := true }
    else
      let _ ← isolated (r.assignment inner)
  return .other "ArrowFunctionExpression"

/-- What `async` and an expression in its line are followed by: a name there is the parameter of an
arrow function. -/
def asyncParameter (r : Readers) (mode : Mode) (start : Option Token) (read : Operand) :
    Parse Operand := do
  match start, ← peekToken with
  | some first, some next =>
    let isName := match next.word with
      | .identifier _ => true
      | word => word == .keyword "yield"
    if first.word == .identifier "async" && first.line == next.line && isName then
      let argument ← primary r mode
      return .ofParameters [argument.parameter] true
    else return read
  | _, _ => return read

/-- The rest of an assignment, after what is assigned to.  An assignment with `=` is itself taken for a
target, since it may turn out to be a target with a default. -/
def assignmentRest (r : Readers) (mode : Mode) (target : Operand) : Parse Operand := do
  guard (← get).assignable
  if let some name := target.name? then guard (← mayAssignName name)
  let plain ← atMark "="
  if !plain then refuse
  skip
  let _ ← isolated (r.assignment mode)
  modify fun s => { s with unfinished := false }
  return { value := .other "AssignmentExpression", names := if plain then target.names else [] }

/-- An assignment, an arrow function, or an expression without either. -/
def assignment (r : Readers) (mode : Mode) : Parse Operand := do
  if mode.yields && (← atKeyword "yield") then yielding r mode
  else
    let start ← peekToken
    let read ← conditional r mode
    let read ← asyncParameter r mode start read
    if read.parameters?.isSome || (← atMark "=>") then
      refuse
      match read.parameters?, read.name? with
      | some ps, _ => arrow r mode ps read.async
      | none, some name => arrow r mode [{ simple := true, names := [name] }] false
      | none, none => return read
    else if ← atAnyMark assignments then assignmentRest r mode read
    else return read

/-- An expression, as it stands in a statement. -/
def wholeExpression (r : Readers) (mode : Mode) : Parse Operand :=
  expression r (assignment r mode) mode

end TraceGraph.Script
