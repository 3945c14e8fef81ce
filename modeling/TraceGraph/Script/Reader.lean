import TraceGraph.Script.Lexer
import TraceGraph.Script.Tree

/-!
# Readers of scripts

A script is read by recursive descent on its tokens.  This module has what all rules of the grammar
share: the state of a reading, the readers of single tokens, and the bookkeeping for texts that can be
read in two ways.

An expression in front of `=` is a target and one in front of `=>` a list of parameters, but that is
seen only after it.  So a reading keeps whether what it read last may be either, and whether it has a
shorthand property with a default, `a = 1` in braces, which only a target or a parameter may have.
`isolated` reads a part whose outcome does not matter to what stands around it, and `combined` one that
the whole depends on.
-/

namespace TraceGraph.Script

/-- The state of a reading. -/
structure State where
  /-- The number of tokens of the script. -/
  size : Nat
  /-- The tokens that remain. -/
  tokens : List Token
  /-- The line that the last token ended on. -/
  line : Nat := 0
  /-- Is the code strict here? -/
  strict : Bool := false
  /-- May something be assigned to what was read last? -/
  assignable : Bool := false
  /-- May what was read last be a parameter? -/
  bindable : Bool := false
  /-- Does what was read last have a shorthand property with a default? -/
  unfinished : Bool := false
deriving Inhabited, Repr

/-- A reader. -/
abbrev Parse (α : Type) := StateT State Option α

/-- Where in a script something stands, as far as its meaning depends on that. -/
structure Mode where
  /-- Is `in` an operator? -/
  allowIn : Bool := true
  /-- Is it inside a function, where there may be a `return`? -/
  inFunction : Bool := false
  inLoop : Bool := false
  inSwitch : Bool := false
  /-- Is `yield` an operator? -/
  yields : Bool := false
  /-- Is `await` an operator? -/
  awaits : Bool := false
  /-- The labels of the statements around it. -/
  labels : List String := []
deriving Inhabited, Repr

/-! ### Single tokens -/

/-- The next token. -/
def peekToken : Parse (Option Token) := return (← get).tokens.head?

/-- The next word. -/
def peek : Parse (Option Word) := return (← peekToken).map Token.word

/-- Passes over the next token.  The one after it is taken in the mode of the code at this moment. -/
def skip : Parse Unit := modify fun s =>
  match s.tokens with
  | [] => s
  | [token] => { s with tokens := [], line := token.line }
  | token :: next :: rest =>
    let next := if s.strict then { next with word := next.word.strictly } else next
    { s with tokens := next :: rest, line := token.line }

/-- Is the next word this one? -/
def atWord (word : Word) : Parse Bool := return (← peek) == some word

/-- Is the next word this punctuator? -/
def atMark (mark : String) : Parse Bool := atWord (.punctuator mark)

/-- Is the next word one of these punctuators? -/
def atAnyMark (marks : List String) : Parse Bool := do
  match ← peek with
  | some (.punctuator mark) => return mark ∈ marks
  | _ => return false

/-- Is the next word this keyword? -/
def atKeyword (name : String) : Parse Bool := atWord (.keyword name)

/-- Passes over a word if it comes next, and says whether it did. -/
def acceptWord (word : Word) : Parse Bool := do
  if ← atWord word then
    skip
    return true
  else return false

/-- Passes over a punctuator if it comes next, and says whether it did. -/
def accept (mark : String) : Parse Bool := acceptWord (.punctuator mark)

/-- Passes over a keyword if it comes next, and says whether it did. -/
def acceptKeyword (name : String) : Parse Bool := acceptWord (.keyword name)

/-- Passes over a punctuator that has to come next. -/
def expectMark (mark : String) : Parse Unit := do guard (← accept mark)

/-- Passes over a keyword that has to come next. -/
def expectKeyword (name : String) : Parse Unit := do guard (← acceptKeyword name)

/-- Is there no token left? -/
def atEnd : Parse Bool := return (← get).tokens.isEmpty

/-- Does the next token end on another line than the last one? -/
def afterBreak : Parse Bool := do
  let line := (← get).line
  return (← peekToken).any fun token => token.line != line

/-- The end of a statement: a semicolon, or a place where one is understood. -/
def endStatement : Parse Unit := do
  if ← accept ";" then return ()
  guard ((← atEnd) || (← atMark "\x7d") || (← afterBreak))

/-- A name after a dot, where no word is reserved. -/
def anyName : Parse String := do
  match ← peek with
  | some (.identifier name) | some (.keyword name) | some (.constant name) =>
    skip
    return name
  | _ => failure

/-! ### Repetition -/

/-- Repeats a step, at most so many times, until it gives a result. -/
def iterate {α β : Type} (step : α → Parse (α ⊕ β)) : Nat → α → Parse β
  | 0, _ => failure
  | n + 1, a => do
    match ← step a with
    | .inl a => iterate step n a
    | .inr b => return b

/-- Repeats a step until it gives a result.  Every step but the last passes over a token, so that there
are no more steps than tokens. -/
def repeated {α β : Type} (step : α → Parse (α ⊕ β)) (start : α) : Parse β := do
  iterate step ((← get).size + 1) start

/-- Items up to a closing punctuator, with commas between them and possibly one after the last. -/
def listUntil {α : Type} (close : String) (item : Parse α) : Parse (List α) :=
  repeated (fun items => do
    if ← accept close then return .inr items
    else
      let next ← item
      if !(← atMark close) then expectMark ","
      return .inl (items ++ [next])) []

/-! ### Texts that can be read in two ways -/

/-- Takes what was read last neither for a target nor for a parameter. -/
def refuse : Parse Unit := modify fun s => { s with assignable := false, bindable := false }

/-- Takes what was read last for a target, and for no parameter. -/
def takeAsTarget : Parse Unit := modify fun s => { s with assignable := true, bindable := false }

/-- Takes whatever comes next for a target and a parameter until something refuses that. -/
def beginCover : Parse Unit :=
  modify fun s => { s with assignable := true, bindable := true, unfinished := false }

/-- Reads a part that stands for itself. -/
def isolated {α : Type} (part : Parse α) : Parse α := do
  let before ← get
  beginCover
  let result ← part
  guard (!(← get).unfinished)
  modify fun s =>
    { s with assignable := before.assignable, bindable := before.bindable
             unfinished := before.unfinished }
  return result

/-- Reads a part that the whole depends on: the whole is a target or a parameter only if the part is. -/
def combined {α : Type} (part : Parse α) : Parse α := do
  let before ← get
  beginCover
  let result ← part
  modify fun s =>
    { s with assignable := s.assignable && before.assignable
             bindable := s.bindable && before.bindable
             unfinished := before.unfinished || s.unfinished }
  return result

/-! ### What the rules read -/

/-- A parameter of a function. -/
structure Parameter where
  /-- Is it just a name? -/
  simple : Bool
  /-- Does it take all remaining arguments? -/
  rest : Bool := false
  /-- The names that it declares. -/
  names : List String
deriving Inhabited, Repr

/-- An expression, and what it is where it turns out to be a pattern. -/
structure Operand where
  value : Expression
  /-- The names that it declares as a pattern. -/
  names : List String := []
  /-- The parameters, where it is a list in parentheses that only `=>` can follow. -/
  parameters? : Option (List Parameter) := none
  /-- Are they parameters of an asynchronous function? -/
  async : Bool := false
deriving Inhabited, Repr

namespace Operand

/-- An expression of which only the type matters. -/
def other (type : String) : Operand := { value := .other type }

/-- A name. -/
def named (name : String) : Operand := { value := .identifier name, names := [name] }

/-- Parameters in front of `=>`. -/
def ofParameters (parameters : List Parameter) (async : Bool) : Operand :=
  { value := .other "ArrowParameterPlaceHolder", parameters? := some parameters, async }

/-- The name that an operand is. -/
def name? (x : Operand) : Option String :=
  match x.value with
  | .identifier name => some name
  | _ => none

/-- The operand as a parameter. -/
def parameter (x : Operand) : Parameter := { simple := x.name?.isSome, names := x.names }

end Operand

/-- What a declaration declares, and the names in it. -/
structure Pattern where
  binding : Binding
  names : List String
deriving Inhabited, Repr

/-- How a name is declared. -/
inductive DeclarationKind where
  /-- By `var`. -/
  | free
  /-- By `let`. -/
  | block
  /-- By `const`. -/
  | constant
  /-- As a parameter or the name of a function. -/
  | parameter
deriving DecidableEq, Repr

/-- The readers that a rule of the grammar uses for what is nested in the text that it reads. -/
structure Readers where
  /-- An assignment, or an expression without one. -/
  assignment : Mode → Parse Operand
  /-- A power. -/
  power : Mode → Parse Operand
  /-- A unary expression, an increment or a decrement. -/
  unary : Mode → Parse Operand
  /-- A primary expression with its members and calls. -/
  leftHandSide : Mode → Parse Operand
  /-- What an instance is created of. -/
  constructed : Mode → Parse Operand
  /-- What is declared. -/
  pattern : DeclarationKind → Mode → Parse Pattern
  /-- The body of a function; it may make itself strict if `simple`. -/
  body : (simple : Bool) → Mode → Parse Unit
  /-- A statement that depends on the one around it. -/
  statement : Mode → Parse Statement
  /-- A statement in a list. -/
  item : Mode → Parse Statement

/-- Readers that read nothing. -/
def Readers.none : Readers where
  assignment _ := failure
  power _ := failure
  unary _ := failure
  leftHandSide _ := failure
  constructed _ := failure
  pattern _ _ := failure
  body _ _ := failure
  statement _ := failure
  item _ := failure

end TraceGraph.Script
