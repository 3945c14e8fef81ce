import TraceGraph.Factor.Descriptor

/-!
# The built-in primitives

Random primitives draw from a distribution.  Their parameters go to the factor's constructor when all
of them are literals, and become edges of the graph otherwise; the distributions whose parameters have
to be recomputed, a precision from a deviation or a rate from a scale, take literals only.  Draws from a
list declare a discrete variable together with its domain.

Deterministic primitives join all their arguments to the factor.
-/

namespace TraceGraph.Factor

/-- What a built-in primitive does. -/
inductive Rule where
  | bernoulli
  | normal
  | beta
  | gamma
  | exponential
  | categorical
  | uniformInteger
  | uniformDraw
  /-- A deterministic factor, of a fixed number of arguments or of any. -/
  | function (type : VariableType) (factor : String) (arity : Option Nat)
deriving DecidableEq, Repr

namespace Draft

/-- Checks the number of arguments. -/
def expectArity (draft : Draft) (allowed : List Nat) : Except Error Unit :=
  if allowed.contains draft.args.length then .ok ()
  else .error (.arity draft.primitive allowed draft.args.length)

/-- The draft with a type and a factor. -/
def choose (draft : Draft) (type : VariableType) (factor : String) : Draft :=
  { draft with variableType := some type.name, factor := some factor }

/-- A factor that takes its arguments as parameters if all are literals, and as inputs if not. -/
def parameterized (draft : Draft) (type : VariableType) (factor : String) : Draft :=
  if draft.args.all fun arg => arg.literal?.isSome then
    { draft.choose type factor with factorArgs := some draft.rendered }
  else { draft.choose type factor with inputs := some draft.rendered }

/-- The arguments as numbers, all of which have to be literals. -/
def literalNumbers (draft : Draft) : Except Error (List Float) := do
  match (← draft.args.mapM Node.number?).mapM id with
  | some values => .ok values
  | none => .error (.parametersNotLiteral draft.primitive)

/-- The two parameters of a draft that has two. -/
def twoNumbers (draft : Draft) : Except Error (Float × Float) := do
  draft.expectArity [2]
  match ← draft.literalNumbers with
  | [first, second] => .ok (first, second)
  | _ => .error (.parametersNotLiteral draft.primitive)

end Draft

/-- The reciprocal of a number that is not zero. -/
def reciprocal (x : Float) : Except Error Float :=
  if x == 0.0 then .error .divisionByZero else .ok (1.0 / x)

/-- An array of doubles in Java. -/
def doubleArray (values : List Float) : String :=
  Node.arrayCreation "double" (values.map Decimal.text)

/-- The numbers `0, …, n - 1` as texts. -/
def indices (n : Nat) : List String := (List.range n).map fun i => toString i

/-- A discrete variable over a domain, drawn with these weights. -/
def Draft.draw (draft : Draft) (domain : List String) (weights : List Float) : Draft :=
  { draft.choose .discrete "Categorical" with
    variableArgs := some domain, factorArgs := some [doubleArray weights] }

/-- The elements of the only argument, if it is an array that is not empty. -/
def Draft.elements? (draft : Draft) : Option (List Node) :=
  match draft.args with
  | [.array elements] => if elements.isEmpty then none else some elements
  | _ => none

/-- The positive whole number that a double is. -/
def wholeCount (primitive : String) (count : Float) : Except Error Nat :=
  match Decimal.Binary64.ofFloat count with
  | .nan => .error .notANumber
  | .infinite negative => .error (if negative then .countNotPositive primitive else .outOfRange)
  | parts =>
    match parts.toInt? with
    | some n => if 0 < n then .ok n.toNat else .error (.countNotPositive primitive)
    | none => .error (.countNotPositive primitive)

namespace Rule

/-- A bit that is one with a probability; one half if none is given. -/
def bernoulliFill (draft : Draft) : Except Error Draft := do
  draft.expectArity [0, 1]
  if draft.args.isEmpty then
    return { draft.choose .bit "Bernoulli" with factorArgs := some [Decimal.text 0.5] }
  else return draft.parameterized .bit "Bernoulli"

/-- A mean and a standard deviation, which the factor wants as a precision. -/
def normalFill (draft : Draft) : Except Error Draft := do
  let (mean, deviation) ← draft.twoNumbers
  if deviation ≤ 0.0 then throw (.deviationNotPositive draft.primitive deviation)
  let precision ← reciprocal (deviation * deviation)
  return { draft.choose .real "Normal" with
           factorArgs := some [Decimal.text mean, Decimal.text precision] }

/-- A shape and a scale, which the factor wants as a rate. -/
def gammaFill (draft : Draft) : Except Error Draft := do
  let (shape, scale) ← draft.twoNumbers
  if scale ≤ 0.0 then throw (.scaleNotPositive draft.primitive scale)
  let rate ← reciprocal scale
  return { draft.choose .real "Gamma" with
           factorArgs := some [Decimal.text shape, Decimal.text rate] }

/-- Draws a position in a list of weights. -/
def categoricalFill (draft : Draft) : Except Error Draft := do
  draft.expectArity [1]
  match draft.elements? with
  | none => .error (.weightsMissing draft.primitive)
  | some elements =>
    match (← elements.mapM Node.number?).mapM id with
    | none => .error (.weightsNotNumeric draft.primitive)
    | some weights => .ok (draft.draw (indices weights.length) weights)

/-- Draws a number below a bound, all with the same weight. -/
def uniformIntegerFill (draft : Draft) : Except Error Draft := do
  draft.expectArity [1]
  match ← (draft.args.head?.getD .blank).number? with
  | none => .error (.countNotPositive draft.primitive)
  | some count => do
    let size ← wholeCount draft.primitive count
    return draft.draw (indices size) (List.replicate size (1.0 / count))

/-- Draws one of a list of literals, all with the same weight. -/
def uniformDrawFill (draft : Draft) : Except Error Draft := do
  draft.expectArity [1]
  match draft.elements? with
  | none => .error (.valuesMissing draft.primitive)
  | some elements =>
    match elements.mapM Node.literal? with
    | none => .error (.valuesNotLiteral draft.primitive)
    | some values =>
      if values.contains .null then .error (.valuesNotLiteral draft.primitive)
      else do
        let domain ← values.mapM Literal.java
        let size := values.length
        return draft.draw domain (List.replicate size (1.0 / Float.ofNat size))

/-- Describes a call of a built-in primitive. -/
def fill : Rule → Draft → Except Error Draft
  | .bernoulli, draft => bernoulliFill draft
  | .normal, draft => normalFill draft
  | .beta, draft => do
    draft.expectArity [2]
    return draft.parameterized .real "Beta"
  | .gamma, draft => gammaFill draft
  | .exponential, draft => do
    draft.expectArity [1]
    return draft.parameterized .real "Exponential"
  | .categorical, draft => categoricalFill draft
  | .uniformInteger, draft => uniformIntegerFill draft
  | .uniformDraw, draft => uniformDrawFill draft
  | .function type factor arity, draft => do
    if let some n := arity then draft.expectArity [n]
    return { draft.choose type factor with inputs := some draft.rendered }

end Rule

/-- The built-in primitives with their names, the main one first. -/
def builtins : List (List String × Rule) :=
  [(["flip", "bernoulli"], .bernoulli),
   (["gaussian", "normal"], .normal),
   (["beta"], .beta),
   (["gamma"], .gamma),
   (["exponential"], .exponential),
   (["discrete", "categorical"], .categorical),
   (["randomInteger"], .uniformInteger),
   (["uniformDraw"], .uniformDraw),
   (["and"], .function .bit "And" none),
   (["or"], .function .bit "Or" none),
   (["xor"], .function .bit "Xor" none),
   (["not"], .function .bit "Not" (some 1)),
   (["equal", "eq"], .function .bit "Equals" none),
   (["greater", "gt"], .function .bit "GreaterThan" (some 2)),
   (["less", "lt"], .function .bit "LessThan" (some 2)),
   (["plus", "sum"], .function .real "Sum" none),
   (["minus"], .function .real "Subtract" (some 2)),
   (["mult", "product"], .function .real "Product" none),
   (["div"], .function .real "Divide" (some 2)),
   (["neg"], .function .real "Negate" (some 1)),
   (["abs"], .function .real "Abs" (some 1)),
   (["exp"], .function .real "Exp" (some 1)),
   (["log"], .function .real "Log" (some 1)),
   (["sqrt"], .function .real "Sqrt" (some 1))]

/-- The producer of a built-in primitive. -/
def Rule.producer (rule : Rule) (name : String) : Producer :=
  { label := "builtin:" ++ name, fill := rule.fill }

/-- The built-in producers by name. -/
def builtinProducers : List (String × Producer) :=
  builtins.flatMap fun (names, rule) =>
    names.map fun name => (name, rule.producer (names.head?.getD name))

end TraceGraph.Factor
