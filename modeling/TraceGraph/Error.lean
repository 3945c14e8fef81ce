import TraceGraph.Decimal.Layout
import TraceGraph.Text.Join

/-!
# Errors

Everything that can go wrong, as causes.  `Error.kind` sorts the causes into the families that a caller
can tell apart, `Error.message` words them, and nothing else in the library does either.

Six families are reports: the input was understood well enough to say what is wrong with it.  The
others are breakdowns, where a rule was applied to something that it has no answer for.
-/

namespace TraceGraph

/-- The names that a node of a program carries. -/
inductive NameRole where
  | referred
  | callee
  | assigned
  | observed
  | queried
deriving DecidableEq, Repr

/-- What can go wrong. -/
inductive Error where
  /-- A setting that must be a non-empty text is not. -/
  | settingNotText (setting : String)
  | iterationsNotInteger
  | iterationsNotPositive (count : Int)
  /-- A setting that does not exist. -/
  | unknownSetting (setting : String)
  /-- A field that a rule needs is missing. -/
  | missingField (key : String)
  /-- A field was asked of something that has none. -/
  | noFields
  /-- Items were asked of something that has none. -/
  | notIterable
  /-- An operator that is no text. -/
  | operatorNotText
  | emptyName (role : NameRole)
  | unsupportedLiteral (type : String)
  | argumentKind (kind : String)
  | initializerKind (kind : String)
  | statementKind (kind : String)
  | evidenceKind (kind : String)
  | testNotVariable
  | emptyBranch
  | branchWithoutMerge
  | mergeMismatch (consequent alternate : String)
  /-- A node of no kind has no written form. -/
  | blankNode
  /-- A kind of node for which there is no rule here. -/
  | unsupportedNode (description : String)
  | treeNotObject (type : String)
  | malformedTree (type : String)
  | missingElse
  | declaratorCount (count : Nat)
  | sparseArray
  | unparsable
  | notAProgram (type : String)
  | malformedLiteral (name detail : String)
  | evidenceArguments (callee : String)
  | unknownEvidence (kind : String)
  | unrenderable (description : String)
  | queryNotLast (name : String)
  | queryInBranch (name : String)
  | evidenceInBranch (branch merge : String)
  | mergeFromEvidence (merge callee : String)
  | branchValueTaken (name : String)
  | dispatcherArguments (dispatcher : String) (count : Nat)
  | dispatchedName (dispatcher : String)
  | dispatchedArguments (dispatcher : String)
  | unknownPrimitive (name : String)
  | arity (primitive : String) (allowed : List Nat) (count : Nat)
  | parametersNotLiteral (primitive : String)
  | deviationNotPositive (primitive : String) (value : Float)
  | scaleNotPositive (primitive : String) (value : Float)
  | weightsMissing (primitive : String)
  | weightsNotNumeric (primitive : String)
  | countNotPositive (primitive : String)
  | valuesMissing (primitive : String)
  | valuesNotLiteral (primitive : String)
  /-- A number that is none was to be made an integer. -/
  | notANumber
  /-- An integer with more digits than a text can have. -/
  | tooManyDigits
  /-- A number beyond the range of its type. -/
  | outOfRange
  | divisionByZero
  | emptyPrimitive
  | producerNotCallable (name : String)
  | alreadyRegistered (name : String)
  | variableTypeMissing (primitive : String)
  | variableTypeUnknown (primitive type : String)
  | constructorMissing (primitive : String)
  | className (name : String)
  | unsupportedStatement (description : String)
  | missingFile (path : String)
deriving DecidableEq, Repr

namespace Error

/-- The families of errors. -/
inductive Kind where
  | schema
  | settings
  | registry
  | unknownPrimitive
  | unsupportedNode
  | malformedLiteral
  | missingField
  | missingOperation
  | wrongType
  | invalidNumber
  | overflow
  | divisionByZero
  | unimplemented
  | missingFile
deriving DecidableEq, Repr

/-- Is the family one of the reports, and not a breakdown? -/
def Kind.reported : Kind → Bool
  | .schema | .settings | .registry | .unknownPrimitive | .unsupportedNode | .malformedLiteral => true
  | _ => false

/-- The family of an error. -/
def kind : Error → Kind
  | .settingNotText _ | .iterationsNotInteger | .iterationsNotPositive _ => .settings
  | .emptyPrimitive | .producerNotCallable _ | .alreadyRegistered _ | .variableTypeMissing _
  | .variableTypeUnknown .. | .constructorMissing _ => .registry
  | .unknownPrimitive _ => .unknownPrimitive
  | .unsupportedNode _ => .unsupportedNode
  | .malformedLiteral .. => .malformedLiteral
  | .missingField _ => .missingField
  | .noFields | .operatorNotText => .missingOperation
  | .notIterable | .unknownSetting _ => .wrongType
  | .notANumber | .tooManyDigits => .invalidNumber
  | .outOfRange => .overflow
  | .divisionByZero => .divisionByZero
  | .blankNode => .unimplemented
  | .missingFile _ => .missingFile
  | _ => .schema

/-- The variable types a producer may choose from, as a message lists them. -/
def knownTypes : String :=
  "['Discrete', 'Bit', 'Real', 'RealJoint', 'FiniteFieldVariable']"

/-- What is said of a name that must not be empty. -/
def emptyNameMessage : NameRole → String
  | .referred => "Var name must be a non-empty string."
  | .callee => "Call callee must be non-empty."
  | .assigned => "Assign name must be non-empty."
  | .observed => "Evidence variable name must be non-empty."
  | .queried => "Query name must be non-empty."

/-- The wording of an error. -/
def message : Error → String
  | .settingNotText setting => "TranslatorConfig." ++ setting ++ " must be a non-empty string."
  | .iterationsNotInteger => "TranslatorConfig.num_iterations must be an integer."
  | .iterationsNotPositive count =>
    "TranslatorConfig.num_iterations must be positive: " ++ toString count
  | .unknownSetting setting => "unknown setting " ++ setting
  | .missingField key => "'" ++ key ++ "'"
  | .noFields => "the value has no fields"
  | .notIterable => "the value has no items"
  | .operatorNotText => "the operator is no text"
  | .emptyName role => emptyNameMessage role
  | .unsupportedLiteral type => "Unsupported literal type: " ++ type
  | .argumentKind kind => "Call arguments must be var/const/array/raw, got " ++ kind ++ "."
  | .initializerKind kind => "Unsupported assignment initializer: " ++ kind
  | .statementKind kind => "Expected a statement node, got " ++ kind ++ "."
  | .evidenceKind kind => "Evidence kind must be one of ['condition', 'factor']: " ++ kind
  | .testNotVariable => "If test must be a variable reference."
  | .emptyBranch => "If branches must each contain at least one statement."
  | .branchWithoutMerge => "If branches must end with an assignment to the merge variable."
  | .mergeMismatch consequent alternate =>
    "If branches assign different merge variables: " ++ consequent ++ " vs " ++ alternate ++ "."
  | .blankNode => "a node of no kind has no written form"
  | .unsupportedNode description =>
    "Haven't implemented translation for node of type " ++ description
  | .treeNotObject type => "ESTree node must be an object, got " ++ type
  | .malformedTree type => "Malformed " ++ type ++ " node"
  | .missingElse => "IfStatement requires an else branch assigning the merge variable."
  | .declaratorCount count =>
    "Expected one declarator per declaration, got " ++ toString count ++ "."
  | .sparseArray => "Sparse array literals are not supported."
  | .unparsable => "Could not parse trace source"
  | .notAProgram type => "Cannot translate input of type " ++ type
  | .malformedLiteral name detail =>
    "Cannot emit literal assignment for variable " ++ name ++ ": " ++ detail
  | .evidenceArguments callee => callee ++ "() expects a single variable argument."
  | .unknownEvidence kind => "Unknown evidence kind: " ++ kind
  | .unrenderable description => "Unsupported argument type: " ++ description
  | .queryNotLast name => "Query on " ++ name ++ " must be the final statement of the program."
  | .queryInBranch name => "Query on " ++ name ++ " is not allowed inside a branch."
  | .evidenceInBranch branch merge =>
    "Evidence inside the " ++ branch ++ " branch of " ++ merge ++ " cannot be made conditional."
  | .mergeFromEvidence merge callee =>
    "Merge variable " ++ merge ++ " cannot be assigned from " ++ callee ++ "()."
  | .branchValueTaken name => "Branch value " ++ name ++ " collides with an existing variable."
  | .dispatcherArguments dispatcher count =>
    dispatcher ++ "() expects an ERP name and an argument list, got " ++ toString count ++
      " argument(s)."
  | .dispatchedName dispatcher => dispatcher ++ "() first argument must be the ERP name string."
  | .dispatchedArguments dispatcher =>
    dispatcher ++ "() second argument must be an array literal."
  | .unknownPrimitive name => "Can't yet translate function \"" ++ name ++ "\" to Dimple."
  | .arity primitive allowed count =>
    primitive ++ " expects " ++ Text.join " or " (allowed.map toString) ++ " argument(s), got " ++
      toString count ++ "."
  | .parametersNotLiteral primitive =>
    primitive ++ " needs literal numeric parameters to be translated to Dimple."
  | .deviationNotPositive primitive value =>
    primitive ++ " standard deviation must be positive: " ++ Decimal.text value
  | .scaleNotPositive primitive value =>
    primitive ++ " scale must be positive: " ++ Decimal.text value
  | .weightsMissing primitive => primitive ++ " expects a non-empty literal array of weights."
  | .weightsNotNumeric primitive => primitive ++ " weights must be numeric literals."
  | .countNotPositive primitive => primitive ++ " expects a positive integer literal."
  | .valuesMissing primitive => primitive ++ " expects a non-empty literal array of values."
  | .valuesNotLiteral primitive => primitive ++ " values must be literals."
  | .notANumber => "cannot convert a number that is none to an integer"
  | .tooManyDigits => "the integer has too many digits"
  | .outOfRange => "the number is out of range"
  | .divisionByZero => "division by zero"
  | .emptyPrimitive => "Primitive name must be non-empty."
  | .producerNotCallable name => "Producer for " ++ name ++ " must be callable."
  | .alreadyRegistered name => "Primitive already registered: " ++ name
  | .variableTypeMissing primitive => "Producer for " ++ primitive ++ " did not set target_type."
  | .variableTypeUnknown primitive type =>
    "Producer for " ++ primitive ++ " set unknown target_type: " ++ type ++ ". Expected one of " ++
      knownTypes ++ "."
  | .constructorMissing primitive =>
    "Producer for " ++ primitive ++ " did not set constructor_name."
  | .className name => "Invalid Java class name: " ++ name
  | .unsupportedStatement description => "Unsupported target statement: " ++ description
  | .missingFile path => "no such file: " ++ path

end Error

end TraceGraph
