/-!
# Notices

What is worth telling about a run besides its result, in the order in which it happened.  A notice says
who speaks and how important it is, and has one wording.
-/

namespace TraceGraph

/-- How important a notice is. -/
inductive Level where
  | debug
  | info
  | warning
deriving DecidableEq, Repr

/-- The name of a level. -/
def Level.name : Level → String
  | .debug => "DEBUG"
  | .info => "INFO"
  | .warning => "WARNING"

/-- Something worth telling. -/
inductive Notice where
  /-- A syntax tree became a program of so many statements. -/
  | decoded (statements : Nat)
  /-- A primitive's producer was looked up. -/
  | resolved (primitive : String)
  /-- A primitive's producer was known from before. -/
  | remembered (primitive : String)
  /-- All producers were looked up; so many names are known now. -/
  | preloaded (count : Nat)
  /-- A call was described as a variable with a factor. -/
  | described (output primitive type factor : String)
  /-- A condition fixes a variable that is no bit. -/
  | fixedType (name type value : String)
  | aliasUntyped (name source : String)
  | mergeUntyped (name : String)
  /-- A program of so many statements became so many statements of Java. -/
  | compiled (statements lines : Nat)
deriving DecidableEq, Repr

namespace Notice

/-- How important a notice is. -/
def level : Notice → Level
  | .fixedType .. | .aliasUntyped .. | .mergeUntyped _ => .warning
  | .preloaded _ | .compiled .. => .info
  | _ => .debug

/-- Who gives a notice. -/
def speaker : Notice → String
  | .decoded _ => "ir.payload"
  | .resolved _ | .remembered _ | .preloaded _ => "factors.registry"
  | .described .. => "factors.builder"
  | .fixedType .. => "factors.evidence"
  | .aliasUntyped .. | .mergeUntyped _ | .compiled .. => "translator"

/-- The wording of a notice. -/
def message : Notice → String
  | .decoded statements => "Decoded ESTree program with " ++ toString statements ++ " statements"
  | .resolved primitive => "Resolved primitive: " ++ primitive
  | .remembered primitive => "Primitive cache hit: " ++ primitive
  | .preloaded count => "Preloaded " ++ toString count ++ " primitives"
  | .described output primitive type factor =>
    output ++ " = " ++ primitive ++ ": " ++ type ++ " via " ++ factor
  | .fixedType name type value =>
    "condition(" ++ name ++ ") fixes a " ++ type ++ " variable to " ++ value
  | .aliasUntyped name source =>
    "Alias " ++ name ++ " = " ++ source ++ " of unknown type; declaring Bit"
  | .mergeUntyped name => "Cannot infer type of merge variable " ++ name ++ "; declaring Bit"
  | .compiled statements lines =>
    "Translated " ++ toString statements ++ " statements into " ++ toString lines ++
      " Dimple statements"

/-- A notice as one line. -/
def line (n : Notice) : String := n.level.name ++ " " ++ n.speaker ++ ": " ++ n.message

end Notice

end TraceGraph
