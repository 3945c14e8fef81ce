/-!
# Values

A `Value` is what a program, a syntax tree or a setting looks like before it is understood: a scalar, a
list, or an object with named fields in order.  A whole number and a double are different values, even
where they are equal as numbers.
-/

namespace TraceGraph

/-- A value that has not been understood yet. -/
inductive Value where
  | null
  | bool (b : Bool)
  | int (n : Int)
  | float (x : Float)
  | str (s : String)
  | list (items : List Value)
  | object (fields : List (String × Value))
deriving Inhabited, Repr

namespace Value

/-- The name of a value's type. -/
def typeName : Value → String
  | .null => "NoneType"
  | .bool _ => "bool"
  | .int _ => "int"
  | .float _ => "float"
  | .str _ => "str"
  | .list _ => "list"
  | .object _ => "dict"

/-- Does a value count as true where a condition is wanted?  Nothing, zero and emptiness do not. -/
def truthy : Value → Bool
  | .null => false
  | .bool b => b
  | .int n => n != 0
  | .float x => x != 0.0
  | .str s => s != ""
  | .list items => !items.isEmpty
  | .object fields => !fields.isEmpty

mutual

/-- How deep lists and objects are nested in a value; a scalar has height `0`. -/
def height : Value → Nat
  | .list items => heightOfItems items + 1
  | .object fields => heightOfFields fields + 1
  | _ => 0

/-- The greatest height in a list. -/
def heightOfItems : List Value → Nat
  | [] => 0
  | item :: rest => max item.height (heightOfItems rest)

/-- The greatest height among the fields of an object. -/
def heightOfFields : List (String × Value) → Nat
  | [] => 0
  | (_, value) :: rest => max value.height (heightOfFields rest)

end

end Value

end TraceGraph
