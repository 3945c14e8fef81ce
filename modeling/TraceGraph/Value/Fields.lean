import TraceGraph.Error
import TraceGraph.Value

/-!
# Fields and items

Two ways to take a value apart that can fail: a field that has to be there, and the items of something
that is gone through.  A missing list is an empty one, a text is gone through by characters and an
object by keys.
-/

namespace TraceGraph.Value

/-- A field that has to be there. -/
def require (fields : List (String × Value)) (key : String) : Except Error Value :=
  match fields.lookup key with
  | some value => .ok value
  | none => .error (.missingField key)

/-- The items of a value. -/
def items : Value → Except Error (List Value)
  | .list xs => .ok xs
  | .str s => .ok (s.toList.map fun c => .str (String.singleton c))
  | .object fields => .ok (fields.map fun field => .str field.1)
  | _ => .error .notIterable

/-- The items of a field, none if it is missing. -/
def itemsOf (fields : List (String × Value)) (key : String) : Except Error (List Value) :=
  match fields.lookup key with
  | some value => value.items
  | none => .ok []

/-- A name: a text that is not empty. -/
def nameFor (role : NameRole) : Value → Except Error String
  | .str s => if s = "" then .error (.emptyName role) else .ok s
  | _ => .error (.emptyName role)

end TraceGraph.Value
