/-!
# Joined texts

Lists are written with a separator between their items, and none before the first or after the last.
-/

namespace TraceGraph.Text

/-- The items with a separator between them. -/
def join (separator : String) : List String → String
  | [] => ""
  | [item] => item
  | item :: rest => item ++ separator ++ join separator rest

@[simp]
theorem join_nil (separator : String) : join separator [] = "" := rfl

@[simp]
theorem join_singleton (separator item : String) : join separator [item] = item := rfl

theorem join_cons_cons (separator item next : String) (rest : List String) :
    join separator (item :: next :: rest) = item ++ separator ++ join separator (next :: rest) := rfl

/-- The items separated by commas. -/
def commas (items : List String) : String := join ", " items

end TraceGraph.Text
