import TraceGraph.Error
import TraceGraph.Notice

/-!
# Reports

A run ends with a result or an error, and in both cases leaves the notices it gave on the way.
-/

namespace TraceGraph

/-- How a run ended, and what it told on the way. -/
structure Report (α : Type) where
  result : Except Error α
  notices : List Notice

namespace Report

/-- A run that told nothing. -/
def silent {α : Type} (result : Except Error α) : Report α := { result, notices := [] }

/-- Goes on with the result of a run, if it has one. -/
def andThen {α β : Type} (first : Report α) (next : α → Report β) : Report β :=
  match first.result with
  | .error e => { result := .error e, notices := first.notices }
  | .ok a => { next a with notices := first.notices ++ (next a).notices }

@[simp]
theorem andThen_silent_ok {α β : Type} (a : α) (next : α → Report β) :
    (silent (.ok a)).andThen next = next a := by
  simp [andThen, silent]

@[simp]
theorem andThen_silent_error {α β : Type} (e : Error) (next : α → Report β) :
    (silent (.error e)).andThen next = silent (.error e) := rfl

/-- The results of two runs in a row are joined as results are. -/
theorem result_andThen {α β : Type} (first : Report α) (next : α → Report β) :
    (first.andThen next).result = first.result.bind fun a => (next a).result := by
  obtain ⟨result, notices⟩ := first
  cases result <;> rfl

end Report

end TraceGraph
