import TraceGraph.Script.Statements

/-!
# Reading scripts

The rules of the grammar need readers for what is nested in the texts that they read.  `readers` gives
them for a depth of nesting.  No text is nested more deeply than it has tokens, so their number gives a
depth that is enough.
-/

namespace TraceGraph.Script

/-- The readers for texts that are nested no more deeply than this. -/
def readers : Nat → Readers
  | 0 => .none
  | depth + 1 =>
    { assignment := fun mode => Script.assignment (readers depth) mode
      power := fun mode => Script.power (readers depth) mode
      unary := fun mode => Script.unary (readers depth) mode
      leftHandSide := fun mode => Script.leftHandSide (readers depth) mode
      constructed := fun mode => Script.constructed (readers depth) mode
      pattern := fun kind mode => Script.pattern (readers depth) kind mode
      body := fun simple mode => Script.functionBody (readers depth) simple mode
      statement := fun mode => Script.statement (readers depth) mode
      item := fun mode => Script.item (readers depth) mode }

/-- The statements of a script. -/
def script (r : Readers) : Parse (List Statement) := do
  let front ← directives r true {}
  repeated (fun body => do
    if ← atEnd then return .inr body
    else
      let next ← r.item {}
      return .inl (body ++ [next])) front

/-- Reads a script. -/
def parse? (source : String) : Option (List Statement) := do
  let ts ← tokens source
  let (body, _) ← (script (readers (ts.length + 2))).run { size := ts.length, tokens := ts }
  return body

end TraceGraph.Script
