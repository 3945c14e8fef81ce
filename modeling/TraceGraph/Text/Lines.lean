/-!
# Lines

A line ends at a line boundary: a line feed, a carriage return, the two together, a vertical tab, a form
feed, one of the three information separators, a next-line control, or one of the two Unicode
separators.  `splitLines` cuts a text there; a boundary at the end starts no further line.
-/

namespace TraceGraph.Text

/-- Does the character end a line? -/
def isLineBoundary (c : Char) : Bool :=
  c ∈ ['\n', '\r', '\x0b', '\x0c', '\x1c', '\x1d', '\x1e', '\u0085', '\u2028', '\u2029']

/-- The lines of a text, without the boundaries. -/
def splitLines : List Char → List (List Char)
  | [] => []
  | '\r' :: '\n' :: rest => [] :: splitLines rest
  | c :: rest =>
    if isLineBoundary c then [] :: splitLines rest
    else match splitLines rest with
      | [] => [[c]]
      | line :: lines => (c :: line) :: lines

/-- The lines of a text. -/
def lines (s : String) : List String := (splitLines s.toList).map String.ofList

/-- A carriage return, alone or before a line feed, becomes a line feed. -/
def unifyNewlines : List Char → List Char
  | [] => []
  | '\r' :: '\n' :: rest => '\n' :: unifyNewlines rest
  | c :: rest => (if c = '\r' then '\n' else c) :: unifyNewlines rest

end TraceGraph.Text
