import TraceGraph.Text.Ranges

/-!
# Blanks

The characters that may stand around a number without being part of it: the space, the controls from
the tab to the carriage return, the next-line control, and the separators beyond Latin.
-/

namespace TraceGraph.Text

/-- Blank characters. -/
def blanks : Ranges :=
  [(0x9, 0xd), (0x20, 0x20), (0x85, 0x85), (0xa0, 0xa0), (0x1680, 0x1680), (0x2000, 0x200a),
   (0x2028, 0x2029), (0x202f, 0x202f), (0x205f, 0x205f), (0x3000, 0x3000)]

/-- Is the character blank? -/
def isBlank (c : Char) : Bool := blanks.contains c

/-- The text without the blanks around it. -/
def trim (cs : List Char) : List Char :=
  ((cs.dropWhile isBlank).reverse.dropWhile isBlank).reverse

end TraceGraph.Text
