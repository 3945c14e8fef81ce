import TraceGraph.Text.Letter
import TraceGraph.Text.WordPart

/-!
# Identifiers

An identifier is a start character followed by parts.  The classes are those of the Unicode annex on
identifiers, in the form that stays closed under normalisation: the tables of letters and word parts,
plus a few characters kept for old texts and less those whose normal form would not be an identifier.
-/

namespace TraceGraph.Text

/-- Symbols that may start an identifier though they are no letters; the low line among them. -/
def extraStarts : Ranges :=
  [(0x5f, 0x5f), (0x1885, 0x1886), (0x2118, 0x2118), (0x212e, 0x212e)]

/-- Characters that may continue an identifier though they are in no table of word parts. -/
def extraParts : Ranges :=
  [(0xb7, 0xb7), (0x387, 0x387), (0x1369, 0x1371), (0x19da, 0x19da)]

/-- Letters that normalise to something that is no identifier. -/
def unstable : Ranges :=
  [(0x37a, 0x37a), (0x2e2f, 0x2e2f), (0xfc5e, 0xfc63), (0xfdfa, 0xfdfb), (0xfe70, 0xfe70),
   (0xfe72, 0xfe72), (0xfe74, 0xfe74), (0xfe76, 0xfe76), (0xfe78, 0xfe78), (0xfe7a, 0xfe7a),
   (0xfe7c, 0xfe7c), (0xfe7e, 0xfe7e)]

/-- Letters that normalise to a mark first: they continue an identifier and do not start one. -/
def unstableStarts : Ranges :=
  [(0xe33, 0xe33), (0xeb3, 0xeb3), (0xff9e, 0xff9f)]

/-- May an identifier start with this character? -/
def isIdentifierStart (c : Char) : Bool :=
  (isLetter c || letterNumbers.contains c || extraStarts.contains c) &&
    !unstable.contains c && !unstableStarts.contains c

/-- May an identifier go on with this character? -/
def isIdentifierPart (c : Char) : Bool :=
  (isLetter c || letterNumbers.contains c || combiningMarks.contains c || decimalDigits.contains c ||
    connectors.contains c || extraStarts.contains c || extraParts.contains c) && !unstable.contains c

/-- Is the text one identifier? -/
def isIdentifier (s : String) : Bool :=
  match s.toList with
  | [] => false
  | c :: rest => isIdentifierStart c && rest.all isIdentifierPart

end TraceGraph.Text
