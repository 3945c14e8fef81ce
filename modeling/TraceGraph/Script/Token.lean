import TraceGraph.Decimal.Reading
import TraceGraph.Text.Identifier
import TraceGraph.Trace.Node

/-!
# Tokens of JavaScript

The words of a script: identifiers, keywords, punctuators, numbers, strings and pieces of templates.  A
token knows the line that it ends on, since a line break can end a statement.  A string that goes on in
the next line ends there, so it counts as one with a line break before it.
-/

namespace TraceGraph.Script

/-- A word of a script. -/
inductive Word where
  | identifier (name : String)
  | keyword (name : String)
  /-- One of `true`, `false` and `null`. -/
  | constant (name : String)
  | punctuator (mark : String)
  /-- A number or a string.  Octal numbers and escapes of the old form are `legacy`. -/
  | literal (value : Literal) (raw : String) (legacy : Bool)
  /-- A piece of a template: the text up to the next expression in it, or up to its end.  The first
  piece is the `head`, the last one the `tail`. -/
  | template (raw : String) (head tail : Bool)
deriving DecidableEq, Inhabited, Repr

/-- A word, and the number of line breaks up to its end. -/
structure Token where
  word : Word
  line : Nat
deriving DecidableEq, Inhabited, Repr

/-- The words that are reserved. -/
def keywords : List String :=
  ["if", "in", "do", "var", "for", "new", "try", "let", "this", "else", "case", "void", "with", "enum",
   "while", "break", "catch", "throw", "const", "yield", "class", "super", "return", "typeof", "delete",
   "switch", "export", "import", "default", "finally", "extends", "function", "continue", "debugger",
   "instanceof"]

/-- The words that are reserved in strict code besides. -/
def strictKeywords : List String :=
  ["implements", "interface", "package", "private", "protected", "public", "static", "yield", "let"]

/-- The names that cannot be given a meaning in strict code. -/
def restrictedNames : List String := ["eval", "arguments"]

/-- The words that stand for values. -/
def constants : List String := ["true", "false", "null"]

namespace Word

/-- The word that a name is. -/
def ofName (name : String) : Word :=
  if name ∈ constants then .constant name
  else if name ∈ keywords then .keyword name
  else .identifier name

/-- The word as it is read in strict code. -/
def strictly : Word → Word
  | .identifier name => if name ∈ strictKeywords then .keyword name else .identifier name
  | word => word

/-- The text that a word stands for, if it stands for one. -/
def text? : Word → Option String
  | .identifier text | .keyword text | .constant text | .punctuator text => some text
  | .literal (.str text) .. => some text
  | _ => none

end Word

/-- The punctuators, a longer one before those it begins with. -/
def punctuators : List String :=
  [">>>=", "...", "===", "!==", ">>>", "<<=", ">>=", "**=", "&&", "||", "==", "!=", "+=", "-=", "*=",
   "/=", "++", "--", "<<", ">>", "&=", "|=", "^=", "%=", "<=", ">=", "=>", "**", "\x7b", "\x7d", "(",
   ")", ";", ",", "[", "]", ":", "?", "~", ".", "<", ">", "=", "!", "+", "-", "*", "%", "&", "|", "^",
   "/"]

/-! ### Characters -/

/-- Does the character break a line? -/
def isLineBreak (c : Char) : Bool := c ∈ ['\n', '\r', '\u2028', '\u2029']

/-- Is the character blank space within a line? -/
def isBlank (c : Char) : Bool :=
  c ∈ ['\t', '\x0b', '\x0c', ' ', '\u00a0', '\u1680', '\u180e', '\u202f', '\u205f', '\u3000',
       '\ufeff'] ||
    (0x2000 ≤ c.toNat && c.toNat ≤ 0x200a)

/-- Symbols that may start a name though they are no letters. -/
def nameSymbols : Text.Ranges :=
  [(0x24, 0x24), (0x5f, 0x5f), (0x1885, 0x1886), (0x2118, 0x2118), (0x212e, 0x212e), (0x309b, 0x309c)]

/-- May a name start with this character? -/
def isNameStart (c : Char) : Bool :=
  Text.isLetter c || Text.letterNumbers.contains c || nameSymbols.contains c

/-- May a name go on with this character? -/
def isNamePart (c : Char) : Bool :=
  isNameStart c || Text.combiningMarks.contains c || Text.decimalDigits.contains c ||
    Text.connectors.contains c || Text.extraParts.contains c || c ∈ ['\u200c', '\u200d']

end TraceGraph.Script
