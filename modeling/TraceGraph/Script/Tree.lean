import TraceGraph.Trace.Writing

/-!
# Syntax of scripts

The part of JavaScript that traced programs are written in, as a tree.  Expressions and statements
outside that part are told apart only by their type: they are read to be refused.

`Expression.tree` and `Statement.tree` give the same syntax in the ESTree format.
-/

namespace TraceGraph.Script

/-- An expression. -/
inductive Expression where
  | identifier (name : String)
  | literal (value : Literal) (raw : String)
  | array (elements : List Expression)
  /-- An element that is left out of an array. -/
  | hole
  | call (callee : Expression) (args : List Expression)
  | member (object property : Expression) (computed : Bool)
  | unary (operator : String) (argument : Expression)
  | binary (operator : String) (left right : Expression)
  | logical (operator : String) (left right : Expression)
  /-- Any other expression. -/
  | other (type : String)
deriving Inhabited, Repr

/-- What a declarator declares: a name, or a pattern of some type. -/
inductive Binding where
  | named (name : String)
  | pattern (type : String)
deriving DecidableEq, Inhabited, Repr

/-- One variable of a declaration. -/
structure Declarator where
  binding : Binding
  init : Option Expression
deriving Inhabited, Repr

/-- A statement. -/
inductive Statement where
  | empty
  | declaration (declarators : List Declarator)
  | expression (value : Expression)
  | conditional (test : Expression) (consequent : Statement) (alternate : Option Statement)
  | block (body : List Statement)
  /-- Any other statement. -/
  | other (type : String)
deriving Inhabited, Repr

/-- A node of a syntax tree. -/
def node (type : String) (fields : List (String × Value)) : Value :=
  .object (("type", .str type) :: fields)

/-- An identifier of a syntax tree. -/
def identifierNode (name : String) : Value := node "Identifier" [("name", .str name)]

namespace Expression

mutual

/-- An expression as a syntax tree. -/
def tree : Expression → Value
  | .identifier name => identifierNode name
  | .literal value raw => node "Literal" [("value", value.toValue), ("raw", .str raw)]
  | .array elements => node "ArrayExpression" [("elements", .list (trees elements))]
  | .hole => .null
  | .call callee args =>
    node "CallExpression" [("callee", callee.tree), ("arguments", .list (trees args))]
  | .member object property computed =>
    node "MemberExpression"
      [("computed", .bool computed), ("object", object.tree), ("property", property.tree)]
  | .unary operator argument =>
    node "UnaryExpression"
      [("operator", .str operator), ("argument", argument.tree), ("prefix", .bool true)]
  | .binary operator left right =>
    node "BinaryExpression"
      [("operator", .str operator), ("left", left.tree), ("right", right.tree)]
  | .logical operator left right =>
    node "LogicalExpression"
      [("operator", .str operator), ("left", left.tree), ("right", right.tree)]
  | .other type => node type []

/-- Expressions as syntax trees. -/
def trees : List Expression → List Value
  | [] => []
  | e :: rest => e.tree :: trees rest

end

end Expression

/-- What is declared, as a syntax tree. -/
def Binding.tree : Binding → Value
  | .named name => identifierNode name
  | .pattern type => node type []

/-- A declarator as a syntax tree. -/
def Declarator.tree (d : Declarator) : Value :=
  node "VariableDeclarator"
    [("id", d.binding.tree), ("init", (d.init.map Expression.tree).getD .null)]

namespace Statement

mutual

/-- A statement as a syntax tree. -/
def tree : Statement → Value
  | .empty => node "EmptyStatement" []
  | .declaration declarators =>
    node "VariableDeclaration" [("declarations", .list (declarators.map Declarator.tree))]
  | .expression value => node "ExpressionStatement" [("expression", value.tree)]
  | .conditional test consequent alternate =>
    node "IfStatement"
      [("test", test.tree), ("consequent", consequent.tree), ("alternate", alternateTree alternate)]
  | .block body => node "BlockStatement" [("body", .list (trees body))]
  | .other type => node type []

/-- The other branch of a conditional as a syntax tree; null if there is none. -/
def alternateTree : Option Statement → Value
  | none => .null
  | some s => s.tree

/-- Statements as syntax trees. -/
def trees : List Statement → List Value
  | [] => []
  | s :: rest => s.tree :: trees rest

end

end Statement

/-- A script as a syntax tree. -/
def scriptTree (body : List Statement) : Value :=
  node "Program" [("body", .list (Statement.trees body)), ("sourceType", .str "script")]

end TraceGraph.Script
