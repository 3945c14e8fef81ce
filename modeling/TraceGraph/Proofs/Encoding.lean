import TraceGraph.Proofs.Decoding

/-!
# Syntax trees of programs

Every well-formed program has a syntax tree that is decoded to it.  `Encodes body tree` says what such a
tree looks like: each kind of node of the program is given by one type of tree, with the fields that
matter; whatever other fields an object has makes no difference.  Only an expression that is kept as
text has no tree of its own, so any call, member, binary or logical expression with that text will do.

* `EncodesBody.decodesTo`: each tree of a body is decoded to its statement, by induction on the encoding,
  with a lemma for each kind of statement.
* `exists_encodes`: there is a tree of a program, if there is one for each text that is kept in it.
-/

namespace TraceGraph

namespace Node

mutual

/-- The texts that are kept in a node. -/
def rawTexts : Node → List String
  | .raw text => [text]
  | .array elements => rawTextsOfAll elements
  | .call _ args => rawTextsOfAll args
  | .assign _ init => init.rawTexts
  | .choice _ _ thenBody thenValue elseBody elseValue =>
    rawTextsOfAll thenBody ++ thenValue.rawTexts ++ (rawTextsOfAll elseBody ++ elseValue.rawTexts)
  | .program body => rawTextsOfAll body
  | _ => []

/-- The texts that are kept in a list of nodes. -/
def rawTextsOfAll : List Node → List String
  | [] => []
  | node :: rest => node.rawTexts ++ rawTextsOfAll rest

end

end Node

theorem Value.height_le_of_lookup {fields : List (String × Value)} {key : String} {v : Value}
    (h : fields.lookup key = some v) : v.height ≤ Value.heightOfFields fields := by
  induction fields with
  | nil => cases h
  | cons entry rest ih =>
    obtain ⟨other, first⟩ := entry
    rw [Value.heightOfFields]
    rw [List.lookup_cons] at h
    split at h
    · cases h
      exact Nat.le_max_left _ _
    · exact Nat.le_trans (ih h) (Nat.le_max_right _ _)

namespace Estree

open Node (Arguments Body Initializer rawTextsOfAll)

/-! ### What a tree looks like -/

/-- The tree is an object of this type that has these children, and maybe other fields. -/
def IsTree (v : Value) (type : String) (children : List (String × Value)) : Prop :=
  ∃ fields, v = .object fields ∧ fields.lookup "type" = some (.str type) ∧
    ∀ child ∈ children, fields.lookup child.1 = some child.2

/-- The tree is an identifier of this name. -/
def IsIdentifier (v : Value) (name : String) : Prop := IsTree v "Identifier" [("name", .str name)]

/-- The spelling of a literal, if it has one, is a text. -/
def SpelledAsText (v : Value) : Prop := ∀ fields, v = .object fields → isOptionalText fields "raw"

/-- The tree is an expression that is kept as this text. -/
def IsKept (v : Value) (text : String) : Prop :=
  (∃ type ∈ [ExpressionType.call, .member, .binary, .logical], IsTree v type.name []) ∧
    expressionText v = .ok text

/-- The trees of arguments, or of the elements of an array. -/
inductive EncodesArguments : List Node → List Value → Prop
  | nil : EncodesArguments [] []
  | var {name : String} {tree : Value} {rest : List Node} {trees : List Value}
      (htree : IsIdentifier tree name) (hrest : EncodesArguments rest trees) :
      EncodesArguments (.var name :: rest) (tree :: trees)
  | const {value : Literal} {tree : Value} {rest : List Node} {trees : List Value}
      (htree : IsTree tree "Literal" [("value", value.toValue)]) (hraw : SpelledAsText tree)
      (hrest : EncodesArguments rest trees) :
      EncodesArguments (.const value :: rest) (tree :: trees)
  | array {elements : List Node} {tree : Value} {items : List Value} {rest : List Node}
      {trees : List Value} (htree : IsTree tree "ArrayExpression" [("elements", .list items)])
      (helements : EncodesArguments elements items) (hrest : EncodesArguments rest trees) :
      EncodesArguments (.array elements :: rest) (tree :: trees)
  | raw {text : String} {tree : Value} {rest : List Node} {trees : List Value}
      (htree : IsKept tree text) (hrest : EncodesArguments rest trees) :
      EncodesArguments (.raw text :: rest) (tree :: trees)

/-- The tree of a call. -/
def EncodesCall (callee : String) (args : List Node) (tree : Value) : Prop :=
  ∃ function items, IsTree tree "CallExpression" [("callee", function), ("arguments", .list items)] ∧
    IsIdentifier function callee ∧ EncodesArguments args items

/-- The tree of what a variable is assigned. -/
inductive EncodesInitializer : Node → Value → Prop
  | call {callee : String} {args : List Node} {tree : Value} (htree : EncodesCall callee args tree) :
      EncodesInitializer (.call callee args) tree
  | argument {node : Node} {tree : Value} (htree : EncodesArguments [node] [tree]) :
      EncodesInitializer node tree

/-- The trees of the statements of a program or of a branch. -/
inductive EncodesBody : List Node → List Value → Prop
  | nil : EncodesBody [] []
  | assign {name : String} {init : Node} {tree declarator id value : Value} {rest : List Node}
      {trees : List Value}
      (htree : IsTree tree "VariableDeclaration" [("declarations", .list [declarator])])
      (hdeclarator : IsTree declarator "VariableDeclarator" [("id", id), ("init", value)])
      (hid : IsIdentifier id name) (hinit : EncodesInitializer init value)
      (hrest : EncodesBody rest trees) : EncodesBody (.assign name init :: rest) (tree :: trees)
  | evidence {kind : EvidenceKind} {name : String} {tree expression : Value} {rest : List Node}
      {trees : List Value} (htree : IsTree tree "ExpressionStatement" [("expression", expression)])
      (hexpression : EncodesCall kind.name [.var name] expression) (hrest : EncodesBody rest trees) :
      EncodesBody (.evidence kind name :: rest) (tree :: trees)
  | choice {test merge : String} {thenBody elseBody : List Node} {thenValue elseValue : Node}
      {tree testTree consequent alternate : Value} {thenItems elseItems : List Value}
      {rest : List Node} {trees : List Value}
      (htree : IsTree tree "IfStatement"
        [("test", testTree), ("consequent", consequent), ("alternate", alternate)])
      (htest : IsIdentifier testTree test)
      (hconsequent : IsTree consequent "BlockStatement" [("body", .list thenItems)])
      (halternate : IsTree alternate "BlockStatement" [("body", .list elseItems)])
      (hthen : EncodesBody (thenBody ++ [.assign merge thenValue]) thenItems)
      (helse : EncodesBody (elseBody ++ [.assign merge elseValue]) elseItems)
      (hrest : EncodesBody rest trees) :
      EncodesBody (.choice (.var test) merge thenBody thenValue elseBody elseValue :: rest)
        (tree :: trees)
  | query {name : String} {tree expression : Value} {rest : List Node} {trees : List Value}
      (htree : IsTree tree "ExpressionStatement" [("expression", expression)])
      (hexpression : IsIdentifier expression name) (hrest : EncodesBody rest trees) :
      EncodesBody (.query name :: rest) (tree :: trees)

/-- The tree of a program. -/
def Encodes (body : List Node) (tree : Value) : Prop :=
  ∃ items, IsTree tree "Program" [("body", .list items)] ∧ EncodesBody body items

/-! ### Trees and shapes -/

section

variable {v : Value} {type name : String} {children : List (String × Value)}

theorem hasType_eq {fields : List (String × Value)} (h : fields.lookup "type" = some (.str type)) :
    hasType fields type = true := by
  simp [hasType, h]

namespace IsTree

theorem typeOf_eq (h : IsTree v type children) : typeOf v = .ok type := by
  obtain ⟨fields, rfl, htype, -⟩ := h
  rw [typeOf, typeText, htype]
  rfl

theorem isObject_eq (h : IsTree v type children) : isObject v = true := by
  obtain ⟨fields, rfl, -⟩ := h
  rfl

/-- A tree has a shape if an object of its type with its children has. -/
theorem expect_eq {α : Type} {shape : List (String × Value) → Option α} {a : α}
    (h : IsTree v type children)
    (hshape : ∀ fields, hasType fields type = true →
      (∀ child ∈ children, fields.lookup child.1 = some child.2) → shape fields = some a) :
    expect shape v = .ok a := by
  obtain ⟨fields, rfl, htype, hchildren⟩ := h
  exact expect_eq_ok_iff.2 ⟨fields, rfl, hshape fields (hasType_eq htype) hchildren⟩

theorem height_lt (h : IsTree v type children) : ∀ child ∈ children, child.2.height < v.height := by
  obtain ⟨fields, rfl, -, hchildren⟩ := h
  intro child hchild
  have hle := Value.height_le_of_lookup (hchildren child hchild)
  rw [Value.height]
  omega

/-- At a level that is high enough, a tree is opened to an object, with one level less for its
children. -/
theorem exists_level (h : IsTree v type children) {level : Nat} (hlevel : v.height ≤ level) :
    ∃ inner fields, level = inner + 1 ∧ v = .object fields ∧
      fields.lookup "type" = some (.str type) := by
  obtain ⟨fields, rfl, htype, -⟩ := h
  rw [Value.height] at hlevel
  exact ⟨level - 1, fields, by omega, rfl, htype⟩

end IsTree

/-! ### Children -/

section

variable {fields : List (String × Value)} {key : String} {items : List Value} {test : Value → Bool}

theorem child?_eq (h : fields.lookup key = some v) (hv : isObject v = true) :
    child? fields key = some v := by
  rw [child?, h, Option.filter_some, if_pos hv]

theorem optionalChild?_eq (h : fields.lookup key = some v) (hv : isObject v = true) :
    optionalChild? fields key = some (some v) := by
  cases v with
  | object => rw [optionalChild?, h]; rfl
  | _ => cases hv

theorem children?_eq (h : fields.lookup key = some (.list items))
    (hitems : ∀ item ∈ items, test item = true) : children? test fields key = some items := by
  have hall : items.all test = true := List.all_eq_true.2 hitems
  simp only [children?, h, hall, if_true]

theorem childrenOrNone?_eq (h : fields.lookup key = some (.list items))
    (hitems : ∀ item ∈ items, test item = true) : childrenOrNone? test fields key = some items := by
  rw [childrenOrNone?, h]
  exact children?_eq h hitems

end

/-! ### Expressions -/

theorem IsIdentifier.identifier_eq (h : IsIdentifier v name) (hname : name ≠ "") :
    identifier v = .ok name := by
  refine h.expect_eq fun fields htype hchildren => ?_
  rw [List.forall_mem_singleton] at hchildren
  have htext : text? fields "name" = some name := by
    rw [text?, hchildren]
  rw [identifierShape, htype, htext, Option.filter_some, if_pos (bne_iff_ne.2 hname)]
  rfl

theorem ExpressionType.ofName?_name (type : ExpressionType) : ofName? type.name = some type := by
  cases type <;> decide

theorem expressionType?_eq {fields : List (String × Value)} (type : ExpressionType)
    (h : fields.lookup "type" = some (.str type.name)) : expressionType? fields = some type := by
  rw [expressionType?, h]
  exact type.ofName?_name

theorem literal_eq {value : Literal} (h : IsTree v "Literal" [("value", value.toValue)])
    (hraw : SpelledAsText v) : expect literalShape v = .ok value := by
  obtain ⟨fields, rfl, htype, hchildren⟩ := h
  rw [List.forall_mem_singleton] at hchildren
  refine expect_eq_ok_iff.2 ⟨fields, rfl, ?_⟩
  have hvalue : Literal.ofValue value.toValue = .ok value := by
    cases value <;> rfl
  rw [literalShape, hasType_eq htype, hraw fields rfl, hchildren, Option.getD_some, hvalue]
  rfl

/-- The tree is decoded to the argument, at every level that is high enough. -/
def DecodesAs (tree : Value) (node : Node) : Prop :=
  ∀ level, tree.height ≤ level → argumentWithin level tree = .ok node

theorem decodesAs_var (h : IsIdentifier v name) (hname : name ≠ "") : DecodesAs v (.var name) := by
  intro level hlevel
  obtain ⟨inner, fields, rfl, rfl, htype⟩ := h.exists_level hlevel
  rw [argumentWithin, expressionType?_eq .identifier htype]
  exact bind_eq_ok_iff.2 ⟨name, h.identifier_eq hname, rfl⟩

theorem decodesAs_const {value : Literal} (h : IsTree v "Literal" [("value", value.toValue)])
    (hraw : SpelledAsText v) : DecodesAs v (.const value) := by
  intro level hlevel
  obtain ⟨inner, fields, rfl, rfl, htype⟩ := h.exists_level hlevel
  rw [argumentWithin, expressionType?_eq .literal htype]
  exact bind_eq_ok_iff.2 ⟨value, literal_eq h hraw, rfl⟩

theorem decodesAs_raw {text : String} (h : IsKept v text) : DecodesAs v (.raw text) := by
  intro level hlevel
  obtain ⟨⟨type, htype, htree⟩, htext⟩ := h
  obtain ⟨inner, fields, rfl, rfl, hname⟩ := htree.exists_level hlevel
  rw [argumentWithin, expressionType?_eq type hname]
  have hkept : (do return Node.raw (← expressionText (.object fields))) = Except.ok (.raw text) :=
    bind_eq_ok_iff.2 ⟨text, htext, rfl⟩
  simp only [List.mem_cons, List.not_mem_nil, or_false] at htype
  rcases htype with rfl | rfl | rfl | rfl <;> exact hkept

/-- Trees that are decoded one by one are decoded as the elements of an array. -/
theorem mapM_element {elements : List Node} {items : List Value} {level : Nat}
    (h : List.Forall₂ DecodesAs items elements) (hobjects : ∀ item ∈ items, isObject item = true)
    (hlevel : Value.heightOfItems items ≤ level) :
    (items.mapM fun
      | .null => Except.error Error.sparseArray
      | item => argumentWithin level item) = .ok elements := by
  rw [mapM_eq_ok_iff]
  induction h with
  | nil => exact .nil
  | @cons item element items elements hitem _ ih =>
    rw [Value.heightOfItems, Nat.max_le] at hlevel
    rw [List.forall_mem_cons] at hobjects
    refine .cons ?_ (ih hobjects.2 hlevel.2)
    split
    · cases hobjects.1
    · exact hitem level hlevel.1

theorem decodesAs_array {elements : List Node} {items : List Value}
    (h : IsTree v "ArrayExpression" [("elements", .list items)])
    (hitems : List.Forall₂ DecodesAs items elements)
    (hobjects : ∀ item ∈ items, isObject item = true) : DecodesAs v (.array elements) := by
  intro level hlevel
  have hshape : expect arrayShape v = .ok items := by
    refine h.expect_eq fun fields htype hchildren => ?_
    have hall : ∀ item ∈ items, isObjectOrNull item = true := by
      intro item hitem
      cases item with
      | object => rfl
      | _ => cases hobjects _ hitem
    rw [List.forall_mem_singleton] at hchildren
    rw [arrayShape, htype, childrenOrNone?_eq hchildren hall]
    rfl
  have hheight := h.height_lt
  rw [List.forall_mem_singleton, Value.height] at hheight
  obtain ⟨inner, fields, rfl, rfl, htype⟩ := h.exists_level hlevel
  rw [argumentWithin, expressionType?_eq .array htype]
  exact bind_eq_ok_iff.2 ⟨items, hshape, bind_eq_ok_iff.2 ⟨elements,
    mapM_element hitems hobjects (by omega), rfl⟩⟩

end

theorem EncodesArguments.isObject_eq {args : List Node} {trees : List Value}
    (h : EncodesArguments args trees) : ∀ tree ∈ trees, isObject tree = true := by
  induction h with
  | nil => simp
  | var htree _ ih => exact List.forall_mem_cons.2 ⟨htree.isObject_eq, ih⟩
  | const htree _ _ ih => exact List.forall_mem_cons.2 ⟨htree.isObject_eq, ih⟩
  | array htree _ _ _ ih => exact List.forall_mem_cons.2 ⟨htree.isObject_eq, ih⟩
  | raw htree _ ih =>
    obtain ⟨⟨_, _, htree⟩, _⟩ := htree
    exact List.forall_mem_cons.2 ⟨htree.isObject_eq, ih⟩

theorem EncodesArguments.decodesAs {args : List Node} {trees : List Value}
    (h : EncodesArguments args trees) (hargs : Arguments args) :
    List.Forall₂ DecodesAs trees args := by
  induction h with
  | nil => exact .nil
  | var htree _ ih =>
    cases hargs with
    | var hname hrest => exact .cons (decodesAs_var htree hname) (ih hrest)
  | const htree hraw _ ih =>
    cases hargs with
    | const _ hrest => exact .cons (decodesAs_const htree hraw) (ih hrest)
  | array htree helements _ ihElements ih =>
    cases hargs with
    | array hargs hrest =>
      exact .cons (decodesAs_array htree (ihElements hargs) helements.isObject_eq) (ih hrest)
  | raw htree _ ih =>
    cases hargs with
    | raw _ hrest => exact .cons (decodesAs_raw htree) (ih hrest)

section

variable {v : Value}

theorem call_eq_of_encodesCall {callee : String} {args : List Node} (h : EncodesCall callee args v)
    (hcallee : callee ≠ "") (hargs : Arguments args) : call v = .ok (callee, args) := by
  obtain ⟨function, items, htree, hfunction, hitems⟩ := h
  have hshape : expect callShape v = .ok (function, items) := by
    refine htree.expect_eq fun fields htype hchildren => ?_
    rw [List.forall_mem_cons, List.forall_mem_singleton] at hchildren
    rw [callShape, htype, child?_eq hchildren.1 hfunction.isObject_eq,
      childrenOrNone?_eq hchildren.2 hitems.isObject_eq]
    rfl
  have hname : Estree.callee function = .ok callee := by
    refine bind_eq_ok_iff.2 ⟨_, hfunction.typeOf_eq, ?_⟩
    rw [if_pos rfl]
    exact hfunction.identifier_eq hcallee
  have hdecoded : items.mapM argument = .ok args := by
    refine mapM_eq_ok_iff.2 ((hitems.decodesAs hargs).imp fun item arg harg => ?_)
    exact harg item.height (Nat.le_refl _)
  refine bind_eq_ok_iff.2 ⟨(function, items), hshape, bind_eq_ok_iff.2 ⟨callee, hname,
    bind_eq_ok_iff.2 ⟨args, hdecoded, ?_⟩⟩⟩
  dsimp only
  rw [if_neg hcallee]
  rfl

theorem EncodesInitializer.isObject_eq {init : Node} (h : EncodesInitializer init v) :
    isObject v = true := by
  cases h with
  | call htree =>
    obtain ⟨_, _, htree, -⟩ := htree
    exact htree.isObject_eq
  | argument htree => exact htree.isObject_eq v (List.mem_singleton_self v)

theorem initializer_eq_of_encodes {init : Node} (h : EncodesInitializer init v)
    (hinit : Initializer init) : initializer v = .ok init := by
  cases h with
  | @call callee args _ htree =>
    cases hinit with
    | call hcallee hargs =>
      have hcall := call_eq_of_encodesCall htree hcallee hargs
      obtain ⟨_, _, htree, -⟩ := htree
      exact bind_eq_ok_iff.2 ⟨_, htree.typeOf_eq, bind_eq_ok_iff.2 ⟨(callee, args), hcall, rfl⟩⟩
  | argument harg =>
    cases hinit with
    | call => cases harg
    | @var name hname =>
      cases harg with
      | var htree _ =>
        exact bind_eq_ok_iff.2 ⟨_, htree.typeOf_eq,
          bind_eq_ok_iff.2 ⟨name, htree.identifier_eq hname, rfl⟩⟩
    | const value =>
      cases harg with
      | const htree hraw _ =>
        exact bind_eq_ok_iff.2 ⟨_, htree.typeOf_eq,
          bind_eq_ok_iff.2 ⟨value, literal_eq htree hraw, rfl⟩⟩
    | array helements =>
      have hdecodes := harg.decodesAs (.array helements .nil)
      cases harg with
      | array htree _ _ =>
        cases hdecodes with
        | cons hdecodes _ =>
          exact bind_eq_ok_iff.2 ⟨_, htree.typeOf_eq, hdecodes v.height (Nat.le_refl _)⟩

/-! ### Statements -/

theorem declaration_eq_of_encodes {name : String} {init : Node} {declarator id value : Value}
    (h : IsTree v "VariableDeclaration" [("declarations", .list [declarator])])
    (hdeclarator : IsTree declarator "VariableDeclarator" [("id", id), ("init", value)])
    (hid : IsIdentifier id name) (hvalue : EncodesInitializer init value) (hname : name ≠ "")
    (hinit : Initializer init) : declaration v = .ok (.assign name init) := by
  have hshape : expect declarationShape v = .ok [declarator] := by
    refine h.expect_eq fun fields htype hchildren => ?_
    rw [List.forall_mem_singleton] at hchildren
    rw [declarationShape, if_pos htype,
      children?_eq hchildren (List.forall_mem_singleton.2 hdeclarator.isObject_eq)]
    rfl
  have hparts : expect declaratorShape declarator = .ok (id, some value) := by
    refine hdeclarator.expect_eq fun fields htype hchildren => ?_
    rw [List.forall_mem_cons, List.forall_mem_singleton] at hchildren
    rw [declaratorShape, htype, child?_eq hchildren.1 hid.isObject_eq,
      optionalChild?_eq hchildren.2 hvalue.isObject_eq]
    rfl
  refine bind_eq_ok_iff.2 ⟨_, hshape, bind_eq_ok_iff.2 ⟨_, hparts,
    bind_eq_ok_iff.2 ⟨_, hid.typeOf_eq, ?_⟩⟩⟩
  dsimp only
  rw [if_neg (by simp)]
  exact bind_eq_ok_iff.2 ⟨name, hid.identifier_eq hname,
    bind_eq_ok_iff.2 ⟨init, initializer_eq_of_encodes hvalue hinit, rfl⟩⟩

theorem expect_expression {expression : Value}
    (h : IsTree v "ExpressionStatement" [("expression", expression)])
    (hexpression : isObject expression = true) : expect expressionShape v = .ok expression := by
  refine h.expect_eq fun fields htype hchildren => ?_
  rw [List.forall_mem_singleton] at hchildren
  rw [expressionShape, htype, child?_eq hchildren hexpression]
  rfl

theorem query_eq_of_encodes {name : String} {expression : Value}
    (h : IsTree v "ExpressionStatement" [("expression", expression)])
    (hexpression : IsIdentifier expression name) (hname : name ≠ "") :
    expressionStatement v = .ok (.query name) :=
  bind_eq_ok_iff.2 ⟨_, expect_expression h hexpression.isObject_eq,
    bind_eq_ok_iff.2 ⟨_, hexpression.typeOf_eq,
      bind_eq_ok_iff.2 ⟨name, hexpression.identifier_eq hname, rfl⟩⟩⟩

theorem evidence_eq_of_encodes {kind : EvidenceKind} {name : String} {expression : Value}
    (h : IsTree v "ExpressionStatement" [("expression", expression)])
    (hexpression : EncodesCall kind.name [.var name] expression) (hname : name ≠ "") :
    expressionStatement v = .ok (.evidence kind name) := by
  have hkind : kind.name ≠ "" := by
    cases kind <;> decide
  have hcall := call_eq_of_encodesCall hexpression hkind (.var hname .nil)
  obtain ⟨_, _, htree, -⟩ := hexpression
  refine bind_eq_ok_iff.2 ⟨_, expect_expression h htree.isObject_eq,
    bind_eq_ok_iff.2 ⟨_, htree.typeOf_eq, bind_eq_ok_iff.2 ⟨_, hcall, ?_⟩⟩⟩
  dsimp only
  rw [EvidenceKind.ofName?_name]
  rfl

/-- The tree is decoded to the statement, at every level that is high enough. -/
def DecodesTo (tree : Value) (node : Node) : Prop :=
  ∀ level, tree.height ≤ level → statementWithin level tree = .ok (some node)

theorem decodesTo_of_declaration {node : Node} {children : List (String × Value)}
    (h : IsTree v "VariableDeclaration" children) (hnode : declaration v = .ok node) :
    DecodesTo v node := by
  intro level hlevel
  have htype := h.typeOf_eq
  obtain ⟨inner, fields, rfl, rfl, -⟩ := h.exists_level hlevel
  exact bind_eq_ok_iff.2 ⟨_, htype, bind_eq_ok_iff.2 ⟨node, hnode, rfl⟩⟩

theorem decodesTo_of_expressionStatement {node : Node} {children : List (String × Value)}
    (h : IsTree v "ExpressionStatement" children) (hnode : expressionStatement v = .ok node) :
    DecodesTo v node := by
  intro level hlevel
  have htype := h.typeOf_eq
  obtain ⟨inner, fields, rfl, rfl, -⟩ := h.exists_level hlevel
  exact bind_eq_ok_iff.2 ⟨_, htype, bind_eq_ok_iff.2 ⟨node, hnode, rfl⟩⟩

theorem mapM_statement {body : List Node} {items : List Value} {level : Nat}
    (h : List.Forall₂ DecodesTo items body) (hlevel : Value.heightOfItems items ≤ level) :
    items.mapM (statementWithin level) = .ok (body.map some) := by
  rw [mapM_eq_ok_iff]
  induction h with
  | nil => exact .nil
  | @cons item node items body hitem _ ih =>
    rw [Value.heightOfItems, Nat.max_le] at hlevel
    exact .cons (hitem level hlevel.1) (ih hlevel.2)

/-- When no statement is empty, none is dropped. -/
theorem filterMap_id_map_some (body : List Node) : (body.map some).filterMap id = body := by
  rw [List.filterMap_map]
  exact List.filterMap_some

theorem expect_body {type : String} {items : List Value} (h : IsTree v type [("body", .list items)])
    (hitems : ∀ item ∈ items, isObject item = true) : expect (bodyShape type) v = .ok items := by
  refine h.expect_eq fun fields htype hchildren => ?_
  rw [List.forall_mem_singleton] at hchildren
  rw [bodyShape, if_pos htype]
  exact childrenOrNone?_eq hchildren hitems

theorem branchItems_eq {items : List Value} (h : IsTree v "BlockStatement" [("body", .list items)])
    (hitems : ∀ item ∈ items, isObject item = true) : branchItems v = .ok items := by
  refine bind_eq_ok_iff.2 ⟨_, h.typeOf_eq, ?_⟩
  rw [if_pos rfl]
  exact expect_body h hitems

end

theorem EncodesBody.isObject_eq {body : List Node} {trees : List Value}
    (h : EncodesBody body trees) : ∀ tree ∈ trees, isObject tree = true := by
  induction h with
  | nil => simp
  | assign htree _ _ _ _ ih => exact List.forall_mem_cons.2 ⟨htree.isObject_eq, ih⟩
  | evidence htree _ _ ih => exact List.forall_mem_cons.2 ⟨htree.isObject_eq, ih⟩
  | choice htree _ _ _ _ _ _ _ _ ih => exact List.forall_mem_cons.2 ⟨htree.isObject_eq, ih⟩
  | query htree _ _ ih => exact List.forall_mem_cons.2 ⟨htree.isObject_eq, ih⟩

theorem decodesTo_choice {test merge : String} {thenBody elseBody : List Node}
    {thenValue elseValue : Node} {v testTree consequent alternate : Value}
    {thenItems elseItems : List Value}
    (h : IsTree v "IfStatement"
      [("test", testTree), ("consequent", consequent), ("alternate", alternate)])
    (htestTree : IsIdentifier testTree test) (htest : test ≠ "")
    (hconsequent : IsTree consequent "BlockStatement" [("body", .list thenItems)])
    (halternate : IsTree alternate "BlockStatement" [("body", .list elseItems)])
    (hthenObjects : ∀ item ∈ thenItems, isObject item = true)
    (helseObjects : ∀ item ∈ elseItems, isObject item = true)
    (hthen : List.Forall₂ DecodesTo thenItems (thenBody ++ [.assign merge thenValue]))
    (helse : List.Forall₂ DecodesTo elseItems (elseBody ++ [.assign merge elseValue])) :
    DecodesTo v (.choice (.var test) merge thenBody thenValue elseBody elseValue) := by
  intro level hlevel
  have hshape : expect conditionalShape v = .ok (testTree, consequent, some alternate) := by
    refine h.expect_eq fun fields htype hchildren => ?_
    rw [List.forall_mem_cons, List.forall_mem_cons, List.forall_mem_singleton] at hchildren
    rw [conditionalShape, htype, child?_eq hchildren.1 htestTree.isObject_eq,
      child?_eq hchildren.2.1 hconsequent.isObject_eq,
      optionalChild?_eq hchildren.2.2 halternate.isObject_eq]
    rfl
  have htype := h.typeOf_eq
  -- both branches are two levels below the conditional
  have hheight := h.height_lt
  have hthenHeight := hconsequent.height_lt
  have helseHeight := halternate.height_lt
  simp only [List.forall_mem_cons] at hheight
  rw [List.forall_mem_singleton, Value.height] at hthenHeight helseHeight
  obtain ⟨inner, fields, rfl, rfl, -⟩ := h.exists_level hlevel
  refine bind_eq_ok_iff.2 ⟨_, htype, bind_eq_ok_iff.2 ⟨_, hshape,
    bind_eq_ok_iff.2 ⟨_, htestTree.typeOf_eq, ?_⟩⟩⟩
  dsimp only
  rw [if_neg (by simp)]
  refine bind_eq_ok_iff.2 ⟨test, htestTree.identifier_eq htest,
    bind_eq_ok_iff.2 ⟨_, branchItems_eq hconsequent hthenObjects,
      bind_eq_ok_iff.2 ⟨_, mapM_statement hthen (by omega),
        bind_eq_ok_iff.2 ⟨_, branchItems_eq halternate helseObjects,
          bind_eq_ok_iff.2 ⟨_, mapM_statement helse (by omega), ?_⟩⟩⟩⟩⟩
  rw [filterMap_id_map_some, filterMap_id_map_some, Node.conditional_append]
  rfl

theorem EncodesBody.decodesTo {body : List Node} {trees : List Value} (h : EncodesBody body trees)
    (hbody : Body body) : List.Forall₂ DecodesTo trees body := by
  induction h with
  | nil => exact .nil
  | assign htree hdeclarator hid hvalue _ ih =>
    cases hbody with
    | assign hname hinit hrest =>
      have hnode := declaration_eq_of_encodes htree hdeclarator hid hvalue hname hinit
      exact .cons (decodesTo_of_declaration htree hnode) (ih hrest)
  | evidence htree hexpression _ ih =>
    cases hbody with
    | evidence _ hname hrest =>
      have hnode := evidence_eq_of_encodes htree hexpression hname
      exact .cons (decodesTo_of_expressionStatement htree hnode) (ih hrest)
  | choice htree htestTree hconsequent halternate hthenItems helseItems _ ihThen ihElse ih =>
    cases hbody with
    | choice htest hmerge hthen hthenValue helse helseValue hrest =>
      have hthenNodes := ihThen (Node.body_append_assign_iff.2 ⟨hthen, hmerge, hthenValue⟩)
      have helseNodes := ihElse (Node.body_append_assign_iff.2 ⟨helse, hmerge, helseValue⟩)
      exact .cons (decodesTo_choice htree htestTree htest hconsequent halternate
        hthenItems.isObject_eq helseItems.isObject_eq hthenNodes helseNodes) (ih hrest)
  | query htree hexpression _ ih =>
    cases hbody with
    | query hname hrest =>
      have hnode := query_eq_of_encodes htree hexpression hname
      exact .cons (decodesTo_of_expressionStatement htree hnode) (ih hrest)

theorem program_eq_of_encodes {body : List Node} {tree : Value} (h : Encodes body tree)
    (hbody : Body body) : program tree = .ok body := by
  obtain ⟨items, htree, hitems⟩ := h
  have hdecoded : items.mapM statement = .ok (body.map some) := by
    rw [mapM_eq_ok_iff, List.forall₂_map_right_iff]
    exact (hitems.decodesTo hbody).imp fun item node hnode => hnode item.height (Nat.le_refl _)
  refine bind_eq_ok_iff.2 ⟨items, expect_body htree hitems.isObject_eq,
    bind_eq_ok_iff.2 ⟨_, hdecoded, ?_⟩⟩
  rw [filterMap_id_map_some]
  rfl

/-! ### There is a tree -/

theorem isTree_tree {type : String} {children : List (String × Value)}
    (h : ("type" :: children.map Prod.fst).Nodup) : IsTree (tree type children) type children := by
  refine ⟨_, rfl, List.lookup_cons_self, fun child hchild => List.lookup_eq_some_iff.2 ?_⟩
  obtain ⟨before, after, hsplit⟩ := List.append_of_mem (List.mem_cons_of_mem ("type", .str type) hchild)
  refine ⟨before, after, hsplit, fun entry hentry => ?_⟩
  have hkeys : ((before ++ child :: after).map Prod.fst).Nodup := by
    rw [← hsplit]
    exact h
  rw [List.map_append, List.map_cons, List.nodup_append] at hkeys
  have hne := hkeys.2.2 entry.1 (List.mem_map_of_mem hentry) child.1 List.mem_cons_self
  exact bne_iff_ne.2 hne.symm

section

variable {args body : List Node} {init : Node}

theorem exists_isIdentifier (name : String) : ∃ v, IsIdentifier v name :=
  ⟨_, isTree_tree (by simp)⟩

/-- For each of the texts there is an expression that is kept as it. -/
def AllKept (texts : List String) : Prop := ∀ text ∈ texts, ∃ v, IsKept v text

theorem exists_encodesArguments (h : Arguments args) (hkept : AllKept (rawTextsOfAll args)) :
    ∃ trees, EncodesArguments args trees := by
  induction h with
  | nil => exact ⟨[], .nil⟩
  | @var name _ _ _ ih =>
    obtain ⟨trees, htrees⟩ := ih hkept
    obtain ⟨v, hv⟩ := exists_isIdentifier name
    exact ⟨v :: trees, .var hv htrees⟩
  | const value _ ih =>
    obtain ⟨trees, htrees⟩ := ih hkept
    refine ⟨_ :: trees, .const (isTree_tree (by simp)) ?_ htrees⟩
    rintro _ ⟨rfl⟩
    rfl
  | array _ _ ihElements ih =>
    obtain ⟨helements, hrest⟩ := List.forall_mem_append.1 hkept
    obtain ⟨items, hitems⟩ := ihElements helements
    obtain ⟨trees, htrees⟩ := ih hrest
    exact ⟨_ :: trees, .array (isTree_tree (by simp)) hitems htrees⟩
  | raw text _ ih =>
    obtain ⟨htext, hrest⟩ := List.forall_mem_append.1 hkept
    obtain ⟨trees, htrees⟩ := ih hrest
    obtain ⟨v, hv⟩ := htext text (List.mem_singleton_self text)
    exact ⟨v :: trees, .raw hv htrees⟩

theorem exists_encodesCall (callee : String) (h : Arguments args)
    (hkept : AllKept (rawTextsOfAll args)) : ∃ v, EncodesCall callee args v := by
  obtain ⟨function, hfunction⟩ := exists_isIdentifier callee
  obtain ⟨items, hitems⟩ := exists_encodesArguments h hkept
  exact ⟨_, function, items, isTree_tree (by simp), hfunction, hitems⟩

theorem exists_encodesInitializer (h : Initializer init) (hkept : AllKept init.rawTexts) :
    ∃ v, EncodesInitializer init v := by
  have hargument (hinit : Arguments [init]) : ∃ v, EncodesInitializer init v := by
    obtain ⟨trees, htrees⟩ := exists_encodesArguments hinit
      (by rw [rawTextsOfAll, rawTextsOfAll, List.append_nil]; exact hkept)
    cases htrees.decodesAs hinit with
    | cons _ hrest =>
      cases hrest
      exact ⟨_, .argument htrees⟩
  cases h with
  | call _ hargs =>
    obtain ⟨v, hv⟩ := exists_encodesCall _ hargs hkept
    exact ⟨v, .call hv⟩
  | var hname => exact hargument (.var hname .nil)
  | const value => exact hargument (.const value .nil)
  | array helements => exact hargument (.array helements .nil)

theorem EncodesBody.append {first second : List Node} {firstTrees secondTrees : List Value}
    (h : EncodesBody first firstTrees) (hsecond : EncodesBody second secondTrees) :
    EncodesBody (first ++ second) (firstTrees ++ secondTrees) := by
  induction h with
  | nil => exact hsecond
  | assign htree hdeclarator hid hinit _ ih => exact .assign htree hdeclarator hid hinit ih
  | evidence htree hexpression _ ih => exact .evidence htree hexpression ih
  | choice htree htest hconsequent halternate hthen helse _ _ _ ih =>
    exact .choice htree htest hconsequent halternate hthen helse ih
  | query htree hexpression _ ih => exact .query htree hexpression ih

theorem exists_encodesBody_assign (name : String) {rest : List Node} {trees : List Value}
    (hinit : Initializer init) (hkept : AllKept init.rawTexts) (hrest : EncodesBody rest trees) :
    ∃ v, EncodesBody (.assign name init :: rest) (v :: trees) := by
  obtain ⟨id, hid⟩ := exists_isIdentifier name
  obtain ⟨value, hvalue⟩ := exists_encodesInitializer hinit hkept
  exact ⟨_, .assign (isTree_tree (by simp)) (isTree_tree (by simp)) hid hvalue hrest⟩

theorem exists_encodesBody (h : Body body) (hkept : AllKept (rawTextsOfAll body)) :
    ∃ trees, EncodesBody body trees := by
  induction h with
  | nil => exact ⟨[], .nil⟩
  | assign _ hinit _ ih =>
    obtain ⟨hvalue, hrest⟩ := List.forall_mem_append.1 hkept
    obtain ⟨trees, htrees⟩ := ih hrest
    obtain ⟨v, hv⟩ := exists_encodesBody_assign _ hinit hvalue htrees
    exact ⟨v :: trees, hv⟩
  | evidence kind hname _ ih =>
    obtain ⟨trees, htrees⟩ := ih hkept
    obtain ⟨expression, hexpression⟩ :=
      exists_encodesCall kind.name (.var hname .nil) (by simp [AllKept, rawTextsOfAll, Node.rawTexts])
    exact ⟨_ :: trees, .evidence (isTree_tree (by simp)) hexpression htrees⟩
  | @choice test merge _ _ _ _ _ _ _ _ hthenValue _ helseValue _ ihThen ihElse ih =>
    obtain ⟨hbranches, hrest⟩ := List.forall_mem_append.1 hkept
    obtain ⟨hthen, helse⟩ := List.forall_mem_append.1 hbranches
    obtain ⟨hthenBody, hthenEnd⟩ := List.forall_mem_append.1 hthen
    obtain ⟨helseBody, helseEnd⟩ := List.forall_mem_append.1 helse
    obtain ⟨trees, htrees⟩ := ih hrest
    obtain ⟨testTree, htestTree⟩ := exists_isIdentifier test
    obtain ⟨thenTrees, hthenTrees⟩ := ihThen hthenBody
    obtain ⟨thenLast, hthenLast⟩ := exists_encodesBody_assign merge hthenValue hthenEnd .nil
    obtain ⟨elseTrees, helseTrees⟩ := ihElse helseBody
    obtain ⟨elseLast, helseLast⟩ := exists_encodesBody_assign merge helseValue helseEnd .nil
    exact ⟨_ :: trees, .choice (isTree_tree (by simp)) htestTree (isTree_tree (by simp))
      (isTree_tree (by simp)) (hthenTrees.append hthenLast) (helseTrees.append helseLast) htrees⟩
  | @query name _ _ _ ih =>
    obtain ⟨trees, htrees⟩ := ih hkept
    obtain ⟨expression, hexpression⟩ := exists_isIdentifier name
    exact ⟨_ :: trees, .query (isTree_tree (by simp)) hexpression htrees⟩

/-- There is a tree of a well-formed program, if there is one for each text that is kept in it. -/
theorem exists_encodes (h : Body body) (hkept : AllKept (rawTextsOfAll body)) :
    ∃ v, Encodes body v := by
  obtain ⟨items, hitems⟩ := exists_encodesBody h hkept
  exact ⟨_, items, isTree_tree (by simp), hitems⟩

end

/-- **The decoder understands the whole language.**  Every tree of a well-formed program is decoded to
the program, and there is such a tree whenever each text that is kept is the text of some expression. -/
theorem program_of_encodes_and_exists_encodes {body : List Node} (hbody : Body body) :
    (∀ v, Encodes body v → program v = .ok body) ∧
      (AllKept (rawTextsOfAll body) → ∃ v, Encodes body v) :=
  ⟨fun _ h => program_eq_of_encodes h hbody, exists_encodes hbody⟩

/-- Evidence, a conditional inside a branch of another, and a text that is kept inside an array. -/
theorem program_of_encodes_and_exists_encodes_sample :
    let body : List Node := .assign "first" (.call "f" [.array [.raw "a.b", .const .null]]) ::
      .evidence .condition "first" :: Node.sample
    Body body ∧ AllKept (rawTextsOfAll body) ∧ ∃ v, Encodes body v ∧ program v = .ok body := by
  intro body
  have hbody : Body body := by
    have hargs : Arguments [.array [.raw "a.b", .const .null]] := .array (.raw _ (.const _ .nil)) .nil
    exact .assign (by decide) (.call (by decide) hargs) (.evidence _ (by decide) Node.body_sample)
  have hkept : AllKept (rawTextsOfAll body) := by
    have htexts : rawTextsOfAll body = ["a.b"] := rfl
    rw [htexts]
    refine List.forall_mem_singleton.2 ⟨tree "MemberExpression" [("object", tree "Identifier"
      [("name", .str "a")]), ("property", tree "Identifier" [("name", .str "b")])], ?_, rfl⟩
    exact ⟨.member, by simp, ⟨_, rfl, rfl, by simp⟩⟩
  obtain ⟨hdecoded, hexists⟩ := program_of_encodes_and_exists_encodes hbody
  obtain ⟨v, hv⟩ := hexists hkept
  exact ⟨hbody, hkept, v, hv, hdecoded v hv⟩

end Estree

end TraceGraph
