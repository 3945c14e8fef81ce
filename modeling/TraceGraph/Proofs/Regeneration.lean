import TraceGraph.Proofs.Encoding
import TraceGraph.Proofs.Erasure
import TraceGraph.Proofs.Unambiguity
import TraceGraph.Script.Tree

/-!
# The text of an expression determines it

An expression of a syntax tree stands for a `Term`, and is written out as the text of the term
(`Parsed.expressionText_eq`).  So two expressions have the same text exactly if their terms are read alike, and
where all suffixes fit exactly if they are the same (`expressionText_eq_iff`).  They need not be the same where
one does not fit (`shared_of_unfit`): an operator in front of an object has no parentheses around it.
-/

namespace TraceGraph.Estree

open Script (isName)
open Text (listing)

/-! ### Trees of terms -/

/-- The tree is a literal with this value and this spelling, which are null where they are missing. -/
def IsLiteral (v value raw : Value) : Prop :=
  ∃ fields, v = .object fields ∧ fields.lookup "type" = some (.str "Literal") ∧
    (fields.lookup "value").getD .null = value ∧ (fields.lookup "raw").getD .null = raw

/-- The tree is a number, by its spelling or by its value alone. -/
def IsNumberTree (spelling : String) (v : Value) : Prop :=
  ∃ value raw, IsLiteral v value raw ∧ ((∃ n, value = .int n) ∨ ∃ x, value = .float x) ∧
    (raw = .str spelling ∨ raw = .null ∧ value.writtenText = .ok spelling)

/-- The tree is a string, in quotes of either sort or by its value alone. -/
def IsTextTree (value : String) (v : Value) : Prop :=
  ∃ raw, IsLiteral v (.str value) raw ∧
    (raw = .null ∨ ∃ spelling c rest, raw = .str spelling ∧ spelling.toList = c :: rest ∧ c ∈ ['"', '\x27'])

/-- The type of the expressions with this operator between two operands. -/
def operatorType (operator : String) : ExpressionType :=
  if operator ∈ logicalOperators then .logical else .binary

namespace Term

mutual

/-- The trees of a term.  They may have other fields besides. -/
def IsTreeOf : Term → Value → Prop
  | .identifier name, v => IsIdentifier v name
  | .number spelling, v => IsNumberTree spelling v
  | .text value, v => IsTextTree value v
  | .array elements, v => ∃ items,
    IsTree v "ArrayExpression" [("elements", .list items)] ∧ AreTreesOf elements items
  | .call callee args, v => ∃ function items,
    IsTree v "CallExpression" [("callee", function), ("arguments", .list items)] ∧
      callee.IsTreeOf function ∧ AreTreesOf args items
  | .member object property, v => ∃ o p,
    IsTree v "MemberExpression" [("object", o), ("property", p), ("computed", .bool false)] ∧
      object.IsTreeOf o ∧ IsIdentifier p property
  | .index object property, v => ∃ o p,
    IsTree v "MemberExpression" [("object", o), ("property", p), ("computed", .bool true)] ∧
      object.IsTreeOf o ∧ property.IsTreeOf p
  | .unary operator operand, v => ∃ x,
    IsTree v "UnaryExpression" [("operator", .str operator), ("argument", x)] ∧ operand.IsTreeOf x
  | .binary operator left right, v => ∃ l r,
    IsTree v (operatorType operator).name [("operator", .str operator), ("left", l), ("right", r)] ∧
      left.IsTreeOf l ∧ right.IsTreeOf r

/-- The trees of some terms, in order. -/
def AreTreesOf : List Term → List Value → Prop
  | [], items => items = []
  | e :: rest, items => ∃ item others, items = item :: others ∧ e.IsTreeOf item ∧ AreTreesOf rest others

end

/-- The text of a term. -/
def toText (e : Term) : String := String.ofList e.chars

@[simp]
theorem toList_toText (e : Term) : e.toText.toList = e.chars := String.toList_ofList

end Term

section

variable {fields : List (String × Value)} {key : String}

theorem fieldText_of_lookup {x : Value} (h : fields.lookup key = some x) :
    fieldText expressionText fields key = expressionText x := by
  rw [fieldText, Value.require, h]
  rfl

theorem itemTexts_of_lookup {items : List Value} (h : fields.lookup key = some (.list items)) :
    itemTexts expressionText fields key = items.mapM expressionText := by
  rw [itemTexts, itemsOrNone, h]
  cases items <;> rfl

end

/-! ### Texts of trees by the texts of their parts -/

theorem IsLiteral.expressionText_eq {v value raw : Value} (h : IsLiteral v value raw) :
    expressionText v = literalText value raw := by
  obtain ⟨fields, rfl, htype, rfl, rfl⟩ := h
  rw [Estree.expressionText_eq, textStep, expressionType?_eq .literal htype]

section

variable {v function x o p l r : Value} {items : List Value} {texts : List String}
  {name operator text left right object property : String}

theorem expressionText_identifier (htree : IsIdentifier v name) : expressionText v = .ok name := by
  obtain ⟨fields, rfl, htype, hchildren⟩ := htree
  rw [List.forall_mem_singleton] at hchildren
  rw [expressionText_eq, textStep, expressionType?_eq .identifier htype]
  dsimp only
  rw [Value.require, hchildren]
  rfl

theorem expressionText_array (htree : IsTree v "ArrayExpression" [("elements", .list items)])
    (hitems : items.mapM expressionText = .ok texts) :
    expressionText v = .ok ("[" ++ Text.commas texts ++ "]") := by
  obtain ⟨fields, rfl, htype, hchildren⟩ := htree
  rw [List.forall_mem_singleton] at hchildren
  rw [expressionText_eq, textStep, expressionType?_eq .array htype]
  dsimp only
  rw [itemTexts_of_lookup hchildren, hitems]
  rfl

theorem expressionText_call
    (htree : IsTree v "CallExpression" [("callee", function), ("arguments", .list items)])
    (hfunction : expressionText function = .ok text) (hitems : items.mapM expressionText = .ok texts) :
    expressionText v = .ok (text ++ "(" ++ Text.commas texts ++ ")") := by
  obtain ⟨fields, rfl, htype, hchildren⟩ := htree
  simp only [List.forall_mem_cons] at hchildren
  rw [expressionText_eq, textStep, expressionType?_eq .call htype]
  dsimp only
  rw [itemTexts_of_lookup hchildren.2.1, hitems, fieldText_of_lookup hchildren.1, hfunction]
  rfl

/-- A member, by its name or by an index. -/
theorem expressionText_member {computed : Bool}
    (htree : IsTree v "MemberExpression" [("object", o), ("property", p), ("computed", .bool computed)])
    (ho : expressionText o = .ok object) (hp : expressionText p = .ok property) :
    expressionText v =
      .ok (if computed then object ++ "[" ++ property ++ "]" else object ++ "." ++ property) := by
  obtain ⟨fields, rfl, htype, hchildren⟩ := htree
  simp only [List.forall_mem_cons] at hchildren
  rw [expressionText_eq, textStep, expressionType?_eq .member htype]
  dsimp only
  rw [fieldText_of_lookup hchildren.1, ho, fieldText_of_lookup hchildren.2.1, hp, hchildren.2.2.1]
  cases computed <;> rfl

theorem expressionText_unary
    (htree : IsTree v "UnaryExpression" [("operator", .str operator), ("argument", x)])
    (hx : expressionText x = .ok text) : expressionText v = unaryText (.str operator) text := by
  obtain ⟨fields, rfl, htype, hchildren⟩ := htree
  simp only [List.forall_mem_cons] at hchildren
  rw [expressionText_eq, textStep, expressionType?_eq .unary htype]
  dsimp only
  rw [Value.require, hchildren.1, fieldText_of_lookup hchildren.2.1, hx]
  rfl

theorem expressionText_binary {type : ExpressionType} (hoperator : type ∈ [.binary, .logical])
    (htree : IsTree v type.name [("operator", .str operator), ("left", l), ("right", r)])
    (hl : expressionText l = .ok left) (hr : expressionText r = .ok right) :
    expressionText v = .ok ("(" ++ left ++ " " ++ operator ++ " " ++ right ++ ")") := by
  obtain ⟨fields, rfl, htype, hchildren⟩ := htree
  simp only [List.forall_mem_cons] at hchildren
  rw [expressionText_eq, textStep, expressionType?_eq type htype]
  simp only [List.mem_cons, List.not_mem_nil, or_false] at hoperator
  rcases hoperator with rfl | rfl
  all_goals
    dsimp only
    rw [fieldText_of_lookup hchildren.2.1, hl, Value.require, hchildren.1,
      fieldText_of_lookup hchildren.2.2.1, hr]
    rfl

end

namespace Term

theorem expressionText_number {spelling : String} {v : Value} (hnumber : IsNumber spelling.toList)
    (h : IsNumberTree spelling v) : expressionText v = .ok spelling := by
  obtain ⟨value, raw, hliteral, hvalue, hraw⟩ := h
  rw [hliteral.expressionText_eq]
  rcases hraw with rfl | ⟨rfl, htext⟩
  · obtain ⟨c, rest, heq, hc⟩ := hnumber.exists_cons
    have hquote : ¬ (c = '"' ∨ c = '\x27') := by
      rintro (rfl | rfl) <;> exact absurd hc (by decide)
    rw [literalText, heq]
    exact if_neg hquote
  · rcases hvalue with ⟨n, rfl⟩ | ⟨x, rfl⟩ <;> exact htext

theorem expressionText_text {value : String} {v : Value} (h : IsTextTree value v) :
    expressionText v = .ok (Text.singleQuoted value) := by
  obtain ⟨raw, hliteral, hraw⟩ := h
  rw [hliteral.expressionText_eq]
  rcases hraw with rfl | ⟨spelling, c, rest, rfl, heq, hc⟩
  · rfl
  · have hquote : c = '"' ∨ c = '\x27' := by simpa using hc
    rw [literalText, heq]
    exact if_pos hquote

/-- The operators that are words are the ones with a blank after them. -/
theorem unaryText_eq {operator : String} (h : operator ∈ signOperators ++ wordOperators) (text : String) :
    unaryText (.str operator) text = .ok (String.ofList (front operator ++ text.toList)) := by
  rw [unaryText, front]
  by_cases hword : operator ∈ wordOperators
  · have hall : ∀ operator ∈ wordOperators, operator ≠ "" ∧ operator.toList.all Text.isLetter = true := by
      decide
    rw [if_pos (hall operator hword), if_pos hword]
    exact congrArg Except.ok (String.toList_injective (by simp))
  · have hsign : operator ∈ signOperators := (List.mem_append.1 h).resolve_right hword
    have hall : ∀ operator ∈ signOperators, operator.toList.headD ' ' ∈ operator.toList ∧
        operator.toList.headD ' ' ∈ Script.marks := by decide
    obtain ⟨hmem, hmark⟩ := hall operator hsign
    have hletter : ¬ (operator ≠ "" ∧ operator.toList.all Text.isLetter = true) := by
      rintro ⟨-, hletters⟩
      have hstart : Script.isNameStart (operator.toList.headD ' ') = true := by
        rw [Script.isNameStart, List.all_eq_true.1 hletters _ hmem, Bool.true_or, Bool.true_or]
      have hpart := Script.isNamePart_of_isNameStart hstart
      rw [Script.isNamePart_eq_false_of_mem hmark] at hpart
      cases hpart
    rw [if_neg hletter, if_neg hword]
    exact congrArg Except.ok (String.toList_injective (by simp))

theorem mapM_of_areTreesOf {terms : List Term} {items : List Value} (h : AreTreesOf terms items)
    (ih : ∀ e ∈ terms, ∀ v, e.IsTreeOf v → expressionText v = .ok e.toText) :
    items.mapM expressionText = .ok (terms.map toText) := by
  induction terms generalizing items with
  | nil =>
    rw [AreTreesOf] at h
    rw [h]
    rfl
  | cons e rest ihrest =>
    rw [AreTreesOf] at h
    obtain ⟨item, others, rfl, hitem, hothers⟩ := h
    rw [List.forall_mem_cons] at ih
    rw [List.mapM_cons, ih.1 item hitem, ihrest hothers ih.2]
    rfl

theorem toList_commas_map (terms : List Term) :
    (Text.commas (terms.map toText)).toList = listing chars terms := by
  rw [Text.toList_commas, Text.listing_map]
  exact Text.listing_congr fun e _ => toList_toText e

/-- **A tree of a term is written out as the text of the term.** -/
theorem Parsed.expressionText_eq {e : Term} (h : Parsed e) :
    ∀ v, e.IsTreeOf v → expressionText v = .ok e.toText := by
  have hsame : ∀ {s : String} {e : Term}, s.toList = e.chars →
      (.ok s : Except Error String) = .ok e.toText :=
    fun heq => congrArg Except.ok (String.toList_injective (heq.trans (toList_toText _).symm))
  induction h with
  | identifier hname hword =>
    intro v htree
    rw [IsTreeOf] at htree
    rw [expressionText_identifier htree]
    exact hsame rfl
  | number hnumber =>
    intro v htree
    rw [IsTreeOf] at htree
    rw [expressionText_number hnumber htree]
    exact hsame rfl
  | text value =>
    intro v htree
    rw [IsTreeOf] at htree
    rw [expressionText_text htree]
    exact hsame (by simp [Text.singleQuoted, chars])
  | array helements ih =>
    intro v htree
    rw [IsTreeOf] at htree
    obtain ⟨items, htree, hitems⟩ := htree
    rw [expressionText_array htree (mapM_of_areTreesOf hitems ih)]
    exact hsame (by simp [chars, charsOfAll_eq, toList_commas_map])
  | unary hoperator hoperand ih =>
    intro v htree
    rw [IsTreeOf] at htree
    obtain ⟨x, htree, hx⟩ := htree
    rw [expressionText_unary htree (ih x hx), unaryText_eq hoperator]
    exact hsame (by simp [chars])
  | @binary operator left right hoperator hleft hright ihleft ihright =>
    intro v htree
    rw [IsTreeOf] at htree
    obtain ⟨l, r, htree, hl, hr⟩ := htree
    have htype : operatorType operator ∈ [ExpressionType.binary, .logical] := by
      unfold operatorType
      split <;> decide
    rw [expressionText_binary htype htree (ihleft l hl) (ihright r hr)]
    exact hsame (by simp [chars])
  | @attach e suffix he hfits hsuffix hinside ih ihinside =>
    intro v htree
    cases suffix with
    | call args =>
      rw [attach, IsTreeOf] at htree
      obtain ⟨function, items, htree, hfunction, hitems⟩ := htree
      rw [expressionText_call htree (ih function hfunction) (mapM_of_areTreesOf hitems ihinside)]
      exact hsame (by simp [attach, chars, charsOfAll_eq, toList_commas_map])
    | member property =>
      rw [attach, IsTreeOf] at htree
      obtain ⟨o, p, htree, ho, hp⟩ := htree
      rw [expressionText_member htree (ih o ho) (expressionText_identifier hp)]
      exact hsame (by simp [attach, chars])
    | index property =>
      rw [attach, IsTreeOf] at htree
      obtain ⟨o, p, htree, ho, hp⟩ := htree
      rw [expressionText_member htree (ih o ho) (ihinside property (List.mem_singleton.2 rfl) p hp)]
      exact hsame (by simp [attach, chars])

end Term

/-! ### Expressions of scripts -/

namespace Term

mutual

/-- The term of an expression that was read from a script. -/
def ofScript? : Script.Expression → Option Term
  | .identifier name => some (.identifier name)
  | .literal (.int _) raw => some (.number raw)
  | .literal (.float _) raw => some (.number raw)
  | .literal (.str value) raw =>
    if raw.toList.head? ∈ [some '"', some '\x27'] then some (.text value) else none
  | .array elements => (ofScripts? elements).map .array
  | .call callee args => (ofScript? callee).bind fun e => (ofScripts? args).map e.call
  | .member object (.identifier property) false => (ofScript? object).map (.member · property)
  | .member object property true => (ofScript? object).bind fun e => (ofScript? property).map e.index
  | .unary operator argument => (ofScript? argument).map (.unary operator)
  | .binary operator left right =>
    if operator ∈ logicalOperators then none
    else (ofScript? left).bind fun e => (ofScript? right).map (.binary operator e)
  | .logical operator left right =>
    if operator ∈ logicalOperators then
      (ofScript? left).bind fun e => (ofScript? right).map (.binary operator e)
    else none
  | _ => none

/-- The terms of some expressions that were read from a script. -/
def ofScripts? : List Script.Expression → Option (List Term)
  | [] => some []
  | x :: rest => (ofScript? x).bind fun e => (ofScripts? rest).map (e :: ·)

end

/-- A literal tree, as scripts are read to. -/
theorem isLiteral_tree (value : Literal) (raw : String) :
    IsLiteral (Script.Expression.literal value raw).tree value.toValue (.str raw) :=
  ⟨_, rfl, rfl, rfl, rfl⟩

mutual

/-- **The syntax tree of what was read from a script is a tree of its term.** -/
theorem isTreeOf_tree : ∀ (x : Script.Expression) (e : Term), ofScript? x = some e → e.IsTreeOf x.tree
  | .identifier name, e, h => by
    cases h
    exact isTree_tree (by decide : ["type", "name"].Nodup)
  | .literal value raw, e, h => by
    cases value with
    | null => cases h
    | bool b => cases h
    | int n =>
      cases h
      exact ⟨.int n, .str raw, isLiteral_tree (.int n) raw, .inl ⟨n, rfl⟩, .inl rfl⟩
    | float x =>
      cases h
      exact ⟨.float x, .str raw, isLiteral_tree (.float x) raw, .inr ⟨x, rfl⟩, .inl rfl⟩
    | str value =>
      rw [ofScript?] at h
      obtain ⟨hquote, heq⟩ := Option.ite_none_right_eq_some.1 h
      cases heq
      refine ⟨.str raw, isLiteral_tree (.str value) raw, .inr ?_⟩
      cases hraw : raw.toList with
      | nil => simp [hraw] at hquote
      | cons c rest => exact ⟨raw, c, rest, rfl, hraw, by simpa [hraw] using hquote⟩
  | .array elements, e, h => by
    rw [ofScript?] at h
    obtain ⟨terms, hterms, rfl⟩ := Option.map_eq_some_iff.1 h
    exact ⟨_, isTree_tree (by decide : ["type", "elements"].Nodup), areTreesOf_trees elements terms hterms⟩
  | .call callee args, e, h => by
    rw [ofScript?] at h
    obtain ⟨f, hf, hcall⟩ := Option.bind_eq_some_iff.1 h
    obtain ⟨terms, hterms, rfl⟩ := Option.map_eq_some_iff.1 hcall
    exact ⟨_, _, isTree_tree (by decide : ["type", "callee", "arguments"].Nodup), isTreeOf_tree callee f hf,
      areTreesOf_trees args terms hterms⟩
  | .member object property true, e, h => by
    rw [ofScript?] at h
    obtain ⟨o, ho, hindex⟩ := Option.bind_eq_some_iff.1 h
    obtain ⟨p, hp, rfl⟩ := Option.map_eq_some_iff.1 hindex
    exact ⟨_, _, ⟨_, rfl, rfl, by simp [List.lookup_cons]⟩, isTreeOf_tree object o ho, isTreeOf_tree property p hp⟩
  | .member object (.identifier property) false, e, h => by
    rw [ofScript?] at h
    obtain ⟨o, ho, rfl⟩ := Option.map_eq_some_iff.1 h
    exact ⟨_, (Script.Expression.identifier property).tree, ⟨_, rfl, rfl, by simp [List.lookup_cons]⟩,
      isTreeOf_tree object o ho, isTree_tree (by decide : ["type", "name"].Nodup)⟩
  | .unary operator argument, e, h => by
    rw [ofScript?] at h
    obtain ⟨x, hx, rfl⟩ := Option.map_eq_some_iff.1 h
    exact ⟨_, ⟨_, rfl, rfl, by simp [List.lookup_cons]⟩, isTreeOf_tree argument x hx⟩
  | .binary operator left right, e, h => by
    rw [ofScript?] at h
    obtain ⟨hoperator, hbind⟩ := Option.ite_none_left_eq_some.1 h
    obtain ⟨l, hl, hmap⟩ := Option.bind_eq_some_iff.1 hbind
    obtain ⟨r, hr, rfl⟩ := Option.map_eq_some_iff.1 hmap
    refine ⟨_, _, ?_, isTreeOf_tree left l hl, isTreeOf_tree right r hr⟩
    rw [operatorType, if_neg hoperator]
    exact isTree_tree (by decide : ["type", "operator", "left", "right"].Nodup)
  | .logical operator left right, e, h => by
    rw [ofScript?] at h
    obtain ⟨hoperator, hbind⟩ := Option.ite_none_right_eq_some.1 h
    obtain ⟨l, hl, hmap⟩ := Option.bind_eq_some_iff.1 hbind
    obtain ⟨r, hr, rfl⟩ := Option.map_eq_some_iff.1 hmap
    refine ⟨_, _, ?_, isTreeOf_tree left l hl, isTreeOf_tree right r hr⟩
    rw [operatorType, if_pos hoperator]
    exact isTree_tree (by decide : ["type", "operator", "left", "right"].Nodup)

/-- The same for lists. -/
theorem areTreesOf_trees : ∀ (xs : List Script.Expression) (terms : List Term), ofScripts? xs = some terms →
    AreTreesOf terms (Script.Expression.trees xs)
  | [], terms, h => by
    cases h
    rfl
  | x :: rest, terms, h => by
    rw [ofScripts?] at h
    obtain ⟨e, he, hmap⟩ := Option.bind_eq_some_iff.1 h
    obtain ⟨others, hothers, rfl⟩ := Option.map_eq_some_iff.1 hmap
    exact ⟨_, _, rfl, isTreeOf_tree x e he, areTreesOf_trees rest others hothers⟩

end

end Term

/-- **Two expressions have the same text exactly if their terms are read alike**, and where all suffixes fit,
exactly if they are the same. -/
theorem expressionText_eq_iff {e₁ e₂ : Term} {v₁ v₂ : Value} (h₁ : e₁.Parsed) (h₂ : e₂.Parsed)
    (htree₁ : e₁.IsTreeOf v₁) (htree₂ : e₂.IsTreeOf v₂) :
    (∃ text, expressionText v₁ = .ok text) ∧
      (expressionText v₁ = expressionText v₂ ↔ e₁.asRead = e₂.asRead) ∧
      (e₁.Settled → e₂.Settled → (expressionText v₁ = expressionText v₂ ↔ e₁ = e₂)) := by
  have htext₁ := h₁.expressionText_eq v₁ htree₁
  have htext₂ := h₂.expressionText_eq v₂ htree₂
  have hiff : expressionText v₁ = expressionText v₂ ↔ e₁.asRead = e₂.asRead := by
    rw [htext₁, htext₂, Except.ok.injEq, Term.toText, Term.toText, String.ofList_inj, h₁.chars_eq_iff h₂]
  refine ⟨⟨_, htext₁⟩, hiff, fun hsettled₁ hsettled₂ => ?_⟩
  rw [hiff, hsettled₁.asRead_eq, hsettled₂.asRead_eq]

/-- Which operator was applied first is told by the parentheses. -/
theorem expressionText_eq_iff_association :
    Term.Settled (.binary "-" (.binary "-" (.identifier "a") (.identifier "b")) (.identifier "c")) ∧
    Term.Settled (.binary "-" (.identifier "a") (.binary "-" (.identifier "b") (.identifier "c"))) ∧
    expressionText (Script.Expression.binary "-" (.binary "-" (.identifier "a") (.identifier "b"))
        (.identifier "c")).tree ≠
      expressionText (Script.Expression.binary "-" (.identifier "a")
        (.binary "-" (.identifier "b") (.identifier "c"))).tree := by
  have hall : ∀ name ∈ ["a", "b", "c"], isName name = true ∧ name ∉ wordOperators := by decide
  have hname : ∀ name ∈ ["a", "b", "c"], Term.Settled (.identifier name) :=
    fun name hmem => .identifier (hall name hmem).1 (hall name hmem).2
  have hminus : ∀ {x y : Term}, x.Settled → y.Settled → Term.Settled (.binary "-" x y) :=
    fun hx hy => .binary (by decide) hx hy
  have ha := hname "a" (by decide)
  have hb := hname "b" (by decide)
  have hc := hname "c" (by decide)
  have hleft := hminus (hminus ha hb) hc
  have hright := hminus ha (hminus hb hc)
  refine ⟨hleft, hright, fun htext => ?_⟩
  have htree₁ := Term.isTreeOf_tree
    (.binary "-" (.binary "-" (.identifier "a") (.identifier "b")) (.identifier "c")) _ rfl
  have htree₂ := Term.isTreeOf_tree
    (.binary "-" (.identifier "a") (.binary "-" (.identifier "b") (.identifier "c"))) _ rfl
  have hiff := (expressionText_eq_iff hleft.parsed hright.parsed htree₁ htree₂).2.2 hleft hright
  cases hiff.1 htext

/-- Two different terms with trees that have this text. -/
def Shared (text : String) (e₁ e₂ : Term) (v₁ v₂ : Value) : Prop :=
  e₁ ≠ e₂ ∧ (e₁.Parsed ∧ e₁.IsTreeOf v₁ ∧ expressionText v₁ = .ok text) ∧
    e₂.Parsed ∧ e₂.IsTreeOf v₂ ∧ expressionText v₂ = .ok text

/-- A unary operator takes the member of its operand along, and a whole number takes a member for its
exponent. -/
theorem shared_of_unfit :
    Shared "-x.y" (.member (.unary "-" (.identifier "x")) "y") (.unary "-" (.member (.identifier "x") "y"))
      (Script.Expression.member (.unary "-" (.identifier "x")) (.identifier "y") false).tree
      (Script.Expression.unary "-" (.member (.identifier "x") (.identifier "y") false)).tree ∧
    Shared "1.e5" (.member (.number "1") "e5") (.number "1.e5")
      (Script.Expression.member (.literal (.int 1) "1") (.identifier "e5") false).tree
      (Script.Expression.literal (.int 100000) "1.e5").tree := by
  have hx : Term.Parsed (.identifier "x") := .identifier (by decide) (by decide)
  have hone : Term.Parsed (.number "1") :=
    .number (show IsNumber (['1'] ++ []) from .whole (by decide) (by decide) (.inl rfl))
  have hlarge : Term.Parsed (.number "1.e5") :=
    .number (show IsNumber (['1'] ++ '.' :: ([] ++ ['e', '5'])) from
      .fraction (by decide) (by decide) (.inl (by decide)) (.inr (.unsigned (by decide))))
  have hall : ∀ property ∈ ["y", "e5"], isName property = true := by decide +kernel
  have hmember : ∀ property ∈ ["y", "e5"], ∀ {e : Term}, e.Parsed → Term.Parsed (.member e property) := by
    intro property hmem e he
    have hproper : Suffix.Proper (.member property) := hall property hmem
    exact .attach he trivial hproper (fun _ hinside => by cases hinside)
  have hminus : ∀ {e : Term}, e.Parsed → Term.Parsed (.unary "-" e) := fun he => .unary (by decide) he
  have hwritten : ∀ {e : Term} {x : Script.Expression}, e.Parsed → Term.ofScript? x = some e →
      e.Parsed ∧ e.IsTreeOf x.tree ∧ expressionText x.tree = .ok e.toText :=
    fun {e x} he hscript => ⟨he, Term.isTreeOf_tree x e hscript,
      he.expressionText_eq _ (Term.isTreeOf_tree x e hscript)⟩
  refine ⟨⟨(fun h => by cases h), ?_, ?_⟩, ⟨(fun h => by cases h), ?_, ?_⟩⟩
  · exact hwritten (hmember "y" (by decide) (hminus hx)) rfl
  · exact hwritten (hminus (hmember "y" (by decide) hx)) rfl
  · exact hwritten (hmember "e5" (by decide) hone) rfl
  · exact hwritten hlarge rfl

end TraceGraph.Estree
