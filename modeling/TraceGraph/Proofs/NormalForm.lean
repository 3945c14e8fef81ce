import TraceGraph.Proofs.Decoding

/-!
# The normal form of a tree

A syntax tree holds more than decoding looks at: positions in the source, comments, empty statements, and
whether a branch is a block.  `normal` takes all of that out of a tree, at every node: fields that no node
needs are dropped and the others put in a fixed order (`tidy`), empty statements are dropped from the bodies
of programs and blocks (`withoutEmpty`), and a branch that is no block becomes one (`asBlock`).

A node passes the same checks as its normal form, with the same error, and the parts that a check gives are
those of the node in normal form (`expect_normal`, with one equation for each shape).

The children of a node are what stands in its fields, or in the lists that stand there.  An object in the
place of the list of elements or of arguments is no child.
-/

namespace TraceGraph.Estree

/-! ### Normal forms -/

/-- The fields in which a node has other nodes, or lists of nodes. -/
def nodeKeys : List String :=
  ["body", "declarations", "id", "init", "expression", "test", "consequent", "alternate", "callee",
   "argument", "object", "property", "left", "right"]

/-- The fields in which a node has lists of nodes and nothing else. -/
def itemKeys : List String := ["elements", "arguments"]

/-- The fields in which a node has the statements of a body or of a branch. -/
def bodyKeys : List String := ["body", "consequent", "alternate"]

/-- The fields in which a node says something of itself. -/
def ownKeys : List String := ["type", "name", "value", "raw", "operator", "computed"]

/-- Does a tree say that it is of this type? -/
def isOfType (type : String) : Value → Bool
  | .object fields =>
    match fields.lookup "type" with
    | some (.str s) => s == type
    | _ => false
  | _ => false

/-- A list of statements without the empty ones. -/
def withoutEmpty : Value → Value
  | .list items => .list (items.filter fun item => !isOfType "EmptyStatement" item)
  | v => v

/-- A branch as a block.  What is no node is no branch. -/
def asBlock (v : Value) : Value :=
  if isObject v ∧ isOfType "BlockStatement" v = false then
    tree "BlockStatement" [("body", withoutEmpty (.list [v]))]
  else v

/-- A field of a node: the body of a program or a block has no empty statements, and the branches of a
conditional are blocks. -/
def tidyField (fields : List (String × Value)) (key : String) (v : Value) : Value :=
  if key = "body" ∧ (hasType fields "Program" ∨ hasType fields "BlockStatement") then withoutEmpty v
  else if key ∈ ["consequent", "alternate"] ∧ hasType fields "IfStatement" then asBlock v
  else v

/-- The fields of a node that matter, in a fixed order. -/
def tidy (fields : List (String × Value)) : List (String × Value) :=
  (ownKeys ++ nodeKeys ++ itemKeys).filterMap fun key =>
    (fields.lookup key).map fun v => (key, tidyField fields key v)

mutual

/-- The tree without what decoding passes over. -/
def normal : Value → Value
  | .object fields => .object (tidy (normalFields fields))
  | v => v

def normalItems : List Value → List Value
  | [] => []
  | item :: rest => normal item :: normalItems rest

def normalFields : List (String × Value) → List (String × Value)
  | [] => []
  | (key, .list items) :: rest =>
    (key, .list (if key ∈ nodeKeys ++ itemKeys then normalItems items else items)) :: normalFields rest
  | (key, v) :: rest => (key, if key ∈ nodeKeys then normal v else v) :: normalFields rest

end

/-- What stands in a field of a node, in normal form. -/
def normalAt (key : String) : Value → Value
  | .list items => .list (if key ∈ nodeKeys ++ itemKeys then items.map normal else items)
  | v => if key ∈ nodeKeys then normal v else v

theorem normalItems_eq_map (items : List Value) : normalItems items = items.map normal := by
  induction items with
  | nil => rfl
  | cons item rest ih => rw [normalItems, ih, List.map_cons]

theorem lookup_normalFields (fields : List (String × Value)) (key : String) :
    (normalFields fields).lookup key = (fields.lookup key).map (normalAt key) := by
  induction fields with
  | nil => rfl
  | cons entry rest ih =>
    obtain ⟨other, v⟩ := entry
    have hcons : normalFields ((other, v) :: rest) = (other, normalAt other v) :: normalFields rest := by
      cases v with
      | list items => rw [normalFields, normalAt, normalItems_eq_map]
      | _ => rfl
    rw [hcons, List.lookup_cons, List.lookup_cons]
    by_cases h : key = other
    · subst h
      simp
    · rw [beq_eq_false_iff_ne.2 h]
      exact ih

/-- A look-up in fields that are given key by key. -/
theorem lookup_filterMap (f : String → Option Value) (keys : List String) (key : String) :
    (keys.filterMap fun k => (f k).map fun v => (k, v)).lookup key =
      if key ∈ keys then f key else none := by
  induction keys with
  | nil => rfl
  | cons first rest ih =>
    cases hfirst : f first with
    | none =>
      rw [List.filterMap_cons_none (by simp [hfirst]), ih]
      by_cases h : key = first
      · subst h
        simp [hfirst]
      · simp [h]
    | some v =>
      rw [List.filterMap_cons_some (b := (first, v)) (by simp [hfirst]), List.lookup_cons, ih]
      by_cases h : key = first
      · subst h
        simp [hfirst]
      · simp [h, beq_eq_false_iff_ne.2 h]

/-- The fields of a node in normal form. -/
def normalNode (fields : List (String × Value)) : List (String × Value) := tidy (normalFields fields)

section

variable {fields : List (String × Value)} {key type : String}

theorem normal_object : normal (.object fields) = .object (normalNode fields) := rfl

theorem lookup_tidy : (tidy fields).lookup key =
    if key ∈ ownKeys ++ nodeKeys ++ itemKeys then (fields.lookup key).map (tidyField fields key)
    else none := by
  rw [← lookup_filterMap fun k => (fields.lookup k).map (tidyField fields k)]
  simp only [tidy, Option.map_map, Function.comp_def]

/-- What a node says of itself is left as it is. -/
theorem normalAt_own (h : key ∈ ownKeys) (v : Value) : normalAt key v = v := by
  have hkeys : ∀ key ∈ ownKeys, key ∉ nodeKeys ++ itemKeys ∧ key ∉ nodeKeys := by decide
  obtain ⟨hlist, hnode⟩ := hkeys key h
  cases v with
  | list items => rw [normalAt, if_neg hlist]
  | _ => exact if_neg hnode

theorem lookup_own (h : key ∈ ownKeys) : (normalNode fields).lookup key = fields.lookup key := by
  have hkeys : ∀ key ∈ ownKeys, key ∈ ownKeys ++ nodeKeys ++ itemKeys ∧ key ≠ "body" ∧
      key ∉ ["consequent", "alternate"] := by decide
  obtain ⟨hmem, hbody, hbranch⟩ := hkeys key h
  have hsame : ∀ v, tidyField (normalFields fields) key (normalAt key v) = v := by
    intro v
    rw [tidyField, if_neg fun h => hbody h.1, if_neg fun h => hbranch h.1, normalAt_own h]
  rw [normalNode, lookup_tidy, if_pos hmem, lookup_normalFields, Option.map_map]
  simp only [Function.comp_def, hsame, Option.map_id']

theorem hasType_congr {fields' : List (String × Value)}
    (h : fields'.lookup "type" = fields.lookup "type") : hasType fields' type = hasType fields type := by
  rw [hasType, hasType, h]

theorem hasType_normalNode : hasType (normalNode fields) type = hasType fields type :=
  hasType_congr (lookup_own (by decide))

theorem hasType_normalFields : hasType (normalFields fields) type = hasType fields type := by
  refine hasType_congr ?_
  rw [lookup_normalFields, funext (normalAt_own (by decide)), Option.map_id']

theorem lookup_child (h : key ∈ nodeKeys ++ itemKeys) : (normalNode fields).lookup key =
    (fields.lookup key).map fun v => tidyField fields key (normalAt key v) := by
  have hmem : key ∈ ownKeys ++ nodeKeys ++ itemKeys := by
    rw [List.append_assoc]
    exact List.mem_append_right _ h
  rw [normalNode, lookup_tidy, if_pos hmem, lookup_normalFields, Option.map_map]
  simp only [Function.comp_def, tidyField, hasType_normalFields]

/-- Only the body and the branches of a node are more than the normal forms of its children. -/
theorem lookup_plain (h : key ∈ nodeKeys ++ itemKeys) (hother : key ∉ bodyKeys) :
    (normalNode fields).lookup key = (fields.lookup key).map (normalAt key) := by
  simp only [bodyKeys, List.mem_cons, not_or] at hother
  rw [lookup_child h]
  congr 1
  funext v
  rw [tidyField, if_neg fun h => hother.1 h.1, if_neg fun h => ?_]
  simp only [List.mem_cons] at h
  tauto

theorem lookup_body (h : hasType fields "Program" ∨ hasType fields "BlockStatement") :
    (normalNode fields).lookup "body" =
      (fields.lookup "body").map fun v => withoutEmpty (normalAt "body" v) := by
  rw [lookup_child (by decide)]
  simp only [tidyField, true_and, if_pos h]

theorem lookup_branch (hkey : key ∈ ["consequent", "alternate"]) (h : hasType fields "IfStatement") :
    (normalNode fields).lookup key = (fields.lookup key).map fun v => asBlock (normalAt key v) := by
  have hkeys : ∀ key ∈ ["consequent", "alternate"], key ∈ nodeKeys ++ itemKeys ∧ key ≠ "body" := by
    decide
  obtain ⟨hmem, hbody⟩ := hkeys key hkey
  rw [lookup_child hmem]
  congr 1
  funext v
  rw [tidyField, if_neg fun h => hbody h.1, if_pos ⟨hkey, h⟩]

/-! ### The children of a node -/

@[simp] theorem isObject_normal (v : Value) : isObject (normal v) = isObject v := by
  cases v <;> rfl

@[simp] theorem isObjectOrNull_normal (v : Value) : isObjectOrNull (normal v) = isObjectOrNull v := by
  cases v <;> rfl

/-- The change to values keeps objects, nothing and the rest apart, and to objects it does this. -/
structure ChangesObjects (change onObject : Value → Value) : Prop where
  isObject_eq : ∀ v, isObject (change v) = isObject v
  isObjectOrNull_eq : ∀ v, isObjectOrNull (change v) = isObjectOrNull v
  eq_onObject : ∀ {v}, isObject v = true → change v = onObject v

theorem changesObjects_normalAt (h : key ∈ nodeKeys) : ChangesObjects (normalAt key) normal := by
  refine ⟨fun v => ?_, fun v => ?_, fun {v} hv => ?_⟩
  · cases v <;> simp only [normalAt, if_pos h] <;> rfl
  · cases v <;> simp only [normalAt, if_pos h] <;> rfl
  · cases v with
    | object others => exact if_pos h
    | _ => cases hv

/-- What is a node is a node as a block, and nothing else changes. -/
theorem changesObjects_asBlock : ChangesObjects asBlock asBlock := by
  refine ⟨fun v => ?_, fun v => ?_, fun _ => rfl⟩
  · cases v with
    | object others => unfold asBlock; split <;> rfl
    | _ => rfl
  · cases v with
    | object others => unfold asBlock; split <;> rfl
    | _ => rfl

theorem ChangesObjects.comp {change change' onObject onObject' : Value → Value}
    (h' : ChangesObjects change' onObject') (h : ChangesObjects change onObject) :
    ChangesObjects (fun v => change' (change v)) fun v => onObject' (onObject v) := by
  refine ⟨fun v => ?_, fun v => ?_, fun {v} hv => ?_⟩
  · rw [h'.isObject_eq, h.isObject_eq]
  · rw [h'.isObjectOrNull_eq, h.isObjectOrNull_eq]
  · rw [h'.eq_onObject (by rw [h.isObject_eq, hv]), h.eq_onObject hv]

theorem optionalChild?_of_lookup {v : Value} (h : fields.lookup key = some v) :
    optionalChild? fields key =
      if isObject v then some (some v) else if isObjectOrNull v then some none else none := by
  rw [optionalChild?, h]
  cases v <;> rfl

/-- If what stands in a field is changed that way, so is the child that stands there. -/
theorem child_of_lookup {fields' : List (String × Value)} {change onObject : Value → Value}
    (hchange : ChangesObjects change onObject)
    (h : fields'.lookup key = (fields.lookup key).map change) :
    child? fields' key = (child? fields key).map onObject ∧
      optionalChild? fields' key = (optionalChild? fields key).map (Option.map onObject) := by
  cases hlookup : fields.lookup key with
  | none => simp [child?, optionalChild?, h, hlookup]
  | some v =>
    rw [hlookup, Option.map_some] at h
    rw [child?, child?, h, hlookup, Option.filter_some, Option.filter_some, optionalChild?_of_lookup h,
      optionalChild?_of_lookup hlookup, hchange.isObject_eq, hchange.isObjectOrNull_eq]
    cases hv : isObject v with
    | true =>
      have heq := hchange.eq_onObject hv
      exact ⟨congrArg some heq, congrArg (some ∘ some) heq⟩
    | false => cases isObjectOrNull v <;> exact ⟨rfl, rfl⟩

theorem child_normalNode (hkey : key ∈ nodeKeys) (hother : key ∉ bodyKeys) :
    child? (normalNode fields) key = (child? fields key).map normal ∧
      optionalChild? (normalNode fields) key = (optionalChild? fields key).map (Option.map normal) :=
  child_of_lookup (changesObjects_normalAt hkey) (lookup_plain (List.mem_append_left _ hkey) hother)

theorem branch_normalNode (hkey : key ∈ ["consequent", "alternate"]) (h : hasType fields "IfStatement") :
    child? (normalNode fields) key = (child? fields key).map (fun v => asBlock (normal v)) ∧
      optionalChild? (normalNode fields) key =
        (optionalChild? fields key).map (Option.map fun v => asBlock (normal v)) := by
  have hkeys : ∀ key ∈ ["consequent", "alternate"], key ∈ nodeKeys := by decide
  have hnode := hkeys key hkey
  exact child_of_lookup (changesObjects_asBlock.comp (changesObjects_normalAt hnode)) (lookup_branch hkey h)

section

variable {test : Value → Bool} (htest : ∀ v, test (normal v) = test v)

include htest

theorem children?_normalNode (hkey : key ∈ nodeKeys ++ itemKeys)
    (hother : key ∉ bodyKeys) :
    children? test (normalNode fields) key = (children? test fields key).map (List.map normal) := by
  rw [children?, children?, lookup_plain hkey hother]
  cases fields.lookup key with
  | none => rfl
  | some v =>
    cases v with
    | list items =>
      have hall : (items.map normal).all test = items.all test := by
        rw [List.all_map]
        exact congrArg items.all (funext htest)
      simp only [Option.map_some, normalAt, if_pos hkey, hall]
      split <;> rfl
    | object others => by_cases hnode : key ∈ nodeKeys <;> simp [normalAt, hnode, normal_object]
    | _ => simp [normalAt, normal]

theorem childrenOrNone?_normalNode (hkey : key ∈ nodeKeys ++ itemKeys)
    (hother : key ∉ bodyKeys) :
    childrenOrNone? test (normalNode fields) key =
      (childrenOrNone? test fields key).map (List.map normal) := by
  rw [childrenOrNone?, childrenOrNone?, lookup_plain hkey hother, children?_normalNode htest hkey hother]
  cases fields.lookup key <;> rfl

end

/-- The statements in a body that are not empty, in normal form. -/
def statements (items : List Value) : List Value :=
  (items.map normal).filter fun item => !isOfType "EmptyStatement" item

@[simp] theorem isOfType_normal (v : Value) : isOfType type (normal v) = isOfType type v := by
  cases v with
  | object others => rw [normal_object, isOfType, isOfType, lookup_own (by decide)]
  | _ => rfl

theorem isObject_of_isOfType {v : Value} (h : isOfType type v = true) : isObject v = true := by
  cases v with
  | object => rfl
  | _ => cases h

theorem all_isObject_statements (items : List Value) :
    (statements items).all isObject = items.all isObject := by
  rw [Bool.eq_iff_iff, List.all_eq_true, List.all_eq_true]
  constructor
  · intro h v hv
    rw [← isObject_normal]
    cases hempty : isOfType "EmptyStatement" (normal v) with
    | true => exact isObject_of_isOfType hempty
    | false => exact h _ (List.mem_filter.2 ⟨List.mem_map_of_mem hv, by simp [hempty]⟩)
  · intro h v hv
    obtain ⟨w, hw, rfl⟩ := List.mem_map.1 (List.mem_filter.1 hv).1
    rw [isObject_normal]
    exact h w hw

theorem body_normalNode (h : hasType fields "Program" ∨ hasType fields "BlockStatement") :
    childrenOrNone? isObject (normalNode fields) "body" =
      (childrenOrNone? isObject fields "body").map statements := by
  rw [childrenOrNone?, childrenOrNone?, children?, children?, lookup_body h]
  cases fields.lookup "body" with
  | none => rfl
  | some v =>
    cases v with
    | list items =>
      have hitems : withoutEmpty (normalAt "body" (.list items)) = .list (statements items) := by
        rw [normalAt, if_pos (by decide), withoutEmpty, statements]
      simp only [Option.map_some, hitems, all_isObject_statements]
      split <;> rfl
    | object others => rfl
    | _ => rfl

/-! ### The shapes of a node -/

theorem text?_normalNode (h : key ∈ ownKeys) : text? (normalNode fields) key = text? fields key := by
  rw [text?, text?, lookup_own h]

theorem bodyShape_normalNode (htype : type = "Program" ∨ type = "BlockStatement") :
    bodyShape type (normalNode fields) = (bodyShape type fields).map statements := by
  rw [bodyShape, bodyShape, hasType_normalNode]
  split
  · next h => exact body_normalNode (by rcases htype with rfl | rfl <;> simp [h])
  · rfl

theorem declarationShape_normalNode :
    declarationShape (normalNode fields) = (declarationShape fields).map (List.map normal) := by
  rw [declarationShape, declarationShape, hasType_normalNode,
    children?_normalNode isObject_normal (by decide) (by decide)]
  split
  · rw [Option.filter_map]
    simp [Function.comp_def]
  · rfl

theorem declaratorShape_normalNode : declaratorShape (normalNode fields) =
    (declaratorShape fields).map fun (id, init) => (normal id, init.map normal) := by
  rw [declaratorShape, declaratorShape, hasType_normalNode, (child_normalNode (by decide) (by decide)).1,
    (child_normalNode (by decide) (by decide)).2]
  cases hasType fields "VariableDeclarator" <;> cases child? fields "id" <;>
    cases optionalChild? fields "init" <;> rfl

theorem expressionShape_normalNode :
    expressionShape (normalNode fields) = (expressionShape fields).map normal := by
  rw [expressionShape, expressionShape, hasType_normalNode, (child_normalNode (by decide) (by decide)).1]
  cases hasType fields "ExpressionStatement" <;> rfl

theorem conditionalShape_normalNode : conditionalShape (normalNode fields) =
    (conditionalShape fields).map fun (test, consequent, alternate) =>
      (normal test, asBlock (normal consequent), alternate.map fun v => asBlock (normal v)) := by
  rw [conditionalShape, conditionalShape, hasType_normalNode, (child_normalNode (by decide) (by decide)).1]
  cases h : hasType fields "IfStatement" with
  | false => rfl
  | true =>
    rw [(branch_normalNode (by decide) h).1, (branch_normalNode (by decide) h).2]
    cases child? fields "test" <;> cases child? fields "consequent" <;>
      cases optionalChild? fields "alternate" <;> rfl

theorem identifierShape_normalNode : identifierShape (normalNode fields) = identifierShape fields := by
  rw [identifierShape, identifierShape, hasType_normalNode, text?_normalNode (by decide)]

theorem literalShape_normalNode : literalShape (normalNode fields) = literalShape fields := by
  rw [literalShape, literalShape, hasType_normalNode, isOptionalText, isOptionalText,
    lookup_own (by decide), lookup_own (by decide)]

theorem arrayShape_normalNode :
    arrayShape (normalNode fields) = (arrayShape fields).map (List.map normal) := by
  rw [arrayShape, arrayShape, hasType_normalNode,
    childrenOrNone?_normalNode isObjectOrNull_normal (by decide) (by decide)]
  cases hasType fields "ArrayExpression" <;> rfl

theorem callShape_normalNode : callShape (normalNode fields) =
    (callShape fields).map fun (function, items) => (normal function, items.map normal) := by
  rw [callShape, callShape, hasType_normalNode, (child_normalNode (by decide) (by decide)).1,
    childrenOrNone?_normalNode isObject_normal (by decide) (by decide)]
  cases hasType fields "CallExpression" <;> cases child? fields "callee" <;>
    cases childrenOrNone? isObject fields "arguments" <;> rfl

theorem unaryShape_normalNode : unaryShape (normalNode fields) =
    (unaryShape fields).map fun (operator, argument) => (operator, normal argument) := by
  rw [unaryShape, unaryShape, hasType_normalNode, (child_normalNode (by decide) (by decide)).1,
    text?_normalNode (by decide)]
  cases hasType fields "UnaryExpression" <;> cases text? fields "operator" <;>
    cases child? fields "argument" <;> rfl

end

/-! ### Checking a node -/

theorem typeText_normalNode (fields : List (String × Value)) :
    typeText (normalNode fields) = typeText fields := by
  rw [typeText, typeText, lookup_own (by decide)]

@[simp] theorem typeOf_normal (v : Value) : typeOf (normal v) = typeOf v := by
  cases v with
  | object fields => exact typeText_normalNode fields
  | _ => rfl

theorem expressionType?_normalNode (fields : List (String × Value)) :
    expressionType? (normalNode fields) = expressionType? fields := by
  rw [expressionType?, expressionType?, lookup_own (by decide)]

/-- A node is checked against a shape as its normal form is. -/
theorem expect_normal {α : Type} {shape : List (String × Value) → Option α} {change : α → α}
    (h : ∀ fields, shape (normalNode fields) = (shape fields).map change) (v : Value) :
    expect shape (normal v) = change <$> expect shape v := by
  cases v with
  | object fields =>
    have hlabel : typeLabel (normalNode fields) = typeLabel fields := by
      rw [typeLabel, typeLabel, typeText_normalNode, lookup_own (by decide)]
    rw [normal_object, expect, expect, h, hlabel]
    cases shape fields with
    | none => cases typeLabel fields <;> rfl
    | some a => rfl
  | _ => rfl

theorem expect_normal_of_eq {α : Type} {shape : List (String × Value) → Option α}
    (h : ∀ fields, shape (normalNode fields) = shape fields) (v : Value) :
    expect shape (normal v) = expect shape v := by
  have hid : ∀ fields, shape (normalNode fields) = (shape fields).map id := by
    intro fields
    rw [h, Option.map_id, id]
  rw [expect_normal hid, id_map]

@[simp] theorem identifier_normal (v : Value) : identifier (normal v) = identifier v :=
  expect_normal_of_eq (fun _ => identifierShape_normalNode) v

@[simp] theorem literal_normal (v : Value) :
    expect literalShape (normal v) = expect literalShape v :=
  expect_normal_of_eq (fun _ => literalShape_normalNode) v

end TraceGraph.Estree
