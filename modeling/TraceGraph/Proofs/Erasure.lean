import TraceGraph.Proofs.Ascii
import TraceGraph.Proofs.NormalForm
import TraceGraph.Proofs.Refusal

/-!
# What decoding passes over

Decoding a tree and decoding its normal form give the same program or the same error, for every value
(`program_normal`).  The proof goes through the decoders as they call each other: each is put together from
what it does with the parts of a tree (`expressionText_eq`, `argument_eq`, `statement_eq_bind`), and
the parts are lower than the tree.

Two places need more than that.  An empty statement decodes to nothing, so a body may lose it
(`collect_statements`); and a branch that is no block is decoded as the block around it is, because nothing
but a text that says so makes a node a block (`branch_asBlock`).

An object in the place of the arguments of a call is gone through by its keys where the call is written
out, so it matters whether there are any (`not_program_eq_of_misplaced`).
-/

namespace TraceGraph.Estree

/-! ### The text of an expression by the texts of its parts -/

/-- The text of the expression in a field. -/
def fieldText (decode : Value → Except Error String) (fields : List (String × Value)) (key : String) :
    Except Error String := do
  decode (← Value.require fields key)

/-- The texts of the expressions in a list. -/
def itemTexts (decode : Value → Except Error String) (fields : List (String × Value)) (key : String) :
    Except Error (List String) := do
  (← itemsOrNone fields key).mapM decode

/-- One level of the text of an expression, given how the levels below are written. -/
def textStep (decode : Value → Except Error String) : Value → Except Error String
  | .object fields =>
    match expressionType? fields with
    | some .identifier => do (← Value.require fields "name").writtenText
    | some .literal =>
      literalText ((fields.lookup "value").getD .null) ((fields.lookup "raw").getD .null)
    | some .array => do
      let elements ← itemTexts decode fields "elements"
      return "[" ++ Text.commas elements ++ "]"
    | some .call => do
      let args ← itemTexts decode fields "arguments"
      let callee ← fieldText decode fields "callee"
      return callee ++ "(" ++ Text.commas args ++ ")"
    | some .member => do
      let object ← fieldText decode fields "object"
      let property ← fieldText decode fields "property"
      if ((fields.lookup "computed").getD .null).truthy then
        return object ++ "[" ++ property ++ "]"
      else return object ++ "." ++ property
    | some .unary => do
      let operator ← Value.require fields "operator"
      let argument ← fieldText decode fields "argument"
      unaryText operator argument
    | some .binary | some .logical => do
      let left ← fieldText decode fields "left"
      let operator ← (← Value.require fields "operator").writtenText
      let right ← fieldText decode fields "right"
      return "(" ++ left ++ " " ++ operator ++ " " ++ right ++ ")"
    | none => do throw (.unsupportedNode (← typeText fields))
  | _ => .error .noFields

section

variable {fields fields' : List (String × Value)} {decode decode' : Value → Except Error String}
  {key : String} {items : List Value} {v : Value}

/-- Two expressions have the same text if they say the same of themselves and their parts have the same
texts. -/
theorem textStep_eq_of_parts (hown : ∀ key ∈ ownKeys, fields'.lookup key = fields.lookup key)
    (hfield : ∀ key ∈ childKeys (expressionType? fields),
      fieldText decode' fields' key = fieldText decode fields key)
    (hitems : ∀ key ∈ listKeys (expressionType? fields),
      itemTexts decode' fields' key = itemTexts decode fields key) :
    textStep decode' (.object fields') = textStep decode (.object fields) := by
  have htype : expressionType? fields' = expressionType? fields := by
    rw [expressionType?, expressionType?, hown _ (by decide)]
  have hrequire : ∀ key ∈ ownKeys, Value.require fields' key = Value.require fields key := by
    intro key hkey
    rw [Value.require, Value.require, hown key hkey]
  rw [textStep, textStep, htype]
  cases hexpression : expressionType? fields with
  | none => simp only [typeText, hown _ (by decide : "type" ∈ ownKeys)]
  | some type =>
    rw [hexpression] at hfield hitems
    cases type with
    | identifier => simp only [hrequire _ (by decide : "name" ∈ ownKeys)]
    | literal =>
      simp only [hown _ (by decide : "value" ∈ ownKeys), hown _ (by decide : "raw" ∈ ownKeys)]
    | array => simp only [hitems "elements" (by decide)]
    | call => simp only [hitems "arguments" (by decide), hfield "callee" (by decide)]
    | member =>
      simp only [hfield "object" (by decide), hfield "property" (by decide),
        hown _ (by decide : "computed" ∈ ownKeys)]
    | unary =>
      simp only [hrequire _ (by decide : "operator" ∈ ownKeys), hfield "argument" (by decide)]
    | binary | logical =>
      simp only [hfield "left" (by decide), hrequire _ (by decide : "operator" ∈ ownKeys),
        hfield "right" (by decide)]

theorem height_lt_of_itemsOrNone (h : itemsOrNone fields key = .ok items) (hv : v ∈ items) :
    v.height < (Value.object fields).height := by
  rcases itemsOrNone_cases h with ⟨-, hitems⟩ | ⟨-, -, hitems⟩
  · obtain ⟨listed, hlookup, hlisted⟩ := hitems v hv
    exact (Part.item hlookup hlisted).height_lt
  · obtain ⟨s, rfl⟩ := hitems v hv
    exact Nat.succ_pos _

theorem textStep_congr (h : ∀ w, w.height < v.height → decode w = decode' w) :
    textStep decode v = textStep decode' v := by
  cases v with
  | object fields =>
    refine textStep_eq_of_parts (fun _ _ => rfl) (fun key _ => ?_) (fun key _ => ?_)
    · exact bind_congr_of_ok fun w hw => h w (Part.field (lookup_of_require hw)).height_lt
    · refine bind_congr_of_ok fun items hitems => mapM_congr fun w hw => h w ?_
      exact height_lt_of_itemsOrNone hitems hw
  | _ => rfl

theorem textWithin_succ (level : Nat) (v : Value) :
    textWithin (level + 1) v = textStep (textWithin level) v := by
  cases v with
  | object fields =>
    rw [textWithin, textStep]
    cases expressionType? fields with
    | none => rfl
    | some type => cases type <;> simp only [fieldText, itemTexts, bind_assoc]
  | _ => rfl

theorem textWithin_of_height_eq_zero (h : v.height = 0) (level : Nat) :
    textWithin level v = textWithin 0 v := by
  cases v with
  | list | object => simp [Value.height] at h
  | _ => cases level <;> rfl

end

/-- An expression is written out by writing out what is in it, with as many levels as that has. -/
theorem expressionText_eq (v : Value) : expressionText v = textStep expressionText v :=
  within_eq_step textWithin_of_height_eq_zero textWithin_succ textStep_congr v

/-! ### Expressions in normal form -/

theorem mapM_normal {α : Type} {decode : Value → Except Error α} {items : List Value}
    (h : ∀ v ∈ items, decode (normal v) = decode v) :
    (items.map normal).mapM decode = items.mapM decode := by
  rw [List.mapM_map]
  exact mapM_congr h

section

variable {fields : List (String × Value)} {key : String}

theorem fieldText_normalNode (hkey : key ∈ nodeKeys) (hother : key ∉ bodyKeys)
    (h : ∀ w, fields.lookup key = some w → expressionText (normal w) = expressionText w) :
    fieldText expressionText (normalNode fields) key = fieldText expressionText fields key := by
  rw [fieldText, fieldText, Value.require, Value.require,
    lookup_plain (List.mem_append_left _ hkey) hother]
  cases hlookup : fields.lookup key with
  | none => rfl
  | some w =>
    have hnormal : expressionText (normalAt key w) = expressionText w := by
      cases w with
      -- A list has no text, whatever is in it.
      | list items => exact (expressionText_eq _).trans (expressionText_eq _).symm
      | _ => simpa only [normalAt, if_pos hkey] using h _ hlookup
    exact hnormal

theorem itemTexts_normalNode (hkey : key ∈ itemKeys)
    (h : ∀ items, fields.lookup key = some (.list items) → ∀ w ∈ items,
      expressionText (normal w) = expressionText w) :
    itemTexts expressionText (normalNode fields) key = itemTexts expressionText fields key := by
  have hkeys : ∀ key ∈ itemKeys, key ∉ nodeKeys ∧ key ∉ bodyKeys := by decide
  obtain ⟨hnode, hother⟩ := hkeys key hkey
  rw [itemTexts, itemTexts, itemsOrNone, itemsOrNone, lookup_plain (List.mem_append_right _ hkey) hother]
  cases hlookup : fields.lookup key with
  | none => rfl
  | some w =>
    cases w with
    | list items =>
      have htruthy : (Value.list (items.map normal)).truthy = (Value.list items).truthy := by
        cases items <;> rfl
      simp only [Option.map_some, normalAt, if_pos (List.mem_append_right _ hkey), htruthy]
      split
      · exact mapM_normal (h items hlookup)
      · rfl
    | _ => simp only [Option.map_some, normalAt, if_neg hnode]

end

/-- An expression and its normal form have the same text, by induction on the height. -/
theorem expressionText_normal (v : Value) : expressionText (normal v) = expressionText v := by
  induction hheight : v.height using Nat.strongRecOn generalizing v with
  | ind height ih =>
    cases v with
    | object fields =>
      have hkeys : ∀ type, (∀ key ∈ childKeys type, key ∈ nodeKeys ∧ key ∉ bodyKeys) ∧
          ∀ key ∈ listKeys type, key ∈ itemKeys := by
        rintro (_ | type)
        · decide
        · cases type <;> decide
      rw [normal_object, expressionText_eq, expressionText_eq (.object fields)]
      refine textStep_eq_of_parts (fun key => lookup_own) (fun key hkey => ?_) (fun key hkey => ?_)
      · obtain ⟨hnode, hother⟩ := (hkeys _).1 key hkey
        exact fieldText_normalNode hnode hother fun w hw =>
          ih _ (hheight ▸ (Part.field hw).height_lt) w rfl
      · exact itemTexts_normalNode ((hkeys _).2 key hkey) fun items hitems w hw =>
          ih _ (hheight ▸ (Part.item hitems hw).height_lt) w rfl
    | _ => rfl

theorem negatedNumber?_normal (v : Value) : negatedNumber? (normal v) = negatedNumber? v := by
  rw [negatedNumber?, negatedNumber?, expect_normal (fun _ => unaryShape_normalNode), bind_map_left]
  simp only [typeOf_normal, literal_normal]

/-- An argument and its normal form are decoded alike, by induction on the height through the elements of
arrays. -/
theorem argument_normal (v : Value) : argument (normal v) = argument v := by
  induction hheight : v.height using Nat.strongRecOn generalizing v with
  | ind height ih =>
    cases v with
    | object fields =>
      have helement : ∀ item, Part (.object fields) item →
          element argument (normal item) = element argument item := by
        intro item hpart
        cases item with
        | object others => exact ih _ (hheight ▸ hpart.height_lt) _ rfl
        | _ => rfl
      rw [argument_eq, argument_eq (.object fields), normal_object, argumentStep, argumentStep,
        expressionType?_normalNode, ← normal_object, literal_normal, identifier_normal,
        negatedNumber?_normal, expressionText_normal, expect_normal (fun _ => arrayShape_normalNode),
        bind_map_left]
      split
      · rfl
      · rfl
      · refine bind_congr_of_ok fun items hitems => ?_
        rw [mapM_normal fun item hitem => helement item (part_of_arrayShape hitems item hitem)]
      · rfl
      · rfl
    | _ => rfl

theorem callee_normal (v : Value) : callee (normal v) = callee v := by
  rw [callee, callee, typeOf_normal, identifier_normal, expressionText_normal]

theorem call_normal (v : Value) : call (normal v) = call v := by
  rw [call, call, expect_normal (fun _ => callShape_normalNode), bind_map_left]
  simp only [callee_normal, mapM_normal fun item _ => argument_normal item]

theorem initializer_normal (v : Value) : initializer (normal v) = initializer v := by
  rw [initializer, initializer, typeOf_normal]
  simp only [call_normal, identifier_normal, literal_normal, argument_normal, negatedNumber?_normal]

/-! ### Statements in normal form -/

theorem declaration_normal (v : Value) : declaration (normal v) = declaration v := by
  rw [declaration, declaration, expect_normal (fun _ => declarationShape_normalNode), bind_map_left]
  refine bind_congr fun declarators => ?_
  match declarators with
  | [] => rfl
  | [declarator] =>
    rw [List.map_singleton]
    dsimp only
    rw [expect_normal (fun _ => declaratorShape_normalNode), bind_map_left]
    refine bind_congr fun ⟨id, init⟩ => ?_
    simp only [typeOf_normal, identifier_normal]
    cases init with
    | none => rfl
    | some init => simp only [Option.map_some, initializer_normal]
  | first :: second :: rest => simp only [List.map_cons, List.length_cons, List.length_map]

theorem expressionStatement_normal (v : Value) :
    expressionStatement (normal v) = expressionStatement v := by
  rw [expressionStatement, expressionStatement, expect_normal (fun _ => expressionShape_normalNode),
    bind_map_left]
  simp only [typeOf_normal, identifier_normal, call_normal]

/-- The statements of a body, decoded; empty ones leave no trace. -/
def collect (items : List Value) : Except Error (List Node) := do
  return (← items.mapM statement).filterMap id

theorem collect_cons (item : Value) (rest : List Value) : collect (item :: rest) = do
    let node ← statement item
    let nodes ← collect rest
    return node.toList ++ nodes := by
  rw [collect, collect, List.mapM_cons]
  simp only [bind_assoc, pure_bind]
  refine bind_congr fun node => bind_congr fun nodes => ?_
  cases node <;> rfl

theorem typeOf_of_isOfType {type : String} {v : Value} (h : isOfType type v = true) :
    typeOf v = .ok type := by
  cases v with
  | object fields =>
    rw [isOfType] at h
    split at h
    · next hlookup =>
      rw [typeOf, typeText, hlookup, eq_of_beq h]
      rfl
    · cases h
  | _ => cases h

theorem statement_of_isOfType {v : Value} (h : isOfType "EmptyStatement" v = true) :
    statement v = .ok none := by
  rw [statement_eq, statementStep, typeOf_of_isOfType h]
  rfl

/-- A body is decoded as its statements are that are not empty. -/
theorem collect_statements {items : List Value}
    (h : ∀ v ∈ items, statement (normal v) = statement v) :
    collect (statements items) = collect items := by
  induction items with
  | nil => rfl
  | cons item rest ih =>
    rw [List.forall_mem_cons] at h
    rw [collect_cons, ← ih h.2, ← h.1, statements, List.map_cons, List.filter_cons]
    cases hempty : isOfType "EmptyStatement" (normal item) with
    | true =>
      rw [statement_of_isOfType hempty]
      exact (bind_pure _).symm
    | false => exact collect_cons _ _

/-- The statements of a branch, decoded. -/
def branch (v : Value) : Except Error (List Node) := do
  collect (← branchItems v)

/-- A conditional, decoded. -/
def conditional (v : Value) : Except Error Node := do
  let (test, consequent, alternate) ← expect conditionalShape v
  let testType ← typeOf test
  if testType ≠ "Identifier" then throw (.unsupportedNode ("IfStatement test " ++ testType))
  match alternate with
  | none => throw .missingElse
  | some alternate => do
    let test ← identifier test
    let thenBranch ← branch consequent
    let elseBranch ← branch alternate
    Node.conditional (.var test) thenBranch elseBranch

/-- A statement of this type, decoded. -/
def statementOfType (v : Value) (type : String) : Except Error (Option Node) :=
  match StatementType.ofName? type with
  | some .empty => return none
  | some .declaration => return some (← declaration v)
  | some .expression => return some (← expressionStatement v)
  | some .conditional => return some (← conditional v)
  | none => throw (.unsupportedNode type)

theorem statement_eq_bind (v : Value) : statement v = typeOf v >>= statementOfType v := by
  rw [statement_eq, statementStep]
  refine bind_congr fun type => ?_
  rw [statementOfType]
  cases StatementType.ofName? type with
  | none => rfl
  | some kind =>
    cases kind with
    | conditional =>
      dsimp only
      rw [conditional, bind_assoc]
      refine bind_congr fun shape => ?_
      obtain ⟨test, consequent, alternate⟩ := shape
      dsimp only
      rw [bind_assoc]
      refine bind_congr fun testType => ?_
      by_cases htest : testType ≠ "Identifier"
      · rw [if_pos htest, if_pos htest]
        rfl
      · rw [if_neg htest, if_neg htest]
        cases alternate with
        | none => rfl
        | some alternate => simp only [branch, collect, bind_assoc, pure_bind]
    | _ => rfl

/-! ### Branches as blocks -/

/-- Nothing but the text itself is written like the type of a block: numbers have no letter `B`, and lists
and objects begin with a bracket. -/
theorem eq_str_of_text {v : Value} (h : v.text = "BlockStatement") : v = .str "BlockStatement" := by
  have hnumeral : ¬ Text.All Decimal.IsNumeral "BlockStatement" := by decide
  cases v with
  | null => exact absurd h (by decide)
  | bool b => exact absurd h (by cases b <;> decide)
  | int n => exact absurd (h ▸ Decimal.all_isNumeral_toString n) hnumeral
  | float x =>
    have htext : Decimal.text x = "BlockStatement" := h
    have hcases := Decimal.text_cases x
    rw [htext] at hcases
    exact absurd hcases (by decide)
  | str s => exact congrArg Value.str h
  | list items =>
    have hhead := congrArg (fun s => s.toList.head?) h
    simp [Value.text, Value.shown] at hhead
  | object fields =>
    have hhead := congrArg (fun s => s.toList.head?) h
    simp [Value.text, Value.shown] at hhead

theorem isOfType_of_typeOf {v : Value} (h : typeOf v = .ok "BlockStatement") :
    isOfType "BlockStatement" v = true := by
  cases v with
  | object fields =>
    have htext : ((fields.lookup "type").getD .null).text = "BlockStatement" := by
      rw [typeOf, typeText, Value.writtenText] at h
      split at h
      · exact Except.ok.inj h
      · cases h
    have hstr := eq_str_of_text htext
    cases hlookup : fields.lookup "type" with
    | none =>
      rw [hlookup] at hstr
      cases hstr
    | some w =>
      rw [hlookup, Option.getD_some] at hstr
      rw [isOfType, hlookup, hstr]
      rfl
  | _ => cases h

theorem branch_eq (v : Value) :
    branch v =
      if isOfType "BlockStatement" v then expect (bodyShape "BlockStatement") v >>= collect
      else collect [v] := by
  rw [branch, branchItems]
  split
  · next hblock =>
    rw [typeOf_of_isOfType hblock]
    rfl
  · next hblock =>
    cases htype : typeOf v with
    | error e =>
      rw [collect_cons, statement_eq, statementStep, htype]
      rfl
    | ok type =>
      have hne : type ≠ "BlockStatement" := fun heq => hblock (isOfType_of_typeOf (heq ▸ htype))
      have hitems : (Except.ok type >>= fun type =>
          if type = "BlockStatement" then expect (bodyShape "BlockStatement") v else pure [v]) = .ok [v] :=
        if_neg hne
      rw [hitems]
      rfl

/-- The block that is made of a branch has it as its only statement, unless it is empty. -/
theorem body_tree {v : Value} (h : isObject v = true) :
    expect (bodyShape "BlockStatement")
      (tree "BlockStatement" [("body", withoutEmpty (.list [normal v]))]) = .ok (statements [v]) := by
  have hall : (statements [v]).all isObject = true := by simp [all_isObject_statements, h]
  have hshape : bodyShape "BlockStatement"
      [("type", .str "BlockStatement"), ("body", withoutEmpty (.list [normal v]))] =
        some (statements [v]) := by
    change (if (statements [v]).all isObject then some (statements [v]) else none) = some (statements [v])
    rw [if_pos hall]
  rw [tree, expect, hshape]

/-- A branch is decoded as the block that is made of it. -/
theorem branch_asBlock {v : Value} (h : ∀ w, Part v w ∨ w = v → statement (normal w) = statement w) :
    branch (asBlock (normal v)) = branch v := by
  rw [asBlock, isObject_normal, isOfType_normal, branch_eq v]
  cases hblock : isOfType "BlockStatement" v with
  | true =>
    rw [if_neg (by simp), if_pos rfl, branch_eq, if_pos (by rw [isOfType_normal, hblock]),
      expect_normal (fun _ => bodyShape_normalNode (.inr rfl)), bind_map_left]
    refine bind_congr_of_ok fun items hitems => collect_statements fun w hw => h w (.inl ?_)
    exact part_of_bodyShape hitems w hw
  | false =>
    cases hobject : isObject v with
    | false =>
      have hsame : normal v = v := by
        cases v with
        | object fields => cases hobject
        | _ => rfl
      rw [if_neg (by simp), if_neg (by simp), hsame, branch_eq, if_neg (by simp [hblock])]
    | true =>
      rw [if_pos ⟨rfl, rfl⟩, if_neg (by simp), branch_eq, if_pos (by rfl), body_tree hobject]
      exact collect_statements fun w hw => h w (.inr (List.mem_singleton.1 hw))

theorem conditional_normal {v : Value}
    (h : ∀ w, w.height < v.height → statement (normal w) = statement w) :
    conditional (normal v) = conditional v := by
  have hbranch : ∀ {w}, Part v w → branch (asBlock (normal w)) = branch w := by
    intro w hpart
    refine branch_asBlock fun u hu => h u ?_
    rcases hu with hu | rfl
    · exact Nat.lt_trans hu.height_lt hpart.height_lt
    · exact hpart.height_lt
  rw [conditional, conditional, expect_normal (fun _ => conditionalShape_normalNode), bind_map_left]
  refine bind_congr_of_ok fun ⟨test, consequent, alternate⟩ hshape => ?_
  obtain ⟨-, hconsequent, halternate⟩ := part_of_conditionalShape hshape
  cases alternate with
  | none => simp only [typeOf_normal, Option.map_none]
  | some alternate =>
    simp only [typeOf_normal, identifier_normal, Option.map_some, hbranch hconsequent,
      hbranch (halternate _ rfl)]

/-- A statement and its normal form are decoded alike, by induction on the height through the branches of
conditionals. -/
theorem statement_normal (v : Value) : statement (normal v) = statement v := by
  induction hheight : v.height using Nat.strongRecOn generalizing v with
  | ind height ih =>
    have hsame : statementOfType (normal v) = statementOfType v := by
      funext type
      rw [statementOfType, statementOfType, declaration_normal, expressionStatement_normal,
        conditional_normal fun w hw => ih _ (hheight ▸ hw) w rfl]
    rw [statement_eq_bind, statement_eq_bind v, typeOf_normal, hsame]

/-- **A tree and its normal form are decoded to the same program, or are refused with the same error.** -/
theorem program_normal (v : Value) : program (normal v) = program v := by
  rw [program, program, expect_normal (fun _ => bodyShape_normalNode (.inl rfl)), bind_map_left]
  exact bind_congr fun items => collect_statements fun w _ => statement_normal w

/-- Decoding depends on the fields that it names, on the statements that are not empty and on the branches,
blocks or not: trees that have the same normal form are decoded to the same program, or are refused with
the same error. -/
theorem program_eq_of_normal_eq {v w : Value} (h : normal v = normal w) : program v = program w := by
  rw [← program_normal v, h, program_normal]

/-- The tree `sampleTree` with positions, with its fields in another order, with empty statements in other
places, and with blocks where that has none. -/
def annotatedTree : Value :=
  let position : List (String × Value) :=
    [("start", .int 3), ("loc", .object [("type", .str "EmptyStatement")])]
  let node := fun type children => Value.object (children ++ position ++ [("type", .str type)])
  let identifier := fun name => node "Identifier" [("name", .str name)]
  let declaration := fun name init => node "VariableDeclaration" [("kind", .str "let"),
    ("declarations", .list [node "VariableDeclarator" [("init", init), ("id", identifier name)]])]
  let member := node "MemberExpression" [("property", identifier "b"), ("object", identifier "a")]
  let negated := node "UnaryExpression" [("prefix", .bool true),
    ("argument", node "Literal" [("value", .int 1)]), ("operator", .str "-")]
  node "Program" [("sourceType", .str "script"), ("body", .list
    [declaration "coin" (node "CallExpression" [("arguments", .list [negated]), ("callee", member)]),
     node "IfStatement"
       [("alternate", declaration "merged" (node "ArrayExpression" [])),
        ("test", identifier "coin"),
        ("consequent", node "BlockStatement" [("body", .list
          [node "EmptyStatement" [], declaration "merged" (identifier "coin"),
           node "EmptyStatement" []])])],
     node "EmptyStatement" []])]

theorem program_eq_of_normal_eq_annotated :
    normal annotatedTree = normal sampleTree ∧ program annotatedTree = program sampleTree :=
  have h : normal annotatedTree = normal sampleTree := rfl
  ⟨h, program_eq_of_normal_eq h⟩

/-- The tree of the program with one conditional, which has this branch. -/
def conditionalTree (consequent : Value) : Value :=
  tree "Program" [("body", .list [tree "IfStatement"
    [("test", identifierTree "x"), ("consequent", consequent), ("alternate", tree "BlockStatement" [])]])]

/-- What is no child must not be taken for one.  An object in the place of the arguments of a call that is
written out is gone through by its keys, so putting it in normal form changes the program; and a branch that
is no node makes the conditional malformed, where the block around it would be malformed itself. -/
theorem not_program_eq_of_misplaced :
    program (declarationTree (callTree (.object [("loc", .int 0)]))) = .error .noFields ∧
      program (declarationTree (callTree (normal (.object [("loc", .int 0)])))) =
        .ok [.assign "x" (.call "f" [.raw "f()"])] ∧
      program (conditionalTree (.int 5)) = .error (.malformedTree "IfStatement") ∧
      program (conditionalTree (tree "BlockStatement" [("body", .list [.int 5])])) =
        .error (.malformedTree "BlockStatement") :=
  ⟨rfl, rfl, rfl, rfl⟩

end TraceGraph.Estree
