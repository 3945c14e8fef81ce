import TraceGraph.Estree.Program
import TraceGraph.Proofs.RoundTrip

/-!
# What a syntax tree is decoded to

Whatever value is given as a syntax tree, if it is decoded then the result is a well-formed program,
which can be written and read back.  The grammar is enforced on the way: the shape of an identifier has
no empty name, a call whose text is empty is refused, and branches are put together by the same
`Node.conditional` that a strict reading uses.  Statements nest, so `body_of_statementWithin` is by
induction on the levels that are left.
-/

namespace TraceGraph.Estree

open Node (Arguments Body Initializer)

theorem expect_eq_ok_iff {α : Type} {shape : List (String × Value) → Option α} {v : Value} {a : α} :
    expect shape v = .ok a ↔ ∃ fields, v = .object fields ∧ shape fields = some a := by
  constructor
  · intro h
    unfold expect at h
    split at h
    · next fields =>
      split at h
      · next hshape =>
        cases h
        exact ⟨fields, rfl, hshape⟩
      · obtain ⟨type, -, h⟩ := bind_eq_ok_iff.1 h
        cases h
    · cases h
  · rintro ⟨fields, rfl, hshape⟩
    simp only [expect, hshape]

theorem identifier_ne_empty {v : Value} {name : String} (h : identifier v = .ok name) : name ≠ "" := by
  obtain ⟨fields, rfl, hshape⟩ := expect_eq_ok_iff.1 h
  obtain ⟨-, -, hname⟩ := Option.bind_eq_some_iff.1 hshape
  simpa using (Option.filter_eq_some_iff.1 hname).2

theorem arguments_of_argumentWithin {level : Nat} {v : Value} {node : Node}
    (h : argumentWithin level v = .ok node) : Arguments [node] := by
  induction level generalizing v node with
  | zero => cases h
  | succ level ih =>
    cases v with
    | object fields =>
      rw [argumentWithin] at h
      split at h
      · obtain ⟨value, -, h⟩ := bind_eq_ok_iff.1 h
        cases h
        exact .const value .nil
      · obtain ⟨name, hname, h⟩ := bind_eq_ok_iff.1 h
        cases h
        exact .var (identifier_ne_empty hname) .nil
      · obtain ⟨items, -, h⟩ := bind_eq_ok_iff.1 h
        obtain ⟨elements, helements, h⟩ := bind_eq_ok_iff.1 h
        cases h
        refine .array (Node.arguments_iff_forall.2 (forall_of_mapM_eq_ok helements ?_)) .nil
        intro item element helement
        split at helement
        · cases helement
        · exact ih helement
      · obtain ⟨negated, -, h⟩ := bind_eq_ok_iff.1 h
        cases negated with
        | some value =>
          cases h
          exact .const value .nil
        | none =>
          obtain ⟨text, -, h⟩ := bind_eq_ok_iff.1 h
          cases h
          exact .raw text .nil
      · obtain ⟨text, -, h⟩ := bind_eq_ok_iff.1 h
        cases h
        exact .raw text .nil
    | _ => cases h

theorem call_eq_ok {v : Value} {name : String} {args : List Node} (h : call v = .ok (name, args)) :
    name ≠ "" ∧ Arguments args := by
  obtain ⟨⟨function, items⟩, -, h⟩ := bind_eq_ok_iff.1 h
  obtain ⟨callee, -, h⟩ := bind_eq_ok_iff.1 h
  obtain ⟨nodes, hnodes, h⟩ := bind_eq_ok_iff.1 h
  split at h
  · cases h
  · next hname =>
    cases h
    exact ⟨hname, Node.arguments_iff_forall.2
      (forall_of_mapM_eq_ok hnodes fun _ _ harg => arguments_of_argumentWithin harg)⟩

theorem ofName?_of_typeText {fields : List (String × Value)} {type : ExpressionType} {text : String}
    (htext : typeText fields = .ok text) (h : expressionType? fields = some type) :
    ExpressionType.ofName? text = some type := by
  unfold expressionType? at h
  split at h
  · next htype =>
    rw [typeText, htype] at htext
    cases htext
    exact h
  · cases h

/-- Only an expression of a known type has a text. -/
theorem exists_expressionType_of_expressionText {fields : List (String × Value)} {text : String}
    (h : expressionText (.object fields) = .ok text) : ∃ type, expressionType? fields = some type := by
  cases htype : expressionType? fields with
  | some type => exact ⟨type, rfl⟩
  | none =>
    rw [expressionText, Value.height, textWithin, htype] at h
    obtain ⟨text, -, h⟩ := bind_eq_ok_iff.1 h
    cases h

/-- A tree that is an array by its type is decoded to an array, if at all. -/
theorem exists_array_of_argument {fields : List (String × Value)} {text : String} {node : Node}
    (htext : typeText fields = .ok text) (hname : ExpressionType.ofName? text = some .array)
    (h : argument (.object fields) = .ok node) : ∃ elements, node = .array elements := by
  have htype : ∀ type, expressionType? fields = some type → type = .array := by
    intro type hsome
    rw [ofName?_of_typeText htext hsome] at hname
    exact Option.some.inj hname
  rw [argument, Value.height, argumentWithin] at h
  split at h
  · next hother => cases htype _ hother
  · next hother => cases htype _ hother
  · obtain ⟨items, -, h⟩ := bind_eq_ok_iff.1 h
    obtain ⟨elements, -, h⟩ := bind_eq_ok_iff.1 h
    cases h
    exact ⟨elements, rfl⟩
  · next hother => cases htype _ hother
  · next hnot _ =>
    obtain ⟨text, htext, -⟩ := bind_eq_ok_iff.1 h
    obtain ⟨type, hsome⟩ := exists_expressionType_of_expressionText htext
    cases htype type hsome
    exact absurd hsome hnot

theorem initializer_eq_ok {v : Value} {node : Node} (h : initializer v = .ok node) :
    Initializer node := by
  obtain ⟨type, htype, h⟩ := bind_eq_ok_iff.1 h
  split at h
  · obtain ⟨⟨name, args⟩, hcall, h⟩ := bind_eq_ok_iff.1 h
    cases h
    exact .call (call_eq_ok hcall).1 (call_eq_ok hcall).2
  · obtain ⟨name, hname, h⟩ := bind_eq_ok_iff.1 h
    cases h
    exact .var (identifier_ne_empty hname)
  · obtain ⟨value, -, h⟩ := bind_eq_ok_iff.1 h
    cases h
    exact .const value
  · next harray =>
    cases v with
    | object fields =>
      obtain ⟨elements, rfl⟩ := exists_array_of_argument htype harray h
      cases arguments_of_argumentWithin h with
      | array helements _ => exact .array helements
    | _ => cases htype
  · obtain ⟨negated, -, h⟩ := bind_eq_ok_iff.1 h
    cases negated with
    | some value =>
      cases h
      exact .const value
    | none => cases h
  · cases h

theorem body_of_declaration {v : Value} {node : Node} (h : declaration v = .ok node) : Body [node] := by
  obtain ⟨declarators, -, h⟩ := bind_eq_ok_iff.1 h
  split at h
  · obtain ⟨⟨id, init⟩, -, h⟩ := bind_eq_ok_iff.1 h
    obtain ⟨type, -, h⟩ := bind_eq_ok_iff.1 h
    dsimp only at h
    split at h
    · cases h
    · cases init with
      | none =>
        obtain ⟨name, -, h⟩ := bind_eq_ok_iff.1 h
        cases h
      | some init =>
        obtain ⟨name, hname, h⟩ := bind_eq_ok_iff.1 h
        obtain ⟨value, hvalue, h⟩ := bind_eq_ok_iff.1 h
        cases h
        exact .assign (identifier_ne_empty hname) (initializer_eq_ok hvalue) .nil
  · cases h

theorem body_of_expressionStatement {v : Value} {node : Node} (h : expressionStatement v = .ok node) :
    Body [node] := by
  obtain ⟨expression, -, h⟩ := bind_eq_ok_iff.1 h
  obtain ⟨type, -, h⟩ := bind_eq_ok_iff.1 h
  split at h
  · obtain ⟨name, hname, h⟩ := bind_eq_ok_iff.1 h
    cases h
    exact .query (identifier_ne_empty hname) .nil
  · obtain ⟨⟨name, args⟩, hcall, h⟩ := bind_eq_ok_iff.1 h
    have hargs := (call_eq_ok hcall).2
    dsimp only at h
    split at h
    · next kind _ =>
      obtain ⟨target, htarget, h⟩ := bind_eq_ok_iff.1 h
      cases h
      unfold Evidence.target at htarget
      split at htarget
      · cases htarget
        cases hargs with
        | var hname _ => exact .evidence kind hname .nil
      · cases htarget
    · cases h
  · cases h

/-- Statements that are well-formed one by one are a well-formed body, without the empty ones. -/
theorem body_filterMap {f : Value → Except Error (Option Node)} {items : List Value}
    {decoded : List (Option Node)} (h : items.mapM f = .ok decoded)
    (hf : ∀ item node, f item = .ok (some node) → Body [node]) : Body (decoded.filterMap id) := by
  have hdecoded : ∀ entry ∈ decoded, ∀ node, entry = some node → Body [node] :=
    forall_of_mapM_eq_ok h fun item entry hentry node hnode => hf item node (hnode ▸ hentry)
  refine Node.body_iff_forall.2 fun node hnode => ?_
  obtain ⟨entry, hentry, hsome⟩ := List.mem_filterMap.1 hnode
  exact hdecoded entry hentry node hsome

theorem body_of_statementWithin {level : Nat} {v : Value} {node : Node}
    (h : statementWithin level v = .ok (some node)) : Body [node] := by
  induction level generalizing v node with
  | zero => cases h
  | succ level ih =>
    cases v with
    | object fields =>
      rw [statementWithin] at h
      obtain ⟨type, -, h⟩ := bind_eq_ok_iff.1 h
      split at h
      · cases h
      · obtain ⟨found, hfound, h⟩ := bind_eq_ok_iff.1 h
        cases h
        exact body_of_declaration hfound
      · obtain ⟨found, hfound, h⟩ := bind_eq_ok_iff.1 h
        cases h
        exact body_of_expressionStatement hfound
      · obtain ⟨⟨test, consequent, alternate⟩, -, h⟩ := bind_eq_ok_iff.1 h
        obtain ⟨testType, -, h⟩ := bind_eq_ok_iff.1 h
        dsimp only at h
        split at h
        · cases h
        · cases alternate with
          | none => cases h
          | some alternate =>
            obtain ⟨name, hname, h⟩ := bind_eq_ok_iff.1 h
            obtain ⟨thenItems, -, h⟩ := bind_eq_ok_iff.1 h
            obtain ⟨thenBranch, hthen, h⟩ := bind_eq_ok_iff.1 h
            obtain ⟨elseItems, -, h⟩ := bind_eq_ok_iff.1 h
            obtain ⟨elseBranch, helse, h⟩ := bind_eq_ok_iff.1 h
            obtain ⟨found, hfound, h⟩ := bind_eq_ok_iff.1 h
            cases h
            exact Node.body_of_conditional hfound (identifier_ne_empty hname)
              (body_filterMap hthen fun _ _ => ih) (body_filterMap helse fun _ _ => ih)
      · cases h
    | _ => cases h

/-- **What a tree is decoded to is well-formed**, and is read back from its written form. -/
theorem body_and_read_back_of_program {v : Value} {body : List Node} (h : program v = .ok body) :
    Body body ∧ ∃ w, (Node.program body).toValue = .ok w ∧
      Node.ofValue .strict w = .ok (.program body) := by
  obtain ⟨items, -, h⟩ := bind_eq_ok_iff.1 h
  obtain ⟨decoded, hdecoded, h⟩ := bind_eq_ok_iff.1 h
  cases h
  have hbody := body_filterMap hdecoded fun _ _ => body_of_statementWithin
  obtain ⟨w, hw, hread⟩ := (Node.WellFormed.program hbody).roundTrips
  exact ⟨hbody, w, hw, hread w.height (Nat.le_refl _)⟩

/-- The object of a type with these fields. -/
def tree (type : String) (children : List (String × Value)) : Value :=
  .object (("type", .str type) :: children)

/-- A program with an empty statement, a callee that is no identifier, a negated number, a branch that is
no block, and an array that does not name its elements. -/
def sampleTree : Value :=
  let identifier := fun name => tree "Identifier" [("name", .str name)]
  let declaration := fun name init => tree "VariableDeclaration" [("declarations", .list
    [tree "VariableDeclarator" [("id", identifier name), ("init", init)]])]
  let member := tree "MemberExpression" [("object", identifier "a"), ("property", identifier "b")]
  let negated := tree "UnaryExpression"
    [("operator", .str "-"), ("argument", tree "Literal" [("value", .int 1)])]
  tree "Program" [("body", .list
    [tree "EmptyStatement" [],
     declaration "coin" (tree "CallExpression" [("callee", member), ("arguments", .list [negated])]),
     tree "IfStatement"
       [("test", identifier "coin"),
        ("consequent", declaration "merged" (identifier "coin")),
        ("alternate", tree "BlockStatement"
          [("body", .list [declaration "merged" (tree "ArrayExpression" [])])])]])]

theorem body_and_read_back_of_program_sample :
    let body : List Node :=
      [.assign "coin" (.call "a.b" [.const (.int (-1))]),
       .choice (.var "coin") "merged" [] (.var "coin") [] (.array [])]
    program sampleTree = .ok body ∧ Body body ∧ ∃ w, (Node.program body).toValue = .ok w ∧
      Node.ofValue .strict w = .ok (.program body) := by
  intro body
  have hdecoded : program sampleTree = .ok body := rfl
  exact ⟨hdecoded, body_and_read_back_of_program hdecoded⟩

end TraceGraph.Estree
