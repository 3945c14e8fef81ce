import TraceGraph.Proofs.Completeness
import TraceGraph.Proofs.Decoding
import TraceGraph.Source

/-!
# How decoding ends

A tree is decoded or refused, except in one place: what is kept as text is written out unchecked.
`Writes v w` says that decoding `v` gets as far as writing out `w`; it follows the decoding in its order,
since a fault that comes earlier hides a later one.

Each function that decodes has two lemmas.  One goes forward: if it fails, it is with a refusal, for want
of a text of an integer, or by a gap of an expression that it writes out (`Stops`).  The other goes
back: if an expression that it writes out has no text, it fails, and with the same error.  Together they
say how every tree ends (`outcome_of_tree`).
-/

namespace TraceGraph.Estree

open Node (Body)

/-! ### What is written out -/

/-- Decoding an argument gets as far as writing out an expression. -/
inductive WritesArgument : Value → Value → Prop
  | whole {fields : List (String × Value)}
      (htype : expressionType? fields ∉ [some .literal, some .identifier, some .array, some .unary]) :
      WritesArgument (.object fields) (.object fields)
  | unary {fields : List (String × Value)} (htype : expressionType? fields = some .unary)
      (hnumber : negatedNumber? (.object fields) = .ok none) :
      WritesArgument (.object fields) (.object fields)
  | element {fields : List (String × Value)} {items : List Value} {item w : Value}
      (htype : expressionType? fields = some .array)
      (hitems : expect arrayShape (.object fields) = .ok items)
      (hreaches : Reaches (element argument) items item) (hitem : WritesArgument item w) :
      WritesArgument (.object fields) w

/-- Decoding a call gets as far as writing out an expression. -/
inductive WritesCall (v : Value) : Value → Prop
  | callee {function : Value} {items : List Value} {type : String}
      (hshape : expect callShape v = .ok (function, items)) (htype : typeOf function = .ok type)
      (hne : type ≠ "Identifier") : WritesCall v function
  | argument {function : Value} {items : List Value} {name : String} {item w : Value}
      (hshape : expect callShape v = .ok (function, items)) (hname : callee function = .ok name)
      (hreaches : Reaches argument items item) (hitem : WritesArgument item w) : WritesCall v w

/-- Decoding an initializer gets as far as writing out an expression. -/
inductive WritesInitializer (v w : Value) : Prop
  | call {type : String} (htype : typeOf v = .ok type) (hname : ExpressionType.ofName? type = some .call)
      (h : WritesCall v w)
  | array {type : String} (htype : typeOf v = .ok type)
      (hname : ExpressionType.ofName? type = some .array) (h : WritesArgument v w)

/-- Decoding a declaration gets as far as writing out an expression. -/
inductive WritesDeclaration (v w : Value) : Prop
  | intro {declarator target init : Value} {name : String}
      (hshape : expect declarationShape v = .ok [declarator])
      (hdeclarator : expect declaratorShape declarator = .ok (target, some init))
      (htype : typeOf target = .ok "Identifier") (hname : identifier target = .ok name)
      (h : WritesInitializer init w)

/-- Decoding an expression statement gets as far as writing out an expression. -/
inductive WritesExpressionStatement (v w : Value) : Prop
  | intro {expression : Value} {type : String} (hshape : expect expressionShape v = .ok expression)
      (htype : typeOf expression = .ok type) (hname : ExpressionType.ofName? type = some .call)
      (h : WritesCall expression w)

/-- A conditional is decoded up to its branches. -/
inductive OpensBranches (v consequent alternate : Value) : Prop
  | intro {type name : String} {test : Value} (htype : typeOf v = .ok type)
      (hname : StatementType.ofName? type = some .conditional)
      (hshape : expect conditionalShape v = .ok (test, consequent, some alternate))
      (htest : typeOf test = .ok "Identifier") (hidentifier : identifier test = .ok name)

/-- Decoding a statement gets as far as writing out an expression. -/
inductive WritesStatement : Value → Value → Prop
  | declaration {v w : Value} {type : String} (htype : typeOf v = .ok type)
      (hname : StatementType.ofName? type = some .declaration) (h : WritesDeclaration v w) :
      WritesStatement v w
  | expression {v w : Value} {type : String} (htype : typeOf v = .ok type)
      (hname : StatementType.ofName? type = some .expression) (h : WritesExpressionStatement v w) :
      WritesStatement v w
  | consequent {v w consequent alternate item : Value} {items : List Value}
      (hopens : OpensBranches v consequent alternate) (hitems : branchItems consequent = .ok items)
      (hreaches : Reaches statement items item) (hitem : WritesStatement item w) :
      WritesStatement v w
  | alternate {v w consequent alternate item : Value} {thenItems items : List Value}
      {thenBranch : List (Option Node)} (hopens : OpensBranches v consequent alternate)
      (hthen : branchItems consequent = .ok thenItems)
      (hdecoded : thenItems.mapM statement = .ok thenBranch)
      (hitems : branchItems alternate = .ok items) (hreaches : Reaches statement items item)
      (hitem : WritesStatement item w) : WritesStatement v w

/-- Decoding a program gets as far as writing out an expression. -/
inductive Writes (v w : Value) : Prop
  | intro {items : List Value} {item : Value} (hshape : expect (bodyShape "Program") v = .ok items)
      (hreaches : Reaches statement items item) (hitem : WritesStatement item w)

/-! ### Why decoding stops -/

/-- Why decoding a tree stops, where `writes` holds of the expressions that are written out. -/
inductive Stops (writes : Value → Prop) (v : Value) : Error → Prop
  | refusal {e : Error} (h : e.kind ∈ refusals) : Stops writes v e
  | digits (h : v.hasText = false) : Stops writes v .tooManyDigits
  | gap {e : Error} {w : Value} (hw : writes w) (hkind : e.kind ∈ gaps) (hincomplete : ¬ Complete w)
      (htext : expressionText w = .error e) : Stops writes v e

section

variable {writes writes' : Value → Prop} {v w : Value} {e : Error} {α : Type}

namespace Stops

theorem of_schema (h : e.kind = .schema) : Stops writes v e := .refusal (by rw [h]; decide)

theorem of_unsupportedNode (description : String) : Stops writes v (.unsupportedNode description) :=
  .refusal (List.mem_cons_of_mem _ List.mem_cons_self)

theorem imp (h : Stops writes w e) (htext : w.hasText = false → v.hasText = false)
    (hwrites : ∀ u, writes u → writes' u) : Stops writes' v e := by
  cases h with
  | refusal hkind => exact .refusal hkind
  | digits hdigits => exact .digits (htext hdigits)
  | gap hw hkind hincomplete herror => exact .gap (hwrites _ hw) hkind hincomplete herror

/-- What stops the decoding of a part stops that of the whole. -/
theorem of_part (hpart : Part v w) (h : Stops writes w e) (hwrites : ∀ u, writes u → writes' u) :
    Stops writes' v e :=
  h.imp hpart.hasText_eq_false hwrites

theorem of_expressionText (hw : writes v) (h : expressionText v = .error e) : Stops writes v e := by
  cases TextFault.of_textWithin (Nat.le_refl _) h with
  | unknown type => exact of_unsupportedNode _
  | digits htext => exact .digits htext
  | gap hkind hincomplete => exact .gap hw hkind hincomplete h

theorem of_typeText {fields : List (String × Value)} (h : typeText fields = .error e) :
    Stops writes (.object fields) e := by
  obtain ⟨rfl, htext⟩ := eq_of_writtenText h
  exact .digits (hasText_eq_false_of_getD htext)

theorem of_typeOf (h : typeOf v = .error e) : Stops writes v e := by
  cases v with
  | object fields => exact of_typeText h
  | _ =>
    cases h
    exact of_schema rfl

theorem of_expect {shape : List (String × Value) → Option α} (h : expect shape v = .error e) :
    Stops writes v e := by
  cases v with
  | object fields =>
    rw [expect] at h
    split at h
    · cases h
    · rcases bind_eq_error_iff.1 h with h | ⟨type, -, h⟩
      · unfold typeLabel at h
        split at h
        · exact of_typeText h
        · cases h
      · cases h
        exact of_schema rfl
  | _ =>
    cases h
    exact of_schema rfl

theorem of_negatedNumber? (h : negatedNumber? v = .error e) : Stops writes v e := by
  rcases bind_eq_error_iff.1 h with h | ⟨⟨operator, argument⟩, hshape, h⟩
  · exact of_expect h
  have hpart := part_of_unaryShape hshape
  dsimp only at h
  split at h
  · cases h
  rcases bind_eq_error_iff.1 h with h | ⟨type, -, h⟩
  · exact of_part hpart (of_typeOf h) fun _ => id
  split at h
  · cases h
  rcases bind_eq_error_iff.1 h with h | ⟨literal, -, h⟩
  · exact of_part hpart (of_expect h) fun _ => id
  split at h <;> cases h

/-- An argument is refused, or stops at an expression that it writes out.  The induction is on the height,
through the elements of arrays. -/
theorem of_argument (h : argument v = .error e) : Stops (WritesArgument v) v e := by
  induction hheight : v.height using Nat.strongRecOn generalizing v with
  | ind height ih =>
    rw [argument_eq] at h
    unfold argumentStep at h
    split at h
    · next fields =>
      split at h
      · exact of_expect (eq_error_of_bind_pure h)
      · exact of_expect (eq_error_of_bind_pure h)
      · next htype =>
        rcases bind_eq_error_iff.1 h with h | ⟨items, hitems, h⟩
        · exact of_expect h
        obtain ⟨item, hreaches, hitem⟩ := mapM_eq_error_iff.1 (eq_error_of_bind_pure h)
        have hpart := part_of_arrayShape hitems item hreaches.mem
        cases item with
        | null =>
          cases hitem
          exact of_schema rfl
        | _ =>
          exact of_part hpart (ih _ (hheight ▸ hpart.height_lt) hitem rfl) fun u hu =>
            .element htype hitems hreaches hu
      · next htype =>
        rcases bind_eq_error_iff.1 h with h | ⟨number, hnumber, h⟩
        · exact of_negatedNumber? h
        cases number with
        | some value => cases h
        | none => exact of_expressionText (.unary htype hnumber) (eq_error_of_bind_pure h)
      · next hliteral hidentifier harray hunary =>
        refine of_expressionText (.whole ?_) (eq_error_of_bind_pure h)
        simpa using ⟨hliteral, hidentifier, harray, hunary⟩
    · cases h
      exact of_schema rfl

theorem of_call (h : call v = .error e) : Stops (WritesCall v) v e := by
  rcases bind_eq_error_iff.1 h with h | ⟨⟨function, items⟩, hshape, h⟩
  · exact of_expect h
  obtain ⟨hfunction, hitems⟩ := part_of_callShape hshape
  rcases bind_eq_error_iff.1 h with h | ⟨name, hname, h⟩
  · rcases bind_eq_error_iff.1 h with h | ⟨type, htype, h⟩
    · exact of_part hfunction (of_typeOf h) fun _ => id
    · split at h
      · exact of_part hfunction (of_expect h) fun _ => id
      · next hne =>
        exact of_part hfunction (of_expressionText (.callee hshape htype hne) h) fun _ => id
  rcases bind_eq_error_iff.1 h with h | ⟨args, -, h⟩
  · obtain ⟨item, hreaches, hitem⟩ := mapM_eq_error_iff.1 h
    exact of_part (hitems item hreaches.mem) (of_argument hitem) fun u hu =>
      .argument hshape hname hreaches hu
  dsimp only at h
  split at h
  · cases h
    exact of_schema rfl
  · cases h

theorem of_initializer (h : initializer v = .error e) : Stops (WritesInitializer v) v e := by
  rcases bind_eq_error_iff.1 h with h | ⟨type, htype, h⟩
  · exact of_typeOf h
  split at h
  · next hname =>
    rcases bind_eq_error_iff.1 h with h | ⟨_, -, h⟩
    · exact (of_call h).imp id fun u hu => .call htype hname hu
    · cases h
  · exact of_expect (eq_error_of_bind_pure h)
  · exact of_expect (eq_error_of_bind_pure h)
  · next hname => exact (of_argument h).imp id fun u hu => .array htype hname hu
  · rcases bind_eq_error_iff.1 h with h | ⟨number, -, h⟩
    · exact of_negatedNumber? h
    · cases number with
      | some value => cases h
      | none =>
        cases h
        exact of_unsupportedNode _
  · cases h
    exact of_unsupportedNode _

theorem of_declaration (h : declaration v = .error e) : Stops (WritesDeclaration v) v e := by
  rcases bind_eq_error_iff.1 h with h | ⟨declarators, hshape, h⟩
  · exact of_expect h
  have hparts := part_of_declarationShape hshape
  split at h
  · next declarator =>
    have hdeclaratorPart := hparts declarator (by simp)
    rcases bind_eq_error_iff.1 h with h | ⟨⟨target, init⟩, hdeclarator, h⟩
    · exact of_part hdeclaratorPart (of_expect h) fun _ => id
    obtain ⟨htarget, hinit⟩ := part_of_declaratorShape hdeclarator
    rcases bind_eq_error_iff.1 h with h | ⟨type, htype, h⟩
    · exact of_part hdeclaratorPart (of_part htarget (of_typeOf h) fun _ => id) fun _ => id
    dsimp only at h
    split at h
    · cases h
      exact of_unsupportedNode _
    · next hne =>
      rcases bind_eq_error_iff.1 h with h | ⟨name, hname, h⟩
      · exact of_part hdeclaratorPart (of_part htarget (of_expect h) fun _ => id) fun _ => id
      cases init with
      | none =>
        cases h
        exact .refusal (by simp [refusals, Error.kind])
      | some init =>
        have hstops := of_initializer (eq_error_of_bind_pure h)
        refine of_part hdeclaratorPart (of_part (hinit init rfl) hstops fun _ => id) fun u hu => ?_
        exact .intro hshape hdeclarator (by rw [htype, not_not.1 hne]) hname hu
  · cases h
    exact of_schema rfl

theorem of_expressionStatement (h : expressionStatement v = .error e) :
    Stops (WritesExpressionStatement v) v e := by
  rcases bind_eq_error_iff.1 h with h | ⟨expression, hshape, h⟩
  · exact of_expect h
  have hpart := part_of_expressionShape hshape
  rcases bind_eq_error_iff.1 h with h | ⟨type, htype, h⟩
  · exact of_part hpart (of_typeOf h) fun _ => id
  split at h
  · exact of_part hpart (of_expect (eq_error_of_bind_pure h)) fun _ => id
  · next hname =>
    rcases bind_eq_error_iff.1 h with h | ⟨⟨name, args⟩, -, h⟩
    · exact of_part hpart (of_call h) fun u hu => .intro hshape htype hname hu
    dsimp only at h
    split at h
    · have htarget := eq_error_of_bind_pure h
      unfold Evidence.target at htarget
      split at htarget
      · cases htarget
      · cases htarget
        exact of_schema rfl
    · cases h
      exact of_unsupportedNode _
  · cases h
    exact of_unsupportedNode _

theorem of_conditional {test : Node} {consequent alternate : List Node}
    (h : Node.conditional test consequent alternate = .error e) : Stops writes v e := by
  unfold Node.conditional at h
  split at h
  · split at h <;> cases h
    exact of_schema rfl
  · cases h
    exact of_schema rfl
  · cases h
    exact of_schema rfl

theorem of_branchItems (h : branchItems v = .error e) : Stops writes v e := by
  rcases bind_eq_error_iff.1 h with h | ⟨type, -, h⟩
  · exact of_typeOf h
  split at h
  · exact of_expect h
  · cases h

/-- A statement is refused, or stops at an expression that it writes out.  The induction is on the height,
through the branches of conditionals. -/
theorem of_statement (h : statement v = .error e) : Stops (WritesStatement v) v e := by
  induction hheight : v.height using Nat.strongRecOn generalizing v with
  | ind height ih =>
    have hbranch : ∀ {branch item : Value} {items : List Value}, Part v branch →
        branchItems branch = .ok items → Reaches statement items item → statement item = .error e →
        (∀ u, WritesStatement item u → WritesStatement v u) → Stops (WritesStatement v) v e := by
      intro branch item items hpart hitems hreaches hitem hwrites
      rcases part_of_branchItems hitems item hreaches.mem with hinner | rfl
      · have hlt := Nat.lt_trans hinner.height_lt hpart.height_lt
        have hstops := ih _ (hheight ▸ hlt) hitem rfl
        exact hstops.imp (fun ht => hpart.hasText_eq_false (hinner.hasText_eq_false ht)) hwrites
      · exact of_part hpart (ih _ (hheight ▸ hpart.height_lt) hitem rfl) hwrites
    rw [statement_eq] at h
    rcases bind_eq_error_iff.1 h with h | ⟨type, htype, h⟩
    · exact of_typeOf h
    split at h
    · cases h
    · next hname =>
      exact (of_declaration (eq_error_of_bind_pure h)).imp id fun u hu => .declaration htype hname hu
    · next hname =>
      exact (of_expressionStatement (eq_error_of_bind_pure h)).imp id fun u hu =>
        .expression htype hname hu
    · next hname =>
      rcases bind_eq_error_iff.1 h with h | ⟨⟨test, consequent, alternate⟩, hshape, h⟩
      · exact of_expect h
      obtain ⟨htestPart, hconsequent, halternate⟩ := part_of_conditionalShape hshape
      rcases bind_eq_error_iff.1 h with h | ⟨testType, htest, h⟩
      · exact of_part htestPart (of_typeOf h) fun _ => id
      dsimp only at h
      split at h
      · cases h
        exact of_unsupportedNode _
      next hne =>
      cases alternate with
      | none =>
        cases h
        exact of_schema rfl
      | some alternate =>
        rcases bind_eq_error_iff.1 h with h | ⟨name, hidentifier, h⟩
        · exact of_part htestPart (of_expect h) fun _ => id
        have hopens : OpensBranches v consequent alternate :=
          .intro htype hname hshape (by rw [htest, not_not.1 hne]) hidentifier
        rcases bind_eq_error_iff.1 h with h | ⟨thenItems, hthen, h⟩
        · exact of_part hconsequent (of_branchItems h) fun _ => id
        rcases bind_eq_error_iff.1 h with h | ⟨thenBranch, hdecoded, h⟩
        · obtain ⟨item, hreaches, hitem⟩ := mapM_eq_error_iff.1 h
          exact hbranch hconsequent hthen hreaches hitem fun u hu =>
            .consequent hopens hthen hreaches hu
        rcases bind_eq_error_iff.1 h with h | ⟨elseItems, helse, h⟩
        · exact of_part (halternate _ rfl) (of_branchItems h) fun _ => id
        rcases bind_eq_error_iff.1 h with h | ⟨elseBranch, -, h⟩
        · obtain ⟨item, hreaches, hitem⟩ := mapM_eq_error_iff.1 h
          exact hbranch (halternate _ rfl) helse hreaches hitem fun u hu =>
            .alternate hopens hthen hdecoded helse hreaches hu
        exact of_conditional (eq_error_of_bind_pure h)
    · cases h
      exact of_unsupportedNode _

theorem of_program (h : program v = .error e) : Stops (Writes v) v e := by
  rcases bind_eq_error_iff.1 h with h | ⟨items, hshape, h⟩
  · exact of_expect h
  obtain ⟨item, hreaches, hitem⟩ := mapM_eq_error_iff.1 (eq_error_of_bind_pure h)
  exact of_part (part_of_bodyShape hshape item hreaches.mem) (of_statement hitem) fun u hu =>
    .intro hshape hreaches hu

end Stops

/-! ### The error of what is written out -/

theorem argument_of_writes (h : WritesArgument v w) (htext : expressionText w = .error e) :
    argument v = .error e := by
  induction h with
  | whole htype =>
    simp only [List.mem_cons, List.not_mem_nil, or_false, not_or] at htype
    obtain ⟨hliteral, hidentifier, harray, hunary⟩ := htype
    rw [argument_eq]
    unfold argumentStep
    dsimp only
    split
    · contradiction
    · contradiction
    · contradiction
    · contradiction
    · exact bind_eq_error_iff.2 (.inl htext)
  | unary htype hnumber =>
    rw [argument_eq]
    simp only [argumentStep, htype]
    exact bind_eq_error_iff.2 (.inr ⟨none, hnumber, bind_eq_error_iff.2 (.inl htext)⟩)
  | @element fields items item w htype hitems hreaches hitem ih =>
    have helement : element argument item = .error e := by
      cases hitem <;> exact ih htext
    rw [argument_eq]
    simp only [argumentStep, htype]
    refine bind_eq_error_iff.2 (.inr ⟨items, hitems, bind_eq_error_iff.2 (.inl ?_)⟩)
    exact mapM_eq_error_iff.2 ⟨item, hreaches, helement⟩

theorem call_of_writes (h : WritesCall v w) (htext : expressionText w = .error e) :
    call v = .error e := by
  cases h with
  | callee hshape htype hne =>
    refine bind_eq_error_iff.2 (.inr ⟨_, hshape, bind_eq_error_iff.2 (.inl ?_)⟩)
    refine bind_eq_error_iff.2 (.inr ⟨_, htype, ?_⟩)
    rw [if_neg hne, htext]
  | argument hshape hname hreaches hitem =>
    refine bind_eq_error_iff.2 (.inr ⟨_, hshape, bind_eq_error_iff.2 (.inr ⟨_, hname, ?_⟩)⟩)
    refine bind_eq_error_iff.2 (.inl ?_)
    exact mapM_eq_error_iff.2 ⟨_, hreaches, argument_of_writes hitem htext⟩

theorem initializer_of_writes (h : WritesInitializer v w) (htext : expressionText w = .error e) :
    initializer v = .error e := by
  cases h with
  | call htype hname hcall =>
    refine bind_eq_error_iff.2 (.inr ⟨_, htype, ?_⟩)
    simp only [hname]
    exact bind_eq_error_iff.2 (.inl (call_of_writes hcall htext))
  | array htype hname hargument =>
    refine bind_eq_error_iff.2 (.inr ⟨_, htype, ?_⟩)
    simp only [hname]
    exact argument_of_writes hargument htext

theorem declaration_of_writes (h : WritesDeclaration v w) (htext : expressionText w = .error e) :
    declaration v = .error e := by
  cases h with
  | intro hshape hdeclarator htype hname hinit =>
    refine bind_eq_error_iff.2 (.inr ⟨_, hshape, ?_⟩)
    refine bind_eq_error_iff.2 (.inr ⟨_, hdeclarator, bind_eq_error_iff.2 (.inr ⟨_, htype, ?_⟩)⟩)
    refine bind_eq_error_iff.2 (.inr ⟨_, hname, bind_eq_error_iff.2 (.inl ?_)⟩)
    exact initializer_of_writes hinit htext

theorem expressionStatement_of_writes (h : WritesExpressionStatement v w)
    (htext : expressionText w = .error e) : expressionStatement v = .error e := by
  cases h with
  | intro hshape htype hname hcall =>
    refine bind_eq_error_iff.2 (.inr ⟨_, hshape, bind_eq_error_iff.2 (.inr ⟨_, htype, ?_⟩)⟩)
    simp only [hname]
    exact bind_eq_error_iff.2 (.inl (call_of_writes hcall htext))

theorem statement_of_opensBranches {consequent alternate : Value}
    (h : OpensBranches v consequent alternate) :
    ∃ test, statement v = (do
      let thenItems ← branchItems consequent
      let thenBranch ← thenItems.mapM statement
      let elseItems ← branchItems alternate
      let elseBranch ← elseItems.mapM statement
      let node ← Node.conditional (.var test) (thenBranch.filterMap id) (elseBranch.filterMap id)
      return some node) := by
  cases h with
  | @intro type name test htype hname hshape htest hidentifier =>
    refine ⟨name, ?_⟩
    rw [statement_eq]
    simp only [statementStep, htype, hname, hshape, htest, hidentifier, bind, Except.bind]
    rfl

theorem statement_of_writes (h : WritesStatement v w) (htext : expressionText w = .error e) :
    statement v = .error e := by
  induction h with
  | declaration htype hname hdeclaration =>
    rw [statement_eq]
    refine bind_eq_error_iff.2 (.inr ⟨_, htype, ?_⟩)
    simp only [hname]
    exact bind_eq_error_iff.2 (.inl (declaration_of_writes hdeclaration htext))
  | expression htype hname hexpression =>
    rw [statement_eq]
    refine bind_eq_error_iff.2 (.inr ⟨_, htype, ?_⟩)
    simp only [hname]
    exact bind_eq_error_iff.2 (.inl (expressionStatement_of_writes hexpression htext))
  | consequent hopens hitems hreaches hitem ih =>
    obtain ⟨test, hstatement⟩ := statement_of_opensBranches hopens
    rw [hstatement]
    refine bind_eq_error_iff.2 (.inr ⟨_, hitems, bind_eq_error_iff.2 (.inl ?_)⟩)
    exact mapM_eq_error_iff.2 ⟨_, hreaches, ih htext⟩
  | alternate hopens hthen hdecoded hitems hreaches hitem ih =>
    obtain ⟨test, hstatement⟩ := statement_of_opensBranches hopens
    rw [hstatement]
    refine bind_eq_error_iff.2 (.inr ⟨_, hthen, bind_eq_error_iff.2 (.inr ⟨_, hdecoded, ?_⟩)⟩)
    refine bind_eq_error_iff.2 (.inr ⟨_, hitems, bind_eq_error_iff.2 (.inl ?_)⟩)
    exact mapM_eq_error_iff.2 ⟨_, hreaches, ih htext⟩

theorem program_of_writes (h : Writes v w) (htext : expressionText w = .error e) :
    program v = .error e := by
  cases h with
  | intro hshape hreaches hitem =>
    refine bind_eq_error_iff.2 (.inr ⟨_, hshape, bind_eq_error_iff.2 (.inl ?_)⟩)
    exact mapM_eq_error_iff.2 ⟨_, hreaches, statement_of_writes hitem htext⟩

theorem body_of_program {body : List Node} (h : program v = .ok body) : Body body := by
  obtain ⟨items, -, h⟩ := bind_eq_ok_iff.1 h
  obtain ⟨decoded, hdecoded, h⟩ := bind_eq_ok_iff.1 h
  cases h
  exact body_filterMap hdecoded fun _ _ => body_of_statementWithin

theorem complete_of_program {body : List Node} (h : program v = .ok body) (hw : Writes v w) :
    Complete w := by
  cases htext : expressionText w with
  | ok text => exact complete_of_textWithin htext
  | error e =>
    rw [program_of_writes hw htext] at h
    cases h

end

/-! ### Trees as programs -/

theorem result_program_tree (fields : List (String × Value)) :
    (Source.tree (.object fields)).program.result = program (.object fields) := by
  rw [Source.program, Source.ofTree]
  cases program (.object fields) <;> rfl

/-- A tree is decoded to a program, is refused, or holds an integer of too many digits, unless an expression
in it that is to be written out is not complete.  Then its error is the outcome. -/
theorem outcome_of_tree (v : Value) :
    (∀ body, (Source.tree v).program.result = .ok body → Body body ∧ ∀ w, Writes v w → Complete w) ∧
      (∀ e, (Source.tree v).program.result = .error e →
        e.kind ∈ refusals ∨ (e = .tooManyDigits ∧ v.hasText = false) ∨
          (e.kind ∈ gaps ∧ ∃ w, Writes v w ∧ ¬ Complete w ∧ expressionText w = .error e)) ∧
      ∀ w e, Writes v w → expressionText w = .error e →
        (Source.tree v).program.result = .error e := by
  cases v with
  | object fields =>
    rw [result_program_tree]
    refine ⟨fun body h => ⟨body_of_program h, fun w => complete_of_program h⟩, fun e h => ?_,
      fun w e => program_of_writes⟩
    cases Stops.of_program h with
    | refusal hkind => exact .inl hkind
    | digits htext => exact .inr (.inl ⟨rfl, htext⟩)
    | gap hw hkind hincomplete htext => exact .inr (.inr ⟨hkind, _, hw, hincomplete, htext⟩)
  | _ =>
    -- Only an object is decoded, so nothing is written out.
    refine ⟨fun body h => (by cases h), fun e h => ?_, fun w e hw => ?_⟩
    · cases h
      exact .inl (by simp [refusals, Error.kind])
    · cases hw with
      | intro hshape _ _ => cases hshape

/-- The tree of an identifier. -/
def identifierTree (name : String) : Value := tree "Identifier" [("name", .str name)]

/-- The tree of a call of `f` with these arguments. -/
def callTree (items : Value) : Value :=
  tree "CallExpression" [("callee", identifierTree "f"), ("arguments", items)]

/-- The tree of the program that declares one variable, by a call with one argument. -/
def declarationTree (argument : Value) : Value :=
  tree "Program" [("body", .list [tree "VariableDeclaration" [("declarations", .list
    [tree "VariableDeclarator"
      [("id", identifierTree "x"), ("init", callTree (.list [argument]))]])]])]

/-- The tree of an array with a hole. -/
def sparseTree : Value := tree "ArrayExpression" [("elements", .list [identifierTree "a", .null])]

/-- A hole in an argument of a call is refused.  One call further down it is not. -/
theorem outcome_of_tree_sparse :
    let inner := callTree (.list [sparseTree])
    (Source.tree (declarationTree sparseTree)).program.result = .error .sparseArray ∧
      Writes (declarationTree inner) inner ∧
      (Source.tree (declarationTree inner)).program.result = .error .noFields := by
  intro inner
  have hw : Writes (declarationTree inner) inner :=
    .intro rfl ⟨[], [], [], rfl, rfl⟩ (.declaration rfl rfl (.intro rfl rfl rfl rfl
      (.call rfl rfl (.argument rfl rfl ⟨[], [], [], rfl, rfl⟩ (.whole (by decide))))))
  exact ⟨rfl, hw, (outcome_of_tree _).2.2 _ _ hw rfl⟩

/-- Each kind of gap is met: a field that is missing, a hole where an expression should be, and a number
where a list should be.  None of them is a refusal. -/
theorem not_refused_of_gap :
    (Source.tree (declarationTree (tree "MemberExpression" []))).program.result =
        .error (.missingField "object") ∧
      (Source.tree (declarationTree (callTree (.list [sparseTree])))).program.result =
        .error .noFields ∧
      (Source.tree (declarationTree (callTree (.int 1)))).program.result = .error .notIterable ∧
      ∀ e ∈ [Error.missingField "object", .noFields, .notIterable], e.kind ∉ refusals :=
  ⟨rfl, rfl, rfl, by decide⟩

end TraceGraph.Estree
