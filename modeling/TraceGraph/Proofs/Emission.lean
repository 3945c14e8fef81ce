import TraceGraph.Proofs.Traversal

/-!
# What a compilation emits

A compilation that succeeds adds statements, notices and types to its scope and leaves the rest alone.
What it adds is an `Emission`, and the rules for it are given here as relations that do not mention the
scope:

* `Yields c depth types node e`: a statement other than a conditional yields `e`, where `types` are
  the types known before it;
* `Supplies c assigned merge branch types value text type e`: a branch supplies `text` as the value of
  the merge variable, and yields `e` for it;
* `Emits c assigned depth types body e`: a body emits `e`.

`Proofs/Pass.lean` shows that the pass follows these rules.  What holds of accepted programs is proved
by induction on `Emits`.
-/

namespace TraceGraph.Compiler

open Trace (Depth branchText)

/-! ### Emissions -/

/-- What a part of a compilation adds to its scope. -/
@[ext]
structure Emission where
  output : List Java.Statement := []
  notices : List Notice := []
  /-- The variables that are declared with their types, the latest first. -/
  types : List (String × VariableType) := []

namespace Emission

instance : Append Emission where
  append a b :=
    { output := a.output ++ b.output, notices := a.notices ++ b.notices, types := b.types ++ a.types }

@[simp] theorem output_append (a b : Emission) : (a ++ b).output = a.output ++ b.output := rfl

@[simp] theorem notices_append (a b : Emission) : (a ++ b).notices = a.notices ++ b.notices := rfl

@[simp] theorem types_append (a b : Emission) : (a ++ b).types = b.types ++ a.types := rfl

@[simp] theorem append_empty (e : Emission) : e ++ ({} : Emission) = e := by
  ext1 <;> simp

@[simp] theorem empty_append (e : Emission) : ({} : Emission) ++ e = e := by
  ext1 <;> simp

theorem append_assoc (a b c : Emission) : a ++ b ++ c = a ++ (b ++ c) := by
  ext1 <;> simp [List.append_assoc]

theorem notices_append_output (notices : List Notice) (output : List Java.Statement) :
    ({ notices } ++ { output } : Emission) = { output, notices } := by
  ext1 <;> simp

theorem notices_append_types_append_output (notices : List Notice)
    (types : List (String × VariableType)) (output : List Java.Statement) :
    ({ notices } ++ ({ types } ++ { output }) : Emission) = { output, notices, types } := by
  ext1 <;> simp

/-- The types that are known after an emission. -/
def after (e : Emission) (types : List (String × VariableType)) : List (String × VariableType) :=
  e.types ++ types

@[simp] theorem after_append (a b : Emission) (types : List (String × VariableType)) :
    (a ++ b).after types = b.after (a.after types) := by
  simp [after]

/-- A variable with its factor. -/
def ofVariable (type : VariableType) (name factor : String) (inputs : List String)
    (notices : List Notice) : Emission :=
  { output := [.declareVariable type.name name [], .addFactor factor name [] inputs]
    notices
    types := [(name, type)] }

/-- A variable whose type may be unknown: then it is a bit, which is worth a notice. -/
def ofOptionalType (type : Option VariableType) (name factor : String) (inputs : List String)
    (notice : Notice) : Emission :=
  ofVariable (type.getD .bit) name factor inputs (if type.isSome then [] else [notice])

/-- A described call. -/
def described (name : String) (d : Factor.Descriptor) (notices : List Notice) : Emission :=
  { output := d.statements, notices, types := [(name, d.variableType)] }

end Emission

/-! ### The rules -/

section

variable (c : Compiler)

/-- A piece of evidence. -/
def Emission.observation (types : List (String × VariableType)) (kind : EvidenceKind) (name : String)
    (statement : Java.Statement) : Emission :=
  { output := [statement]
    notices :=
      Evidence.notices c.settings name ((types.lookup name).map VariableType.name) kind }

/-- What a statement other than a conditional yields, from the types known before it. -/
inductive Yields : Depth → List (String × VariableType) → Node → Emission → Prop
  | call {depth : Depth} {types : List (String × VariableType)} {name callee : String}
      {args : List Node} {d : Factor.Descriptor}
      (hkind : EvidenceKind.ofName? callee = none)
      (hdescribe : (Factor.describe c.settings c.find name callee args).result = .ok d) :
      Yields depth types (.assign name (.call callee args))
        (.described name d (Factor.describe c.settings c.find name callee args).notices)
  | copy (depth : Depth) (types : List (String × VariableType)) (name source : String) :
      Yields depth types (.assign name (.var source))
        (.ofOptionalType (types.lookup source) name c.settings.aliasFactor [source]
          (.aliasUntyped name source))
  | literal {depth : Depth} {types : List (String × VariableType)} {name type text : String}
      {value : Literal} (htype : localType name value = .ok type) (htext : value.java = .ok text) :
      Yields depth types (.assign name (.const value)) { output := [.declareLocal type name text] }
  | array {depth : Depth} {types : List (String × VariableType)} {name text : String}
      {elements : List Node} (helements : elements ≠ [])
      (htext : (Node.array elements).java = .ok text) :
      Yields depth types (.assign name (.array elements))
        { output := [.declareLocal (Node.elementType elements ++ "[]") name text] }
  | evidence {types : List (String × VariableType)} {kind : EvidenceKind} {name : String}
      {statement : Java.Statement} (h : Evidence.statement c.settings name kind = .ok statement) :
      Yields .top types (.evidence kind name) (.observation c types kind name statement)
  | evidenceCall {types : List (String × VariableType)} {name callee target : String}
      {kind : EvidenceKind} {statement : Java.Statement}
      (hkind : EvidenceKind.ofName? callee = some kind)
      (h : Evidence.statement c.settings target kind = .ok statement) :
      Yields .top types (.assign name (.call callee [.var target]))
        (.observation c types kind target statement)
  | query (types : List (String × VariableType)) (name : String) :
      Yields .top types (.query name)
        { output :=
            [.setIterations c.settings.iterations, .solve,
             .extractBelief c.settings.beliefName name, .printBelief c.settings.beliefName] }

/-- The type of a literal that is the value of a branch, if it has one. -/
def literalType? : Literal → Option VariableType
  | .bool _ => some .bit
  | value => if value.isNumber then some .real else none

/-- What a branch supplies as the value of the merge variable, as text and with its type, and what it
yields for that. -/
inductive Supplies (assigned : List String) (merge : String) (branch : Branch)
    (types : List (String × VariableType)) :
    Node → String → Option VariableType → Emission → Prop
  | var (name : String) :
      Supplies assigned merge branch types (.var name) name (types.lookup name) {}
  | literal {value : Literal} {text : String} (htext : branchText value = .ok text) :
      Supplies assigned merge branch types (.const value) text (literalType? value) {}
  | call {callee : String} {args : List Node} {d : Factor.Descriptor}
      (hkind : EvidenceKind.ofName? callee = none)
      (hnew : types.lookup (branch.variableName merge) = none)
      (hfree : branch.variableName merge ∉ assigned)
      (hdescribe : (Factor.describe c.settings c.find (branch.variableName merge) callee args).result
        = .ok d) :
      Supplies assigned merge branch types (.call callee args) (branch.variableName merge)
        (some d.variableType)
        (.described (branch.variableName merge) d
          (Factor.describe c.settings c.find (branch.variableName merge) callee args).notices)

/-- The merge variable of a conditional. -/
def Emission.merge (merge : String) (type : Option VariableType)
    (test alternate consequent : String) : Emission :=
  .ofOptionalType type merge c.settings.multiplexerFactor [test, alternate, consequent]
    (.mergeUntyped merge)

/-- What a body emits.  A conditional emits both of its branches, and then the merge variable. -/
inductive Emits (assigned : List String) :
    Depth → List (String × VariableType) → List Node → Emission → Prop
  | nil (depth : Depth) (types : List (String × VariableType)) : Emits assigned depth types [] {}
  | step {depth : Depth} {types : List (String × VariableType)} {node : Node} {rest : List Node}
      {e e' : Emission} (hquery : queried? node = none ∨ rest = [])
      (hnode : Yields c depth types node e) (hrest : Emits assigned depth (e.after types) rest e') :
      Emits assigned depth types (node :: rest) (e ++ e')
  | choice {depth : Depth} {types : List (String × VariableType)} {test merge : String}
      {thenBody elseBody rest : List Node} {thenValue elseValue : Node}
      {consequent alternate : String} {thenType elseType : Option VariableType}
      {e₁ e₂ e₃ e₄ e₅ : Emission}
      (hthen : Emits assigned .inner types thenBody e₁)
      (hthenValue : Supplies c assigned merge .consequent (e₁.after types) thenValue consequent
        thenType e₂)
      (helse : Emits assigned .inner ((e₁ ++ e₂).after types) elseBody e₃)
      (helseValue : Supplies c assigned merge .alternate ((e₁ ++ e₂ ++ e₃).after types) elseValue
        alternate elseType e₄)
      (hrest : Emits assigned depth
        ((e₁ ++ e₂ ++ e₃ ++ e₄ ++
          .merge c merge (thenType <|> elseType) test alternate consequent).after types) rest e₅) :
      Emits assigned depth types
        (.choice (.var test) merge thenBody thenValue elseBody elseValue :: rest)
        (e₁ ++ e₂ ++ e₃ ++ e₄ ++
          .merge c merge (thenType <|> elseType) test alternate consequent ++ e₅)

end

/-! ### Statement by statement -/

section

variable {c : Compiler}

/-- Inside a branch there is neither evidence nor a query; all else is the same there. -/
theorem yields_inner_iff {types : List (String × VariableType)} {node : Node} {e : Emission} :
    Yields c .inner types node e ↔
      Yields c .top types node e ∧ isEvidence node = false ∧ queried? node = none := by
  constructor
  · intro h
    cases h with
    | call hkind hd => exact ⟨.call hkind hd, by simp [isEvidence, hkind], rfl⟩
    | copy => exact ⟨.copy _ _ _ _, rfl, rfl⟩
    | literal htype htext => exact ⟨.literal htype htext, rfl, rfl⟩
    | array helements htext => exact ⟨.array helements htext, rfl, rfl⟩
  · rintro ⟨h, hevidence, hquery⟩
    cases h with
    | call hkind hd => exact .call hkind hd
    | copy => exact .copy _ _ _ _
    | literal htype htext => exact .literal htype htext
    | array helements htext => exact .array helements htext
    | evidence => cases hevidence
    | evidenceCall hkind _ => simp [isEvidence, hkind] at hevidence
    | query => cases hquery

/-- A body emits what its first statement does, and then what the others do. -/
theorem emits_cons_iff {assigned : List String} {depth : Depth}
    {types : List (String × VariableType)} {node : Node} {rest : List Node} {e : Emission} :
    Emits c assigned depth types (node :: rest) e ↔
      (queried? node = none ∨ rest = []) ∧ ∃ e₁ e₂, Emits c assigned depth types [node] e₁ ∧
        Emits c assigned depth (e₁.after types) rest e₂ ∧ e = e₁ ++ e₂ := by
  constructor
  · intro h
    cases h with
    | @step _ _ _ _ e₁ e₂ hquery hnode hrest =>
      refine ⟨hquery, e₁, e₂, ?_, hrest, rfl⟩
      simpa using Emits.step (.inr rfl) hnode (.nil depth _)
    | choice hthen hthenValue helse helseValue hrest =>
      refine ⟨.inl rfl, _, _, ?_, hrest, rfl⟩
      simpa using Emits.choice hthen hthenValue helse helseValue (.nil depth _)
  · rintro ⟨hquery, e₁, e₂, hnode, hrest, rfl⟩
    cases hnode with
    | step _ hnode hnil =>
      cases hnil
      rw [Emission.append_empty] at hrest ⊢
      exact .step hquery hnode hrest
    | choice hthen hthenValue helse helseValue hnil =>
      cases hnil
      rw [Emission.append_empty] at hrest ⊢
      exact .choice hthen hthenValue helse helseValue hrest

/-- What a statement other than a conditional emits is what it yields. -/
theorem emits_singleton_iff {assigned : List String} {depth : Depth}
    {types : List (String × VariableType)} {node : Node} {e : Emission}
    (hchoice : ∀ test merge thenBody thenValue elseBody elseValue,
      node ≠ .choice test merge thenBody thenValue elseBody elseValue) :
    Emits c assigned depth types [node] e ↔ Yields c depth types node e := by
  constructor
  · intro h
    cases h with
    | step _ hnode hnil => cases hnil; simpa using hnode
    | choice => exact absurd rfl (hchoice _ _ _ _ _ _)
  · intro h
    simpa using Emits.step (.inr rfl) h (.nil depth _)

theorem emits_inner_singleton_iff {assigned : List String} {types : List (String × VariableType)}
    {node : Node} {e : Emission} :
    Emits c assigned .inner types [node] e ↔
      Emits c assigned .top types [node] e ∧ isEvidence node = false ∧ queried? node = none := by
  constructor
  · intro h
    cases h with
    | step hquery hnode hnil =>
      cases hnil
      obtain ⟨htop, hevidence⟩ := yields_inner_iff.1 hnode
      exact ⟨.step hquery htop (.nil _ _), hevidence⟩
    | choice hthen hthenValue helse helseValue hnil =>
      cases hnil
      exact ⟨.choice hthen hthenValue helse helseValue (.nil _ _), rfl, rfl⟩
  · rintro ⟨h, hevidence⟩
    cases h with
    | step hquery hnode hnil =>
      cases hnil
      exact .step hquery (yields_inner_iff.2 ⟨hnode, hevidence⟩) (.nil _ _)
    | choice hthen hthenValue helse helseValue hnil =>
      cases hnil
      exact .choice hthen hthenValue helse helseValue (.nil _ _)

end

end TraceGraph.Compiler
