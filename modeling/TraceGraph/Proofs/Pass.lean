import TraceGraph.Proofs.Emission

/-!
# The pass follows the rules

`Proofs/Emission.lean` gives rules for what a program becomes; this file shows that the pass over the
program does what they say, no less and no more.  `Runs step s a t` says that a step succeeds, and each
part of the pass is taken apart by a lemma that says when it runs: single statements, the values of
branches, branches (`branchFollowsRules`), the statements of a program (`runs_visitBody_iff`), and whole
programs (`result_statements_eq_ok_iff`).
-/

namespace TraceGraph.Compiler

open Trace (Depth branchText)

/-- The scope after an emission. -/
def Scope.extend (s : Scope) (e : Emission) : Scope :=
  { s with
    output := s.output ++ e.output, types := e.after s.types, notices := s.notices ++ e.notices }

namespace Scope

@[simp] theorem assigned_extend (s : Scope) (e : Emission) : (s.extend e).assigned = s.assigned := rfl

@[simp] theorem types_extend (s : Scope) (e : Emission) : (s.extend e).types = e.after s.types := rfl

@[simp] theorem extend_extend (s : Scope) (a b : Emission) :
    (s.extend a).extend b = s.extend (a ++ b) := by
  simp [extend, List.append_assoc]

@[simp] theorem extend_empty (s : Scope) : s.extend {} = s := by
  simp [extend, Emission.after]

end Scope

/-! ### Runs that succeed -/

/-- From a scope, the step ends with a value and another scope. -/
def Runs {α : Type} (step : Step α) (s : Scope) (a : α) (t : Scope) : Prop := step.run s = .ok a t

section

variable {α β : Type} {s t : Scope}

@[simp] theorem runs_pure_iff {a b : α} : Runs (pure a) s b t ↔ b = a ∧ t = s := by
  constructor
  · intro h; cases h; exact ⟨rfl, rfl⟩
  · rintro ⟨rfl, rfl⟩; rfl

@[simp] theorem runs_throw_iff {e : Error} {a : α} : Runs (throw e) s a t ↔ False := by
  constructor
  · intro h; cases h
  · exact False.elim

@[simp] theorem runs_bind_iff {step : Step α} {next : α → Step β} {b : β} :
    Runs (step >>= next) s b t ↔ ∃ a r, Runs step s a r ∧ Runs (next a) r b t := by
  simp only [Runs, EStateM.run, bind, EStateM.bind]
  cases step s with
  | ok a r =>
    simp only [EStateM.Result.ok.injEq]
    constructor
    · intro h; exact ⟨a, r, ⟨rfl, rfl⟩, h⟩
    · rintro ⟨_, _, ⟨rfl, rfl⟩, h⟩; exact h
  | error e r => simp

@[simp] theorem runs_modify_iff {f : Scope → Scope} {u : Unit} :
    Runs (modify f) s u t ↔ t = f s := by
  constructor
  · intro h; cases h; rfl
  · rintro rfl; rfl

@[simp] theorem runs_get_iff {r : Scope} : Runs get s r t ↔ r = s ∧ t = s := by
  constructor
  · intro h; cases h; exact ⟨rfl, rfl⟩
  · rintro ⟨rfl, rfl⟩; rfl

@[simp] theorem runs_lift_iff {x : Except Error α} {a : α} :
    Runs (lift x) s a t ↔ x = .ok a ∧ t = s := by
  cases x with
  | ok b => simp [lift, eq_comm]
  | error e => simp [lift]

@[simp] theorem runs_typeOf_iff {name : String} {type : Option VariableType} :
    Runs (typeOf name) s type t ↔ type = s.types.lookup name ∧ t = s := by
  simp only [typeOf, runs_bind_iff, runs_get_iff, runs_pure_iff]
  grind

end

/-! ### Single statements -/

section

variable {c : Compiler} {s t : Scope} {u : Unit}

theorem runs_emit_iff {statements : List Java.Statement} :
    Runs (emit statements) s u t ↔ t = s.extend { output := statements } := by
  simp [emit, Scope.extend, Emission.after]

theorem runs_tell_iff {notices : List Notice} :
    Runs (tell notices) s u t ↔ t = s.extend { notices } := by
  simp [tell, Scope.extend, Emission.after]

theorem runs_declare_iff {name : String} {type : VariableType} :
    Runs (declare name type) s u t ↔ t = s.extend { types := [(name, type)] } := by
  simp [declare, Scope.extend, Emission.after]

theorem runs_emitVariable_iff {type : VariableType} {name factor : String} {inputs : List String} :
    Runs (emitVariable type name factor inputs) s u t ↔
      t = s.extend (.ofVariable type name factor inputs []) := by
  simp [emitVariable, runs_declare_iff, runs_emit_iff]
  rfl

theorem runs_observe_iff {kind : EvidenceKind} {name : String} :
    Runs (c.observe kind name) s u t ↔
      ∃ statement, Evidence.statement c.settings name kind = .ok statement ∧
        t = s.extend (.observation c s.types kind name statement) := by
  simp only [observe, runs_bind_iff, runs_typeOf_iff, runs_lift_iff, runs_tell_iff, runs_emit_iff,
    and_assoc, exists_and_left, exists_eq_left, exists_const, Scope.extend_extend]
  simp only [Emission.notices_append_output, Emission.observation]

theorem runs_assignCall_iff {name callee : String} {args : List Node} :
    Runs (c.assignCall name callee args) s u t ↔
      ∃ d, (Factor.describe c.settings c.find name callee args).result = .ok d ∧
        t = s.extend (.described name d
          (Factor.describe c.settings c.find name callee args).notices) := by
  simp only [assignCall, runs_bind_iff, runs_tell_iff]
  cases (Factor.describe c.settings c.find name callee args).result with
  | error e => simp
  | ok d =>
    simp only [runs_bind_iff, runs_declare_iff, runs_emit_iff, exists_eq_left, exists_const,
      Scope.extend_extend, Except.ok.injEq, exists_eq_left']
    rw [Emission.notices_append_types_append_output, Emission.described]

theorem runs_assignAlias_iff {name source : String} :
    Runs (c.assignAlias name source) s u t ↔
      t = s.extend (.ofOptionalType (s.types.lookup source) name c.settings.aliasFactor [source]
        (.aliasUntyped name source)) := by
  simp only [assignAlias, runs_bind_iff, runs_typeOf_iff, and_assoc, exists_and_left, exists_eq_left]
  cases s.types.lookup source with
  | some type => exact runs_emitVariable_iff
  | none =>
    simp only [runs_bind_iff, runs_tell_iff, runs_emitVariable_iff, exists_eq_left, exists_const,
      Scope.extend_extend]
    rfl

theorem runs_emitMerge_iff {merge test alternate consequent : String} {type : Option VariableType} :
    Runs (c.emitMerge merge type [test, alternate, consequent]) s u t ↔
      t = s.extend (.merge c merge type test alternate consequent) := by
  cases type with
  | some type => exact runs_emitVariable_iff
  | none =>
    simp only [emitMerge, runs_bind_iff, runs_tell_iff, runs_emitVariable_iff, exists_eq_left,
      exists_const, Scope.extend_extend]
    rfl

/-- An assignment runs as the rules say, an evidence call included. -/
theorem runs_assign_iff {name : String} {init : Node} (hinit : Node.Initializer init) :
    Runs (c.assign name init) s u t ↔
      ∃ e, Yields c .top s.types (.assign name init) e ∧ t = s.extend e := by
  cases hinit with
  | @call callee args _ _ =>
    cases hkind : EvidenceKind.ofName? callee with
    | none =>
      simp only [assign, hkind, runs_assignCall_iff]
      constructor
      · rintro ⟨d, hd, rfl⟩
        exact ⟨_, .call hkind hd, rfl⟩
      · rintro ⟨e, he, rfl⟩
        cases he with
        | call _ hd => exact ⟨_, hd, rfl⟩
        | evidenceCall hsome _ => rw [hkind] at hsome; cases hsome
    | some kind =>
      simp only [assign, hkind, runs_bind_iff, runs_lift_iff, runs_observe_iff]
      constructor
      · rintro ⟨target, _, ⟨htarget, rfl⟩, statement, hstatement, rfl⟩
        unfold Evidence.target at htarget
        split at htarget
        · cases htarget
          exact ⟨_, .evidenceCall hkind hstatement, rfl⟩
        · cases htarget
      · rintro ⟨e, he, rfl⟩
        cases he with
        | call hnone _ => rw [hkind] at hnone; cases hnone
        | evidenceCall hsome hstatement =>
          rw [hkind] at hsome
          cases hsome
          exact ⟨_, _, ⟨rfl, rfl⟩, _, hstatement, rfl⟩
  | var _ =>
    simp only [assign, runs_assignAlias_iff]
    constructor
    · rintro rfl
      exact ⟨_, .copy _ _ _ _, rfl⟩
    · rintro ⟨e, he, rfl⟩
      cases he
      rfl
  | const value =>
    simp only [assign, runs_bind_iff, runs_lift_iff, runs_emit_iff]
    constructor
    · rintro ⟨type, _, ⟨htype, rfl⟩, text, _, ⟨htext, rfl⟩, rfl⟩
      exact ⟨_, .literal htype htext, rfl⟩
    · rintro ⟨e, he, rfl⟩
      cases he with
      | literal htype htext => exact ⟨_, _, ⟨htype, rfl⟩, _, _, ⟨htext, rfl⟩, rfl⟩
  | @array elements _ =>
    cases elements with
    | nil =>
      simp only [assign, List.isEmpty_nil, if_true, runs_throw_iff, false_iff]
      rintro ⟨e, he, -⟩
      cases he with
      | array helements _ => exact helements rfl
    | cons first others =>
      simp only [assign, List.isEmpty_cons, Bool.false_eq_true, if_false, runs_bind_iff,
        runs_lift_iff, runs_emit_iff]
      constructor
      · rintro ⟨text, _, ⟨htext, rfl⟩, rfl⟩
        exact ⟨_, .array (by simp) htext, rfl⟩
      · rintro ⟨e, he, rfl⟩
        cases he with
        | array _ htext => exact ⟨_, _, ⟨htext, rfl⟩, rfl⟩

/-- The value of a branch is computed as the rules say. -/
theorem runs_branchValue_iff {merge text : String} {branch : Branch} {value : Node}
    {type : Option VariableType} (hvalue : Node.Initializer value) :
    Runs (c.branchValue merge branch value) s (text, type) t ↔
      ∃ e, Supplies c s.assigned merge branch s.types value text type e ∧ t = s.extend e := by
  cases hvalue with
  | var _ =>
    simp only [branchValue, runs_bind_iff, runs_typeOf_iff, runs_pure_iff, Prod.mk.injEq]
    constructor
    · rintro ⟨_, _, ⟨rfl, rfl⟩, ⟨rfl, rfl⟩, rfl⟩
      exact ⟨_, .var _, (Scope.extend_empty _).symm⟩
    · rintro ⟨e, he, rfl⟩
      cases he
      exact ⟨_, _, ⟨rfl, rfl⟩, ⟨rfl, rfl⟩, Scope.extend_empty _⟩
  | const value =>
    have hliteral : Runs (c.branchValue merge branch (.const value)) s (text, type) t ↔
        branchText value = .ok text ∧ type = literalType? value ∧ t = s := by
      cases value <;>
        simp only [branchValue, branchText, literalType?, runs_bind_iff, runs_lift_iff, runs_pure_iff,
          Prod.mk.injEq, Except.ok.injEq] <;> grind
    rw [hliteral]
    constructor
    · rintro ⟨htext, rfl, rfl⟩
      exact ⟨_, .literal htext, (Scope.extend_empty _).symm⟩
    · rintro ⟨e, he, rfl⟩
      cases he with
      | literal htext => exact ⟨htext, rfl, Scope.extend_empty _⟩
  | @call callee args _ _ =>
    cases hkind : EvidenceKind.ofName? callee with
    | some kind =>
      simp only [branchValue, hkind, Option.isSome_some, if_true, runs_throw_iff, false_iff]
      rintro ⟨e, he, -⟩
      cases he with
      | call hnone _ _ _ => rw [hkind] at hnone; cases hnone
    | none =>
      simp only [branchValue, hkind, Option.isSome_none, Bool.false_eq_true, if_false, runs_bind_iff,
        runs_get_iff, and_assoc, exists_and_left, exists_eq_left]
      by_cases htaken : (s.types.lookup (branch.variableName merge)).isSome ∨
          branch.variableName merge ∈ s.assigned
      · simp only [htaken, if_true, runs_bind_iff, runs_throw_iff, false_and, exists_false, false_iff]
        rintro ⟨e, he, -⟩
        cases he with
        | call _ hnew hfree _ =>
          rcases htaken with hsome | hmem
          · rw [hnew] at hsome; cases hsome
          · exact hfree hmem
      · simp only [htaken, if_false, runs_bind_iff, runs_pure_iff, runs_assignCall_iff,
          runs_typeOf_iff]
        rw [not_or, Option.not_isSome_iff_eq_none] at htaken
        have hlookup : ∀ d notices, (s.extend (.described (branch.variableName merge) d
            notices)).types.lookup (branch.variableName merge) = some d.variableType := by
          intro d notices
          simp [Emission.described, Emission.after]
        constructor
        · rintro ⟨_, _, ⟨d, hd, rfl⟩, _, _, ⟨rfl, rfl⟩, hresult, rfl⟩
          rw [hlookup, Prod.mk.injEq] at hresult
          obtain ⟨rfl, rfl⟩ := hresult
          exact ⟨_, .call hkind htaken.1 htaken.2 hd, rfl⟩
        · rintro ⟨e, he, rfl⟩
          cases he with
          | call _ _ _ hd => exact ⟨(), _, ⟨_, hd, rfl⟩, _, _, ⟨rfl, rfl⟩, by rw [hlookup], rfl⟩
  | array _ =>
    simp only [branchValue, runs_throw_iff, false_iff]
    rintro ⟨e, he, -⟩
    cases he

/-- A statement other than a conditional is visited as the rules say. -/
theorem runs_visit_iff {node : Node} {result : Option String} (hbody : Node.Body [node])
    (hchoice : ∀ test merge thenBody thenValue elseBody elseValue,
      node ≠ .choice test merge thenBody thenValue elseBody elseValue) :
    Runs (c.visit node) s result t ↔
      result = none ∧ ∃ e, Yields c .top s.types node e ∧ t = s.extend e := by
  cases hbody with
  | assign _ hinit _ =>
    simp only [visit, runs_bind_iff, runs_assign_iff hinit, runs_pure_iff]
    grind
  | evidence kind _ _ =>
    simp only [visit, runs_bind_iff, runs_observe_iff, runs_pure_iff]
    constructor
    · rintro ⟨_, _, ⟨statement, hstatement, rfl⟩, rfl, rfl⟩
      exact ⟨rfl, _, .evidence hstatement, rfl⟩
    · rintro ⟨rfl, e, he, rfl⟩
      cases he with
      | evidence hstatement => exact ⟨(), _, ⟨_, hstatement, rfl⟩, rfl, rfl⟩
  | query _ _ =>
    simp only [visit, ask, runs_bind_iff, runs_emit_iff, runs_pure_iff]
    constructor
    · rintro ⟨_, _, rfl, rfl, rfl⟩
      exact ⟨rfl, _, .query _ _, rfl⟩
    · rintro ⟨rfl, e, he, rfl⟩
      cases he
      exact ⟨(), _, rfl, rfl, rfl⟩
  | choice => exact absurd rfl (hchoice _ _ _ _ _ _)

/-! ### Bodies -/

/-- A visit of the statement does what the rules say. -/
def VisitFollowsRules (c : Compiler) (node : Node) : Prop :=
  ∀ s result t, Runs (c.visit node) s result t ↔
    result = none ∧ ∃ e, Emits c s.assigned .top s.types [node] e ∧ t = s.extend e

/-- A branch of these statements does what the rules say. -/
def BranchFollowsRules (c : Compiler) (body : List Node) : Prop :=
  ∀ merge branch s u t, Runs (c.visitBranch merge branch body) s u t ↔
    ∃ e, Emits c s.assigned .inner s.types body e ∧ t = s.extend e

theorem visitFollowsRules_choice {test merge : String} {thenBody elseBody : List Node}
    {thenValue elseValue : Node} (hthen : BranchFollowsRules c thenBody)
    (hthenValue : Node.Initializer thenValue) (helse : BranchFollowsRules c elseBody)
    (helseValue : Node.Initializer elseValue) :
    VisitFollowsRules c (.choice (.var test) merge thenBody thenValue elseBody elseValue) := by
  intro s result t
  simp only [visit, runs_bind_iff, runs_pure_iff, hthen _ _ _ _ _, helse _ _ _ _ _]
  constructor
  · rintro ⟨_, _, ⟨rfl, rfl⟩, _, _, ⟨e₁, he₁, rfl⟩, ⟨consequent, thenType⟩, _, hconsequent, _, _,
      ⟨e₃, he₃, rfl⟩, ⟨alternate, elseType⟩, _, halternate, _, _, hmerge, rfl, rfl⟩
    obtain ⟨e₂, he₂, rfl⟩ := (runs_branchValue_iff hthenValue).1 hconsequent
    obtain ⟨e₄, he₄, rfl⟩ := (runs_branchValue_iff helseValue).1 halternate
    rw [runs_emitMerge_iff] at hmerge
    subst hmerge
    simp only [Scope.extend_extend, Scope.assigned_extend, Scope.types_extend] at he₂ he₃ he₄
    refine ⟨rfl, _, .choice he₁ he₂ he₃ he₄ (.nil .top _), ?_⟩
    simp [Emission.append_assoc]
  · rintro ⟨rfl, e, he, rfl⟩
    cases he with
    | step _ hnode _ => cases hnode
    | @choice _ _ _ _ _ _ _ _ _ consequent alternate thenType elseType e₁ e₂ e₃ e₄ _ he₁ he₂ he₃ he₄
        hnil =>
      cases hnil
      have h₂ := (runs_branchValue_iff (s := s.extend e₁) hthenValue).2 ⟨e₂, he₂, rfl⟩
      have h₃ : Emits c s.assigned .inner ((s.extend e₁).extend e₂).types elseBody e₃ := by
        simpa using he₃
      have h₄ : Supplies c s.assigned merge .alternate (((s.extend e₁).extend e₂).extend e₃).types
          elseValue alternate elseType e₄ := by
        simpa using he₄
      have h₄ := (runs_branchValue_iff (s := ((s.extend e₁).extend e₂).extend e₃) helseValue).2
        ⟨e₄, h₄, rfl⟩
      refine ⟨_, _, ⟨rfl, rfl⟩, (), _, ⟨e₁, he₁, rfl⟩, _, _, h₂, (), _, ⟨e₃, h₃, rfl⟩, _, _, h₄,
        (), _, runs_emitMerge_iff.2 rfl, rfl, ?_⟩
      simp [Emission.append_assoc]

theorem visitFollowsRules_of_ne_choice {node : Node} (hbody : Node.Body [node])
    (hchoice : ∀ test merge thenBody thenValue elseBody elseValue,
      node ≠ .choice test merge thenBody thenValue elseBody elseValue) :
    VisitFollowsRules c node := by
  intro s result t
  simp only [runs_visit_iff hbody hchoice, emits_singleton_iff hchoice]

theorem branchFollowsRules_cons {node : Node} {rest : List Node} (hnode : VisitFollowsRules c node)
    (hrest : BranchFollowsRules c rest) : BranchFollowsRules c (node :: rest) := by
  intro merge branch s u t
  constructor
  · intro h
    cases hquery : queried? node with
    | some name => simp [visitBranch, hquery] at h
    | none =>
      cases hevidence : isEvidence node with
      | true => simp [visitBranch, hquery, hevidence] at h
      | false =>
        simp only [visitBranch, hquery, hevidence, Bool.false_eq_true, if_false, runs_bind_iff,
          hnode _ _ _, hrest _ _ _ _ _] at h
        obtain ⟨_, _, ⟨rfl, e₁, he₁, rfl⟩, e₂, he₂, rfl⟩ := h
        exact ⟨_, emits_cons_iff.2 ⟨.inl hquery, e₁, e₂,
          emits_inner_singleton_iff.2 ⟨he₁, hevidence, hquery⟩, he₂, rfl⟩,
          Scope.extend_extend _ _ _⟩
  · rintro ⟨e, he, rfl⟩
    obtain ⟨-, e₁, e₂, hinner, he₂, rfl⟩ := emits_cons_iff.1 he
    obtain ⟨he₁, hevidence, hquery⟩ := emits_inner_singleton_iff.1 hinner
    simp only [visitBranch, hquery, hevidence, Bool.false_eq_true, if_false, runs_bind_iff,
      hnode _ _ _, hrest _ _ _ _ _]
    exact ⟨none, _, ⟨rfl, e₁, he₁, rfl⟩, e₂, he₂, (Scope.extend_extend _ _ _).symm⟩

/-- **A branch is compiled as the rules say.** -/
theorem branchFollowsRules {body : List Node} (hbody : Node.Body body) :
    BranchFollowsRules c body := by
  induction hbody with
  | nil =>
    intro merge branch s u t
    simp only [visitBranch, runs_pure_iff, true_and]
    constructor
    · rintro rfl
      exact ⟨_, .nil _ _, (Scope.extend_empty _).symm⟩
    · rintro ⟨e, he, rfl⟩
      cases he
      exact Scope.extend_empty _
  | assign hname hinit _ ih =>
    exact branchFollowsRules_cons
      (visitFollowsRules_of_ne_choice (.assign hname hinit .nil) (by simp)) ih
  | evidence kind hname _ ih =>
    exact branchFollowsRules_cons
      (visitFollowsRules_of_ne_choice (.evidence kind hname .nil) (by simp)) ih
  | query hname _ ih =>
    exact branchFollowsRules_cons
      (visitFollowsRules_of_ne_choice (.query hname .nil) (by simp)) ih
  | choice _ _ _ hthenValue _ helseValue _ ihThen ihElse ihRest =>
    exact branchFollowsRules_cons
      (visitFollowsRules_choice ihThen hthenValue ihElse helseValue) ihRest

theorem visitFollowsRules {node : Node} (hbody : Node.Body [node]) : VisitFollowsRules c node := by
  cases hbody with
  | assign hname hinit _ =>
    exact visitFollowsRules_of_ne_choice (.assign hname hinit .nil) (by simp)
  | evidence kind hname _ =>
    exact visitFollowsRules_of_ne_choice (.evidence kind hname .nil) (by simp)
  | query hname _ => exact visitFollowsRules_of_ne_choice (.query hname .nil) (by simp)
  | choice _ _ hthen hthenValue helse helseValue _ =>
    exact visitFollowsRules_choice (branchFollowsRules hthen) hthenValue (branchFollowsRules helse)
      helseValue

/-- **The statements of a program are compiled as the rules say.** -/
theorem runs_visitBody_iff {body : List Node} (hbody : Node.Body body) :
    Runs (c.visitBody body) s u t ↔
      ∃ e, Emits c s.assigned .top s.types body e ∧ t = s.extend e := by
  induction body generalizing s with
  | nil =>
    simp only [visitBody, runs_pure_iff, true_and]
    constructor
    · rintro rfl
      exact ⟨_, .nil _ _, (Scope.extend_empty _).symm⟩
    · rintro ⟨e, he, rfl⟩
      cases he
      exact Scope.extend_empty _
  | cons node rest ih =>
    have hvisit : (queried? node = none ∨ rest = []) → c.visitBody (node :: rest) =
        (do let _ ← c.visit node; c.visitBody rest) := by
      intro hquery
      cases hname : queried? node <;> cases rest <;> simp_all [visitBody]
    constructor
    · intro h
      have hquery : queried? node = none ∨ rest = [] := by
        cases hname : queried? node <;> cases rest <;> simp_all [visitBody]
      rw [hvisit hquery] at h
      simp only [runs_bind_iff, visitFollowsRules hbody.head _ _ _, ih hbody.tail] at h
      obtain ⟨_, _, ⟨rfl, e₁, he₁, rfl⟩, e₂, he₂, rfl⟩ := h
      exact ⟨_, emits_cons_iff.2 ⟨hquery, e₁, e₂, he₁, he₂, rfl⟩, Scope.extend_extend _ _ _⟩
    · rintro ⟨e, he, rfl⟩
      obtain ⟨hquery, e₁, e₂, he₁, he₂, rfl⟩ := emits_cons_iff.1 he
      rw [hvisit hquery]
      simp only [runs_bind_iff, visitFollowsRules hbody.head _ _ _, ih hbody.tail]
      exact ⟨none, _, ⟨rfl, e₁, he₁, rfl⟩, e₂, he₂, (Scope.extend_extend _ _ _).symm⟩

/-- **A program is compiled as the rules say**: it becomes the statements that the rules give for it
when they give any, and is refused when they give none. -/
theorem result_statements_eq_ok_iff {body : List Node} (hbody : Node.Body body)
    {output : List Java.Statement} :
    (c.statements body).result = .ok output ↔
      ∃ e, Emits c (namesOfAll body) .top [] body e ∧ output = e.output := by
  have hprogram : ∀ result t, Runs (c.visit (.program body)) {} result t ↔ result = none ∧
      ∃ e, Emits c (namesOfAll body) .top [] body e ∧
        t = ({ assigned := namesOfAll body } : Scope).extend e := by
    intro result t
    simp only [visit, enter, runs_bind_iff, runs_modify_iff, runs_pure_iff, runs_visitBody_iff hbody,
      exists_const, exists_eq_left, List.nil_append]
    grind
  constructor
  · intro h
    unfold statements at h
    cases hrun : (c.visit (.program body)).run {} with
    | error e r => rw [hrun] at h; cases h
    | ok a r =>
      obtain ⟨-, e, he, rfl⟩ := (hprogram a r).1 hrun
      rw [hrun] at h
      cases h
      exact ⟨e, he, rfl⟩
  · rintro ⟨e, he, rfl⟩
    have hrun := (hprogram none _).2 ⟨rfl, e, he, rfl⟩
    rw [statements, show (c.visit (.program body)).run {} = .ok none _ from hrun]
    rfl

end

end TraceGraph.Compiler
