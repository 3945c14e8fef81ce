import TraceGraph.Proofs.Dependence

/-!
# Two ways to state evidence

Evidence is stated on its own, or by a call that is assigned to a name.  The name is never declared, so the
two ways emit the same (`emits_iff_of_restates`).  They differ in what the whole program assigns: with the call,
the name counts as assigned, and a branch cannot have it for the variable that it needs of its own.  So stating
evidence on its own changes nothing in an accepted program, and assigning it changes nothing unless one of
the new names is such a variable.
-/

namespace TraceGraph

namespace Trace

/-- The second body is the first with some of the evidence that is assigned at the top stated on its own.
The names are those that were assigned by it. -/
inductive Restates : List Node → List String → List Node → Prop
  | nil : Restates [] [] []
  | keep (node : Node) {names : List String} {rest rest' : List Node}
      (hrest : Restates rest names rest') : Restates (node :: rest) names (node :: rest')
  | state (name : String) (kind : EvidenceKind) (target : String) {names : List String}
      {rest rest' : List Node} (hrest : Restates rest names rest') :
      Restates (.assign name (.call kind.name [.var target]) :: rest) (name :: names)
        (.evidence kind target :: rest')

namespace Restates

variable {body body' : List Node} {names : List String}

theorem length_eq (h : Restates body names body') : body.length = body'.length := by
  induction h with
  | nil => rfl
  | keep _ _ ih => rw [List.length_cons, List.length_cons, ih]
  | state _ _ _ _ ih => rw [List.length_cons, List.length_cons, ih]

theorem eq_nil_iff (h : Restates body names body') : body = [] ↔ body' = [] := by
  rw [← List.length_eq_zero_iff, ← List.length_eq_zero_iff, h.length_eq]

/-- The names of the evidence are the only ones that are not assigned any more. -/
theorem mem_namesOfAll_iff (h : Restates body names body') (x : String) :
    x ∈ Compiler.namesOfAll body ↔ x ∈ names ∨ x ∈ Compiler.namesOfAll body' := by
  induction h with
  | nil => simp [Compiler.namesOfAll]
  | keep node _ ih =>
    rw [Compiler.namesOfAll, Compiler.namesOfAll, List.mem_append, List.mem_append, ih, or_left_comm]
  | state name kind target _ ih =>
    simp only [Compiler.namesOfAll, Compiler.namesOf, List.singleton_append, List.nil_append,
      List.mem_cons, ih, or_assoc]

theorem wellFormed (h : Restates body names body') (hbody : Node.Body body) : Node.Body body' := by
  induction h with
  | nil => exact .nil
  | keep node _ ih =>
    rw [← List.singleton_append, Node.body_append_iff]
    exact ⟨hbody.head, ih hbody.tail⟩
  | state name kind target _ ih =>
    cases hbody with
    | assign _ hinit hrest =>
      cases hinit with
      | call _ hargs =>
        cases hargs with
        | var htarget _ => exact .evidence kind htarget (ih hrest)

end Restates

end Trace

namespace Compiler

open Trace

variable {c : Compiler} {assigned : List String} {types : List (String × VariableType)}
  {body body' : List Node} {names : List String} {e : Emission}

/-- At the top, evidence yields the same on its own and as an assigned call. -/
theorem yields_evidenceCall_iff {name target : String} {kind : EvidenceKind} :
    Yields c .top types (.assign name (.call kind.name [.var target])) e ↔
      Yields c .top types (.evidence kind target) e := by
  constructor
  · intro h
    cases h with
    | call hnone _ => cases (EvidenceKind.ofName?_name kind).symm.trans hnone
    | evidenceCall hkind hstatement =>
      cases (EvidenceKind.ofName?_name kind).symm.trans hkind
      exact .evidence hstatement
  · intro h
    cases h with
    | evidence hstatement => exact .evidenceCall (EvidenceKind.ofName?_name kind) hstatement

/-- **Either way of stating evidence emits the same**, where the same names count as assigned. -/
theorem emits_iff_of_restates (h : Restates body names body') :
    Emits c assigned .top types body e ↔ Emits c assigned .top types body' e := by
  induction h generalizing types e with
  | nil => exact Iff.rfl
  | keep node hrest ih =>
    rw [emits_cons_iff, emits_cons_iff, hrest.eq_nil_iff]
    simp only [ih]
  | state name kind target hrest ih =>
    have hsame {e : Emission} :
        Emits c assigned .top types [.assign name (.call kind.name [.var target])] e ↔
          Emits c assigned .top types [.evidence kind target] e :=
      (emits_singleton_iff (by simp)).trans
        (yields_evidenceCall_iff.trans (emits_singleton_iff (by simp)).symm)
    rw [emits_cons_iff, emits_cons_iff, hrest.eq_nil_iff]
    simp only [ih, hsame]
    rfl

/-- **The two ways to state evidence agree.**  Whatever the primitives and the settings are, stating some of
the assigned evidence on its own leaves an accepted program accepted, with the same code and the same
notices.  Conversely, if the program with the evidence on its own is accepted, then so is the other one,
with the same code and the same notices, unless a name of the evidence is a variable that a branch needs. -/
theorem statements_eq_of_restates {c : Compiler} {body body' : List Node} {names : List String}
    (hbody : Node.Body body) (h : Restates body names body') :
    (∀ output, (c.statements body).result = .ok output → c.statements body' = c.statements body) ∧
      ∀ output, (c.statements body').result = .ok output → (∀ x ∈ names, x ∉ locals body') →
        c.statements body = c.statements body' := by
  have hbody' := h.wellFormed hbody
  constructor
  · intro output haccepted
    obtain ⟨e, he, -⟩ := (result_statements_eq_ok_iff hbody).1 haccepted
    -- Fewer names are assigned, so all the more are free.
    have he' : Emits c (namesOfAll body') .top [] body e :=
      he.congr (fun _ _ => rfl) (fun _ _ => rfl) fun x _ hx => (h.mem_namesOfAll_iff x).2 (.inr hx)
    rw [statements_eq_of_emits hbody he,
      statements_eq_of_emits hbody' ((emits_iff_of_restates h).1 he'), h.length_eq]
  · intro output haccepted hnames
    obtain ⟨e, he, -⟩ := (result_statements_eq_ok_iff hbody').1 haccepted
    have he' : Emits c (namesOfAll body) .top [] body' e := by
      refine he.congr (fun _ _ => rfl) (fun _ _ => rfl) fun x hlocal hx => ?_
      rcases (h.mem_namesOfAll_iff x).1 hx with hname | hx
      · exact absurd hlocal (hnames x hname)
      · exact hx
    rw [statements_eq_of_emits hbody ((emits_iff_of_restates h).2 he'),
      statements_eq_of_emits hbody' he, h.length_eq]

/-- Both ways from the sample, whose last statement but one is evidence that is assigned. -/
theorem statements_eq_of_restates_sample :
    let body' := Node.sample.take 3 ++ [.evidence .condition "outer", .query "outer"]
    Node.Body Node.sample ∧ Restates Node.sample ["seen"] body' ∧
      (∃ output, ((Session.builtin {}).compiler.statements Node.sample).result = .ok output) ∧
      (∃ output, ((Session.builtin {}).compiler.statements body').result = .ok output) ∧
      (∀ x ∈ ["seen"], x ∉ locals body') ∧
      (Session.builtin {}).compiler.statements body' =
        (Session.builtin {}).compiler.statements Node.sample := by
  intro body'
  have h : Restates Node.sample ["seen"] body' :=
    .keep _ (.keep _ (.keep _ (.state "seen" .condition "outer" (.keep _ .nil))))
  have hnames : ∀ x ∈ ["seen"], x ∉ locals body' := by decide +kernel
  obtain ⟨output, haccepted, -⟩ := Factor.exists_eq_ok_of_toOption_map
    (show ((Session.builtin {}).compiler.statements Node.sample).result.toOption.map List.length
      = some 20 by decide +kernel)
  have hsame := (statements_eq_of_restates Node.body_sample h).1 output haccepted
  have haccepted' : ((Session.builtin {}).compiler.statements body').result = .ok output := by
    rw [hsame]
    exact haccepted
  have hback := (statements_eq_of_restates Node.body_sample h).2 output haccepted' hnames
  exact ⟨Node.body_sample, h, ⟨output, haccepted⟩, ⟨output, haccepted'⟩, hnames, hback.symm⟩

end Compiler

end TraceGraph
