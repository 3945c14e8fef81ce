import Mathlib.Data.List.Forall2
import TraceGraph.Proofs.Wiring
import TraceGraph.Session

/-!
# Calls through the dispatcher

A tracer may make a call directly or through the dispatcher, and the code is the same.  `Redirects` relates
a program to one in which some of the dispatcher's calls, at any depth, are made directly.  A call is
compiled by what is left of it without the dispatcher (`describe_eq_of_unwrap`), so the pass does the same
at each statement of the two programs (`SameStep`), and hence on the whole: it emits the same statements,
gives the same notices, and fails with the same error.
-/

namespace TraceGraph

/-- What a call is described as depends only on the primitive and the arguments without the dispatcher. -/
theorem Factor.describe_eq_of_unwrap {settings : Settings} {callee callee' : String}
    {args args' : List Node}
    (h : Factor.unwrap settings callee args = Factor.unwrap settings callee' args')
    (find : String → Option Factor.Producer) (output : String) :
    Factor.describe settings find output callee args =
      Factor.describe settings find output callee' args' := by
  have hdraft : Factor.draft settings output callee args =
      Factor.draft settings output callee' args' := by
    unfold Factor.draft
    rw [h]
  unfold Factor.describe
  rw [hdraft]

namespace Trace

variable {settings : Settings}

/-- A call of the dispatcher, and the call of a primitive that it stands for.  The dispatcher gets the
name of the primitive and an array of the arguments, with one item of the tracer's own at the end unless
the array is empty; what else it gets does not count. -/
inductive Dispatches (settings : Settings) : Node → Node → Prop
  | applied (primitive : String) (hname : primitive ≠ "")
      (hdispatcher : primitive ≠ settings.dispatcherName)
      (hkind : EvidenceKind.ofName? primitive = none) (args : List Node) (last : Node)
      (others : List Node) :
      Dispatches settings
        (.call settings.dispatcherName
          (.const (.str primitive) :: .array (args ++ [last]) :: others))
        (.call primitive args)
  | bare (primitive : String) (hname : primitive ≠ "")
      (hdispatcher : primitive ≠ settings.dispatcherName)
      (hkind : EvidenceKind.ofName? primitive = none) (others : List Node) :
      Dispatches settings
        (.call settings.dispatcherName (.const (.str primitive) :: .array [] :: others))
        (.call primitive [])

/-- The value is kept, or it is a call of the dispatcher that is made directly. -/
def RedirectsValue (settings : Settings) (value value' : Node) : Prop :=
  value' = value ∨ Dispatches settings value value'

/-- The second body is the first with some calls of the dispatcher, at any depth, made directly. -/
inductive Redirects (settings : Settings) : List Node → List Node → Prop
  | nil : Redirects settings [] []
  | keep (node : Node) {rest rest' : List Node} (hrest : Redirects settings rest rest') :
      Redirects settings (node :: rest) (node :: rest')
  | assign (name : String) {init init' : Node} {rest rest' : List Node}
      (hinit : Dispatches settings init init') (hrest : Redirects settings rest rest') :
      Redirects settings (.assign name init :: rest) (.assign name init' :: rest')
  | choice (test : Node) (merge : String) {thenBody thenBody' elseBody elseBody' : List Node}
      {thenValue thenValue' elseValue elseValue' : Node} {rest rest' : List Node}
      (hthen : Redirects settings thenBody thenBody')
      (hthenValue : RedirectsValue settings thenValue thenValue')
      (helse : Redirects settings elseBody elseBody')
      (helseValue : RedirectsValue settings elseValue elseValue')
      (hrest : Redirects settings rest rest') :
      Redirects settings
        (.choice test merge thenBody thenValue elseBody elseValue :: rest)
        (.choice test merge thenBody' thenValue' elseBody' elseValue' :: rest')

/-- The two calls are of primitives, and the same without the dispatcher. -/
theorem Dispatches.exists_calls {init init' : Node} (h : Dispatches settings init init')
    (hdispatcher : EvidenceKind.ofName? settings.dispatcherName = none) :
    ∃ callee args callee' args', init = .call callee args ∧ init' = .call callee' args' ∧
      EvidenceKind.ofName? callee = none ∧ EvidenceKind.ofName? callee' = none ∧
      Factor.unwrap settings callee args = Factor.unwrap settings callee' args' := by
  cases h with
  | applied primitive hname hne hkind args last others =>
    refine ⟨_, _, _, _, rfl, rfl, hdispatcher, hkind, ?_⟩
    simp [Factor.unwrap, hname, hne]
  | bare primitive hname hne hkind others =>
    refine ⟨_, _, _, _, rfl, rfl, hdispatcher, hkind, ?_⟩
    simp [Factor.unwrap, hname, hne]

/-- Which calls are made directly makes no difference to the assigned names. -/
theorem Redirects.namesOfAll_eq {body body' : List Node} (h : Redirects settings body body') :
    Compiler.namesOfAll body = Compiler.namesOfAll body' := by
  induction h with
  | nil => rfl
  | keep node _ ih => rw [Compiler.namesOfAll, Compiler.namesOfAll, ih]
  | assign name _ _ ih =>
    rw [Compiler.namesOfAll, Compiler.namesOfAll, ih, Compiler.namesOf, Compiler.namesOf]
  | choice test merge _ _ _ _ _ ihThen ihElse ihRest =>
    rw [Compiler.namesOfAll, Compiler.namesOfAll, ihRest, Compiler.namesOf, Compiler.namesOf, ihThen,
      ihElse]

end Trace

namespace Compiler

open Trace

variable {c : Compiler} {body body' : List Node}

/-- The pass does the same at both statements. -/
structure SameStep (c : Compiler) (node node' : Node) : Prop where
  visit : c.visit node = c.visit node'
  isEvidence : isEvidence node = isEvidence node'
  queried : queried? node = queried? node'

theorem SameStep.refl (node : Node) : SameStep c node node := ⟨rfl, rfl, rfl⟩

/-- Branches with the same steps are compiled to the same code. -/
theorem visitBranch_eq_of_sameSteps (h : List.Forall₂ (SameStep c) body body') (merge : String)
    (branch : Branch) : c.visitBranch merge branch body = c.visitBranch merge branch body' := by
  induction h with
  | nil => rfl
  | cons hnode _ ih =>
    rw [visitBranch, visitBranch, hnode.visit, hnode.isEvidence, hnode.queried, ih]

/-- Programs with the same steps are compiled to the same code. -/
theorem visitBody_eq_of_sameSteps (h : List.Forall₂ (SameStep c) body body') :
    c.visitBody body = c.visitBody body' := by
  induction h with
  | nil => rfl
  | @cons _ node' _ _ hnode hrest ih =>
    unfold visitBody
    rw [hnode.visit, hnode.queried, ih]
    -- A query is the last statement of both or of neither, for the lists are equally long.
    cases hrest with
    | nil => rfl
    | cons _ _ => cases queried? node' <;> rfl

section

variable (hdispatcher : EvidenceKind.ofName? c.settings.dispatcherName = none)

include hdispatcher

theorem assign_eq_of_dispatches {init init' : Node} (h : Dispatches c.settings init init')
    (name : String) : c.assign name init = c.assign name init' := by
  obtain ⟨callee, args, callee', args', rfl, rfl, hkind, hkind', hunwrap⟩ :=
    h.exists_calls hdispatcher
  simp only [assign, hkind, hkind', assignCall, Factor.describe_eq_of_unwrap hunwrap]

theorem branchValue_eq_of_redirectsValue {value value' : Node}
    (h : RedirectsValue c.settings value value') (merge : String) (branch : Branch) :
    c.branchValue merge branch value = c.branchValue merge branch value' := by
  rcases h with rfl | h
  · rfl
  · obtain ⟨callee, args, callee', args', rfl, rfl, hkind, hkind', hunwrap⟩ :=
      h.exists_calls hdispatcher
    simp only [branchValue, hkind, hkind', Option.isSome_none, Bool.false_eq_true, if_false, assignCall,
      Factor.describe_eq_of_unwrap hunwrap]

theorem sameStep_assign {init init' : Node} (h : Dispatches c.settings init init') (name : String) :
    SameStep c (.assign name init) (.assign name init') := by
  refine ⟨?_, ?_, rfl⟩
  · rw [visit, visit, assign_eq_of_dispatches hdispatcher h]
  · obtain ⟨callee, args, callee', args', rfl, rfl, hkind, hkind', -⟩ := h.exists_calls hdispatcher
    rw [isEvidence, isEvidence, hkind, hkind']

/-- **Step by step, a program and the one with some calls made directly are compiled the same.** -/
theorem sameSteps_of_redirects (h : Redirects c.settings body body') :
    List.Forall₂ (SameStep c) body body' := by
  induction h with
  | nil => exact .nil
  | keep node _ ih => exact .cons (.refl node) ih
  | assign name hinit _ ih => exact .cons (sameStep_assign hdispatcher hinit name) ih
  | choice test merge _ hthenValue _ helseValue _ ihThen ihElse ihRest =>
    refine .cons ⟨?_, rfl, rfl⟩ ihRest
    rw [visit, visit, visitBranch_eq_of_sameSteps ihThen, visitBranch_eq_of_sameSteps ihElse,
      branchValue_eq_of_redirectsValue hdispatcher hthenValue,
      branchValue_eq_of_redirectsValue hdispatcher helseValue]

end

/-- **The dispatcher is transparent.**  Whatever the producers, and whichever of the dispatcher's calls
are made directly, a program becomes the same statements or fails with the same error, and the notices
are the same. -/
theorem statements_eq_of_redirects {c : Compiler} {body body' : List Node}
    (hdispatcher : EvidenceKind.ofName? c.settings.dispatcherName = none)
    (h : Redirects c.settings body body') : c.statements body = c.statements body' := by
  have hsteps := sameSteps_of_redirects hdispatcher h
  have hvisit : c.visit (.program body) = c.visit (.program body') := by
    rw [visit, visit, enter, enter, h.namesOfAll_eq, visitBody_eq_of_sameSteps hsteps]
  rw [statements, statements, hvisit, hsteps.length_eq]

/-- Calls through the dispatcher at the top, within a branch and at its end; the one at the end of the
other branch is kept. -/
theorem statements_eq_of_redirects_nested :
    ∃ direct,
      direct =
        [.assign "coin" (.call "or" []),
         .choice (.var "coin") "side" [.assign "copy" (.call "wrapped_not" [.var "coin"])]
           (.call "and" [.var "copy", .var "coin"])
           [] (.call "random" [.const (.str "not"), .array [.var "coin", .const .null]]),
         .query "side"] ∧
      (Session.builtin {}).compiler.statements
        [.assign "coin" (.call "random" [.const (.str "or"), .array []]),
         .choice (.var "coin") "side"
           [.assign "copy" (.call "random"
             [.const (.str "wrapped_not"), .array [.var "coin", .const .null], .raw "extra"])]
           (.call "random" [.const (.str "and"), .array [.var "copy", .var "coin", .const .null]])
           [] (.call "random" [.const (.str "not"), .array [.var "coin", .const .null]]),
         .query "side"] = (Session.builtin {}).compiler.statements direct ∧
      ((Session.builtin {}).compiler.statements direct).result.toOption.map List.length = some 14 := by
  refine ⟨_, rfl, statements_eq_of_redirects (by decide) ?_, by decide +kernel⟩
  refine .assign "coin" (.bare "or" (by decide) (by decide) (by decide) []) ?_
  refine .choice (.var "coin") "side" (.assign "copy" ?_ .nil) (.inr ?_) .nil (.inl rfl)
    (.keep (.query "side") .nil)
  · exact .applied "wrapped_not" (by decide) (by decide) (by decide) [.var "coin"] (.const .null)
      [.raw "extra"]
  · exact .applied "and" (by decide) (by decide) (by decide) [.var "copy", .var "coin"]
      (.const .null) []

end Compiler

end TraceGraph
