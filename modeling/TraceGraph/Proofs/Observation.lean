import Mathlib.Data.List.Forall2
import TraceGraph.Proofs.Declaration

/-!
# Evidence and inference in the code

Evidence stated by a program shows in its code as a fixed value, or as a factor on a variable that was
not declared just before; every other factor comes right after the declaration of its variable.
`Java.evidenceIn` collects the evidence of some code that way, without looking at the program, and
`Java.Shows evidence code` says that a part of some code has this evidence wherever it stands, as long
as no declaration still waits for its factor.

The main lemmas go through a body by its rules: what its code shows is one statement for each of its own
statements of evidence, in order (`exists_shows_of_emits`), and the statements that run the inference end
the code of a body that ends with a query, and are nowhere else (`inference_of_emits`).
-/

namespace TraceGraph

namespace Java

namespace Statement

/-- Does the statement declare a graph variable of this name? -/
def declaresVariable (name : String) : Statement → Bool
  | .declareVariable _ declared _ => declared == name
  | _ => false

/-- Is the statement evidence, if it comes right after another?  It is if it fixes a value, or adds a
factor to a variable that the other did not declare. -/
def isEvidenceAfter (previous : Option Statement) : Statement → Bool
  | .fixValue .. => true
  | .addFactor _ output _ _ => !previous.any (declaresVariable output)
  | _ => false

/-- Is the statement one of those that run the inference and tell its result? -/
def isInference : Statement → Bool
  | .setIterations _ | .solve | .extractBelief .. | .printBelief _ => true
  | _ => false

end Statement

/-- The evidence among statements that come right after another. -/
def evidenceAfter : Option Statement → List Statement → List Statement
  | _, [] => []
  | previous, statement :: rest =>
    if statement.isEvidenceAfter previous then statement :: evidenceAfter (some statement) rest
    else evidenceAfter (some statement) rest

/-- The evidence among statements. -/
def evidenceIn (statements : List Statement) : List Statement := evidenceAfter none statements

/-- The statements that run the inference for a variable, or none if there is no variable. -/
def inference (settings : Settings) : Option String → List Statement
  | some name =>
    [.setIterations settings.iterations, .solve, .extractBelief settings.beliefName name,
     .printBelief settings.beliefName]
  | none => []

theorem evidenceAfter_append (previous : Option Statement) (a b : List Statement) :
    evidenceAfter previous (a ++ b) =
      evidenceAfter previous a ++ evidenceAfter (a.getLast?.or previous) b := by
  induction a generalizing previous with
  | nil => rfl
  | cons statement rest ih =>
    have hlast : (statement :: rest).getLast?.or previous = rest.getLast?.or (some statement) := by
      cases rest with
      | nil => rfl
      | cons next others =>
        rw [List.getLast?_cons_cons, List.getLast?_eq_some_getLast (List.cons_ne_nil next others)]
        rfl
    rw [List.cons_append, evidenceAfter, evidenceAfter, ih, hlast]
    split <;> rfl

/-- No declaration waits for its factor. -/
def Closed (previous : Option Statement) : Prop :=
  ∀ type name args, previous ≠ some (.declareVariable type name args)

/-- The statements have this evidence wherever they stand, if no declaration waits for its factor there;
and none waits after them. -/
def Shows (evidence statements : List Statement) : Prop :=
  ∀ previous, Closed previous →
    evidenceAfter previous statements = evidence ∧ Closed (statements.getLast?.or previous)

namespace Shows

theorem nil : Shows [] [] := fun _ hclosed => ⟨rfl, hclosed⟩

theorem append {a b evidence evidence' : List Statement} (ha : Shows evidence a)
    (hb : Shows evidence' b) : Shows (evidence ++ evidence') (a ++ b) := by
  intro previous hclosed
  obtain ⟨hevidence, hbetween⟩ := ha previous hclosed
  obtain ⟨hevidence', hafter⟩ := hb _ hbetween
  rw [evidenceAfter_append, hevidence, hevidence', List.getLast?_append, Option.or_assoc]
  exact ⟨rfl, hafter⟩

/-- A factor right after the declaration of its variable is no evidence. -/
theorem ofVariable (type name factor : String) (args factorArgs inputs : List String) :
    Shows [] [.declareVariable type name args, .addFactor factor name factorArgs inputs] := by
  intro previous _
  constructor
  · simp [evidenceAfter, Statement.isEvidenceAfter, Statement.declaresVariable]
  · intro _ _ _ h
    cases h

theorem ofLocal (type name text : String) : Shows [] [.declareLocal type name text] := by
  intro previous _
  constructor
  · rfl
  · intro _ _ _ h
    cases h

theorem ofInference (settings : Settings) (name : String) :
    Shows [] (inference settings (some name)) := by
  intro previous _
  constructor
  · rfl
  · intro _ _ _ h
    cases h

end Shows

end Java

namespace Evidence

/-- What a statement of evidence on a variable is in Java. -/
def code (settings : Settings) (name : String) : EvidenceKind → Java.Statement
  | .condition => .fixValue name settings.conditionValue.text
  | .factor => .addFactor settings.evidenceFactor name [] []

/-- The Java of a statement of the program that states evidence, on its own or as an assigned call. -/
inductive States (settings : Settings) : Node → Java.Statement → Prop
  | plain (kind : EvidenceKind) (name : String) :
      States settings (.evidence kind name) (code settings name kind)
  | call (assigned target : String) {callee : String} {kind : EvidenceKind}
      (hkind : EvidenceKind.ofName? callee = some kind) :
      States settings (.assign assigned (.call callee [.var target])) (code settings target kind)

theorem eq_code_of_statement {settings : Settings} {name : String} {kind : EvidenceKind}
    {statement : Java.Statement} (h : Evidence.statement settings name kind = .ok statement) :
    statement = code settings name kind := by
  cases kind with
  | condition =>
    obtain ⟨text, htext, h⟩ := bind_eq_ok_iff.1 h
    cases h
    unfold fixedText at htext
    split at htext
    · cases htext
      rfl
    · cases htext
  | factor =>
    cases h
    rfl

/-- A statement of evidence shows as evidence, for no declaration waits for a factor before it. -/
theorem shows_code (settings : Settings) (name : String) (kind : EvidenceKind) :
    Java.Shows [code settings name kind] [code settings name kind] := by
  intro previous hclosed
  cases kind with
  | condition => exact ⟨rfl, fun _ _ _ h => by cases h⟩
  | factor =>
    have hother : previous.any (Java.Statement.declaresVariable name) = false := by
      cases previous with
      | none => rfl
      | some statement =>
        cases statement with
        | declareVariable type declared args => exact absurd rfl (hclosed type declared args)
        | _ => rfl
    refine ⟨?_, fun _ _ _ h => by cases h⟩
    simp [code, Java.evidenceAfter, Java.Statement.isEvidenceAfter, hother]

end Evidence

/-- The variable that a body asks for at its end. -/
def Trace.asked? (body : List Node) : Option String := body.getLast?.bind Compiler.queried?

theorem Trace.asked?_cons {node : Node} (hquery : Compiler.queried? node = none) (rest : List Node) :
    Trace.asked? (node :: rest) = Trace.asked? rest := by
  cases rest with
  | nil => exact hquery
  | cons next others => rw [Trace.asked?, List.getLast?_cons_cons, Trace.asked?]

namespace Compiler

open Evidence (States)
open Java (Shows Statement inference)
open Trace

variable {c : Compiler} {assigned : List String} {types : List (String × VariableType)}
  {depth : Depth} {e : Emission}

/-- There is neither evidence nor a query among the statements of a branch. -/
theorem not_isEvidence_of_emits_inner {body : List Node}
    (h : Emits c assigned .inner types body e) :
    ∀ node ∈ body, isEvidence node = false ∧ queried? node = none := by
  induction body generalizing types e with
  | nil => exact fun _ hnode => by cases hnode
  | cons first rest ih =>
    obtain ⟨-, _, _, hfirst, hrest, -⟩ := emits_cons_iff.1 h
    intro node hnode
    rcases List.mem_cons.1 hnode with rfl | hnode
    · exact (emits_inner_singleton_iff.1 hfirst).2
    · exact ih hrest node hnode

/-! ### Evidence -/

theorem exists_shows_of_yields {node : Node} (h : Yields c depth types node e) :
    ∃ evidence, List.Forall₂ (States c.settings) ([node].filter isEvidence) evidence ∧
      Shows evidence e.output := by
  cases h with
  | @call _ _ name callee args d hkind _ =>
    have hplain : isEvidence (.assign name (.call callee args)) = false := by
      simp [isEvidence, hkind]
    refine ⟨[], ?_, Shows.ofVariable _ d.output _ _ _ _⟩
    rw [List.filter_cons_of_neg (by simp [hplain])]
    exact .nil
  | copy => exact ⟨[], .nil, Shows.ofVariable _ _ _ _ _ _⟩
  | literal => exact ⟨[], .nil, Shows.ofLocal _ _ _⟩
  | array => exact ⟨[], .nil, Shows.ofLocal _ _ _⟩
  | @evidence _ kind name _ hstatement =>
    rw [Evidence.eq_code_of_statement hstatement]
    exact ⟨_, .cons (.plain kind name) .nil, Evidence.shows_code _ _ _⟩
  | @evidenceCall _ name callee target kind _ hkind hstatement =>
    have hevidence : isEvidence (.assign name (.call callee [.var target])) = true := by
      simp [isEvidence, hkind]
    rw [Evidence.eq_code_of_statement hstatement, List.filter_cons_of_pos hevidence]
    exact ⟨_, .cons (.call name target hkind) .nil, Evidence.shows_code _ _ _⟩
  | query _ name => exact ⟨[], .nil, Shows.ofInference c.settings name⟩

theorem shows_of_supplies {merge text : String} {branch : Branch} {value : Node}
    {type : Option VariableType} (h : Supplies c assigned merge branch types value text type e) :
    Shows [] e.output := by
  cases h with
  | var => exact .nil
  | literal => exact .nil
  | call => exact Shows.ofVariable _ _ _ _ _ _

/-- **The evidence in the code of a body is that of its own statements**, one by one.  Inside a branch
there is none. -/
theorem exists_shows_of_emits {body : List Node} (h : Emits c assigned depth types body e) :
    ∃ evidence, List.Forall₂ (States c.settings) (body.filter isEvidence) evidence ∧
      Shows evidence e.output := by
  have hbranch : ∀ {types body e}, Emits c assigned .inner types body e →
      (∃ evidence, List.Forall₂ (States c.settings) (body.filter isEvidence) evidence ∧
        Shows evidence e.output) → Shows [] e.output := by
    rintro types body e hemits ⟨evidence, hstates, hshows⟩
    have hnone : body.filter isEvidence = [] := by
      rw [List.filter_eq_nil_iff]
      intro node hnode
      rw [(not_isEvidence_of_emits_inner hemits node hnode).1]
      exact Bool.false_ne_true
    rw [hnone, List.forall₂_nil_left_iff] at hstates
    exact hstates ▸ hshows
  induction h with
  | nil => exact ⟨[], .nil, .nil⟩
  | @step _ _ node rest _ _ _ hnode _ ih =>
    obtain ⟨first, hfirst, hshows⟩ := exists_shows_of_yields hnode
    obtain ⟨others, hothers, hshows'⟩ := ih
    refine ⟨first ++ others, ?_, hshows.append hshows'⟩
    rw [← List.singleton_append, List.filter_append]
    exact List.rel_append hfirst hothers
  | choice hthen hthenValue helse helseValue _ ihThen ihElse ihRest =>
    obtain ⟨evidence, hstates, hshows⟩ := ihRest
    refine ⟨evidence, hstates, ?_⟩
    have hthen := (hbranch hthen ihThen).append (shows_of_supplies hthenValue)
    have hboth := (hthen.append (hbranch helse ihElse)).append (shows_of_supplies helseValue)
    exact (hboth.append (.ofVariable _ _ _ _ _ _)).append hshows

/-! ### Inference -/

theorem inference_of_yields {node : Node} (h : Yields c depth types node e) :
    e.output.filter Statement.isInference = inference c.settings (queried? node) ∧
      inference c.settings (queried? node) <:+ e.output := by
  have hevidence : ∀ name kind,
      [Evidence.code c.settings name kind].filter Statement.isInference = [] := by
    intro name kind
    cases kind <;> rfl
  cases h with
  | evidence hstatement =>
    rw [Evidence.eq_code_of_statement hstatement]
    exact ⟨hevidence _ _, List.nil_suffix⟩
  | evidenceCall _ hstatement =>
    rw [Evidence.eq_code_of_statement hstatement]
    exact ⟨hevidence _ _, List.nil_suffix⟩
  | query => exact ⟨rfl, List.suffix_refl _⟩
  | _ => exact ⟨rfl, List.nil_suffix⟩

theorem inference_of_supplies {merge text : String} {branch : Branch} {value : Node}
    {type : Option VariableType} (h : Supplies c assigned merge branch types value text type e) :
    e.output.filter Statement.isInference = [] := by
  cases h <;> rfl

/-- **The inference ends the code of a body that ends with a query**, and is nowhere else. -/
theorem inference_of_emits {body : List Node} (h : Emits c assigned depth types body e) :
    e.output.filter Statement.isInference = inference c.settings (asked? body) ∧
      inference c.settings (asked? body) <:+ e.output := by
  induction h with
  | nil => exact ⟨rfl, List.nil_suffix⟩
  | @step _ _ node rest e₁ e₂ hquery hnode hrest ih =>
    obtain ⟨hfilter, hsuffix⟩ := inference_of_yields hnode
    cases hname : queried? node with
    | some name =>
      -- A query is the last statement, so there is no other code.
      obtain rfl : rest = [] := hquery.resolve_left (by rw [hname]; exact Option.some_ne_none name)
      cases hrest
      rw [Emission.append_empty]
      exact ⟨hfilter, hsuffix⟩
    | none =>
      rw [hname] at hfilter
      rw [asked?_cons hname, Emission.output_append, List.filter_append, hfilter, ih.1]
      exact ⟨rfl, ih.2.trans (List.suffix_append _ _)⟩
  | choice hthen hthenValue helse helseValue _ ihThen ihElse ihRest =>
    have hbranch : ∀ {types body e}, Emits c assigned .inner types body e → asked? body = none := by
      intro types body e hemits
      rw [asked?, Option.bind_eq_none_iff]
      exact fun node hnode => (not_isEvidence_of_emits_inner hemits node (List.mem_of_getLast? hnode)).2
    have hmerge : ∀ merge type test alternate consequent,
        (Emission.merge c merge type test alternate consequent).output.filter Statement.isInference
          = [] := fun _ _ _ _ _ => rfl
    rw [hbranch hthen] at ihThen
    rw [hbranch helse] at ihElse
    rw [asked?_cons rfl]
    simp only [Emission.output_append, List.filter_append, ihThen.1, ihElse.1, ihRest.1, hmerge,
      inference_of_supplies hthenValue, inference_of_supplies helseValue]
    exact ⟨rfl, ihRest.2.trans (List.suffix_append _ _)⟩

/-- **Evidence and inference are never hoisted, lost or repeated.**  In the code of an accepted program,
whatever its producers, the evidence is one statement for each of the program's own statements of
evidence, in order; and the inference is run once, at the very end, for the variable that the program
asks for at its end, or not at all if it asks for none. -/
theorem evidenceIn_and_inference {c : Compiler} {body : List Node} {output : List Statement}
    (hbody : Node.Body body) (h : (c.statements body).result = .ok output) :
    List.Forall₂ (States c.settings) (body.filter isEvidence) (Java.evidenceIn output) ∧
      output.filter Statement.isInference = inference c.settings (asked? body) ∧
      inference c.settings (asked? body) <:+ output := by
  obtain ⟨e, he, rfl⟩ := (result_statements_eq_ok_iff hbody).1 h
  obtain ⟨evidence, hstates, hshows⟩ := exists_shows_of_emits he
  obtain ⟨hevidence, -⟩ := hshows none fun _ _ _ h => by cases h
  refine ⟨?_, inference_of_emits he⟩
  rw [Java.evidenceIn, hevidence]
  exact hstates

theorem evidenceIn_and_inference_sample :
    ∃ output, ((Session.builtin {}).compiler.statements Node.sample).result = .ok output ∧
      List.Forall₂ (States {}) [.assign "seen" (.call "condition" [.var "outer"])]
        (Java.evidenceIn output) ∧
      output.filter Statement.isInference = inference {} (some "outer") ∧
      inference {} (some "outer") <:+ output := by
  obtain ⟨output, h, -⟩ := Factor.exists_eq_ok_of_toOption_map
    (show ((Session.builtin {}).compiler.statements Node.sample).result.toOption.map List.length
      = some 20 by decide +kernel)
  exact ⟨output, h, evidenceIn_and_inference Node.body_sample h⟩

end Compiler

end TraceGraph
