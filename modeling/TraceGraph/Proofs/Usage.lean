import TraceGraph.Proofs.Declaration

/-!
# Declaration before use

A statement of the generated code may name a graph variable only after the variable was declared.
`UsesDeclared constants known statements` says so of a part of the code that comes after the
declaration of the `known` names; texts that stand for themselves are exempt.  The main lemma
`covers_of_emits` goes through a body with two things in hand: the names that the program may use, and
the fact that each of them is declared by then.
-/

namespace TraceGraph

namespace Java

/-- Each graph variable that the statements use is known, declared before, declared by the statement
itself, or no variable but a constant. -/
def UsesDeclared (constants : List String) : List String → List Statement → Prop
  | _, [] => True
  | known, statement :: rest =>
    (∀ x ∈ statement.graphVariables,
      x ∈ known ∨ (∃ type args, statement = .declareVariable type x args) ∨ x ∈ constants) ∧
    UsesDeclared constants (known ++ statement.declared?.toList) rest

variable {constants known : List String}

theorem usesDeclared_append_iff {a b : List Statement} :
    UsesDeclared constants known (a ++ b) ↔
      UsesDeclared constants known a ∧ UsesDeclared constants (known ++ declaredNames a) b := by
  induction a generalizing known with
  | nil => simp [UsesDeclared]
  | cons statement rest ih =>
    have hnames : declaredNames (statement :: rest)
        = statement.declared?.toList ++ declaredNames rest := by
      cases h : statement.declared? <;> simp [declaredNames, h]
    simp only [List.cons_append, UsesDeclared, ih, hnames, and_assoc, List.append_assoc]

/-- The use at one position. -/
theorem UsesDeclared.of_eq_append {statements before after : List Statement} {statement : Statement}
    (h : UsesDeclared constants known statements) (heq : statements = before ++ statement :: after) :
    ∀ x ∈ statement.graphVariables, x ∈ known ++ declaredNames before ∨
      (∃ type args, statement = .declareVariable type x args) ∨ x ∈ constants := by
  subst heq
  exact (usesDeclared_append_iff.1 h).2.1

/-- A variable that is declared with its factor uses the inputs of the factor. -/
theorem usesDeclared_variable {type name factor : String} {args factorArgs inputs : List String}
    (h : ∀ x ∈ inputs, x ∈ known ∨ x ∈ constants) :
    UsesDeclared constants known
      [.declareVariable type name args, .addFactor factor name factorArgs inputs] := by
  refine ⟨?_, ?_, trivial⟩
  · intro x hx
    obtain rfl := List.mem_singleton.1 hx
    exact .inr (.inl ⟨type, args, rfl⟩)
  · intro x hx
    rcases List.mem_cons.1 hx with rfl | hx
    · simp [Statement.declared?]
    · rcases h x hx with hknown | hconstant
      · exact .inl (List.mem_append_left _ hknown)
      · exact .inr (.inr hconstant)

end Java

namespace Compiler

open Java (declaredNames UsesDeclared)
open Trace

variable {c : Compiler} {assigned : List String} {types : List (String × VariableType)}
  {depth : Depth} {e : Emission} {constants known names out : List String}

/-- The texts of arguments are the names of variables or constants. -/
theorem mem_of_javaAll {args : List Node} {texts : List String} (h : Node.javaAll args = .ok texts)
    {x : String} (hx : x ∈ texts) :
    x ∈ variableNames args ∨ ∃ arg ∈ args, (∀ name, arg ≠ .var name) ∧ arg.java = .ok x := by
  induction args generalizing texts with
  | nil =>
    cases h
    cases hx
  | cons arg rest ih =>
    obtain ⟨first, hfirst, h⟩ := bind_eq_ok_iff.1 h
    obtain ⟨others, hothers, h⟩ := bind_eq_ok_iff.1 h
    cases h
    rcases List.mem_cons.1 hx with rfl | hx
    · cases arg with
      | var name =>
        cases hfirst
        exact .inl (by simp [variableNames])
      | _ => exact .inr ⟨_, List.mem_cons_self, by simp, hfirst⟩
    · rcases ih hothers hx with hvar | ⟨arg', hmem, hconstant⟩
      · exact .inl (mem_variableNames_cons hvar)
      · exact .inr ⟨arg', List.mem_cons_of_mem _ hmem, hconstant⟩

/-- What a described call joins to its variable is read by the call, or is a constant of it. -/
theorem mem_reads_or_mem_constantTextsOf {name output callee : String} {place : Place}
    {args : List Node} {d : Factor.Descriptor} (hkind : EvidenceKind.ofName? callee = none)
    (h : d.Describes c.settings output callee args) {x : String} (hx : x ∈ d.inputs) :
    x ∈ reads c.settings (.call callee args) ∨
      x ∈ constantTextsOf c.settings (place, .assign name (.call callee args)) := by
  have hrendered : x ∈ d.rendered := by
    rcases h.inputs with hnone | hall
    · rw [hnone] at hx
      cases hx
    · exact hall ▸ hx
  rcases mem_of_javaAll h.rendered hrendered with hvar | ⟨arg, harg, hconstant, htext⟩
  · left
    rw [reads_call hkind, h.handedOn_eq]
    exact hvar
  · right
    exact mem_constantTextsOf_call (h.handedOn_eq ▸ harg) hconstant htext

/-- Code of a body that uses declared names only, wherever the names that the body may use are declared.
The names that may be used after the body are declared then, too. -/
def Covers (constants : List String) (settings : Settings) (visibility : Visibility)
    (body : List Node) (output : List Java.Statement) : Prop :=
  ∀ {names out known : List String}, (∀ x ∈ constantTexts settings body, x ∈ constants) →
    scopeAfter settings visibility body names = some out → (∀ x ∈ names, x ∈ known) →
    UsesDeclared constants known output ∧ ∀ x ∈ out, x ∈ known ++ declaredNames output

section

variable (hfind : c.find = Factor.Registry.builtin.find?)

include hfind

/-- A described call uses what it reads. -/
theorem usesDeclared_described {name output callee : String} {place : Place} {args : List Node}
    {d : Factor.Descriptor} {notices : List Notice} (hkind : EvidenceKind.ofName? callee = none)
    (hdescribe : (Factor.describe c.settings c.find output callee args).result = .ok d)
    (hreads : ∀ x ∈ reads c.settings (.call callee args), x ∈ known)
    (hconst : ∀ x ∈ constantTextsOf c.settings (place, .assign name (.call callee args)),
      x ∈ constants) :
    UsesDeclared constants known (Emission.described output d notices).output := by
  rw [hfind] at hdescribe
  refine Java.usesDeclared_variable fun x hx => ?_
  rcases mem_reads_or_mem_constantTextsOf hkind (Factor.describes_of_describe hdescribe) hx with h | h
  · exact .inl (hreads x h)
  · exact .inr (hconst x h)

theorem usesDeclared_of_yields {visibility : Visibility} {node : Node}
    (h : Yields c depth types node e)
    (hconst : ∀ x ∈ constantTexts c.settings [node], x ∈ constants)
    (hscope : scopeAfterNode c.settings visibility node names = some out)
    (hknown : ∀ x ∈ names, x ∈ known) : UsesDeclared constants known e.output := by
  have hevidence : ∀ {name kind statement}, name ∈ names →
      Evidence.statement c.settings name kind = .ok statement →
      UsesDeclared constants known [statement] := by
    intro name kind statement hname hstatement
    obtain ⟨hvariables, -⟩ := Evidence.statement_eq_ok hstatement
    refine ⟨fun x hx => ?_, trivial⟩
    rw [hvariables, List.mem_singleton] at hx
    exact .inl (hx ▸ hknown name hname)
  cases h with
  | @call _ _ name callee args _ hkind hdescribe =>
    obtain ⟨hreads, -⟩ := scopeAfterNode_assign_eq_some_iff.1 hscope
    have htexts : ∀ x ∈ constantTextsOf c.settings (.within .top, .assign name (.call callee args)),
        x ∈ constants := by
      simpa [constantTexts] using hconst
    exact usesDeclared_described hfind hkind hdescribe (fun x hx => hknown x (hreads x hx)) htexts
  | copy =>
    obtain ⟨hreads, -⟩ := scopeAfterNode_assign_eq_some_iff.1 hscope
    exact Java.usesDeclared_variable fun x hx => .inl (hknown x (hreads x hx))
  | literal => exact ⟨by simp [Java.Statement.graphVariables], trivial⟩
  | array => exact ⟨by simp [Java.Statement.graphVariables], trivial⟩
  | evidence hstatement =>
    exact hevidence (scopeAfterNode_evidence_eq_some_iff.1 hscope).1 hstatement
  | evidenceCall hkind hstatement =>
    obtain ⟨hreads, -⟩ := scopeAfterNode_assign_eq_some_iff.1 hscope
    refine hevidence (hreads _ ?_) hstatement
    simp [reads, hkind, variableNames]
  | query _ name =>
    obtain ⟨hname, -⟩ := scopeAfterNode_query_eq_some_iff.1 hscope
    simpa [UsesDeclared, Java.Statement.graphVariables, Java.Statement.declared?]
      using Or.inl (hknown name hname)

theorem mem_of_scopeAfterNode_of_yields {visibility : Visibility} {node : Node}
    (h : Yields c depth types node e)
    (hscope : scopeAfterNode c.settings visibility node names = some out) :
    ∀ x ∈ out, x ∈ names ∨ x ∈ declaredNames e.output := by
  intro x hx
  rw [declaredNames_of_yields hfind h]
  cases h with
  | evidence => exact .inl ((scopeAfterNode_evidence_eq_some_iff.1 hscope).2 ▸ hx)
  | query => exact .inl ((scopeAfterNode_query_eq_some_iff.1 hscope).2 ▸ hx)
  | _ => exact mem_of_scopeAfterNode_assign hscope hx

theorem usesDeclared_of_supplies {merge text : String} {branch : Branch} {value : Node}
    {type : Option VariableType} (h : Supplies c assigned merge branch types value text type e)
    (hconst : ∀ x ∈ constantTextsOf c.settings (.last branch, .assign merge value), x ∈ constants)
    (hreads : ∀ x ∈ reads c.settings value, x ∈ known) :
    UsesDeclared constants known e.output ∧
      (text ∈ known ++ declaredNames e.output ∨ text ∈ constants) := by
  cases h with
  | var =>
    refine ⟨trivial, .inl ?_⟩
    simpa using hreads
  | literal htext =>
    refine ⟨trivial, .inr (hconst _ ?_)⟩
    simp [constantTextsOf, htext, Except.toOption]
  | call hkind _ _ hdescribe =>
    refine ⟨usesDeclared_described hfind hkind hdescribe hreads hconst, .inl ?_⟩
    rw [declaredNames_described hfind hdescribe]
    exact List.mem_append_right _ List.mem_cons_self

/-- A branch with its value uses declared names only, and supplies one or a constant. -/
theorem usesDeclared_of_branch {visibility : Visibility} {body : List Node} {value : Node}
    {merge text : String} {branch : Branch} {type : Option VariableType} {e' : Emission}
    (hbody : Covers constants c.settings visibility body e.output)
    (hvalue : Supplies c assigned merge branch types value text type e')
    (hconst : ∀ x ∈ constantTexts c.settings body, x ∈ constants)
    (hconstValue : ∀ x ∈ constantTextsOf c.settings (.last branch, .assign merge value),
      x ∈ constants)
    (hscope : scopeAfter c.settings visibility body names = some out)
    (hreads : ∀ x ∈ reads c.settings value, x ∈ out) (hknown : ∀ x ∈ names, x ∈ known) :
    UsesDeclared constants known (e ++ e').output ∧
      (∀ x ∈ out, x ∈ known ++ declaredNames (e ++ e').output) ∧
      (text ∈ known ++ declaredNames (e ++ e').output ∨ text ∈ constants) := by
  obtain ⟨huses, hout⟩ := hbody hconst hscope hknown
  obtain ⟨husesValue, htext⟩ := usesDeclared_of_supplies hfind hvalue hconstValue
    fun x hx => hout x (hreads x hx)
  rw [Emission.output_append, Java.declaredNames_append, ← List.append_assoc]
  refine ⟨Java.usesDeclared_append_iff.2 ⟨huses, husesValue⟩, fun x hx => ?_, htext⟩
  exact List.mem_append_left _ (hout x hx)

/-- **The code of a body uses declared names only.** -/
theorem covers_of_emits {visibility : Visibility} {body : List Node}
    (h : Emits c assigned depth types body e) :
    Covers constants c.settings visibility body e.output := by
  induction h with
  | nil =>
    intro names out known _ hscope hknown
    cases hscope
    exact ⟨trivial, by simpa using hknown⟩
  | @step _ _ node rest e₁ e₂ _ hnode _ ih =>
    intro names out known hconst hscope hknown
    rw [constantTexts_cons, List.forall_mem_append] at hconst
    obtain ⟨mid, hmid, hscope⟩ := scopeAfter_cons_eq_some_iff.1 hscope
    have hfirst := usesDeclared_of_yields hfind hnode hconst.1 hmid hknown
    have hdeclared : ∀ x ∈ mid, x ∈ known ++ declaredNames e₁.output := by
      intro x hx
      rcases mem_of_scopeAfterNode_of_yields hfind hnode hmid x hx with hx | hx
      · exact List.mem_append_left _ (hknown x hx)
      · exact List.mem_append_right _ hx
    obtain ⟨hrest, hout⟩ := ih hconst.2 hscope hdeclared
    refine ⟨Java.usesDeclared_append_iff.2 ⟨hfirst, hrest⟩, ?_⟩
    simpa [List.append_assoc] using hout
  | @choice _ _ test merge thenBody elseBody rest thenValue elseValue consequent alternate
      thenType elseType e₁ e₂ e₃ e₄ e₅ _ hthenValue _ helseValue _ ihThen ihElse ihRest =>
    intro names out known hconst hscope hknown
    simp only [constantTexts_choice, List.forall_mem_append] at hconst
    obtain ⟨hconstThen, hconstThenValue, hconstElse, hconstElseValue, hconstRest⟩ := hconst
    obtain ⟨mid, hmid, hscope⟩ := scopeAfter_cons_eq_some_iff.1 hscope
    obtain ⟨htest, inThen, hinThen, hthenReads, inElse, hinElse, helseReads, rfl⟩ :=
      scopeAfterNode_choice_eq_some_iff.1 hmid
    obtain ⟨hthen, hinThen, hconsequent⟩ := usesDeclared_of_branch hfind ihThen hthenValue
      hconstThen hconstThenValue hinThen hthenReads hknown
    -- In the alternate the names of the consequent may be visible or not.
    have hbetween : ∀ x ∈ visibility.leave names inThen,
        x ∈ known ++ declaredNames (e₁ ++ e₂).output := by
      intro x hx
      rcases Visibility.mem_or_mem_of_mem_leave hx with hx | hx
      · exact List.mem_append_left _ (hknown x hx)
      · exact hinThen x hx
    obtain ⟨helse, hinElse, halternate⟩ := usesDeclared_of_branch hfind ihElse helseValue
      hconstElse hconstElseValue hinElse helseReads hbetween
    have hmerge : UsesDeclared constants
        (known ++ declaredNames (e₁ ++ e₂).output ++ declaredNames (e₃ ++ e₄).output)
        (Emission.merge c merge (thenType <|> elseType) test alternate consequent).output := by
      refine Java.usesDeclared_variable fun x hx => ?_
      simp only [List.mem_cons, List.not_mem_nil, or_false] at hx
      rcases hx with rfl | rfl | rfl
      · exact .inl (List.mem_append_left _ (List.mem_append_left _ (hknown _ htest)))
      · exact halternate
      · exact hconsequent.imp_left (List.mem_append_left _)
    have hafter : ∀ x ∈ merge :: visibility.leave (visibility.leave names inThen) inElse,
        x ∈ known ++ declaredNames (e₁ ++ e₂).output ++ declaredNames (e₃ ++ e₄).output ++
          [merge] := by
      intro x hx
      rcases List.mem_cons.1 hx with rfl | hx
      · exact List.mem_append_right _ List.mem_cons_self
      · refine List.mem_append_left _ ?_
        rcases Visibility.mem_or_mem_of_mem_leave hx with hx | hx
        · exact List.mem_append_left _ (hbetween x hx)
        · exact hinElse x hx
    obtain ⟨hrest, hout⟩ := ihRest hconstRest hscope hafter
    rw [Emission.append_assoc (e₁ ++ e₂) e₃ e₄]
    simp only [Emission.output_append _ e₅, Emission.output_append (e₁ ++ e₂ ++ (e₃ ++ e₄)),
      Emission.output_append (e₁ ++ e₂) (e₃ ++ e₄), Java.usesDeclared_append_iff,
      Java.declaredNames_append, ← List.append_assoc] at hthen helse hmerge hrest hout ⊢
    exact ⟨⟨⟨⟨hthen, helse⟩, hmerge⟩, hrest⟩, hout⟩

end

/-- **Declaration before use.**  If a program reads only what it assigned above, then each graph variable
that a statement of its code names was declared by an earlier statement, unless the statement is its
declaration or the name is no variable but the text of a constant. -/
theorem mem_declaredNames_of_mem_graphVariables {settings : Settings} {body : List Node}
    {output before after : List Java.Statement} {statement : Java.Statement}
    (hbody : Node.Body body) (hscope : ReadsInScope settings .textual body)
    (h : ((Session.builtin settings).compiler.statements body).result = .ok output)
    (hat : output = before ++ statement :: after) :
    ∀ x ∈ statement.graphVariables, x ∈ declaredNames before ∨
      (∃ type args, statement = .declareVariable type x args) ∨ x ∈ constantTexts settings body := by
  obtain ⟨e, he, rfl⟩ := (result_statements_eq_ok_iff hbody).1 h
  obtain ⟨out, hout⟩ := Option.isSome_iff_exists.1 hscope
  have huses : Java.UsesDeclared (constantTexts settings body) [] e.output :=
    (covers_of_emits rfl he (fun _ hx => hx) hout (by simp)).1
  simpa using huses.of_eq_append hat

theorem mem_declaredNames_of_mem_graphVariables_sample :
    ∃ output before after,
      ((Session.builtin {}).compiler.statements Node.sample).result = .ok output ∧
      output = before ++ .addFactor "Multiplexer" "outer" [] ["coin", "other", "outer_then"] :: after ∧
      ∀ x ∈ ["outer", "coin", "other", "outer_then"], x ∈ declaredNames before ∨
        (∃ type args, Java.Statement.addFactor "Multiplexer" "outer" [] ["coin", "other", "outer_then"]
          = .declareVariable type x args) ∨ x ∈ constantTexts {} Node.sample := by
  obtain ⟨output, h, hmem⟩ := Factor.exists_eq_ok_of_toOption_map
    (show ((Session.builtin {}).compiler.statements Node.sample).result.toOption.map
      (fun output => decide (.addFactor "Multiplexer" "outer" [] ["coin", "other", "outer_then"] ∈ output))
      = some true by decide +kernel)
  obtain ⟨before, after, hat⟩ := List.append_of_mem (of_decide_eq_true hmem)
  exact ⟨output, before, after, h, hat,
    mem_declaredNames_of_mem_graphVariables Node.body_sample (by decide +kernel) h hat⟩

end Compiler

end TraceGraph
