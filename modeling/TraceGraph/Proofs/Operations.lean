import TraceGraph.Proofs.Assembly

/-!
# What the code operates on

Three kinds of statements operate on a graph variable that is there already: its value is fixed, a factor is
put on it as evidence, or its belief is extracted.  They come from the statements of a program that are about
a variable, its evidence and its query (`Trace.target?`), and these take a name without asking what it stands
for.  An assigned call, an alias and a conditional make a name a graph variable; a literal makes it a plain
local, on which nothing can operate.

`OperatesOnVariables` is what one would like to hold of the code of every program that assigns its targets
before.  It holds of those in which each target was assigned by something other than a literal, and of no
others (`operatesOnVariables_iff`).  Both sides say something of each position of a list and of what comes
before it, so both are put as `HoldsAlong`, and the main lemma `holdsAlong_iff_of_emits` goes through a body
with the code and the statements before it in hand.
-/

namespace TraceGraph

/-- Something holds of each item of a list, together with what comes before the item: the items before it in
the list, and those before the list. -/
def HoldsAlong {α : Type} (P : List α → α → Prop) (start l : List α) : Prop :=
  ∀ before x after, l = before ++ x :: after → P (start ++ before) x

section

variable {α : Type} {P : List α → α → Prop} {start : List α}

theorem holdsAlong_nil : HoldsAlong P start [] := by
  intro before x after heq
  simp at heq

theorem holdsAlong_cons_iff {x : α} {rest : List α} :
    HoldsAlong P start (x :: rest) ↔ P start x ∧ HoldsAlong P (start ++ [x]) rest := by
  constructor
  · intro h
    refine ⟨by simpa using h [] x rest rfl, fun before y after heq => ?_⟩
    simpa using h (x :: before) y after (by rw [heq, List.cons_append])
  · rintro ⟨hx, hrest⟩ before y after heq
    cases before with
    | nil =>
      cases heq
      simpa using hx
    | cons first before =>
      obtain ⟨rfl, htail⟩ := List.cons.inj heq
      simpa using hrest before y after htail

theorem holdsAlong_append_iff {a b : List α} :
    HoldsAlong P start (a ++ b) ↔ HoldsAlong P start a ∧ HoldsAlong P (start ++ a) b := by
  induction a generalizing start with
  | nil => simp [holdsAlong_nil]
  | cons x rest ih =>
    rw [List.cons_append, holdsAlong_cons_iff, holdsAlong_cons_iff, ih, and_assoc, List.append_assoc,
      List.singleton_append]

instance [h : ∀ before x, Decidable (P before x)] :
    (start l : List α) → Decidable (HoldsAlong P start l)
  | _, [] => isTrue holdsAlong_nil
  | start, x :: rest =>
    have := instDecidableHoldsAlong (start ++ [x]) rest
    decidable_of_iff (P start x ∧ HoldsAlong P (start ++ [x]) rest) holdsAlong_cons_iff.symm

end

namespace Java

namespace Statement

/-- The graph variable that a statement declares. -/
def newVariable? : Statement → Option String
  | .declareVariable _ name _ => some name
  | _ => none

/-- The graph variable that a statement operates on, if it comes right after another: the one that it fixes,
that it states evidence on, or whose belief it extracts. -/
def operand? (previous : Option Statement) : Statement → Option String
  | .fixValue name _ => some name
  | .extractBelief _ name => some name
  | .addFactor factor output factorArgs inputs =>
    if isEvidenceAfter previous (.addFactor factor output factorArgs inputs) then some output else none
  | _ => none

/-- What operates on a variable is evidence or part of the inference. -/
theorem operand?_eq_none {previous : Option Statement} {statement : Statement}
    (hevidence : statement.isEvidenceAfter previous = false) (hinference : statement.isInference = false) :
    statement.operand? previous = none := by
  cases statement with
  | fixValue => cases hevidence
  | extractBelief => cases hinference
  | addFactor => simp [operand?, hevidence]
  | _ => rfl

end Statement

/-- The graph variables that statements declare. -/
def declaredVariables (statements : List Statement) : List String :=
  statements.filterMap Statement.newVariable?

/-- If the statement operates on a graph variable, the variable is declared before. -/
def OperandDeclared (before : List Statement) (statement : Statement) : Prop :=
  ∀ x ∈ statement.operand? before.getLast?, x ∈ declaredVariables before

/-- Each operation on a graph variable comes after the declaration of the variable. -/
def OperatesOnVariables (statements : List Statement) : Prop := HoldsAlong OperandDeclared [] statements

instance (before : List Statement) (statement : Statement) : Decidable (OperandDeclared before statement) :=
  inferInstanceAs (Decidable (∀ x ∈ statement.operand? before.getLast?, x ∈ declaredVariables before))

instance (statements : List Statement) : Decidable (OperatesOnVariables statements) :=
  inferInstanceAs (Decidable (HoldsAlong OperandDeclared [] statements))

end Java

namespace Trace

open Compiler (isEvidence queried?)

/-- The variable that a statement of a program is about: the target of evidence, or what a query asks
for. -/
def target? : Node → Option String
  | .evidence _ name => some name
  | .query name => some name
  | .assign _ (.call callee [.var name]) => if (EvidenceKind.ofName? callee).isSome then some name else none
  | _ => none

/-- The name that a statement assigns, evidence apart. -/
def plainlyAssigned? (occurrence : Place × Node) : Option String :=
  if isEvidence occurrence.2 then none else assigned? occurrence

/-- The graph variable that a statement assigns: a call, an alias or a conditional, but no literal. -/
def variableAssigned? : Place × Node → Option String
  | (.within _, .assign name (.call callee _)) =>
    if (EvidenceKind.ofName? callee).isSome then none else some name
  | (.within _, .assign name (.var _)) => some name
  | (.within _, .choice _ merge _ _ _ _) => some merge
  | _ => none

/-- The names that a body assigns at any depth, evidence apart. -/
def plainNames (body : List Node) : List String := (occurrences .top body).filterMap plainlyAssigned?

/-- The graph variables that a body assigns at any depth. -/
def assignedVariables (body : List Node) : List String :=
  (occurrences .top body).filterMap variableAssigned?

/-- The graph variables that the code of a body declares: those that it assigns, and those that its branches
need of their own. -/
def codeVariables (body : List Node) : List String :=
  (occurrences .top body).filterMap fun o => (variableAssigned? o).or (local? o)

theorem occurrences_append (depth : Depth) (a b : List Node) :
    occurrences depth (a ++ b) = occurrences depth a ++ occurrences depth b := by
  induction a with
  | nil => rfl
  | cons node rest ih => rw [List.cons_append, occurrences, ih, occurrences, List.append_assoc]

theorem mem_codeVariables_iff {body : List Node} {x : String} :
    x ∈ codeVariables body ↔ x ∈ assignedVariables body ∨ x ∈ locals body := by
  constructor
  · exact mem_filterMap_or
  · rintro (h | h)
    · obtain ⟨o, ho, hx⟩ := List.mem_filterMap.1 h
      exact List.mem_filterMap.2 ⟨o, ho, by simp [hx]⟩
    · obtain ⟨o, ho, hx⟩ := List.mem_filterMap.1 h
      -- Only the end of a branch needs a variable of its own, and it assigns none.
      have hnone : variableAssigned? o = none := by
        unfold local? at hx
        split at hx
        · rfl
        · cases hx
      exact List.mem_filterMap.2 ⟨o, ho, by simp [hnone, hx]⟩

theorem mem_assignedNames_of_mem_plainNames {body : List Node} {x : String} (h : x ∈ plainNames body) :
    x ∈ assignedNames body := by
  obtain ⟨o, ho, hx⟩ := List.mem_filterMap.1 h
  exact List.mem_filterMap.2 ⟨o, ho, (Option.ite_none_left_eq_some.1 hx).2⟩

/-- Each target is among these names of the statements before it. -/
def TargetsIn (names : List Node → List String) (body : List Node) : Prop :=
  HoldsAlong (fun before node => ∀ x ∈ target? node, x ∈ names before) [] body

instance (names : List Node → List String) (body : List Node) : Decidable (TargetsIn names body) :=
  inferInstanceAs (Decidable (HoldsAlong (fun before node => ∀ x ∈ target? node, x ∈ names before) [] body))

end Trace

namespace Compiler

open Java (Statement declaredVariables)
open Trace

variable {c : Compiler} {assigned : List String} {types : List (String × VariableType)} {e : Emission}

/-! ### The variables of the code -/

/-- A statement declares in the code the graph variable that it assigns, or the one that it needs for the
value of a branch. -/
theorem declaredVariables_of_codes (hfind : c.find = Factor.Registry.builtin.find?)
    {occurrence : Place × Node} {piece : List Statement} (h : Codes c occurrence piece) :
    declaredVariables piece = ((variableAssigned? occurrence).or (local? occurrence)).toList := by
  have hdescribed : ∀ {output callee args d},
      (Factor.describe c.settings c.find output callee args).result = .ok d →
      declaredVariables d.statements = [output] := by
    intro output callee args d hdescribe
    rw [hfind] at hdescribe
    have houtput := (Factor.describes_of_describe hdescribe).output
    simp [declaredVariables, Factor.Descriptor.statements, Factor.Descriptor.declaration,
      Factor.Descriptor.attachment, Statement.newVariable?, houtput]
  cases h with
  | call hkind hdescribe =>
    rw [hdescribed hdescribe]
    simp [variableAssigned?, hkind]
  | branchCall hkind hdescribe =>
    rw [hdescribed hdescribe]
    simp [variableAssigned?, local?, hkind]
  | merge _ hfactor =>
    cases hfactor
    rfl
  | evidence hstates =>
    cases hstates with
    | plain kind => cases kind <;> rfl
    | @call _ _ _ kind hkind =>
      cases kind <;> simp [variableAssigned?, local?, hkind] <;> rfl
  | _ => rfl

theorem declaredVariables_flatten (hfind : c.find = Factor.Registry.builtin.find?)
    {occurrences : List (Place × Node)} {pieces : List (List Statement)}
    (h : List.Forall₂ (Codes c) occurrences pieces) :
    declaredVariables pieces.flatten =
      occurrences.filterMap fun o => (variableAssigned? o).or (local? o) := by
  rw [List.filterMap_eq_flatMap_toList]
  induction h with
  | nil => rfl
  | cons hpiece _ ih =>
    rw [List.flatten_cons, declaredVariables, List.filterMap_append, List.flatMap_cons, ← ih,
      ← declaredVariables_of_codes hfind hpiece]
    rfl

theorem declaredVariables_of_emits (hfind : c.find = Factor.Registry.builtin.find?) {body : List Node}
    (h : Emits c assigned .top types body e) : declaredVariables e.output = codeVariables body := by
  obtain ⟨pieces, hpieces, hcodes⟩ := exists_pieces_of_emits h
  rw [hpieces, declaredVariables_flatten hfind hcodes, codeVariables]

/-! ### Operations and targets -/

/-- A statement that is about no variable states no evidence and asks for nothing; any other becomes a piece
of evidence on its target, or the inference for it. -/
theorem target?_of_emits {node : Node} (h : Emits c assigned .top types [node] e) :
    (target? node = none ∧ isEvidence node = false ∧ queried? node = none) ∨
      ∃ x, target? node = some x ∧
        ((∃ kind, e.output = [Evidence.code c.settings x kind]) ∨
          e.output = Java.inference c.settings (some x)) := by
  cases h with
  | choice => exact .inl ⟨rfl, rfl, rfl⟩
  | step _ hnode hnil =>
    cases hnil
    rw [Emission.append_empty]
    cases hnode with
    | @call _ _ _ callee args _ hkind =>
      refine .inl ⟨?_, by simp [isEvidence, hkind], rfl⟩
      unfold target?
      split <;> simp_all
    | @evidence _ kind name _ hstatement =>
      exact .inr ⟨name, rfl, .inl ⟨kind, by rw [← Evidence.eq_code_of_statement hstatement]; rfl⟩⟩
    | @evidenceCall _ _ _ target kind _ hkind hstatement =>
      refine .inr ⟨target, by simp [target?, hkind], .inl ⟨kind, ?_⟩⟩
      rw [← Evidence.eq_code_of_statement hstatement]
      rfl
    | query _ name => exact .inr ⟨name, rfl, .inr rfl⟩
    | _ => exact .inl ⟨rfl, rfl, rfl⟩

/-- Code that shows no evidence and runs no inference does not operate on anything. -/
theorem holdsAlong_of_shows_nil {code statements : List Statement} (hclosed : Java.Closed code.getLast?)
    (hshows : Java.Shows [] statements) (hinference : statements.filter Statement.isInference = []) :
    HoldsAlong Java.OperandDeclared code statements := by
  intro before statement after heq x hx
  have hevidence : statement.isEvidenceAfter (code ++ before).getLast? = false := by
    rw [List.getLast?_append, ← Bool.not_eq_true]
    intro hevidence
    have hmem := Java.mem_evidenceAfter heq hevidence
    rw [(hshows _ hclosed).1] at hmem
    cases hmem
  have hother : statement.isInference = false := by
    rw [← Bool.not_eq_true]
    exact List.filter_eq_nil_iff.1 hinference statement (by simp [heq])
  rw [Statement.operand?_eq_none hevidence hother] at hx
  cases hx

/-- A piece of evidence operates on its target. -/
theorem operand?_code {previous : Option Statement} (hclosed : Java.Closed previous) (settings : Settings)
    (name : String) (kind : EvidenceKind) :
    (Evidence.code settings name kind).operand? previous = some name := by
  cases kind with
  | condition => rfl
  | factor =>
    obtain ⟨hevidence, -⟩ := Evidence.shows_code settings name .factor previous hclosed
    have hself : (Evidence.code settings name .factor).isEvidenceAfter previous = true := by
      by_contra hnot
      rw [Java.evidenceAfter, if_neg hnot] at hevidence
      cases hevidence
    simp only [Evidence.code] at hself ⊢
    rw [Statement.operand?, if_pos hself]

/-- One statement: its code operates on declared variables if and only if the target is one. -/
theorem holdsAlong_iff_of_emits_singleton {node : Node} (h : Emits c assigned .top types [node] e)
    {code : List Statement} (hclosed : Java.Closed code.getLast?) :
    HoldsAlong Java.OperandDeclared code e.output ↔
      ∀ x ∈ target? node, x ∈ declaredVariables code := by
  rcases target?_of_emits h with ⟨htarget, hevidence, hquery⟩ | ⟨x, htarget, houtput⟩
  · obtain ⟨evidence, hstates, hshows⟩ := exists_shows_of_emits h
    obtain ⟨hinference, -⟩ := inference_of_emits h
    rw [List.filter_cons_of_neg (by simp [hevidence]), List.filter_nil, List.forall₂_nil_left_iff]
      at hstates
    rw [asked?_cons hquery] at hinference
    subst hstates
    have hholds := holdsAlong_of_shows_nil hclosed hshows hinference
    exact ⟨fun _ y hy => by simp [htarget] at hy, fun _ => hholds⟩
  · simp only [htarget]
    rcases houtput with ⟨kind, houtput⟩ | houtput
    · rw [houtput, holdsAlong_cons_iff, and_iff_left holdsAlong_nil, Java.OperandDeclared,
        operand?_code hclosed]
    · -- Of the four statements of the inference, the third is about the variable.
      rw [houtput]
      simp [Java.inference, holdsAlong_cons_iff, holdsAlong_nil, Java.OperandDeclared,
        Statement.operand?, declaredVariables, Statement.newVariable?]

/-- **The code of a body operates on declared variables if and only if its targets are among them.** -/
theorem holdsAlong_iff_of_emits (hfind : c.find = Factor.Registry.builtin.find?) {body : List Node}
    (h : Emits c assigned .top types body e) {code : List Statement} {before : List Node}
    (hclosed : Java.Closed code.getLast?) (hcode : declaredVariables code = codeVariables before) :
    HoldsAlong Java.OperandDeclared code e.output ↔
      HoldsAlong (fun before node => ∀ x ∈ target? node, x ∈ codeVariables before)
        before body := by
  induction body generalizing types e code before with
  | nil =>
    cases h
    exact iff_of_true holdsAlong_nil holdsAlong_nil
  | cons node rest ih =>
    obtain ⟨-, e₁, e₂, hnode, hrest, rfl⟩ := emits_cons_iff.1 h
    obtain ⟨evidence, -, hshows⟩ := exists_shows_of_emits hnode
    have hclosed' : Java.Closed (code ++ e₁.output).getLast? := by
      rw [List.getLast?_append]
      exact (hshows _ hclosed).2
    have hcode' : declaredVariables (code ++ e₁.output) = codeVariables (before ++ [node]) := by
      rw [declaredVariables, List.filterMap_append, codeVariables, occurrences_append,
        List.filterMap_append]
      exact congrArg₂ (· ++ ·) hcode (declaredVariables_of_emits hfind hnode)
    rw [Emission.output_append, holdsAlong_append_iff, holdsAlong_cons_iff,
      holdsAlong_iff_of_emits_singleton hnode hclosed, hcode, ih hrest hclosed' hcode']

/-- **When the code operates on graph variables only.**  If a program states evidence and asks only of names
that it assigned before, then in its code each value that is fixed, each piece of evidence and each belief is
that of a graph variable that is declared before, if and only if each of those names was assigned before by a
call, by an alias or by a conditional; that it was assigned a literal is not enough. -/
theorem operatesOnVariables_iff {settings : Settings} {body : List Node} {output : List Statement}
    (hbody : Node.Body body) (htargets : TargetsIn plainNames body)
    (h : ((Session.builtin settings).compiler.statements body).result = .ok output) :
    Java.OperatesOnVariables output ↔ TargetsIn assignedVariables body := by
  obtain ⟨e, he, rfl⟩ := (result_statements_eq_ok_iff hbody).1 h
  have hstart : declaredVariables [] = codeVariables [] := rfl
  rw [Java.OperatesOnVariables, holdsAlong_iff_of_emits rfl he (fun _ _ _ h => by cases h) hstart]
  constructor
  · intro hholds before node after heq x hx
    rcases mem_codeVariables_iff.1 (hholds before node after heq x hx) with hmem | hlocal
    · exact hmem
    · -- A variable that a branch needs of its own is assigned nowhere.
      have hassigned := mem_assignedNames_of_mem_plainNames (htargets before node after heq x hx)
      refine absurd ((mem_namesOfAll_iff hbody x).2 ?_) ((fresh_of_emits he).unassigned x ?_)
      · rw [heq, assignedNames, occurrences_append, List.filterMap_append]
        exact List.mem_append_left _ hassigned
      · rw [heq, locals, occurrences_append, List.filterMap_append]
        exact List.mem_append_left _ hlocal
  · intro hholds before node after heq x hx
    exact mem_codeVariables_iff.2 (.inl (hholds before node after heq x hx))

theorem operatesOnVariables_sample :
    ∃ output, ((Session.builtin {}).compiler.statements Node.sample).result = .ok output ∧
      TargetsIn plainNames Node.sample ∧ TargetsIn assignedVariables Node.sample ∧
      Java.OperatesOnVariables output := by
  obtain ⟨output, h, -⟩ := Factor.exists_eq_ok_of_toOption_map
    (show ((Session.builtin {}).compiler.statements Node.sample).result.toOption.map List.length
      = some 20 by decide +kernel)
  have hplain : TargetsIn plainNames Node.sample := by decide +kernel
  have hassigned : TargetsIn assignedVariables Node.sample := by decide +kernel
  exact ⟨output, h, hplain, hassigned, (operatesOnVariables_iff Node.body_sample hplain h).2 hassigned⟩

/-- A name that was assigned a literal is taken for a graph variable: the program that assigns a number, puts
evidence of both kinds on it and asks for it is accepted, and its code operates on the local `int n`. -/
theorem not_operatesOnVariables_literal :
    ∃ body output, Node.Body body ∧ TargetsIn plainNames body ∧
      ((Session.builtin {}).compiler.statements body).result = .ok output ∧
      output.take 3 =
        [.declareLocal "int" "n" "2", .fixValue "n" "1", .addFactor "Identity" "n" [] []] ∧
      ¬ Java.OperatesOnVariables output := by
  let body : List Node :=
    [.assign "n" (.const (.int 2)), .evidence .condition "n", .evidence .factor "n", .query "n"]
  have hbody : Node.Body body :=
    .assign (by decide) (.const _) (.evidence _ (by decide) (.evidence _ (by decide)
      (.query (by decide) .nil)))
  obtain ⟨output, h, houtput⟩ := Factor.exists_eq_ok_of_toOption_map
    (show ((Session.builtin {}).compiler.statements body).result.toOption.map
        (fun output => (output.take 3, decide (Java.OperatesOnVariables output)))
      = some ([.declareLocal "int" "n" "2", .fixValue "n" "1", .addFactor "Identity" "n" [] []], false) by
        decide +kernel)
  obtain ⟨htake, hnot⟩ := Prod.mk.inj houtput
  exact ⟨body, output, hbody, by decide +kernel, h, htake, of_decide_eq_false hnot⟩

end Compiler

end TraceGraph
