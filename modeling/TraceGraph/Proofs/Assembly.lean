import TraceGraph.Proofs.Observation

/-!
# How the code is put together

The code of a program is laid end to end from pieces, one for each of its statements at every depth, in the
order of `Trace.occurrences`.  `Codes` says what the piece of a statement is: a variable with its factor, a
local, a piece of evidence, the inference, or nothing, for a branch whose value needs no variable of its own.
The piece of a conditional is its merge variable, picked by the multiplexer; what is inside the branches has
pieces of its own, which come before.

`exists_pieces_of_emits` finds the pieces by the rules for bodies.  Two things are read off them:

* `Java.Paired`: a variable is never declared without its factor right after it;
* `forall₂_merges`: where the multiplexer can be told from other factors by its name, the multiplexers in
  the code are those of the conditionals, one by one.
-/

namespace TraceGraph

namespace Java

/-- Each graph variable is declared with its factor right after it. -/
inductive Paired : List Statement → Prop
  | nil : Paired []
  | pair (type name : String) (args : List String) (factor : String) (factorArgs inputs : List String)
      {rest : List Statement} (hrest : Paired rest) :
      Paired (.declareVariable type name args :: .addFactor factor name factorArgs inputs :: rest)
  | other {statement : Statement} {rest : List Statement}
      (h : ∀ type name args, statement ≠ .declareVariable type name args) (hrest : Paired rest) :
      Paired (statement :: rest)

/-- The factors that come right after the declaration of their variable. -/
def pairedFactors : List Statement → List Statement
  | .declareVariable _ name _ :: .addFactor factor output factorArgs inputs :: rest =>
    if output = name then .addFactor factor output factorArgs inputs :: pairedFactors rest
    else pairedFactors rest
  | _ :: rest => pairedFactors rest
  | [] => []

/-- Does the statement add this factor? -/
def Statement.addsFactor (name : String) : Statement → Bool
  | .addFactor factor _ _ _ => factor == name
  | _ => false

theorem pairedFactors_pair (type name : String) (args : List String) (factor : String)
    (factorArgs inputs : List String) (rest : List Statement) :
    pairedFactors (.declareVariable type name args :: .addFactor factor name factorArgs inputs :: rest) =
      .addFactor factor name factorArgs inputs :: pairedFactors rest := by
  rw [pairedFactors, if_pos rfl]

theorem pairedFactors_cons {statement : Statement}
    (h : ∀ type name args, statement ≠ .declareVariable type name args) (rest : List Statement) :
    pairedFactors (statement :: rest) = pairedFactors rest := by
  cases statement with
  | declareVariable type name args => exact absurd rfl (h type name args)
  | _ => rw [pairedFactors]; intros; simp_all

namespace Paired

variable {a b : List Statement}

theorem append (ha : Paired a) (hb : Paired b) : Paired (a ++ b) := by
  induction ha with
  | nil => exact hb
  | pair type name args factor factorArgs inputs _ ih =>
    exact .pair type name args factor factorArgs inputs ih
  | other h _ ih => exact .other h ih

theorem pairedFactors_append (ha : Paired a) (b : List Statement) :
    pairedFactors (a ++ b) = pairedFactors a ++ pairedFactors b := by
  induction ha with
  | nil => rfl
  | pair type name args factor factorArgs inputs _ ih =>
    rw [List.cons_append, List.cons_append, pairedFactors_pair, pairedFactors_pair, ih, List.cons_append]
  | other h _ ih => rw [List.cons_append, pairedFactors_cons h, pairedFactors_cons h, ih]

/-- The factor of the variable that is declared at one position. -/
theorem of_eq_append (h : Paired a) {before after : List Statement} {type name : String}
    {args : List String} (heq : a = before ++ .declareVariable type name args :: after) :
    ∃ factor factorArgs inputs rest, after = .addFactor factor name factorArgs inputs :: rest := by
  induction h generalizing before with
  | nil => simp at heq
  | pair type' name' args' factor factorArgs inputs _ ih =>
    -- The declaration is the first statement, or else it comes after the factor.
    match before with
    | [] =>
      cases heq
      exact ⟨_, _, _, _, rfl⟩
    | [_] => cases heq
    | _ :: _ :: before =>
      obtain ⟨-, -, hrest⟩ : _ ∧ _ ∧ _ := by simpa using heq
      exact ih hrest
  | other hother _ ih =>
    match before with
    | [] =>
      cases heq
      exact absurd rfl (hother type name args)
    | _ :: before =>
      obtain ⟨-, hrest⟩ : _ ∧ _ := by simpa using heq
      exact ih hrest

end Paired

/-- Evidence at one position is among the evidence. -/
theorem mem_evidenceAfter {previous : Option Statement} {statements before after : List Statement}
    {statement : Statement} (heq : statements = before ++ statement :: after)
    (h : statement.isEvidenceAfter (before.getLast?.or previous) = true) :
    statement ∈ evidenceAfter previous statements := by
  rw [heq, evidenceAfter_append, evidenceAfter, if_pos h]
  simp

end Java

namespace Compiler

open Evidence (States)
open Java (Paired Statement declaredNames inference pairedFactors)
open Trace

/-- What a branch hands to the multiplexer as its value: a variable, the text of a literal, or the variable
that was made for a call. -/
inductive BranchValue (merge : String) (branch : Branch) : Node → String → Prop
  | var (name : String) : BranchValue merge branch (.var name) name
  | literal {value : Literal} {text : String} (h : branchText value = .ok text) :
      BranchValue merge branch (.const value) text
  | call (callee : String) (args : List Node) :
      BranchValue merge branch (.call callee args) (branch.variableName merge)

/-- The multiplexer that picks the value of a conditional.  The alternate value stands before the
consequent one. -/
inductive Merges (settings : Settings) : Node → Statement → Prop
  | intro {test merge alternate consequent : String} {thenBody elseBody : List Node}
      {thenValue elseValue : Node} (halternate : BranchValue merge .alternate elseValue alternate)
      (hconsequent : BranchValue merge .consequent thenValue consequent) :
      Merges settings (.choice (.var test) merge thenBody thenValue elseBody elseValue)
        (.addFactor settings.multiplexerFactor merge [] [test, alternate, consequent])

/-- The piece of code that a statement becomes, what is inside it apart. -/
inductive Codes (c : Compiler) : Place × Node → List Statement → Prop
  | call {depth : Depth} {name callee : String} {args : List Node} {d : Factor.Descriptor}
      (hkind : EvidenceKind.ofName? callee = none)
      (hdescribe : (Factor.describe c.settings c.find name callee args).result = .ok d) :
      Codes c (.within depth, .assign name (.call callee args)) d.statements
  | copy (depth : Depth) (name source : String) (type : VariableType) :
      Codes c (.within depth, .assign name (.var source))
        [.declareVariable type.name name [], .addFactor c.settings.aliasFactor name [] [source]]
  | literal {depth : Depth} {name type text : String} {value : Literal}
      (htype : localType name value = .ok type) (htext : value.java = .ok text) :
      Codes c (.within depth, .assign name (.const value)) [.declareLocal type name text]
  | array {depth : Depth} {name text : String} {elements : List Node}
      (htext : (Node.array elements).java = .ok text) :
      Codes c (.within depth, .assign name (.array elements))
        [.declareLocal (Node.elementType elements ++ "[]") name text]
  | evidence {node : Node} {statement : Statement} (h : States c.settings node statement) :
      Codes c (.within .top, node) [statement]
  | query (name : String) : Codes c (.within .top, .query name) (inference c.settings (some name))
  | branchCall {branch : Branch} {merge callee : String} {args : List Node} {d : Factor.Descriptor}
      (hkind : EvidenceKind.ofName? callee = none)
      (hdescribe : (Factor.describe c.settings c.find (branch.variableName merge) callee args).result
        = .ok d) :
      Codes c (.last branch, .assign merge (.call callee args)) d.statements
  | branchVar (branch : Branch) (merge name : String) :
      Codes c (.last branch, .assign merge (.var name)) []
  | branchLiteral (branch : Branch) (merge : String) (value : Literal) :
      Codes c (.last branch, .assign merge (.const value)) []
  | merge {depth : Depth} {test : Node} {merge : String} {thenBody elseBody : List Node}
      {thenValue elseValue : Node} {factor : Statement} (type : VariableType)
      (hfactor : Merges c.settings (.choice test merge thenBody thenValue elseBody elseValue) factor) :
      Codes c (.within depth, .choice test merge thenBody thenValue elseBody elseValue)
        [.declareVariable type.name merge [], factor]

variable {c : Compiler} {assigned : List String} {types : List (String × VariableType)}
  {depth : Depth} {e : Emission}

theorem codes_of_yields {node : Node} (h : Yields c depth types node e) :
    Codes c (.within depth, node) e.output := by
  cases h with
  | call hkind hdescribe => exact .call hkind hdescribe
  | copy => exact .copy _ _ _ _
  | literal htype htext => exact .literal htype htext
  | array _ htext => exact .array htext
  | @evidence _ kind name _ hstatement =>
    rw [Evidence.eq_code_of_statement hstatement]
    exact .evidence (.plain kind name)
  | @evidenceCall _ name _ target _ _ hkind hstatement =>
    rw [Evidence.eq_code_of_statement hstatement]
    exact .evidence (.call name target hkind)
  | query => exact .query _

theorem codes_of_supplies {merge text : String} {branch : Branch} {value : Node}
    {type : Option VariableType} (h : Supplies c assigned merge branch types value text type e) :
    Codes c (.last branch, .assign merge value) e.output ∧ BranchValue merge branch value text := by
  cases h with
  | var => exact ⟨.branchVar _ _ _, .var _⟩
  | literal htext => exact ⟨.branchLiteral _ _ _, .literal htext⟩
  | call hkind _ _ hdescribe => exact ⟨.branchCall hkind hdescribe, .call _ _⟩

/-- **The code of a body is laid end to end from the pieces of its statements**, one for each of them at
every depth, in their order. -/
theorem exists_pieces_of_emits {body : List Node} (h : Emits c assigned depth types body e) :
    ∃ pieces, e.output = pieces.flatten ∧ List.Forall₂ (Codes c) (occurrences depth body) pieces := by
  induction h with
  | nil => exact ⟨[], rfl, .nil⟩
  | @step depth _ node _ e₁ _ _ hnode _ ih =>
    obtain ⟨pieces, hpieces, hcodes⟩ := ih
    refine ⟨e₁.output :: pieces, by simp [hpieces], ?_⟩
    have hsingle : occurrencesIn depth node = [(.within depth, node)] := by
      cases hnode <;> rfl
    rw [occurrences, hsingle]
    exact .cons (codes_of_yields hnode) hcodes
  | @choice depth _ test merge thenBody elseBody _ thenValue elseValue consequent alternate thenType
      elseType _ e₂ _ e₄ _ _ hthenValue _ helseValue _ ihThen ihElse ihRest =>
    obtain ⟨thenPieces, hthenPieces, hthenCodes⟩ := ihThen
    obtain ⟨elsePieces, helsePieces, helseCodes⟩ := ihElse
    obtain ⟨restPieces, hrestPieces, hrestCodes⟩ := ihRest
    obtain ⟨hthenCode, hconsequent⟩ := codes_of_supplies hthenValue
    obtain ⟨helseCode, halternate⟩ := codes_of_supplies helseValue
    have hmerge : Codes c
        (.within depth, .choice (.var test) merge thenBody thenValue elseBody elseValue)
        (Emission.merge c merge (thenType <|> elseType) test alternate consequent).output :=
      .merge _ (.intro halternate hconsequent)
    rw [occurrences_choice]
    refine ⟨_, ?_, List.rel_append hthenCodes (.cons hthenCode
      (List.rel_append helseCodes (.cons helseCode (.cons hmerge hrestCodes))))⟩
    simp [hthenPieces, helsePieces, hrestPieces]

/-- Each statement of the code is in the piece of a statement of the body. -/
theorem exists_codes_of_mem {body : List Node} (h : Emits c assigned depth types body e)
    {statement : Statement} (hmem : statement ∈ e.output) :
    ∃ o ∈ occurrences depth body, ∃ piece, Codes c o piece ∧ statement ∈ piece := by
  obtain ⟨pieces, hpieces, hcodes⟩ := exists_pieces_of_emits h
  rw [hpieces] at hmem
  obtain ⟨piece, hpiece, hmem⟩ := List.mem_flatten.1 hmem
  obtain ⟨o, ho, hcode⟩ := exists_mem_of_forall₂ hcodes hpiece
  exact ⟨o, ho, piece, hcode, hmem⟩

/-! ### Declarations and their factors -/

theorem paired_of_codes {occurrence : Place × Node} {piece : List Statement}
    (h : Codes c occurrence piece) : Paired piece := by
  cases h with
  | call | branchCall => exact .pair _ _ _ _ _ _ .nil
  | copy => exact .pair _ _ _ _ _ _ .nil
  | merge type hfactor =>
    cases hfactor
    exact .pair _ _ _ _ _ _ .nil
  | evidence hstates =>
    refine .other (fun _ _ _ heq => ?_) .nil
    cases hstates with
    | plain kind => cases kind <;> cases heq
    | @call _ _ _ kind => cases kind <;> cases heq
  | literal | array => exact .other (fun _ _ _ heq => by cases heq) .nil
  | query =>
    iterate 4 refine .other (fun _ _ _ heq => by cases heq) ?_
    exact .nil
  | branchVar | branchLiteral => exact .nil

theorem paired_flatten {occurrences : List (Place × Node)} {pieces : List (List Statement)}
    (h : List.Forall₂ (Codes c) occurrences pieces) : Paired pieces.flatten := by
  induction h with
  | nil => exact .nil
  | cons hpiece _ ih => exact (paired_of_codes hpiece).append ih

/-- A second factor on a variable right after its own is evidence. -/
theorem exists_states_of_second_factor {body : List Node} (h : Emits c assigned depth types body e)
    {before rest : List Statement} {first second : Statement}
    (heq : e.output = before ++ first :: second :: rest)
    (hfirst : ∀ type name args, first ≠ .declareVariable type name args)
    (hsecond : ∃ factor output factorArgs inputs, second = .addFactor factor output factorArgs inputs) :
    ∃ node ∈ body, States c.settings node second := by
  obtain ⟨evidence, hstates, hshows⟩ := exists_shows_of_emits h
  obtain ⟨hevidence, -⟩ := hshows none fun _ _ _ h => by cases h
  have hsplit : e.output = (before ++ [first]) ++ second :: rest := by simpa using heq
  have hmem : second ∈ evidence := by
    rw [← hevidence]
    refine Java.mem_evidenceAfter hsplit ?_
    obtain ⟨factor, output, factorArgs, inputs, rfl⟩ := hsecond
    cases first with
    | declareVariable type name args => exact absurd rfl (hfirst type name args)
    | _ => simp [Statement.isEvidenceAfter, Statement.declaresVariable]
  obtain ⟨node, hnode, hstates⟩ := exists_mem_of_forall₂ hstates hmem
  exact ⟨node, (List.mem_filter.1 hnode).1, hstates⟩

/-! ### Multiplexers -/

/-- The conditional that a statement is. -/
def choice? : Place × Node → Option Node
  | (_, .choice test merge thenBody thenValue elseBody elseValue) =>
    some (.choice test merge thenBody thenValue elseBody elseValue)
  | _ => none

/-- The conditionals of a body, at every depth. -/
def choices (body : List Node) : List Node := (occurrences .top body).filterMap choice?

section

variable (hfind : c.find = Factor.Registry.builtin.find?)
  (hname : c.settings.multiplexerFactor ∉ c.settings.aliasFactor :: Factor.builtinFactors)

include hfind hname

theorem filter_pairedFactors_described {output callee : String} {args : List Node}
    {d : Factor.Descriptor} (h : (Factor.describe c.settings c.find output callee args).result = .ok d) :
    (pairedFactors d.statements).filter (Statement.addsFactor c.settings.multiplexerFactor) = [] := by
  rw [hfind] at h
  have hfactor : d.factor ≠ c.settings.multiplexerFactor := by
    intro heq
    exact hname (List.mem_cons_of_mem _ (heq ▸ (Factor.describes_of_describe h).factor))
  simp [Factor.Descriptor.statements, Factor.Descriptor.declaration, Factor.Descriptor.attachment,
    pairedFactors, Statement.addsFactor, hfactor]

/-- Among the factors in the piece of a statement there is a multiplexer if and only if the statement is a
conditional. -/
theorem forall₂_merges_of_codes {occurrence : Place × Node} {piece : List Statement}
    (h : Codes c occurrence piece) :
    List.Forall₂ (Merges c.settings) (choice? occurrence).toList
      ((pairedFactors piece).filter (Statement.addsFactor c.settings.multiplexerFactor)) := by
  cases h with
  | call _ hdescribe | branchCall _ hdescribe =>
    rw [filter_pairedFactors_described hfind hname hdescribe]
    exact .nil
  | copy =>
    have hother : c.settings.aliasFactor ≠ c.settings.multiplexerFactor :=
      fun heq => hname (heq ▸ List.mem_cons_self)
    simp [pairedFactors, Statement.addsFactor, hother, choice?]
  | merge type hfactor =>
    cases hfactor with
    | intro halternate hconsequent =>
      simpa [pairedFactors, Statement.addsFactor, choice?] using Merges.intro halternate hconsequent
  | evidence hstates =>
    cases hstates with
    | plain kind => cases kind <;> exact .nil
    | @call _ _ _ kind => cases kind <;> exact .nil
  | _ => exact .nil

/-- **The multiplexers in the code are those of the conditionals**, one by one. -/
theorem forall₂_merges {occurrences : List (Place × Node)} {pieces : List (List Statement)}
    (h : List.Forall₂ (Codes c) occurrences pieces) :
    List.Forall₂ (Merges c.settings) (occurrences.filterMap choice?)
      ((pairedFactors pieces.flatten).filter
        (Statement.addsFactor c.settings.multiplexerFactor)) := by
  rw [List.filterMap_eq_flatMap_toList]
  induction h with
  | nil => exact .nil
  | cons hpiece _ ih =>
    rw [List.flatten_cons, (paired_of_codes hpiece).pairedFactors_append, List.filter_append,
      List.flatMap_cons]
    exact List.rel_append (forall₂_merges_of_codes hfind hname hpiece) ih

end

/-- **No assignment is dropped, repeated or moved.**  In the code of an accepted program each graph variable
is declared with its factor right after it, and the next statement is no other factor of the variable, unless
it is evidence that the program states; the declared names are those that the program lists, in that order;
the code is laid end to end from the pieces of the program's statements at every depth; and where the
multiplexer has a name of its own, the multiplexers right after a declaration are those of the conditionals
at every depth, one by one, each with the test, the alternate value and the consequent value as inputs. -/
theorem declared_in_order {settings : Settings} {body : List Node} {output : List Statement}
    (hbody : Node.Body body)
    (h : ((Session.builtin settings).compiler.statements body).result = .ok output) :
    (∀ before type name args after, output = before ++ .declareVariable type name args :: after →
      ∃ factor factorArgs inputs rest, after = .addFactor factor name factorArgs inputs :: rest ∧
        ∀ factor' factorArgs' inputs', rest.head? = some (.addFactor factor' name factorArgs' inputs') →
          ∃ node ∈ body, States settings node (.addFactor factor' name factorArgs' inputs')) ∧
      declaredNames output = declarations body ∧
      (∃ pieces, output = pieces.flatten ∧
        List.Forall₂ (Codes (Session.builtin settings).compiler) (occurrences .top body) pieces) ∧
      (settings.multiplexerFactor ∉ settings.aliasFactor :: Factor.builtinFactors →
        List.Forall₂ (Merges settings) (choices body)
          ((pairedFactors output).filter (Statement.addsFactor settings.multiplexerFactor))) := by
  obtain ⟨e, he, rfl⟩ := (result_statements_eq_ok_iff hbody).1 h
  obtain ⟨pieces, hpieces, hcodes⟩ := exists_pieces_of_emits he
  refine ⟨?_, declaredNames_of_emits rfl he, ⟨pieces, hpieces, hcodes⟩, fun hname => ?_⟩
  · intro before type name args after hat
    have hpaired : Paired e.output := hpieces ▸ paired_flatten hcodes
    obtain ⟨factor, factorArgs, inputs, rest, rfl⟩ := hpaired.of_eq_append hat
    refine ⟨factor, factorArgs, inputs, rest, rfl, fun factor' factorArgs' inputs' hhead => ?_⟩
    obtain ⟨rest', rfl⟩ := List.head?_eq_some_iff.1 hhead
    rw [← List.singleton_append, ← List.append_assoc] at hat
    exact exists_states_of_second_factor he hat (fun _ _ _ heq => by cases heq) ⟨_, _, _, _, rfl⟩
  · rw [hpieces]
    exact forall₂_merges rfl hname hcodes

theorem declared_in_order_sample :
    ∃ output, ((Session.builtin {}).compiler.statements Node.sample).result = .ok output ∧
      declaredNames output =
        ["coin", "size", "copy", "inner_else", "inner", "outer_then", "other", "outer"] ∧
      (pairedFactors output).filter (Statement.addsFactor "Multiplexer") =
        [.addFactor "Multiplexer" "inner" [] ["copy", "inner_else", "1"],
         .addFactor "Multiplexer" "outer" [] ["coin", "other", "outer_then"]] ∧
      List.Forall₂ (Merges {}) (choices Node.sample)
        [.addFactor "Multiplexer" "inner" [] ["copy", "inner_else", "1"],
         .addFactor "Multiplexer" "outer" [] ["coin", "other", "outer_then"]] := by
  obtain ⟨output, h, hfactors⟩ := Factor.exists_eq_ok_of_toOption_map
    (show ((Session.builtin {}).compiler.statements Node.sample).result.toOption.map
        (fun output => (pairedFactors output).filter (Statement.addsFactor "Multiplexer")) =
      some [.addFactor "Multiplexer" "inner" [] ["copy", "inner_else", "1"],
        .addFactor "Multiplexer" "outer" [] ["coin", "other", "outer_then"]] by decide +kernel)
  obtain ⟨-, hnames, -, hmerges⟩ := declared_in_order Node.body_sample h
  exact ⟨output, h, hnames, hfactors, hfactors ▸ hmerges (by decide)⟩

/-- Evidence may come right after the assignment of its variable, and then two factors follow the
declaration of the variable. -/
theorem not_one_factor_of_evidence :
    ∃ body, Node.Body body ∧ ((Session.builtin {}).compiler.statements body).result =
      .ok [.declareVariable "Bit" "x" [], .addFactor "Bernoulli" "x" ["0.5"] [],
        .addFactor "Identity" "x" [] []] := by
  let body : List Node := [.assign "x" (.call "flip" []), .evidence .factor "x"]
  have hbody : Node.Body body :=
    .assign (by decide) (.call (by decide) .nil) (.evidence _ (by decide) .nil)
  obtain ⟨output, h, rfl⟩ := Factor.exists_eq_ok_of_toOption_map
    (show ((Session.builtin {}).compiler.statements body).result.toOption.map id =
      some [.declareVariable "Bit" "x" [], .addFactor "Bernoulli" "x" ["0.5"] [],
        .addFactor "Identity" "x" [] []] by decide +kernel)
  exact ⟨body, hbody, h⟩

end Compiler

end TraceGraph
