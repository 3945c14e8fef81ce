import TraceGraph.Proofs.Typing
import Mathlib.Data.List.Nodup

/-!
# The domains of discrete variables

A discrete variable is declared together with its domain, if it is drawn: from a list of weights or below
a bound, the domain is `0, …, n - 1`, and from a list of literals, it is that list, in which a value may
stand twice (`Factor.domain_of_describe`).  An alias or a merge variable is declared with nothing but its
type, so if it is discrete, it has an empty domain.

`DomainsDeclared` is what one would like to hold of the code of every program.  It holds of those programs
in which no alias or merge variable is discrete and no list that is drawn from has a value twice, and of no
others; `domain_of_mem_output` says where each domain in the code comes from.
-/

namespace TraceGraph

theorem VariableType.name_injective : Function.Injective VariableType.name := by
  intro type other h
  have hread := congrArg VariableType.ofName? h
  rwa [ofName?_name, ofName?_name, Option.some.injEq] at hread

/-- What was declared last was declared. -/
theorem Java.mem_of_latestDeclaration {statements : List Java.Statement} {name type : String}
    {args : List String} (h : latestDeclaration statements name = some (type, args)) :
    .declareVariable type name args ∈ statements := by
  obtain ⟨statement, hmem, hstatement⟩ := List.mem_filterMap.1 (List.mem_of_getLast? h)
  cases statement with
  | declareVariable type' name' args' =>
    obtain ⟨rfl, heq⟩ := Option.ite_none_right_eq_some.1 hstatement
    cases heq
    exact hmem
  | _ => cases hstatement

namespace Factor

/-! ### What draws declare -/

theorem nodup_indices (n : Nat) : (indices n).Nodup := by
  refine List.Nodup.map (fun i j h => ?_) List.nodup_range
  have h : i.repr = j.repr := h
  rw [Nat.repr_eq_ofList_toDigits, Nat.repr_eq_ofList_toDigits, String.ofList_inj] at h
  -- The digits can be read back.
  rw [← @Nat.ofDigitChars_ten_toDigits i, h, Nat.ofDigitChars_ten_toDigits]

theorem indices_ne_nil {n : Nat} (h : 0 < n) : indices n ≠ [] := by
  simp only [indices, ne_eq, List.map_eq_nil_iff, List.range_eq_nil]
  omega

section

variable {draft filled : Draft}

/-- A draw by weights has the elements of an array as weights, and is over their positions. -/
theorem exists_weights_of_categorical (h : Rule.categorical.fill draft = .ok filled) :
    ∃ elements weights, draft.args = [.array elements] ∧ elements ≠ [] ∧
      List.Forall₂ (fun node weight => node.number? = .ok (some weight)) elements weights ∧
      filled = draft.draw (indices weights.length) weights := by
  cases Rule.fill_eq_ok_iff.1 h with
  | categorical hargs hempty hweights => exact ⟨_, _, hargs, hempty, hweights, rfl⟩

/-- A draw below a bound is over the numbers below it, each with the same weight. -/
theorem exists_count_of_uniformInteger (h : Rule.uniformInteger.fill draft = .ok filled) :
    ∃ (node : Node) (count : Float) (n : Nat), draft.args = [node] ∧
      node.number? = .ok (some count) ∧ 0 < n ∧
      (Decimal.Binary64.ofFloat count).toInt? = some (n : Int) ∧
      filled = draft.draw (indices n) (List.replicate n (1.0 / count)) := by
  cases Rule.fill_eq_ok_iff.1 h with
  | uniformInteger hargs hcount hpositive hwhole => exact ⟨_, _, _, hargs, hcount, hpositive, hwhole, rfl⟩

/-- A draw from a list is over the texts of its literals, each with the same weight. -/
theorem exists_values_of_uniformDraw (h : Rule.uniformDraw.fill draft = .ok filled) :
    ∃ elements values texts, draft.args = [.array elements] ∧
      elements.mapM Node.literal? = some values ∧ values.mapM Literal.java = .ok texts ∧ texts ≠ [] ∧
      filled = draft.draw texts (List.replicate texts.length (1.0 / Float.ofNat texts.length)) := by
  cases Rule.fill_eq_ok_iff.1 h with
  | @uniformDraw elements values texts hargs hempty hvalues _ htexts =>
    have hlength := (mapM_eq_ok_iff.1 htexts).length_eq
    refine ⟨elements, values, texts, hargs, hvalues, htexts, ?_, by rw [hlength]⟩
    rw [← List.length_pos_iff, ← hlength, length_of_mapM_eq_some hvalues]
    exact List.length_pos_iff.2 hempty

end

/-- The texts of the values that a call draws from, if it draws from a list of literals. -/
def drawnTexts (settings : Settings) (callee : String) (args : List Node) : Option (List String) :=
  match unwrap settings callee args with
  | .ok (primitive, [.array elements]) =>
    if bareName primitive = "uniformDraw" then
      (elements.mapM Node.literal?).bind fun values => (values.mapM Literal.java).toOption
    else none
  | _ => none

section

variable {settings : Settings} {output callee : String} {args : List Node} {d : Descriptor}

/-- What a built-in primitive makes of a call, it makes by the rule that has its bare name. -/
theorem exists_rule_of_describe_builtin
    (h : (describe settings Registry.builtin.find? output callee args).result = .ok d) :
    ∃ first filled names rule, unwrap settings callee args = .ok (first.primitive, first.args) ∧
      (names, rule) ∈ builtins ∧ bareName first.primitive ∈ names ∧ rule.fill first = .ok filled ∧
      d.variableType = rule.variableType ∧ d.Completes filled := by
  obtain ⟨first, producer, hfirst, hfind, hproducer⟩ := result_describe_eq_ok_iff.1 h
  obtain ⟨names, rule, filled, hrule, hname, -, hfill, hcomplete⟩ :=
    exists_rule_of_describe hfind hproducer
  obtain ⟨-, hunwrap, -, ⟨hinputs, -⟩, -⟩ := draft_eq_ok hfirst
  obtain ⟨hfills, -⟩ := Rule.chooses hinputs hfill
  have hd := Draft.completes_of_complete hcomplete
  refine ⟨first, filled, names, rule, hunwrap, hrule, hname, hfill, ?_, hd⟩
  have htype := hd.variableType
  rw [hfills.variableType, Option.some.injEq] at htype
  exact (VariableType.name_injective htype).symm

/-- Only one rule has the name of the draw from a list. -/
theorem eq_uniformDraw_iff : ∀ entry ∈ builtins, ∀ name ∈ entry.1,
    entry.2 = Rule.uniformDraw ↔ name = "uniformDraw" := by
  decide +kernel

/-- The rules for discrete variables. -/
theorem discrete_rules : ∀ entry ∈ builtins, entry.2.variableType = .discrete →
    entry.2 = .categorical ∨ entry.2 = .uniformInteger ∨ entry.2 = .uniformDraw := by
  decide +kernel

/-- **The domain of a discrete variable that is drawn** is the list of literals that it is drawn from, or
else the numbers below a positive bound. -/
theorem domain_of_describe
    (h : (describe settings Registry.builtin.find? output callee args).result = .ok d)
    (htype : d.variableType = .discrete) :
    drawnTexts settings callee args = some d.variableArgs ∧ d.variableArgs ≠ [] ∨
      drawnTexts settings callee args = none ∧ ∃ n, 0 < n ∧ d.variableArgs = indices n := by
  obtain ⟨first, filled, names, rule, hunwrap, hrule, hname, hfill, hd, hcompletes⟩ :=
    exists_rule_of_describe_builtin h
  have hargs := hcompletes.variableArgs
  have hdraw := eq_uniformDraw_iff _ hrule _ hname
  have hother : rule ≠ .uniformDraw → drawnTexts settings callee args = none := by
    intro hne
    rw [drawnTexts, hunwrap]
    split
    · next heq =>
      obtain ⟨rfl, -⟩ := Prod.mk.inj (Except.ok.inj heq)
      rw [if_neg fun hbare => hne (hdraw.2 hbare)]
    · rfl
  rcases discrete_rules _ hrule (hd.symm.trans htype) with rfl | rfl | rfl
  · obtain ⟨elements, weights, -, hempty, hweights, rfl⟩ := exists_weights_of_categorical hfill
    refine .inr ⟨hother (by decide), weights.length, ?_, hargs⟩
    exact hweights.length_eq ▸ List.length_pos_iff.2 hempty
  · obtain ⟨node, count, n, -, -, hpositive, -, rfl⟩ := exists_count_of_uniformInteger hfill
    exact .inr ⟨hother (by decide), n, hpositive, hargs⟩
  · obtain ⟨elements, values, texts, hfirst, hvalues, htexts, hempty, rfl⟩ :=
      exists_values_of_uniformDraw hfill
    have heq : d.variableArgs = texts := hargs
    refine .inl ⟨?_, heq ▸ hempty⟩
    rw [drawnTexts, hunwrap, hfirst]
    simp only [if_pos (hdraw.1 rfl), hvalues, Option.bind_some, htexts, heq]
    rfl

/-- What is drawn from a list is discrete. -/
theorem variableType_of_drawnTexts {texts : List String}
    (h : (describe settings Registry.builtin.find? output callee args).result = .ok d)
    (hdrawn : drawnTexts settings callee args = some texts) : d.variableType = .discrete := by
  obtain ⟨first, filled, names, rule, hunwrap, hrule, hname, -, hd, -⟩ :=
    exists_rule_of_describe_builtin h
  rw [drawnTexts, hunwrap] at hdrawn
  split at hdrawn
  · next heq =>
    obtain ⟨rfl, -⟩ := Prod.mk.inj (Except.ok.inj heq)
    split at hdrawn
    · next hbare =>
      obtain rfl := (eq_uniformDraw_iff _ hrule _ hname).2 hbare
      exact hd
    · cases hdrawn
  · cases hdrawn

end

end Factor

/-! ### What the parts of a program declare -/

namespace Trace.Part

/-- The alias or the merge variable that a part declares. -/
def copied? : Part → Option String
  | .statement (.assign name (.var _)) => some name
  | .statement (.choice _ merge _ _ _ _) => some merge
  | _ => none

/-- The call that a part declares a variable for: an assigned call, or one that is the value of a
branch. -/
def call? : Part → Option (String × List Node)
  | .statement (.assign _ (.call callee args)) | .branch _ _ _ (.call callee args) =>
    if EvidenceKind.ofName? callee = none then some (callee, args) else none
  | _ => none

/-- The texts of the values that a part draws from. -/
def drawn? (settings : Settings) (part : Part) : Option (List String) :=
  part.call?.bind fun (callee, args) => Factor.drawnTexts settings callee args

end Trace.Part

namespace Compiler

open Java (latestDeclaration latestType)
open Trace

/-- The type and the arguments with which the variable that a branch gives its merge variable was last
declared, if the branch gives it a variable. -/
def valueDeclaration (output : List Java.Statement) (merge : String) (side : Branch) :
    Node → Option (String × List String)
  | .var name => latestDeclaration output name
  | .call .. => latestDeclaration output (side.variableName merge)
  | _ => none

/-- The domains of discrete variables as one would like them to be declared. -/
structure DomainsDeclared (c : Compiler) (body : List Node) (output : List Java.Statement) : Prop where
  /-- No domain is empty, and none has a value twice. -/
  distinct : ∀ {name : String} {domain : List String},
    .declareVariable "Discrete" name domain ∈ output → domain ≠ [] ∧ domain.Nodup
  /-- A discrete alias has the domain of its source. -/
  copied : ∀ {p : Position} {s t : Scope} {name source : String} {domain : List String},
    Visits c .top (.start body) body p s t →
    partAt p body = some (.statement (.assign name (.var source))) →
    latestType t.output name = some "Discrete" →
    latestDeclaration s.output source = some ("Discrete", domain) →
    latestDeclaration t.output name = some ("Discrete", domain)
  /-- A discrete merge variable has the domain of a branch value that is a discrete variable. -/
  merged : ∀ {p : Position} {s s₁ s₂ t : Scope} {test merge consequent alternate : String}
    {thenBody elseBody : List Node} {thenValue elseValue : Node} {domain : List String},
    Visits c .top (.start body) body p s t →
    partAt p body =
      some (.statement (.choice (.var test) merge thenBody thenValue elseBody elseValue)) →
    RunsBranch c merge .consequent thenBody thenValue s consequent s₁ →
    RunsBranch c merge .alternate elseBody elseValue s₁ alternate s₂ →
    latestType t.output merge = some "Discrete" →
    valueDeclaration s₁.output merge .consequent thenValue = some ("Discrete", domain) ∨
      valueDeclaration s₂.output merge .alternate elseValue = some ("Discrete", domain) →
    latestDeclaration t.output merge = some ("Discrete", domain)

/-- No alias and no merge variable is discrete. -/
def NoDiscreteCopies (c : Compiler) (body : List Node) : Prop :=
  ∀ {p : Position} {s t : Scope} {part : Part} {name : String},
    Visits c .top (.start body) body p s t → partAt p body = some part → part.copied? = some name →
    latestType t.output name ≠ some "Discrete"

/-- No list that is drawn from has a value twice. -/
def DistinctDraws (settings : Settings) (body : List Node) : Prop :=
  ∀ {p : Position} {part : Part} {texts : List String},
    partAt p body = some part → part.drawn? settings = some texts → texts.Nodup

/-- What a part declares in its own step: an alias or a merge variable, with no arguments; a variable for
a call; or no graph variable. -/
inductive Declares (c : Compiler) (part : Part) : List Java.Statement → Prop
  | copy {type name factor : String} {inputs : List String} (hcopied : part.copied? = some name)
      (hcall : part.call? = none) :
      Declares c part [.declareVariable type name [], .addFactor factor name [] inputs]
  | call {name callee : String} {args : List Node} {d : Factor.Descriptor}
      (hcopied : part.copied? = none) (hcall : part.call? = some (callee, args))
      (hdescribe : (Factor.describe c.settings c.find name callee args).result = .ok d) :
      Declares c part d.statements
  | other {output : List Java.Statement} (hcopied : part.copied? = none) (hcall : part.call? = none)
      (h : ∀ {type name args}, .declareVariable type name args ∉ output) : Declares c part output

/-- Where the table stays as it is, nothing is declared. -/
theorem Mirrors.not_mem {output : List Java.Statement} (h : Mirrors [] output) {type name : String}
    {args : List String} : .declareVariable type name args ∉ output := by
  intro hmem
  have hnone : latestDeclaration output name = none := Option.map_eq_none_iff.1 (h.lookup name).symm
  rw [latestDeclaration, List.getLast?_eq_none_iff] at hnone
  have hstatement := List.filterMap_eq_nil_iff.1 hnone _ hmem
  simp [Java.Statement.declarationOf?] at hstatement

theorem declares_of_ownStep {c : Compiler}
    (hkeep : ∀ name producer, c.find name = some producer → producer.KeepsOutput)
    {s t : Scope} {part : Part} {e : Emission} (h : OwnStep c s t part e) : Declares c part e.output := by
  cases h with
  | statement hyields ht =>
    have hmirrors := (steady_mirrors hkeep).yields hyields
    cases hyields with
    | call hkind hdescribe => exact .call rfl (if_pos hkind) hdescribe
    | copy => exact .copy rfl rfl
    | literal => exact .other rfl rfl hmirrors.not_mem
    | array => exact .other rfl rfl hmirrors.not_mem
    | evidence => exact .other rfl rfl hmirrors.not_mem
    | evidenceCall hkind => exact .other rfl (if_neg (by simp [hkind])) hmirrors.not_mem
    | query => exact .other rfl rfl hmirrors.not_mem
  | value _ hsupplies _ =>
    cases hsupplies with
    | call hkind _ _ hdescribe => exact .call rfl (if_pos hkind) hdescribe
    | var => exact .other rfl rfl (by simp)
    | literal => exact .other rfl rfl (by simp)
  | merge => exact .copy rfl rfl

/-! ### Whole programs -/

section

variable {settings : Settings} {body : List Node} {p : Position} {s t : Scope} {part : Part}
  (hbody : Node.Body body)
  (hvisits : Visits (Session.builtin settings).compiler .top (.start body) body p s t)
  (hpart : partAt p body = some part)

include hbody hvisits hpart

/-- What a part declares comes last when the pass is through with it. -/
theorem exists_declares_of_visits :
    ∃ before own, Declares (Session.builtin settings).compiler part own ∧
      t.output = before ++ own := by
  obtain ⟨e, hown⟩ := hvisits.exists_ownStep hbody hpart
  obtain ⟨m, rfl⟩ := hown.exists_extend
  exact ⟨m.output, e.output,
    declares_of_ownStep (fun _ _ => Factor.keepsOutput_of_builtin) hown, rfl⟩

/-- An alias or a merge variable is declared with no arguments. -/
theorem exists_latestDeclaration_of_copied {name : String} (hcopied : part.copied? = some name) :
    ∃ type, latestDeclaration t.output name = some (type, []) := by
  obtain ⟨before, own, hdeclares, houtput⟩ := exists_declares_of_visits hbody hvisits hpart
  rw [houtput, Java.latestDeclaration_append]
  cases hdeclares with
  | @copy type name' _ _ hname _ =>
    cases hcopied.symm.trans hname
    refine ⟨type, ?_⟩
    rw [Java.latestDeclaration_variable, if_pos rfl]
    rfl
  | call hnone => cases hcopied.symm.trans hnone
  | other hnone => cases hcopied.symm.trans hnone

/-- The list that a part draws from is a domain in the code. -/
theorem exists_mem_output_of_drawn {texts : List String} (hdrawn : part.drawn? settings = some texts) :
    ∃ name, .declareVariable "Discrete" name texts ∈ t.output := by
  obtain ⟨before, own, hdeclares, houtput⟩ := exists_declares_of_visits hbody hvisits hpart
  rw [houtput]
  cases hdeclares with
  | copy _ hnone => rw [Part.drawn?, hnone] at hdrawn; cases hdrawn
  | other _ hnone => rw [Part.drawn?, hnone] at hdrawn; cases hdrawn
  | @call _ callee args d _ hcall hdescribe =>
    rw [Part.drawn?, hcall, Option.bind_some] at hdrawn
    have htype := Factor.variableType_of_drawnTexts hdescribe hdrawn
    refine ⟨d.output, List.mem_append_right _ ?_⟩
    rcases Factor.domain_of_describe hdescribe htype with ⟨htexts, -⟩ | ⟨hnone, -⟩
    · cases hdrawn.symm.trans htexts
      rw [Factor.Descriptor.statements, Factor.Descriptor.declaration, htype]
      exact List.mem_cons_self
    · cases hdrawn.symm.trans hnone

end

/-- **Where the domains in the code of an accepted program come from**: an alias or a merge variable has
an empty one, and a variable that is drawn has the list that it is drawn from, or else the numbers below a
positive bound. -/
theorem domain_of_mem_output {settings : Settings} {body : List Node} {output : List Java.Statement}
    {name : String} {domain : List String} (hbody : Node.Body body)
    (h : ((Session.builtin settings).compiler.statements body).result = .ok output)
    (hmem : .declareVariable "Discrete" name domain ∈ output) :
    ∃ p s t part, Visits (Session.builtin settings).compiler .top (.start body) body p s t ∧
      partAt p body = some part ∧
      (part.copied? = some name ∧ latestType t.output name = some "Discrete" ∧ domain = [] ∨
        part.drawn? settings = some domain ∧ domain ≠ [] ∨
        ∃ n, 0 < n ∧ domain = Factor.indices n) := by
  obtain ⟨e, he, rfl⟩ := (result_statements_eq_ok_iff hbody).1 h
  obtain ⟨p, part, s, t, e', hvisits, hpart, hown, hmem⟩ := addsOwn_of_emits (r := .start body)
    (Q := fun e => .declareVariable "Discrete" name domain ∈ e.output) (by simp) (by simp) hbody he hmem
  refine ⟨p, s, t, part, hvisits, hpart, ?_⟩
  have hdeclares := declares_of_ownStep (fun _ _ => Factor.keepsOutput_of_builtin) hown
  obtain ⟨m, rfl⟩ := hown.exists_extend
  rw [Scope.extend, Java.latestType_append]
  generalize e'.output = own at hdeclares hmem
  cases hdeclares with
  | @copy type name' _ _ hname _ =>
    simp only [List.mem_cons, Java.Statement.declareVariable.injEq, reduceCtorEq, List.not_mem_nil,
      or_false] at hmem
    obtain ⟨rfl, rfl, rfl⟩ := hmem
    refine .inl ⟨hname, ?_, rfl⟩
    rw [latestType, Java.latestDeclaration_variable, if_pos rfl]
    rfl
  | @call _ callee args d _ hcall hdescribe =>
    simp only [Factor.Descriptor.statements, Factor.Descriptor.declaration,
      Factor.Descriptor.attachment, List.mem_cons, Java.Statement.declareVariable.injEq, reduceCtorEq,
      List.not_mem_nil, or_false] at hmem
    obtain ⟨htype, -, rfl⟩ := hmem
    have htype : d.variableType = .discrete := (@VariableType.name_injective .discrete _ htype).symm
    rw [Part.drawn?, hcall, Option.bind_some]
    rcases Factor.domain_of_describe hdescribe htype with hdrawn | ⟨-, hindices⟩
    · exact .inr (.inl hdrawn)
    · exact .inr (.inr hindices)
  | other _ _ hnone => exact absurd hmem hnone

/-- **When the domains of discrete variables are declared.**  In the code of an accepted program, all
domains are there and have no value twice, and aliases and merge variables have the domains of the
variables that they stand for, if and only if there is no discrete alias or merge variable at all, and no
list that is drawn from has a value twice. -/
theorem domainsDeclared_iff {settings : Settings} {body : List Node} {output : List Java.Statement}
    (hbody : Node.Body body)
    (h : ((Session.builtin settings).compiler.statements body).result = .ok output) :
    DomainsDeclared (Session.builtin settings).compiler body output ↔
      NoDiscreteCopies (Session.builtin settings).compiler body ∧ DistinctDraws settings body := by
  constructor
  · intro hdomains
    constructor
    · intro p s t part name hvisits hpart hcopied htype
      obtain ⟨type, hlatest⟩ := exists_latestDeclaration_of_copied hbody hvisits hpart hcopied
      rw [latestType, hlatest] at htype
      cases htype
      have hmem := (hvisits.isPrefix_of_accepted hbody h).1.subset (Java.mem_of_latestDeclaration hlatest)
      exact (hdomains.distinct hmem).1 rfl
    · intro p part texts hpart hdrawn
      obtain ⟨s, t, hvisits, hstays, -⟩ := exists_visits_of_accepted hbody h
        (Option.isSome_of_eq_some hpart)
      obtain ⟨name, hmem⟩ := exists_mem_output_of_drawn hbody hvisits hpart hdrawn
      exact (hdomains.distinct (hstays.subset hmem)).2
  · rintro ⟨hcopies, hdraws⟩
    constructor
    · intro name domain hmem
      obtain ⟨p, s, t, part, hvisits, hpart, horigin⟩ := domain_of_mem_output hbody h hmem
      rcases horigin with ⟨hcopied, htype, -⟩ | ⟨hdrawn, hempty⟩ | ⟨n, hn, rfl⟩
      · exact absurd htype (hcopies hvisits hpart hcopied)
      · exact ⟨hempty, hdraws hpart hdrawn⟩
      · exact ⟨Factor.indices_ne_nil hn, Factor.nodup_indices n⟩
    · intro p s t name source domain hvisits hpart htype
      exact absurd htype (hcopies hvisits hpart rfl)
    · intro p s s₁ s₂ t test merge consequent alternate thenBody elseBody thenValue elseValue domain
        hvisits hpart _ _ htype
      exact absurd htype (hcopies hvisits hpart rfl)

/-- A draw from two values is declared with its domain. -/
theorem domainsDeclared_draw :
    let body : List Node :=
      [.assign "x" (.call "uniformDraw" [.array [.const (.int 1), .const (.int 2)]])]
    ∃ output, ((Session.builtin {}).compiler.statements body).result = .ok output ∧
      latestDeclaration output "x" = some ("Discrete", ["1", "2"]) ∧
      DomainsDeclared (Session.builtin {}).compiler body output := by
  intro body
  obtain ⟨output, h, hlatest⟩ := Factor.exists_eq_ok_of_toOption_map
    (show ((Session.builtin {}).compiler.statements body).result.toOption.map (latestDeclaration · "x") =
      some (some ("Discrete", ["1", "2"])) by decide +kernel)
  have hbody : Node.Body body :=
    .assign (by decide) (.call (by decide) (.array (.const _ (.const _ .nil)) .nil)) .nil
  refine ⟨output, h, hlatest, (domainsDeclared_iff hbody h).2 ⟨?_, ?_⟩⟩
  · intro p s t part name _ hpart hcopied
    cases eq_statement_of_partAt_assign hpart
    cases hcopied
  · intro p part texts hpart hdrawn
    cases eq_statement_of_partAt_assign hpart
    have htexts : some texts = some ["1", "2"] := hdrawn.symm.trans (by decide +kernel)
    cases htexts
    decide

/-- An alias of a drawn variable is discrete and has no domain, and a value that stands twice in a list is
declared twice. -/
theorem not_domainsDeclared_copy_or_repeat :
    let draw (values : List Node) : Node := .assign "x" (.call "uniformDraw" [.array values])
    let copied : List Node := [draw [.const (.int 1), .const (.int 2)], .assign "y" (.var "x")]
    let repeated : List Node := [draw [.const (.int 1), .const (.int 1)]]
    ∃ output output', ((Session.builtin {}).compiler.statements copied).result = .ok output ∧
      ((Session.builtin {}).compiler.statements repeated).result = .ok output' ∧
      latestDeclaration output "y" = some ("Discrete", []) ∧
      latestDeclaration output' "x" = some ("Discrete", ["1", "1"]) ∧
      ¬ DomainsDeclared (Session.builtin {}).compiler copied output ∧
      ¬ DomainsDeclared (Session.builtin {}).compiler repeated output' := by
  intro draw copied repeated
  obtain ⟨output, h, hlatest⟩ := Factor.exists_eq_ok_of_toOption_map
    (show ((Session.builtin {}).compiler.statements copied).result.toOption.map
      (latestDeclaration · "y") = some (some ("Discrete", [])) by decide +kernel)
  obtain ⟨output', h', hlatest'⟩ := Factor.exists_eq_ok_of_toOption_map
    (show ((Session.builtin {}).compiler.statements repeated).result.toOption.map
      (latestDeclaration · "x") = some (some ("Discrete", ["1", "1"])) by decide +kernel)
  refine ⟨output, output', h, h', hlatest, hlatest', ?_, ?_⟩
  · intro hdomains
    exact (hdomains.distinct (Java.mem_of_latestDeclaration hlatest)).1 rfl
  · intro hdomains
    exact absurd (hdomains.distinct (Java.mem_of_latestDeclaration hlatest')).2 (by decide)

end Compiler

end TraceGraph
