import TraceGraph.Proofs.Visits
import TraceGraph.Proofs.Wiring
import TraceGraph.Session

/-!
# The types that the pass knows

The pass keeps a table of the variables declared so far with their types.  `Mirrors` says that the table is
what the code says: a variable has the type of its last declaration in the code (`Java.latestType`), and
all declared types exist.  Each step of the pass adds to both in the same way, so the table mirrors the code
wherever the pass is, provided that no producer changes the variable that it describes
(`mirrors_of_visits`).

What the pass reads from its table is therefore known from the code alone: the type of an alias, that of
a merge variable, and whether a condition is worth a notice (`TypesFollowCode`).
-/

namespace TraceGraph

namespace Java

/-- The type and the arguments with which a statement declares a graph variable. -/
def Statement.declarationOf? (name : String) : Statement → Option (String × List String)
  | .declareVariable type declared args => if declared = name then some (type, args) else none
  | _ => none

/-- The type and the arguments with which a graph variable was last declared. -/
def latestDeclaration (statements : List Statement) (name : String) :
    Option (String × List String) :=
  (statements.filterMap (Statement.declarationOf? name)).getLast?

/-- The type with which a graph variable was last declared. -/
def latestType (statements : List Statement) (name : String) : Option String :=
  (latestDeclaration statements name).map Prod.fst

theorem latestDeclaration_append (a b : List Statement) (name : String) :
    latestDeclaration (a ++ b) name = (latestDeclaration b name).or (latestDeclaration a name) := by
  rw [latestDeclaration, List.filterMap_append, List.getLast?_append]
  rfl

theorem latestType_append (a b : List Statement) (name : String) :
    latestType (a ++ b) name = (latestType b name).or (latestType a name) := by
  rw [latestType, latestDeclaration_append, Option.map_or]
  rfl

theorem latestDeclaration_variable (type declared factor output name : String)
    (args factorArgs inputs : List String) :
    latestDeclaration
        [.declareVariable type declared args, .addFactor factor output factorArgs inputs] name =
      if declared = name then some (type, args) else none := by
  by_cases h : declared = name <;> simp [latestDeclaration, List.filterMap_cons, Statement.declarationOf?, h]

end Java

namespace Factor

/-- The producer leaves the variable of a call as it is. -/
def Producer.KeepsOutput (producer : Producer) : Prop :=
  ∀ {output primitive : String} {args : List Node} {draft filled : Draft},
    Draft.ofCall output primitive args = .ok draft → producer.fill draft = .ok filled →
      filled.output = output

/-- A call is described for its own variable, if no producer changes that. -/
theorem output_of_describe {settings : Settings} {find : String → Option Producer}
    {output callee : String} {args : List Node} {d : Descriptor}
    (hkeep : ∀ name producer, find name = some producer → producer.KeepsOutput)
    (h : (describe settings find output callee args).result = .ok d) : d.output = output := by
  obtain ⟨first, producer, hfirst, hfind, hproducer⟩ := result_describe_eq_ok_iff.1 h
  obtain ⟨_, -, hcall⟩ := bind_eq_ok_iff.1 hfirst
  obtain ⟨filled, hfill, hcomplete⟩ := bind_eq_ok_iff.1 hproducer
  rw [(Draft.completes_of_complete hcomplete).output]
  exact hkeep _ _ hfind hcall hfill

/-- The built-in producers leave the variable of a call as it is. -/
theorem keepsOutput_of_builtin {name : String} {producer : Producer}
    (h : Registry.builtin.find? name = some producer) : producer.KeepsOutput := by
  obtain ⟨names, rule, -, -, hrule⟩ := exists_rule_of_find? h
  intro output primitive args draft filled hcall hfill
  obtain ⟨rendered, -, hdraft⟩ := bind_eq_ok_iff.1 hcall
  cases hdraft
  rw [hrule] at hfill
  exact (Rule.chooses rfl hfill).1.output

end Factor

namespace Compiler

open Java (latestType)
open Trace

/-- The table of types is what the code says, and the types in the code exist. -/
structure Mirrors (types : List (String × VariableType)) (output : List Java.Statement) : Prop where
  lookup : ∀ name, (types.lookup name).map VariableType.name = latestType output name
  exists_type : ∀ {type name args}, .declareVariable type name args ∈ output →
    type ∈ VariableType.all.map VariableType.name

namespace Mirrors

theorem append {types types' : List (String × VariableType)} {output output' : List Java.Statement}
    (h : Mirrors types output) (h' : Mirrors types' output') :
    Mirrors (types' ++ types) (output ++ output') := by
  constructor
  · intro name
    rw [List.lookup_append, Option.map_or, h.lookup, h'.lookup, Java.latestType_append]
  · intro type name args hmem
    rcases List.mem_append.1 hmem with hmem | hmem
    · exact h.exists_type hmem
    · exact h'.exists_type hmem

/-- Statements that declare no graph variable leave the table as it is. -/
theorem of_declarationOf? {output : List Java.Statement}
    (h : ∀ statement ∈ output, ∀ name, statement.declarationOf? name = none) : Mirrors [] output := by
  constructor
  · intro name
    have hnone : output.filterMap (Java.Statement.declarationOf? name) = [] :=
      List.filterMap_eq_nil_iff.2 fun statement hmem => h statement hmem name
    rw [latestType, Java.latestDeclaration, hnone]
    rfl
  · intro type name args hmem
    have hnone := h _ hmem name
    simp [Java.Statement.declarationOf?] at hnone

theorem ofVariable (type : VariableType) (name factor : String) (args factorArgs inputs : List String) :
    Mirrors [(name, type)]
      [.declareVariable type.name name args, .addFactor factor name factorArgs inputs] := by
  constructor
  · intro other
    rw [latestType, Java.latestDeclaration_variable, List.lookup_cons]
    by_cases h : name = other
    · simp [h]
    · simp [h, beq_eq_false_iff_ne.2 (Ne.symm h)]
  · intro type' name' args' hmem
    have heq : type' = type.name := by
      simp only [List.mem_cons, List.not_mem_nil, or_false, Java.Statement.declareVariable.injEq,
        reduceCtorEq] at hmem
      exact hmem.1
    rw [heq]
    cases type <;> decide

end Mirrors

section

variable {c : Compiler}

theorem mirrors_observation (types : List (String × VariableType)) {kind : EvidenceKind}
    {name : String} {statement : Java.Statement}
    (h : Evidence.statement c.settings name kind = .ok statement) :
    Mirrors (Emission.observation c types kind name statement).types
      (Emission.observation c types kind name statement).output := by
  refine .of_declarationOf? fun other hmem declared => ?_
  rw [Emission.observation, List.mem_singleton] at hmem
  subst hmem
  cases kind with
  | condition =>
    obtain ⟨text, -, h⟩ := bind_eq_ok_iff.1 h
    cases h
    rfl
  | factor =>
    cases h
    rfl

/-- **Each step of the pass adds to the table what it adds to the code.** -/
theorem steady_mirrors (hkeep : ∀ name producer, c.find name = some producer → producer.KeepsOutput) :
    Emission.Steady c fun e => Mirrors e.types e.output where
  empty := .of_declarationOf? fun _ h => by cases h
  append ha hb := ha.append hb
  yields h := by
    cases h with
    | call _ hdescribe =>
      obtain rfl := Factor.output_of_describe hkeep hdescribe
      exact .ofVariable _ _ _ _ _ _
    | copy => exact .ofVariable _ _ _ _ _ _
    | literal => exact .of_declarationOf? fun _ h _ => by cases List.mem_singleton.1 h; rfl
    | array => exact .of_declarationOf? fun _ h _ => by cases List.mem_singleton.1 h; rfl
    | evidence h => exact mirrors_observation _ h
    | evidenceCall _ h => exact mirrors_observation _ h
    | query =>
      refine .of_declarationOf? fun statement hmem name => ?_
      simp only [List.mem_cons, List.not_mem_nil, or_false] at hmem
      rcases hmem with rfl | rfl | rfl | rfl <;> rfl
  supplies h := by
    cases h with
    | var => exact .of_declarationOf? fun _ h => by cases h
    | literal => exact .of_declarationOf? fun _ h => by cases h
    | call _ _ _ hdescribe =>
      have houtput := Factor.output_of_describe hkeep hdescribe
      simp only [Emission.described, Factor.Descriptor.statements, Factor.Descriptor.declaration,
        Factor.Descriptor.attachment, houtput]
      exact .ofVariable _ _ _ _ _ _
  merge _ _ _ _ _ := .ofVariable _ _ _ _ _ _

/-- **The table mirrors the code wherever the pass is**: when it comes to a part of the program, at any
depth, and when it is through with it. -/
theorem mirrors_of_visits
    (hkeep : ∀ name producer, c.find name = some producer → producer.KeepsOutput)
    {depth : Depth} {r s t : Scope} {body : List Node} {p : Position} (hbody : Node.Body body)
    (hr : Mirrors r.types r.output) (h : Visits c depth r body p s t) :
    Mirrors s.types s.output ∧ Mirrors t.types t.output := by
  obtain ⟨e, e', he, he', rfl, rfl⟩ := (steady_mirrors hkeep).visits hbody h
  exact ⟨hr.append he, (hr.append he).append he'⟩

/-! ### What the pass reads from its table -/

/-- The type of the value that a branch gives its merge variable, from the code at the end of the branch:
a number is real, a Boolean is a bit, and a call has a variable of its own. -/
def valueType (output : List Java.Statement) (merge : String) (side : Branch) : Node → Option String
  | .var name => latestType output name
  | .const (.bool _) => some "Bit"
  | .const value => if value.isNumber then some "Real" else none
  | .call .. => latestType output (side.variableName merge)
  | _ => none

/-- From the first scope to the second, a variable is declared with a factor.  If its type is not known it
is a bit, and that is worth a notice. -/
structure DeclaresAs (s t : Scope) (type : Option String) (name factor : String) (inputs : List String)
    (notice : Notice) : Prop where
  output : t.output = s.output ++
    [.declareVariable (type.getD "Bit") name [], .addFactor factor name [] inputs]
  notices : t.notices = s.notices ++ if type.isSome then [] else [notice]

theorem declaresAs_extend (s : Scope) (type : Option VariableType) (name factor : String)
    (inputs : List String) (notice : Notice) :
    DeclaresAs s (s.extend (.ofOptionalType type name factor inputs notice))
      (type.map VariableType.name) name factor inputs notice := by
  cases type with
  | none => exact ⟨rfl, rfl⟩
  | some type => exact ⟨rfl, rfl⟩

/-- What a branch supplies has the type that is in the code. -/
theorem map_name_of_supplies
    (hkeep : ∀ name producer, c.find name = some producer → producer.KeepsOutput)
    {assigned : List String} {merge text : String} {side : Branch}
    {types : List (String × VariableType)} {value : Node} {type : Option VariableType} {e : Emission}
    {output : List Java.Statement} (hmirrors : Mirrors types output)
    (h : Supplies c assigned merge side types value text type e) :
    type.map VariableType.name = valueType (output ++ e.output) merge side value := by
  cases h with
  | var =>
    rw [List.append_nil, valueType]
    exact hmirrors.lookup text
  | @literal value =>
    cases value with
    | _ => rfl
  | @call callee args d _ _ _ hdescribe =>
    have houtput := Factor.output_of_describe hkeep hdescribe
    have hlatest : latestType d.statements (side.variableName merge) = some d.variableType.name := by
      rw [latestType, Factor.Descriptor.statements, Factor.Descriptor.declaration,
        Factor.Descriptor.attachment, Java.latestDeclaration_variable, if_pos houtput]
      rfl
    rw [valueType, Java.latestType_append, Emission.described, hlatest]
    rfl

/-- The variable that a statement puts a condition on. -/
def conditioned? : Node → Option String
  | .evidence .condition name => some name
  | .assign _ (.call "condition" [.var name]) => some name
  | _ => none

/-- What the pass over a program reads from its table of types is what the code says by then. -/
structure TypesFollowCode (c : Compiler) (body : List Node) : Prop where
  /-- The table mirrors the code when the pass comes to a part of the program, and after it. -/
  mirrors : ∀ {p : Position} {s t : Scope}, Visits c .top (.start body) body p s t →
    Mirrors s.types s.output ∧ Mirrors t.types t.output
  /-- An alias has the type that its source was last declared with. -/
  copied : ∀ {p : Position} {s t : Scope} {name source : String},
    Visits c .top (.start body) body p s t →
    partAt p body = some (.statement (.assign name (.var source))) →
    DeclaresAs s t (latestType s.output source) name c.settings.aliasFactor [source]
      (.aliasUntyped name source)
  /-- A merge variable has the type of the consequent value, or else of the alternate value, each at the
  end of its branch. -/
  merged : ∀ {p : Position} {s t : Scope} {test merge : String} {thenBody elseBody : List Node}
    {thenValue elseValue : Node}, Visits c .top (.start body) body p s t →
    partAt p body =
      some (.statement (.choice (.var test) merge thenBody thenValue elseBody elseValue)) →
    ∃ s₁ s₂ consequent alternate,
      RunsBranch c merge .consequent thenBody thenValue s consequent s₁ ∧
      RunsBranch c merge .alternate elseBody elseValue s₁ alternate s₂ ∧
      DeclaresAs s₂ t
        ((valueType s₁.output merge .consequent thenValue).or
          (valueType s₂.output merge .alternate elseValue))
        merge c.settings.multiplexerFactor [test, alternate, consequent] (.mergeUntyped merge)
  /-- A condition is worth a notice if its variable was last declared with a type other than a bit. -/
  conditioned : ∀ {p : Position} {s t : Scope} {node : Node} {name : String},
    Visits c .top (.start body) body p s t → partAt p body = some (.statement node) →
    conditioned? node = some name →
    t.notices = s.notices ++ ((latestType s.output name).filter (· != "Bit")).toList.map fun type =>
      .fixedType name type c.settings.conditionValue.text
  /-- If the program is accepted, it is told that a condition fixes a variable of some type if and only if
  there is a condition on a variable that was last declared with that type, and that is no bit. -/
  told : ∀ {output : List Java.Statement}, (c.statements body).result = .ok output →
    ∀ {name type value : String},
    .fixedType name type value ∈ (c.statements body).notices ↔
      ∃ p s t node, Visits c .top (.start body) body p s t ∧
        partAt p body = some (.statement node) ∧ conditioned? node = some name ∧
        latestType s.output name = some type ∧ type ≠ "Bit" ∧
        value = c.settings.conditionValue.text
  /-- If the program is accepted, the pass goes through all of its parts. -/
  visited : ∀ {output : List Java.Statement}, (c.statements body).result = .ok output →
    ∀ {p : Position}, (partAt p body).isSome →
    ∃ s t, Visits c .top (.start body) body p s t ∧ t.output <+: output ∧
      t.notices <+: (c.statements body).notices

/-! ### Single statements -/

variable {s t : Scope} {result : Option String}

/-- An alias is declared with the type that its source has in the code. -/
theorem declaresAs_of_runs_copy {name source : String} (hmirrors : Mirrors s.types s.output)
    (h : Runs (c.visit (.assign name (.var source))) s result t) :
    DeclaresAs s t (latestType s.output source) name c.settings.aliasFactor [source]
      (.aliasUntyped name source) := by
  rw [visit, runs_bind_iff] at h
  obtain ⟨u, m, hassign, hend⟩ := h
  obtain ⟨-, rfl⟩ := runs_pure_iff.1 hend
  rw [assign, runs_assignAlias_iff] at hassign
  subst hassign
  rw [← hmirrors.lookup]
  exact declaresAs_extend _ _ _ _ _ _

/-- A merge variable is declared with the type that the values of the branches have in the code. -/
theorem exists_declaresAs_of_runs_choice
    (hkeep : ∀ name producer, c.find name = some producer → producer.KeepsOutput)
    {test merge : String} {thenBody elseBody : List Node} {thenValue elseValue : Node}
    (hbody : Node.Body [.choice (.var test) merge thenBody thenValue elseBody elseValue])
    (hmirrors : Mirrors s.types s.output)
    (h : Runs (c.visit (.choice (.var test) merge thenBody thenValue elseBody elseValue)) s result t) :
    ∃ s₁ s₂ consequent alternate,
      RunsBranch c merge .consequent thenBody thenValue s consequent s₁ ∧
      RunsBranch c merge .alternate elseBody elseValue s₁ alternate s₂ ∧
      DeclaresAs s₂ t
        ((valueType s₁.output merge .consequent thenValue).or
          (valueType s₂.output merge .alternate elseValue))
        merge c.settings.multiplexerFactor [test, alternate, consequent] (.mergeUntyped merge) := by
  obtain ⟨-, e, he, rfl⟩ := (visitFollowsRules hbody _ _ _).1 h
  obtain @⟨consequent, alternate, thenType, elseType, e₁, e₂, e₃, e₄, he₁, he₂, hrunThen, he₃, he₄,
    hrunElse⟩ := passesChoice_of_emits hbody he
  refine ⟨_, _, consequent, alternate, hrunThen, hrunElse, ?_⟩
  have hsteady := steady_mirrors hkeep
  -- The table at the end of each branch, before its value, and before the second branch.
  have hm₁ : Mirrors (s.extend e₁).types (s.extend e₁).output := hmirrors.append (hsteady.emits he₁)
  have hm₂ : Mirrors (s.extend (e₁ ++ e₂)).types (s.extend (e₁ ++ e₂)).output :=
    hmirrors.append (hsteady.append (hsteady.emits he₁) (hsteady.supplies he₂))
  have hm₃ : Mirrors ((s.extend (e₁ ++ e₂)).extend e₃).types
      ((s.extend (e₁ ++ e₂)).extend e₃).output := hm₂.append (hsteady.emits he₃)
  have hthenType := map_name_of_supplies hkeep hm₁ he₂
  have helseType := map_name_of_supplies hkeep hm₃ he₄
  have houtput : ∀ (r : Scope) (a b : Emission),
      (r.extend a).output ++ b.output = (r.extend (a ++ b)).output := by
    intro r a b
    simp [Scope.extend]
  have htype : (thenType <|> elseType) = thenType.or elseType := by cases thenType <;> rfl
  rw [houtput] at hthenType helseType
  rw [← hthenType, ← helseType, ← Option.map_or, ← htype, Scope.extend_extend _ (e₁ ++ e₂),
    ← Scope.extend_extend _ (e₁ ++ e₂ ++ (e₃ ++ e₄))]
  exact declaresAs_extend _ _ _ _ _ _

/-- A condition on a variable is told if the variable has another type than a bit in the code. -/
theorem notices_of_runs_conditioned {node : Node} {name : String}
    (hmirrors : Mirrors s.types s.output) (hnode : conditioned? node = some name)
    (h : Runs (c.visit node) s result t) :
    t.notices = s.notices ++ ((latestType s.output name).filter (· != "Bit")).toList.map fun type =>
      .fixedType name type c.settings.conditionValue.text := by
  -- Both ways to state a condition are one step of the pass.
  have hobserve : ∃ u m, Runs (c.observe .condition name) s u m ∧ t = m := by
    unfold conditioned? at hnode
    split at hnode
    · cases hnode
      rw [visit, runs_bind_iff] at h
      obtain ⟨u, m, hobserve, hend⟩ := h
      exact ⟨u, m, hobserve, (runs_pure_iff.1 hend).2⟩
    · cases hnode
      rw [visit, runs_bind_iff] at h
      obtain ⟨u, m, hassign, hend⟩ := h
      refine ⟨u, m, ?_, (runs_pure_iff.1 hend).2⟩
      rw [assign] at hassign
      obtain ⟨target, r, htarget, hobserve⟩ := runs_bind_iff.1 hassign
      obtain ⟨htarget, rfl⟩ := runs_lift_iff.1 htarget
      cases htarget
      exact hobserve
    · cases hnode
  obtain ⟨u, _, hrun, rfl⟩ := hobserve
  obtain ⟨statement, -, rfl⟩ := runs_observe_iff.1 hrun
  have hnotices : (Emission.observation c s.types .condition name statement).notices =
      Evidence.notices c.settings name (latestType s.output name) .condition := by
    rw [Emission.observation, hmirrors.lookup]
  rw [Scope.extend, hnotices]
  cases htype : latestType s.output name with
  | none => rfl
  | some type =>
    by_cases hbit : type = "Bit"
    · subst hbit
      rfl
    · simp [Evidence.notices, Option.filter, hbit]

end

/-! ### Notices of fixed types -/

/-- Describing a call tells nothing about conditions. -/
theorem not_mem_notices_describe {c : Compiler} {output callee name type value : String}
    {args : List Node} :
    Notice.fixedType name type value ∉ (Factor.describe c.settings c.find output callee args).notices := by
  rw [Factor.describe]
  split
  · simp [Report.silent]
  · split
    · simp [Report.silent]
    · split <;> simp

theorem eq_of_mem_notices_observation {c : Compiler} {types : List (String × VariableType)}
    {kind : EvidenceKind} {target name type value : String} {statement : Java.Statement}
    (h : .fixedType name type value ∈ (Emission.observation c types kind target statement).notices) :
    kind = .condition ∧ target = name := by
  cases kind with
  | factor => cases h
  | condition =>
    simp only [Emission.observation, Evidence.notices] at h
    split at h
    · cases h
    · split at h
      · cases h
      · cases List.mem_singleton.1 h
        exact ⟨rfl, rfl⟩

theorem eq_of_mem_notices_ofOptionalType {type : Option VariableType} {name factor : String}
    {inputs : List String} {notice notice' : Notice}
    (h : notice' ∈ (Emission.ofOptionalType type name factor inputs notice).notices) :
    notice' = notice := by
  cases type with
  | some _ => cases h
  | none => exact List.mem_singleton.1 h

/-- Only a condition tells that it fixes a variable of some type. -/
theorem conditioned_of_ownStep {c : Compiler} {s t : Scope} {part : Part} {e : Emission}
    {name type value : String} (h : OwnStep c s t part e)
    (hmem : .fixedType name type value ∈ e.notices) :
    ∃ node, part = .statement node ∧ conditioned? node = some name ∧
      t.notices = s.notices ++ e.notices := by
  cases h with
  | statement hyields ht =>
    refine ⟨_, rfl, ?_, by rw [ht]; rfl⟩
    cases hyields with
    | call => exact absurd hmem not_mem_notices_describe
    | copy => cases eq_of_mem_notices_ofOptionalType hmem
    | literal => cases hmem
    | array => cases hmem
    | query => cases hmem
    | evidence =>
      obtain ⟨rfl, rfl⟩ := eq_of_mem_notices_observation hmem
      rfl
    | evidenceCall hkind =>
      obtain ⟨rfl, rfl⟩ := eq_of_mem_notices_observation hmem
      cases EvidenceKind.name_of_ofName? hkind
      rfl
  | value _ hsupplies _ =>
    cases hsupplies with
    | call => exact absurd hmem not_mem_notices_describe
    | var => cases hmem
    | literal => cases hmem
  | merge => cases eq_of_mem_notices_ofOptionalType hmem

/-! ### Whole programs -/

section

variable {c : Compiler} {body : List Node} {p : Position} {s t : Scope}
  (hkeep : ∀ name producer, c.find name = some producer → producer.KeepsOutput)
  (hbody : Node.Body body)

include hkeep hbody

/-- The table mirrors the code wherever the pass over a program is. -/
theorem mirrors_of_visits_start (h : Visits c .top (.start body) body p s t) :
    Mirrors s.types s.output ∧ Mirrors t.types t.output :=
  mirrors_of_visits hkeep hbody (.of_declarationOf? fun _ h => by cases h) h

/-- What is told of a condition follows from the last declaration of its variable. -/
theorem notices_of_visits_conditioned {node : Node} {name : String}
    (h : Visits c .top (.start body) body p s t) (hpart : partAt p body = some (.statement node))
    (hnode : conditioned? node = some name) :
    t.notices = s.notices ++ ((latestType s.output name).filter (· != "Bit")).toList.map fun type =>
      .fixedType name type c.settings.conditionValue.text := by
  obtain ⟨result, hrun⟩ := h.exists_runs hpart
  exact notices_of_runs_conditioned (mirrors_of_visits_start hkeep hbody h).1 hnode hrun

/-- What an accepted program tells of types that are fixed comes from its conditions, and all of it is
told. -/
theorem fixedType_mem_notices_iff {output : List Java.Statement}
    (haccepted : (c.statements body).result = .ok output) {name type value : String} :
    .fixedType name type value ∈ (c.statements body).notices ↔
      ∃ p s t node, Visits c .top (.start body) body p s t ∧
        partAt p body = some (.statement node) ∧ conditioned? node = some name ∧
        latestType s.output name = some type ∧ type ≠ "Bit" ∧
        value = c.settings.conditionValue.text := by
  constructor
  · intro hmem
    obtain ⟨e, he, rfl⟩ := (result_statements_eq_ok_iff hbody).1 haccepted
    have hmem : .fixedType name type value ∈ e.notices := by
      rw [statements_eq_of_emits hbody he, List.mem_append] at hmem
      simpa using hmem
    obtain ⟨p, part, s, t, e', hvisits, hpart, hown, hmem⟩ := addsOwn_of_emits (r := .start body)
      (Q := fun e => .fixedType name type value ∈ e.notices) (by simp) (by simp) hbody he hmem
    obtain ⟨node, rfl, hnode, hnotices⟩ := conditioned_of_ownStep hown hmem
    -- The step of the condition adds what the last declaration says, and nothing else.
    rw [List.append_cancel_left
      (hnotices.symm.trans (notices_of_visits_conditioned hkeep hbody hvisits hpart hnode))] at hmem
    simp only [List.mem_map, Option.mem_toList, Option.filter_eq_some_iff,
      Notice.fixedType.injEq] at hmem
    obtain ⟨_, ⟨htype, hbit⟩, -, rfl, rfl⟩ := hmem
    exact ⟨p, s, t, node, hvisits, hpart, hnode, htype, by simpa using hbit, rfl⟩
  · rintro ⟨p, s, t, node, hvisits, hpart, hnode, htype, hbit, rfl⟩
    refine (hvisits.isPrefix_of_accepted hbody haccepted).2.subset ?_
    rw [notices_of_visits_conditioned hkeep hbody hvisits hpart hnode, htype]
    simp [Option.filter, hbit]

end

/-- **The types that the pass knows are those of the code.**  As long as no producer changes the variable
that it describes, the table of types mirrors the code at every part of the program, in a program that is
refused in the end, too; and so aliases and merge variables are declared, and conditions told of, by the
declarations that are in the code. -/
theorem typesFollowCode {c : Compiler} {body : List Node}
    (hkeep : ∀ name producer, c.find name = some producer → producer.KeepsOutput)
    (hbody : Node.Body body) : TypesFollowCode c body := by
  constructor
  · exact mirrors_of_visits_start hkeep hbody
  · intro p s t name source hvisits hpart
    obtain ⟨result, hrun⟩ := hvisits.exists_runs hpart
    exact declaresAs_of_runs_copy (mirrors_of_visits_start hkeep hbody hvisits).1 hrun
  · intro p s t test merge thenBody elseBody thenValue elseValue hvisits hpart
    obtain ⟨result, hrun⟩ := hvisits.exists_runs hpart
    exact exists_declaresAs_of_runs_choice hkeep (body_of_partAt hbody hpart)
      (mirrors_of_visits_start hkeep hbody hvisits).1 hrun
  · exact notices_of_visits_conditioned hkeep hbody
  · exact fixedType_mem_notices_iff hkeep hbody
  · intro output haccepted p hpart
    exact exists_visits_of_accepted hbody haccepted hpart

/-- A real variable is copied, merged with a number, and the merge variable is put a condition on. -/
theorem typesFollowCode_real :
    let c := (Session.builtin {}).compiler
    let body : List Node :=
      [.assign "coin" (.call "flip" []),
       .assign "height" (.call "beta" [.const (.int 2), .const (.int 1)]),
       .choice (.var "coin") "merged" [.assign "copy" (.var "height")] (.var "copy") []
         (.const (.int 3)),
       .evidence .condition "merged"]
    (c.statements body).result.toOption.map (latestType · "merged") = some (some "Real") ∧
      .fixedType "merged" "Real" "1" ∈ (c.statements body).notices ∧ TypesFollowCode c body := by
  refine ⟨by decide +kernel, by decide +kernel, typesFollowCode ?_ ?_⟩
  · exact fun _ _ h => Factor.keepsOutput_of_builtin h
  · refine .assign (by decide) (.call (by decide) .nil) ?_
    refine .assign (by decide) (.call (by decide) (.const _ (.const _ .nil))) ?_
    refine .choice (by decide) (by decide) ?_ (.var (by decide)) .nil (.const _) ?_
    · exact .assign (by decide) (.var (by decide)) .nil
    · exact .evidence _ (by decide) .nil

end Compiler

end TraceGraph
