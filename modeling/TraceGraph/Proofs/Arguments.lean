import TraceGraph.Proofs.Domain
import TraceGraph.Proofs.Memory

/-!
# Where the arguments of a call go

A rule does one of three things with the arguments of a call (`Rule.Allocates`): it hands them to the
constructor of the factor, if it takes parameters and all of them are literals; it joins them to the factor
as inputs; or it computes something else from them, and then the factor has no inputs at all.  So no argument
is lost, none stands in two places, and their order is kept (`arguments_allocated`).

What a rule chooses can always be completed (`Draft.exists_complete`), so the errors of a call are those of its
arguments, and never that a producer left something out (`Rule.kind_of_fill`).
-/

namespace TraceGraph

theorem Node.exists_const_of_literal? {node : Node} (h : node.literal?.isSome = true) :
    ∃ value, node = .const value := by
  cases node with
  | const value => exact ⟨value, rfl⟩
  | _ => cases h

namespace Factor

/-! ### What rules do with arguments -/

namespace Rule

/-- Does the rule hand literals to the constructor of its factor? -/
def takesParameters : Rule → Bool
  | .bernoulli | .beta | .exponential => true
  | _ => false

/-- Does the rule construct its factor with something else than the arguments? -/
def computes (rule : Rule) (args : List Node) : Bool :=
  match rule with
  | .normal | .gamma | .categorical | .uniformInteger | .uniformDraw => true
  | .bernoulli => args.isEmpty
  | _ => false

/-- What a rule can do with the arguments of a draft. -/
inductive Allocates (rule : Rule) (draft filled : Draft) : Prop
  | parameters (hplain : rule.computes draft.args = false) (htakes : rule.takesParameters = true)
      (hliteral : ∀ arg ∈ draft.args, ∃ value, arg = .const value)
      (hparameters : filled.factorArgs = some draft.rendered) (hinputs : filled.inputs = none)
  | inputs (hplain : rule.computes draft.args = false) (hparameters : filled.factorArgs = none)
      (hinputs : filled.inputs = some draft.rendered)
  | computed (hcomputes : rule.computes draft.args = true) (hinputs : filled.inputs = none)

end Rule

section

variable {rule : Rule} {draft filled : Draft}

theorem Draft.allocates_parameterized (hplain : rule.computes draft.args = false)
    (htakes : rule.takesParameters = true) (hinputs : draft.inputs = none)
    (hfactorArgs : draft.factorArgs = none) (type : VariableType) (factor : String) :
    rule.Allocates draft (draft.parameterized type factor) := by
  unfold parameterized
  split
  · next hall =>
    refine .parameters hplain htakes (fun arg harg => ?_) rfl hinputs
    exact Node.exists_const_of_literal? (List.all_eq_true.1 hall arg harg)
  · exact .inputs hplain hfactorArgs rfl

/-- **A rule hands all arguments over in one place**, or computes something else from them. -/
theorem Rule.allocates (hinputs : draft.inputs = none) (hfactorArgs : draft.factorArgs = none)
    (h : rule.fill draft = .ok filled) : rule.Allocates draft filled := by
  cases fill_eq_ok_iff.1 h with
  | half hargs => exact .computed (by rw [hargs]; rfl) hinputs
  | bernoulli hargs =>
    have hplain : Rule.bernoulli.computes draft.args = false := by rw [hargs]; rfl
    exact Draft.allocates_parameterized hplain rfl hinputs hfactorArgs _ _
  | beta | exponential => exact Draft.allocates_parameterized rfl rfl hinputs hfactorArgs _ _
  | normal | gamma | categorical | uniformInteger | uniformDraw => exact .computed rfl hinputs
  | function => exact .inputs rfl hfactorArgs rfl

/-! ### What can go wrong -/

/-- The families of errors that the arguments of a call give rise to. -/
def argumentFaults : List Error.Kind := [.schema, .overflow, .invalidNumber, .divisionByZero]

variable {e : Error}

theorem Draft.kind_of_expectArity {allowed : List Nat} (h : draft.expectArity allowed = .error e) :
    e.kind ∈ argumentFaults := by
  unfold expectArity at h
  split at h
  · cases h
  · cases h
    exact List.mem_cons_self

theorem kind_of_mapM_number? {nodes : List Node} (h : nodes.mapM Node.number? = .error e) :
    e.kind ∈ argumentFaults := by
  obtain ⟨node, -, hnode⟩ := mapM_eq_error_iff.1 h
  rw [eq_outOfRange_of_number? hnode]
  decide

theorem Draft.kind_of_twoNumbers (h : draft.twoNumbers = .error e) : e.kind ∈ argumentFaults := by
  unfold twoNumbers at h
  rcases bind_eq_error_iff.1 h with h | ⟨-, -, h⟩
  · exact Draft.kind_of_expectArity h
  rcases bind_eq_error_iff.1 h with h | ⟨numbers, -, h⟩
  · rcases bind_eq_error_iff.1 h with h | ⟨numbers, -, h⟩
    · exact kind_of_mapM_number? h
    · split at h
      · cases h
      · cases h
        exact List.mem_cons_self
  · split at h
    · cases h
    · cases h
      exact List.mem_cons_self

theorem kind_of_reciprocal {x : Float} (h : reciprocal x = .error e) : e.kind ∈ argumentFaults := by
  unfold reciprocal at h
  split at h
  · cases h
    decide
  · cases h

theorem kind_of_wholeCount {primitive : String} {count : Float}
    (h : wholeCount primitive count = .error e) : e.kind ∈ argumentFaults := by
  unfold wholeCount at h
  split at h
  · cases h
    decide
  · next negative _ =>
    cases h
    cases negative
    · exact List.mem_cons_of_mem _ List.mem_cons_self
    · exact List.mem_cons_self
  · split at h
    · split at h
      · cases h
      · cases h
        exact List.mem_cons_self
    · cases h
      exact List.mem_cons_self

theorem kind_of_java {value : Literal} (h : value.java = .error e) : e.kind ∈ argumentFaults := by
  rw [Literal.eq_tooManyDigits_of_java h]
  decide

/-- **A rule fails because of its arguments**, never because it is itself at fault. -/
theorem Rule.kind_of_fill (h : rule.fill draft = .error e) : e.kind ∈ argumentFaults := by
  cases rule with
  | bernoulli =>
    rcases bind_eq_error_iff.1 h with h | ⟨-, -, h⟩
    · exact Draft.kind_of_expectArity h
    · split at h <;> cases h
  | beta | exponential => exact Draft.kind_of_expectArity (eq_error_of_bind_pure h)
  | normal =>
    rcases bind_eq_error_iff.1 h with h | ⟨⟨mean, deviation⟩, -, h⟩
    · exact Draft.kind_of_twoNumbers h
    · dsimp only at h
      split at h
      · cases h
        exact List.mem_cons_self
      · exact kind_of_reciprocal (eq_error_of_bind_pure h)
  | gamma =>
    rcases bind_eq_error_iff.1 h with h | ⟨⟨shape, scale⟩, -, h⟩
    · exact Draft.kind_of_twoNumbers h
    · dsimp only at h
      split at h
      · cases h
        exact List.mem_cons_self
      · exact kind_of_reciprocal (eq_error_of_bind_pure h)
  | categorical =>
    rcases bind_eq_error_iff.1 h with h | ⟨-, -, h⟩
    · exact Draft.kind_of_expectArity h
    · split at h
      · cases h
        exact List.mem_cons_self
      · rcases bind_eq_error_iff.1 h with h | ⟨numbers, -, h⟩
        · exact kind_of_mapM_number? h
        · split at h
          · cases h
            exact List.mem_cons_self
          · cases h
  | uniformInteger =>
    rcases bind_eq_error_iff.1 h with h | ⟨-, -, h⟩
    · exact Draft.kind_of_expectArity h
    rcases bind_eq_error_iff.1 h with h | ⟨number, -, h⟩
    · rw [eq_outOfRange_of_number? h]
      decide
    · split at h
      · cases h
        exact List.mem_cons_self
      · exact kind_of_wholeCount (eq_error_of_bind_pure h)
  | uniformDraw =>
    rcases bind_eq_error_iff.1 h with h | ⟨-, -, h⟩
    · exact Draft.kind_of_expectArity h
    · split at h
      · cases h
        exact List.mem_cons_self
      · split at h
        · cases h
          exact List.mem_cons_self
        · split at h
          · cases h
            exact List.mem_cons_self
          · rcases bind_eq_error_iff.1 h with h | ⟨texts, -, h⟩
            · obtain ⟨value, -, hvalue⟩ := mapM_eq_error_iff.1 h
              exact kind_of_java hvalue
            · cases h
  | function type factor arity =>
    cases arity with
    | none => cases h
    | some n => exact Draft.kind_of_expectArity (eq_error_of_bind_pure h)

end

mutual

theorem kind_of_node_java {e : Error} : ∀ {node : Node}, node.java = .error e → e.kind ∈ argumentFaults
  | .var _, h | .raw _, h => by cases h
  | .const value, h => kind_of_java h
  | .array elements, h => by
    rcases bind_eq_error_iff.1 h with h | ⟨texts, -, h⟩
    · exact kind_of_javaAll h
    · cases h
  | .blank, h | .call _ _, h | .assign _ _, h | .evidence _ _, h | .choice _ _ _ _ _ _, h
  | .query _, h | .program _, h => by
    cases h
    exact List.mem_cons_self

/-- Arguments that have no Java text are at fault themselves. -/
theorem kind_of_javaAll {e : Error} : ∀ {nodes : List Node}, Node.javaAll nodes = .error e →
    e.kind ∈ argumentFaults
  | [], h => by cases h
  | node :: rest, h => by
    rcases bind_eq_error_iff.1 h with h | ⟨first, -, h⟩
    · exact kind_of_node_java h
    · exact kind_of_javaAll (eq_error_of_bind_pure h)

end

/-- What a rule chose can be completed. -/
theorem Draft.exists_complete {draft filled : Draft} {type : VariableType} {factor : String}
    (h : draft.Fills filled type factor) (hfactor : factor ≠ "") :
    ∃ d, filled.complete = .ok d ∧ d.variableType = type ∧ d.factor = factor := by
  unfold complete
  rw [h.variableType, h.factor]
  dsimp only
  rw [VariableType.ofName?_name]
  dsimp only
  split
  · next heq => cases heq
  · next heq => exact absurd (Option.some.inj heq) hfactor
  · next heq =>
    cases heq
    exact ⟨_, rfl, rfl, rfl⟩

/-! ### Calls of built-in primitives -/

/-- The names of the built-in primitives. -/
def builtinNames : List String := builtins.flatMap Prod.fst

theorem exists_lookup_of_mem_builtinNames {name : String} (hname : name ∈ builtinNames) :
    ∃ producer, builtinProducers.lookup name = some producer := by
  cases hlookup : builtinProducers.lookup name with
  | some producer => exact ⟨producer, rfl⟩
  | none =>
    obtain ⟨⟨names, rule⟩, hrule, hmem⟩ := List.mem_flatMap.1 hname
    have hin : (name, rule.producer (names.head?.getD name)) ∈ builtinProducers :=
      List.mem_flatMap.2 ⟨(names, rule), hrule, List.mem_map.2 ⟨name, hmem, rfl⟩⟩
    have hne := List.lookup_eq_none_iff.1 hlookup _ hin
    simp at hne

/-- The registry finds each built-in primitive, also under its wrapped name, and it finds the rule of the
name. -/
theorem exists_rule_of_mem_builtinNames {name callee : String} (hname : name ∈ builtinNames)
    (hcallee : callee = name ∨ callee = wrap name) :
    ∃ names rule producer, Registry.builtin.find? callee = some producer ∧ (names, rule) ∈ builtins ∧
      name ∈ names ∧ producer.fill = rule.fill := by
  obtain ⟨found, hlookup⟩ := exists_lookup_of_mem_builtinNames hname
  have hunwrap : unwrapName? (wrap name) = some name := unwrapName?_eq_some_iff.2 rfl
  have hfind : ∃ producer, Registry.builtin.find? callee = some producer := by
    change ∃ producer, Registry.builtin.lookup? callee = some producer
    unfold Registry.lookup?
    split
    · next producer _ => exact ⟨producer, rfl⟩
    · next hnone =>
      rcases hcallee with rfl | rfl
      · rw [show Registry.builtin.producers = builtinProducers from rfl, hlookup] at hnone
        cases hnone
      · rw [hunwrap]
        exact ⟨found, hlookup⟩
  have hbare : bareName callee = name := by
    rcases hcallee with rfl | rfl
    · obtain ⟨entry, hrule, hmem⟩ := List.mem_flatMap.1 hname
      exact bareName_of_mem_builtins hrule hmem
    · rw [bareName, hunwrap]
      rfl
  obtain ⟨producer, hproducer⟩ := hfind
  obtain ⟨names, rule, hrule, hmem, hfill⟩ := exists_rule_of_find? hproducer
  exact ⟨names, rule, producer, hproducer, hrule, hbare ▸ hmem, hfill⟩

/-- The primitives that compute what their factor is constructed with: those that recompute their
parameters, those that draw from a list or below a bound, and a draw of a bit without a probability. -/
def Computes (name : String) (args : List Node) : Prop :=
  name ∈ ["gaussian", "normal", "gamma", "discrete", "categorical", "randomInteger", "uniformDraw"] ∨
    name ∈ ["flip", "bernoulli"] ∧ args = []

/-- What the table of the primitives says of each rule and of each name of it. -/
theorem table_of_mem_builtins {names : List String} {rule : Rule} (h : (names, rule) ∈ builtins) :
    (rule.variableType ∈ [.bit, .real, .discrete] ∧ rule.factorName ≠ "") ∧ ∀ name ∈ names,
      (rule.computes [] = true ↔ name ∈ ["gaussian", "normal", "gamma", "discrete", "categorical",
        "randomInteger", "uniformDraw"] ∨ name ∈ ["flip", "bernoulli"]) ∧
      (rule.computes [.blank] = true ↔ name ∈ ["gaussian", "normal", "gamma", "discrete", "categorical",
        "randomInteger", "uniformDraw"]) ∧
      (rule.takesParameters = true ↔ name ∈ ["flip", "bernoulli", "beta", "exponential"]) := by
  have hall : ∀ entry ∈ builtins,
      (entry.2.variableType ∈ [.bit, .real, .discrete] ∧ entry.2.factorName ≠ "") ∧ ∀ name ∈ entry.1,
        (entry.2.computes [] = true ↔ name ∈ ["gaussian", "normal", "gamma", "discrete", "categorical",
          "randomInteger", "uniformDraw"] ∨ name ∈ ["flip", "bernoulli"]) ∧
        (entry.2.computes [.blank] = true ↔ name ∈ ["gaussian", "normal", "gamma", "discrete",
          "categorical", "randomInteger", "uniformDraw"]) ∧
        (entry.2.takesParameters = true ↔ name ∈ ["flip", "bernoulli", "beta", "exponential"]) := by
    decide +kernel
  exact hall _ h

theorem computes_iff {name : String} {names : List String} {rule : Rule}
    (hrule : (names, rule) ∈ builtins) (hname : name ∈ names) (args : List Node) :
    rule.computes args = true ↔ Computes name args := by
  obtain ⟨hempty, hother, -⟩ := (table_of_mem_builtins hrule).2 name hname
  cases args with
  | nil =>
    rw [hempty, Computes]
    simp
  | cons arg rest =>
    -- Beyond the first argument nothing is looked at.
    have hsame : rule.computes (arg :: rest) = rule.computes [.blank] := by cases rule <;> rfl
    rw [hsame, hother, Computes]
    simp

section

variable {settings : Settings} {output callee : String} {args : List Node} {rendered : List String}

/-- The draft of a call that does not go through the dispatcher. -/
theorem draft_of_ne (h : callee ≠ settings.dispatcherName) :
    draft settings output callee args = Draft.ofCall output callee args := by
  have hunwrap : unwrap settings callee args = .ok (callee, args) := if_pos h
  rw [draft, hunwrap]
  rfl

/-- A call that does not go through the dispatcher fails because of its arguments, or is described by the
rule that is found for it. -/
theorem describe_cases {producer : Producer} {rule : Rule} (hdispatcher : callee ≠ settings.dispatcherName)
    (hfind : Registry.builtin.find? callee = some producer) (hfill : producer.fill = rule.fill)
    (hfactor : rule.factorName ≠ "") :
    (∃ e, (describe settings Registry.builtin.find? output callee args).result = .error e ∧
      e.kind ∈ argumentFaults) ∨
    ∃ d rendered, (describe settings Registry.builtin.find? output callee args).result = .ok d ∧
      Node.javaAll args = .ok rendered ∧ d.variableType = rule.variableType ∧
      d.factor = rule.factorName ∧
      ∃ filled, rule.Allocates { output, primitive := callee, args, rendered } filled ∧
        d.factorArgs = filled.factorArgs.getD [] ∧ d.inputs = filled.inputs.getD [] := by
  cases hrendered : Node.javaAll args with
  | error e =>
    refine .inl ⟨e, ?_, kind_of_javaAll hrendered⟩
    rw [describe, draft_of_ne hdispatcher, Draft.ofCall, hrendered]
    rfl
  | ok rendered =>
    have hfirst : draft settings output callee args =
        .ok { output, primitive := callee, args, rendered } := by
      rw [draft_of_ne hdispatcher, Draft.ofCall, hrendered]
      rfl
    cases hfilled : rule.fill { output, primitive := callee, args, rendered } with
    | error e =>
      refine .inl ⟨e, ?_, Rule.kind_of_fill hfilled⟩
      have hdescribe : producer.describe { output, primitive := callee, args, rendered } = .error e := by
        rw [Producer.describe, hfill, hfilled]
        rfl
      rw [describe, hfirst]
      simp only [hfind, hdescribe]
    | ok filled =>
      obtain ⟨d, hcomplete, htype, hname⟩ := Draft.exists_complete (Rule.chooses rfl hfilled).1 hfactor
      have hd := Draft.completes_of_complete hcomplete
      refine .inr ⟨d, rendered, ?_, rfl, htype, hname, filled, Rule.allocates rfl rfl hfilled,
        hd.factorArgs, hd.inputs⟩
      refine result_describe_eq_ok_iff.2 ⟨_, producer, hfirst, hfind, ?_⟩
      rw [Producer.describe, hfill, hfilled]
      exact hcomplete

end

/-- **The arguments of a built-in primitive are neither lost nor doubled nor mixed up.**  The call fails only
because of its arguments.  If it does not, the variable is a bit, a real or discrete, there is a factor, and
the arguments stand in order in one place: among the inputs, or with the parameters if the primitive takes
any and all of the arguments are literals.  A primitive that computes its parameters has no inputs. -/
theorem arguments_allocated (settings : Settings) (output name callee : String) (args : List Node)
    (hname : name ∈ builtinNames) (hcallee : callee = name ∨ callee = wrap name)
    (hdispatcher : callee ≠ settings.dispatcherName) :
    (∀ e, (describe settings Registry.builtin.find? output callee args).result = .error e →
      e.kind ≠ .registry ∧ e.kind ≠ .unknownPrimitive) ∧
    ∀ d, (describe settings Registry.builtin.find? output callee args).result = .ok d →
      d.variableType ∈ [.bit, .real, .discrete] ∧ d.factor ≠ "" ∧
      (d.factorArgs = [] ∨ d.inputs = []) ∧
      (¬ Computes name args → Node.javaAll args = .ok (d.factorArgs ++ d.inputs) ∧
        (d.factorArgs ≠ [] → name ∈ ["flip", "bernoulli", "beta", "exponential"] ∧
          ∀ arg ∈ args, ∃ value, arg = .const value)) ∧
      (Computes name args → d.inputs = []) := by
  obtain ⟨names, rule, producer, hfind, hrule, hmem, hfill⟩ :=
    exists_rule_of_mem_builtinNames hname hcallee
  obtain ⟨⟨htype, hfactor⟩, hnames⟩ := table_of_mem_builtins hrule
  have hcomputes := computes_iff hrule hmem args
  rcases describe_cases hdispatcher hfind hfill hfactor with
    ⟨e, he, hkind⟩ | ⟨d, rendered, hd, hrendered, hdtype, hdfactor, filled, hallocates, hparameters, hinputs⟩
  · rw [he]
    refine ⟨?_, fun d hd => by cases hd⟩
    intro e' he'
    cases he'
    exact ⟨fun h => absurd (h ▸ hkind) (by decide), fun h => absurd (h ▸ hkind) (by decide)⟩
  · rw [hd]
    refine ⟨fun e he => (by cases he), ?_⟩
    intro d' hd'
    cases hd'
    refine ⟨hdtype ▸ htype, hdfactor ▸ hfactor, ?_⟩
    rw [hrendered, ← hcomputes]
    cases hallocates with
    | parameters hplain htakes hliteral hargs hnone =>
      rw [hargs, Option.getD_some] at hparameters
      rw [hnone, Option.getD_none] at hinputs
      rw [hparameters, hinputs, hplain, List.append_nil]
      exact ⟨.inr rfl, fun _ => ⟨rfl, fun _ => ⟨(hnames name hmem).2.2.1 htakes, hliteral⟩⟩,
        fun _ => rfl⟩
    | inputs hplain hargs hsome =>
      rw [hargs, Option.getD_none] at hparameters
      rw [hsome, Option.getD_some] at hinputs
      rw [hparameters, hinputs, hplain, List.nil_append]
      exact ⟨.inl rfl, fun _ => ⟨rfl, fun h => absurd rfl h⟩, fun h => by cases h⟩
    | computed htrue hnone =>
      rw [hnone, Option.getD_none] at hinputs
      rw [hinputs, htrue]
      exact ⟨.inr rfl, fun h => absurd rfl h, fun _ => rfl⟩

/-- A variable among the parameters makes inputs of all of them, the literal included. -/
theorem arguments_allocated_wrapped :
    ∃ d, (describe {} Registry.builtin.find? "x" "wrapped_beta"
        [.const (.int 1), .var "y"]).result = .ok d ∧
      Node.javaAll [.const (.int 1), .var "y"] = .ok (d.factorArgs ++ d.inputs) ∧
      d.inputs = ["1", "y"] := by
  have hinputs : (describe {} Registry.builtin.find? "x" "wrapped_beta"
      [.const (.int 1), .var "y"]).result.toOption.map (·.inputs) = some ["1", "y"] := by decide +kernel
  obtain ⟨d, hd, hinputs⟩ := exists_eq_ok_of_toOption_map hinputs
  have hallocated := (arguments_allocated {} "x" "beta" "wrapped_beta" [.const (.int 1), .var "y"]
    (by decide +kernel) (.inr (by decide +kernel)) (by decide)).2 d hd
  have hplain : ¬ Computes "beta" [.const (.int 1), .var "y"] := by
    rintro (h | ⟨-, h⟩)
    · exact absurd h (by decide)
    · cases h
  exact ⟨d, hd, (hallocated.2.2.2.1 hplain).1, hinputs⟩

end Factor

end TraceGraph
