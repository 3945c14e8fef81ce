import TraceGraph.Factor.Call
import TraceGraph.Factor.Registry
import TraceGraph.Proofs.Rules

/-!
# The descriptors of built-in primitives

Whatever a built-in primitive makes of a call, it keeps the variable that is declared and the call's
arguments, and it wires all of the arguments to the factor or none of them (`describes_of_describe`).
The description depends on the declared variable in nothing else (`describe_output`), so whether a call
can be described does not depend on it at all.
-/

namespace TraceGraph.Factor

/-- A computation whose result is known up to a function gives a result. -/
theorem exists_eq_ok_of_toOption_map {ε α β : Type} {x : Except ε α} {f : α → β} {b : β}
    (h : x.toOption.map f = some b) : ∃ a, x = .ok a ∧ f a = b := by
  cases x with
  | error e => cases h
  | ok a => exact ⟨a, rfl, Option.some.inj h⟩

/-! ### Rules -/

/-- The factor that a rule chooses. -/
def Rule.factorName : Rule → String
  | .bernoulli => "Bernoulli"
  | .normal => "Normal"
  | .beta => "Beta"
  | .gamma => "Gamma"
  | .exponential => "Exponential"
  | .categorical | .uniformInteger | .uniformDraw => "Categorical"
  | .function _ factor _ => factor

/-- The type of variable that a rule chooses. -/
def Rule.variableType : Rule → VariableType
  | .bernoulli => .bit
  | .normal | .beta | .gamma | .exponential => .real
  | .categorical | .uniformInteger | .uniformDraw => .discrete
  | .function type _ _ => type

/-- The factors of the built-in primitives. -/
def builtinFactors : List String := builtins.map fun entry => entry.2.factorName

/-- A filled draft still describes the same call, and all of its arguments are wired or none. -/
structure Draft.Fills (draft filled : Draft) (type : VariableType) (factor : String) : Prop where
  output : filled.output = draft.output
  primitive : filled.primitive = draft.primitive
  args : filled.args = draft.args
  rendered : filled.rendered = draft.rendered
  variableType : filled.variableType = some type.name
  factor : filled.factor = some factor
  inputs : filled.inputs = none ∨ filled.inputs = some draft.rendered

/-- The draft for another variable. -/
def Draft.withOutput (draft : Draft) (output : String) : Draft := { draft with output }

theorem Draft.parameterized_withOutput (draft : Draft) (output : String) (type : VariableType)
    (factor : String) :
    (draft.withOutput output).parameterized type factor =
      (draft.parameterized type factor).withOutput output := by
  unfold parameterized
  by_cases h : (draft.withOutput output).args.all fun arg => arg.literal?.isSome
  · rw [if_pos h, if_pos (show draft.args.all _ from h)]
    rfl
  · rw [if_neg h, if_neg (show ¬ draft.args.all _ from h)]
    rfl

theorem Draft.fills_parameterized {draft : Draft} (hinputs : draft.inputs = none)
    (type : VariableType) (factor : String) :
    draft.Fills (draft.parameterized type factor) type factor := by
  unfold parameterized
  split
  · exact ⟨rfl, rfl, rfl, rfl, rfl, rfl, .inl hinputs⟩
  · exact ⟨rfl, rfl, rfl, rfl, rfl, rfl, .inr rfl⟩

namespace Rule

variable {rule : Rule} {draft filled : Draft}

/-- A rule keeps the call that it describes. -/
theorem Gives.fills (hinputs : draft.inputs = none) (h : rule.Gives draft filled) :
    draft.Fills filled rule.variableType rule.factorName := by
  cases h with
  | bernoulli | beta | exponential => exact Draft.fills_parameterized hinputs _ _
  | function => exact ⟨rfl, rfl, rfl, rfl, rfl, rfl, .inr rfl⟩
  | _ => exact ⟨rfl, rfl, rfl, rfl, rfl, rfl, .inl hinputs⟩

/-- A rule gives the same for another variable. -/
theorem Gives.withOutput (h : rule.Gives draft filled) (output : String) :
    rule.Gives (draft.withOutput output) (filled.withOutput output) := by
  cases h with
  | half hargs => exact .half hargs
  | bernoulli hargs =>
    rw [← Draft.parameterized_withOutput]
    exact .bernoulli hargs
  | normal hargs hfirst hsecond hpositive hsquare =>
    exact .normal hargs hfirst hsecond hpositive hsquare
  | beta hargs =>
    rw [← Draft.parameterized_withOutput]
    exact .beta hargs
  | gamma hargs hfirst hsecond hpositive hscale =>
    exact .gamma hargs hfirst hsecond hpositive hscale
  | exponential hargs =>
    rw [← Draft.parameterized_withOutput]
    exact .exponential hargs
  | categorical hargs hempty hweights => exact .categorical hargs hempty hweights
  | uniformInteger hargs hcount hpositive hwhole =>
    exact .uniformInteger hargs hcount hpositive hwhole
  | uniformDraw hargs hempty hvalues hnull htexts =>
    exact .uniformDraw hargs hempty hvalues hnull htexts
  | function harity => exact .function harity

/-- The rule fills a draft in, and another variable would have made no difference. -/
def Chooses (rule : Rule) (draft filled : Draft) : Prop :=
  draft.Fills filled rule.variableType rule.factorName ∧
    ∀ output, rule.fill (draft.withOutput output) = .ok (filled.withOutput output)

/-- **What every rule does to a draft.** -/
theorem chooses (hinputs : draft.inputs = none) (h : rule.fill draft = .ok filled) :
    rule.Chooses draft filled := by
  have hgives := fill_eq_ok_iff.1 h
  exact ⟨hgives.fills hinputs, fun output => fill_eq_ok_iff.2 (hgives.withOutput output)⟩

end Rule

/-! ### Descriptors -/

/-- The name of a primitive without what tracers put before it. -/
def bareName (name : String) : String := (unwrapName? name).getD name

/-- A built-in producer is that of a rule. -/
theorem exists_rule_of_mem_builtinProducers {name : String} {producer : Producer}
    (h : (name, producer) ∈ builtinProducers) :
    ∃ names rule, (names, rule) ∈ builtins ∧ name ∈ names ∧ producer.fill = rule.fill := by
  obtain ⟨⟨names, rule⟩, hrule, hname⟩ := List.mem_flatMap.1 h
  obtain ⟨other, hother, heq⟩ := List.mem_map.1 hname
  cases heq
  exact ⟨names, rule, hrule, hother, rfl⟩

/-- No built-in name looks like a wrapped one. -/
theorem bareName_of_mem_builtins {names : List String} {rule : Rule} (h : (names, rule) ∈ builtins)
    {name : String} (hname : name ∈ names) : bareName name = name := by
  have hbare : ∀ entry ∈ builtins, ∀ other ∈ entry.1, bareName other = other := by decide +kernel
  exact hbare _ h name hname

theorem mem_of_lookup_eq_some {producers : List (String × Producer)} {name : String}
    {producer : Producer} (h : producers.lookup name = some producer) :
    (name, producer) ∈ producers := by
  obtain ⟨before, after, rfl, -⟩ := List.lookup_eq_some_iff.1 h
  simp

/-- What the built-in registry finds is the producer of the rule that has the bare name. -/
theorem exists_rule_of_find? {name : String} {producer : Producer}
    (h : Registry.builtin.find? name = some producer) :
    ∃ names rule, (names, rule) ∈ builtins ∧ bareName name ∈ names ∧ producer.fill = rule.fill := by
  change Registry.builtin.lookup? name = some producer at h
  unfold Registry.lookup? at h
  split at h
  · next hlookup =>
    cases h
    obtain ⟨names, rule, hrule, hname, hfill⟩ :=
      exists_rule_of_mem_builtinProducers (mem_of_lookup_eq_some hlookup)
    exact ⟨names, rule, hrule, (bareName_of_mem_builtins hrule hname).symm ▸ hname, hfill⟩
  · obtain ⟨bare, hbare, hlookup⟩ := Option.bind_eq_some_iff.1 h
    rw [bareName, hbare]
    exact exists_rule_of_mem_builtinProducers (mem_of_lookup_eq_some hlookup)

/-- What a descriptor of a call has in common with the call. -/
structure Descriptor.Describes (d : Descriptor) (settings : Settings) (output callee : String)
    (args : List Node) : Prop where
  output : d.output = output
  unwrap : Factor.unwrap settings callee args = .ok (d.primitive, d.args)
  rendered : Node.javaAll d.args = .ok d.rendered
  factor : d.factor ∈ builtinFactors
  inputs : d.inputs = [] ∨ d.inputs = d.rendered

/-- A descriptor says what the draft does, with nothing where the draft is open. -/
structure Descriptor.Completes (d : Descriptor) (draft : Draft) : Prop where
  output : d.output = draft.output
  primitive : d.primitive = draft.primitive
  args : d.args = draft.args
  rendered : d.rendered = draft.rendered
  variableType : draft.variableType = some d.variableType.name
  factor : draft.factor = some d.factor
  factorArgs : d.factorArgs = draft.factorArgs.getD []
  inputs : d.inputs = draft.inputs.getD []
  variableArgs : d.variableArgs = draft.variableArgs.getD []

theorem Draft.completes_of_complete {draft : Draft} {d : Descriptor} (h : draft.complete = .ok d) :
    d.Completes draft := by
  unfold complete at h
  split at h
  · cases h
  · next htype =>
    split at h
    · cases h
    · next hname =>
      split at h
      · cases h
      · cases h
      · next hfactor =>
        cases h
        refine ⟨rfl, rfl, rfl, rfl, ?_, hfactor, rfl, rfl, rfl⟩
        rw [htype, VariableType.name_of_ofName? hname]

theorem Draft.complete_withOutput {draft : Draft} {d : Descriptor} (h : draft.complete = .ok d)
    (output : String) : (draft.withOutput output).complete = .ok { d with output } := by
  obtain ⟨_, primitive, args, rendered, variableType, factor, factorArgs, inputs, variableArgs⟩ := draft
  simp only [complete, withOutput] at h ⊢
  split at h
  · cases h
  · split at h
    · cases h
    · split at h
      · cases h
      · cases h
      · cases h
        rfl

/-- What is left of a call without the dispatcher: all of it, or what the dispatcher was given. -/
theorem unwrap_eq_ok {settings : Settings} {callee primitive : String} {args handed : List Node}
    (h : unwrap settings callee args = .ok (primitive, handed)) :
    primitive = callee ∧ handed = args ∨ ∃ elements others,
      args = .const (.str primitive) :: .array elements :: others ∧ handed = elements.dropLast := by
  unfold unwrap at h
  split at h
  · cases h
    exact .inl ⟨rfl, rfl⟩
  · split at h
    · split at h
      · split at h
        · cases h
        · split at h
          · cases h
            exact .inr ⟨_, _, rfl, rfl⟩
          · cases h
      · cases h
    · cases h

/-- A draft of a call starts with nothing chosen. -/
theorem draft_eq_ok {settings : Settings} {output callee : String} {args : List Node} {first : Draft}
    (h : draft settings output callee args = .ok first) :
    first.output = output ∧ unwrap settings callee args = .ok (first.primitive, first.args) ∧
      Node.javaAll first.args = .ok first.rendered ∧
      (first.inputs = none ∧ first.factorArgs = none ∧ first.variableArgs = none) ∧
      ∀ other, draft settings other callee args = .ok (first.withOutput other) := by
  simp only [draft, bind_eq_ok_iff, Draft.ofCall] at h ⊢
  obtain ⟨⟨primitive, handed⟩, hunwrap, rendered, hrendered, h⟩ := h
  cases h
  exact ⟨rfl, hunwrap, hrendered, ⟨rfl, rfl, rfl⟩, fun other => ⟨_, hunwrap, rendered, hrendered, rfl⟩⟩

section

variable {settings : Settings} {output callee : String} {args : List Node} {d : Descriptor}

/-- A call is described if it can be drafted, its primitive is found and the producer describes it. -/
theorem result_describe_eq_ok_iff {find : String → Option Producer} :
    (describe settings find output callee args).result = .ok d ↔
      ∃ first producer, draft settings output callee args = .ok first ∧
        find first.primitive = some producer ∧ producer.describe first = .ok d := by
  unfold describe
  cases hfirst : draft settings output callee args with
  | error e => simp [Report.silent]
  | ok first =>
    cases hfind : find first.primitive with
    | none => simp [Report.silent, hfind]
    | some producer =>
      cases hdescribe : producer.describe first <;> simp [hfind, hdescribe]

/-- A built-in primitive fills a draft in by its rule, and the draft is completed. -/
theorem exists_rule_of_describe {first : Draft} {producer : Producer}
    (hfind : Registry.builtin.find? first.primitive = some producer)
    (h : producer.describe first = .ok d) :
    ∃ names rule filled, (names, rule) ∈ builtins ∧ bareName first.primitive ∈ names ∧
      producer.fill = rule.fill ∧ rule.fill first = .ok filled ∧ filled.complete = .ok d := by
  obtain ⟨names, rule, hrule, hname, hfill⟩ := exists_rule_of_find? hfind
  obtain ⟨filled, hfilled, hcomplete⟩ := bind_eq_ok_iff.1 h
  exact ⟨names, rule, filled, hrule, hname, hfill, hfill ▸ hfilled, hcomplete⟩

/-- **A built-in primitive describes the call it was given.** -/
theorem describes_of_describe
    (h : (describe settings Registry.builtin.find? output callee args).result = .ok d) :
    d.Describes settings output callee args := by
  obtain ⟨first, producer, hfirst, hfind, hproducer⟩ := result_describe_eq_ok_iff.1 h
  obtain ⟨names, rule, filled, hrule, -, -, hfill, hcomplete⟩ :=
    exists_rule_of_describe hfind hproducer
  obtain ⟨houtput, hunwrap, hrendered, ⟨hinputs, -⟩, -⟩ := draft_eq_ok hfirst
  obtain ⟨hfills, -⟩ := Rule.chooses hinputs hfill
  have hd := Draft.completes_of_complete hcomplete
  have hfactor : d.factor = rule.factorName := by
    have heq := hd.factor
    rw [hfills.factor, Option.some.injEq] at heq
    exact heq.symm
  constructor
  · rw [hd.output, hfills.output, houtput]
  · rw [hd.primitive, hd.args, hfills.primitive, hfills.args, hunwrap]
  · rw [hd.args, hd.rendered, hfills.args, hfills.rendered, hrendered]
  · rw [hfactor]
    exact List.mem_map.2 ⟨_, hrule, rfl⟩
  · rw [hd.inputs, hd.rendered, hfills.rendered]
    rcases hfills.inputs with hnone | hsome
    · exact .inl (by rw [hnone]; rfl)
    · exact .inr (by rw [hsome]; rfl)

/-- **Another variable makes no difference to a description but the name.** -/
theorem describe_output
    (h : (describe settings Registry.builtin.find? output callee args).result = .ok d)
    (other : String) :
    (describe settings Registry.builtin.find? other callee args).result =
      .ok { d with output := other } := by
  obtain ⟨first, producer, hfirst, hfind, hproducer⟩ := result_describe_eq_ok_iff.1 h
  obtain ⟨names, rule, filled, -, -, hsame, hfill, hcomplete⟩ :=
    exists_rule_of_describe hfind hproducer
  obtain ⟨-, -, -, ⟨hinputs, -⟩, hother⟩ := draft_eq_ok hfirst
  obtain ⟨-, hchooses⟩ := Rule.chooses hinputs hfill
  refine result_describe_eq_ok_iff.2 ⟨_, producer, hother other, hfind, ?_⟩
  refine bind_eq_ok_iff.2 ⟨filled.withOutput other, ?_, Draft.complete_withOutput hcomplete other⟩
  rw [hsame, hchooses]

end

end TraceGraph.Factor
