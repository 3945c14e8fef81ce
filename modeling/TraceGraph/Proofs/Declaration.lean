import TraceGraph.Proofs.Pass
import TraceGraph.Proofs.Wiring
import TraceGraph.Session

/-!
# Declared names

The generated code declares what `Trace.declarations` lists, in that order
(`declaredNames_of_emits`): the assigned names, and a variable for each branch whose value is a call.
The second kind is made up by the pass.  It takes a name only if the program assigns it nowhere and no
variable has it so far (`fresh_of_emits`), so the code of a program that assigns each name once declares
each name once.
-/

namespace TraceGraph

namespace Java

/-- The name that a statement declares, be it that of a graph variable or of a local. -/
def Statement.declared? : Statement → Option String
  | .declareVariable _ name _ | .declareLocal _ name _ => some name
  | _ => none

/-- The names that statements declare. -/
def declaredNames (statements : List Statement) : List String :=
  statements.filterMap Statement.declared?

@[simp] theorem declaredNames_nil : declaredNames [] = [] := rfl

@[simp] theorem declaredNames_append (a b : List Statement) :
    declaredNames (a ++ b) = declaredNames a ++ declaredNames b :=
  List.filterMap_append

end Java

/-- A statement of evidence uses its variable and declares nothing. -/
theorem Evidence.statement_eq_ok {settings : Settings} {name : String} {kind : EvidenceKind}
    {statement : Java.Statement} (h : Evidence.statement settings name kind = .ok statement) :
    statement.graphVariables = [name] ∧ statement.declared? = none := by
  cases kind with
  | condition =>
    obtain ⟨text, -, htext⟩ := bind_eq_ok_iff.1 h
    cases htext
    exact ⟨rfl, rfl⟩
  | factor =>
    cases h
    exact ⟨rfl, rfl⟩

/-- A described call has the arguments that reach the primitive. -/
theorem Factor.Descriptor.Describes.handedOn_eq {settings : Settings} {output callee : String}
    {args : List Node} {d : Factor.Descriptor} (h : d.Describes settings output callee args) :
    Trace.handedOn settings callee args = d.args := by
  simp [Trace.handedOn, h.unwrap]

namespace Compiler

open Java (declaredNames)
open Trace

variable {c : Compiler} {assigned : List String} {types : List (String × VariableType)}
  {depth : Depth} {e : Emission}

/-! ### The order of declarations -/

section

variable (hfind : c.find = Factor.Registry.builtin.find?)

include hfind

/-- A described call declares its variable. -/
theorem declaredNames_described {name callee : String} {args : List Node} {d : Factor.Descriptor}
    {notices : List Notice}
    (h : (Factor.describe c.settings c.find name callee args).result = .ok d) :
    declaredNames (Emission.described name d notices).output = [name] := by
  rw [hfind] at h
  have houtput := (Factor.describes_of_describe h).output
  simp [Emission.described, Factor.Descriptor.statements, Factor.Descriptor.declaration,
    Factor.Descriptor.attachment, declaredNames, Java.Statement.declared?, houtput]

theorem declaredNames_of_yields {node : Node} (h : Yields c depth types node e) :
    declaredNames e.output = declarations [node] := by
  cases h with
  | call hkind hdescribe =>
    rw [declaredNames_described hfind hdescribe,
      declarations_assign _ _ _ (by simp [isEvidence, hkind])]
    rfl
  | copy => rfl
  | literal => rfl
  | array => rfl
  | evidence h =>
    obtain ⟨-, hdeclared⟩ := Evidence.statement_eq_ok h
    simp [Emission.observation, declaredNames, hdeclared]
  | evidenceCall hkind h =>
    obtain ⟨-, hdeclared⟩ := Evidence.statement_eq_ok h
    rw [declarations_assign_of_isEvidence _ _ _ (by simp [isEvidence, hkind])]
    simp [Emission.observation, declaredNames, hdeclared]
  | query => rfl

theorem declaredNames_of_supplies {merge text : String} {branch : Branch} {value : Node}
    {type : Option VariableType} (h : Supplies c assigned merge branch types value text type e) :
    declaredNames e.output = (local? (.last branch, .assign merge value)).toList := by
  cases h with
  | var => rfl
  | literal => rfl
  | call hkind _ _ hdescribe =>
    rw [declaredNames_described hfind hdescribe]
    simp [local?, hkind]

/-- **The code of a body declares the names that the body lists, in that order.** -/
theorem declaredNames_of_emits {body : List Node} (h : Emits c assigned depth types body e) :
    declaredNames e.output = declarations body := by
  induction h with
  | nil => rfl
  | step _ hnode _ ih =>
    rw [Emission.output_append, Java.declaredNames_append, declaredNames_of_yields hfind hnode, ih,
      ← declarations_cons]
  | choice _ hthenValue _ helseValue _ ihThen ihElse ihRest =>
    have hmerge : ∀ merge type test alternate consequent,
        declaredNames (Emission.merge c merge type test alternate consequent).output = [merge] :=
      fun _ _ _ _ _ => rfl
    simp only [Emission.output_append, Java.declaredNames_append, ihThen, ihElse, ihRest, hmerge,
      declaredNames_of_supplies hfind hthenValue, declaredNames_of_supplies hfind helseValue,
      declarations_choice]
    simp only [List.append_assoc, List.cons_append, List.nil_append]

end

/-! ### Names that the pass makes up -/

theorem lookup_after_eq_none_iff {x : String} :
    (e.after types).lookup x = none ↔ e.types.lookup x = none ∧ types.lookup x = none := by
  simp [Emission.after, List.lookup_append]

/-- The names are different from each other, assigned nowhere and not in use yet. -/
structure Available (assigned : List String) (types : List (String × VariableType))
    (names : List String) : Prop where
  nodup : names.Nodup
  unassigned : ∀ x ∈ names, x ∉ assigned
  unknown : ∀ x ∈ names, types.lookup x = none

/-- The names were available before an emission, and are in use after it. -/
structure Fresh (assigned : List String) (types : List (String × VariableType)) (e : Emission)
    (names : List String) : Prop extends Available assigned types names where
  known : ∀ x ∈ names, (e.after types).lookup x ≠ none

namespace Fresh

theorem nil : Fresh assigned types e [] :=
  ⟨⟨List.nodup_nil, by simp, by simp⟩, by simp⟩

/-- Names that are fresh one after the other are fresh together: the later ones are not among the
earlier, which were known by then. -/
theorem append {e' : Emission} {names names' : List String} (h : Fresh assigned types e names)
    (h' : Fresh assigned (e.after types) e' names') :
    Fresh assigned types (e ++ e') (names ++ names') := by
  refine ⟨⟨?_, ?_, ?_⟩, ?_⟩
  · rw [List.nodup_append]
    refine ⟨h.nodup, h'.nodup, ?_⟩
    rintro x hx _ hx' rfl
    exact h.known x hx (h'.unknown x hx')
  · intro x hx
    rcases List.mem_append.1 hx with hx | hx
    · exact h.unassigned x hx
    · exact h'.unassigned x hx
  · intro x hx
    rcases List.mem_append.1 hx with hx | hx
    · exact h.unknown x hx
    · exact (lookup_after_eq_none_iff.1 (h'.unknown x hx)).2
  · intro x hx
    rw [Emission.after_append]
    rcases List.mem_append.1 hx with hx | hx
    · exact fun hnone => h.known x hx (lookup_after_eq_none_iff.1 hnone).2
    · exact h'.known x hx

end Fresh

theorem locals_eq_nil_of_yields {node : Node} (h : Yields c depth types node e) :
    locals [node] = [] := by
  cases h <;> rfl

theorem fresh_of_supplies {merge text : String} {branch : Branch} {value : Node}
    {type : Option VariableType} (h : Supplies c assigned merge branch types value text type e) :
    Fresh assigned types e (local? (.last branch, .assign merge value)).toList := by
  cases h with
  | var => exact .nil
  | literal => exact .nil
  | @call callee args _ hkind hnew hfree _ =>
    have hlocal : local? (.last branch, .assign merge (.call callee args))
        = some (branch.variableName merge) := by
      simp [local?, hkind]
    rw [hlocal]
    refine ⟨⟨by simp, ?_, ?_⟩, ?_⟩
    · simpa using hfree
    · simpa using hnew
    · simp [Emission.after, Emission.described]

/-- **The variables of branches are fresh where the pass makes them up.** -/
theorem fresh_of_emits {body : List Node} (h : Emits c assigned depth types body e) :
    Fresh assigned types e (locals body) := by
  induction h with
  | nil => exact .nil
  | step _ hnode _ ih =>
    rw [locals_cons, locals_eq_nil_of_yields hnode]
    exact Fresh.nil.append ih
  | choice _ hthenValue _ helseValue _ ihThen ihElse ihRest =>
    have hvalue := ihThen.append (fresh_of_supplies hthenValue)
    have hboth := (hvalue.append ihElse).append (fresh_of_supplies helseValue)
    have hall := (hboth.append .nil).append ihRest
    simpa [List.append_assoc] using hall

/-- A program that assigns each name once gives each variable a name of its own. -/
theorem nodup_declarations_of_emits {body : List Node} (hbody : Node.Body body)
    (hsingle : SingleAssignment body) (h : Emits c (namesOfAll body) depth types body e) :
    (declarations body).Nodup := by
  have hfresh := fresh_of_emits h
  refine nodup_declarations hsingle hfresh.nodup fun x hx hassigned => ?_
  exact hfresh.unassigned x hx ((mem_namesOfAll_iff hbody x).2 hassigned)

/-- **No name is declared twice.**  If a program assigns each name at most once, the generated code
declares each name at most once, the variables of branches included. -/
theorem nodup_declaredNames {settings : Settings} {body : List Node} {output : List Java.Statement}
    (hbody : Node.Body body) (hsingle : SingleAssignment body)
    (h : ((Session.builtin settings).compiler.statements body).result = .ok output) :
    (declaredNames output).Nodup := by
  obtain ⟨e, he, rfl⟩ := (result_statements_eq_ok_iff hbody).1 h
  rw [declaredNames_of_emits rfl he]
  exact nodup_declarations_of_emits hbody hsingle he

theorem nodup_declaredNames_sample :
    ∃ output, ((Session.builtin {}).compiler.statements Node.sample).result = .ok output ∧
      declaredNames output =
        ["coin", "size", "copy", "inner_else", "inner", "outer_then", "other", "outer"] ∧
      (declaredNames output).Nodup := by
  obtain ⟨output, h, hnames⟩ := Factor.exists_eq_ok_of_toOption_map
    (show ((Session.builtin {}).compiler.statements Node.sample).result.toOption.map declaredNames =
      some ["coin", "size", "copy", "inner_else", "inner", "outer_then", "other", "outer"] by
        decide +kernel)
  exact ⟨output, h, hnames, nodup_declaredNames Node.body_sample (by decide) h⟩

end Compiler

end TraceGraph
