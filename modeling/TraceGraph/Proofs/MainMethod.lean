import Mathlib.Data.List.Nodup
import TraceGraph.Proofs.Observation

/-!
# The names of the main method

The code of a program stands in one method, whose parameter, graph and belief array have names of their
own: that of the parameter is fixed, and the other two come from the settings.  The pass makes sure that
the variables it makes up for branches do not meet the names that the program assigns, and nothing else:
neither are the names of the method checked against each other, nor those of the program against them.
So names clash exactly if one of the method's own names is taken twice (`nodup_mainNames_iff`).
-/

namespace TraceGraph

namespace Java

/-- The name that a statement declares in its method: that of a graph variable, of a local, or of the
array that holds a belief. -/
def Statement.local? : Statement → Option String
  | .extractBelief belief _ => some belief
  | statement => statement.declared?

/-- The names that are declared in the main method around some statements, for a graph of this name. -/
def mainNames (graph : String) (statements : List Statement) : List String :=
  "args" :: graph :: statements.filterMap Statement.local?

/-- The array that holds the belief is declared by the inference. -/
theorem filterMap_local?_inference (settings : Settings) (asked : Option String) :
    (inference settings asked).filterMap Statement.local? =
      (asked.map fun _ => settings.beliefName).toList := by
  cases asked <;> rfl

theorem declaredNames_inference (settings : Settings) (asked : Option String) :
    declaredNames (inference settings asked) = [] := by
  cases asked <;> rfl

theorem Statement.local?_eq_declared? {statement : Statement} (h : statement.isInference = false) :
    statement.local? = statement.declared? := by
  cases statement with
  | extractBelief => cases h
  | _ => rfl

end Java

namespace Compiler

open Java (declaredNames inference mainNames)
open Trace

/-- The names that the main method around a program has of its own: its parameter, the graph, and the array
that holds the belief, if the program asks for one. -/
def ownNames (settings : Settings) (body : List Node) : List String :=
  "args" :: settings.graphName :: ((asked? body).map fun _ => settings.beliefName).toList

/-- What is declared among the statements of a program: its own names, and then the array for the belief. -/
theorem filterMap_local?_of_emits {c : Compiler} {assigned : List String}
    {types : List (String × VariableType)} {depth : Depth} {body : List Node} {e : Emission}
    (h : Emits c assigned depth types body e) :
    e.output.filterMap Java.Statement.local? =
      declaredNames e.output ++ ((asked? body).map fun _ => c.settings.beliefName).toList := by
  obtain ⟨hfilter, code, hcode⟩ := inference_of_emits h
  -- All of the inference is at the end, so the code before it has none.
  have hnone : code.filter Java.Statement.isInference = [] := by
    have hall : (inference c.settings (asked? body)).filter Java.Statement.isInference =
        inference c.settings (asked? body) := by
      cases asked? body <;> rfl
    rw [← hcode, List.filter_append, hall] at hfilter
    exact List.append_left_eq_self.1 hfilter
  have hlocal : code.filterMap Java.Statement.local? = declaredNames code := by
    refine List.filterMap_congr fun statement hmem => Java.Statement.local?_eq_declared? ?_
    simpa using List.filter_eq_nil_iff.1 hnone statement hmem
  rw [← hcode, List.filterMap_append, hlocal, Java.filterMap_local?_inference,
    Java.declaredNames_append, Java.declaredNames_inference, List.append_nil]

/-- **When names clash.**  The names that are declared in the main method around the code of a program that
assigns each name once are different from each other if and only if those that the method has of its own
are, and the program declares none of them, neither as a name that it assigns nor as a variable that a
branch needs. -/
theorem nodup_mainNames_iff {settings : Settings} {body : List Node} {output : List Java.Statement}
    (hbody : Node.Body body) (hsingle : SingleAssignment body)
    (h : ((Session.builtin settings).compiler.statements body).result = .ok output) :
    (mainNames settings.graphName output).Nodup ↔
      (ownNames settings body).Nodup ∧ ∀ x ∈ ownNames settings body, x ∉ declarations body := by
  obtain ⟨e, he, rfl⟩ := (result_statements_eq_ok_iff hbody).1 h
  have hdeclared := nodup_declarations_of_emits hbody hsingle he
  have hperm : (mainNames settings.graphName e.output).Perm
      (ownNames settings body ++ declarations body) := by
    rw [mainNames, filterMap_local?_of_emits he, declaredNames_of_emits rfl he]
    exact (List.perm_append_comm.cons _).cons _
  rw [hperm.nodup_iff, List.nodup_append]
  constructor
  · rintro ⟨hown, -, hdisjoint⟩
    exact ⟨hown, fun x hx hmem => hdisjoint x hx x hmem rfl⟩
  · rintro ⟨hown, hdisjoint⟩
    refine ⟨hown, hdeclared, ?_⟩
    rintro x hx _ hmem rfl
    exact hdisjoint x hx hmem

theorem nodup_mainNames_sample :
    ∃ output, ((Session.builtin {}).compiler.statements Node.sample).result = .ok output ∧
      (mainNames "myGraph" output).Nodup ∧
      (ownNames {} Node.sample).Nodup ∧ ∀ x ∈ ownNames {} Node.sample, x ∉ declarations Node.sample := by
  obtain ⟨output, h, -⟩ := Factor.exists_eq_ok_of_toOption_map
    (show ((Session.builtin {}).compiler.statements Node.sample).result.toOption.map List.length
      = some 20 by decide +kernel)
  have hown : (ownNames {} Node.sample).Nodup ∧
      ∀ x ∈ ownNames {} Node.sample, x ∉ declarations Node.sample := by decide
  exact ⟨output, h, (nodup_mainNames_iff Node.body_sample (by decide) h).2 hown, hown⟩

/-- The program that declares every name that the main method has of its own. -/
def clashing : List Node :=
  [.assign "args" (.call "flip" [.const (.int 1)]), .assign "myGraph" (.call "flip" [.const (.int 1)]),
   .assign "belief" (.call "flip" [.const (.int 1)]), .query "belief"]

/-- A program may take each of the method's own names, and is accepted. -/
theorem not_nodup_mainNames_of_own :
    ∃ output, Node.Body clashing ∧ SingleAssignment clashing ∧
      ((Session.builtin {}).compiler.statements clashing).result = .ok output ∧
      mainNames "myGraph" output = ["args", "myGraph", "args", "myGraph", "belief", "belief"] ∧
      ¬ (mainNames "myGraph" output).Nodup := by
  have hflip : Node.Initializer (.call "flip" [.const (.int 1)]) :=
    .call (by decide) (.const _ .nil)
  have hbody : Node.Body clashing :=
    .assign (by decide) hflip (.assign (by decide) hflip
      (.assign (by decide) hflip (.query (by decide) .nil)))
  obtain ⟨output, h, hnames⟩ := Factor.exists_eq_ok_of_toOption_map
    (show ((Session.builtin {}).compiler.statements clashing).result.toOption.map
        (mainNames "myGraph") = some ["args", "myGraph", "args", "myGraph", "belief", "belief"] by
      decide +kernel)
  exact ⟨output, hbody, by decide, h, hnames, hnames ▸ by decide⟩

end Compiler

end TraceGraph
