import Mathlib.Data.List.Basic
import Mathlib.Data.Option.Basic
import TraceGraph.Compile
import TraceGraph.Proofs.Grammar

/-!
# Going through a program

`occurrences` lists the statements of a body at every depth, each with the place where it stands; a
conditional comes after what is in its branches, as its merge variable does in the generated code.  The
names that a program assigns, the variables that its branches need for the values of calls and the
names that its code declares are read off that list.

`scopeAfter` goes through a body the way a reader does, with the names that may be used so far.  Names
from inside a branch may be used after it (`Visibility.textual`) or not (`Visibility.lexical`).
-/

namespace TraceGraph.Trace

open Compiler (Branch isEvidence)

/-- How deep a list of statements stands: it is the program's own, or that of a branch. -/
inductive Depth where
  | top
  | inner
deriving DecidableEq, Repr

/-- Where a statement stands: within a list of statements, or at the end of a branch, where it gives
the merge variable its value. -/
inductive Place where
  | within (depth : Depth)
  | last (branch : Branch)
deriving DecidableEq, Repr

/-! ### The statements at every depth -/

mutual

/-- A statement with those inside it. -/
def occurrencesIn (depth : Depth) : Node → List (Place × Node)
  | .choice test merge thenBody thenValue elseBody elseValue =>
    occurrences .inner thenBody ++ (.last .consequent, .assign merge thenValue) ::
      (occurrences .inner elseBody ++
        [(.last .alternate, .assign merge elseValue),
         (.within depth, .choice test merge thenBody thenValue elseBody elseValue)])
  | node => [(.within depth, node)]

/-- The statements of a body, at every depth. -/
def occurrences (depth : Depth) : List Node → List (Place × Node)
  | [] => []
  | node :: rest => occurrencesIn depth node ++ occurrences depth rest

end

/-- The name that a statement assigns.  A merge variable is assigned by its conditional, not by the ends
of the branches. -/
def assigned? : Place × Node → Option String
  | (.within _, .assign name _) => some name
  | (.within _, .choice _ merge _ _ _ _) => some merge
  | _ => none

/-- The variable that a branch needs of its own, for the value of a call. -/
def local? : Place × Node → Option String
  | (.last branch, .assign merge (.call callee _)) =>
    if (EvidenceKind.ofName? callee).isSome then none else some (branch.variableName merge)
  | _ => none

/-- The name that the code of a statement declares.  Evidence declares none. -/
def declared? (occurrence : Place × Node) : Option String :=
  if isEvidence occurrence.2 then none else (assigned? occurrence).or (local? occurrence)

/-- The names that a body assigns, each as often as it does. -/
def assignedNames (body : List Node) : List String := (occurrences .top body).filterMap assigned?

/-- The variables that the branches of a body need of their own. -/
def locals (body : List Node) : List String := (occurrences .top body).filterMap local?

/-- The names that the code of a body declares, in its order. -/
def declarations (body : List Node) : List String := (occurrences .top body).filterMap declared?

/-- Each name is assigned at most once. -/
def SingleAssignment (body : List Node) : Prop := (assignedNames body).Nodup

instance (body : List Node) : Decidable (SingleAssignment body) :=
  inferInstanceAs (Decidable (assignedNames body).Nodup)

/-! ### Statement by statement -/

section

variable (depth : Depth) (name test merge : String) (init thenValue elseValue : Node)
  (kind : EvidenceKind) (thenBody elseBody rest : List Node)

@[simp] theorem occurrences_nil : occurrences depth [] = [] := rfl

@[simp] theorem occurrences_assign :
    occurrences depth (.assign name init :: rest) =
      (.within depth, .assign name init) :: occurrences depth rest := rfl

@[simp] theorem occurrences_evidence :
    occurrences depth (.evidence kind name :: rest) =
      (.within depth, .evidence kind name) :: occurrences depth rest := rfl

@[simp] theorem occurrences_query :
    occurrences depth (.query name :: rest) =
      (.within depth, .query name) :: occurrences depth rest := rfl

@[simp] theorem occurrences_choice :
    occurrences depth (.choice (.var test) merge thenBody thenValue elseBody elseValue :: rest) =
      occurrences .inner thenBody ++ (.last .consequent, .assign merge thenValue) ::
        (occurrences .inner elseBody ++ (.last .alternate, .assign merge elseValue) ::
          (.within depth, .choice (.var test) merge thenBody thenValue elseBody elseValue) ::
            occurrences depth rest) := by
  simp [occurrences, occurrencesIn]

end

theorem occurrences_cons (depth : Depth) (node : Node) (rest : List Node) :
    occurrences depth (node :: rest) = occurrences depth [node] ++ occurrences depth rest := by
  simp [occurrences]

/-- What is read off the statements of a body does not depend on its depth, if it does not for a single
statement. -/
theorem flatMap_occurrences {α : Type} {f : Place × Node → List α}
    (hf : ∀ node, f (.within .inner, node) = f (.within .top, node)) (depth : Depth) :
    ∀ body : List Node, (occurrences depth body).flatMap f = (occurrences .top body).flatMap f := by
  intro body
  cases depth with
  | top => rfl
  | inner =>
    induction body with
    | nil => rfl
    | cons node rest ih =>
      have hnode : (occurrencesIn .inner node).flatMap f = (occurrencesIn .top node).flatMap f := by
        cases node <;> simp [occurrencesIn, hf]
      simp only [occurrences, List.flatMap_append, hnode, ih]

theorem filterMap_occurrences {α : Type} {f : Place × Node → Option α}
    (hf : ∀ node, f (.within .inner, node) = f (.within .top, node)) (depth : Depth)
    (body : List Node) :
    (occurrences depth body).filterMap f = (occurrences .top body).filterMap f := by
  simp only [List.filterMap_eq_flatMap_toList]
  exact flatMap_occurrences (fun node => congrArg Option.toList (hf node)) depth body

/-! ### The names of a program -/

section

variable (name test merge : String) (init thenValue elseValue : Node) (kind : EvidenceKind)
  (thenBody elseBody rest : List Node)

@[simp] theorem assignedNames_nil : assignedNames [] = [] := rfl

@[simp] theorem assignedNames_assign :
    assignedNames (.assign name init :: rest) = name :: assignedNames rest := rfl

@[simp] theorem assignedNames_evidence :
    assignedNames (.evidence kind name :: rest) = assignedNames rest := rfl

@[simp] theorem assignedNames_query : assignedNames (.query name :: rest) = assignedNames rest := rfl

@[simp] theorem assignedNames_choice :
    assignedNames (.choice (.var test) merge thenBody thenValue elseBody elseValue :: rest) =
      assignedNames thenBody ++ (assignedNames elseBody ++ merge :: assignedNames rest) := by
  have hdepth := filterMap_occurrences (f := assigned?) (fun node => by cases node <;> rfl) .inner
  simp [assignedNames, assigned?, List.filterMap_cons, hdepth]

@[simp] theorem locals_nil : locals [] = [] := rfl

@[simp] theorem locals_assign : locals (.assign name init :: rest) = locals rest := rfl

@[simp] theorem locals_evidence : locals (.evidence kind name :: rest) = locals rest := rfl

@[simp] theorem locals_query : locals (.query name :: rest) = locals rest := rfl

@[simp] theorem locals_choice :
    locals (.choice (.var test) merge thenBody thenValue elseBody elseValue :: rest) =
      locals thenBody ++ ((local? (.last .consequent, .assign merge thenValue)).toList ++
        (locals elseBody ++ ((local? (.last .alternate, .assign merge elseValue)).toList ++
          locals rest))) := by
  have hdepth := filterMap_occurrences (f := local?) (fun node => by cases node <;> rfl) .inner
  simp only [locals, occurrences_choice, List.filterMap_append, List.filterMap_cons, hdepth]
  cases local? (.last .consequent, .assign merge thenValue) <;>
    cases local? (.last .alternate, .assign merge elseValue) <;> rfl

@[simp] theorem declarations_nil : declarations [] = [] := rfl

theorem declarations_assign (h : isEvidence (.assign name init) = false) :
    declarations (.assign name init :: rest) = name :: declarations rest := by
  simp [declarations, declared?, assigned?, h]

theorem declarations_assign_of_isEvidence (h : isEvidence (.assign name init) = true) :
    declarations (.assign name init :: rest) = declarations rest := by
  simp [declarations, declared?, h]

@[simp] theorem declarations_evidence :
    declarations (.evidence kind name :: rest) = declarations rest := rfl

@[simp] theorem declarations_query : declarations (.query name :: rest) = declarations rest := rfl

/-- At the end of a branch only a local is declared. -/
theorem declared?_last (branch : Branch) (value : Node) :
    declared? (.last branch, .assign merge value) = local? (.last branch, .assign merge value) := by
  cases value with
  | call callee args =>
    cases h : (EvidenceKind.ofName? callee).isSome <;>
      simp [declared?, assigned?, local?, isEvidence, h]
  | _ => rfl

@[simp] theorem declarations_choice :
    declarations (.choice (.var test) merge thenBody thenValue elseBody elseValue :: rest) =
      declarations thenBody ++ ((local? (.last .consequent, .assign merge thenValue)).toList ++
        (declarations elseBody ++ ((local? (.last .alternate, .assign merge elseValue)).toList ++
          merge :: declarations rest))) := by
  have hdepth := filterMap_occurrences (f := declared?)
    (fun node => by cases node <;> rfl) .inner
  have hmerge : declared? (.within .top,
      .choice (.var test) merge thenBody thenValue elseBody elseValue) = some merge := rfl
  simp only [declarations, occurrences_choice, List.filterMap_append, List.filterMap_cons, hdepth,
    hmerge, declared?_last]
  cases local? (.last .consequent, .assign merge thenValue) <;>
    cases local? (.last .alternate, .assign merge elseValue) <;> rfl

theorem locals_cons (node : Node) : locals (node :: rest) = locals [node] ++ locals rest := by
  rw [locals, occurrences_cons, List.filterMap_append]
  rfl

theorem declarations_cons (node : Node) :
    declarations (node :: rest) = declarations [node] ++ declarations rest := by
  rw [declarations, occurrences_cons, List.filterMap_append]
  rfl

end

/-- The names that a pass takes note of are the assigned ones. -/
theorem mem_namesOfAll_iff {body : List Node} (hbody : Node.Body body) (x : String) :
    x ∈ Compiler.namesOfAll body ↔ x ∈ assignedNames body := by
  induction hbody with
  | nil => rfl
  | assign _ _ _ ih => simp [Compiler.namesOfAll, Compiler.namesOf, ih]
  | evidence kind _ _ ih => simpa [Compiler.namesOfAll, Compiler.namesOf] using ih
  | query _ _ ih => simpa [Compiler.namesOfAll, Compiler.namesOf] using ih
  | choice _ _ _ _ _ _ _ ihThen ihElse ihRest =>
    simp only [Compiler.namesOfAll, Compiler.namesOf, assignedNames_choice, List.mem_append,
      List.mem_cons, ihThen, ihElse, ihRest]
    grind

theorem mem_filterMap_or {α β : Type} {f g : α → Option β} {l : List α} {x : β}
    (h : x ∈ l.filterMap fun a => (f a).or (g a)) : x ∈ l.filterMap f ∨ x ∈ l.filterMap g := by
  obtain ⟨a, ha, hor⟩ := List.mem_filterMap.1 h
  rcases Option.or_eq_some_iff.1 hor with hf | ⟨-, hg⟩
  · exact .inl (List.mem_filterMap.2 ⟨a, ha, hf⟩)
  · exact .inr (List.mem_filterMap.2 ⟨a, ha, hg⟩)

theorem nodup_filterMap_or {α β : Type} {f g : α → Option β} :
    ∀ l : List α, (l.filterMap f).Nodup → (l.filterMap g).Nodup →
      (∀ x ∈ l.filterMap g, x ∉ l.filterMap f) →
      (l.filterMap fun a => (f a).or (g a)).Nodup := by
  intro l
  induction l with
  | nil => intro _ _ _; exact List.nodup_nil
  | cons a rest ih =>
    intro hf hg hdisjoint
    have hmem := fun x => mem_filterMap_or (f := f) (g := g) (l := rest) (x := x)
    cases hfa : f a <;> cases hga : g a <;>
      simp only [List.filterMap_cons, hfa, hga, Option.or, List.nodup_cons, List.mem_cons] at *
    · exact ih hf hg hdisjoint
    all_goals grind

/-- Evidence apart, the declared names are the assigned ones and the locals. -/
theorem declarations_sublist (body : List Node) : (declarations body).Sublist
    ((occurrences .top body).filterMap fun o => (assigned? o).or (local? o)) := by
  have heq : declarations body = ((occurrences .top body).filter fun o => !isEvidence o.2).filterMap
      fun o => (assigned? o).or (local? o) := by
    rw [List.filterMap_filter, declarations]
    refine congrArg (List.filterMap · _) (funext fun o => ?_)
    cases h : isEvidence o.2 <;> simp [declared?, h]
  rw [heq]
  exact List.Sublist.filterMap _ List.filter_sublist

/-- A declared name is an assigned one or a local. -/
theorem mem_or_mem_of_mem_declarations {body : List Node} {x : String}
    (h : x ∈ declarations body) : x ∈ assignedNames body ∨ x ∈ locals body :=
  mem_filterMap_or ((declarations_sublist body).subset h)

/-- **Assigned names and locals that do not clash are declared once.** -/
theorem nodup_declarations {body : List Node} (hassigned : SingleAssignment body)
    (hlocals : (locals body).Nodup) (hdisjoint : ∀ x ∈ locals body, x ∉ assignedNames body) :
    (declarations body).Nodup := by
  have hor := nodup_filterMap_or (occurrences .top body) hassigned hlocals hdisjoint
  exact hor.sublist (declarations_sublist body)

/-! ### What a program reads -/

/-- The arguments that reach a primitive: all of them, or those that the dispatcher hands on. -/
def handedOn (settings : Settings) (callee : String) (args : List Node) : List Node :=
  match Factor.unwrap settings callee args with
  | .ok (_, args) => args
  | .error _ => []

/-- The variables among some arguments. -/
def variableNames (args : List Node) : List String :=
  args.filterMap fun
    | .var name => some name
    | _ => none

theorem mem_variableNames_cons {arg : Node} {rest : List Node} {x : String}
    (h : x ∈ variableNames rest) : x ∈ variableNames (arg :: rest) := by
  obtain ⟨node, hnode, hx⟩ := List.mem_filterMap.1 h
  exact List.mem_filterMap.2 ⟨node, List.mem_cons_of_mem _ hnode, hx⟩

/-- The variables that an initializer or a test reads. -/
def reads (settings : Settings) : Node → List String
  | .call callee args =>
    if (EvidenceKind.ofName? callee).isSome then variableNames args
    else variableNames (handedOn settings callee args)
  | .var name => [name]
  | _ => []

@[simp] theorem reads_var (settings : Settings) (name : String) :
    reads settings (.var name) = [name] := rfl

theorem reads_call {settings : Settings} {callee : String} {args : List Node}
    (hkind : EvidenceKind.ofName? callee = none) :
    reads settings (.call callee args) = variableNames (handedOn settings callee args) := by
  simp [reads, hkind]

/-- The text of a literal that is the value of a branch.  A Boolean becomes a bit. -/
def branchText : Literal → Except Error String
  | .bool b => .ok (if b then "1" else "0")
  | value => value.java

/-- The texts that stand for themselves in the code of a statement: those of arguments that are no
variables, and that of a literal at the end of a branch. -/
def constantTextsOf (settings : Settings) : Place × Node → List String
  | (_, .assign _ (.call callee args)) =>
    (handedOn settings callee args).filterMap fun
      | .var _ => none
      | arg => arg.java.toOption
  | (.last _, .assign _ (.const value)) => (branchText value).toOption.toList
  | _ => []

theorem mem_constantTextsOf_call {settings : Settings} {place : Place} {name callee text : String}
    {args : List Node} {arg : Node} (harg : arg ∈ handedOn settings callee args)
    (hconstant : ∀ x, arg ≠ .var x) (htext : arg.java = .ok text) :
    text ∈ constantTextsOf settings (place, .assign name (.call callee args)) := by
  rw [constantTextsOf, List.mem_filterMap]
  refine ⟨arg, harg, ?_⟩
  cases arg with
  | var x => exact absurd rfl (hconstant x)
  | _ => simp [htext, Except.toOption]

/-- The texts that stand for themselves in the code of a body. -/
def constantTexts (settings : Settings) (body : List Node) : List String :=
  (occurrences .top body).flatMap (constantTextsOf settings)

theorem constantTexts_cons (settings : Settings) (node : Node) (rest : List Node) :
    constantTexts settings (node :: rest) =
      constantTexts settings [node] ++ constantTexts settings rest := by
  rw [constantTexts, occurrences_cons, List.flatMap_append]
  rfl

@[simp] theorem constantTexts_choice (settings : Settings) (test merge : String)
    (thenBody elseBody rest : List Node) (thenValue elseValue : Node) :
    constantTexts settings
        (.choice (.var test) merge thenBody thenValue elseBody elseValue :: rest) =
      constantTexts settings thenBody ++
        (constantTextsOf settings (.last .consequent, .assign merge thenValue) ++
          (constantTexts settings elseBody ++
            (constantTextsOf settings (.last .alternate, .assign merge elseValue) ++
              constantTexts settings rest))) := by
  have hdepth := flatMap_occurrences (f := constantTextsOf settings)
    (fun node => by
      cases node with
      | assign name init => cases init <;> rfl
      | _ => rfl) .inner
  have hchoice : constantTextsOf settings (.within .top,
      .choice (.var test) merge thenBody thenValue elseBody elseValue) = [] := rfl
  simp only [constantTexts, occurrences_choice, List.flatMap_append, List.flatMap_cons, hdepth,
    hchoice, List.nil_append]

/-! ### Scopes -/

/-- May a name from inside a branch be used after the branch? -/
inductive Visibility where
  /-- It may, everywhere below. -/
  | textual
  /-- It may not. -/
  | lexical
deriving DecidableEq, Repr

/-- The names that may be used after a branch, from those before it and those at its end. -/
def Visibility.leave (outer inner : List String) : Visibility → List String
  | .textual => inner
  | .lexical => outer

mutual

/-- The names that may be used after a statement, if it uses only names that may be used before. -/
def scopeAfterNode (settings : Settings) (visibility : Visibility) :
    Node → List String → Option (List String)
  | .assign name init, names =>
    if ∀ x ∈ reads settings init, x ∈ names then
      some (if isEvidence (.assign name init) then names else name :: names)
    else none
  | .evidence _ name, names | .query name, names => if name ∈ names then some names else none
  | .choice test merge thenBody thenValue elseBody elseValue, names => do
    guard (∀ x ∈ reads settings test, x ∈ names)
    let inThen ← scopeAfter settings visibility thenBody names
    guard (∀ x ∈ reads settings thenValue, x ∈ inThen)
    let between := visibility.leave names inThen
    let inElse ← scopeAfter settings visibility elseBody between
    guard (∀ x ∈ reads settings elseValue, x ∈ inElse)
    return merge :: visibility.leave between inElse
  | _, _ => none

/-- The names that may be used after a body, if it uses only names that may be used where it does. -/
def scopeAfter (settings : Settings) (visibility : Visibility) :
    List Node → List String → Option (List String)
  | [], names => some names
  | node :: rest, names =>
    (scopeAfterNode settings visibility node names).bind (scopeAfter settings visibility rest)

end

section

variable {settings : Settings} {visibility : Visibility} {names out : List String}

theorem scopeAfter_cons_eq_some_iff {node : Node} {rest : List Node} :
    scopeAfter settings visibility (node :: rest) names = some out ↔
      ∃ mid, scopeAfterNode settings visibility node names = some mid ∧
        scopeAfter settings visibility rest mid = some out := by
  simp [scopeAfter, Option.bind_eq_some_iff]

theorem scopeAfterNode_assign_eq_some_iff {name : String} {init : Node} :
    scopeAfterNode settings visibility (.assign name init) names = some out ↔
      (∀ x ∈ reads settings init, x ∈ names) ∧
        out = if isEvidence (.assign name init) then names else name :: names := by
  by_cases h : ∀ x ∈ reads settings init, x ∈ names
  · simp only [scopeAfterNode, if_pos h, Option.some.injEq]
    exact ⟨fun heq => ⟨h, heq.symm⟩, fun heq => heq.2.symm⟩
  · simp [scopeAfterNode, h]

theorem scopeAfterNode_evidence_eq_some_iff {kind : EvidenceKind} {name : String} :
    scopeAfterNode settings visibility (.evidence kind name) names = some out ↔
      name ∈ names ∧ out = names := by
  simp [scopeAfterNode, @eq_comm _ out]

theorem scopeAfterNode_query_eq_some_iff {name : String} :
    scopeAfterNode settings visibility (.query name) names = some out ↔
      name ∈ names ∧ out = names := by
  simp [scopeAfterNode, @eq_comm _ out]

theorem scopeAfterNode_choice_eq_some_iff {test merge : String} {thenBody elseBody : List Node}
    {thenValue elseValue : Node} :
    scopeAfterNode settings visibility
        (.choice (.var test) merge thenBody thenValue elseBody elseValue) names = some out ↔
      test ∈ names ∧
        ∃ inThen, scopeAfter settings visibility thenBody names = some inThen ∧
          (∀ x ∈ reads settings thenValue, x ∈ inThen) ∧
        ∃ inElse, scopeAfter settings visibility elseBody (visibility.leave names inThen)
            = some inElse ∧
          (∀ x ∈ reads settings elseValue, x ∈ inElse) ∧
          out = merge :: visibility.leave (visibility.leave names inThen) inElse := by
  simp only [scopeAfterNode, Option.bind_eq_bind, Option.bind_eq_some_iff, Option.guard_eq_some',
    exists_const, reads_var, List.mem_singleton, forall_eq, Option.pure_def, Option.some.injEq,
    @eq_comm _ _ out]

/-- An assignment adds what it declares to the scope. -/
theorem mem_of_scopeAfterNode_assign {name x : String} {init : Node}
    (h : scopeAfterNode settings visibility (.assign name init) names = some out) (hx : x ∈ out) :
    x ∈ names ∨ x ∈ declarations [.assign name init] := by
  obtain ⟨-, rfl⟩ := scopeAfterNode_assign_eq_some_iff.1 h
  cases hevidence : isEvidence (.assign name init) with
  | true => exact .inl (by simpa [hevidence] using hx)
  | false =>
    rw [hevidence, if_neg Bool.false_ne_true, List.mem_cons] at hx
    rw [declarations_assign _ _ _ hevidence]
    rcases hx with rfl | hx
    · exact .inr List.mem_cons_self
    · exact .inl hx

theorem Visibility.mem_or_mem_of_mem_leave {outer inner : List String} {x : String}
    (h : x ∈ visibility.leave outer inner) : x ∈ outer ∨ x ∈ inner := by
  cases visibility with
  | textual => exact .inr h
  | lexical => exact .inl h

end

/-- A program reads only names that it assigned before and that may be used there. -/
def ReadsInScope (settings : Settings) (visibility : Visibility) (body : List Node) : Prop :=
  (scopeAfter settings visibility body []).isSome

instance (settings : Settings) (visibility : Visibility) (body : List Node) :
    Decidable (ReadsInScope settings visibility body) :=
  inferInstanceAs (Decidable ((scopeAfter settings visibility body []).isSome = true))

end TraceGraph.Trace
