import TraceGraph.Proofs.Pass

/-!
# What the pass goes through

A `Position` tells where in a body a part stands, at any depth, and `partAt` finds the part: a statement,
or a branch with its value.  `Visits c depth r body p s t` says that the pass over the body from the scope
`r` comes to the part at `p` with the scope `s`, and is through with it at `t`.  Nothing is said about what
comes after that part, so this speaks of programs that are refused in the end, too.

* `Emission.Steady.visits`: what every single step of the pass adds, and what is kept when parts are put
  together, holds of all that was added when the pass is through with a part.
* `Visits.unique`: the pass comes to a part once.
* `exists_visits_of_emits`: the pass over a body that is accepted goes through all of its parts.
* `addsOwn_of_emits`: what it adds is added by the own step of one of them (`OwnStep`).
-/

namespace TraceGraph

namespace Trace

open Compiler (Branch)

/-- A part of a body that is gone through as a whole. -/
inductive Part where
  | statement (node : Node)
  /-- A branch with the value that it gives the merge variable. -/
  | branch (merge : String) (side : Branch) (body : List Node) (value : Node)

/-- A position in a body. -/
inductive Position where
  /-- The first statement. -/
  | first
  /-- A branch of the first statement. -/
  | branch (side : Branch)
  /-- Somewhere in a branch of the first statement. -/
  | within (side : Branch) (position : Position)
  /-- Somewhere after the first statement. -/
  | later (position : Position)
deriving DecidableEq, Repr

/-- The part at a position. -/
def partAt : Position → List Node → Option Part
  | .first, node :: _ => some (.statement node)
  | .branch .consequent, .choice _ merge thenBody thenValue _ _ :: _ =>
    some (.branch merge .consequent thenBody thenValue)
  | .branch .alternate, .choice _ merge _ _ elseBody elseValue :: _ =>
    some (.branch merge .alternate elseBody elseValue)
  | .within .consequent p, .choice _ _ thenBody _ _ _ :: _ => partAt p thenBody
  | .within .alternate p, .choice _ _ _ _ elseBody _ :: _ => partAt p elseBody
  | .later p, _ :: rest => partAt p rest
  | _, _ => none

theorem partAt_nil (p : Position) : partAt p [] = none := by
  cases p with
  | first => rfl
  | later _ => rfl
  | branch side => cases side <;> rfl
  | within side _ => cases side <;> rfl

/-- An assignment has no parts but itself. -/
theorem eq_statement_of_partAt_assign {p : Position} {name : String} {init : Node} {part : Part}
    (h : partAt p [.assign name init] = some part) : part = .statement (.assign name init) := by
  cases p with
  | first => cases h; rfl
  | later p => rw [partAt, partAt_nil] at h; cases h
  | branch side => cases side <;> cases h
  | within side _ => cases side <;> cases h

end Trace

namespace Compiler

open Trace

/-- The scope in which the pass over a program starts. -/
def Scope.start (body : List Node) : Scope := { assigned := namesOfAll body }

section

variable (c : Compiler)

/-- A branch is gone through, and this is the text of its value. -/
def RunsBranch (merge : String) (side : Branch) (body : List Node) (value : Node) (s : Scope)
    (text : String) (t : Scope) : Prop :=
  ∃ m type, Runs (c.visitBranch merge side body) s () m ∧
    Runs (c.branchValue merge side value) m (text, type) t

/-- May the statement stand there, before the others?  A query can only be the last statement of a
program, and in a branch there is neither a query nor evidence. -/
def Admits (node : Node) (rest : List Node) : Depth → Prop
  | .top => queried? node = none ∨ rest = []
  | .inner => isEvidence node = false ∧ queried? node = none

/-- The pass over a body from a scope comes to the part at a position with another scope, and is through
with it at a third. -/
inductive Visits : Depth → Scope → List Node → Position → Scope → Scope → Prop
  | first {depth : Depth} {s t : Scope} {node : Node} {rest : List Node} {result : Option String}
      (hnode : Admits node rest depth) (h : Runs (c.visit node) s result t) :
      Visits depth s (node :: rest) .first s t
  | later {depth : Depth} {r m s t : Scope} {node : Node} {rest : List Node} {result : Option String}
      {p : Position} (hnode : Admits node rest depth) (h : Runs (c.visit node) r result m)
      (hrest : Visits depth m rest p s t) : Visits depth r (node :: rest) (.later p) s t
  | consequent {depth : Depth} {s t : Scope} {test merge text : String}
      {thenBody elseBody rest : List Node} {thenValue elseValue : Node}
      (h : RunsBranch c merge .consequent thenBody thenValue s text t) :
      Visits depth s (.choice (.var test) merge thenBody thenValue elseBody elseValue :: rest)
        (.branch .consequent) s t
  | alternate {depth : Depth} {r s t : Scope} {test merge text text' : String}
      {thenBody elseBody rest : List Node} {thenValue elseValue : Node}
      (hthen : RunsBranch c merge .consequent thenBody thenValue r text s)
      (h : RunsBranch c merge .alternate elseBody elseValue s text' t) :
      Visits depth r (.choice (.var test) merge thenBody thenValue elseBody elseValue :: rest)
        (.branch .alternate) s t
  | withinConsequent {depth : Depth} {r s t : Scope} {test merge : String}
      {thenBody elseBody rest : List Node} {thenValue elseValue : Node} {p : Position}
      (h : Visits .inner r thenBody p s t) :
      Visits depth r (.choice (.var test) merge thenBody thenValue elseBody elseValue :: rest)
        (.within .consequent p) s t
  | withinAlternate {depth : Depth} {r m s t : Scope} {test merge text : String}
      {thenBody elseBody rest : List Node} {thenValue elseValue : Node} {p : Position}
      (hthen : RunsBranch c merge .consequent thenBody thenValue r text m)
      (h : Visits .inner m elseBody p s t) :
      Visits depth r (.choice (.var test) merge thenBody thenValue elseBody elseValue :: rest)
        (.within .alternate p) s t

end

section

variable {c : Compiler} {depth : Depth} {r s t : Scope} {body rest : List Node} {node : Node}
  {p : Position} {e : Emission}

/-! ### Parts and rules -/

/-- A branch is gone through as the rules say. -/
theorem runsBranch_iff {merge text : String} {side : Branch} {value : Node} (hbody : Node.Body body)
    (hvalue : Node.Initializer value) :
    RunsBranch c merge side body value s text t ↔
      ∃ type e e', Emits c s.assigned .inner s.types body e ∧
        Supplies c s.assigned merge side (e.after s.types) value text type e' ∧
        t = s.extend (e ++ e') := by
  constructor
  · rintro ⟨m, type, hrun, hend⟩
    obtain ⟨e, he, rfl⟩ := (branchFollowsRules hbody _ _ _ _ _).1 hrun
    obtain ⟨e', he', rfl⟩ := (runs_branchValue_iff hvalue).1 hend
    exact ⟨type, e, e', he, he', Scope.extend_extend _ _ _⟩
  · rintro ⟨type, e, e', he, he', rfl⟩
    refine ⟨s.extend e, type, (branchFollowsRules hbody _ _ _ _ _).2 ⟨e, he, rfl⟩, ?_⟩
    exact (runs_branchValue_iff hvalue).2 ⟨e', he', (Scope.extend_extend _ _ _).symm⟩

/-- A statement is visited as the rules say, where it may stand. -/
theorem exists_emits_of_admits {result : Option String} (hbody : Node.Body [node])
    (hnode : Admits node rest depth) (h : Runs (c.visit node) s result t) :
    ∃ e, Emits c s.assigned depth s.types [node] e ∧ t = s.extend e := by
  obtain ⟨-, e, he, rfl⟩ := (visitFollowsRules hbody _ _ _).1 h
  cases depth with
  | top => exact ⟨e, he, rfl⟩
  | inner => exact ⟨e, emits_inner_singleton_iff.2 ⟨he, hnode⟩, rfl⟩

/-- The first statement of a body that the rules give something for may stand there, and is visited. -/
theorem admits_of_emits (hbody : Node.Body [node])
    (hquery : queried? node = none ∨ rest = [])
    (h : Emits c s.assigned depth s.types [node] e) :
    Admits node rest depth ∧ Runs (c.visit node) s none (s.extend e) := by
  cases depth with
  | top => exact ⟨hquery, (visitFollowsRules hbody _ _ _).2 ⟨rfl, e, h, rfl⟩⟩
  | inner =>
    obtain ⟨htop, hnode⟩ := emits_inner_singleton_iff.1 h
    exact ⟨hnode, (visitFollowsRules hbody _ _ _).2 ⟨rfl, e, htop, rfl⟩⟩

/-- A statement of a well-formed body is well-formed, at any depth. -/
theorem body_of_partAt (hbody : Node.Body body) (hpart : partAt p body = some (.statement node)) :
    Node.Body [node] := by
  fun_induction partAt p body with
  | case1 => cases hpart; exact hbody.head
  | case2 | case3 | case7 => cases hpart
  | case4 _ _ _ _ _ _ _ _ ih =>
    cases hbody with
    | choice _ _ hthen _ _ _ _ => exact ih hthen hpart
  | case5 _ _ _ _ _ _ _ _ ih =>
    cases hbody with
    | choice _ _ _ _ helse _ _ => exact ih helse hpart
  | case6 _ _ _ ih => exact ih hbody.tail hpart

/-- The pass over a body visits the statement that stands at a position. -/
theorem Visits.exists_runs (h : Visits c depth r body p s t)
    (hpart : partAt p body = some (.statement node)) : ∃ result, Runs (c.visit node) s result t := by
  induction h with
  | first _ hrun => cases hpart; exact ⟨_, hrun⟩
  | consequent => cases hpart
  | alternate => cases hpart
  | later _ _ _ ih => exact ih hpart
  | withinConsequent _ ih => exact ih hpart
  | withinAlternate _ _ ih => exact ih hpart

/-- There is a part wherever the pass comes. -/
theorem Visits.isSome_partAt (h : Visits c depth r body p s t) : (partAt p body).isSome := by
  induction h with
  | first => rfl
  | consequent => rfl
  | alternate => rfl
  | later _ _ _ ih => exact ih
  | withinConsequent _ ih => exact ih
  | withinAlternate _ _ ih => exact ih

/-! ### The pass comes to a part once -/

theorem Runs.unique {α : Type} {step : Step α} {a a' : α} {t' : Scope} (h : Runs step s a t)
    (h' : Runs step s a' t') : a = a' ∧ t = t' := by
  have heq : EStateM.Result.ok a t = EStateM.Result.ok (ε := Error) a' t' := h.symm.trans h'
  cases heq
  exact ⟨rfl, rfl⟩

theorem RunsBranch.unique {merge text text' : String} {side : Branch} {value : Node} {t' : Scope}
    (h : RunsBranch c merge side body value s text t)
    (h' : RunsBranch c merge side body value s text' t') : t = t' := by
  obtain ⟨m, type, hrun, hend⟩ := h
  obtain ⟨m', type', hrun', hend'⟩ := h'
  obtain ⟨-, rfl⟩ := hrun.unique hrun'
  exact (hend.unique hend').2

/-- The pass comes to the part at a position with one scope only, and is through with it at one. -/
theorem Visits.unique {s' t' : Scope} (h : Visits c depth r body p s t)
    (h' : Visits c depth r body p s' t') : s = s' ∧ t = t' := by
  induction h generalizing s' t' with
  | first _ hrun =>
    cases h' with
    | first _ hrun' => exact ⟨rfl, (hrun.unique hrun').2⟩
  | later _ hrun _ ih =>
    cases h' with
    | later _ hrun' hrest' =>
      obtain ⟨-, rfl⟩ := hrun.unique hrun'
      exact ih hrest'
  | consequent hrun =>
    cases h' with
    | consequent hrun' => exact ⟨rfl, hrun.unique hrun'⟩
  | alternate hthen hrun =>
    cases h' with
    | alternate hthen' hrun' =>
      obtain rfl := hthen.unique hthen'
      exact ⟨rfl, hrun.unique hrun'⟩
  | withinConsequent _ ih =>
    cases h' with
    | withinConsequent h' => exact ih h'
  | withinAlternate hthen _ ih =>
    cases h' with
    | withinAlternate hthen' h' =>
      obtain rfl := hthen.unique hthen'
      exact ih h'

/-! ### What is kept along the way -/

/-- A property of emissions that each step of a pass has, and that is kept when steps are put together. -/
structure Emission.Steady (c : Compiler) (P : Emission → Prop) : Prop where
  empty : P {}
  append {a b : Emission} (ha : P a) (hb : P b) : P (a ++ b)
  yields {depth : Depth} {types : List (String × VariableType)} {node : Node} {e : Emission}
    (h : Yields c depth types node e) : P e
  supplies {assigned : List String} {merge text : String} {side : Branch}
    {types : List (String × VariableType)} {value : Node} {type : Option VariableType} {e : Emission}
    (h : Supplies c assigned merge side types value text type e) : P e
  merge (merge : String) (type : Option VariableType) (test alternate consequent : String) :
    P (.merge c merge type test alternate consequent)

/-- What the steps of a pass have, a whole body has. -/
theorem Emission.Steady.emits {P : Emission → Prop} (hP : Emission.Steady c P)
    {assigned : List String} {types : List (String × VariableType)}
    (h : Emits c assigned depth types body e) : P e := by
  induction h with
  | nil => exact hP.empty
  | step _ hnode _ ih => exact hP.append (hP.yields hnode) ih
  | choice _ hthenValue _ helseValue _ ihThen ihElse ihRest =>
    have hthen := hP.append ihThen (hP.supplies hthenValue)
    have hboth := hP.append (hP.append hthen ihElse) (hP.supplies helseValue)
    exact hP.append (hP.append hboth (hP.merge _ _ _ _ _)) ihRest

theorem Emission.Steady.runsBranch {P : Emission → Prop} (hP : Emission.Steady c P)
    {merge text : String} {side : Branch} {value : Node} (hbody : Node.Body body)
    (hvalue : Node.Initializer value) (h : RunsBranch c merge side body value s text t) :
    ∃ e, P e ∧ t = s.extend e := by
  obtain ⟨type, e, e', he, he', rfl⟩ := (runsBranch_iff hbody hvalue).1 h
  exact ⟨e ++ e', hP.append (hP.emits he) (hP.supplies he'), rfl⟩

/-- **What the steps of a pass have holds at every part that it goes through**: of what was added until
it came there, and of what the part adds. -/
theorem Emission.Steady.visits {P : Emission → Prop} (hP : Emission.Steady c P)
    (hbody : Node.Body body) (h : Visits c depth r body p s t) :
    ∃ e e', P e ∧ P e' ∧ s = r.extend e ∧ t = s.extend e' := by
  induction h with
  | first hnode hrun =>
    obtain ⟨e, he, rfl⟩ := exists_emits_of_admits hbody.head hnode hrun
    exact ⟨{}, e, hP.empty, hP.emits he, (Scope.extend_empty _).symm, rfl⟩
  | later hnode hrun _ ih =>
    obtain ⟨e₁, he₁, rfl⟩ := exists_emits_of_admits hbody.head hnode hrun
    obtain ⟨e, e', he, he', rfl, rfl⟩ := ih hbody.tail
    exact ⟨e₁ ++ e, e', hP.append (hP.emits he₁) he, he', Scope.extend_extend _ _ _, rfl⟩
  | consequent hrun =>
    cases hbody with
    | choice _ _ hthen hthenValue _ _ _ =>
      obtain ⟨e, he, rfl⟩ := hP.runsBranch hthen hthenValue hrun
      exact ⟨{}, e, hP.empty, he, (Scope.extend_empty _).symm, rfl⟩
  | alternate hrun hrun' =>
    cases hbody with
    | choice _ _ hthen hthenValue helse helseValue _ =>
      obtain ⟨e, he, rfl⟩ := hP.runsBranch hthen hthenValue hrun
      obtain ⟨e', he', rfl⟩ := hP.runsBranch helse helseValue hrun'
      exact ⟨e, e', he, he', rfl, rfl⟩
  | withinConsequent _ ih =>
    cases hbody with
    | choice _ _ hthen _ _ _ _ => exact ih hthen
  | withinAlternate hrun _ ih =>
    cases hbody with
    | choice _ _ hthen hthenValue helse _ _ =>
      obtain ⟨e₁, he₁, rfl⟩ := hP.runsBranch hthen hthenValue hrun
      obtain ⟨e, e', he, he', rfl, rfl⟩ := ih helse
      exact ⟨e₁ ++ e, e', hP.append he₁ he, he', Scope.extend_extend _ _ _, rfl⟩

/-! ### Accepted programs -/

/-- What a conditional goes through: a branch with its value, the other one with its value, and the merge
variable. -/
inductive PassesChoice (c : Compiler) (r : Scope) (test merge : String) (thenBody : List Node)
    (thenValue : Node) (elseBody : List Node) (elseValue : Node) : Emission → Prop
  | intro {consequent alternate : String} {thenType elseType : Option VariableType}
      {e₁ e₂ e₃ e₄ : Emission}
      (hthen : Emits c r.assigned .inner r.types thenBody e₁)
      (hthenValue : Supplies c r.assigned merge .consequent (r.extend e₁).types thenValue consequent
        thenType e₂)
      (hrunThen : RunsBranch c merge .consequent thenBody thenValue r consequent (r.extend (e₁ ++ e₂)))
      (helse : Emits c r.assigned .inner (r.extend (e₁ ++ e₂)).types elseBody e₃)
      (helseValue : Supplies c r.assigned merge .alternate ((r.extend (e₁ ++ e₂)).extend e₃).types
        elseValue alternate elseType e₄)
      (hrunElse : RunsBranch c merge .alternate elseBody elseValue (r.extend (e₁ ++ e₂)) alternate
        ((r.extend (e₁ ++ e₂)).extend (e₃ ++ e₄))) :
      PassesChoice c r test merge thenBody thenValue elseBody elseValue
        (e₁ ++ e₂ ++ (e₃ ++ e₄) ++ .merge c merge (thenType <|> elseType) test alternate consequent)

theorem passesChoice_of_emits {test merge : String} {thenBody elseBody : List Node}
    {thenValue elseValue : Node}
    (hbody : Node.Body [.choice (.var test) merge thenBody thenValue elseBody elseValue])
    (h : Emits c r.assigned depth r.types
      [.choice (.var test) merge thenBody thenValue elseBody elseValue] e) :
    PassesChoice c r test merge thenBody thenValue elseBody elseValue e := by
  cases hbody with
  | choice _ _ hthen hthenValue helse helseValue _ =>
    cases h with
    | step _ hnode _ => cases hnode
    | @choice _ _ _ _ _ _ _ _ _ consequent alternate thenType elseType e₁ e₂ e₃ e₄ _ he₁ he₂ he₃ he₄
        hnil =>
      cases hnil
      rw [Emission.after_append] at he₄
      rw [Emission.append_empty, Emission.append_assoc (e₁ ++ e₂)]
      exact .intro he₁ he₂ ((runsBranch_iff hthen hthenValue).2 ⟨_, e₁, e₂, he₁, he₂, rfl⟩) he₃ he₄
        ((runsBranch_iff helse helseValue).2 ⟨_, e₃, e₄, he₃, he₄, rfl⟩)

/-- **The pass over an accepted body goes through all of its parts.** -/
theorem exists_visits_of_emits (hbody : Node.Body body)
    (h : Emits c r.assigned depth r.types body e) (hpart : (partAt p body).isSome) :
    ∃ s t e', Visits c depth r body p s t ∧ r.extend e = t.extend e' := by
  fun_induction partAt p body generalizing depth r e with
  | case1 node rest =>
    obtain ⟨hquery, e₁, e₂, he₁, -, rfl⟩ := emits_cons_iff.1 h
    obtain ⟨hnode, hrun⟩ := admits_of_emits hbody.head hquery he₁
    exact ⟨_, _, e₂, .first hnode hrun, (Scope.extend_extend _ _ _).symm⟩
  | case2 test =>
    obtain ⟨-, e₀, e₅, he₀, -, rfl⟩ := emits_cons_iff.1 h
    cases hbody.head
    obtain @⟨_, _, _, _, e₁, e₂, e₃, e₄, -, -, hthen, -, -, -⟩ := passesChoice_of_emits hbody.head he₀
    rw [Emission.append_assoc, Emission.append_assoc, ← Scope.extend_extend]
    exact ⟨_, _, _, .consequent hthen, rfl⟩
  | case3 test =>
    obtain ⟨-, e₀, e₅, he₀, -, rfl⟩ := emits_cons_iff.1 h
    cases hbody.head
    obtain @⟨_, _, _, _, e₁, e₂, e₃, e₄, -, -, hthen, -, -, helse⟩ :=
      passesChoice_of_emits hbody.head he₀
    rw [Emission.append_assoc, ← Scope.extend_extend, ← Scope.extend_extend r (e₁ ++ e₂)]
    exact ⟨_, _, _, .alternate hthen helse, rfl⟩
  | case4 p test merge thenBody thenValue elseBody elseValue rest ih =>
    obtain ⟨-, e₀, e₅, he₀, -, rfl⟩ := emits_cons_iff.1 h
    cases hbody.head with
    | choice _ _ hthenBody _ _ _ _ =>
      obtain @⟨_, _, _, _, e₁, e₂, e₃, e₄, hthen, -, -, -, -, -⟩ :=
        passesChoice_of_emits hbody.head he₀
      obtain ⟨s, t, e', hvisits, heq⟩ := ih hthenBody hthen hpart
      rw [Emission.append_assoc, Emission.append_assoc, Emission.append_assoc, ← Scope.extend_extend,
        heq, Scope.extend_extend]
      exact ⟨s, t, _, .withinConsequent hvisits, rfl⟩
  | case5 p test merge thenBody thenValue elseBody elseValue rest ih =>
    obtain ⟨-, e₀, e₅, he₀, -, rfl⟩ := emits_cons_iff.1 h
    cases hbody.head with
    | choice _ _ _ _ helseBody _ _ =>
      obtain @⟨_, _, _, _, e₁, e₂, e₃, e₄, -, -, hthen, helse, -, -⟩ :=
        passesChoice_of_emits hbody.head he₀
      obtain ⟨s, t, e', hvisits, heq⟩ := ih helseBody (r := r.extend (e₁ ++ e₂)) helse hpart
      rw [Emission.append_assoc, Emission.append_assoc, ← Scope.extend_extend _ (e₁ ++ e₂),
        Emission.append_assoc, ← Scope.extend_extend _ e₃, heq, Scope.extend_extend]
      exact ⟨s, t, _, .withinAlternate hthen hvisits, rfl⟩
  | case6 p node rest ih =>
    obtain ⟨hquery, e₁, e₂, he₁, he₂, rfl⟩ := emits_cons_iff.1 h
    obtain ⟨hnode, hrun⟩ := admits_of_emits hbody.head hquery he₁
    obtain ⟨s, t, e', hvisits, heq⟩ := ih hbody.tail (r := r.extend e₁) he₂ hpart
    refine ⟨s, t, e', .later hnode hrun hvisits, ?_⟩
    rw [← heq, Scope.extend_extend]
  | case7 => cases hpart

/-- What a part adds on its own, by the step with which the pass is through with it: a statement other than
a conditional all of it, a branch the code of its value, and a conditional its merge variable. -/
inductive OwnStep (c : Compiler) (s t : Scope) : Part → Emission → Prop
  | statement {depth : Depth} {node : Node} {e : Emission} (h : Yields c depth s.types node e)
      (ht : t = s.extend e) : OwnStep c s t (.statement node) e
  | value {merge text : String} {side : Branch} {body : List Node} {value : Node}
      {type : Option VariableType} {m : Scope} {e : Emission}
      (hrun : Runs (c.visitBranch merge side body) s () m)
      (h : Supplies c m.assigned merge side m.types value text type e) (ht : t = m.extend e) :
      OwnStep c s t (.branch merge side body value) e
  | merge {test merge alternate consequent : String} {thenBody elseBody : List Node}
      {thenValue elseValue : Node} {type : Option VariableType} {m : Scope}
      (ht : t = m.extend (.merge c merge type test alternate consequent)) :
      OwnStep c s t
        (.statement (.choice (.var test) merge thenBody thenValue elseBody elseValue))
        (.merge c merge type test alternate consequent)

/-- What is added last when the pass is through with a part is what the part adds on its own. -/
theorem OwnStep.exists_extend {part : Part} (h : OwnStep c s t part e) : ∃ m : Scope, t = m.extend e := by
  cases h with
  | statement _ ht => exact ⟨s, ht⟩
  | value _ _ ht => exact ⟨_, ht⟩
  | merge ht => exact ⟨_, ht⟩

/-- A statement that may stand where it does, and that is visited, has its own step. -/
theorem exists_ownStep_of_runs {result : Option String} (hbody : Node.Body [node])
    (hnode : Admits node rest depth) (h : Runs (c.visit node) s result t) :
    ∃ e, OwnStep c s t (.statement node) e := by
  obtain ⟨e, he, rfl⟩ := exists_emits_of_admits hbody hnode h
  cases hbody with
  | assign => exact ⟨e, .statement ((emits_singleton_iff (by simp)).1 he) rfl⟩
  | evidence => exact ⟨e, .statement ((emits_singleton_iff (by simp)).1 he) rfl⟩
  | query => exact ⟨e, .statement ((emits_singleton_iff (by simp)).1 he) rfl⟩
  | choice htest hmerge hthen hthenValue helse helseValue _ =>
    obtain ⟨⟩ :=
      passesChoice_of_emits (.choice htest hmerge hthen hthenValue helse helseValue .nil) he
    exact ⟨_, .merge (Scope.extend_extend _ _ _).symm⟩

/-- A branch that is gone through has its own step, too. -/
theorem RunsBranch.exists_ownStep {merge text : String} {side : Branch} {value : Node}
    (hvalue : Node.Initializer value) (h : RunsBranch c merge side body value s text t) :
    ∃ e, OwnStep c s t (.branch merge side body value) e := by
  obtain ⟨m, type, hrun, hend⟩ := h
  obtain ⟨e, he, rfl⟩ := (runs_branchValue_iff hvalue).1 hend
  exact ⟨e, .value hrun he rfl⟩

/-- **Wherever the pass comes, there is an own step.** -/
theorem Visits.exists_ownStep {part : Part} (h : Visits c depth r body p s t)
    (hbody : Node.Body body) (hpart : partAt p body = some part) : ∃ e, OwnStep c s t part e := by
  induction h with
  | first hnode hrun =>
    cases hpart
    exact exists_ownStep_of_runs hbody.head hnode hrun
  | later _ _ _ ih => exact ih hbody.tail hpart
  | consequent hrun =>
    cases hpart
    cases hbody with
    | choice _ _ _ hthenValue _ _ _ => exact hrun.exists_ownStep hthenValue
  | alternate _ hrun =>
    cases hpart
    cases hbody with
    | choice _ _ _ _ _ helseValue _ => exact hrun.exists_ownStep helseValue
  | withinConsequent _ ih =>
    cases hbody with
    | choice _ _ hthen _ _ _ _ => exact ih hthen hpart
  | withinAlternate _ _ ih =>
    cases hbody with
    | choice _ _ _ _ helse _ _ => exact ih helse hpart

/-- The pass over a body goes through a part whose own step adds something that has the property. -/
def AddsOwn (c : Compiler) (depth : Depth) (r : Scope) (body : List Node) (Q : Emission → Prop) : Prop :=
  ∃ p part s t e, Visits c depth r body p s t ∧ partAt p body = some part ∧ OwnStep c s t part e ∧ Q e

/-- What the rest of a body adds, the body adds. -/
theorem AddsOwn.later {Q : Emission → Prop} {result : Option String} {m : Scope}
    (hnode : Admits node rest depth) (hrun : Runs (c.visit node) r result m)
    (h : AddsOwn c depth m rest Q) : AddsOwn c depth r (node :: rest) Q := by
  obtain ⟨p, part, s, t, e, hvisits, hpart, hown, hQ⟩ := h
  exact ⟨.later p, part, s, t, e, .later hnode hrun hvisits, hpart, hown, hQ⟩

section

variable {Q : Emission → Prop} (hempty : ¬ Q {}) (happend : ∀ a b, Q (a ++ b) → Q a ∨ Q b)

include happend

/-- One statement and the rest, if the statement is no conditional. -/
theorem addsOwn_cons (hbody : Node.Body (node :: rest))
    (hchoice : ∀ test merge thenBody thenValue elseBody elseValue,
      node ≠ .choice test merge thenBody thenValue elseBody elseValue)
    (ih : ∀ {r : Scope} {e : Emission}, Emits c r.assigned depth r.types rest e → Q e →
      AddsOwn c depth r rest Q)
    (h : Emits c r.assigned depth r.types (node :: rest) e) (hQ : Q e) :
    AddsOwn c depth r (node :: rest) Q := by
  obtain ⟨hquery, e₁, e₂, he₁, he₂, rfl⟩ := emits_cons_iff.1 h
  obtain ⟨hnode, hrun⟩ := admits_of_emits hbody.head hquery he₁
  rcases happend _ _ hQ with hQ | hQ
  · have hyields := (emits_singleton_iff hchoice).1 he₁
    exact ⟨.first, _, _, _, e₁, .first hnode hrun, rfl, .statement hyields rfl, hQ⟩
  · exact .later hnode hrun (ih (r := r.extend e₁) he₂ hQ)

include hempty

/-- **All that the pass over a body adds is added by the own step of some part.** -/
theorem addsOwn_of_emits (hbody : Node.Body body)
    (h : Emits c r.assigned depth r.types body e) (hQ : Q e) : AddsOwn c depth r body Q := by
  induction hbody generalizing depth r e with
  | nil =>
    cases h
    exact absurd hQ hempty
  | assign hname hinit hrest ih =>
    exact addsOwn_cons happend (.assign hname hinit hrest) (by simp) ih h hQ
  | evidence kind hname hrest ih =>
    exact addsOwn_cons happend (.evidence kind hname hrest) (by simp) ih h hQ
  | query hname hrest ih => exact addsOwn_cons happend (.query hname hrest) (by simp) ih h hQ
  | @choice test merge thenBody elseBody rest thenValue elseValue htest hmerge hthen hthenValue helse
      helseValue hrest ihThen ihElse ihRest =>
    obtain ⟨hquery, e₀, e₅, he₀, he₅, rfl⟩ := emits_cons_iff.1 h
    obtain ⟨hnode, hrun⟩ := admits_of_emits
      (.choice htest hmerge hthen hthenValue helse helseValue .nil) hquery he₀
    rcases happend _ _ hQ with hQ | hQ
    case inr => exact .later hnode hrun (ihRest (r := r.extend e₀) he₅ hQ)
    obtain @⟨_, _, _, _, e₁, e₂, e₃, e₄, he₁, he₂, hrunThen, he₃, he₄, hrunElse⟩ :=
      passesChoice_of_emits (.choice htest hmerge hthen hthenValue helse helseValue .nil) he₀
    rcases happend _ _ hQ with hQ | hQ
    case inr =>
      exact ⟨.first, _, _, _, _, .first hnode hrun, rfl, .merge (Scope.extend_extend _ _ _).symm, hQ⟩
    rcases happend _ _ hQ with hQ | hQ
    · rcases happend _ _ hQ with hQ | hQ
      · obtain ⟨p, part, s, t, e, hvisits, hpart, hown, hQ⟩ := ihThen he₁ hQ
        exact ⟨.within .consequent p, part, s, t, e, .withinConsequent hvisits, hpart, hown, hQ⟩
      · have hbranch := (branchFollowsRules hthen merge .consequent r () _).2 ⟨e₁, he₁, rfl⟩
        exact ⟨.branch .consequent, _, _, _, e₂, .consequent hrunThen, rfl,
          .value hbranch he₂ (Scope.extend_extend _ _ _).symm, hQ⟩
    · rcases happend _ _ hQ with hQ | hQ
      · obtain ⟨p, part, s, t, e, hvisits, hpart, hown, hQ⟩ := ihElse (r := r.extend (e₁ ++ e₂)) he₃ hQ
        exact ⟨.within .alternate p, part, s, t, e, .withinAlternate hrunThen hvisits, hpart, hown, hQ⟩
      · have hbranch := (branchFollowsRules helse merge .alternate (r.extend (e₁ ++ e₂)) () _).2
          ⟨e₃, he₃, rfl⟩
        exact ⟨.branch .alternate, _, _, _, e₄, .alternate hrunThen hrunElse, rfl,
          .value hbranch he₄ (Scope.extend_extend _ _ _).symm, hQ⟩

end

/-- An accepted program has the output and the notices that the rules give, and a notice at the end. -/
theorem statements_eq_of_emits (hbody : Node.Body body)
    (h : Emits c (namesOfAll body) .top [] body e) :
    c.statements body =
      { result := .ok e.output, notices := e.notices ++ [.compiled body.length e.output.length] } := by
  have hrun : Runs (c.visit (.program body)) {} none ((Scope.start body).extend e) := by
    rw [visit, enter, runs_bind_iff]
    refine ⟨(), _, runs_modify_iff.2 rfl, runs_bind_iff.2 ⟨(), _, ?_, runs_pure_iff.2 ⟨rfl, rfl⟩⟩⟩
    exact (runs_visitBody_iff hbody).2 ⟨e, h, rfl⟩
  rw [statements, show (c.visit (.program body)).run {} = .ok none _ from hrun]
  rfl

/-- **The pass over an accepted program goes through all of its parts**, and what was emitted and told by
then comes first in what the program becomes. -/
theorem exists_visits_of_accepted (hbody : Node.Body body) {output : List Java.Statement}
    (h : (c.statements body).result = .ok output) (hpart : (partAt p body).isSome) :
    ∃ s t, Visits c .top (.start body) body p s t ∧ t.output <+: output ∧
      t.notices <+: (c.statements body).notices := by
  obtain ⟨e, he, rfl⟩ := (result_statements_eq_ok_iff hbody).1 h
  obtain ⟨s, t, e', hvisits, heq⟩ := exists_visits_of_emits (r := .start body) hbody he hpart
  refine ⟨s, t, hvisits, ⟨e'.output, ?_⟩, ?_⟩
  · exact (congrArg Scope.output heq).symm
  · rw [statements_eq_of_emits hbody he]
    have hnotices : e.notices = t.notices ++ e'.notices := congrArg Scope.notices heq
    exact ⟨e'.notices ++ [.compiled body.length e.output.length], by simp [hnotices]⟩

/-- What was emitted and told when the pass is through with a part stays. -/
theorem Visits.isPrefix_of_accepted (h : Visits c .top (.start body) body p s t)
    (hbody : Node.Body body) {output : List Java.Statement}
    (haccepted : (c.statements body).result = .ok output) :
    t.output <+: output ∧ t.notices <+: (c.statements body).notices := by
  obtain ⟨s', t', h', hstays⟩ := exists_visits_of_accepted hbody haccepted h.isSome_partAt
  obtain ⟨-, rfl⟩ := h.unique h'
  exact hstays

end

end Compiler

end TraceGraph
