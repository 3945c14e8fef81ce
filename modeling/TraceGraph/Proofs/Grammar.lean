import TraceGraph.Trace.Node

/-!
# Well-formed programs

The grammar that a strict reading checks (`Trace/Reading.lean`), as predicates on lists of nodes: what
the arguments of a call may be, what a variable may be assigned, and what a body is made of.  The
statements of a program and those of a branch obey the same rules, so there is one predicate for both;
induction on it goes through a body statement by statement and into the branches of its conditionals.
-/

namespace TraceGraph.Node

/-- Well-formed arguments of a call, or elements of an array. -/
inductive Arguments : List Node → Prop
  | nil : Arguments []
  | var {name : String} {rest : List Node} (hname : name ≠ "") (hrest : Arguments rest) :
      Arguments (.var name :: rest)
  | const (value : Literal) {rest : List Node} (hrest : Arguments rest) :
      Arguments (.const value :: rest)
  | array {elements rest : List Node} (helements : Arguments elements) (hrest : Arguments rest) :
      Arguments (.array elements :: rest)
  | raw (text : String) {rest : List Node} (hrest : Arguments rest) :
      Arguments (.raw text :: rest)

/-- What a variable may be assigned. -/
inductive Initializer : Node → Prop
  | call {callee : String} {args : List Node} (hcallee : callee ≠ "") (hargs : Arguments args) :
      Initializer (.call callee args)
  | var {name : String} (hname : name ≠ "") : Initializer (.var name)
  | const (value : Literal) : Initializer (.const value)
  | array {elements : List Node} (helements : Arguments elements) : Initializer (.array elements)

/-- Well-formed statements of a program or of a branch. -/
inductive Body : List Node → Prop
  | nil : Body []
  | assign {name : String} {init : Node} {rest : List Node} (hname : name ≠ "")
      (hinit : Initializer init) (hrest : Body rest) : Body (.assign name init :: rest)
  | evidence (kind : EvidenceKind) {name : String} {rest : List Node} (hname : name ≠ "")
      (hrest : Body rest) : Body (.evidence kind name :: rest)
  | choice {test merge : String} {thenBody elseBody rest : List Node} {thenValue elseValue : Node}
      (htest : test ≠ "") (hmerge : merge ≠ "")
      (hthen : Body thenBody) (hthenValue : Initializer thenValue)
      (helse : Body elseBody) (helseValue : Initializer elseValue) (hrest : Body rest) :
      Body (.choice (.var test) merge thenBody thenValue elseBody elseValue :: rest)
  | query {name : String} {rest : List Node} (hname : name ≠ "") (hrest : Body rest) :
      Body (.query name :: rest)

theorem Body.head {node : Node} {rest : List Node} (h : Body (node :: rest)) : Body [node] := by
  cases h with
  | assign hname hinit _ => exact .assign hname hinit .nil
  | evidence kind hname _ => exact .evidence kind hname .nil
  | choice htest hmerge hthen hthenValue helse helseValue _ =>
    exact .choice htest hmerge hthen hthenValue helse helseValue .nil
  | query hname _ => exact .query hname .nil

theorem Body.tail {node : Node} {rest : List Node} (h : Body (node :: rest)) : Body rest := by
  cases h <;> assumption

/-- Arguments are well-formed if and only if each of them is. -/
theorem arguments_iff_forall {args : List Node} :
    Arguments args ↔ ∀ arg ∈ args, Arguments [arg] := by
  constructor
  · intro h
    induction h with
    | nil => simp
    | var hname _ ih => exact List.forall_mem_cons.2 ⟨.var hname .nil, ih⟩
    | const value _ ih => exact List.forall_mem_cons.2 ⟨.const value .nil, ih⟩
    | array helements _ _ ih => exact List.forall_mem_cons.2 ⟨.array helements .nil, ih⟩
    | raw text _ ih => exact List.forall_mem_cons.2 ⟨.raw text .nil, ih⟩
  · intro h
    induction args with
    | nil => exact .nil
    | cons arg rest ih =>
      obtain ⟨harg, hrest⟩ := List.forall_mem_cons.1 h
      cases harg with
      | var hname _ => exact .var hname (ih hrest)
      | const value _ => exact .const value (ih hrest)
      | array helements _ => exact .array helements (ih hrest)
      | raw text _ => exact .raw text (ih hrest)

/-- A body is well-formed if and only if each of its statements is. -/
theorem body_iff_forall {body : List Node} : Body body ↔ ∀ node ∈ body, Body [node] := by
  induction body with
  | nil => simp [Body.nil]
  | cons node rest ih =>
    rw [List.forall_mem_cons, ← ih]
    constructor
    · intro h
      exact ⟨h.head, h.tail⟩
    · rintro ⟨hnode, hrest⟩
      cases hnode with
      | assign hname hinit _ => exact .assign hname hinit hrest
      | evidence kind hname _ => exact .evidence kind hname hrest
      | choice htest hmerge hthen hthenValue helse helseValue _ =>
        exact .choice htest hmerge hthen hthenValue helse helseValue hrest
      | query hname _ => exact .query hname hrest

/-- A well-formed node of any kind: something that may be an argument, what a variable may be
assigned, a statement, or a program. -/
inductive WellFormed : Node → Prop
  | argument {node : Node} (h : Arguments [node]) : WellFormed node
  | initializer {node : Node} (h : Initializer node) : WellFormed node
  | statement {node : Node} (h : Body [node]) : WellFormed node
  | program {body : List Node} (h : Body body) : WellFormed (.program body)

/-- A program with a conditional inside a branch of another. -/
def sample : List Node :=
  [.assign "coin" (.call "or" []),
   .assign "size" (.const (.int 2)),
   .choice (.var "coin") "outer"
     [.assign "copy" (.var "coin"),
      .choice (.var "copy") "inner" [] (.const (.bool true)) [] (.call "not" [.var "copy"])]
     (.call "and" [.var "inner", .const (.int 7)])
     [.assign "other" (.call "not" [.var "coin"])]
     (.var "other"),
   .assign "seen" (.call "condition" [.var "outer"]),
   .query "outer"]

theorem body_sample : Body sample := by
  have hnot : ∀ {name : String}, name ≠ "" → Initializer (.call "not" [.var name]) :=
    fun hname => .call (by decide) (.var hname .nil)
  refine .assign (by decide) (.call (by decide) .nil) (.assign (by decide) (.const _) ?_)
  refine .choice (by decide) (by decide) ?_ ?_ ?_ (.var (by decide)) ?_
  · refine .assign (by decide) (.var (by decide)) ?_
    exact .choice (by decide) (by decide) .nil (.const _) .nil (hnot (by decide)) .nil
  · exact .call (by decide) (.var (by decide) (.const _ .nil))
  · exact .assign (by decide) (hnot (by decide)) .nil
  · exact .assign (by decide) (.call (by decide) (.var (by decide) .nil)) (.query (by decide) .nil)

end TraceGraph.Node
