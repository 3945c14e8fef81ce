import TraceGraph.Proofs.Declaration

/-!
# Which programs are accepted

Whether a program compiles is settled while the pass goes through it, with the types known so far.  It
can be told without the pass.  `Acceptable` lists what the pass asks for, in terms of the statements of
the program alone: calls that can be described, evidence and queries where they may stand, literals
that can be given a type, and free names for the variables of branches.  One thing comes on top, that
integers which are written out are not too long (`Writable`); together the two are exactly what it
takes.

In between, `Allowed` gathers what is asked of a single statement.  That a program of allowed statements
compiles is shown by induction on the program, with the names that its branches still need at hand
(`Available`).
-/

namespace TraceGraph

/-! ### Integers that can be written -/

/-- An integer of at most `digitLimit` digits. -/
def Decimal.FewDigits (n : Int) : Prop := n.natAbs < Nat.pow 10 digitLimit

theorem Decimal.exists_integerText?_iff {n : Int} :
    (∃ text, integerText? n = some text) ↔ FewDigits n := by
  constructor
  · rintro ⟨text, h⟩
    exact (Option.ite_none_right_eq_some.1 h).1
  · intro h
    exact ⟨toString n, if_pos h⟩

namespace Value

open Decimal (FewDigits)

mutual

/-- The integers inside a value. -/
def integers : Value → List Int
  | .int n => [n]
  | .list items => integersOfItems items
  | .object fields => integersOfFields fields
  | _ => []

/-- The integers inside the items of a list. -/
def integersOfItems : List Value → List Int
  | [] => []
  | item :: rest => item.integers ++ integersOfItems rest

/-- The integers inside the fields of an object. -/
def integersOfFields : List (String × Value) → List Int
  | [] => []
  | (_, value) :: rest => value.integers ++ integersOfFields rest

end

mutual

/-- A value has a text if its integers have. -/
theorem hasText_iff : ∀ v : Value, v.hasText = true ↔ ∀ n ∈ v.integers, FewDigits n
  | .int n => by
    rw [hasText, integers, List.forall_mem_singleton, Option.isSome_iff_exists]
    exact Decimal.exists_integerText?_iff
  | .list items => itemsHaveText_iff items
  | .object fields => fieldsHaveText_iff fields
  | .null | .bool _ | .float _ | .str _ => by simp [hasText, integers]

theorem itemsHaveText_iff : ∀ items : List Value,
    itemsHaveText items = true ↔ ∀ n ∈ integersOfItems items, FewDigits n
  | [] => by simp [itemsHaveText, integersOfItems]
  | item :: rest => by
    rw [itemsHaveText, Bool.and_eq_true, hasText_iff item, itemsHaveText_iff rest, integersOfItems,
      List.forall_mem_append]

theorem fieldsHaveText_iff : ∀ fields : List (String × Value),
    fieldsHaveText fields = true ↔ ∀ n ∈ integersOfFields fields, FewDigits n
  | [] => by simp [fieldsHaveText, integersOfFields]
  | (_, value) :: rest => by
    rw [fieldsHaveText, Bool.and_eq_true, hasText_iff value, fieldsHaveText_iff rest,
      integersOfFields, List.forall_mem_append]

end

end Value

namespace Node

open Decimal (FewDigits)

mutual

/-- The integers that are written out in a literal or an array. -/
def integers : Node → List Int
  | .const (.int n) => [n]
  | .array elements => integersOfAll elements
  | _ => []

/-- The integers that are written out in the elements of an array. -/
def integersOfAll : List Node → List Int
  | [] => []
  | node :: rest => node.integers ++ integersOfAll rest

end

theorem exists_literal_java_iff {value : Literal} :
    (∃ text, value.java = .ok text) ↔ ∀ n ∈ (Node.const value).integers, FewDigits n := by
  cases value with
  | int n =>
    rw [integers, List.forall_mem_singleton, ← Decimal.exists_integerText?_iff]
    unfold Literal.java
    dsimp only
    split
    · next h => simp [h]
    · next h => simp [h]
  | _ => exact ⟨fun _ _ h => (List.not_mem_nil h).elim, fun _ => ⟨_, rfl⟩⟩

mutual

theorem fewDigits_of_java : ∀ {node : Node} {text : String}, node.java = .ok text →
    ∀ n ∈ node.integers, FewDigits n
  | .const value, text, h => exists_literal_java_iff.1 ⟨text, h⟩
  | .array elements, text, h => by
    obtain ⟨texts, htexts, -⟩ := bind_eq_ok_iff.1 h
    exact fewDigits_of_javaAll htexts
  | .blank, _, _ | .var _, _, _ | .raw _, _, _ | .call _ _, _, _ | .assign _ _, _, _
  | .evidence _ _, _, _ | .choice _ _ _ _ _ _, _, _ | .query _, _, _ | .program _, _, _ => by
    simp [integers]

theorem fewDigits_of_javaAll : ∀ {nodes : List Node} {texts : List String},
    javaAll nodes = .ok texts → ∀ n ∈ integersOfAll nodes, FewDigits n
  | [], _, _ => by simp [integersOfAll]
  | node :: rest, texts, h => by
    obtain ⟨first, hfirst, h⟩ := bind_eq_ok_iff.1 h
    obtain ⟨others, hothers, -⟩ := bind_eq_ok_iff.1 h
    intro n hn
    rcases List.mem_append.1 hn with hn | hn
    · exact fewDigits_of_java hfirst n hn
    · exact fewDigits_of_javaAll hothers n hn

end

/-- Arguments can be written if their integers can. -/
theorem exists_javaAll_of_fewDigits {args : List Node} (hargs : Arguments args)
    (h : ∀ n ∈ integersOfAll args, FewDigits n) : ∃ texts, javaAll args = .ok texts := by
  have hcons : ∀ {node : Node} {rest : List Node} {text : String}, node.java = .ok text →
      (∃ texts, javaAll rest = .ok texts) → ∃ texts, javaAll (node :: rest) = .ok texts := by
    rintro node rest text hnode ⟨texts, hrest⟩
    exact ⟨text :: texts, by rw [javaAll, hnode, hrest]; rfl⟩
  induction hargs with
  | nil => exact ⟨[], rfl⟩
  | var _ _ ih => exact hcons rfl (ih h)
  | raw text _ ih => exact hcons rfl (ih h)
  | const value _ ih =>
    simp only [integersOfAll, List.forall_mem_append] at h
    obtain ⟨text, htext⟩ := exists_literal_java_iff.2 h.1
    exact hcons htext (ih h.2)
  | array _ _ ihElements ih =>
    simp only [integersOfAll, List.forall_mem_append] at h
    obtain ⟨texts, htexts⟩ := ihElements h.1
    exact hcons (by rw [java, htexts]; rfl) (ih h.2)

end Node

/-! ### What is asked of a program -/

/-- A call that a built-in primitive can describe, whatever variable is declared for it. -/
def Factor.Describable (settings : Settings) (callee : String) (args : List Node) : Prop :=
  ∀ output, ∃ d, (describe settings Registry.builtin.find? output callee args).result = .ok d

theorem Factor.describable_of_describe {settings : Settings} {output callee : String}
    {args : List Node} {d : Descriptor}
    (h : (describe settings Registry.builtin.find? output callee args).result = .ok d) :
    Describable settings callee args :=
  fun other => ⟨_, describe_output h other⟩

namespace Trace

open Compiler (Branch isEvidence queried?)
open Decimal (FewDigits)
open Factor (Describable)

/-- The kind of evidence that a statement states, on its own or as an assigned call. -/
def evidenceKind? : Node → Option EvidenceKind
  | .evidence kind _ => some kind
  | .assign _ (.call callee _) => EvidenceKind.ofName? callee
  | _ => none

/-- What the pass asks of a program, without the pass. -/
structure Acceptable (settings : Settings) (body : List Node) : Prop where
  /-- Each call of a primitive can be described. -/
  describable : ∀ place name callee args,
    (place, .assign name (.call callee args)) ∈ occurrences .top body →
    EvidenceKind.ofName? callee = none → Describable settings callee args
  /-- A call that states evidence has one argument, a variable. -/
  target : ∀ name callee args,
    (.within .top, .assign name (.call callee args)) ∈ occurrences .top body →
    EvidenceKind.ofName? callee ≠ none → ∃ x, args = [.var x]
  /-- In a branch there is neither evidence nor a query. -/
  unconditional : ∀ place node, (place, node) ∈ occurrences .top body → place ≠ .within .top →
    isEvidence node = false ∧ queried? node = none
  /-- Only the last statement of the program is a query. -/
  query_last : ∀ before name after, body = before ++ .query name :: after → after = []
  /-- A local is given neither a null nor an empty array. -/
  typed : ∀ depth name, (.within depth, .assign name (.const .null)) ∉ occurrences .top body ∧
    (.within depth, .assign name (.array [])) ∉ occurrences .top body
  /-- The value of a branch is no array. -/
  no_array : ∀ branch merge elements,
    (.last branch, .assign merge (.array elements)) ∉ occurrences .top body
  /-- The program assigns no variable that a branch needs of its own. -/
  locals_free : ∀ x ∈ locals body, x ∉ assignedNames body
  /-- No two branches need the same variable. -/
  locals_nodup : (locals body).Nodup

/-- The integers that a program has written out are not too long. -/
structure Writable (settings : Settings) (body : List Node) : Prop where
  /-- Those in the literals and arrays that are assigned, in a branch or as its value too. -/
  assigned : ∀ place name init, (place, .assign name init) ∈ occurrences .top body →
    ∀ n ∈ init.integers, FewDigits n
  /-- Those in what a condition fixes its variable to, if there is a condition. -/
  condition : ∀ place node, (place, node) ∈ occurrences .top body →
    evidenceKind? node = some .condition → ∀ n ∈ settings.conditionValue.integers, FewDigits n

/-- What is asked of a single statement. -/
def Allowed (settings : Settings) : Place × Node → Prop
  | (place, .assign _ (.call callee args)) =>
    match EvidenceKind.ofName? callee with
    | none => Describable settings callee args
    | some kind => place = .within .top ∧ (∃ x, args = [.var x]) ∧
        (kind = .condition → ∀ n ∈ settings.conditionValue.integers, FewDigits n)
  | (.within _, .assign _ (.const value)) =>
    value ≠ .null ∧ ∀ n ∈ (Node.const value).integers, FewDigits n
  | (.within _, .assign _ (.array elements)) =>
    elements ≠ [] ∧ ∀ n ∈ Node.integersOfAll elements, FewDigits n
  | (.last _, .assign _ (.const value)) => ∀ n ∈ (Node.const value).integers, FewDigits n
  | (.last _, .assign _ (.array _)) => False
  | (place, .evidence kind _) =>
    place = .within .top ∧
      (kind = .condition → ∀ n ∈ settings.conditionValue.integers, FewDigits n)
  | (place, .query _) => place = .within .top
  | _ => True

theorem allowed_call_iff {settings : Settings} {place : Place} {name callee : String}
    {args : List Node} (hkind : EvidenceKind.ofName? callee = none) :
    Allowed settings (place, .assign name (.call callee args)) ↔ Describable settings callee args := by
  simp [Allowed, hkind]

theorem allowed_evidenceCall_iff {settings : Settings} {place : Place} {name callee : String}
    {args : List Node} {kind : EvidenceKind} (hkind : EvidenceKind.ofName? callee = some kind) :
    Allowed settings (place, .assign name (.call callee args)) ↔
      place = .within .top ∧ (∃ x, args = [.var x]) ∧
        (kind = .condition → ∀ n ∈ settings.conditionValue.integers, FewDigits n) := by
  simp [Allowed, hkind]

section

variable {settings : Settings} {body : List Node}

/-- Evidence stands at the top of an acceptable program. -/
theorem Acceptable.place_eq_top (h : Acceptable settings body) {place : Place} {node : Node}
    (hmem : (place, node) ∈ occurrences .top body)
    (hnode : isEvidence node = true ∨ queried? node ≠ none) : place = .within .top := by
  apply Decidable.byContradiction
  intro hplace
  obtain ⟨hevidence, hquery⟩ := h.unconditional place node hmem hplace
  rcases hnode with hnode | hnode
  · exact Bool.false_ne_true (hevidence.symm.trans hnode)
  · exact hnode hquery

/-- Each statement of an acceptable program is allowed. -/
theorem Acceptable.allowed (h : Acceptable settings body) (hwritable : Writable settings body) :
    ∀ o ∈ occurrences .top body, Allowed settings o := by
  rintro ⟨place, node⟩ hmem
  cases node with
  | assign name init =>
    cases init with
    | call callee args =>
      cases hkind : EvidenceKind.ofName? callee with
      | none => exact (allowed_call_iff hkind).2 (h.describable place name callee args hmem hkind)
      | some kind =>
        obtain rfl := h.place_eq_top hmem (.inl (by simp [isEvidence, hkind]))
        refine (allowed_evidenceCall_iff hkind).2 ⟨rfl, ?_, ?_⟩
        · exact h.target name callee args hmem (by simp [hkind])
        · rintro rfl
          exact hwritable.condition _ _ hmem hkind
    | const value =>
      have hfew := hwritable.assigned place name _ hmem
      cases place with
      | last branch => exact hfew
      | within depth =>
        refine ⟨?_, hfew⟩
        rintro rfl
        exact (h.typed depth name).1 hmem
    | array elements =>
      cases place with
      | last branch => exact h.no_array branch name elements hmem
      | within depth =>
        refine ⟨?_, hwritable.assigned _ name _ hmem⟩
        rintro rfl
        exact (h.typed depth name).2 hmem
    | _ => cases place <;> trivial
  | evidence kind name =>
    obtain rfl := h.place_eq_top hmem (.inl rfl)
    refine ⟨rfl, ?_⟩
    rintro rfl
    exact hwritable.condition _ _ hmem rfl
  | query name =>
    obtain rfl := h.place_eq_top hmem (.inr (by simp [queried?]))
    rfl
  | _ => cases place <;> trivial

/-- A program of allowed statements is acceptable, given what concerns it as a whole. -/
theorem acceptable_of_allowed (h : ∀ o ∈ occurrences .top body, Allowed settings o)
    (hquery : ∀ before name after, body = before ++ .query name :: after → after = [])
    (hfree : ∀ x ∈ locals body, x ∉ assignedNames body) (hnodup : (locals body).Nodup) :
    Acceptable settings body where
  describable place name callee args hmem hkind := (allowed_call_iff hkind).1 (h _ hmem)
  target name callee args hmem hkind := by
    obtain ⟨kind, hkind⟩ := Option.ne_none_iff_exists'.1 hkind
    exact ((allowed_evidenceCall_iff hkind).1 (h _ hmem)).2.1
  unconditional place node hmem hplace := by
    have hallowed := h _ hmem
    cases node with
    | assign name init =>
      refine ⟨?_, rfl⟩
      cases init with
      | call callee args =>
        cases hkind : EvidenceKind.ofName? callee with
        | none => simp [isEvidence, hkind]
        | some kind => exact absurd ((allowed_evidenceCall_iff hkind).1 hallowed).1 hplace
      | _ => rfl
    | evidence kind name => exact absurd hallowed.1 hplace
    | query name => exact absurd hallowed hplace
    | _ => exact ⟨rfl, rfl⟩
  query_last := hquery
  typed depth name := ⟨fun hmem => (h _ hmem).1 rfl, fun hmem => (h _ hmem).1 rfl⟩
  no_array branch merge elements hmem := h _ hmem
  locals_free := hfree
  locals_nodup := hnodup

theorem writable_of_allowed (h : ∀ o ∈ occurrences .top body, Allowed settings o) :
    Writable settings body where
  assigned place name init hmem := by
    have hallowed := h _ hmem
    cases init with
    | const value =>
      cases place with
      | within depth => exact hallowed.2
      | last branch => exact hallowed
    | array elements =>
      cases place with
      | within depth => exact hallowed.2
      | last branch => exact hallowed.elim
    | _ => exact fun n hn => (List.not_mem_nil hn).elim
  condition place node hmem hkind := by
    have hallowed := h _ hmem
    cases node with
    | assign name init =>
      cases init with
      | call callee args => exact ((allowed_evidenceCall_iff hkind).1 hallowed).2.2 rfl
      | _ => cases hkind
    | evidence kind name => exact hallowed.2 (Option.some.inj hkind)
    | _ => cases hkind

end

end Trace

/-- Evidence can be stated unless it is a condition on a value that is too long to be written. -/
theorem Evidence.exists_statement_iff {settings : Settings} {name : String} {kind : EvidenceKind} :
    (∃ statement, Evidence.statement settings name kind = .ok statement) ↔
      (kind = .condition → ∀ n ∈ settings.conditionValue.integers, Decimal.FewDigits n) := by
  rw [← Value.hasText_iff]
  cases kind with
  | factor => simp [Evidence.statement]
  | condition =>
    by_cases h : settings.conditionValue.hasText = true
    · simp [Evidence.statement, Evidence.fixedText, h, bind_eq_ok_iff, pure, Except.pure]
    · simp [Evidence.statement, Evidence.fixedText, h]

theorem Trace.exists_branchText_iff {value : Literal} :
    (∃ text, branchText value = .ok text) ↔
      ∀ n ∈ (Node.const value).integers, Decimal.FewDigits n := by
  rw [← Node.exists_literal_java_iff]
  cases value with
  | bool b => exact ⟨fun _ => ⟨_, rfl⟩, fun _ => ⟨_, rfl⟩⟩
  | _ => exact Iff.rfl

namespace Compiler

open Trace

variable {c : Compiler} {assigned : List String} {types : List (String × VariableType)}
  {depth : Depth} {e : Emission}

/-! ### Accepted programs are acceptable -/

section

variable (hfind : c.find = Factor.Registry.builtin.find?)

include hfind

theorem allowed_of_yields {node : Node} (h : Yields c depth types node e) :
    Allowed c.settings (.within depth, node) := by
  cases h with
  | call hkind hdescribe =>
    rw [hfind] at hdescribe
    exact (allowed_call_iff hkind).2 (Factor.describable_of_describe hdescribe)
  | copy => trivial
  | literal htype htext =>
    refine ⟨?_, Node.exists_literal_java_iff.1 ⟨_, htext⟩⟩
    rintro rfl
    cases htype
  | array helements htext =>
    obtain ⟨texts, htexts, -⟩ := bind_eq_ok_iff.1 htext
    exact ⟨helements, Node.fewDigits_of_javaAll htexts⟩
  | evidence hstatement => exact ⟨rfl, Evidence.exists_statement_iff.1 ⟨_, hstatement⟩⟩
  | evidenceCall hkind hstatement =>
    exact (allowed_evidenceCall_iff hkind).2
      ⟨rfl, ⟨_, rfl⟩, Evidence.exists_statement_iff.1 ⟨_, hstatement⟩⟩
  | query => rfl

theorem allowed_of_supplies {merge text : String} {branch : Branch} {value : Node}
    {type : Option VariableType} (h : Supplies c assigned merge branch types value text type e) :
    Allowed c.settings (.last branch, .assign merge value) := by
  cases h with
  | var => trivial
  | literal htext => exact exists_branchText_iff.1 ⟨_, htext⟩
  | call hkind _ _ hdescribe =>
    rw [hfind] at hdescribe
    exact (allowed_call_iff hkind).2 (Factor.describable_of_describe hdescribe)

theorem allowed_of_emits {body : List Node} (h : Emits c assigned depth types body e) :
    ∀ o ∈ occurrences depth body, Allowed c.settings o := by
  induction h with
  | nil => simp
  | @step depth _ node _ _ _ _ hnode _ ih =>
    have hsingle : occurrences depth [node] = [(.within depth, node)] := by
      cases hnode <;> rfl
    rw [occurrences_cons, hsingle, List.forall_mem_append, List.forall_mem_singleton]
    exact ⟨allowed_of_yields hfind hnode, ih⟩
  | choice _ hthenValue _ helseValue _ ihThen ihElse ihRest =>
    simp only [occurrences_choice, List.forall_mem_append, List.forall_mem_cons]
    exact ⟨ihThen, allowed_of_supplies hfind hthenValue, ihElse,
      allowed_of_supplies hfind helseValue, trivial, ihRest⟩

end

theorem query_last_of_emits {body : List Node} (h : Emits c assigned depth types body e) :
    ∀ before name after, body = before ++ .query name :: after → after = [] := by
  induction h with
  | nil =>
    intro before name after heq
    cases before <;> cases heq
  | step hquery _ _ ih =>
    intro before name after heq
    cases before with
    | nil =>
      obtain ⟨rfl, rfl⟩ := List.cons.inj heq
      exact hquery.resolve_left (by simp [queried?])
    | cons first before => exact ih before name after (List.cons.inj heq).2
  | choice _ _ _ _ _ _ _ ih =>
    intro before name after heq
    cases before with
    | nil => cases heq
    | cons first before => exact ih before name after (List.cons.inj heq).2

/-! ### Acceptable programs are accepted -/

/-- What is still available after an emission that takes only assigned names and the first of the
names. -/
theorem Available.after {names rest : List String} (h : Available assigned types (names ++ rest))
    (htypes : ∀ p ∈ e.types, p.1 ∈ assigned ∨ p.1 ∈ names) :
    Available assigned (e.after types) rest := by
  obtain ⟨-, hrest, hdisjoint⟩ := List.nodup_append.1 h.nodup
  refine ⟨hrest, fun x hx => h.unassigned x (List.mem_append_right _ hx), fun x hx => ?_⟩
  refine lookup_after_eq_none_iff.2 ⟨?_, h.unknown x (List.mem_append_right _ hx)⟩
  rw [List.lookup_eq_none_iff]
  intro p hp
  rw [bne_iff_ne]
  rintro rfl
  rcases htypes p hp with hassigned | hname
  · exact h.unassigned _ (List.mem_append_right _ hx) hassigned
  · exact hdisjoint _ hname _ hx rfl

theorem Available.left {names rest : List String} (h : Available assigned types (names ++ rest)) :
    Available assigned types names where
  nodup := (List.nodup_append.1 h.nodup).1
  unassigned x hx := h.unassigned x (List.mem_append_left _ hx)
  unknown x hx := h.unknown x (List.mem_append_left _ hx)

section

variable (hfind : c.find = Factor.Registry.builtin.find?)

include hfind

theorem mem_local_of_supplies {merge text : String} {branch : Branch} {value : Node}
    {type : Option VariableType} (h : Supplies c assigned merge branch types value text type e) :
    ∀ p ∈ e.types, p.1 ∈ (local? (.last branch, .assign merge value)).toList := by
  rw [← declaredNames_of_supplies hfind h]
  cases h with
  | var => simp
  | literal => simp
  | call _ _ _ hdescribe =>
    rw [declaredNames_described hfind hdescribe]
    simp [Emission.described]

/-- The names that get a type are declared. -/
theorem mem_declarations_of_emits {body : List Node} (h : Emits c assigned depth types body e) :
    ∀ p ∈ e.types, p.1 ∈ declarations body := by
  induction h with
  | nil => simp
  | @step _ _ node rest e e' _ hnode _ ih =>
    have hfirst : ∀ p ∈ e.types, p.1 ∈ declarations [node] := by
      rw [← declaredNames_of_yields hfind hnode]
      cases hnode with
      | call _ hdescribe =>
        rw [declaredNames_described hfind hdescribe]
        simp [Emission.described]
      | copy =>
        simp [Emission.ofOptionalType, Emission.ofVariable, Java.declaredNames,
          Java.Statement.declared?]
      | _ => simp [Emission.observation]
    intro p hp
    rw [declarations_cons, List.mem_append]
    rcases List.mem_append.1 hp with hp | hp
    · exact .inr (ih p hp)
    · exact .inl (hfirst p hp)
  | choice _ hthenValue _ helseValue _ ihThen ihElse ihRest =>
    intro p hp
    have hmerge : ∀ merge type test alternate consequent,
        (Emission.merge c merge type test alternate consequent).types = [(merge, type.getD .bit)] :=
      fun _ _ _ _ _ => rfl
    simp only [Emission.types_append, hmerge, List.mem_append, List.mem_singleton] at hp
    simp only [declarations_choice, List.mem_append, List.mem_cons]
    rcases hp with hp | rfl | hp | hp | hp | hp
    · simp [ihRest p hp]
    · simp
    · simp [mem_local_of_supplies hfind helseValue p hp]
    · simp [ihElse p hp]
    · simp [mem_local_of_supplies hfind hthenValue p hp]
    · simp [ihThen p hp]

theorem mem_or_mem_of_emits {body : List Node} (h : Emits c assigned depth types body e)
    (hassigned : ∀ x ∈ assignedNames body, x ∈ assigned) :
    ∀ p ∈ e.types, p.1 ∈ assigned ∨ p.1 ∈ locals body := by
  intro p hp
  rcases mem_or_mem_of_mem_declarations (mem_declarations_of_emits hfind h p hp) with h | h
  · exact .inl (hassigned _ h)
  · exact .inr h

/-- An allowed assignment yields something. -/
theorem exists_yields_of_allowed {name : String} {init : Node} (hinit : Node.Initializer init)
    (h : Allowed c.settings (.within depth, .assign name init)) :
    ∃ e, Yields c depth types (.assign name init) e := by
  cases hinit with
  | @call callee args _ _ =>
    cases hkind : EvidenceKind.ofName? callee with
    | none =>
      obtain ⟨d, hd⟩ := (allowed_call_iff hkind).1 h name
      rw [← hfind] at hd
      exact ⟨_, .call hkind hd⟩
    | some kind =>
      obtain ⟨hplace, ⟨target, rfl⟩, htext⟩ := (allowed_evidenceCall_iff hkind).1 h
      cases hplace
      obtain ⟨statement, hstatement⟩ := Evidence.exists_statement_iff.2 htext
      exact ⟨_, .evidenceCall hkind hstatement⟩
  | var => exact ⟨_, .copy _ _ _ _⟩
  | const value =>
    obtain ⟨text, htext⟩ := Node.exists_literal_java_iff.2 h.2
    obtain ⟨type, htype⟩ : ∃ type, localType name value = .ok type := by
      cases value with
      | null => exact absurd rfl h.1
      | _ => exact ⟨_, rfl⟩
    exact ⟨_, .literal htype htext⟩
  | array helements =>
    obtain ⟨texts, htexts⟩ := Node.exists_javaAll_of_fewDigits helements h.2
    exact ⟨_, .array h.1 (bind_eq_ok_iff.2 ⟨texts, htexts, rfl⟩)⟩

/-- An allowed value of a branch supplies something, if the variable that it may need is available. -/
theorem exists_supplies_of_allowed {merge : String} {branch : Branch} {value : Node}
    (hvalue : Node.Initializer value)
    (h : Allowed c.settings (.last branch, .assign merge value))
    (hlocal : Available assigned types (local? (.last branch, .assign merge value)).toList) :
    ∃ text type e, Supplies c assigned merge branch types value text type e := by
  cases hvalue with
  | @call callee args _ _ =>
    cases hkind : EvidenceKind.ofName? callee with
    | none =>
      have hmem : branch.variableName merge
          ∈ (local? (.last branch, .assign merge (.call callee args))).toList := by
        simp [local?, hkind]
      obtain ⟨d, hd⟩ := (allowed_call_iff hkind).1 h (branch.variableName merge)
      rw [← hfind] at hd
      exact ⟨_, _, _, .call hkind (hlocal.unknown _ hmem) (hlocal.unassigned _ hmem) hd⟩
    | some kind => cases ((allowed_evidenceCall_iff hkind).1 h).1
  | var => exact ⟨_, _, _, .var _⟩
  | const value =>
    obtain ⟨text, htext⟩ := exists_branchText_iff.2 h
    exact ⟨_, _, _, .literal htext⟩
  | array => exact h.elim

/-- A body compiles if its first statement yields something, and the rest compiles wherever the variables
that its branches need are available. -/
theorem exists_emits_cons {node : Node} {rest : List Node}
    (hnode : ∃ e, Yields c depth types node e) (hquery : queried? node = none ∨ rest = [])
    (hassigned : ∀ x ∈ assignedNames [node], x ∈ assigned)
    (hlocals : Available assigned types (locals rest))
    (hrest : ∀ {types : List (String × VariableType)}, Available assigned types (locals rest) →
      ∃ e, Emits c assigned depth types rest e) :
    ∃ e, Emits c assigned depth types (node :: rest) e := by
  obtain ⟨e, he⟩ := hnode
  have hsingle : Emits c assigned depth types [node] e := by
    simpa using Emits.step (.inr rfl) he (.nil depth _)
  have htypes := mem_or_mem_of_emits hfind hsingle hassigned
  rw [locals_eq_nil_of_yields he] at htypes
  have hafter : Available assigned (e.after types) (locals rest) := by
    rw [← List.nil_append (locals rest)] at hlocals
    exact hlocals.after htypes
  obtain ⟨e', he'⟩ := hrest hafter
  exact ⟨_, .step hquery he he'⟩

/-- **A body of allowed statements compiles**, if the variables that its branches need are available. -/
theorem exists_emits_of_allowed {body : List Node} (hbody : Node.Body body) :
    ∀ {depth : Depth} {types : List (String × VariableType)},
      (∀ o ∈ occurrences depth body, Allowed c.settings o) →
      (depth = .top → ∀ before name after, body = before ++ .query name :: after → after = []) →
      (∀ x ∈ assignedNames body, x ∈ assigned) → Available assigned types (locals body) →
      ∃ e, Emits c assigned depth types body e := by
  induction hbody with
  | nil => exact fun _ _ _ _ => ⟨_, .nil _ _⟩
  | @assign name init rest _ hinit _ ih =>
    intro depth types hallowed hquery hassigned hlocals
    rw [occurrences_assign, List.forall_mem_cons] at hallowed
    rw [assignedNames_assign, List.forall_mem_cons] at hassigned
    refine exists_emits_cons hfind (exists_yields_of_allowed hfind hinit hallowed.1) (.inl rfl)
      (by simpa using hassigned.1) hlocals fun hlocals => ?_
    refine ih hallowed.2 (fun htop before x after heq => ?_) hassigned.2 hlocals
    exact hquery htop (_ :: before) x after (congrArg _ heq)
  | @evidence kind name rest _ _ ih =>
    intro depth types hallowed hquery hassigned hlocals
    rw [occurrences_evidence, List.forall_mem_cons] at hallowed
    obtain ⟨⟨hplace, htext⟩, hallowed⟩ := hallowed
    cases hplace
    obtain ⟨statement, hstatement⟩ := Evidence.exists_statement_iff.2 htext
    refine exists_emits_cons hfind ⟨_, .evidence hstatement⟩ (.inl rfl) (by simp) hlocals
      fun hlocals => ?_
    refine ih hallowed (fun htop before x after heq => ?_) hassigned hlocals
    exact hquery htop (_ :: before) x after (congrArg _ heq)
  | @query name rest _ _ ih =>
    intro depth types hallowed hquery hassigned hlocals
    rw [occurrences_query, List.forall_mem_cons] at hallowed
    obtain ⟨hplace, hallowed⟩ := hallowed
    cases hplace
    obtain rfl := hquery rfl [] name rest rfl
    exact exists_emits_cons hfind ⟨_, .query _ _⟩ (.inr rfl) (by simp) hlocals
      fun _ => ⟨_, .nil _ _⟩
  | @choice test merge thenBody elseBody rest thenValue elseValue _ _ _ hthenValue _ helseValue _
      ihThen ihElse ihRest =>
    intro depth types hallowed hquery hassigned hlocals
    simp only [occurrences_choice, List.forall_mem_append, List.forall_mem_cons] at hallowed
    simp only [assignedNames_choice, List.forall_mem_append, List.forall_mem_cons] at hassigned
    obtain ⟨hthen, hthenLast, helse, helseLast, -, hrest⟩ := hallowed
    obtain ⟨hassignedThen, hassignedElse, hmerge, hassignedRest⟩ := hassigned
    rw [locals_choice] at hlocals
    have hinner : ∀ {p : Prop}, Depth.inner = .top → p := fun h => by cases h
    obtain ⟨e₁, he₁⟩ := ihThen hthen hinner hassignedThen hlocals.left
    have h₁ := hlocals.after (mem_or_mem_of_emits hfind he₁ hassignedThen)
    obtain ⟨consequent, thenType, e₂, he₂⟩ :=
      exists_supplies_of_allowed hfind hthenValue hthenLast h₁.left
    have h₂ := h₁.after fun p hp => .inr (mem_local_of_supplies hfind he₂ p hp)
    rw [← Emission.after_append] at h₂
    obtain ⟨e₃, he₃⟩ := ihElse helse hinner hassignedElse h₂.left
    have h₃ := h₂.after (mem_or_mem_of_emits hfind he₃ hassignedElse)
    rw [← Emission.after_append] at h₃
    obtain ⟨alternate, elseType, e₄, he₄⟩ :=
      exists_supplies_of_allowed hfind helseValue helseLast h₃.left
    have h₄ := h₃.after fun p hp => .inr (mem_local_of_supplies hfind he₄ p hp)
    rw [← List.nil_append (locals rest), ← Emission.after_append] at h₄
    have h₅ := h₄.after (e := .merge c merge (thenType <|> elseType) test alternate consequent)
      fun p hp => .inl (List.mem_singleton.1 hp ▸ hmerge)
    rw [← Emission.after_append] at h₅
    obtain ⟨e₅, he₅⟩ := ihRest hrest (fun htop before x after heq =>
      hquery htop (_ :: before) x after (congrArg _ heq)) hassignedRest h₅
    exact ⟨_, .choice he₁ he₂ he₃ he₄ he₅⟩

end

/-- **Which programs are accepted.**  A program compiles if and only if it is acceptable and the integers
that it has written out are not too long. -/
theorem exists_result_eq_ok_iff {settings : Settings} {body : List Node} (hbody : Node.Body body) :
    (∃ output, ((Session.builtin settings).compiler.statements body).result = .ok output) ↔
      Acceptable settings body ∧ Writable settings body := by
  constructor
  · rintro ⟨output, h⟩
    obtain ⟨e, he, -⟩ := (result_statements_eq_ok_iff hbody).1 h
    have hallowed := allowed_of_emits rfl he
    have hfresh := fresh_of_emits he
    refine ⟨acceptable_of_allowed hallowed (query_last_of_emits he) (fun x hx hassigned => ?_)
      hfresh.nodup, writable_of_allowed hallowed⟩
    exact hfresh.unassigned x hx ((mem_namesOfAll_iff hbody x).2 hassigned)
  · rintro ⟨hacceptable, hwritable⟩
    have hlocals : Available (namesOfAll body) [] (locals body) :=
      ⟨hacceptable.locals_nodup, fun x hx hassigned =>
        hacceptable.locals_free x hx ((mem_namesOfAll_iff hbody x).1 hassigned), fun _ _ => rfl⟩
    obtain ⟨e, he⟩ := exists_emits_of_allowed (c := (Session.builtin settings).compiler) rfl hbody
      (hacceptable.allowed hwritable) (fun _ => hacceptable.query_last)
      (fun x hx => (mem_namesOfAll_iff hbody x).2 hx) hlocals
    exact ⟨e.output, (result_statements_eq_ok_iff hbody).2 ⟨e, he, rfl⟩⟩

theorem exists_result_eq_ok_sample :
    (∃ output, ((Session.builtin {}).compiler.statements Node.sample).result = .ok output) ∧
      Acceptable {} Node.sample ∧ Writable {} Node.sample := by
  obtain ⟨output, h, -⟩ := Factor.exists_eq_ok_of_toOption_map
    (show ((Session.builtin {}).compiler.statements Node.sample).result.toOption.map List.length
      = some 20 by decide +kernel)
  exact ⟨⟨output, h⟩, (exists_result_eq_ok_iff Node.body_sample).1 ⟨output, h⟩⟩

/-- An acceptable program is not accepted if an integer in it is too long: here a literal, which has one
digit too many. -/
theorem not_accepted_of_long_literal :
    ∃ body, Node.Body body ∧ Acceptable {} body ∧
      ¬ ∃ output, ((Session.builtin {}).compiler.statements body).result = .ok output := by
  have hbody : ∀ n : Int, Node.Body [.assign "x" (.const (.int n))] :=
    fun n => .assign (by decide) (.const _) .nil
  refine ⟨[.assign "x" (.const (.int (Nat.pow 10 Decimal.digitLimit : Nat)))], hbody _, ?_, ?_⟩
  · generalize ((Nat.pow 10 Decimal.digitLimit : Nat) : Int) = n
    refine ⟨by simp, by simp, by simp, fun before name after heq => ?_, by simp, by simp, by simp,
      by simp⟩
    rcases before with - | ⟨first, before⟩
    · cases heq
    · cases before <;> cases (List.cons.inj heq).2
  · rintro ⟨output, h⟩
    obtain ⟨e, he, -⟩ := (result_statements_eq_ok_iff (hbody _)).1 h
    have hwritable := writable_of_allowed (allowed_of_emits rfl he)
    have hfew := hwritable.assigned (.within .top) "x" _ List.mem_cons_self _ List.mem_cons_self
    rw [Decimal.FewDigits, Int.natAbs_natCast] at hfew
    exact Nat.lt_irrefl _ hfew

end Compiler

end TraceGraph
