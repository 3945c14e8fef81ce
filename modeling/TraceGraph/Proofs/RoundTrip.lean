import TraceGraph.Proofs.Grammar
import TraceGraph.Proofs.Outcome
import TraceGraph.Trace.Reading
import TraceGraph.Trace.Writing

/-!
# Written programs

Writing a well-formed node and reading it strictly gives the node again, and a strict reading gives
well-formed nodes only.  So the nodes that a strict reading can give are exactly the well-formed ones.

* `wellFormed_of_read`: what is read is well-formed, by induction on the levels of nesting.
* `RoundTrips node`: the node has a written form, and that is read as the node at every level that is
  high enough.  There is a lemma for each kind of node, and `WellFormed.roundTrips` puts them together.
-/

namespace TraceGraph

/-- A name is a text that is not empty. -/
theorem Value.nameFor_eq_ok_iff {role : NameRole} {v : Value} {name : String} :
    v.nameFor role = .ok name ↔ v = .str name ∧ name ≠ "" := by
  constructor
  · intro h
    unfold nameFor at h
    split at h
    · split at h
      · cases h
      · next hne =>
        cases h
        exact ⟨rfl, hne⟩
    · cases h
  · rintro ⟨rfl, hname⟩
    exact if_neg hname

namespace Node

/-! ### What is read is well-formed -/

section

variable {node checked : Node}

theorem asArgument_eq_ok (h : node.asArgument .strict = .ok checked) :
    checked = node ∧ node.isArgument := by
  unfold asArgument at h
  split at h
  · next hkind =>
    cases h
    exact ⟨rfl, by simpa using hkind⟩
  · cases h

theorem asInitializer_eq_ok (h : node.asInitializer .strict = .ok checked) :
    checked = node ∧ node.isInitializer := by
  unfold asInitializer at h
  split at h
  · next hkind =>
    cases h
    exact ⟨rfl, by simpa using hkind⟩
  · cases h

theorem asStatement_eq_ok (h : node.asStatement .strict = .ok checked) :
    checked = node ∧ node.isStatement := by
  unfold asStatement at h
  split at h
  · next hkind =>
    cases h
    exact ⟨rfl, by simpa using hkind⟩
  · cases h

theorem asTest_eq_ok (h : node.asTest .strict = .ok checked) :
    ∃ name, node = .var name ∧ checked = .var name := by
  unfold asTest at h
  split at h
  · cases h
    exact ⟨_, rfl, rfl⟩
  · cases h

namespace WellFormed

theorem arguments (h : WellFormed node) (hkind : node.isArgument) : Arguments [node] := by
  cases h with
  | argument h => exact h
  | initializer h =>
    cases h with
    | call => cases hkind
    | var hname => exact .var hname .nil
    | const value => exact .const value .nil
    | array helements => exact .array helements .nil
  | statement h => cases h <;> cases hkind
  | program => cases hkind

theorem initializer_of_kind (h : WellFormed node) (hkind : node.isInitializer) : Initializer node := by
  cases h with
  | argument h =>
    cases h with
    | var hname _ => exact .var hname
    | const value _ => exact .const value
    | array helements _ => exact .array helements
    | raw => cases hkind
  | initializer h => exact h
  | statement h => cases h <;> cases hkind
  | program => cases hkind

theorem body (h : WellFormed node) (hkind : node.isStatement) : Body [node] := by
  cases h with
  | argument h => cases h <;> cases hkind
  | initializer h => cases h <;> cases hkind
  | statement h => exact h
  | program => cases hkind

theorem name_ne_empty {name : String} (h : WellFormed (.var name)) : name ≠ "" := by
  cases h.arguments rfl
  assumption

end WellFormed

end

/-- A branch that ends with an assignment is well-formed if what comes before it is, and the assignment. -/
theorem body_append_assign_iff {before : List Node} {name : String} {value : Node} :
    Body (before ++ [.assign name value]) ↔ Body before ∧ name ≠ "" ∧ Initializer value := by
  constructor
  · intro h
    rw [body_iff_forall, List.forall_mem_append, List.forall_mem_singleton] at h
    obtain ⟨hbefore, hlast⟩ := h
    cases hlast with
    | assign hname hvalue _ => exact ⟨body_iff_forall.2 hbefore, hname, hvalue⟩
  · rintro ⟨hbefore, hname, hvalue⟩
    rw [body_iff_forall, List.forall_mem_append, List.forall_mem_singleton]
    exact ⟨body_iff_forall.1 hbefore, .assign hname hvalue .nil⟩

theorem conditional_append (test : Node) (merge : String) (thenBody elseBody : List Node)
    (thenValue elseValue : Node) :
    conditional test (thenBody ++ [.assign merge thenValue]) (elseBody ++ [.assign merge elseValue]) =
      .ok (.choice test merge thenBody thenValue elseBody elseValue) := by
  simp [conditional]

/-- A conditional has branches that end by assigning the same variable. -/
theorem conditional_eq_ok {test node : Node} {consequent alternate : List Node}
    (h : conditional test consequent alternate = .ok node) :
    ∃ merge thenBody thenValue elseBody elseValue,
      consequent = thenBody ++ [.assign merge thenValue] ∧
      alternate = elseBody ++ [.assign merge elseValue] ∧
      node = .choice test merge thenBody thenValue elseBody elseValue := by
  unfold conditional at h
  split at h
  · next merge thenValue other elseValue hthen helse =>
    split at h
    · next hmerge =>
      subst hmerge
      cases h
      exact ⟨merge, _, thenValue, _, elseValue,
        (List.dropLast_append_getLast? _ hthen).symm, (List.dropLast_append_getLast? _ helse).symm, rfl⟩
    · cases h
  · cases h
  · cases h

theorem body_of_conditional {test : String} {consequent alternate : List Node} {node : Node}
    (h : conditional (.var test) consequent alternate = .ok node) (htest : test ≠ "")
    (hthen : Body consequent) (helse : Body alternate) : Body [node] := by
  obtain ⟨merge, thenBody, thenValue, elseBody, elseValue, rfl, rfl, rfl⟩ := conditional_eq_ok h
  obtain ⟨hthen, hmerge, hthenValue⟩ := body_append_assign_iff.1 hthen
  obtain ⟨helse, -, helseValue⟩ := body_append_assign_iff.1 helse
  exact .choice htest hmerge hthen hthenValue helse helseValue .nil

section

variable {level : Nat} {items : List Value} {nodes : List Node}

theorem arguments_of_mapM_read
    (hread : ∀ {v : Value} {node : Node}, read .strict level v = .ok node → WellFormed node)
    (h : (items.mapM fun item => do (← read .strict level item).asArgument .strict) = .ok nodes) :
    Arguments nodes := by
  refine arguments_iff_forall.2 (forall_of_mapM_eq_ok h fun item node hnode => ?_)
  obtain ⟨found, hfound, hkind⟩ := bind_eq_ok_iff.1 hnode
  obtain ⟨rfl, hkind⟩ := asArgument_eq_ok hkind
  exact (hread hfound).arguments hkind

theorem body_of_mapM_read
    (hread : ∀ {v : Value} {node : Node}, read .strict level v = .ok node → WellFormed node)
    (h : (items.mapM fun item => do (← read .strict level item).asStatement .strict) = .ok nodes) :
    Body nodes := by
  refine body_iff_forall.2 (forall_of_mapM_eq_ok h fun item node hnode => ?_)
  obtain ⟨found, hfound, hkind⟩ := bind_eq_ok_iff.1 hnode
  obtain ⟨rfl, hkind⟩ := asStatement_eq_ok hkind
  exact (hread hfound).body hkind

end

/-- **What is read is well-formed.** -/
theorem wellFormed_of_read {level : Nat} {v : Value} {node : Node}
    (h : read .strict level v = .ok node) : WellFormed node := by
  induction level generalizing v node with
  | zero =>
    rw [read_zero] at h
    cases h
  | succ level ih =>
    cases v with
    | object fields =>
      cases hkind : kindOf fields with
      | none =>
        rw [read, hkind] at h
        obtain ⟨written, -, h⟩ := bind_eq_ok_iff.1 h
        simp at h
      | some kind =>
        rw [read, hkind] at h
        cases kind with
        | var =>
          obtain ⟨given, -, h⟩ := bind_eq_ok_iff.1 h
          obtain ⟨name, hname, h⟩ := bind_eq_ok_iff.1 h
          cases h
          exact .argument (.var (Value.nameFor_eq_ok_iff.1 hname).2 .nil)
        | const =>
          obtain ⟨value, -, h⟩ := bind_eq_ok_iff.1 h
          cases h
          exact .argument (.const value .nil)
        | array =>
          obtain ⟨items, -, h⟩ := bind_eq_ok_iff.1 h
          obtain ⟨elements, helements, h⟩ := bind_eq_ok_iff.1 h
          cases h
          exact .argument (.array (arguments_of_mapM_read ih helements) .nil)
        | raw =>
          obtain ⟨given, -, h⟩ := bind_eq_ok_iff.1 h
          obtain ⟨text, -, h⟩ := bind_eq_ok_iff.1 h
          cases h
          exact .argument (.raw text .nil)
        | call =>
          obtain ⟨given, -, h⟩ := bind_eq_ok_iff.1 h
          obtain ⟨items, -, h⟩ := bind_eq_ok_iff.1 h
          obtain ⟨args, hitems, h⟩ := bind_eq_ok_iff.1 h
          obtain ⟨callee, hcallee, h⟩ := bind_eq_ok_iff.1 h
          cases h
          exact .initializer (.call (Value.nameFor_eq_ok_iff.1 hcallee).2
            (arguments_of_mapM_read ih hitems))
        | assign =>
          obtain ⟨given, -, h⟩ := bind_eq_ok_iff.1 h
          obtain ⟨init, hinit, h⟩ := bind_eq_ok_iff.1 h
          obtain ⟨checked, hchecked, h⟩ := bind_eq_ok_iff.1 h
          obtain ⟨named, -, h⟩ := bind_eq_ok_iff.1 h
          obtain ⟨name, hname, h⟩ := bind_eq_ok_iff.1 h
          cases h
          obtain ⟨rfl, hkind⟩ := asInitializer_eq_ok hchecked
          exact .statement (.assign (Value.nameFor_eq_ok_iff.1 hname).2
            ((ih hinit).initializer_of_kind hkind) .nil)
        | evidence =>
          obtain ⟨given, -, h⟩ := bind_eq_ok_iff.1 h
          obtain ⟨named, -, h⟩ := bind_eq_ok_iff.1 h
          obtain ⟨text, -, h⟩ := bind_eq_ok_iff.1 h
          cases hevidence : EvidenceKind.ofName? text with
          | none => rw [hevidence] at h; cases h
          | some evidence =>
            rw [hevidence] at h
            obtain ⟨name, hname, h⟩ := bind_eq_ok_iff.1 h
            cases h
            exact .statement (.evidence evidence (Value.nameFor_eq_ok_iff.1 hname).2 .nil)
        | choice =>
          obtain ⟨given, -, h⟩ := bind_eq_ok_iff.1 h
          obtain ⟨test, htest, h⟩ := bind_eq_ok_iff.1 h
          obtain ⟨checked, hchecked, h⟩ := bind_eq_ok_iff.1 h
          obtain ⟨thenItems, -, h⟩ := bind_eq_ok_iff.1 h
          obtain ⟨consequent, hthen, h⟩ := bind_eq_ok_iff.1 h
          obtain ⟨elseItems, -, h⟩ := bind_eq_ok_iff.1 h
          obtain ⟨alternate, helse, h⟩ := bind_eq_ok_iff.1 h
          obtain ⟨name, rfl, rfl⟩ := asTest_eq_ok hchecked
          exact .statement (body_of_conditional h (ih htest).name_ne_empty
            (body_of_mapM_read ih hthen) (body_of_mapM_read ih helse))
        | query =>
          obtain ⟨given, -, h⟩ := bind_eq_ok_iff.1 h
          obtain ⟨name, hname, h⟩ := bind_eq_ok_iff.1 h
          cases h
          exact .statement (.query (Value.nameFor_eq_ok_iff.1 hname).2 .nil)
        | program =>
          obtain ⟨items, -, h⟩ := bind_eq_ok_iff.1 h
          obtain ⟨body, hitems, h⟩ := bind_eq_ok_iff.1 h
          cases h
          exact .program (body_of_mapM_read ih hitems)
    | _ => cases h

/-! ### What is written is read back -/

/-- The value is read as the node, at every level that is high enough for it. -/
def ReadsAs (v : Value) (node : Node) : Prop :=
  ∀ level, v.height ≤ level → read .strict level v = .ok node

/-- The node has a written form, which is read as the node. -/
def RoundTrips (node : Node) : Prop := ∃ v, node.toValue = .ok v ∧ ReadsAs v node

/-- The nodes have written forms, which are read as the nodes. -/
def AllRoundTrip (nodes : List Node) : Prop :=
  ∃ items, toValues nodes = .ok items ∧ List.Forall₂ ReadsAs items nodes

theorem AllRoundTrip.nil : AllRoundTrip [] := ⟨[], rfl, .nil⟩

theorem AllRoundTrip.cons {node : Node} {rest : List Node} (h : RoundTrips node)
    (hrest : AllRoundTrip rest) : AllRoundTrip (node :: rest) := by
  obtain ⟨v, hv, hread⟩ := h
  obtain ⟨items, hitems, hreads⟩ := hrest
  exact ⟨v :: items, bind_eq_ok_iff.2 ⟨v, hv, bind_eq_ok_iff.2 ⟨items, hitems, rfl⟩⟩,
    .cons hread hreads⟩

/-- Items that are read as nodes, all of which pass a check, are read as these nodes. -/
theorem mapM_read {check : Node → Except Error Node} {items : List Value} {nodes : List Node}
    (level : Nat) (h : List.Forall₂ ReadsAs items nodes)
    (hcheck : ∀ node ∈ nodes, check node = .ok node)
    (hlevel : Value.heightOfItems items ≤ level) :
    (items.mapM fun item => do check (← read .strict level item)) = .ok nodes := by
  rw [mapM_eq_ok_iff]
  induction h with
  | nil => exact .nil
  | @cons item node items nodes hitem _ ih =>
    rw [Value.heightOfItems, Nat.max_le] at hlevel
    rw [List.forall_mem_cons] at hcheck
    exact .cons (bind_eq_ok_iff.2 ⟨node, hitem level hlevel.1, hcheck.1⟩) (ih hcheck.2 hlevel.2)

theorem kindOf_written (kind : Kind) (fields : List (String × Value)) :
    kindOf (("kind", .str kind.name) :: fields) = some kind := by
  simp [kindOf]

/-- To read a written node takes one level more than its fields. -/
theorem ReadsAs.of_written {kind : Kind} {fields : List (String × Value)} {node : Node}
    (h : ∀ inner, Value.heightOfFields fields ≤ inner →
      read .strict (inner + 1) (written kind fields) = .ok node) :
    ReadsAs (written kind fields) node := by
  intro level hlevel
  cases level with
  | zero => simp [written, Value.height] at hlevel
  | succ inner =>
    refine h inner ?_
    simpa [written, Value.height, Value.heightOfFields] using hlevel

section

variable {name : String}

theorem roundTrips_var (hname : name ≠ "") : RoundTrips (.var name) := by
  refine ⟨_, rfl, .of_written fun inner _ => ?_⟩
  rw [written, read, kindOf_written]
  exact bind_eq_ok_iff.2 ⟨_, rfl, bind_eq_ok_iff.2 ⟨name, if_neg hname, rfl⟩⟩

theorem roundTrips_const (value : Literal) : RoundTrips (.const value) := by
  refine ⟨_, rfl, .of_written fun inner _ => ?_⟩
  rw [written, read, kindOf_written]
  cases value <;> rfl

theorem roundTrips_raw (text : String) : RoundTrips (.raw text) := by
  refine ⟨_, rfl, .of_written fun inner _ => ?_⟩
  rw [written, read, kindOf_written]
  rfl

theorem roundTrips_evidence (kind : EvidenceKind) (hname : name ≠ "") :
    RoundTrips (.evidence kind name) := by
  refine ⟨_, rfl, .of_written fun inner _ => ?_⟩
  rw [written, read, kindOf_written]
  refine bind_eq_ok_iff.2 ⟨_, rfl, bind_eq_ok_iff.2 ⟨_, rfl, bind_eq_ok_iff.2 ⟨kind.name, rfl, ?_⟩⟩⟩
  rw [EvidenceKind.ofName?_name]
  exact bind_eq_ok_iff.2 ⟨name, if_neg hname, rfl⟩

theorem roundTrips_query (hname : name ≠ "") : RoundTrips (.query name) := by
  refine ⟨_, rfl, .of_written fun inner _ => ?_⟩
  rw [written, read, kindOf_written]
  exact bind_eq_ok_iff.2 ⟨_, rfl, bind_eq_ok_iff.2 ⟨name, if_neg hname, rfl⟩⟩

theorem Arguments.asArgument_eq {args : List Node} (h : Arguments args) :
    ∀ arg ∈ args, arg.asArgument .strict = .ok arg := by
  intro arg harg
  cases arguments_iff_forall.1 h arg harg <;> rfl

theorem Body.asStatement_eq {body : List Node} (h : Body body) :
    ∀ node ∈ body, node.asStatement .strict = .ok node := by
  intro node hnode
  cases body_iff_forall.1 h node hnode <;> rfl

theorem roundTrips_array {elements : List Node} (h : AllRoundTrip elements)
    (helements : Arguments elements) : RoundTrips (.array elements) := by
  obtain ⟨items, hitems, hreads⟩ := h
  refine ⟨_, bind_eq_ok_iff.2 ⟨items, hitems, rfl⟩, .of_written fun inner hinner => ?_⟩
  rw [Value.heightOfFields, Value.height, Nat.max_le] at hinner
  rw [written, read, kindOf_written]
  exact bind_eq_ok_iff.2 ⟨items, rfl, bind_eq_ok_iff.2 ⟨elements,
    mapM_read inner hreads helements.asArgument_eq (by omega), rfl⟩⟩

theorem roundTrips_call {callee : String} {args : List Node} (hcallee : callee ≠ "")
    (h : AllRoundTrip args) (hargs : Arguments args) : RoundTrips (.call callee args) := by
  obtain ⟨items, hitems, hreads⟩ := h
  refine ⟨_, bind_eq_ok_iff.2 ⟨items, hitems, rfl⟩, .of_written fun inner hinner => ?_⟩
  simp only [Value.heightOfFields, Value.height, Nat.max_le] at hinner
  rw [written, read, kindOf_written]
  exact bind_eq_ok_iff.2 ⟨_, rfl, bind_eq_ok_iff.2 ⟨items, rfl, bind_eq_ok_iff.2 ⟨args,
    mapM_read inner hreads hargs.asArgument_eq (by omega),
    bind_eq_ok_iff.2 ⟨callee, if_neg hcallee, rfl⟩⟩⟩⟩

theorem roundTrips_program {body : List Node} (h : AllRoundTrip body) (hbody : Body body) :
    RoundTrips (.program body) := by
  obtain ⟨items, hitems, hreads⟩ := h
  refine ⟨_, bind_eq_ok_iff.2 ⟨items, hitems, rfl⟩, .of_written fun inner hinner => ?_⟩
  rw [Value.heightOfFields, Value.height, Nat.max_le] at hinner
  rw [written, read, kindOf_written]
  exact bind_eq_ok_iff.2 ⟨items, rfl, bind_eq_ok_iff.2 ⟨body,
    mapM_read inner hreads hbody.asStatement_eq (by omega), rfl⟩⟩

theorem Arguments.allRoundTrip {args : List Node} (h : Arguments args) : AllRoundTrip args := by
  induction h with
  | nil => exact .nil
  | var hname _ ih => exact .cons (roundTrips_var hname) ih
  | const value _ ih => exact .cons (roundTrips_const value) ih
  | array helements _ ihElements ih => exact .cons (roundTrips_array ihElements helements) ih
  | raw text _ ih => exact .cons (roundTrips_raw text) ih

theorem Initializer.roundTrips {init : Node} (h : Initializer init) : RoundTrips init := by
  cases h with
  | call hcallee hargs => exact roundTrips_call hcallee hargs.allRoundTrip hargs
  | var hname => exact roundTrips_var hname
  | const value => exact roundTrips_const value
  | array helements => exact roundTrips_array helements.allRoundTrip helements

/-- An assignment is read as it was written, wherever it stands. -/
theorem readsAs_assigned {v : Value} {init : Node} (h : ReadsAs v init) (hname : name ≠ "")
    (hinit : Initializer init) : ReadsAs (assigned name v) (.assign name init) := by
  refine .of_written fun inner hinner => ?_
  simp only [Value.heightOfFields, Value.height, Nat.max_le] at hinner
  rw [written, read, kindOf_written]
  have hkind : init.asInitializer .strict = .ok init := by
    cases hinit <;> rfl
  exact bind_eq_ok_iff.2 ⟨v, rfl, bind_eq_ok_iff.2 ⟨init, h inner (by omega),
    bind_eq_ok_iff.2 ⟨init, hkind, bind_eq_ok_iff.2 ⟨_, rfl,
      bind_eq_ok_iff.2 ⟨name, if_neg hname, rfl⟩⟩⟩⟩⟩

theorem roundTrips_assign {init : Node} (hname : name ≠ "") (hinit : Initializer init) :
    RoundTrips (.assign name init) := by
  obtain ⟨v, hv, hread⟩ := hinit.roundTrips
  exact ⟨_, bind_eq_ok_iff.2 ⟨v, hv, rfl⟩, readsAs_assigned hread hname hinit⟩

/-- The written form of a branch is that of its statements, with the last assignment at the end. -/
theorem reads_branch {items : List Value} {before : List Node} {v : Value} {value : Node}
    (h : List.Forall₂ ReadsAs items before) (hvalue : ReadsAs v value) (hname : name ≠ "")
    (hinit : Initializer value) :
    List.Forall₂ ReadsAs (items ++ [assigned name v]) (before ++ [.assign name value]) :=
  List.rel_append h (.cons (readsAs_assigned hvalue hname hinit) .nil)

theorem roundTrips_choice {test merge : String} {thenBody elseBody : List Node}
    {thenValue elseValue : Node} (htest : test ≠ "") (hmerge : merge ≠ "")
    (hthen : AllRoundTrip thenBody) (helse : AllRoundTrip elseBody)
    (hthenBody : Body (thenBody ++ [.assign merge thenValue]))
    (helseBody : Body (elseBody ++ [.assign merge elseValue])) :
    RoundTrips (.choice (.var test) merge thenBody thenValue elseBody elseValue) := by
  obtain ⟨-, -, hthenValue⟩ := body_append_assign_iff.1 hthenBody
  obtain ⟨-, -, helseValue⟩ := body_append_assign_iff.1 helseBody
  obtain ⟨test', htest', hreadTest⟩ := roundTrips_var htest
  obtain ⟨thenItems, hthenItems, hreadThen⟩ := hthen
  obtain ⟨thenEnd, hthenEnd, hreadThenEnd⟩ := hthenValue.roundTrips
  obtain ⟨elseItems, helseItems, hreadElse⟩ := helse
  obtain ⟨elseEnd, helseEnd, hreadElseEnd⟩ := helseValue.roundTrips
  refine ⟨_, bind_eq_ok_iff.2 ⟨test', htest', bind_eq_ok_iff.2 ⟨thenItems, hthenItems,
    bind_eq_ok_iff.2 ⟨thenEnd, hthenEnd, bind_eq_ok_iff.2 ⟨elseItems, helseItems,
      bind_eq_ok_iff.2 ⟨elseEnd, helseEnd, rfl⟩⟩⟩⟩⟩, .of_written fun inner hinner => ?_⟩
  simp only [Value.heightOfFields, Value.height, Nat.max_le] at hinner
  rw [written, read, kindOf_written]
  have hthenRead := mapM_read inner (reads_branch hreadThen hreadThenEnd hmerge hthenValue)
    hthenBody.asStatement_eq (by omega)
  have helseRead := mapM_read inner (reads_branch hreadElse hreadElseEnd hmerge helseValue)
    helseBody.asStatement_eq (by omega)
  exact bind_eq_ok_iff.2 ⟨test', rfl, bind_eq_ok_iff.2 ⟨.var test, hreadTest inner (by omega),
    bind_eq_ok_iff.2 ⟨.var test, rfl, bind_eq_ok_iff.2 ⟨_, rfl, bind_eq_ok_iff.2 ⟨_, hthenRead,
      bind_eq_ok_iff.2 ⟨_, rfl, bind_eq_ok_iff.2 ⟨_, helseRead,
        conditional_append _ _ _ _ _ _⟩⟩⟩⟩⟩⟩⟩

theorem Body.allRoundTrip {body : List Node} (h : Body body) : AllRoundTrip body := by
  induction h with
  | nil => exact .nil
  | assign hname hinit _ ih => exact .cons (roundTrips_assign hname hinit) ih
  | evidence kind hname _ ih => exact .cons (roundTrips_evidence kind hname) ih
  | choice htest hmerge hthen hthenValue helse helseValue _ ihThen ihElse ih =>
    exact .cons (roundTrips_choice htest hmerge ihThen ihElse
      (body_append_assign_iff.2 ⟨hthen, hmerge, hthenValue⟩)
      (body_append_assign_iff.2 ⟨helse, hmerge, helseValue⟩)) ih
  | query hname _ ih => exact .cons (roundTrips_query hname) ih

end

/-- What round-trips in a list of one does so on its own. -/
theorem AllRoundTrip.head {node : Node} (h : AllRoundTrip [node]) : RoundTrips node := by
  obtain ⟨items, hitems, hreads⟩ := h
  obtain ⟨v, hv, hrest⟩ := bind_eq_ok_iff.1 hitems
  cases hrest
  cases hreads with
  | cons hread _ => exact ⟨v, hv, hread⟩

theorem WellFormed.roundTrips {node : Node} (h : WellFormed node) : RoundTrips node := by
  cases h with
  | argument h => exact h.allRoundTrip.head
  | initializer h => exact h.roundTrips
  | statement h => exact h.allRoundTrip.head
  | program h => exact roundTrips_program h.allRoundTrip h

/-- **Writing loses nothing, and reading normalizes.**  A well-formed node has a written form, which is
read as the node.  Conversely, whatever a value is read as is well-formed, so that writing it and
reading it again gives it once more. -/
theorem wellFormed_and_read_back :
    (∀ node, WellFormed node → ∃ v, node.toValue = .ok v ∧ ofValue .strict v = .ok node) ∧
      ∀ v node, ofValue .strict v = .ok node →
        WellFormed node ∧ ∃ w, node.toValue = .ok w ∧ ofValue .strict w = .ok node := by
  have hback : ∀ node, WellFormed node →
      ∃ v, node.toValue = .ok v ∧ ofValue .strict v = .ok node := by
    intro node h
    obtain ⟨v, hv, hread⟩ := h.roundTrips
    exact ⟨v, hv, hread v.height (Nat.le_refl _)⟩
  refine ⟨hback, fun v node h => ?_⟩
  have hnode := wellFormed_of_read h
  exact ⟨hnode, hback node hnode⟩

/-- A conditional inside a branch, arrays inside an array, and text that is kept. -/
theorem wellFormed_and_read_back_sample :
    let node : Node := .program
      (.assign "seen" (.call "f" [.array [.raw "a.b", .array [.const (.bool true)]]]) :: sample)
    WellFormed node ∧ ∃ v, node.toValue = .ok v ∧ ofValue .strict v = .ok node := by
  have hargs : Arguments [.array [.raw "a.b", .array [.const (.bool true)]]] :=
    .array (.raw _ (.array (.const _ .nil) .nil)) .nil
  have hnode := WellFormed.program
    (.assign (show "seen" ≠ "" by decide) (.call (show "f" ≠ "" by decide) hargs) body_sample)
  exact ⟨hnode, wellFormed_and_read_back.1 _ hnode⟩

end Node

end TraceGraph
