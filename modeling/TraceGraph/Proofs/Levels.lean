import TraceGraph.Proofs.Encoding

/-!
# Levels of nesting

Trees are decoded with a number of levels that they may have.  How many there are makes no difference, as
long as they are enough: what is decoded at each step is a part of the tree before it (`Part`), and a part
has fewer levels.  So a tree is decoded by decoding its parts, each with the levels that it has itself
(`argument_eq`, `statement_eq`).
-/

namespace TraceGraph

namespace Value

theorem height_le_of_mem {items : List Value} {v : Value} (h : v ∈ items) :
    v.height ≤ heightOfItems items := by
  induction items with
  | nil => cases h
  | cons first rest ih =>
    rw [heightOfItems]
    rcases List.mem_cons.1 h with rfl | h
    · exact Nat.le_max_left _ _
    · exact Nat.le_trans (ih h) (Nat.le_max_right _ _)

theorem hasText_of_lookup {fields : List (String × Value)} {key : String} {v : Value}
    (h : fields.lookup key = some v) (htext : fieldsHaveText fields = true) : v.hasText = true := by
  induction fields with
  | nil => cases h
  | cons entry rest ih =>
    obtain ⟨other, first⟩ := entry
    rw [fieldsHaveText, Bool.and_eq_true] at htext
    rw [List.lookup_cons] at h
    split at h
    · cases h
      exact htext.1
    · exact ih h htext.2

theorem hasText_of_mem {items : List Value} {v : Value} (h : v ∈ items)
    (htext : itemsHaveText items = true) : v.hasText = true := by
  induction items with
  | nil => cases h
  | cons first rest ih =>
    rw [itemsHaveText, Bool.and_eq_true] at htext
    rcases List.mem_cons.1 h with rfl | h
    · exact htext.1
    · exact ih h htext.2

end Value

namespace Estree

/-! ### Parts of a tree -/

/-- The value is a part of the tree: one of its fields, or an item of a list that is one. -/
inductive Part : Value → Value → Prop
  | field {fields : List (String × Value)} {key : String} {w : Value}
      (h : fields.lookup key = some w) : Part (.object fields) w
  | item {fields : List (String × Value)} {key : String} {items : List Value} {w : Value}
      (h : fields.lookup key = some (.list items)) (hw : w ∈ items) : Part (.object fields) w

namespace Part

variable {v w : Value}

theorem height_lt (h : Part v w) : w.height < v.height := by
  cases h with
  | field h =>
    have hle := Value.height_le_of_lookup h
    rw [Value.height]
    omega
  | item h hw =>
    have hitem := Value.height_le_of_mem hw
    have hlist := Value.height_le_of_lookup h
    simp only [Value.height] at hlist ⊢
    omega

theorem hasText (h : Part v w) (htext : v.hasText = true) : w.hasText = true := by
  cases h with
  | field h => exact Value.hasText_of_lookup h htext
  | item h hw => exact Value.hasText_of_mem hw (Value.hasText_of_lookup h htext)

end Part

section

variable {fields : List (String × Value)} {key : String} {test : Value → Bool} {items : List Value}
  {v w : Value}

theorem part_of_child? (h : child? fields key = some w) : Part (.object fields) w :=
  .field (Option.filter_eq_some_iff.1 h).1

theorem part_of_optionalChild? (h : optionalChild? fields key = some (some w)) :
    Part (.object fields) w := by
  unfold optionalChild? at h
  split at h
  · cases h
  · cases h
  · next hlookup =>
    split at h
    · cases h
      exact .field hlookup
    · cases h

theorem part_of_children? (h : children? test fields key = some items) :
    ∀ w ∈ items, Part (.object fields) w := by
  unfold children? at h
  split at h
  · next hlookup =>
    split at h
    · cases h
      exact fun w hw => .item hlookup hw
    · cases h
  · cases h

theorem part_of_childrenOrNone? (h : childrenOrNone? test fields key = some items) :
    ∀ w ∈ items, Part (.object fields) w := by
  unfold childrenOrNone? at h
  split at h
  · cases h
    simp
  · exact part_of_children? h

/-! ### The parts that a shape gives -/

theorem part_of_bodyShape {type : String} (h : expect (bodyShape type) v = .ok items) :
    ∀ w ∈ items, Part v w := by
  obtain ⟨fields, rfl, hshape⟩ := expect_eq_ok_iff.1 h
  unfold bodyShape at hshape
  split at hshape
  · exact part_of_childrenOrNone? hshape
  · cases hshape

theorem part_of_declarationShape (h : expect declarationShape v = .ok items) :
    ∀ w ∈ items, Part v w := by
  obtain ⟨fields, rfl, hshape⟩ := expect_eq_ok_iff.1 h
  unfold declarationShape at hshape
  split at hshape
  · exact part_of_children? (Option.filter_eq_some_iff.1 hshape).1
  · cases hshape

theorem part_of_declaratorShape {id : Value} {init : Option Value}
    (h : expect declaratorShape v = .ok (id, init)) :
    Part v id ∧ ∀ w, init = some w → Part v w := by
  obtain ⟨fields, rfl, hshape⟩ := expect_eq_ok_iff.1 h
  obtain ⟨-, -, hshape⟩ := Option.bind_eq_some_iff.1 hshape
  obtain ⟨_, hid, hshape⟩ := Option.bind_eq_some_iff.1 hshape
  obtain ⟨_, hinit, hshape⟩ := Option.bind_eq_some_iff.1 hshape
  cases hshape
  exact ⟨part_of_child? hid, fun w hw => part_of_optionalChild? (hw ▸ hinit)⟩

theorem part_of_expressionShape (h : expect expressionShape v = .ok w) : Part v w := by
  obtain ⟨fields, rfl, hshape⟩ := expect_eq_ok_iff.1 h
  obtain ⟨-, -, hchild⟩ := Option.bind_eq_some_iff.1 hshape
  exact part_of_child? hchild

theorem part_of_conditionalShape {test consequent : Value} {alternate : Option Value}
    (h : expect conditionalShape v = .ok (test, consequent, alternate)) :
    Part v test ∧ Part v consequent ∧ ∀ w, alternate = some w → Part v w := by
  obtain ⟨fields, rfl, hshape⟩ := expect_eq_ok_iff.1 h
  obtain ⟨-, -, hshape⟩ := Option.bind_eq_some_iff.1 hshape
  obtain ⟨_, htest, hshape⟩ := Option.bind_eq_some_iff.1 hshape
  obtain ⟨_, hconsequent, hshape⟩ := Option.bind_eq_some_iff.1 hshape
  obtain ⟨_, halternate, hshape⟩ := Option.bind_eq_some_iff.1 hshape
  cases hshape
  exact ⟨part_of_child? htest, part_of_child? hconsequent,
    fun w hw => part_of_optionalChild? (hw ▸ halternate)⟩

theorem part_of_arrayShape (h : expect arrayShape v = .ok items) : ∀ w ∈ items, Part v w := by
  obtain ⟨fields, rfl, hshape⟩ := expect_eq_ok_iff.1 h
  obtain ⟨-, -, hchildren⟩ := Option.bind_eq_some_iff.1 hshape
  exact part_of_childrenOrNone? hchildren

theorem part_of_callShape {function : Value} (h : expect callShape v = .ok (function, items)) :
    Part v function ∧ ∀ w ∈ items, Part v w := by
  obtain ⟨fields, rfl, hshape⟩ := expect_eq_ok_iff.1 h
  obtain ⟨-, -, hshape⟩ := Option.bind_eq_some_iff.1 hshape
  obtain ⟨_, hfunction, hshape⟩ := Option.bind_eq_some_iff.1 hshape
  obtain ⟨_, hitems, hshape⟩ := Option.bind_eq_some_iff.1 hshape
  cases hshape
  exact ⟨part_of_child? hfunction, part_of_childrenOrNone? hitems⟩

theorem part_of_unaryShape {operator : String} (h : expect unaryShape v = .ok (operator, w)) :
    Part v w := by
  obtain ⟨fields, rfl, hshape⟩ := expect_eq_ok_iff.1 h
  obtain ⟨-, -, hshape⟩ := Option.bind_eq_some_iff.1 hshape
  obtain ⟨_, -, hshape⟩ := Option.bind_eq_some_iff.1 hshape
  obtain ⟨_, hargument, hshape⟩ := Option.bind_eq_some_iff.1 hshape
  cases hshape
  exact part_of_child? hargument

/-- The statements of a branch are parts of the block, or the branch itself. -/
theorem part_of_branchItems (h : branchItems v = .ok items) :
    ∀ w ∈ items, Part v w ∨ w = v := by
  obtain ⟨type, -, h⟩ := bind_eq_ok_iff.1 h
  split at h
  · exact fun w hw => .inl (part_of_bodyShape h w hw)
  · cases h
    exact fun w hw => .inr (List.mem_singleton.1 hw)

end

/-! ### Enough levels -/

/-- An element of an array; a hole is refused. -/
def element (decode : Value → Except Error Node) : Value → Except Error Node
  | .null => .error .sparseArray
  | item => decode item

/-- One level of an argument, given how the levels below are decoded. -/
def argumentStep (decode : Value → Except Error Node) (v : Value) : Except Error Node :=
  match v with
  | .object fields =>
    match expressionType? fields with
    | some .literal => do return .const (← expect literalShape v)
    | some .identifier => do return .var (← identifier v)
    | some .array => do
      let items ← expect arrayShape v
      let elements ← items.mapM (element decode)
      return .array elements
    | some .unary => do
      match ← negatedNumber? v with
      | some value => return .const value
      | none => return .raw (← expressionText v)
    | _ => do return .raw (← expressionText v)
  | v => .error (.treeNotObject v.typeName)

/-- One level of a statement, given how the levels below are decoded. -/
def statementStep (decode : Value → Except Error (Option Node)) (v : Value) :
    Except Error (Option Node) := do
  let type ← typeOf v
  match StatementType.ofName? type with
  | some .empty => return none
  | some .declaration => return some (← declaration v)
  | some .expression => return some (← expressionStatement v)
  | some .conditional => do
    let (test, consequent, alternate) ← expect conditionalShape v
    let testType ← typeOf test
    if testType ≠ "Identifier" then throw (.unsupportedNode ("IfStatement test " ++ testType))
    match alternate with
    | none => throw .missingElse
    | some alternate => do
      let test ← identifier test
      let thenItems ← branchItems consequent
      let thenBranch ← thenItems.mapM decode
      let elseItems ← branchItems alternate
      let elseBranch ← elseItems.mapM decode
      let node ← Node.conditional (.var test) (thenBranch.filterMap id) (elseBranch.filterMap id)
      return some node
  | none => throw (.unsupportedNode type)

section

variable {v : Value}

theorem argumentStep_congr {decode decode' : Value → Except Error Node}
    (h : ∀ w, w.height < v.height → decode w = decode' w) :
    argumentStep decode v = argumentStep decode' v := by
  unfold argumentStep
  split
  · split
    · rfl
    · rfl
    · refine bind_congr_of_ok fun items hitems => ?_
      congr 1
      refine mapM_congr fun item hitem => ?_
      cases item with
      | null => rfl
      | _ => exact h _ (part_of_arrayShape hitems _ hitem).height_lt
    · rfl
    · rfl
  · rfl

theorem statementStep_congr {decode decode' : Value → Except Error (Option Node)}
    (h : ∀ w, w.height < v.height → decode w = decode' w) :
    statementStep decode v = statementStep decode' v := by
  have hbranch : ∀ {branch : Value} {items : List Value}, Part v branch →
      branchItems branch = .ok items → items.mapM decode = items.mapM decode' := by
    intro branch items hpart hitems
    refine mapM_congr fun item hitem => h item ?_
    rcases part_of_branchItems hitems item hitem with hitem | rfl
    · exact Nat.lt_trans hitem.height_lt hpart.height_lt
    · exact hpart.height_lt
  refine bind_congr_of_ok fun type _ => ?_
  split
  · rfl
  · rfl
  · rfl
  · refine bind_congr_of_ok fun ⟨test, consequent, alternate⟩ hshape => ?_
    obtain ⟨-, hconsequent, halternate⟩ := part_of_conditionalShape hshape
    refine bind_congr_of_ok fun testType _ => ?_
    dsimp only
    split
    · rfl
    · cases alternate with
      | none => rfl
      | some alternate =>
        refine bind_congr_of_ok fun name _ => bind_congr_of_ok fun thenItems hthen => ?_
        rw [hbranch hconsequent hthen]
        refine bind_congr_of_ok fun thenBranch _ => bind_congr_of_ok fun elseItems helse => ?_
        rw [hbranch (halternate _ rfl) helse]
  · rfl

theorem argumentWithin_succ (level : Nat) (v : Value) :
    argumentWithin (level + 1) v = argumentStep (argumentWithin level) v := by
  cases v <;> rfl

theorem statementWithin_succ (level : Nat) (v : Value) :
    statementWithin (level + 1) v = statementStep (statementWithin level) v := by
  cases v <;> rfl

theorem argumentWithin_of_height_eq_zero (h : v.height = 0) (level : Nat) :
    argumentWithin level v = argumentWithin 0 v := by
  cases v with
  | list | object => simp [Value.height] at h
  | _ => cases level <;> rfl

theorem statementWithin_of_height_eq_zero (h : v.height = 0) (level : Nat) :
    statementWithin level v = statementWithin 0 v := by
  cases v with
  | list | object => simp [Value.height] at h
  | _ => cases level <;> rfl

end

section

variable {α : Type} {within : Nat → Value → Except Error α}
  {step : (Value → Except Error α) → Value → Except Error α} {v : Value}
  (hzero : ∀ {v}, v.height = 0 → ∀ level, within level v = within 0 v)
  (hsucc : ∀ level v, within (level + 1) v = step (within level) v)
  (hstep : ∀ {v decode decode'}, (∀ w, w.height < v.height → decode w = decode' w) →
    step decode v = step decode' v)

include hzero hsucc hstep

/-- What is decoded step by step is the same at all levels that are high enough. -/
theorem within_congr {level level' : Nat} (h : v.height ≤ level) (h' : v.height ≤ level') :
    within level v = within level' v := by
  induction level generalizing level' v with
  | zero => exact (hzero (Nat.le_zero.1 h) level').symm
  | succ level ih =>
    cases level' with
    | zero => exact hzero (Nat.le_zero.1 h') _
    | succ level' =>
      rw [hsucc, hsucc]
      exact hstep fun w hw => ih (by omega) (by omega)

theorem within_eq_step (v : Value) : within v.height v = step (fun w => within w.height w) v := by
  rw [within_congr hzero hsucc hstep (Nat.le_refl _) (Nat.le_succ _), hsucc]
  exact hstep fun w hw => within_congr hzero hsucc hstep (Nat.le_of_lt hw) (Nat.le_refl _)

end

/-- An argument is decoded by decoding what is in it, with as many levels as that has. -/
theorem argument_eq (v : Value) : argument v = argumentStep argument v :=
  within_eq_step argumentWithin_of_height_eq_zero argumentWithin_succ argumentStep_congr v

/-- A statement is decoded by decoding what is in it, with as many levels as that has. -/
theorem statement_eq (v : Value) : statement v = statementStep statement v :=
  within_eq_step statementWithin_of_height_eq_zero statementWithin_succ statementStep_congr v

end Estree

end TraceGraph
