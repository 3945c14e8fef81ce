import TraceGraph.Proofs.Acceptance
import TraceGraph.Proofs.Arguments
import TraceGraph.Proofs.Rounding

/-!
# Parameters that break a call down

A call is described, or it is refused with an error of the reports, or it breaks down: an error escapes from the
arithmetic on its parameters.  The sign of a parameter is checked, and whether a count is whole, but not what
the checks have nothing to say about.  So a call breaks down in these cases, and in no others
(`BreaksDown`, `Rule.Breaks`):

* an argument holds an integer of too many digits;
* an integer where a double is wanted is beyond the doubles, which is from `2 ^ 1024 - 2 ^ 970` on;
* the square of a positive deviation is rounded to zero, which is up to `2 ^ -1075`;
* a count is an infinity or not a number.

A scale is inverted as it is, so it never divides by zero.
-/

namespace TraceGraph

/-! ### Failing with a kind of error -/

section

variable {α β : Type} {kind : Error.Kind}

/-- The computation fails with an error of this kind. -/
def Fails (x : Except Error α) (kind : Error.Kind) : Prop := ∃ e, x = .error e ∧ e.kind = kind

theorem not_fails_ok {a : α} : ¬ Fails (.ok a) kind := by
  rintro ⟨e, he, -⟩
  cases he

theorem fails_error_iff {e : Error} : Fails (.error e : Except Error α) kind ↔ e.kind = kind := by
  constructor
  · rintro ⟨e', he', hkind⟩
    cases he'
    exact hkind
  · intro hkind
    exact ⟨e, rfl, hkind⟩

/-- Whether a computation fails with a kind of error is found by running it. -/
instance decidableFails (x : Except Error α) (kind : Error.Kind) : Decidable (Fails x kind) :=
  match x with
  | .ok _ => .isFalse not_fails_ok
  | .error e => decidable_of_iff (e.kind = kind) fails_error_iff.symm

theorem not_fails_of_reported (hkind : kind.reported = false) {e : Error} (he : e.kind.reported = true) :
    ¬ Fails (.error e : Except Error α) kind := by
  rw [fails_error_iff]
  rintro rfl
  rw [hkind] at he
  cases he

theorem fails_bind_iff {x : Except Error α} {f : α → Except Error β} :
    Fails (x >>= f) kind ↔ Fails x kind ∨ ∃ a, x = .ok a ∧ Fails (f a) kind := by
  simp only [Fails, bind_eq_error_iff]
  constructor
  · rintro ⟨e, h | ⟨a, ha, h⟩, hkind⟩
    · exact .inl ⟨e, h, hkind⟩
    · exact .inr ⟨a, ha, e, h, hkind⟩
  · rintro (⟨e, h, hkind⟩ | ⟨a, ha, e, h, hkind⟩)
    · exact ⟨e, .inl h, hkind⟩
    · exact ⟨e, .inr ⟨a, ha, h⟩, hkind⟩

theorem fails_bind_pure_iff {x : Except Error α} {f : α → β} :
    Fails (x >>= fun a => pure (f a)) kind ↔ Fails x kind := by
  rw [fails_bind_iff]
  constructor
  · rintro (h | ⟨a, -, h⟩)
    · exact h
    · exact absurd h not_fails_ok
  · exact .inl

/-- If the items can only fail in one way, then a list of them fails in that way if one of them does. -/
theorem fails_mapM_iff {f : α → Except Error β} {fault : Error} (hf : ∀ a e, f a = .error e → e = fault)
    {items : List α} : Fails (items.mapM f) kind ↔ ∃ a ∈ items, Fails (f a) kind := by
  constructor
  · rintro ⟨e, h, hkind⟩
    obtain ⟨item, hreaches, hitem⟩ := mapM_eq_error_iff.1 h
    exact ⟨item, hreaches.mem, e, hitem, hkind⟩
  · rintro ⟨a, ha, e, h, hkind⟩
    cases hresult : items.mapM f with
    | ok results =>
      obtain ⟨b, hb⟩ := exists_mapM_eq_ok_iff.1 ⟨results, hresult⟩ a ha
      cases hb.symm.trans h
    | error e' =>
      obtain ⟨item, -, hitem⟩ := mapM_eq_error_iff.1 hresult
      rw [fails_error_iff, hf item e' hitem, ← hf a e h, hkind]

end

/-! ### Integers without a text -/

section

open Decimal (FewDigits)

theorem Node.mem_integersOfAll {node : Node} {nodes : List Node} (hmem : node ∈ nodes) {n : Int}
    (hn : n ∈ node.integers) : n ∈ integersOfAll nodes := by
  induction nodes with
  | nil => cases hmem
  | cons first rest ih =>
    rw [integersOfAll, List.mem_append]
    rcases List.mem_cons.1 hmem with rfl | hmem
    · exact .inl hn
    · exact .inr (ih hmem)

/-- Well-formed arguments only fail to be written because of an integer. -/
theorem Node.Arguments.eq_tooManyDigits_of_javaAll {args : List Node} (hargs : Node.Arguments args)
    {e : Error} (h : Node.javaAll args = .error e) : e = .tooManyDigits := by
  have hcons {node : Node} {rest : List Node} {e : Error} (h : Node.javaAll (node :: rest) = .error e)
      (hnode : ∀ e, node.java = .error e → e = .tooManyDigits)
      (hrest : ∀ e, Node.javaAll rest = .error e → e = .tooManyDigits) : e = .tooManyDigits := by
    rcases bind_eq_error_iff.1 h with h | ⟨text, -, h⟩
    · exact hnode e h
    · exact hrest e (eq_error_of_bind_pure h)
  induction hargs generalizing e with
  | nil => cases h
  | var _ _ ih => exact hcons h (fun e h => by cases h) fun e h => ih h
  | raw _ _ ih => exact hcons h (fun e h => by cases h) fun e h => ih h
  | const value _ ih => exact hcons h (fun e h => Literal.eq_tooManyDigits_of_java h) fun e h => ih h
  | array _ _ ihElements ih =>
    exact hcons h (fun e h => ihElements (eq_error_of_bind_pure h)) fun e h => ih h

theorem fails_javaAll_iff {args : List Node} {kind : Error.Kind} (hargs : Node.Arguments args) :
    Fails (Node.javaAll args) kind ↔
      kind = .invalidNumber ∧ ∃ n ∈ Node.integersOfAll args, ¬ FewDigits n := by
  constructor
  · rintro ⟨e, h, rfl⟩
    refine ⟨congrArg Error.kind (hargs.eq_tooManyDigits_of_javaAll h), ?_⟩
    by_contra hdigits
    push Not at hdigits
    obtain ⟨texts, htexts⟩ := Node.exists_javaAll_of_fewDigits hargs hdigits
    cases htexts.symm.trans h
  · rintro ⟨rfl, n, hn, hlong⟩
    cases h : Node.javaAll args with
    | ok texts => exact absurd (Node.fewDigits_of_javaAll h n hn) hlong
    | error e => exact ⟨e, rfl, congrArg Error.kind (hargs.eq_tooManyDigits_of_javaAll h)⟩

end

namespace Factor

open Decimal (FewDigits Binary64 beyond dyadic)

/-! ### Numbers -/

/-- The parameters of a rule with which its arithmetic breaks down. -/
inductive Rule.Breaks : Rule → List Node → Error.Kind → Prop
  /-- One of two parameters is an integer beyond the doubles. -/
  | parameter {rule : Rule} {args : List Node} {n : Int} (hrule : rule = .normal ∨ rule = .gamma)
      (hlength : args.length = 2) (hmem : .const (.int n) ∈ args) (hn : beyond ≤ n.natAbs) :
      Breaks rule args .overflow
  /-- Both parameters are numbers, and the deviation is positive, but its square is rounded to zero. -/
  | deviation {first second : Node} {mean x : Float} {m : Nat} {e : Int}
      (hfirst : first.number? = .ok (some mean)) (hsecond : second.number? = .ok (some x))
      (hx : Binary64.ofFloat x = .finite false m e) (hm : 0 < m)
      (hsmall : dyadic m e ^ 2 ≤ 2 ^ (-1075 : Int)) :
      Breaks .normal [first, second] .divisionByZero
  /-- One of the weights is an integer beyond the doubles. -/
  | weight {elements : List Node} {n : Int} (hmem : .const (.int n) ∈ elements)
      (hn : beyond ≤ n.natAbs) : Breaks .categorical [.array elements] .overflow
  /-- The count is an integer beyond the doubles. -/
  | count {n : Int} (hn : beyond ≤ n.natAbs) : Breaks .uniformInteger [.const (.int n)] .overflow
  | infinite {x : Float} (hx : Binary64.ofFloat x = .infinite false) :
      Breaks .uniformInteger [.const (.float x)] .overflow
  | nan {x : Float} (hx : Binary64.ofFloat x = .nan) :
      Breaks .uniformInteger [.const (.float x)] .invalidNumber

section

variable {kind : Error.Kind} {draft : Draft}

theorem fails_number?_iff {node : Node} :
    Fails node.number? kind ↔
      kind = .overflow ∧ ∃ n : Int, node = .const (.int n) ∧ beyond ≤ n.natAbs := by
  constructor
  · rintro ⟨e, h, rfl⟩
    refine ⟨congrArg Error.kind (eq_outOfRange_of_number? h), ?_⟩
    unfold Node.number? at h
    split at h
    · next n =>
      split at h
      · cases h
      · next hnone => exact ⟨n, rfl, Decimal.ofInt?_eq_none_iff.1 hnone⟩
    · cases h
    · cases h
  · rintro ⟨rfl, n, rfl, hn⟩
    refine ⟨.outOfRange, ?_, rfl⟩
    rw [Node.number?, Decimal.ofInt?_eq_none_iff.2 hn]

theorem fails_mapM_number?_iff {nodes : List Node} :
    Fails (nodes.mapM Node.number?) kind ↔
      kind = .overflow ∧ ∃ n : Int, .const (.int n) ∈ nodes ∧ beyond ≤ n.natAbs := by
  rw [fails_mapM_iff fun _ _ => eq_outOfRange_of_number?]
  simp only [fails_number?_iff]
  constructor
  · rintro ⟨_, hmem, rfl, n, rfl, hn⟩
    exact ⟨rfl, n, hmem, hn⟩
  · rintro ⟨rfl, n, hmem, hn⟩
    exact ⟨_, hmem, rfl, n, rfl, hn⟩

theorem fails_reciprocal_iff {x : Float} :
    Fails (reciprocal x) kind ↔ kind = .divisionByZero ∧ (x == 0.0) = true := by
  unfold reciprocal
  split
  · next h =>
    rw [fails_error_iff]
    exact ⟨fun hkind => ⟨hkind.symm, h⟩, fun hboth => hboth.1.symm⟩
  · next h => exact iff_of_false not_fails_ok fun hboth => h hboth.2

theorem fails_wholeCount_iff (hkind : kind.reported = false) {primitive : String} {count : Float} :
    Fails (wholeCount primitive count) kind ↔
      kind = .invalidNumber ∧ Binary64.ofFloat count = .nan ∨
        kind = .overflow ∧ Binary64.ofFloat count = .infinite false := by
  have hpositive : ¬ Fails (.error (.countNotPositive primitive) : Except Error Nat) kind :=
    not_fails_of_reported hkind rfl
  unfold wholeCount
  cases Binary64.ofFloat count with
  | nan => simp [fails_error_iff, Error.kind, eq_comm]
  | infinite negative =>
    cases negative
    · simp [fails_error_iff, Error.kind, eq_comm]
    · simpa using hpositive
  | finite negative m e =>
    refine iff_of_false ?_ (by simp)
    dsimp only
    split
    · split
      · exact not_fails_ok
      · exact hpositive
    · exact hpositive

theorem Draft.not_fails_expectArity (hkind : kind.reported = false) {allowed : List Nat} :
    ¬ Fails (draft.expectArity allowed) kind := by
  unfold expectArity
  split
  · exact not_fails_ok
  · exact not_fails_of_reported hkind rfl

/-- Where a number of arguments is expected, a call only goes on with that many. -/
theorem Draft.fails_expectArity_bind_iff {α : Type} (hkind : kind.reported = false) {allowed : List Nat}
    {f : Unit → Except Error α} :
    Fails (draft.expectArity allowed >>= f) kind ↔ draft.args.length ∈ allowed ∧ Fails (f ()) kind := by
  rw [fails_bind_iff]
  constructor
  · rintro (h | ⟨u, hu, h⟩)
    · exact absurd h (not_fails_expectArity hkind)
    · exact ⟨expectArity_eq_ok_iff.1 hu, h⟩
  · rintro ⟨hlength, h⟩
    exact .inr ⟨(), expectArity_eq_ok_iff.2 hlength, h⟩

theorem Draft.fails_twoNumbers_iff (hkind : kind.reported = false) :
    Fails draft.twoNumbers kind ↔ draft.args.length = 2 ∧ kind = .overflow ∧
      ∃ n : Int, .const (.int n) ∈ draft.args ∧ beyond ≤ n.natAbs := by
  have hliteral : ¬ Fails (.error (.parametersNotLiteral draft.primitive) : Except Error (Float × Float))
    kind := not_fails_of_reported hkind rfl
  have hliteral' : ¬ Fails (.error (.parametersNotLiteral draft.primitive) : Except Error (List Float))
    kind := not_fails_of_reported hkind rfl
  unfold twoNumbers literalNumbers
  rw [fails_expectArity_bind_iff hkind, List.mem_singleton, fails_bind_iff, fails_bind_iff,
    fails_mapM_number?_iff]
  refine and_congr_right fun _ => ⟨?_, fun h => .inl (.inl h)⟩
  rintro ((h | ⟨numbers, -, h⟩) | ⟨values, -, h⟩)
  · exact h
  · split at h
    · exact absurd h not_fails_ok
    · exact absurd h hliteral'
  · split at h
    · exact absurd h not_fails_ok
    · exact absurd h hliteral

/-! ### Rules -/

theorem Rule.fails_normal_iff (hkind : kind.reported = false) :
    Fails (normalFill draft) kind ↔ Rule.normal.Breaks draft.args kind := by
  unfold normalFill
  rw [fails_bind_iff, Draft.fails_twoNumbers_iff hkind]
  constructor
  · rintro (⟨hlength, rfl, n, hmem, hn⟩ | ⟨⟨mean, x⟩, htwo, h⟩)
    · exact .parameter (.inl rfl) hlength hmem hn
    · dsimp only at h
      split at h
      · exact absurd h (not_fails_of_reported hkind rfl)
      · next hpositive =>
        obtain ⟨rfl, hzero⟩ := fails_reciprocal_iff.1 (fails_bind_pure_iff.1 h)
        obtain ⟨m, e, hx, hm, hsmall⟩ := Decimal.mul_self_beq_zero_iff.1 ⟨hpositive, hzero⟩
        obtain ⟨first, second, hargs, hfirst, hsecond⟩ := Draft.twoNumbers_eq_ok_iff.1 htwo
        rw [hargs]
        exact .deviation hfirst hsecond hx hm hsmall
  · generalize hargs : draft.args = args
    intro h
    cases h with
    | parameter _ hlength hmem hn => exact .inl ⟨hlength, rfl, _, hmem, hn⟩
    | @deviation first second mean x m e hfirst hsecond hx hm hsmall =>
      obtain ⟨hpositive, hzero⟩ := Decimal.mul_self_beq_zero_iff.2 ⟨m, e, hx, hm, hsmall⟩
      refine .inr ⟨(mean, x), Draft.twoNumbers_eq_ok_iff.2 ⟨first, second, hargs, hfirst, hsecond⟩, ?_⟩
      dsimp only
      rw [if_neg hpositive]
      exact fails_bind_pure_iff.2 (fails_reciprocal_iff.2 ⟨rfl, hzero⟩)

theorem Rule.fails_gamma_iff (hkind : kind.reported = false) :
    Fails (gammaFill draft) kind ↔ Rule.gamma.Breaks draft.args kind := by
  unfold gammaFill
  rw [fails_bind_iff, Draft.fails_twoNumbers_iff hkind]
  constructor
  · rintro (⟨hlength, rfl, n, hmem, hn⟩ | ⟨⟨shape, x⟩, -, h⟩)
    · exact .parameter (.inr rfl) hlength hmem hn
    · dsimp only at h
      split at h
      · exact absurd h (not_fails_of_reported hkind rfl)
      · next hpositive =>
        -- A positive scale is not zero.
        obtain ⟨-, hzero⟩ := fails_reciprocal_iff.1 (fails_bind_pure_iff.1 h)
        rw [Decimal.beq_zero_eq_false hpositive] at hzero
        cases hzero
  · intro h
    cases h with
    | parameter _ hlength hmem hn => exact .inl ⟨hlength, rfl, _, hmem, hn⟩

theorem Rule.fails_categorical_iff (hkind : kind.reported = false) :
    Fails (categoricalFill draft) kind ↔ Rule.categorical.Breaks draft.args kind := by
  unfold categoricalFill
  rw [Draft.fails_expectArity_bind_iff hkind]
  constructor
  · rintro ⟨-, h⟩
    split at h
    · exact absurd h (not_fails_of_reported hkind rfl)
    · next elements helements =>
      rcases fails_bind_iff.1 h with h | ⟨numbers, -, h⟩
      · obtain ⟨rfl, n, hmem, hn⟩ := fails_mapM_number?_iff.1 h
        rw [(Draft.elements?_eq_some_iff.1 helements).1]
        exact .weight hmem hn
      · split at h
        · exact absurd h (not_fails_of_reported hkind rfl)
        · exact absurd h not_fails_ok
  · generalize hargs : draft.args = args
    intro h
    cases h with
    | parameter hrule => rcases hrule with hrule | hrule <;> cases hrule
    | @weight elements n hmem hn =>
      have helements : draft.elements? = some elements := by
        rw [Draft.elements?, hargs]
        exact if_neg (by simpa using List.ne_nil_of_mem hmem)
      refine ⟨List.mem_singleton.2 rfl, ?_⟩
      rw [helements]
      exact fails_bind_iff.2 (.inl (fails_mapM_number?_iff.2 ⟨rfl, n, hmem, hn⟩))

/-- A number that a node stands for is written out as a double, or is an integer that is rounded to one. -/
theorem number?_cases {node : Node} {x : Float} (h : node.number? = .ok (some x)) :
    node = .const (.float x) ∨ ∃ n, node = .const (.int n) ∧ Decimal.ofInt? n = some x := by
  unfold Node.number? at h
  split at h
  · next n =>
    split at h
    · next hx =>
      cases h
      exact .inr ⟨n, rfl, hx⟩
    · cases h
  · cases h
    exact .inl rfl
  · cases h

theorem Rule.fails_uniformInteger_iff (hkind : kind.reported = false) :
    Fails (uniformIntegerFill draft) kind ↔ Rule.uniformInteger.Breaks draft.args kind := by
  unfold uniformIntegerFill
  rw [Draft.fails_expectArity_bind_iff hkind, List.mem_singleton]
  constructor
  · rintro ⟨hlength, h⟩
    obtain ⟨node, hargs⟩ := List.length_eq_one_iff.1 hlength
    rw [hargs] at h ⊢
    rcases fails_bind_iff.1 h with h | ⟨number, hnumber, h⟩
    · obtain ⟨rfl, n, hnode, hn⟩ := fails_number?_iff.1 h
      cases hnode
      exact .count hn
    · cases number with
      | none => exact absurd h (not_fails_of_reported hkind rfl)
      | some x =>
        have hcount := (fails_wholeCount_iff hkind).1 (fails_bind_pure_iff.1 h)
        rcases number?_cases hnumber with hnode | ⟨n, -, hx⟩
        · cases hnode
          rcases hcount with ⟨rfl, hx⟩ | ⟨rfl, hx⟩
          · exact .nan hx
          · exact .infinite hx
        · -- An integer that is rounded to a double is rounded to a finite one.
          obtain ⟨negative, m, e, hfinite⟩ := Decimal.ofFloat_of_ofInt? hx
          simp [hfinite] at hcount
  · generalize hargs : draft.args = args
    intro h
    cases h with
    | parameter hrule => rcases hrule with hrule | hrule <;> cases hrule
    | count hn =>
      exact ⟨rfl, fails_bind_iff.2 (.inl (fails_number?_iff.2 ⟨rfl, _, rfl, hn⟩))⟩
    | infinite hx =>
      refine ⟨rfl, fails_bind_iff.2 (.inr ⟨_, rfl, ?_⟩)⟩
      exact fails_bind_pure_iff.2 ((fails_wholeCount_iff hkind).2 (.inr ⟨rfl, hx⟩))
    | nan hx =>
      refine ⟨rfl, fails_bind_iff.2 (.inr ⟨_, rfl, ?_⟩)⟩
      exact fails_bind_pure_iff.2 ((fails_wholeCount_iff hkind).2 (.inl ⟨rfl, hx⟩))

/-- The literals that a draw is from have been written out before. -/
theorem Rule.not_fails_uniformDraw (hkind : kind.reported = false)
    (hdigits : ∀ n ∈ Node.integersOfAll draft.args, FewDigits n) :
    ¬ Fails (uniformDrawFill draft) kind := by
  unfold uniformDrawFill
  rw [Draft.fails_expectArity_bind_iff hkind]
  rintro ⟨-, h⟩
  split at h
  · exact not_fails_of_reported hkind rfl h
  · next elements helements =>
    split at h
    · exact not_fails_of_reported hkind rfl h
    · next values hvalues =>
      split at h
      · exact not_fails_of_reported hkind rfl h
      · obtain ⟨value, hvalue, e, hjava, -⟩ :=
          (fails_mapM_iff fun _ _ => Literal.eq_tooManyDigits_of_java).1 (fails_bind_pure_iff.1 h)
        obtain ⟨element, hmem, hliteral⟩ := exists_mem_of_forall₂ (mapM_eq_some_iff.1 hvalues) hvalue
        rw [Node.literal?_eq_some_iff] at hliteral
        subst hliteral
        rw [(Draft.elements?_eq_some_iff.1 helements).1] at hdigits
        obtain ⟨text, htext⟩ := Node.exists_literal_java_iff.2 fun n hn =>
          hdigits n (List.mem_append_left _ (Node.mem_integersOfAll hmem hn))
        cases htext.symm.trans hjava

theorem Rule.Breaks.mem {rule : Rule} {args : List Node} (h : rule.Breaks args kind) :
    rule ∈ [.normal, .gamma, .categorical, .uniformInteger] := by
  cases h with
  | parameter hrule => rcases hrule with rfl | rfl <;> decide
  | _ => decide

/-- **When a rule breaks down**, provided that its arguments have been written out. -/
theorem Rule.fails_fill_iff {rule : Rule} (hkind : kind.reported = false)
    (hdigits : ∀ n ∈ Node.integersOfAll draft.args, FewDigits n) :
    Fails (rule.fill draft) kind ↔ rule.Breaks draft.args kind := by
  cases rule with
  | normal => exact fails_normal_iff hkind
  | gamma => exact fails_gamma_iff hkind
  | categorical => exact fails_categorical_iff hkind
  | uniformInteger => exact fails_uniformInteger_iff hkind
  | bernoulli =>
    refine iff_of_false (fun h => ?_) fun h => absurd h.mem (by decide)
    obtain ⟨-, h⟩ := (Draft.fails_expectArity_bind_iff hkind).1 h
    split at h
    · exact not_fails_ok h
    · exact not_fails_ok h
  | beta | exponential =>
    refine iff_of_false (fun h => ?_) fun h => absurd h.mem (by decide)
    exact Draft.not_fails_expectArity hkind (fails_bind_pure_iff.1 h)
  | uniformDraw =>
    exact iff_of_false (not_fails_uniformDraw hkind hdigits) fun h => absurd h.mem (by decide)
  | function type factor arity =>
    refine iff_of_false (fun h => ?_) fun h => absurd h.mem (by simp)
    cases arity with
    | none => exact not_fails_ok h
    | some n => exact Draft.not_fails_expectArity hkind (fails_bind_pure_iff.1 h)

end

/-! ### Calls -/

/-- What a call breaks down with: one of its arguments holds an integer of too many digits, or else the rule
of its primitive breaks down. -/
inductive BreaksDown (settings : Settings) (callee : String) (args : List Node) : Error.Kind → Prop
  | digits {primitive : String} {handed : List Node} {n : Int}
      (hunwrap : unwrap settings callee args = .ok (primitive, handed))
      (hmem : n ∈ Node.integersOfAll handed) (hn : ¬ FewDigits n) :
      BreaksDown settings callee args .invalidNumber
  | rule {primitive : String} {handed : List Node} {names : List String} {rule : Rule} {kind : Error.Kind}
      (hunwrap : unwrap settings callee args = .ok (primitive, handed))
      (hdigits : ∀ n ∈ Node.integersOfAll handed, FewDigits n) (hrule : (names, rule) ∈ builtins)
      (hname : bareName primitive ∈ names) (hbreaks : rule.Breaks handed kind) :
      BreaksDown settings callee args kind

/-- A name is that of one rule only. -/
theorem rule_unique : ∀ entry ∈ builtins, ∀ entry' ∈ builtins, ∀ name ∈ entry.1, name ∈ entry'.1 →
    entry.2 = entry'.2 := by
  decide +kernel

/-- The registry has the rule of a bare name. -/
theorem exists_find?_of_bareName {primitive : String} {names : List String} {rule : Rule}
    (hrule : (names, rule) ∈ builtins) (hname : bareName primitive ∈ names) :
    ∃ producer, Registry.builtin.find? primitive = some producer ∧ producer.fill = rule.fill := by
  have hcallee : primitive = bareName primitive ∨ primitive = wrap (bareName primitive) := by
    cases hunwrap : unwrapName? primitive with
    | none => exact .inl (by rw [bareName, hunwrap]; rfl)
    | some name =>
      refine .inr ?_
      rw [bareName, hunwrap]
      exact unwrapName?_eq_some_iff.1 hunwrap
  obtain ⟨names', rule', producer, hfind, hrule', hname', hfill⟩ :=
    exists_rule_of_mem_builtinNames (List.mem_flatMap.2 ⟨_, hrule, hname⟩) hcallee
  obtain rfl := rule_unique _ hrule _ hrule' _ hname hname'
  exact ⟨producer, hfind, hfill⟩

section

variable {settings : Settings} {output callee : String} {args : List Node} {kind : Error.Kind}

/-- What is handed on to a primitive is well-formed if the arguments are. -/
theorem arguments_of_unwrap (hargs : Node.Arguments args) {primitive : String} {handed : List Node}
    (h : unwrap settings callee args = .ok (primitive, handed)) : Node.Arguments handed := by
  rcases unwrap_eq_ok h with ⟨-, rfl⟩ | ⟨elements, others, rfl, rfl⟩
  · exact hargs
  · cases hargs with
    | const _ hrest =>
      cases hrest with
      | array helements _ =>
        rw [Node.arguments_iff_forall] at helements ⊢
        exact fun arg harg => helements arg (List.dropLast_subset _ harg)

theorem not_fails_unwrap (hkind : kind.reported = false) :
    ¬ Fails (unwrap settings callee args) kind := by
  unfold unwrap
  split
  · exact not_fails_ok
  · split
    · split
      · split
        · exact not_fails_of_reported hkind rfl
        · split
          · exact not_fails_ok
          · exact not_fails_of_reported hkind rfl
      · exact not_fails_of_reported hkind rfl
    · exact not_fails_of_reported hkind rfl

theorem Draft.not_fails_complete (hkind : kind.reported = false) {draft : Draft} :
    ¬ Fails draft.complete kind := by
  unfold complete
  split
  · exact not_fails_of_reported hkind rfl
  · split
    · exact not_fails_of_reported hkind rfl
    · split
      · exact not_fails_of_reported hkind rfl
      · exact not_fails_of_reported hkind rfl
      · exact not_fails_ok

/-- A call that is not drafted has an argument that cannot be written out. -/
theorem fails_draft_iff (hargs : Node.Arguments args) (hkind : kind.reported = false) :
    Fails (draft settings output callee args) kind ↔ ∃ primitive handed,
      unwrap settings callee args = .ok (primitive, handed) ∧ kind = .invalidNumber ∧
        ∃ n ∈ Node.integersOfAll handed, ¬ FewDigits n := by
  unfold draft Draft.ofCall
  rw [fails_bind_iff]
  constructor
  · rintro (h | ⟨⟨primitive, handed⟩, hunwrap, h⟩)
    · exact absurd h (not_fails_unwrap hkind)
    · exact ⟨primitive, handed, hunwrap,
        (fails_javaAll_iff (arguments_of_unwrap hargs hunwrap)).1 (fails_bind_pure_iff.1 h)⟩
  · rintro ⟨primitive, handed, hunwrap, h⟩
    exact .inr ⟨_, hunwrap,
      fails_bind_pure_iff.2 ((fails_javaAll_iff (arguments_of_unwrap hargs hunwrap)).2 h)⟩

/-- A call breaks down where it is drafted, or where its producer fills the draft in. -/
theorem fails_describe_iff (hkind : kind.reported = false) {find : String → Option Producer} :
    Fails (describe settings find output callee args).result kind ↔
      Fails (draft settings output callee args) kind ∨
        ∃ first producer, draft settings output callee args = .ok first ∧
          find first.primitive = some producer ∧ Fails (producer.fill first) kind := by
  cases hdraft : draft settings output callee args with
  | error e =>
    have hresult : (describe settings find output callee args).result = .error e := by
      rw [describe, hdraft]
      rfl
    rw [hresult, fails_error_iff, fails_error_iff]
    simp
  | ok first =>
    simp only [not_fails_ok, false_or, Except.ok.injEq, exists_and_left, exists_eq_left']
    cases hfind : find first.primitive with
    | none =>
      have hresult : (describe settings find output callee args).result =
          .error (.unknownPrimitive first.primitive) := by
        rw [describe, hdraft]
        simp only [hfind]
        rfl
      rw [hresult]
      exact iff_of_false (not_fails_of_reported hkind rfl) (by simp)
    | some producer =>
      have hresult : (describe settings find output callee args).result = producer.describe first := by
        rw [describe, hdraft]
        simp only [hfind]
        cases producer.describe first <;> rfl
      rw [hresult, Producer.describe, fails_bind_iff]
      constructor
      · rintro (h | ⟨filled, -, h⟩)
        · exact ⟨producer, rfl, h⟩
        · exact absurd h (Draft.not_fails_complete hkind)
      · rintro ⟨_, heq, h⟩
        cases heq
        exact .inl h

theorem BreaksDown.not_reported (h : BreaksDown settings callee args kind) : kind.reported = false := by
  cases h with
  | digits => rfl
  | rule _ _ _ _ hbreaks => cases hbreaks <;> rfl

theorem breaksDown_iff_fails (hargs : Node.Arguments args) (hkind : kind.reported = false) :
    BreaksDown settings callee args kind ↔
      Fails (describe settings Registry.builtin.find? output callee args).result kind := by
  rw [fails_describe_iff hkind, fails_draft_iff hargs hkind]
  constructor
  · intro h
    cases h with
    | digits hunwrap hmem hn => exact .inl ⟨_, _, hunwrap, rfl, _, hmem, hn⟩
    | @rule primitive handed names rule _ hunwrap hdigits hrule hname hbreaks =>
      obtain ⟨rendered, hrendered⟩ :=
        Node.exists_javaAll_of_fewDigits (arguments_of_unwrap hargs hunwrap) hdigits
      have hdraft : draft settings output callee args =
          .ok { output, primitive, args := handed, rendered } := by
        rw [draft, hunwrap]
        change Draft.ofCall output primitive handed = _
        rw [Draft.ofCall, hrendered]
        rfl
      obtain ⟨producer, hfind, hfill⟩ := exists_find?_of_bareName hrule hname
      refine .inr ⟨_, producer, hdraft, hfind, ?_⟩
      rw [hfill]
      exact (Rule.fails_fill_iff hkind hdigits).2 hbreaks
  · rintro (⟨primitive, handed, hunwrap, rfl, n, hmem, hn⟩ | ⟨first, producer, hdraft, hfind, h⟩)
    · exact .digits hunwrap hmem hn
    · obtain ⟨-, hunwrap, hrendered, -⟩ := draft_eq_ok hdraft
      obtain ⟨names, rule, hrule, hname, hfill⟩ := exists_rule_of_find? hfind
      have hdigits := Node.fewDigits_of_javaAll hrendered
      rw [hfill, Rule.fails_fill_iff hkind hdigits] at h
      exact .rule hunwrap hdigits hrule hname h

/-- **When a call breaks down.**  A call with well-formed arguments is described, or is refused with an error of
the reports, if and only if nothing breaks it down: no argument holds an integer of too many digits, no integer
among the parameters of a normal or a gamma variable, among the weights of a draw or as a count is beyond the
doubles, no count is an infinity or not a number, and no positive deviation has a square that is rounded to zero.
What breaks it down is also the kind of the error. -/
theorem described_or_reported_iff (hargs : Node.Arguments args) :
    ((∃ d, (describe settings Registry.builtin.find? output callee args).result = .ok d) ∨
        (∃ e, (describe settings Registry.builtin.find? output callee args).result = .error e ∧
          e.kind.reported = true) ↔
      ∀ kind, ¬ BreaksDown settings callee args kind) ∧
    ∀ kind, BreaksDown settings callee args kind ↔ kind.reported = false ∧
      ∃ e, (describe settings Registry.builtin.find? output callee args).result = .error e ∧
        e.kind = kind := by
  have hkinds : ∀ kind, BreaksDown settings callee args kind ↔ kind.reported = false ∧
      Fails (describe settings Registry.builtin.find? output callee args).result kind := by
    intro kind
    constructor
    · intro h
      exact ⟨h.not_reported, (breaksDown_iff_fails hargs h.not_reported).1 h⟩
    · rintro ⟨hkind, h⟩
      exact (breaksDown_iff_fails hargs hkind).2 h
  refine ⟨?_, hkinds⟩
  simp only [hkinds]
  cases (describe settings Registry.builtin.find? output callee args).result with
  | ok d => simp [not_fails_ok]
  | error e =>
    simp only [fails_error_iff, reduceCtorEq, exists_false, false_or, Except.error.injEq,
      exists_eq_left', not_and]
    constructor
    · rintro hreported kind hkind rfl
      rw [hkind] at hreported
      cases hreported
    · intro h
      by_contra hreported
      exact h _ (Bool.eq_false_iff.2 hreported) rfl

end

/-- A deviation of one half is fine, and one of `10 ^ -200` breaks the call down. -/
theorem described_or_reported_iff_deviation :
    let args (x : Float) : List Node := [.const (.int 0), .const (.float x)]
    (∀ x, Node.Arguments (args x)) ∧
      (∃ d, (describe {} Registry.builtin.find? "x" "gaussian" (args 0.5)).result = .ok d) ∧
      (∀ kind, ¬ BreaksDown {} "gaussian" (args 0.5) kind) ∧
      Fails (describe {} Registry.builtin.find? "x" "gaussian" (args 1e-200)).result .divisionByZero ∧
      BreaksDown {} "gaussian" (args 1e-200) .divisionByZero := by
  intro args
  have hargs : ∀ x, Node.Arguments (args x) := fun x => .const _ (.const _ .nil)
  obtain ⟨d, hd, -⟩ := exists_eq_ok_of_toOption_map
    (show (describe {} Registry.builtin.find? "x" "gaussian" (args 0.5)).result.toOption.map
      Descriptor.factorArgs = some ["0.0", "4.0"] by decide +kernel)
  have hfails : Fails (describe {} Registry.builtin.find? "x" "gaussian" (args 1e-200)).result
    .divisionByZero := by decide +kernel
  exact ⟨hargs, ⟨d, hd⟩, (described_or_reported_iff (hargs 0.5)).1.1 (.inl ⟨d, hd⟩), hfails,
    ((described_or_reported_iff (hargs 1e-200)).2 _).2 ⟨rfl, hfails⟩⟩

/-- Errors that are not among the reports escape where a square vanishes, an integer is beyond the doubles, or a
count is not finite. -/
theorem fails_at_the_limits :
    let normal (x : Node) := (describe {} Registry.builtin.find? "x" "gaussian" [.const (.int 0), x]).result
    let count (x : Float) := (describe {} Registry.builtin.find? "x" "randomInteger" [.const (.float x)]).result
    Fails (normal (.const (.float 1e-200))) .divisionByZero ∧
      Fails (normal (.const (.int (10 ^ 400)))) .overflow ∧
      Fails (count (1.0 / 0.0)) .overflow ∧ Fails (count (0.0 / 0.0)) .invalidNumber ∧
      ∀ kind ∈ [Error.Kind.divisionByZero, .overflow, .invalidNumber], kind.reported = false := by
  decide +kernel

end Factor

end TraceGraph
