import TraceGraph.Factor.Builtin
import TraceGraph.Proofs.Outcome

/-!
# What the rules of the built-in primitives give

A rule checks the arguments of a draft and fills the draft in.  `Rule.Gives` lists the ways in which that
can succeed: which arguments a rule takes, and what it makes of a draft that has them.  A rule fills a
draft in exactly as listed (`fill_eq_ok_iff`), so what holds of every description of a built-in primitive is
shown by going through the list, and no rule has to be opened for it.
-/

namespace TraceGraph

theorem Node.literal?_eq_some_iff {node : Node} {value : Literal} :
    node.literal? = some value ↔ node = .const value := by
  cases node with
  | const other => simp [literal?]
  | _ => simp [literal?]

/-- A literal has no Java text only if it is an integer of too many digits. -/
theorem Literal.eq_tooManyDigits_of_java {value : Literal} {e : Error} (h : value.java = .error e) :
    e = .tooManyDigits := by
  unfold java at h
  split at h
  · cases h
  · cases h
  · split at h
    · cases h
    · cases h
      rfl
  · cases h
  · cases h

namespace Factor

/-! ### Checks -/

/-- A node has no number only if it is an integer beyond the doubles. -/
theorem eq_outOfRange_of_number? {node : Node} {e : Error} (h : node.number? = .error e) :
    e = .outOfRange := by
  unfold Node.number? at h
  split at h
  · split at h
    · cases h
    · cases h
      rfl
  · cases h
  · cases h

/-- Numbers that are all there are those of the nodes, one by one. -/
theorem exists_numbers_iff {nodes : List Node} {values : List Float} :
    (∃ numbers, nodes.mapM Node.number? = .ok numbers ∧ numbers.mapM id = some values) ↔
      List.Forall₂ (fun node value => node.number? = .ok (some value)) nodes values := by
  constructor
  · rintro ⟨numbers, hnumbers, hvalues⟩
    rw [mapM_eq_ok_iff] at hnumbers
    rw [mapM_eq_some_iff] at hvalues
    induction hnumbers generalizing values with
    | nil =>
      cases hvalues
      exact .nil
    | cons hfirst _ ih =>
      cases hvalues with
      | cons hvalue hrest => exact .cons (hfirst.trans (congrArg _ hvalue)) (ih hrest)
  · intro h
    refine ⟨values.map some, mapM_eq_ok_iff.2 (List.forall₂_map_right_iff.2 h), ?_⟩
    exact mapM_eq_some_iff.2 (List.forall₂_map_left_iff.2 (List.forall₂_same.2 fun _ _ => rfl))

theorem reciprocal_eq_ok_iff {x y : Float} :
    reciprocal x = .ok y ↔ (x == 0.0) = false ∧ y = 1.0 / x := by
  unfold reciprocal
  split
  · next h => simp [h]
  · next h => simp [Bool.eq_false_iff.2 h, eq_comm]

/-- A number is a count if it is a positive whole number. -/
theorem wholeCount_eq_ok_iff {primitive : String} {count : Float} {n : Nat} :
    wholeCount primitive count = .ok n ↔
      0 < n ∧ (Decimal.Binary64.ofFloat count).toInt? = some (n : Int) := by
  unfold wholeCount
  cases Decimal.Binary64.ofFloat count with
  | nan => simp [Decimal.Binary64.toInt?]
  | infinite negative => simp [Decimal.Binary64.toInt?]
  | finite negative mantissa exponent =>
    dsimp only
    cases hwhole : (Decimal.Binary64.finite negative mantissa exponent).toInt? with
    | none => simp
    | some m =>
      dsimp only
      split
      · rw [Except.ok.injEq, Option.some.injEq]
        omega
      · simp only [reduceCtorEq, Option.some.injEq, false_iff]
        omega

namespace Draft

variable {draft : Draft}

theorem expectArity_eq_ok_iff {allowed : List Nat} {u : Unit} :
    draft.expectArity allowed = .ok u ↔ draft.args.length ∈ allowed := by
  unfold expectArity
  split
  · next h => simpa using h
  · next h => simpa using h

theorem literalNumbers_eq_ok_iff {values : List Float} :
    draft.literalNumbers = .ok values ↔
      List.Forall₂ (fun node value => node.number? = .ok (some value)) draft.args values := by
  rw [literalNumbers, bind_eq_ok_iff, ← exists_numbers_iff]
  refine exists_congr fun numbers => and_congr_right fun _ => ?_
  split
  · next h => simp [h]
  · next h => simp [h]

theorem twoNumbers_eq_ok_iff {x y : Float} :
    draft.twoNumbers = .ok (x, y) ↔ ∃ first second : Node, draft.args = [first, second] ∧
      first.number? = .ok (some x) ∧ second.number? = .ok (some y) := by
  unfold twoNumbers
  simp only [bind_eq_ok_iff, literalNumbers_eq_ok_iff, expectArity_eq_ok_iff, List.mem_singleton]
  constructor
  · rintro ⟨u, hlength, values, hvalues, h⟩
    obtain ⟨first, second, hargs⟩ := List.length_eq_two.1 hlength
    rw [hargs] at hvalues
    rcases hvalues with _ | ⟨hfirst, _ | ⟨hsecond, _ | _⟩⟩
    cases h
    exact ⟨first, second, hargs, hfirst, hsecond⟩
  · rintro ⟨first, second, hargs, hfirst, hsecond⟩
    rw [hargs]
    exact ⟨(), rfl, [x, y], .cons hfirst (.cons hsecond .nil), rfl⟩

theorem elements?_eq_some_iff {elements : List Node} :
    draft.elements? = some elements ↔ draft.args = [.array elements] ∧ elements ≠ [] := by
  unfold elements?
  split
  · next others hargs =>
    rw [hargs]
    split
    · next hempty =>
      have hnil : others = [] := List.isEmpty_iff.1 hempty
      simp only [reduceCtorEq, List.cons.injEq, Node.array.injEq, and_true, ne_eq, false_iff, not_and,
        not_not]
      exact fun heq => heq ▸ hnil
    · next hempty =>
      simp only [Option.some.injEq, List.cons.injEq, Node.array.injEq, and_true, iff_self_and]
      rintro rfl rfl
      exact hempty rfl
  · next hother =>
    simp only [reduceCtorEq, false_iff, not_and]
    exact fun hargs => absurd hargs (hother elements)

end Draft

/-! ### Rules -/

namespace Rule

/-- What a rule makes of a draft where it does not fail, with the arguments that it takes. -/
inductive Gives (draft : Draft) : Rule → Draft → Prop
  | half (hargs : draft.args = []) :
      Gives draft .bernoulli
        { draft.choose .bit "Bernoulli" with factorArgs := some [Decimal.text 0.5] }
  | bernoulli {probability : Node} (hargs : draft.args = [probability]) :
      Gives draft .bernoulli (draft.parameterized .bit "Bernoulli")
  | normal {first second : Node} {mean deviation : Float} (hargs : draft.args = [first, second])
      (hfirst : first.number? = .ok (some mean)) (hsecond : second.number? = .ok (some deviation))
      (hpositive : ¬ deviation ≤ 0.0) (hsquare : (deviation * deviation == 0.0) = false) :
      Gives draft .normal { draft.choose .real "Normal" with
        factorArgs := some [Decimal.text mean, Decimal.text (1.0 / (deviation * deviation))] }
  | beta {first second : Node} (hargs : draft.args = [first, second]) :
      Gives draft .beta (draft.parameterized .real "Beta")
  | gamma {first second : Node} {shape scale : Float} (hargs : draft.args = [first, second])
      (hfirst : first.number? = .ok (some shape)) (hsecond : second.number? = .ok (some scale))
      (hpositive : ¬ scale ≤ 0.0) (hscale : (scale == 0.0) = false) :
      Gives draft .gamma { draft.choose .real "Gamma" with
        factorArgs := some [Decimal.text shape, Decimal.text (1.0 / scale)] }
  | exponential {rate : Node} (hargs : draft.args = [rate]) :
      Gives draft .exponential (draft.parameterized .real "Exponential")
  | categorical {elements : List Node} {weights : List Float}
      (hargs : draft.args = [.array elements]) (hempty : elements ≠ [])
      (hweights : List.Forall₂ (fun node weight => node.number? = .ok (some weight)) elements weights) :
      Gives draft .categorical (draft.draw (indices weights.length) weights)
  | uniformInteger {node : Node} {count : Float} {n : Nat} (hargs : draft.args = [node])
      (hcount : node.number? = .ok (some count)) (hpositive : 0 < n)
      (hwhole : (Decimal.Binary64.ofFloat count).toInt? = some (n : Int)) :
      Gives draft .uniformInteger (draft.draw (indices n) (List.replicate n (1.0 / count)))
  | uniformDraw {elements : List Node} {values : List Literal} {texts : List String}
      (hargs : draft.args = [.array elements]) (hempty : elements ≠ [])
      (hvalues : elements.mapM Node.literal? = some values) (hnull : values.contains .null = false)
      (htexts : values.mapM Literal.java = .ok texts) :
      Gives draft .uniformDraw
        (draft.draw texts (List.replicate values.length (1.0 / Float.ofNat values.length)))
  | function {type : VariableType} {factor : String} {arity : Option Nat}
      (harity : ∀ n ∈ arity, draft.args.length = n) :
      Gives draft (.function type factor arity)
        { draft.choose type factor with inputs := some draft.rendered }

variable {draft filled : Draft}

theorem bernoulliFill_eq_ok_iff : bernoulliFill draft = .ok filled ↔ bernoulli.Gives draft filled := by
  unfold bernoulliFill
  simp only [bind_eq_ok_iff, Draft.expectArity_eq_ok_iff]
  constructor
  · rintro ⟨-, harity, h⟩
    split at h
    · next hempty =>
      cases h
      exact .half (List.isEmpty_iff.1 hempty)
    · next hempty =>
      cases h
      have hlength : draft.args.length = 1 := by
        rw [List.isEmpty_iff, ← List.length_eq_zero_iff] at hempty
        simp only [List.mem_cons, List.not_mem_nil, or_false] at harity
        omega
      obtain ⟨probability, hargs⟩ := List.length_eq_one_iff.1 hlength
      exact .bernoulli hargs
  · intro h
    cases h with
    | half hargs => exact ⟨(), by simp [hargs], by simp [hargs, pure, Except.pure]⟩
    | bernoulli hargs => exact ⟨(), by simp [hargs], by simp [hargs, pure, Except.pure]⟩

theorem normalFill_eq_ok_iff : normalFill draft = .ok filled ↔ normal.Gives draft filled := by
  unfold normalFill
  rw [bind_eq_ok_iff]
  constructor
  · rintro ⟨⟨mean, deviation⟩, htwo, h⟩
    obtain ⟨first, second, hargs, hfirst, hsecond⟩ := Draft.twoNumbers_eq_ok_iff.1 htwo
    dsimp only at h
    split at h
    · cases h
    · next hpositive =>
      obtain ⟨precision, hprecision, h⟩ := bind_eq_ok_iff.1 h
      obtain ⟨hsquare, rfl⟩ := reciprocal_eq_ok_iff.1 hprecision
      cases h
      exact .normal hargs hfirst hsecond hpositive hsquare
  · intro h
    cases h with
    | normal hargs hfirst hsecond hpositive hsquare =>
      refine ⟨_, Draft.twoNumbers_eq_ok_iff.2 ⟨_, _, hargs, hfirst, hsecond⟩, ?_⟩
      dsimp only
      rw [if_neg hpositive]
      exact bind_eq_ok_iff.2 ⟨_, reciprocal_eq_ok_iff.2 ⟨hsquare, rfl⟩, rfl⟩

theorem gammaFill_eq_ok_iff : gammaFill draft = .ok filled ↔ gamma.Gives draft filled := by
  unfold gammaFill
  rw [bind_eq_ok_iff]
  constructor
  · rintro ⟨⟨shape, scale⟩, htwo, h⟩
    obtain ⟨first, second, hargs, hfirst, hsecond⟩ := Draft.twoNumbers_eq_ok_iff.1 htwo
    dsimp only at h
    split at h
    · cases h
    · next hpositive =>
      obtain ⟨rate, hrate, h⟩ := bind_eq_ok_iff.1 h
      obtain ⟨hscale, rfl⟩ := reciprocal_eq_ok_iff.1 hrate
      cases h
      exact .gamma hargs hfirst hsecond hpositive hscale
  · intro h
    cases h with
    | gamma hargs hfirst hsecond hpositive hscale =>
      refine ⟨_, Draft.twoNumbers_eq_ok_iff.2 ⟨_, _, hargs, hfirst, hsecond⟩, ?_⟩
      dsimp only
      rw [if_neg hpositive]
      exact bind_eq_ok_iff.2 ⟨_, reciprocal_eq_ok_iff.2 ⟨hscale, rfl⟩, rfl⟩

theorem categoricalFill_eq_ok_iff :
    categoricalFill draft = .ok filled ↔ categorical.Gives draft filled := by
  unfold categoricalFill
  simp only [bind_eq_ok_iff, Draft.expectArity_eq_ok_iff]
  constructor
  · rintro ⟨-, -, h⟩
    split at h
    · cases h
    · next elements helements =>
      obtain ⟨hargs, hempty⟩ := Draft.elements?_eq_some_iff.1 helements
      obtain ⟨numbers, hnumbers, h⟩ := bind_eq_ok_iff.1 h
      split at h
      · cases h
      · next weights hweights =>
        cases h
        exact .categorical hargs hempty (exists_numbers_iff.1 ⟨numbers, hnumbers, hweights⟩)
  · intro h
    cases h with
    | categorical hargs hempty hweights =>
      obtain ⟨numbers, hnumbers, hweights⟩ := exists_numbers_iff.2 hweights
      refine ⟨(), by simp [hargs], ?_⟩
      rw [Draft.elements?_eq_some_iff.2 ⟨hargs, hempty⟩]
      exact bind_eq_ok_iff.2 ⟨numbers, hnumbers, by rw [hweights]⟩

theorem uniformIntegerFill_eq_ok_iff :
    uniformIntegerFill draft = .ok filled ↔ uniformInteger.Gives draft filled := by
  unfold uniformIntegerFill
  simp only [bind_eq_ok_iff, Draft.expectArity_eq_ok_iff, List.mem_singleton]
  constructor
  · rintro ⟨-, hlength, number, hnumber, h⟩
    obtain ⟨node, hargs⟩ := List.length_eq_one_iff.1 hlength
    rw [hargs] at hnumber
    cases number with
    | none => cases h
    | some count =>
      obtain ⟨n, hn, h⟩ := bind_eq_ok_iff.1 h
      obtain ⟨hpositive, hwhole⟩ := wholeCount_eq_ok_iff.1 hn
      cases h
      exact .uniformInteger hargs hnumber hpositive hwhole
  · intro h
    cases h with
    | uniformInteger hargs hcount hpositive hwhole =>
      rw [hargs]
      exact ⟨(), rfl, _, hcount,
        bind_eq_ok_iff.2 ⟨_, wholeCount_eq_ok_iff.2 ⟨hpositive, hwhole⟩, rfl⟩⟩

theorem uniformDrawFill_eq_ok_iff :
    uniformDrawFill draft = .ok filled ↔ uniformDraw.Gives draft filled := by
  unfold uniformDrawFill
  simp only [bind_eq_ok_iff, Draft.expectArity_eq_ok_iff]
  constructor
  · rintro ⟨-, -, h⟩
    split at h
    · cases h
    · next elements helements =>
      obtain ⟨hargs, hempty⟩ := Draft.elements?_eq_some_iff.1 helements
      split at h
      · cases h
      · next values hvalues =>
        split at h
        · cases h
        · next hnull =>
          obtain ⟨texts, htexts, h⟩ := bind_eq_ok_iff.1 h
          cases h
          exact .uniformDraw hargs hempty hvalues (Bool.eq_false_iff.2 hnull) htexts
  · intro h
    cases h with
    | uniformDraw hargs hempty hvalues hnull htexts =>
      refine ⟨(), by simp [hargs], ?_⟩
      rw [Draft.elements?_eq_some_iff.2 ⟨hargs, hempty⟩]
      dsimp only
      rw [hvalues]
      dsimp only
      rw [if_neg (Bool.eq_false_iff.1 hnull)]
      exact bind_eq_ok_iff.2 ⟨_, htexts, rfl⟩

/-- **A rule fills a draft in exactly as listed.** -/
theorem fill_eq_ok_iff {rule : Rule} : rule.fill draft = .ok filled ↔ rule.Gives draft filled := by
  cases rule with
  | bernoulli => exact bernoulliFill_eq_ok_iff
  | normal => exact normalFill_eq_ok_iff
  | gamma => exact gammaFill_eq_ok_iff
  | categorical => exact categoricalFill_eq_ok_iff
  | uniformInteger => exact uniformIntegerFill_eq_ok_iff
  | uniformDraw => exact uniformDrawFill_eq_ok_iff
  | beta =>
    simp only [fill, bind_eq_ok_iff, Draft.expectArity_eq_ok_iff, List.mem_singleton]
    constructor
    · rintro ⟨-, hlength, h⟩
      cases h
      obtain ⟨first, second, hargs⟩ := List.length_eq_two.1 hlength
      exact .beta hargs
    · intro h
      cases h with
      | beta hargs => exact ⟨(), by rw [hargs]; rfl, rfl⟩
  | exponential =>
    simp only [fill, bind_eq_ok_iff, Draft.expectArity_eq_ok_iff, List.mem_singleton]
    constructor
    · rintro ⟨-, hlength, h⟩
      cases h
      obtain ⟨rate, hargs⟩ := List.length_eq_one_iff.1 hlength
      exact .exponential hargs
    · intro h
      cases h with
      | exponential hargs => exact ⟨(), by rw [hargs]; rfl, rfl⟩
  | function type factor arity =>
    cases arity with
    | none =>
      constructor
      · intro h
        cases h
        exact .function (by simp)
      · intro h
        cases h
        rfl
    | some n =>
      simp only [fill, bind_eq_ok_iff, Draft.expectArity_eq_ok_iff, List.mem_singleton]
      constructor
      · rintro ⟨-, hlength, h⟩
        cases h
        exact .function (by simpa using hlength)
      · intro h
        cases h with
        | function harity => exact ⟨(), harity n rfl, rfl⟩

end Rule

end Factor

end TraceGraph
