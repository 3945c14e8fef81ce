import TraceGraph.Decimal.Shortest
import TraceGraph.Proofs.Rounding

/-!
# The shortest decimal of a double

The decimal that a double is written with is rounded to the double when it is read (`rounds_shortest`).  It is
looked for on the grids of one, two, … up to seventeen digits, and it is found: on the last of these grids,
one step is less than the interval of the numbers that are rounded to the double (`exists_nearest?`), since
`2 ^ 53 < 10 ^ 16`.
-/

namespace TraceGraph.Decimal

/-- How far a number below `m · 2 ^ e` may be from it to be rounded to it: half a step, or a quarter where the
doubles get denser. -/
def reach (m : Nat) (e : Int) : ℚ := if m = 2 ^ 52 ∧ -1074 < e then 2 ^ (e - 2) else 2 ^ (e - 1)

/-- The number is rounded to the double `m · 2 ^ e`.  Halfway between two doubles it is rounded to the one with
the even mantissa. -/
structure Rounds (v : ℚ) (m : Nat) (e : Int) : Prop where
  low : dyadic m e - reach m e ≤ v
  high : v ≤ dyadic m e + 2 ^ (e - 1)
  inside : m % 2 = 1 → dyadic m e - reach m e < v ∧ v < dyadic m e + 2 ^ (e - 1)

/-! ### Powers of ten -/

theorem ten_zpow_add (a b : Int) : (10 : ℚ) ^ (a + b) = 10 ^ a * 10 ^ b := zpow_add₀ (by norm_num) a b

/-- An exponent is the difference of its positive and its negative part. -/
theorem pow_toNat {b : ℚ} (hb : b ≠ 0) (p : Int) : b ^ p.toNat = b ^ p * b ^ (-p).toNat := by
  rw [← zpow_natCast, ← zpow_natCast, ← zpow_add₀ hb]
  congr 1
  omega

theorem lt_pow_digitCount (n : Nat) : n < 10 ^ digitCount n :=
  (Nat.length_toDigits_le_iff (by decide) Nat.length_toDigits_pos).1 le_rfl

theorem pow_digitCount_le {n : Nat} (hn : 0 < n) : 10 ^ (digitCount n - 1) ≤ n := by
  by_contra hlt
  rw [not_le] at hlt
  by_cases hone : digitCount n - 1 = 0
  · rw [hone, Nat.pow_zero] at hlt
    omega
  · have hle := (Nat.length_toDigits_le_iff (by decide) (Nat.pos_of_ne_zero hone)).2 hlt
    unfold digitCount at hone hle
    omega

/-- The magnitude of a quotient is that of a number which is not larger. -/
theorem zpow_magnitude_le {num den : Nat} (hnum : 0 < num) (hden : 0 < den) :
    (10 : ℚ) ^ (magnitude num den - 1) * den ≤ num := by
  unfold magnitude
  split
  · next hle =>
    have hquotient : 0 < num / den := Nat.div_pos hle hden
    have hdigits : digitCount (num / den) = digitCount (num / den) - 1 + 1 := by
      have hpos : 0 < digitCount (num / den) := Nat.length_toDigits_pos
      omega
    have hnat : 10 ^ (digitCount (num / den) - 1) * den ≤ num :=
      calc 10 ^ (digitCount (num / den) - 1) * den ≤ num / den * den :=
            Nat.mul_le_mul_right den (pow_digitCount_le hquotient)
        _ ≤ num := Nat.div_mul_le_self num den
    rw [hdigits, Nat.cast_add, Nat.cast_one, add_sub_cancel_right, zpow_natCast]
    exact_mod_cast hnat
  · next hlt =>
    have hdigits := lt_pow_digitCount ((den + num - 1) / num - 1)
    have hnat : den ≤ 10 ^ digitCount ((den + num - 1) / num - 1) * num := by
      generalize 10 ^ digitCount ((den + num - 1) / num - 1) = bound at *
      have hceil : den + num - 1 < (bound + 1) * num := (Nat.div_lt_iff_lt_mul hnum).1 (by omega)
      rw [Nat.add_mul, Nat.one_mul] at hceil
      omega
    rw [sub_right_comm, sub_self, zero_sub, zpow_neg, zpow_natCast,
      inv_mul_le_iff₀ (pow_pos (by norm_num) _)]
    exact_mod_cast hnat

/-! ### The interval of a double -/

theorem two_zpow_eq_half (e : Int) : (2 : ℚ) ^ (e - 1) = 2 * 2 ^ (e - 2) := by
  rw [← zpow_one_add₀ (by norm_num)]
  congr 1
  omega

theorem dyadic_eq_quarters (m : Nat) (e : Int) : dyadic m e = 4 * m * 2 ^ (e - 2) := by
  have hstep : (2 : ℚ) ^ e = 2 ^ (e - 2) * 2 ^ (2 : Int) := by
    rw [← two_zpow_add]
    congr 1
    omega
  rw [dyadic, hstep]
  ring

namespace Interval

variable {m : Nat} {e p : Int} {d : Nat}

/-- One quarter of a step between doubles, and one step of a grid, in their common unit. -/
theorem cast_scale (m : Nat) (e p : Int) : ∃ unit : ℚ, 0 < unit ∧
    (((around m e).scale p).1 : ℚ) = 2 ^ (e - 2) * unit ∧
    (((around m e).scale p).2 : ℚ) = 10 ^ p * unit := by
  refine ⟨2 ^ (2 - e).toNat * 10 ^ (-p).toNat, by positivity, ?_, ?_⟩
  · change ((2 ^ (e - 2).toNat * 10 ^ (-p).toNat : Nat) : ℚ) = _
    have hpow := pow_toNat (show (2 : ℚ) ≠ 0 by norm_num) (e - 2)
    rw [neg_sub] at hpow
    rw [Nat.cast_mul, Nat.cast_pow, Nat.cast_pow, Nat.cast_ofNat, Nat.cast_ofNat, hpow, mul_assoc]
  · change ((2 ^ (2 - e).toNat * 10 ^ p.toNat : Nat) : ℚ) = _
    have hpow := pow_toNat (show (10 : ℚ) ≠ 0 by norm_num) p
    rw [Nat.cast_mul, Nat.cast_pow, Nat.cast_pow, Nat.cast_ofNat, Nat.cast_ofNat, hpow]
    ring

/-- A number of quarters and a number of steps are compared in the common unit. -/
theorem quarters_le_iff {a b : Nat} :
    a * ((around m e).scale p).1 ≤ b * ((around m e).scale p).2 ↔
      (a : ℚ) * 2 ^ (e - 2) ≤ b * 10 ^ p := by
  obtain ⟨unit, hunit, hquarter, hstep⟩ := cast_scale m e p
  rw [← Nat.cast_le (α := ℚ), Nat.cast_mul, Nat.cast_mul, hquarter, hstep, ← mul_assoc, ← mul_assoc]
  exact mul_le_mul_iff_left₀ hunit

theorem steps_le_iff {a b : Nat} :
    b * ((around m e).scale p).2 ≤ a * ((around m e).scale p).1 ↔
      (b : ℚ) * 10 ^ p ≤ a * 2 ^ (e - 2) := by
  obtain ⟨unit, hunit, hquarter, hstep⟩ := cast_scale m e p
  rw [← Nat.cast_le (α := ℚ), Nat.cast_mul, Nat.cast_mul, hquarter, hstep, ← mul_assoc, ← mul_assoc]
  exact mul_le_mul_iff_left₀ hunit

theorem cast_low (hm : 0 < m) : ((around m e).low : ℚ) * 2 ^ (e - 2) = dyadic m e - reach m e := by
  have hlow : (around m e).low = 4 * m - if m = 2 ^ 52 ∧ -1074 < e then 1 else 2 := by simp [around]
  rw [dyadic_eq_quarters, reach, hlow]
  split
  · rw [Nat.cast_sub (by omega)]
    push_cast
    ring
  · rw [Nat.cast_sub (by omega), two_zpow_eq_half]
    push_cast
    ring

theorem cast_high : ((around m e).high : ℚ) * 2 ^ (e - 2) = dyadic m e + 2 ^ (e - 1) := by
  rw [dyadic_eq_quarters, two_zpow_eq_half, show (around m e).high = 4 * m + 2 from rfl]
  push_cast
  ring

/-- **The interval of a double holds the numbers that are rounded to it.** -/
theorem holds_iff (hm : 0 < m) : (around m e).holds p d = true ↔ Rounds (d * 10 ^ p) m e := by
  have hlow : (around m e).low * ((around m e).scale p).1 ≤ d * ((around m e).scale p).2 ↔
      dyadic m e - reach m e ≤ d * 10 ^ p := by rw [quarters_le_iff, cast_low hm]
  have hhigh : d * ((around m e).scale p).2 ≤ (around m e).high * ((around m e).scale p).1 ↔
      (d : ℚ) * 10 ^ p ≤ dyadic m e + 2 ^ (e - 1) := by rw [steps_le_iff, cast_high]
  have hclosed : (around m e).closed = (m % 2 == 0) := rfl
  unfold holds
  rcases Nat.mod_two_eq_zero_or_one m with hparity | hparity
  · simp only [hclosed, hparity, beq_self_eq_true, if_true, Bool.and_eq_true, decide_eq_true_eq, hlow,
      hhigh]
    exact ⟨fun h => ⟨h.1, h.2, by omega⟩, fun h => ⟨h.low, h.high⟩⟩
  · simp only [hclosed, hparity, Nat.reduceBEq, Bool.false_eq_true, if_false, Bool.and_eq_true,
      decide_eq_true_eq, ← not_le, hlow, hhigh, steps_le_iff, quarters_le_iff]
    simp only [not_le, cast_low hm, cast_high]
    exact ⟨fun h => ⟨h.1.le, h.2.le, fun _ => h⟩, fun h => h.inside hparity⟩

/-! ### The nearest point of a grid -/

theorem holds_of_nearest? {i : Interval} (h : i.nearest? p = some d) : i.holds p d = true := by
  unfold nearest? at h
  dsimp only at h
  split at h
  · next hbelow _ =>
    cases h
    exact hbelow
  · next _ habove =>
    cases h
    exact habove
  · cases h
  · next hbelow habove =>
    split at h <;> cases h
    · exact hbelow
    · exact habove

theorem not_holds_of_nearest?_eq_none {i : Interval} (h : i.nearest? p = none) :
    i.holds p (i.value * (i.scale p).1 / (i.scale p).2) = false ∧
      i.holds p (i.value * (i.scale p).1 / (i.scale p).2 + 1) = false := by
  unfold nearest? at h
  dsimp only at h
  split at h
  · cases h
  · cases h
  · next hbelow habove => exact ⟨hbelow, habove⟩
  · split at h <;> cases h

end Interval

/-- A number below the double that is not rounded to it is out of reach. -/
theorem Rounds.le_of_not {v : ℚ} {m : Nat} {e : Int} (h : ¬ Rounds v m e) (hv : v ≤ dyadic m e) :
    v ≤ dyadic m e - reach m e := by
  have hhalf := two_zpow_pos (e - 1)
  by_contra hlt
  rw [not_le] at hlt
  exact h ⟨hlt.le, by linarith, fun _ => ⟨hlt, by linarith⟩⟩

theorem reach_pos (m : Nat) (e : Int) : 0 < reach m e := by
  unfold reach
  split
  · exact two_zpow_pos _
  · exact two_zpow_pos _

theorem Rounds.zero (e : Int) : Rounds 0 0 e := by
  have hreach := reach_pos 0 e
  have hhalf := two_zpow_pos (e - 1)
  have hzero : dyadic 0 e = 0 := by rw [dyadic, Nat.cast_zero, zero_mul]
  exact ⟨by linarith, by linarith, fun h => by omega⟩

/-- A number above the double that is not rounded to it is half a step away or more. -/
theorem Rounds.ge_of_not {v : ℚ} {m : Nat} {e : Int} (h : ¬ Rounds v m e) (hv : dyadic m e ≤ v) :
    dyadic m e + 2 ^ (e - 1) ≤ v := by
  have hreach := reach_pos m e
  by_contra hlt
  rw [not_le] at hlt
  exact h ⟨by linarith, hlt.le, fun _ => ⟨by linarith, hlt⟩⟩

namespace Interval

variable {m : Nat} {e p : Int} {d : Nat}

theorem cast_value : ((around m e).value : ℚ) * 2 ^ (e - 2) = dyadic m e := by
  rw [dyadic_eq_quarters, show (around m e).value = 4 * m from rfl]
  push_cast
  ring

theorem step_pos : 0 < ((around m e).scale p).2 :=
  Nat.mul_pos (Nat.pow_pos (by decide)) (Nat.pow_pos (by decide))

/-- A double lies between two points of each grid. -/
theorem between (m : Nat) (e p : Int) :
    let below := (around m e).value * ((around m e).scale p).1 / ((around m e).scale p).2
    (below : ℚ) * 10 ^ p ≤ dyadic m e ∧ dyadic m e ≤ (below + 1 : Nat) * 10 ^ p := by
  intro below
  rw [← cast_value]
  refine ⟨(steps_le_iff (m := m)).1 (Nat.div_mul_le_self _ _), (quarters_le_iff (m := m)).1 ?_⟩
  rw [mul_comm (below + 1)]
  exact (Nat.lt_mul_div_succ _ step_pos).le

/-- Where one step of a grid is less than the interval, a point of the grid is in it. -/
theorem exists_nearest? (hm : 0 < m) (hp : (10 : ℚ) ^ p < reach m e + 2 ^ (e - 1)) :
    ∃ d, (around m e).nearest? p = some d := by
  rw [← Option.ne_none_iff_exists']
  intro hnone
  obtain ⟨hbelow, habove⟩ := not_holds_of_nearest?_eq_none hnone
  obtain ⟨hle, hge⟩ := between m e p
  rw [← Bool.not_eq_true, holds_iff hm] at hbelow habove
  -- The two points that were tried lie on either side of the double, and both are out of its reach.
  have hdown := Rounds.le_of_not hbelow hle
  have hup := Rounds.ge_of_not habove hge
  generalize (around m e).value * ((around m e).scale p).1 / ((around m e).scale p).2 = below at *
  rw [Nat.cast_add, Nat.cast_one, add_mul, one_mul] at hup
  linarith

/-- The double has at least as many digits as its magnitude says. -/
theorem zpow_magnitude_le_dyadic (hm : 0 < m) :
    (10 : ℚ) ^ (magnitude ((around m e).value * (around m e).num) (around m e).den - 1) ≤ dyadic m e := by
  have hden : 0 < (around m e).den := Nat.pow_pos (by decide)
  have hnum : 0 < (around m e).value * (around m e).num :=
    Nat.mul_pos (Nat.mul_pos (by decide) hm) (Nat.pow_pos (by decide))
  have hunit : ((around m e).num : ℚ) = 2 ^ (e - 2) * (around m e).den := by
    change ((2 ^ (e - 2).toNat : Nat) : ℚ) = 2 ^ (e - 2) * (2 ^ (2 - e).toNat : Nat)
    rw [Nat.cast_pow, Nat.cast_pow, Nat.cast_ofNat, pow_toNat (by norm_num), neg_sub]
  have hle := zpow_magnitude_le hnum hden
  rw [Nat.cast_mul, hunit, ← mul_assoc, cast_value] at hle
  exact le_of_mul_le_mul_right hle (Nat.cast_pos.2 hden)

/-- One step of a grid of seventeen digits is less than the interval. -/
theorem ten_zpow_lt (hm : 0 < m) (hmax : m < 2 ^ 53) :
    (10 : ℚ) ^ (magnitude ((around m e).value * (around m e).num) (around m e).den - 17) <
      reach m e + 2 ^ (e - 1) := by
  have hle := zpow_magnitude_le_dyadic (e := e) hm
  generalize magnitude ((around m e).value * (around m e).num) (around m e).den = top at *
  have hstep : (10 : ℚ) ^ (top - 1) = 10 ^ (top - 17) * 10 ^ 16 := by
    rw [← zpow_natCast, ← ten_zpow_add]
    congr 1
    omega
  have hquarter := two_zpow_pos (e - 2)
  rw [hstep, dyadic_eq_quarters] at hle
  rw [two_zpow_eq_half, reach, two_zpow_eq_half]
  split
  · next hdenser =>
    rw [hdenser.1] at hle
    push_cast at hle
    linarith
  · have hmul : (m : ℚ) * 2 ^ (e - 2) ≤ 2 ^ 53 * 2 ^ (e - 2) :=
      mul_le_mul_of_nonneg_right (by exact_mod_cast hmax.le) hquarter.le
    linarith

end Interval

/-- What holds of everything that can be found holds of what is found first. -/
theorem getD_findSome? {α β : Type} {f : α → Option β} {items : List α} {P : β → Prop}
    (hsome : ∃ a ∈ items, ∃ b, f a = some b) (h : ∀ a b, f a = some b → P b) (other : β) :
    P ((items.findSome? f).getD other) := by
  cases hfound : items.findSome? f with
  | none =>
    obtain ⟨a, ha, b, hb⟩ := hsome
    rw [List.findSome?_eq_none_iff.1 hfound a ha] at hb
    cases hb
  | some b =>
    obtain ⟨a, -, ha⟩ := List.exists_of_findSome?_eq_some hfound
    exact h a b ha

/-- **The decimal that a double is written with is rounded to the double.**  It is found, at the latest on the
grid of seventeen digits. -/
theorem rounds_shortest {m : Nat} {e : Int} (hm : 0 < m) (hmax : m < 2 ^ 53) :
    Rounds ((shortest m e).significand * 10 ^ (shortest m e).exponent) m e := by
  refine getD_findSome? (P := fun d : Scientific => Rounds (d.significand * 10 ^ d.exponent) m e) ?_ ?_ _
  · obtain ⟨d, hd⟩ := Interval.exists_nearest? hm (Interval.ten_zpow_lt (e := e) hm hmax)
    exact ⟨16, by decide, _, Option.map_eq_some_iff.2 ⟨d, hd, rfl⟩⟩
  · intro k found hfound
    obtain ⟨d, hd, rfl⟩ := Option.map_eq_some_iff.1 hfound
    exact (Interval.holds_iff hm).1 (Interval.holds_of_nearest? hd)

/-- What is rounded to a positive double is positive. -/
theorem Rounds.pos {v : ℚ} {m : Nat} {e : Int} (h : Rounds v m e) (hm : 0 < m) : 0 < v := by
  have hquarter := two_zpow_pos (e - 2)
  have hone : (1 : ℚ) ≤ m := by exact_mod_cast hm
  have hmul : 4 * 2 ^ (e - 2) ≤ 4 * (m : ℚ) * 2 ^ (e - 2) := by nlinarith
  have hreach : reach m e ≤ 2 * 2 ^ (e - 2) := by
    rw [reach, two_zpow_eq_half]
    split
    · linarith
    · exact le_rfl
  have hlow := h.low
  rw [dyadic_eq_quarters] at hlow
  linarith

theorem significand_shortest_pos {m : Nat} {e : Int} (hm : 0 < m) (hmax : m < 2 ^ 53) :
    0 < (shortest m e).significand := by
  have hpos := (rounds_shortest (e := e) hm hmax).pos hm
  rw [Nat.pos_iff_ne_zero]
  intro hzero
  rw [hzero, Nat.cast_zero, zero_mul] at hpos
  exact lt_irrefl _ hpos

end TraceGraph.Decimal
