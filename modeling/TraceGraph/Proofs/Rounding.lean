import TraceGraph.Proofs.Doubles

/-!
# Rounding to doubles

An exact result `m · 2 ^ e` is rounded to the nearest double: of its bits, as many are kept as fit into a
mantissa, and the rest decides whether to round up, a tie going to the even mantissa (`IsNearest`,
`exists_isNearest_round`).  Two limits follow.  A number is rounded to zero if and only if it is at most half of
the least double, `2 ^ -1075`, and it is too large if and only if it reaches half a step above the largest
double, `2 ^ 1024 - 2 ^ 970`.  So it is known which squares vanish (`mul_self_beq_zero_iff`) and which integers are
beyond the doubles (`ofInt?_eq_none_iff`).
-/

namespace TraceGraph.Decimal

open Float.Model (UnpackedFloat Format pack)
open Float.Model.UnpackedFloat (Sign ExtendedMantissa roundWithAccuracy shiftToTargetExponent)

/-! ### The nearest mantissa -/

/-- `r` is `m / d`, rounded to the nearest whole number, a tie going to the even one. -/
structure IsNearest (m d r : Nat) : Prop where
  le : 2 * m ≤ (2 * r + 1) * d
  ge : 2 * r * d ≤ 2 * m + d
  even : 2 * m = (2 * r + 1) * d ∨ 2 * r * d = 2 * m + d → r % 2 = 0

namespace IsNearest

variable {m d r : Nat}

section

variable {q rest : Nat}

theorem down (hrest : rest < d) : IsNearest (2 * (q * d) + rest) (d * 2) q := by
  have hle : (2 * q + 1) * (d * 2) = 4 * (q * d) + 2 * d := by ring
  have hge : 2 * q * (d * 2) = 4 * (q * d) := by ring
  constructor <;> omega

theorem tie (hd : 0 < d) : IsNearest (2 * (q * d) + d + 0) (d * 2) (q + q % 2) := by
  have hle : (2 * (q + q % 2) + 1) * (d * 2) = 4 * (q * d) + 4 * (q % 2 * d) + 2 * d := by ring
  have hge : 2 * (q + q % 2) * (d * 2) = 4 * (q * d) + 4 * (q % 2 * d) := by ring
  rcases Nat.mod_two_eq_zero_or_one q with h | h
  · rw [h] at hle hge ⊢
    constructor <;> omega
  · rw [h] at hle hge ⊢
    constructor <;> omega

theorem up (hpos : 0 < rest) (hrest : rest < d) :
    IsNearest (2 * (q * d) + d + rest) (d * 2) (q + 1) := by
  have hle : (2 * (q + 1) + 1) * (d * 2) = 4 * (q * d) + 6 * d := by ring
  have hge : 2 * (q + 1) * (d * 2) = 4 * (q * d) + 4 * d := by ring
  constructor <;> omega

end

theorem eq_zero_iff (h : IsNearest m d r) (hd : 0 < d) : r = 0 ↔ 2 * m ≤ d := by
  constructor
  · rintro rfl
    have hle := h.le
    omega
  · intro hm
    by_contra hr
    have hge := h.ge
    have hone : r = 1 := by
      by_contra hne
      have hmul : 4 * d ≤ 2 * r * d := Nat.mul_le_mul_right d (by omega)
      omega
    subst hone
    have heven := h.even (.inr (by omega))
    omega

/-- What is rounded up to an even number is as large as what is rounded to it from below. -/
theorem le_iff (h : IsNearest m d r) (hd : 0 < d) {bound : Nat} (hbound : bound % 2 = 0)
    (hpos : 0 < bound) : bound ≤ r ↔ (2 * bound - 1) * d ≤ 2 * m := by
  constructor
  · intro hr
    have hmul : 2 * bound * d ≤ 2 * r * d := Nat.mul_le_mul_right d (by omega)
    have hge := h.ge
    rw [Nat.sub_mul, Nat.one_mul]
    omega
  · intro hm
    have hle := Nat.le_of_mul_le_mul_right (hm.trans h.le) hd
    by_contra hr
    have hone : bound = r + 1 := by omega
    subst hone
    have heven := h.even (.inl (le_antisymm h.le (by simpa [Nat.mul_add] using hm)))
    omega

end IsNearest

section

variable (m k : Nat)

/-- The bits that a mantissa loses when it is shifted: the first of them, and whether there are others. -/
theorem shift_succ :
    ExtendedMantissa.ofMantissaAndAccuracy m .exact >>> (k + 1) =
      ⟨m / 2 ^ (k + 1), m / 2 ^ k % 2 != 0, m % 2 ^ k != 0⟩ := by
  change Nat.repeat ExtendedMantissa.shiftRightOne (k + 1) _ = _
  induction k with
  | zero =>
    simp [Nat.repeat, ExtendedMantissa.shiftRightOne, ExtendedMantissa.ofMantissaAndAccuracy, Nat.mod_one]
  | succ k ih =>
    rw [Nat.repeat, ih, ExtendedMantissa.shiftRightOne]
    have hsplit : m % 2 ^ (k + 1) = m % 2 ^ k + 2 ^ k * (m / 2 ^ k % 2) := Nat.mod_pow_succ
    congr 1
    · rw [Nat.div_div_eq_div_mul, ← Nat.pow_succ]
    · rw [hsplit]
      rcases Nat.mod_two_eq_zero_or_one (m / 2 ^ k) with h | h
      · simp [h]
      · simp [h]

/-- **A shifted mantissa is rounded to the nearest.** -/
theorem isNearest_roundedMantissa :
    IsNearest m (2 ^ k)
      (ExtendedMantissa.ofMantissaAndAccuracy m .exact >>> k).roundedMantissa := by
  cases k with
  | zero =>
    change IsNearest m 1 m
    exact ⟨by omega, by omega, by omega⟩
  | succ k =>
    have hsplit := Nat.div_add_mod m (2 ^ (k + 1))
    have hrest : m % 2 ^ k < 2 ^ k := Nat.mod_lt _ (Nat.two_pow_pos k)
    rw [shift_succ, ExtendedMantissa.roundedMantissa]
    rw [Nat.mod_pow_succ] at hsplit
    rw [Nat.pow_succ] at hsplit ⊢
    generalize m / (2 ^ k * 2) = q at *
    generalize m % 2 ^ k = rest at *
    generalize 2 ^ k = d at *
    rcases Nat.mod_two_eq_zero_or_one (m / d) with h | h
    · have hm : m = 2 * (q * d) + rest := by rw [← hsplit, h]; ring
      rw [h, hm]
      cases hzero : rest != 0 <;> exact .down hrest
    · have hm : m = 2 * (q * d) + d + rest := by rw [← hsplit, h]; ring
      rw [h, hm]
      cases hzero : rest != 0
      · rw [show rest = 0 by simpa using hzero]
        exact .tie (by omega)
      · exact .up (Nat.pos_of_ne_zero (by simpa using hzero)) hrest

end

/-- The exponent of the last bit that is kept of `m · 2 ^ e`. -/
def lastPlace (m : Nat) (e : Int) : Int := max (m.log2 + e - 52) (-1074)

/-- The number of bits that are not kept of `m · 2 ^ e`. -/
def lostBits (m : Nat) (e : Int) : Nat := (lastPlace m e - e).toNat

theorem targetExponent_eq (m : Nat) (e : Int) :
    Format.binary64.targetExponent (Float.Model.totalExponent m e) = lastPlace m e := by
  change max ((m.log2 : Int) + 1 + e - 53) (-1074) = max (m.log2 + e - 52) (-1074)
  congr 1
  omega

theorem shiftToTargetExponent_eq (m : Nat) (e : Int) :
    shiftToTargetExponent .binary64 m e .exact =
      (ExtendedMantissa.ofMantissaAndAccuracy m .exact >>> lostBits m e, e + lostBits m e) := by
  rw [shiftToTargetExponent, targetExponent_eq]
  rfl

theorem log2_le_of_lt {m : Nat} (h : m < 2 ^ 53) : m.log2 ≤ 52 := by
  by_cases hm : m = 0
  · simp [hm]
  · have hlog := (Nat.log2_lt hm).2 h
    omega

/-- A mantissa that fits is kept. -/
theorem lostBits_of_lt {m : Nat} {e : Int} (hm : m < 2 ^ 53) (he : -1074 ≤ e) : lostBits m e = 0 := by
  have hlog := log2_le_of_lt hm
  unfold lostBits lastPlace
  omega

theorem lostBits_two_pow {e : Int} (he : -1074 ≤ e) : lostBits (2 ^ 53) e = 1 := by
  unfold lostBits lastPlace
  rw [Nat.log2_two_pow]
  omega

theorem log2_le_lostBits (m : Nat) (e : Int) : m.log2 ≤ 52 + lostBits m e := by
  unfold lostBits lastPlace
  omega

theorem le_add_lostBits (m : Nat) (e : Int) : -1074 ≤ e + lostBits m e := by
  unfold lostBits lastPlace
  omega

theorem lt_of_lostBits (m : Nat) (e : Int) : m < 2 ^ 53 * 2 ^ lostBits m e := by
  have hlog := log2_le_lostBits m e
  rw [← Nat.pow_add]
  exact Nat.lt_log2_self.trans_le (Nat.pow_le_pow_right (by decide) (by omega))

/-- **What rounding does.**  The bits that are kept are the nearest mantissa, which carries over if it has one
bit too many. -/
theorem exists_isNearest_round (sign : Sign) (m : Nat) (e : Int) :
    ∃ r, IsNearest m (2 ^ lostBits m e) r ∧
      (r = 0 ∧ roundWithAccuracy .binary64 sign m e .exact = .zero sign ∨
        (∃ h, r < 2 ^ 53 ∧
          roundWithAccuracy .binary64 sign m e .exact = .finite sign r (e + lostBits m e) h) ∨
        r = 2 ^ 53 ∧ roundWithAccuracy .binary64 sign m e .exact =
          .finite sign (2 ^ 52) (e + lostBits m e + 1) (by decide)) := by
  have hnearest := isNearest_roundedMantissa m (lostBits m e)
  have hle := le_add_lostBits m e
  refine ⟨_, hnearest, ?_⟩
  rw [roundWithAccuracy, shiftToTargetExponent_eq]
  dsimp only
  generalize (ExtendedMantissa.ofMantissaAndAccuracy m .exact >>> lostBits m e).roundedMantissa = r at *
  rw [shiftToTargetExponent_eq]
  have hmax : r ≤ 2 ^ 53 := by
    have hlt := lt_of_lostBits m e
    by_contra hr
    have hmul : 2 * (2 ^ 53 + 1) * 2 ^ lostBits m e ≤ 2 * r * 2 ^ lostBits m e :=
      Nat.mul_le_mul_right _ (by omega)
    have hge := hnearest.ge
    omega
  rcases hmax.lt_or_eq with hr | rfl
  · rw [lostBits_of_lt hr hle]
    by_cases hzero : r = 0
    · subst hzero
      exact .inl ⟨rfl, rfl⟩
    · refine .inr (.inl ⟨Nat.pos_of_ne_zero hzero, hr, ?_⟩)
      simp only [Nat.cast_zero, add_zero]
      exact dif_neg hzero
  · rw [lostBits_two_pow hle]
    exact .inr (.inr ⟨rfl, rfl⟩)


/-! ### The limits of the doubles -/

variable {sign : Sign} {m : Nat} {e : Int}

/-- The number `m · 2 ^ e`. -/
def dyadic (m : Nat) (e : Int) : ℚ := m * 2 ^ e

theorem two_zpow_pos (e : Int) : (0 : ℚ) < 2 ^ e := zpow_pos (by norm_num) e

theorem two_zpow_le {a b : Int} (h : a ≤ b) : (2 : ℚ) ^ a ≤ 2 ^ b :=
  zpow_le_zpow_right₀ (by norm_num) h

theorem two_zpow_lt {a b : Int} (h : a < b) : (2 : ℚ) ^ a < 2 ^ b :=
  zpow_lt_zpow_right₀ (by norm_num) h

theorem two_zpow_add (a b : Int) : (2 : ℚ) ^ (a + b) = 2 ^ a * 2 ^ b := zpow_add₀ (by norm_num) a b

/-- Numbers are compared by their parts, once they have the same exponent. -/
theorem dyadic_le_iff {n k : Nat} : dyadic n e ≤ dyadic k e ↔ n ≤ k := by
  rw [dyadic, dyadic, mul_le_mul_iff_left₀ (two_zpow_pos e), Nat.cast_le]

theorem two_mul_dyadic : 2 * dyadic m e = dyadic (2 * m) e := by
  rw [dyadic, dyadic, Nat.cast_mul, mul_assoc, Nat.cast_ofNat]

theorem dyadic_mul_two_pow (m k : Nat) (e : Int) : dyadic (m * 2 ^ k) e = dyadic m (e + k) := by
  rw [dyadic, dyadic, add_comm, two_zpow_add, Nat.cast_mul, Nat.cast_pow, Nat.cast_ofNat, zpow_natCast,
    mul_assoc]

theorem dyadic_two_pow (k : Nat) (e : Int) : dyadic (2 ^ k) e = 2 ^ (e + k) := by
  rw [← Nat.one_mul (2 ^ k), dyadic_mul_two_pow, dyadic, Nat.cast_one, one_mul]

theorem le_dyadic (hm : 0 < m) : (2 : ℚ) ^ (e + m.log2) ≤ dyadic m e := by
  rw [← dyadic_two_pow, dyadic, dyadic]
  have hlog : ((2 ^ m.log2 : Nat) : ℚ) ≤ m := Nat.cast_le.2 (Nat.log2_self_le hm.ne')
  exact mul_le_mul_of_nonneg_right hlog (two_zpow_pos e).le

theorem dyadic_lt : dyadic m e < 2 ^ (e + (m.log2 + 1 : Nat)) := by
  rw [← dyadic_two_pow, dyadic, dyadic]
  have hlog : (m : ℚ) < ((2 ^ (m.log2 + 1) : Nat) : ℚ) := Nat.cast_lt.2 Nat.lt_log2_self
  exact mul_lt_mul_of_pos_right hlog (two_zpow_pos e)

/-- A number is rounded to zero if it is at most half of the least double. -/
theorem round_eq_zero_iff (hm : 0 < m) :
    roundWithAccuracy .binary64 sign m e .exact = .zero sign ↔ dyadic m e ≤ 2 ^ (-1075 : Int) := by
  obtain ⟨r, hnearest, hround⟩ := exists_isNearest_round sign m e
  have hzero : roundWithAccuracy .binary64 sign m e .exact = .zero sign ↔ r = 0 := by
    rcases hround with ⟨hr, hround⟩ | ⟨hr, -, hround⟩ | ⟨hr, hround⟩
    · simp [hround, hr]
    · simp [hround, hr.ne']
    · simp [hround, hr]
  rw [hzero, hnearest.eq_zero_iff (Nat.two_pow_pos _), ← @dyadic_le_iff e, ← two_mul_dyadic,
    dyadic_two_pow]
  by_cases hlost : e + lostBits m e = -1074
  · rw [hlost, show (-1074 : Int) = 1 + -1075 by norm_num, two_zpow_add, zpow_one]
    exact mul_le_mul_iff_right₀ (by norm_num)
  · -- Above the least exponent, nothing is rounded to zero.
    have hlog : -1074 < e + lostBits m e ∧ e + lostBits m e ≤ e + m.log2 := by
      unfold lostBits lastPlace at *
      omega
    have hle := (two_zpow_le hlog.2).trans (le_dyadic hm)
    have hlt : (2 : ℚ) ^ (-1075 : Int) < 2 ^ (e + lostBits m e : Int) := two_zpow_lt (by omega)
    have hpos := two_zpow_pos (e + lostBits m e)
    constructor
    · intro h
      linarith
    · intro h
      linarith

/-- The least number that is too large for the doubles lies half a step above the largest of them. -/
def beyond : Nat := 2 ^ 1024 - 2 ^ 970

theorem beyond_eq : (beyond : ℚ) = dyadic (2 ^ 54 - 1) 970 := by
  have hmul : beyond = (2 ^ 54 - 1) * 2 ^ 970 := by
    rw [beyond, Nat.sub_mul, Nat.one_mul, ← Nat.pow_add]
  rw [hmul, dyadic, Nat.cast_mul, Nat.cast_pow, Nat.cast_ofNat]
  exact congrArg _ (zpow_natCast 2 970).symm

theorem beyond_pos : 0 < beyond := by
  rw [← Nat.cast_pos (α := ℚ), beyond_eq]
  exact mul_pos (by norm_num) (two_zpow_pos 970)

theorem isFinite_pack_finite (hmax : m < 2 ^ 53) (he : -1074 ≤ e) :
    (pack (.finite sign m e hm)).isFinite = true ↔ e ≤ 971 := by
  change (pack (.finite sign m e hm)).unpack.isFinite = true ↔ _
  by_cases hlarge : 971 < e
  · rw [unpack_pack_of_lt hlarge]
    simp [UnpackedFloat.isFinite, hlarge]
  · rw [not_lt] at hlarge
    by_cases hfull : 2 ^ 52 ≤ m
    · rw [unpack_pack_normal hfull hmax he hlarge]
      simp [UnpackedFloat.isFinite, hlarge]
    · rw [unpack_pack_subnormal (by omega) hlarge]
      simp [UnpackedFloat.isFinite, hlarge]

/-- A number is rounded to a finite double if it is not too large. -/
theorem isFinite_pack_round_iff (hm : 0 < m) (he : e ≤ lastPlace m e) :
    (pack (roundWithAccuracy .binary64 sign m e .exact)).isFinite = true ↔ dyadic m e < beyond := by
  have hlast : e + lostBits m e = lastPlace m e := by
    unfold lostBits
    omega
  have hleast : -1074 ≤ lastPlace m e := le_max_right _ _
  obtain ⟨r, hnearest, hround⟩ := exists_isNearest_round sign m e
  rw [hlast] at hround
  have hfinite : (pack (roundWithAccuracy .binary64 sign m e .exact)).isFinite = true ↔
      lastPlace m e ≤ 970 ∨ lastPlace m e = 971 ∧ r < 2 ^ 53 := by
    rcases hround with ⟨hr, hround⟩ | ⟨hr, hlt, hround⟩ | ⟨hr, hround⟩
    · have hsmall := (le_dyadic hm).trans ((round_eq_zero_iff hm).1 hround)
      have hexponent := (zpow_le_zpow_iff_right₀ (by norm_num)).1 hsmall
      have hle : lastPlace m e ≤ 970 := by
        unfold lastPlace
        omega
      rw [hround]
      exact iff_of_true (by cases sign <;> rfl) (.inl hle)
    · rw [hround, isFinite_pack_finite hlt hleast]
      omega
    · rw [hround, isFinite_pack_finite (by decide) (by omega)]
      omega
  rw [hfinite, beyond_eq]
  rcases lt_trichotomy (lastPlace m e) 971 with hlt | heq | hgt
  · have hbound : dyadic m e < dyadic (2 ^ 54 - 1) 970 :=
      calc dyadic m e < 2 ^ (e + (m.log2 + 1 : Nat)) := dyadic_lt
        _ ≤ 2 ^ (970 + (53 : Nat) : Int) := two_zpow_le (by unfold lastPlace at hlt; omega)
        _ = dyadic (2 ^ 53) 970 := (dyadic_two_pow 53 970).symm
        _ ≤ dyadic (2 ^ 54 - 1) 970 := dyadic_le_iff.2 (by decide)
    exact iff_of_true (.inl (by omega)) hbound
  · have hscale : dyadic ((2 ^ 54 - 1) * 2 ^ lostBits m e) e = 2 * dyadic (2 ^ 54 - 1) 970 := by
      rw [dyadic_mul_two_pow, hlast, heq, two_mul_dyadic, Nat.mul_comm]
      exact (dyadic_mul_two_pow (2 ^ 54 - 1) 1 970).symm
    have hr : 2 ^ 53 ≤ r ↔ (2 ^ 54 - 1) * 2 ^ lostBits m e ≤ 2 * m :=
      hnearest.le_iff (Nat.two_pow_pos _) (by decide) (by decide)
    rw [← @dyadic_le_iff e ((2 ^ 54 - 1) * _), hscale, ← two_mul_dyadic,
      mul_le_mul_iff_right₀ (by norm_num)] at hr
    have hlt : dyadic m e < dyadic (2 ^ 54 - 1) 970 ↔ r < 2 ^ 53 := by rw [← not_le, ← hr, not_le]
    rw [hlt]
    omega
  · have hbound : dyadic (2 ^ 54 - 1) 970 ≤ dyadic m e :=
      calc dyadic (2 ^ 54 - 1) 970 ≤ dyadic (2 ^ 54) 970 := dyadic_le_iff.2 (by decide)
        _ = 2 ^ (970 + (54 : Nat) : Int) := dyadic_two_pow 54 970
        _ ≤ 2 ^ (e + m.log2) := two_zpow_le (by unfold lastPlace at hgt; omega)
        _ ≤ dyadic m e := le_dyadic hm
    exact iff_of_false (by omega) (not_lt.2 hbound)

/-- A number that is not rounded to zero is not packed as one either. -/
theorem exists_unpack_pack_round_iff (hm : 0 < m) :
    (∃ zeroSign, (pack (roundWithAccuracy .binary64 sign m e .exact)).unpack = .zero zeroSign) ↔
      dyadic m e ≤ 2 ^ (-1075 : Int) := by
  have hpack {m' : Nat} {e' : Int} (hpos : 0 < m') (hmax : m' < 2 ^ 53) (he' : -1074 ≤ e') :
      ¬ ∃ zeroSign, (pack (.finite sign m' e' hpos)).unpack = .zero zeroSign := by
    by_cases hlarge : 971 < e'
    · simp [unpack_pack_of_lt hlarge]
    · by_cases hfull : 2 ^ 52 ≤ m'
      · simp [unpack_pack_normal hfull hmax he' (by omega)]
      · simp [unpack_pack_subnormal (not_le.1 hfull) (not_lt.1 hlarge)]
  rw [← @round_eq_zero_iff sign m e hm]
  have hle := le_add_lostBits m e
  obtain ⟨r, -, ⟨-, hround⟩ | ⟨hr, hmax, hround⟩ | ⟨-, hround⟩⟩ := exists_isNearest_round sign m e
  · rw [hround, unpack_pack_zero]
    exact iff_of_true ⟨sign, rfl⟩ rfl
  · rw [hround]
    exact iff_of_false (hpack hr hmax hle) (by simp)
  · rw [hround]
    exact iff_of_false (hpack (by decide) (by decide) (by omega)) (by simp)

/-! ### Signs and squares -/

section

variable {x : Float}

/-- A double is zero if both its bits and its sign say so, whatever the sign is. -/
theorem beq_zero_iff : (x == 0.0) = true ↔ ∃ sign, x.toModel.unpack = .zero sign := by
  change (x.toModel.unpack.compare (.zero .positive) == some .eq) = true ↔ _
  cases x.toModel.unpack with
  | notANumber => simp [UnpackedFloat.compare]
  | infinity sign => cases sign <;> simp [UnpackedFloat.compare]
  | zero sign => simp [UnpackedFloat.compare]
  | finite sign m e hm => cases sign <;> simp [UnpackedFloat.compare]

/-- What is not at most zero is no number, or positive. -/
theorem not_le_zero_iff : ¬ x ≤ 0.0 ↔ x.toModel.unpack = .notANumber ∨
    x.toModel.unpack = .infinity .positive ∨ ∃ m e hm, x.toModel.unpack = .finite .positive m e hm := by
  change ¬ decide ((x.toModel.unpack.compare (.zero .positive)).any (·.isLE) = true) = true ↔ _
  cases x.toModel.unpack with
  | notANumber => simp [UnpackedFloat.compare]
  | infinity sign => cases sign <;> simp [UnpackedFloat.compare]
  | zero sign => simp [UnpackedFloat.compare]
  | finite sign m e hm => cases sign <;> simp [UnpackedFloat.compare, hm]

theorem beq_zero_eq_false (h : ¬ x ≤ 0.0) : (x == 0.0) = false := by
  rw [Bool.eq_false_iff, Ne, beq_zero_iff]
  rintro ⟨sign, hzero⟩
  rw [not_le_zero_iff, hzero] at h
  simp at h

theorem ofFloat_eq_positive_iff (hm : 0 < m) :
    Binary64.ofFloat x = .finite false m e ↔ x.toModel.unpack = .finite .positive m e hm := by
  rw [Binary64.ofFloat_eq]
  cases x.toModel.unpack with
  | notANumber => simp [Binary64.ofUnpacked]
  | infinity sign => simp [Binary64.ofUnpacked]
  | zero sign => simp [Binary64.ofUnpacked, hm.ne]
  | finite sign m e hm => cases sign <;> simp [Binary64.ofUnpacked, Binary64.isNegative]

/-- **When a square vanishes.**  The square of a positive double is zero if it is at most half of the least
double. -/
theorem mul_self_beq_zero_iff :
    ¬ x ≤ 0.0 ∧ (x * x == 0.0) = true ↔
      ∃ m e, Binary64.ofFloat x = .finite false m e ∧ 0 < m ∧ dyadic m e ^ 2 ≤ 2 ^ (-1075 : Int) := by
  have hsquare : (x * x).toModel.unpack =
    (pack (UnpackedFloat.mul .binary64 x.toModel.unpack x.toModel.unpack)).unpack := rfl
  have hfinite {m : Nat} {e : Int} (hm : 0 < m) (hx : x.toModel.unpack = .finite .positive m e hm) :
      (x * x == 0.0) = true ↔ dyadic m e ^ 2 ≤ 2 ^ (-1075 : Int) := by
    have hdyadic : dyadic m e ^ 2 = dyadic (m * m) (e + e) := by
      rw [dyadic, dyadic, two_zpow_add, Nat.cast_mul]
      ring
    rw [beq_zero_iff, hsquare, hx, hdyadic]
    exact exists_unpack_pack_round_iff (Nat.mul_pos hm hm)
  rw [not_le_zero_iff]
  constructor
  · rintro ⟨hx | hx | ⟨m, e, hm, hx⟩, hzero⟩
    · rw [beq_zero_iff, hsquare, hx] at hzero
      obtain ⟨sign, hzero⟩ := hzero
      cases hzero
    · rw [beq_zero_iff, hsquare, hx] at hzero
      obtain ⟨sign, hzero⟩ := hzero
      cases hzero
    · exact ⟨m, e, (ofFloat_eq_positive_iff hm).2 hx, hm, (hfinite hm hx).1 hzero⟩
  · rintro ⟨m, e, hx, hm, hsmall⟩
    rw [ofFloat_eq_positive_iff hm] at hx
    exact ⟨.inr (.inr ⟨m, e, hm, hx⟩), (hfinite hm hx).2 hsmall⟩

end

/-! ### Integers -/

theorem isFinite_neg (x : Float) : x.neg.isFinite = x.isFinite := by
  change (pack x.toModel.unpack.neg).unpack.isFinite = x.toModel.unpack.isFinite
  cases hx : x.toModel.unpack with
  | notANumber => rfl
  | infinity sign => cases sign <;> rfl
  | zero sign => cases sign <;> rfl
  | finite sign m e hm =>
    have hparts : Binary64.ofFloat x = .finite (Binary64.isNegative sign) m e := by
      rw [Binary64.ofFloat_eq, hx]
      rfl
    obtain ⟨hmax, he, he', -⟩ := Binary64.bounds_of_ofFloat hparts
    exact (isFinite_pack_finite hmax he).2 he'

/-- A mantissa that fits is exact. -/
theorem round_of_lt (hm : 0 < m) (hmax : m < 2 ^ 53) (he : -1074 ≤ e) :
    roundWithAccuracy .binary64 sign m e .exact = .finite sign m e hm := by
  obtain ⟨r, hnearest, hround⟩ := exists_isNearest_round sign m e
  rw [lostBits_of_lt hmax he] at hnearest hround
  have hr : r = m := by
    have hle := hnearest.le
    have hge := hnearest.ge
    omega
  subst hr
  rcases hround with ⟨hr, -⟩ | ⟨_, _, hround⟩ | ⟨hr, -⟩
  · omega
  · simpa using hround
  · omega

theorem le_lastPlace (hm : 2 ^ 52 ≤ m) : e ≤ lastPlace m e := by
  have hlog : 52 ≤ m.log2 := (Nat.le_log2 (by omega)).2 hm
  unfold lastPlace
  omega

theorem dyadic_shift (n k : Nat) : dyadic (n * 2 ^ k) (-k) = n := by
  rw [dyadic_mul_two_pow, neg_add_cancel, dyadic, zpow_zero, mul_one]

theorem ofNat_eq_round {n : Nat} (hpos : 0 < n) (hn : n < 2 ^ 53) :
    UnpackedFloat.ofNat .binary64 n = roundWithAccuracy .binary64 .positive
      (n * 2 ^ (52 - n.log2)) (-(52 - n.log2 : Nat)) .exact := by
  have hlog := log2_le_of_lt hn
  have hlast : (0 - lastPlace n 0).toNat = 52 - n.log2 := by
    unfold lastPlace
    omega
  unfold UnpackedFloat.ofNat UnpackedFloat.ofInt UnpackedFloat.normalize
  rw [Int.compare_eq_gt.2 (by omega)]
  unfold UnpackedFloat.round UnpackedFloat.decreaseExponent
  dsimp only
  rw [Int.toNat_natCast, targetExponent_eq, hlast, Nat.shiftLeft_eq, zero_sub]

/-- A whole number that fits is exact. -/
theorem unpack_toFloat {n : Nat} (hpos : 0 < n) (hn : n < 2 ^ 53) :
    ∃ m e hm, n.toUInt64.toFloat.toModel.unpack = .finite .positive m e hm ∧ 2 ^ 52 ≤ m ∧
      dyadic m e = n := by
  have hlog := log2_le_of_lt hn
  have hmin : 2 ^ 52 ≤ n * 2 ^ (52 - n.log2) :=
    calc 2 ^ 52 = 2 ^ n.log2 * 2 ^ (52 - n.log2) := by rw [← Nat.pow_add]; congr 1; omega
      _ ≤ n * 2 ^ (52 - n.log2) := Nat.mul_le_mul_right _ (Nat.log2_self_le hpos.ne')
  have hmax : n * 2 ^ (52 - n.log2) < 2 ^ 53 :=
    calc n * 2 ^ (52 - n.log2) < 2 ^ (n.log2 + 1) * 2 ^ (52 - n.log2) :=
          Nat.mul_lt_mul_of_pos_right Nat.lt_log2_self (Nat.two_pow_pos _)
      _ = 2 ^ 53 := by rw [← Nat.pow_add]; congr 1; omega
  have hm : 0 < n * 2 ^ (52 - n.log2) := by omega
  refine ⟨_, _, hm, ?_, hmin, dyadic_shift n (52 - n.log2)⟩
  rw [← unpack_pack_normal hmin hmax (by omega) (by omega), ← round_of_lt hm hmax (by omega)]
  have hwidth : n.toUInt64.toNat = n := Nat.mod_eq_of_lt (by omega)
  rw [← ofNat_eq_round hpos hn]
  change (pack (UnpackedFloat.ofNat .binary64 n.toUInt64.toNat)).unpack = _
  rw [hwidth]

theorem isFinite_mul (x y : Float) : (x * y).isFinite =
    (pack (UnpackedFloat.mul .binary64 x.toModel.unpack y.toModel.unpack)).isFinite := rfl

/-- The first power of ten is one. -/
theorem unpack_one : Float.exactlyRepresentablePowersOfTen[0].toModel.unpack =
    .finite .positive (2 ^ 52) (-52) (by decide) := rfl

theorem isFinite_ofNat {n : Nat} : (Float.ofNat n).isFinite = true ↔ n < beyond := by
  by_cases hn : n < 2 ^ 53
  · have hmul : Float.ofNat n = n.toUInt64.toFloat * Float.exactlyRepresentablePowersOfTen[0] :=
      dif_pos ⟨hn, by decide⟩
    rw [hmul, isFinite_mul, unpack_one]
    by_cases hzero : n = 0
    · subst hzero
      exact iff_of_true rfl beyond_pos
    · obtain ⟨m, e, hm, hunpack, hmin, hvalue⟩ := unpack_toFloat (Nat.pos_of_ne_zero hzero) hn
      have hround := @isFinite_pack_round_iff .positive (m * 2 ^ 52) (e + -52) (by omega)
        (le_lastPlace (by omega))
      have hsame : dyadic (m * 2 ^ 52) (e + -52) = n := by
        rw [dyadic_mul_two_pow, ← hvalue]
        congr 1
        omega
      rw [hsame, Nat.cast_lt] at hround
      rw [hunpack]
      exact hround
  · have hscale : Float.ofNat n = ⟨Float.Model.ofScientific n 0⟩ := dif_neg (by omega)
    have hround := @isFinite_pack_round_iff .positive (n * 2 ^ 53) (-(53 : Nat)) (by omega)
      (le_lastPlace (by omega))
    rw [dyadic_shift, Nat.cast_lt] at hround
    have hsmall : ¬ (0 : Int) < -(2 ^ 11 + n.log2) := by omega
    have hshift : (n <<< 53) * 10 ^ 0 = n * 2 ^ 53 := by rw [Nat.pow_zero, Nat.mul_one, Nat.shiftLeft_eq]
    rw [hscale, ← hround, ← hshift]
    change (pack (UnpackedFloat.ofScientific .binary64 n 0)).isFinite = true ↔ _
    unfold UnpackedFloat.ofScientific
    rw [dif_neg (by omega), if_neg (by decide), if_neg hsmall, if_pos le_rfl]
    rfl

/-- **Which integers are beyond the doubles.** -/
theorem ofInt?_eq_none_iff {n : Int} : ofInt? n = none ↔ beyond ≤ n.natAbs := by
  have hfinite : (Float.ofInt n).isFinite = true ↔ n.natAbs < beyond := by
    cases n with
    | ofNat n => exact isFinite_ofNat
    | negSucc n =>
      change (Float.ofNat (n + 1)).neg.isFinite = true ↔ n + 1 < beyond
      rw [isFinite_neg]
      exact isFinite_ofNat
  unfold ofInt?
  dsimp only
  rw [← not_lt, ← hfinite]
  split
  · next h => simp [h]
  · next h => simp [h]

/-- An integer that is rounded to a double is rounded to a finite one. -/
theorem ofFloat_of_ofInt? {n : Int} {x : Float} (h : ofInt? n = some x) :
    ∃ negative m e, Binary64.ofFloat x = .finite negative m e := by
  obtain ⟨hfinite, heq⟩ := Option.ite_none_right_eq_some.1 h
  cases heq
  rw [Binary64.ofFloat_eq]
  change (Float.ofInt n).toModel.unpack.isFinite = true at hfinite
  cases hx : (Float.ofInt n).toModel.unpack with
  | notANumber => rw [hx] at hfinite; cases hfinite
  | infinity sign => rw [hx] at hfinite; cases hfinite
  | zero sign => exact ⟨_, _, _, rfl⟩
  | finite sign m e hm => exact ⟨_, _, _, rfl⟩

end TraceGraph.Decimal
