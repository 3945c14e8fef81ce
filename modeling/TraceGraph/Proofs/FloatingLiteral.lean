import TraceGraph.Proofs.Ascii
import TraceGraph.Proofs.Shortest

/-!
# Floating-point literals as Java reads them

A decimal floating-point literal is digits with a point among them and an exponent, where the point or the
exponent may be missing (`floatingLiteral?`).  It stands for an exact number, which is rounded to the nearest
double.

A layout puts the digits of a decimal around a point, with zeros where they are needed, or writes them with an
exponent; in each of these forms they are a literal, and its value is the decimal (`floatingLiteral?_decimal`).
So the text of a finite double is a literal for it (`denotes_text`).
-/

namespace TraceGraph

namespace Java

open Decimal.Layout (zeros)

/-- The number that a row of digits spells. -/
def spelled (digits : List Char) : Nat := Nat.ofDigitChars 10 digits 0

/-- A row of digits, with one digit at least. -/
def digits? (cs : List Char) : Option Nat :=
  if cs ≠ [] ∧ cs.all Char.isDigit then some (spelled cs) else none

/-- The exponent of a literal: an `e`, then a sign or none, then digits. -/
def exponentPart? : List Char → Option Int
  | [] => none
  | mark :: rest =>
    if mark = 'e' ∨ mark = 'E' then
      match rest with
      | '-' :: cs => (digits? cs).map fun n : Nat => -(n : Int)
      | '+' :: cs => (digits? cs).map Int.ofNat
      | cs => (digits? cs).map Int.ofNat
    else none

/-- The value of a literal with a point, with these digits before the point and this text after it.  A digit
has to stand on one side of the point at least. -/
def pointLiteral? (whole rest : List Char) : Option ℚ :=
  let fraction := rest.takeWhile Char.isDigit
  let tail := rest.dropWhile Char.isDigit
  if whole = [] ∧ fraction = [] then none
  else (if tail = [] then some 0 else exponentPart? tail).map fun e : Int =>
    spelled (whole ++ fraction) * 10 ^ (e - fraction.length)

/-- The exact value of a decimal floating-point literal.  Without a point it has to have an exponent, since it
would be an integer otherwise. -/
def floatingLiteral? (cs : List Char) : Option ℚ :=
  let whole := cs.takeWhile Char.isDigit
  match cs.dropWhile Char.isDigit with
  | '.' :: rest => pointLiteral? whole rest
  | tail => if whole = [] then none else (exponentPart? tail).map fun e : Int => spelled whole * 10 ^ e

/-! ### Rows of digits -/

section

variable {a b rest : List Char} {k : Nat}

theorem spelled_append (a b : List Char) : spelled (a ++ b) = spelled a * 10 ^ b.length + spelled b := by
  unfold spelled
  rw [Nat.ofDigitChars_append, Nat.ofDigitChars_eq_ofDigitChars_zero, Nat.mul_comm]

theorem length_zeros (k : Nat) : (zeros k).length = k := List.length_replicate

theorem spelled_zeros (k : Nat) : spelled (zeros k) = 0 := by
  rw [spelled, zeros, Nat.ofDigitChars_replicate_zero, Nat.mul_zero]

theorem spelled_zeros_append (k : Nat) (b : List Char) : spelled (zeros k ++ b) = spelled b := by
  rw [spelled_append, spelled_zeros, Nat.zero_mul, Nat.zero_add]

theorem spelled_append_zeros (a : List Char) (k : Nat) :
    spelled (a ++ zeros k) = spelled a * 10 ^ k := by
  rw [spelled_append, spelled_zeros, length_zeros, Nat.add_zero]

theorem zeros_append (a b : Nat) : zeros a ++ zeros b = zeros (a + b) :=
  List.replicate_append_replicate

theorem isDigit_of_mem_zeros : ∀ c ∈ zeros k, c.isDigit = true := by
  intro c hc
  rw [List.eq_of_mem_replicate hc]
  rfl

theorem digits?_eq_some (hne : a ≠ []) (ha : ∀ c ∈ a, c.isDigit = true) : digits? a = some (spelled a) :=
  if_pos ⟨hne, List.all_eq_true.2 ha⟩

/-- A row of digits ends where something else comes. -/
theorem takeWhile_isDigit (ha : ∀ c ∈ a, c.isDigit = true) (hrest : ∀ c ∈ rest.head?, c.isDigit = false) :
    (a ++ rest).takeWhile Char.isDigit = a := by
  rw [List.takeWhile_append_of_pos ha]
  cases rest with
  | nil => simp
  | cons c rest => simp [hrest c rfl]

theorem dropWhile_isDigit (ha : ∀ c ∈ a, c.isDigit = true) (hrest : ∀ c ∈ rest.head?, c.isDigit = false) :
    (a ++ rest).dropWhile Char.isDigit = rest := by
  rw [List.dropWhile_append_of_pos ha]
  cases rest with
  | nil => simp
  | cons c rest => simp [hrest c rfl]

end

/-! ### The forms of a literal -/

section

variable {whole fraction tail : List Char}

theorem floatingLiteral?_pointTail (hne : whole ≠ []) (hwhole : ∀ c ∈ whole, c.isDigit = true)
    (hfraction : ∀ c ∈ fraction, c.isDigit = true) (htail : ∀ c ∈ tail.head?, c.isDigit = false) :
    floatingLiteral? (whole ++ '.' :: (fraction ++ tail)) =
      (if tail = [] then some 0 else exponentPart? tail).map fun e : Int =>
        (spelled (whole ++ fraction) : ℚ) * 10 ^ (e - fraction.length) := by
  have hpoint : ∀ c ∈ ('.' :: (fraction ++ tail)).head?, c.isDigit = false := by simp
  have hread : floatingLiteral? (whole ++ '.' :: (fraction ++ tail)) =
      pointLiteral? whole (fraction ++ tail) := by
    rw [floatingLiteral?, takeWhile_isDigit hwhole hpoint, dropWhile_isDigit hwhole hpoint]
    rfl
  rw [hread, pointLiteral?, takeWhile_isDigit hfraction htail, dropWhile_isDigit hfraction htail,
    if_neg fun h => hne h.1]

theorem floatingLiteral?_point (hne : whole ≠ []) (hwhole : ∀ c ∈ whole, c.isDigit = true)
    (hfraction : ∀ c ∈ fraction, c.isDigit = true) :
    floatingLiteral? (whole ++ '.' :: fraction) =
      some ((spelled (whole ++ fraction) : ℚ) * 10 ^ (-fraction.length : Int)) := by
  have hread := floatingLiteral?_pointTail hne hwhole hfraction
    (show ∀ c ∈ ([] : List Char).head?, c.isDigit = false by simp)
  rw [List.append_nil, if_pos rfl, Option.map_some, zero_sub] at hread
  exact hread

theorem floatingLiteral?_zero : floatingLiteral? ['0', '.', '0'] = some 0 := by
  refine (floatingLiteral?_point (show zeros 1 ≠ [] by decide) isDigit_of_mem_zeros
    (isDigit_of_mem_zeros (k := 1))).trans ?_
  rw [zeros_append, spelled_zeros, Nat.cast_zero, zero_mul]

theorem floatingLiteral?_exponent (hne : whole ≠ []) (hwhole : ∀ c ∈ whole, c.isDigit = true) :
    floatingLiteral? (whole ++ 'e' :: tail) =
      (exponentPart? ('e' :: tail)).map fun e : Int => (spelled whole : ℚ) * 10 ^ e := by
  have hmark : ∀ c ∈ ('e' :: tail).head?, c.isDigit = false := by simp
  rw [floatingLiteral?, takeWhile_isDigit hwhole hmark, dropWhile_isDigit hwhole hmark]
  exact if_neg hne

/-- An exponent that is written with a sign, and with zeros before its digits. -/
theorem exponentPart?_signed (k : Nat) (e : Int) :
    exponentPart? ('e' :: (if e < 0 then '-' else '+') :: (zeros k ++ Nat.toDigits 10 e.natAbs)) =
      some e := by
  have hdigits : digits? (zeros k ++ Nat.toDigits 10 e.natAbs) = some e.natAbs := by
    rw [digits?_eq_some, spelled_zeros_append, spelled, Nat.ofDigitChars_ten_toDigits]
    · simp [Nat.toDigits_ne_nil]
    · intro c hc
      rcases List.mem_append.1 hc with hc | hc
      · exact isDigit_of_mem_zeros c hc
      · exact Nat.isDigit_of_mem_toDigits (by decide) (by decide) hc
  by_cases hneg : e < 0
  · rw [if_pos hneg, exponentPart?, if_pos (.inl rfl), hdigits, Option.map_some,
      Int.ofNat_natAbs_of_nonpos hneg.le, neg_neg]
  · rw [if_neg hneg, exponentPart?, if_pos (.inl rfl), hdigits, Option.map_some]
    exact congrArg some (Int.natAbs_of_nonneg (not_lt.1 hneg))

end

end Java

/-! ### Layouts -/

namespace Decimal.Layout

open Java (spelled length_zeros zeros_append spelled_append_zeros spelled_zeros_append isDigit_of_mem_zeros
  floatingLiteral? floatingLiteral?_point floatingLiteral?_pointTail floatingLiteral?_exponent
  exponentPart?_signed)

/-- The zeros at the end of a number are left out. -/
theorem exists_zeros (n : Nat) :
    ∃ k, Nat.toDigits 10 n = significantDigits n ++ zeros k := by
  have hsplit := List.takeWhile_append_dropWhile (p := (· == '0')) (l := (Nat.toDigits 10 n).reverse)
  refine ⟨((Nat.toDigits 10 n).reverse.takeWhile (· == '0')).length, ?_⟩
  have hzeros : (Nat.toDigits 10 n).reverse.takeWhile (· == '0') =
      List.replicate ((Nat.toDigits 10 n).reverse.takeWhile (· == '0')).length '0' :=
    List.eq_replicate_of_mem fun c hc => by simpa using List.all_eq_true.1 List.all_takeWhile c hc
  have hreverse := congrArg List.reverse hsplit
  rw [List.reverse_append, List.reverse_reverse, hzeros, List.reverse_replicate] at hreverse
  exact hreverse.symm

/-- The value of a decimal by its significant digits, which count from its point. -/
theorem cast_eq (d : Scientific) :
    (d.significand : ℚ) * 10 ^ d.exponent =
      spelled (significantDigits d.significand) *
        10 ^ (d.exponent + digitCount d.significand - (significantDigits d.significand).length) := by
  obtain ⟨k, hk⟩ := exists_zeros d.significand
  have hvalue : spelled (significantDigits d.significand) * 10 ^ k = d.significand := by
    rw [← spelled_append_zeros, ← hk, spelled, Nat.ofDigitChars_ten_toDigits]
  have hlength : digitCount d.significand = (significantDigits d.significand).length + k := by
    rw [digitCount, hk, List.length_append, length_zeros]
  have hexponent : d.exponent + digitCount d.significand - (significantDigits d.significand).length =
      k + d.exponent := by omega
  calc (d.significand : ℚ) * 10 ^ d.exponent
      = spelled (significantDigits d.significand) * (10 ^ k * 10 ^ d.exponent) := by
        rw [← mul_assoc]
        exact_mod_cast congrArg (fun n : Nat => (n : ℚ) * 10 ^ d.exponent) hvalue.symm
    _ = _ := by rw [hexponent, ten_zpow_add, zpow_natCast]

theorem significantDigits_ne_nil {n : Nat} (hn : 0 < n) : significantDigits n ≠ [] := by
  intro hnil
  obtain ⟨k, hk⟩ := exists_zeros n
  have hvalue : spelled (Nat.toDigits 10 n) = 0 := by
    rw [hk, hnil, List.nil_append, Java.spelled_zeros]
  rw [spelled, Nat.ofDigitChars_ten_toDigits] at hvalue
  omega

section

variable {digits : List Char} (hne : digits ≠ []) (hdigits : ∀ c ∈ digits, c.isDigit = true)

include hne hdigits

theorem floatingLiteral?_positional (point : Int) :
    floatingLiteral? (positional digits point) =
      some ((spelled digits : ℚ) * 10 ^ (point - digits.length)) := by
  unfold positional
  dsimp only
  split
  · next hpoint =>
    -- All digits come after the point.
    change floatingLiteral? (zeros 1 ++ '.' :: (zeros (-point).toNat ++ digits)) = _
    rw [floatingLiteral?_point (by decide) isDigit_of_mem_zeros
      (List.forall_mem_append.2 ⟨isDigit_of_mem_zeros, hdigits⟩)]
    rw [spelled_zeros_append, spelled_zeros_append, List.length_append, length_zeros]
    congr 3
    omega
  · next hpoint =>
    split
    · next hwhole =>
      -- They come before the point, with zeros up to it.
      change floatingLiteral? (digits ++ zeros (point.toNat - digits.length) ++ '.' :: zeros 1) = _
      rw [floatingLiteral?_point (by simp [hne])
        (List.forall_mem_append.2 ⟨hdigits, isDigit_of_mem_zeros⟩) isDigit_of_mem_zeros]
      rw [List.append_assoc, zeros_append, spelled_append_zeros, length_zeros]
      rw [Nat.cast_mul, mul_assoc, Nat.cast_pow, ← zpow_natCast, Nat.cast_ofNat, ← ten_zpow_add]
      congr 3
      omega
    · next hwhole =>
      -- The point is among them.
      rw [floatingLiteral?_point (by simp [hne]; omega)
        (fun c hc => hdigits c (List.mem_of_mem_take hc)) (fun c hc => hdigits c (List.mem_of_mem_drop hc))]
      rw [List.take_append_drop, List.length_drop]
      congr 3
      omega

theorem floatingLiteral?_scientific (layout : Layout) (exponent : Int) :
    floatingLiteral? (layout.scientific digits exponent) =
      some ((spelled digits : ℚ) * 10 ^ (exponent + 1 - digits.length)) := by
  cases digits with
  | nil => exact absurd rfl hne
  | cons first rest =>
    have hfirst : ∀ c ∈ [first], c.isDigit = true :=
      List.forall_mem_singleton.2 (hdigits first List.mem_cons_self)
    cases rest with
    | nil =>
      refine (floatingLiteral?_exponent hne hfirst).trans ?_
      rw [exponentPart?_signed, Option.map_some, List.length_singleton, Nat.cast_one, add_sub_cancel_right]
    | cons second rest =>
      have hrest : ∀ c ∈ second :: rest, c.isDigit = true :=
        fun c hc => hdigits c (List.mem_cons_of_mem first hc)
      refine (floatingLiteral?_pointTail (List.cons_ne_nil first []) hfirst hrest (by simp)).trans ?_
      rw [if_neg (List.cons_ne_nil _ _), exponentPart?_signed, Option.map_some]
      congr 3
      simp only [List.length_cons]
      omega

end

/-- **A decimal that is laid out is a literal for it.** -/
theorem floatingLiteral?_decimal (layout : Layout) {d : Scientific} (hd : 0 < d.significand) :
    floatingLiteral? (layout.decimal d) = some ((d.significand : ℚ) * 10 ^ d.exponent) := by
  have hne := significantDigits_ne_nil hd
  rw [cast_eq, decimal]
  split
  · exact floatingLiteral?_positional hne isDigit_of_mem_significantDigits _
  · rw [floatingLiteral?_scientific hne isDigit_of_mem_significantDigits, sub_add_cancel]

end Decimal.Layout

/-! ### Doubles -/

namespace Java

open Decimal (Binary64 Rounds)

/-- The text is a literal for the finite double, with a minus sign before it if the double has one.  The value
of the literal is rounded to the double; a literal must not vanish by rounding alone. -/
inductive Denotes (text : String) (x : Float) : Prop
  | intro {negative : Bool} {m : Nat} {e : Int} {literal : List Char} {v : ℚ}
      (hparts : Binary64.ofFloat x = .finite negative m e)
      (htext : text.toList = if negative then '-' :: literal else literal)
      (hliteral : floatingLiteral? literal = some v) (hrounds : Rounds v m e) (hzero : m = 0 → v = 0)

theorem Denotes.isFinite {text : String} {x : Float} (h : Denotes text x) : x.isFinite = true := by
  obtain ⟨hparts, -, -, -, -⟩ := h
  exact Binary64.exists_finite_iff.1 ⟨_, _, _, hparts⟩

/-- **The text of a finite double is a literal for it.** -/
theorem denotes_text {x : Float} (h : x.isFinite = true) : Denotes (Decimal.text x) x := by
  obtain ⟨negative, m, e, hparts⟩ := Binary64.exists_finite_iff.2 h
  obtain ⟨hmax, -, -, -⟩ := Binary64.bounds_of_ofFloat hparts
  have htext : ∀ literal,
      (if m = 0 then "0.0" else String.ofList (Decimal.plain.decimal (Decimal.shortest m e))) =
        String.ofList literal →
      (Decimal.text x).toList = if negative then '-' :: literal else literal := by
    intro literal h
    rw [Decimal.text, Decimal.Layout.text, hparts, Decimal.Layout.parts, h]
    cases negative <;> simp
  by_cases hm : m = 0
  · subst hm
    exact .intro hparts (htext _ rfl) floatingLiteral?_zero (.zero e) fun _ => rfl
  · have hpos : 0 < m := Nat.pos_of_ne_zero hm
    exact .intro hparts (htext _ (if_neg hm))
      (Decimal.Layout.floatingLiteral?_decimal _ (Decimal.significand_shortest_pos hpos hmax))
      (Decimal.rounds_shortest hpos hmax) fun h => absurd h hm

end Java

end TraceGraph
