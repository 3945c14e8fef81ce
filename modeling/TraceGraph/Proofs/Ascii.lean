import TraceGraph.Java.Expression
import TraceGraph.Text.Ranges

/-!
# Texts by their characters

Texts are put together from other texts, so what holds of all characters of the parts holds of the whole:
`Text.All` and its rules.  Literals are written in printable ASCII, whatever they are: quoted text, since
every other character is escaped, and numbers, since they are made of digits and a few signs
(`Literal.ascii_java`).
-/

namespace TraceGraph

namespace Text

/-- All characters of the text are of a kind. -/
def All (p : Char → Prop) (s : String) : Prop := ∀ c ∈ s.toList, p c

/-- What holds of all characters of a list is decided along the list. -/
instance decidableForallMem (p : Char → Prop) [DecidablePred p] (cs : List Char) :
    Decidable (∀ c ∈ cs, p c) :=
  List.decidableBAll p cs

instance (p : Char → Prop) [DecidablePred p] (s : String) : Decidable (All p s) :=
  inferInstanceAs (Decidable (∀ c ∈ s.toList, p c))

section

variable {p q : Char → Prop}

theorem All.mono {s : String} (h : All p s) (hpq : ∀ c, p c → q c) : All q s :=
  fun c hc => hpq c (h c hc)

theorem all_ofList {cs : List Char} : All p (String.ofList cs) ↔ ∀ c ∈ cs, p c := by
  rw [All, String.toList_ofList]

@[simp] theorem all_append {a b : String} : All p (a ++ b) ↔ All p a ∧ All p b := by
  simp [All, or_imp, forall_and]

theorem all_join {separator : String} (hseparator : All p separator) {items : List String}
    (h : ∀ item ∈ items, All p item) : All p (join separator items) := by
  induction items with
  | nil =>
    intro c hc
    simp at hc
  | cons item rest ih =>
    obtain ⟨hitem, hrest⟩ := List.forall_mem_cons.1 h
    cases rest with
    | nil => exact hitem
    | cons next rest =>
      rw [join_cons_cons, all_append, all_append]
      exact ⟨⟨hitem, hseparator⟩, ih hrest⟩

end

/-- Is the character printable ASCII? -/
def IsAscii (c : Char) : Prop := 0x20 ≤ c.toNat ∧ c.toNat ≤ 0x7e

instance (c : Char) : Decidable (IsAscii c) :=
  inferInstanceAs (Decidable (0x20 ≤ c.toNat ∧ c.toNat ≤ 0x7e))

/-- A text in printable ASCII. -/
abbrev Ascii (s : String) : Prop := All IsAscii s

/-- Below a bound, only the ranges that begin below it count. -/
theorem contains_eq_of_lt {bound : Nat} {c : Char} (h : c.toNat < bound) (ranges : Ranges) :
    ranges.contains c = Ranges.contains (ranges.filter fun range => range.1 < bound) c := by
  rw [Ranges.contains, Ranges.contains, List.any_filter]
  refine List.any_congr rfl fun range => ?_
  by_cases hrange : range.1 ≤ c.toNat
  · have hlow : range.1 < bound := by omega
    simp [hlow]
  · simp [hrange]

/-! ### Digits -/

theorem isAscii_digitChar (n : Nat) : IsAscii n.digitChar := by
  by_cases h : n < 16
  · have hsmall : ∀ m < 16, IsAscii m.digitChar := by decide
    exact hsmall n h
  · rw [Nat.digitChar_eq_star.2 (Nat.le_of_not_lt h)]
    decide

/-- The digits of a number are printable, in every base. -/
theorem isAscii_of_mem_toDigits {base : Nat} (hbase : 1 < base) (n : Nat) :
    ∀ c ∈ Nat.toDigits base n, IsAscii c := by
  induction n using Nat.strongRecOn with
  | ind n ih =>
    intro c hc
    rw [Nat.toDigits_eq_if hbase] at hc
    split at hc
    · rw [List.mem_singleton.1 hc]
      exact isAscii_digitChar n
    · rcases List.mem_append.1 hc with hc | hc
      · exact ih (n / base) (Nat.div_lt_self (by omega) hbase) c hc
      · rw [List.mem_singleton.1 hc]
        exact isAscii_digitChar _

/-! ### Quoted text -/

theorem isAscii_of_mem_hex {width n : Nat} : ∀ c ∈ hex width n, IsAscii c := by
  intro c hc
  rcases List.mem_append.1 hc with hc | hc
  · rw [List.eq_of_mem_replicate hc]
    decide
  · exact isAscii_of_mem_toDigits (by decide) n c hc

theorem isAscii_of_mem_unitEscape {unit : Nat} : ∀ c ∈ unitEscape unit, IsAscii c :=
  List.forall_mem_cons.2 ⟨by decide, List.forall_mem_cons.2 ⟨by decide, isAscii_of_mem_hex⟩⟩

/-- Every character is escaped unless it is printable. -/
theorem isAscii_of_mem_escape (c : Char) : ∀ e ∈ escape c, IsAscii e := by
  unfold escape
  iterate 7
    split
    · decide
  split
  · next hprintable => exact List.forall_mem_singleton.2 hprintable
  · intro e he
    obtain ⟨unit, -, he⟩ := List.mem_flatMap.1 he
    exact isAscii_of_mem_unitEscape e he

theorem ascii_doubleQuoted (s : String) : Ascii (doubleQuoted s) := by
  rw [doubleQuoted, Ascii, all_ofList]
  intro c hc
  simp only [List.cons_append, List.mem_cons, List.mem_append, List.mem_flatMap, List.not_mem_nil,
    or_false] at hc
  rcases hc with rfl | ⟨d, -, hc⟩ | rfl
  · decide
  · exact isAscii_of_mem_escape d c hc
  · decide

end Text

open Text (All Ascii IsAscii all_append all_ofList)

/-! ### Numbers -/

namespace Decimal

/-- Can the character stand in a number?  It is a digit, the point, the mark of an exponent or a sign. -/
def IsNumeral (c : Char) : Prop := c.isDigit = true ∨ c ∈ ['.', 'e', '+', '-']

instance (c : Char) : Decidable (IsNumeral c) :=
  inferInstanceAs (Decidable (c.isDigit = true ∨ c ∈ ['.', 'e', '+', '-']))

theorem IsNumeral.isAscii {c : Char} (h : IsNumeral c) : IsAscii c := by
  rcases h with hdigit | hsign
  · have hrange : 48 ≤ c.toNat ∧ c.toNat ≤ 57 := by
      simpa [Char.isDigit, UInt32.le_iff_toNat_le] using hdigit
    exact ⟨Nat.le_trans (by decide) hrange.1, Nat.le_trans hrange.2 (by decide)⟩
  · have hall : ∀ c ∈ ['.', 'e', '+', '-'], IsAscii c := by decide
    exact hall c hsign

theorem isNumeral_of_mem_toDigits {n : Nat} : ∀ c ∈ Nat.toDigits 10 n, IsNumeral c :=
  fun _ hc => .inl (Nat.isDigit_of_mem_toDigits (by decide) (by decide) hc)

theorem all_isNumeral_toString_nat (n : Nat) : All IsNumeral (toString n) := by
  change All IsNumeral n.repr
  rw [Nat.repr_eq_ofList_toDigits, all_ofList]
  exact isNumeral_of_mem_toDigits

theorem all_isNumeral_toString (n : Int) : All IsNumeral (toString n) := by
  cases n with
  | ofNat n => exact all_isNumeral_toString_nat n
  | negSucc n =>
    change All IsNumeral ("-" ++ (n + 1).repr)
    exact all_append.2 ⟨by decide, all_isNumeral_toString_nat (n + 1)⟩

theorem ascii_toString (n : Int) : Ascii (toString n) :=
  (all_isNumeral_toString n).mono fun _ => IsNumeral.isAscii

theorem ascii_of_integerText? {n : Int} {text : String} (h : integerText? n = some text) :
    Ascii text := by
  obtain ⟨-, heq⟩ := Option.ite_none_right_eq_some.1 h
  cases heq
  exact ascii_toString n

namespace Layout

theorem isNumeral_of_mem_zeros {n : Nat} : ∀ c ∈ zeros n, IsNumeral c := by
  intro c hc
  rw [List.eq_of_mem_replicate hc]
  decide

theorem isNumeral_of_mem_positional {digits : List Char} (h : ∀ c ∈ digits, IsNumeral c)
    (point : Int) : ∀ c ∈ positional digits point, IsNumeral c := by
  intro c hc
  unfold positional at hc
  simp only at hc
  split at hc
  · simp only [List.mem_cons, List.mem_append] at hc
    rcases hc with rfl | rfl | hc | hc
    · decide
    · decide
    · exact isNumeral_of_mem_zeros c hc
    · exact h c hc
  · split at hc
    · simp only [List.mem_cons, List.mem_append, List.not_mem_nil, or_false] at hc
      rcases hc with (hc | hc) | rfl | rfl
      · exact h c hc
      · exact isNumeral_of_mem_zeros c hc
      · decide
      · decide
    · simp only [List.mem_cons, List.mem_append] at hc
      rcases hc with hc | rfl | hc
      · exact h c (List.mem_of_mem_take hc)
      · decide
      · exact h c (List.mem_of_mem_drop hc)

theorem isNumeral_of_mem_scientific (layout : Layout) {digits : List Char}
    (h : ∀ c ∈ digits, IsNumeral c) (exponent : Int) :
    ∀ c ∈ layout.scientific digits exponent, IsNumeral c := by
  intro c hc
  unfold scientific at hc
  simp only [List.mem_cons, List.mem_append] at hc
  rcases hc with (hc | hc) | rfl | rfl | hc | hc
  · exact h c (List.mem_of_mem_take hc)
  · split at hc
    · cases hc
    · rcases List.mem_cons.1 hc with rfl | hc
      · decide
      · exact h c (List.mem_of_mem_drop hc)
  · decide
  · split <;> decide
  · exact isNumeral_of_mem_zeros c hc
  · exact isNumeral_of_mem_toDigits c hc

theorem isDigit_of_mem_significantDigits {n : Nat} : ∀ c ∈ significantDigits n, c.isDigit = true := by
  intro c hc
  have hmem := (List.dropWhile_sublist _).subset (List.mem_reverse.1 hc)
  exact Nat.isDigit_of_mem_toDigits (by decide) (by decide) (List.mem_reverse.1 hmem)

theorem isNumeral_of_mem_significantDigits {n : Nat} : ∀ c ∈ significantDigits n, IsNumeral c :=
  fun c hc => .inl (isDigit_of_mem_significantDigits c hc)

theorem isNumeral_of_mem_decimal (layout : Layout) (d : Scientific) :
    ∀ c ∈ layout.decimal d, IsNumeral c := by
  unfold decimal
  simp only
  split
  · exact isNumeral_of_mem_positional isNumeral_of_mem_significantDigits _
  · exact isNumeral_of_mem_scientific layout isNumeral_of_mem_significantDigits _

end Layout

/-- A double is written as a number, or by one of three words. -/
theorem text_cases (x : Float) : text x ∈ ["nan", "inf", "-inf"] ∨ All IsNumeral (text x) := by
  change plain.parts (Binary64.ofFloat x) ∈ _ ∨ All IsNumeral (plain.parts (Binary64.ofFloat x))
  cases Binary64.ofFloat x with
  | nan => exact .inl (by decide)
  | infinite negative => exact .inl (by cases negative <;> decide)
  | finite negative mantissa exponent =>
    refine .inr (all_append.2 ⟨by cases negative <;> decide, ?_⟩)
    split
    · decide
    · exact all_ofList.2 (Layout.isNumeral_of_mem_decimal _ _)

theorem ascii_text (x : Float) : Ascii (text x) := by
  rcases text_cases x with hword | hnumber
  · have hall : ∀ word ∈ ["nan", "inf", "-inf"], Ascii word := by decide
    exact hall _ hword
  · exact hnumber.mono fun _ => IsNumeral.isAscii

end Decimal

/-- **A literal is written in printable ASCII**, whatever characters it holds. -/
theorem Literal.ascii_java {value : Literal} {text : String} (h : value.java = .ok text) :
    Ascii text := by
  cases value with
  | null => cases h; decide
  | bool b =>
    cases h
    cases b <;> decide
  | int n =>
    unfold java at h
    dsimp only at h
    split at h
    · next htext =>
      cases h
      exact Decimal.ascii_of_integerText? htext
    · cases h
  | float x =>
    cases h
    exact Decimal.ascii_text x
  | str s =>
    cases h
    exact Text.ascii_doubleQuoted s

end TraceGraph
