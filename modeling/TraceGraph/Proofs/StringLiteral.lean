import TraceGraph.Decimal.Reading
import TraceGraph.Proofs.Ascii

/-!
# String literals as Java reads them

Java reads a source text in two phases.  First the escapes `\uXXXX` are translated, wherever they stand, so
that a text becomes a list of UTF-16 units (`translate`); a backslash starts such an escape only if an even
number of backslashes comes right before it.  Then the units are cut into tokens, and inside a string literal
seven characters can be escaped by a backslash (`stringLiteral?`).  Quoted text uses both kinds of escapes,
so it has to survive both phases: a backslash of the text must not make an escape of the first phase, and
what an escape of the first phase stands for must not end the literal.

`StandsFor` says that a piece of a literal does that, whatever comes after it.  Each escaped character does
(`standsFor_escape`), and pieces can be laid end to end, because each leaves an even number of backslashes.
-/

namespace TraceGraph

/-! ### UTF-16 -/

namespace Text

/-- The UTF-16 units of a text. -/
def utf16 (s : String) : List Nat := s.toList.flatMap units

/-- The characters that UTF-16 units stand for; a surrogate has to be one of a pair. -/
def ofUtf16? : List Nat → Option (List Char)
  | [] => some []
  | unit :: rest =>
    if 0xd800 ≤ unit ∧ unit < 0xdc00 then
      match rest with
      | [] => none
      | low :: rest =>
        if 0xdc00 ≤ low ∧ low < 0xe000 then
          (ofUtf16? rest).map (Char.ofNat (0x10000 + (unit - 0xd800) * 0x400 + (low - 0xdc00)) :: ·)
        else none
    else if 0xdc00 ≤ unit ∧ unit < 0xe000 then none
    else (ofUtf16? rest).map (Char.ofNat unit :: ·)

/-- No character is a surrogate. -/
theorem toNat_cases (c : Char) : c.toNat < 0xd800 ∨ 0xdfff < c.toNat ∧ c.toNat < 0x110000 := c.valid

theorem ofUtf16?_units_append (c : Char) (rest : List Nat) :
    ofUtf16? (units c ++ rest) = (ofUtf16? rest).map (c :: ·) := by
  have hcases := toNat_cases c
  unfold units
  split
  · next hsmall =>
    have hhigh : ¬ (0xd800 ≤ c.toNat ∧ c.toNat < 0xdc00) := by omega
    have hlow : ¬ (0xdc00 ≤ c.toNat ∧ c.toNat < 0xe000) := by omega
    rw [List.singleton_append, ofUtf16?.eq_def]
    dsimp only
    rw [if_neg hhigh, if_neg hlow, Char.ofNat_toNat]
  · next hlarge =>
    have hhigh : 0xd800 ≤ 0xd800 + (c.toNat - 0x10000) / 0x400 ∧
        0xd800 + (c.toNat - 0x10000) / 0x400 < 0xdc00 := by omega
    have hlow : 0xdc00 ≤ 0xdc00 + (c.toNat - 0x10000) % 0x400 ∧
        0xdc00 + (c.toNat - 0x10000) % 0x400 < 0xe000 := by omega
    have hvalue : 0x10000 + (0xd800 + (c.toNat - 0x10000) / 0x400 - 0xd800) * 0x400 +
        (0xdc00 + (c.toNat - 0x10000) % 0x400 - 0xdc00) = c.toNat := by omega
    rw [List.cons_append, List.singleton_append, ofUtf16?.eq_def]
    dsimp only
    rw [if_pos hhigh, if_pos hlow, hvalue, Char.ofNat_toNat]

/-- A text can be read back from its units. -/
theorem ofUtf16?_utf16 (s : String) : ofUtf16? (utf16 s) = some s.toList := by
  rw [utf16]
  induction s.toList with
  | nil => rfl
  | cons c rest ih => rw [List.flatMap_cons, ofUtf16?_units_append, ih, Option.map_some]

/-- A unit has sixteen bits. -/
theorem lt_of_mem_units {c : Char} {unit : Nat} (h : unit ∈ units c) : unit < 0x10000 := by
  have hcases := toNat_cases c
  unfold units at h
  split at h
  · next hsmall =>
    rw [List.mem_singleton] at h
    omega
  · simp only [List.mem_cons, List.not_mem_nil, or_false] at h
    omega

/-- The units of a character are the character itself, or surrogates. -/
theorem eq_or_le_of_mem_units {c : Char} {unit : Nat} (h : unit ∈ units c) :
    unit = c.toNat ∨ 0xd800 ≤ unit := by
  unfold units at h
  split at h
  · exact .inl (List.mem_singleton.1 h)
  · simp only [List.mem_cons, List.not_mem_nil, or_false] at h
    omega

/-- A number in hexadecimal is its upper digits, and the last one. -/
theorem hex_succ {width : Nat} (hwidth : 0 < width) (n : Nat) :
    hex (width + 1) n = hex width (n / 16) ++ [(n % 16).digitChar] := by
  unfold hex
  dsimp only
  by_cases hn : n < 16
  · obtain ⟨rest, rfl⟩ := Nat.exists_eq_succ_of_ne_zero (Nat.ne_of_gt hwidth)
    rw [Nat.toDigits_of_lt_base hn, Nat.div_eq_of_lt hn, Nat.mod_eq_of_lt hn, Nat.toDigits_zero,
      List.length_singleton, List.length_singleton, Nat.add_sub_cancel, Nat.succ_sub_one,
      List.replicate_succ']
  · rw [Nat.toDigits_of_base_le (by decide) (Nat.le_of_not_lt hn), List.length_append,
      List.length_singleton, Nat.add_sub_add_right, List.append_assoc]

theorem hex_four {n : Nat} (h : n < 0x10000) : hex 4 n =
    [(n / 16 / 16 / 16).digitChar, (n / 16 / 16 % 16).digitChar, (n / 16 % 16).digitChar,
      (n % 16).digitChar] := by
  have hfirst : n / 16 / 16 / 16 < 16 := by omega
  have hone : hex 1 (n / 16 / 16 / 16) = [(n / 16 / 16 / 16).digitChar] := by
    unfold hex
    rw [Nat.toDigits_of_lt_base hfirst]
    rfl
  rw [hex_succ (by decide), hex_succ (by decide), hex_succ (by decide), hone]
  rfl

end Text

namespace Java

/-! ### The two phases -/

/-- The unit that four hexadecimal digits stand for. -/
def escapedUnit? (a b c d : Char) : Option Nat := do
  let a ← Decimal.digitValue? 16 a
  let b ← Decimal.digitValue? 16 b
  let c ← Decimal.digitValue? 16 c
  let d ← Decimal.digitValue? 16 d
  return ((a * 16 + b) * 16 + c) * 16 + d

/-- The first phase: a text as UTF-16 units, its escapes `\uXXXX` translated.  So many backslashes come
right before the text; after an even number of them a backslash and a `u` must start an escape. -/
def translate (before : Nat) : List Char → Option (List Nat)
  | [] => some []
  | c :: rest =>
    if c = '\\' then
      match before % 2, rest with
      | 0, 'u' :: a :: b :: c :: d :: rest => do
        return (← escapedUnit? a b c d) :: (← translate 0 rest)
      | 0, 'u' :: _ => none
      | _, rest => (translate (before + 1) rest).map (0x5c :: ·)
    else (translate 0 rest).map (Text.units c ++ ·)

/-- What a unit stands for after a backslash in a string literal. -/
def escapedValue? (unit : Nat) : Option Nat :=
  [('b', 0x08), ('t', 0x09), ('n', 0x0a), ('f', 0x0c), ('r', 0x0d), ('"', 0x22), ('\\', 0x5c)].findSome?
    fun entry => if entry.1.toNat = unit then some entry.2 else none

/-- The value of a string literal after its first quote, and the units after the literal. -/
def literalBody? : List Nat → Option (List Nat × List Nat)
  | [] => none
  | unit :: rest =>
    if unit = 0x22 then some ([], rest)
    else if unit = 0x5c then
      match rest with
      | [] => none
      | code :: rest => do
        let value ← escapedValue? code
        (literalBody? rest).map (Prod.map (value :: ·) id)
    else if unit = 0x0a ∨ unit = 0x0d then none
    else (literalBody? rest).map (Prod.map (unit :: ·) id)

/-- The second phase: the value of the string literal at the front, and the units after it. -/
def stringLiteral? : List Nat → Option (List Nat × List Nat)
  | [] => none
  | unit :: rest => if unit = 0x22 then literalBody? rest else none

/-- A piece of a string literal stands for these units of its value, if an even number of backslashes
comes before it; and then an even number comes before what is after it. -/
def StandsFor (piece : List Char) (value : List Nat) : Prop :=
  ∀ before, before % 2 = 0 → ∃ after units, after % 2 = 0 ∧
    (∀ rest, translate before (piece ++ rest) = (translate after rest).map (units ++ ·)) ∧
    ∀ rest, literalBody? (units ++ rest) = (literalBody? rest).map (Prod.map (value ++ ·) id)

namespace StandsFor

theorem nil : StandsFor [] [] := by
  intro before hbefore
  refine ⟨before, [], hbefore, fun rest => ?_, fun rest => ?_⟩
  · rw [List.nil_append]
    cases translate before rest <;> rfl
  · rw [List.nil_append]
    cases literalBody? rest <;> rfl

theorem append {piece piece' : List Char} {value value' : List Nat} (h : StandsFor piece value)
    (h' : StandsFor piece' value') : StandsFor (piece ++ piece') (value ++ value') := by
  intro before hbefore
  obtain ⟨middle, units, hmiddle, htranslate, hbody⟩ := h before hbefore
  obtain ⟨after, units', hafter, htranslate', hbody'⟩ := h' middle hmiddle
  refine ⟨after, units ++ units', hafter, fun rest => ?_, fun rest => ?_⟩
  · rw [List.append_assoc, htranslate, htranslate', Option.map_map]
    congr 1
    funext units''
    exact (List.append_assoc _ _ _).symm
  · rw [List.append_assoc, hbody, hbody', Option.map_map]
    congr 1
    funext read
    exact Prod.ext (List.append_assoc _ _ _).symm rfl

/-- Pieces can be laid end to end. -/
theorem flatMap {α : Type} {piece : α → List Char} {value : α → List Nat} {items : List α}
    (h : ∀ item ∈ items, StandsFor (piece item) (value item)) :
    StandsFor (items.flatMap piece) (items.flatMap value) := by
  induction items with
  | nil => exact nil
  | cons item rest ih =>
    rw [List.forall_mem_cons] at h
    exact h.1.append (ih h.2)

end StandsFor

/-! ### Escaped characters -/

theorem translate_cons_of_ne {c : Char} (hc : c ≠ '\\') (before : Nat) (rest : List Char) :
    translate before (c :: rest) = (translate 0 rest).map (Text.units c ++ ·) := by
  rw [translate.eq_def]
  dsimp only
  rw [if_neg hc]

/-- A backslash that starts no escape of the first phase is kept. -/
theorem translate_backslash {before : Nat} {rest : List Char}
    (h : before % 2 = 1 ∨ rest.head? ≠ some 'u') :
    translate before ('\\' :: rest) = (translate (before + 1) rest).map (0x5c :: ·) := by
  rw [translate.eq_def]
  dsimp only
  rw [if_pos rfl]
  split
  · next hparity =>
    rcases h with hodd | hhead
    · omega
    · exact absurd rfl hhead
  · next hparity _ =>
    rcases h with hodd | hhead
    · omega
    · exact absurd rfl hhead
  · rfl

theorem translate_unitEscape {before unit : Nat} (hbefore : before % 2 = 0) (hunit : unit < 0x10000)
    (rest : List Char) :
    translate before (Text.unitEscape unit ++ rest) = (translate 0 rest).map (unit :: ·) := by
  have hdigit : ∀ n < 16, Decimal.digitValue? 16 n.digitChar = some n := by decide
  have hvalue : escapedUnit? (unit / 16 / 16 / 16).digitChar (unit / 16 / 16 % 16).digitChar
      (unit / 16 % 16).digitChar (unit % 16).digitChar = some unit := by
    rw [escapedUnit?, hdigit _ (by omega), hdigit _ (by omega), hdigit _ (by omega), hdigit _ (by omega)]
    simp only [Option.bind_eq_bind, Option.bind_some, Option.pure_def, Option.some.injEq]
    omega
  rw [Text.unitEscape, Text.hex_four hunit, translate.eq_def]
  simp only [List.cons_append, List.nil_append, if_pos, hbefore, hvalue, Option.bind_eq_bind,
    Option.bind_some, Option.pure_def, Option.map_eq_bind]
  rfl

theorem literalBody?_cons {unit : Nat} (h : unit ∉ [0x22, 0x5c, 0x0a, 0x0d]) (rest : List Nat) :
    literalBody? (unit :: rest) = (literalBody? rest).map (Prod.map (unit :: ·) id) := by
  simp only [List.mem_cons, List.not_mem_nil, or_false, not_or] at h
  rw [literalBody?.eq_def]
  dsimp only
  rw [if_neg h.1, if_neg h.2.1, if_neg (not_or.2 h.2.2)]

/-- A unit of a character that has no short escape. -/
theorem standsFor_unitEscape {unit : Nat} (hunit : unit < 0x10000)
    (hplain : unit ∉ [0x22, 0x5c, 0x0a, 0x0d]) : StandsFor (Text.unitEscape unit) [unit] := by
  intro before hbefore
  exact ⟨0, [unit], rfl, translate_unitEscape hbefore hunit, literalBody?_cons hplain⟩

/-- A character that stands for itself. -/
theorem standsFor_self {c : Char} (hc : c.toNat < 0x10000) (hplain : c.toNat ∉ [0x22, 0x5c, 0x0a, 0x0d]) :
    StandsFor [c] [c.toNat] := by
  have hunits : Text.units c = [c.toNat] := if_pos hc
  have hbackslash : c ≠ '\\' := by
    rintro rfl
    exact hplain (by decide)
  intro before _
  refine ⟨0, [c.toNat], rfl, fun rest => ?_, literalBody?_cons hplain⟩
  rw [List.singleton_append, translate_cons_of_ne hbackslash, hunits]

/-- A character after a backslash.  A second backslash makes an even number of them again. -/
theorem standsFor_short {code : Char} {value : Nat} (hcode : code.toNat < 0x10000) (hu : code ≠ 'u')
    (hvalue : escapedValue? code.toNat = some value) : StandsFor ['\\', code] [value] := by
  have hunits : Text.units code = [code.toNat] := if_pos hcode
  intro before hbefore
  have hfirst : ∀ rest, translate before ('\\' :: code :: rest) =
      (translate (before + 1) (code :: rest)).map (0x5c :: ·) := by
    intro rest
    exact translate_backslash (.inr (by simpa using hu))
  have hbody : ∀ rest, literalBody? ([0x5c, code.toNat] ++ rest) =
      (literalBody? rest).map (Prod.map ([value] ++ ·) id) := by
    intro rest
    simp only [List.cons_append, List.nil_append]
    rw [literalBody?.eq_def]
    simp [hvalue]
  by_cases hcase : code = '\\'
  · subst hcase
    refine ⟨before + 2, [0x5c, 0x5c], by omega, fun rest => ?_, hbody⟩
    simp only [List.cons_append, List.nil_append]
    rw [hfirst, translate_backslash (.inl (by omega)), Option.map_map]
    rfl
  · refine ⟨0, [0x5c, code.toNat], rfl, fun rest => ?_, hbody⟩
    simp only [List.cons_append, List.nil_append]
    rw [hfirst, translate_cons_of_ne hcase, hunits, Option.map_map]
    rfl

/-- **Every escaped character stands for its units.** -/
theorem standsFor_escape (c : Char) : StandsFor (Text.escape c) (Text.units c) := by
  unfold Text.escape
  iterate 7
    split
    · next hc =>
      subst hc
      exact standsFor_short (by decide) (by decide) (by decide)
  next hquote hbackslash hfeed hreturn htab hback hform =>
  have hplain : ∀ unit ∈ Text.units c, unit ∉ [0x22, 0x5c, 0x0a, 0x0d] := by
    intro unit hunit hmem
    have hchar : ∀ d : Char, c ≠ d → c.toNat ≠ d.toNat := fun d hd h => hd (Char.toNat_inj.1 h)
    have h1 := hchar _ hquote
    have h2 := hchar _ hbackslash
    have h3 := hchar _ hfeed
    have h4 := hchar _ hreturn
    simp only [List.mem_cons, List.not_mem_nil, or_false] at hmem
    rcases Text.eq_or_le_of_mem_units hunit with rfl | hle
    · rcases hmem with h | h | h | h
      · exact h1 h
      · exact h2 h
      · exact h3 h
      · exact h4 h
    · omega
  split
  · next hprintable =>
    have hsmall : c.toNat < 0x10000 := by omega
    have hunits : Text.units c = [c.toNat] := if_pos hsmall
    rw [hunits] at hplain ⊢
    exact standsFor_self hsmall (hplain _ (List.mem_singleton_self _))
  · have hpieces : StandsFor ((Text.units c).flatMap Text.unitEscape)
        ((Text.units c).flatMap fun unit => [unit]) :=
      StandsFor.flatMap fun unit hunit =>
        standsFor_unitEscape (Text.lt_of_mem_units hunit) (hplain unit hunit)
    rwa [List.flatMap_singleton'] at hpieces

/-- Quoted text is one string literal, with nothing after it, and its value is the text. -/
theorem exists_translate_doubleQuoted (s : String) :
    ∃ units, translate 0 (Text.doubleQuoted s).toList = some units ∧
      stringLiteral? units = some (Text.utf16 s, []) := by
  have hpieces : StandsFor (s.toList.flatMap Text.escape) (Text.utf16 s) :=
    StandsFor.flatMap fun c _ => standsFor_escape c
  obtain ⟨after, units, -, htranslate, hbody⟩ := hpieces 0 rfl
  have hend : translate after ['"'] = some [0x22] := translate_cons_of_ne (by decide) after []
  have hlast : literalBody? [0x22] = some ([], []) := rfl
  refine ⟨0x22 :: (units ++ [0x22]), ?_, ?_⟩
  · rw [Text.doubleQuoted, String.toList_ofList, List.cons_append, translate_cons_of_ne (by decide),
      htranslate, hend]
    rfl
  · rw [stringLiteral?, if_pos rfl, hbody, hlast, Option.map_some, Prod.map_apply, List.append_nil]
    rfl

/-- **A string literal means the same to Java.**  Each string has a literal, in printable ASCII, that Java's
two phases read to its end as one string literal, and the value of the literal is the UTF-16 form of the
string.  So no two strings have the same literal. -/
theorem string_read_back : Function.Injective (fun s : String => (Literal.str s).java) ∧
    ∀ s : String, ∃ text units, (Literal.str s).java = .ok text ∧ Text.Ascii text ∧
      translate 0 text.toList = some units ∧ stringLiteral? units = some (Text.utf16 s, []) ∧
      Text.ofUtf16? (Text.utf16 s) = some s.toList := by
  constructor
  · intro s t h
    obtain ⟨units, hunits, hs⟩ := exists_translate_doubleQuoted s
    obtain ⟨units', hunits', ht⟩ := exists_translate_doubleQuoted t
    have htext : Text.doubleQuoted s = Text.doubleQuoted t := Except.ok.inj h
    have hsame : units = units' := by
      rw [htext, hunits'] at hunits
      exact (Option.some.inj hunits).symm
    have hvalue : Text.utf16 s = Text.utf16 t := by
      rw [hsame, ht] at hs
      exact (Prod.mk.inj (Option.some.inj hs)).1.symm
    have hread := Text.ofUtf16?_utf16 s
    rw [hvalue, Text.ofUtf16?_utf16] at hread
    exact String.toList_injective (Option.some.inj hread).symm
  · intro s
    obtain ⟨units, hunits, hs⟩ := exists_translate_doubleQuoted s
    exact ⟨_, units, rfl, Text.ascii_doubleQuoted s, hunits, hs, Text.ofUtf16?_utf16 s⟩

end Java

end TraceGraph
