import TraceGraph.Proofs.Ascii
import TraceGraph.Proofs.Separation
import TraceGraph.Text.Quoted

/-!
# Terms and their texts

A `Term` is an expression with its strings by value and its numbers as they are spelled.  Its text puts
parentheses around binary operators only.  So a unary operator in front of a callee or an object takes the
whole of it, and `.e5` after a whole number becomes its exponent: `asRead` is the term that comes of this.
It has the same text (`Built.chars_asRead`), and all its suffixes fit (`Parsed.settled_asRead`).

Numbers need most care among the words that texts are made of, since a point after a number may belong to it
or begin a member (`number_append_inj`).
-/

namespace TraceGraph.Estree

open Script (isName isNamePart isNameStart marks)
open Text (Begins begins_cons listing)

/-! ### Numbers -/

/-- Decimal digits, or nothing. -/
def Digits (cs : List Char) : Prop := ∀ c ∈ cs, c.isDigit = true

instance decidableDigits (cs : List Char) : Decidable (Digits cs) :=
  inferInstanceAs (Decidable (∀ c ∈ cs, c.isDigit = true))

/-- An exponent without a sign: its mark, and digits. -/
def IsPower : List Char → Prop
  | [] => False
  | mark :: digits => mark ∈ ['e', 'E'] ∧ digits ≠ [] ∧ Digits digits

instance decidableIsPower : (cs : List Char) → Decidable (IsPower cs)
  | [] => inferInstanceAs (Decidable False)
  | mark :: digits => inferInstanceAs (Decidable (mark ∈ ['e', 'E'] ∧ digits ≠ [] ∧ Digits digits))

/-- An exponent, with a sign after the mark or without one. -/
inductive IsExponent : List Char → Prop
  | unsigned {cs : List Char} (h : IsPower cs) : IsExponent cs
  | signed {mark sign : Char} {digits : List Char} (hmark : mark ∈ ['e', 'E'])
      (hsign : sign ∈ ['+', '-']) (hne : digits ≠ []) (hdigits : Digits digits) :
      IsExponent (mark :: sign :: digits)

/-- The spellings of numbers. -/
inductive IsNumber : List Char → Prop
  | based {mark : Char} {digits : List Char} (hmark : mark ∈ ['x', 'X', 'o', 'O', 'b', 'B'])
      (hdigits : ∀ c ∈ digits, c.isAlphanum = true) : IsNumber ('0' :: mark :: digits)
  | whole {digits tail : List Char} (hne : digits ≠ []) (hdigits : Digits digits)
      (htail : tail = [] ∨ IsExponent tail) : IsNumber (digits ++ tail)
  | fraction {before after tail : List Char} (hbefore : Digits before) (hafter : Digits after)
      (hne : before ≠ [] ∨ after ≠ []) (htail : tail = [] ∨ IsExponent tail) :
      IsNumber (before ++ '.' :: (after ++ tail))

/-- What may stand right after a name. -/
def ends : List Char := ['(', '[', '.', ',', ')', ']', ' ']

theorem mem_marks_of_mem_ends : ∀ c ∈ ends, c ∈ marks := by decide

theorem eq_digit_of_isDigit {c : Char} (h : c.isDigit = true) :
    c ∈ ['0', '1', '2', '3', '4', '5', '6', '7', '8', '9'] := by
  have hbounds : 48 ≤ c.toNat ∧ c.toNat ≤ 57 := by
    rw [Char.isDigit, Bool.and_eq_true, decide_eq_true_eq, decide_eq_true_eq] at h
    exact ⟨UInt32.le_iff_toNat_le.1 h.1, UInt32.le_iff_toNat_le.1 h.2⟩
  have hall : ∀ n < 58, 48 ≤ n → Char.ofNat n ∈ ['0', '1', '2', '3', '4', '5', '6', '7', '8', '9'] := by
    decide
  have hmem := hall c.toNat (by omega) hbounds.1
  rwa [Char.ofNat_toNat] at hmem

theorem isNameStart_eq_false_of_isDigit {c : Char} (h : c.isDigit = true) : isNameStart c = false := by
  have hall : ∀ c ∈ ['0', '1', '2', '3', '4', '5', '6', '7', '8', '9'],
      c.toNat < 128 ∧ (c.isAlpha || c == '$' || c == '_') = false := by decide
  obtain ⟨hascii, hstart⟩ := hall c (eq_digit_of_isDigit h)
  rw [Script.isNameStart_of_lt hascii, hstart]

theorem isAlphanum_of_isDigit {c : Char} (h : c.isDigit = true) : c.isAlphanum = true := by
  rw [Char.isAlphanum, h, Bool.or_true]

theorem isNamePart_of_isDigit {c : Char} (h : c.isDigit = true) : isNamePart c = true := by
  have hall : ∀ c ∈ ['0', '1', '2', '3', '4', '5', '6', '7', '8', '9'], c.toNat < 128 := by decide
  rw [Script.isNamePart_of_lt (hall c (eq_digit_of_isDigit h)), isAlphanum_of_isDigit h, Bool.true_or,
    Bool.true_or]

/-- All characters of an exponent but its sign are letters or digits. -/
theorem IsExponent.isAlphanum_or_mem {cs : List Char} (h : IsExponent cs) :
    ∀ c ∈ cs, c.isAlphanum = true ∨ c ∈ ['+', '-'] := by
  have hletter : ∀ c ∈ ['e', 'E'], c.isAlphanum = true := by decide
  cases h with
  | unsigned hpower =>
    cases cs with
    | nil => cases hpower
    | cons mark digits =>
      intro c hc
      rcases List.mem_cons.1 hc with rfl | hc
      · exact .inl (hletter _ hpower.1)
      · exact .inl (isAlphanum_of_isDigit (hpower.2.2 c hc))
  | signed hmark hsign hne hdigits =>
    intro c hc
    rcases List.mem_cons.1 hc with rfl | hc
    · exact .inl (hletter _ hmark)
    · rcases List.mem_cons.1 hc with rfl | hc
      · exact .inr hsign
      · exact .inl (isAlphanum_of_isDigit (hdigits c hc))

section

variable {digits tail : List Char}

theorem isAlphanum_or_mem_of_tail (hdigits : Digits digits) (htail : tail = [] ∨ IsExponent tail) :
    ∀ c ∈ digits ++ tail, c.isAlphanum = true ∨ c ∈ ['+', '-'] := by
  intro c hc
  rcases List.mem_append.1 hc with hc | hc
  · exact .inl (isAlphanum_of_isDigit (hdigits c hc))
  · rcases htail with rfl | htail
    · cases hc
    · exact htail.isAlphanum_or_mem c hc

theorem point_not_mem_of_tail (hdigits : Digits digits) (htail : tail = [] ∨ IsExponent tail) :
    '.' ∉ digits ++ tail := by
  intro hpoint
  exact absurd (isAlphanum_or_mem_of_tail hdigits htail '.' hpoint) (by decide)

end

/-- The only mark in a number that may also stand right after one is the point. -/
theorem IsNumber.eq_point {cs : List Char} (h : IsNumber cs) {c : Char} (hc : c ∈ cs) (hend : c ∈ ends) :
    c = '.' := by
  have hmark : ∀ c ∈ ends, c ≠ '.' → ¬ (c.isAlphanum = true ∨ c ∈ ['+', '-']) := by decide
  have hletter : ∀ c ∈ ['x', 'X', 'o', 'O', 'b', 'B'], c.isAlphanum = true := by decide
  by_cases hpoint : c = '.'
  · exact hpoint
  · refine absurd ?_ (hmark c hend hpoint)
    cases h with
    | based hbase hdigits =>
      rcases List.mem_cons.1 hc with rfl | hc
      · exact .inl rfl
      · rcases List.mem_cons.1 hc with rfl | hc
        · exact .inl (hletter _ hbase)
        · exact .inl (hdigits c hc)
    | whole hne hdigits htail => exact isAlphanum_or_mem_of_tail hdigits htail c hc
    | fraction hbefore hafter hne htail =>
      rcases List.mem_append.1 hc with hc | hc
      · exact .inl (isAlphanum_of_isDigit (hbefore c hc))
      · rcases List.mem_cons.1 hc with heq | hc
        · exact absurd heq hpoint
        · exact isAlphanum_or_mem_of_tail hafter htail c hc

theorem IsNumber.exists_cons {cs : List Char} (h : IsNumber cs) :
    ∃ c rest, cs = c :: rest ∧ (c.isDigit = true ∨ c = '.') := by
  have hfirst : ∀ {digits rest : List Char}, digits ≠ [] → Digits digits →
      ∃ c others, digits ++ rest = c :: others ∧ (c.isDigit = true ∨ c = '.') := by
    intro digits rest hne hdigits
    cases digits with
    | nil => exact absurd rfl hne
    | cons c digits => exact ⟨c, digits ++ rest, rfl, .inl (hdigits c List.mem_cons_self)⟩
  cases h with
  | based hmark hdigits => exact ⟨_, _, rfl, .inl rfl⟩
  | whole hne hdigits htail => exact hfirst hne hdigits
  | @fraction before after tail hbefore hafter hne htail =>
    by_cases hempty : before = []
    · subst hempty
      exact ⟨_, _, rfl, .inr rfl⟩
    · exact hfirst hempty hbefore

/-- Before the point of a number there are digits only, and after it digits and an exponent. -/
theorem IsNumber.of_point {a b : List Char} (h : IsNumber (a ++ '.' :: b)) :
    Digits a ∧ ∃ after tail, b = after ++ tail ∧ Digits after ∧ (tail = [] ∨ IsExponent tail) := by
  have hmem : '.' ∈ a ++ '.' :: b := List.mem_append_right a List.mem_cons_self
  generalize heq : a ++ '.' :: b = cs at h hmem
  cases h with
  | based hmark hdigits =>
    have hletter : ∀ c ∈ ['x', 'X', 'o', 'O', 'b', 'B'], c ≠ '.' := by decide
    rcases List.mem_cons.1 hmem with hzero | hmem
    · exact absurd hzero (by decide)
    · rcases List.mem_cons.1 hmem with rfl | hmem
      · exact absurd rfl (hletter _ hmark)
      · exact absurd (hdigits _ hmem) (by decide)
  | whole hne hdigits htail => exact absurd hmem (point_not_mem_of_tail hdigits htail)
  | @fraction before after tail hbefore hafter hne htail =>
    -- The number has one point, so the two are the same.
    have hnone : '.' ∉ before := fun hpoint => absurd (hbefore _ hpoint) (by decide)
    have hcount := congrArg (List.count '.') heq
    rw [List.count_append, List.count_append, List.count_cons_self, List.count_cons_self,
      List.count_eq_zero.2 hnone, List.count_eq_zero.2 (point_not_mem_of_tail hafter htail)] at hcount
    have ha : '.' ∉ a := List.count_eq_zero.1 (by omega)
    have hpoint : ∀ r, Begins (fun c => ¬ c ≠ '.') ('.' :: r) := fun r => begins_cons.2 (by simp)
    obtain ⟨rfl, hrest⟩ := Text.append_inj_of_begins (p := (· ≠ '.'))
      (fun c hc => ne_of_mem_of_not_mem hc ha) (fun c hc => ne_of_mem_of_not_mem hc hnone)
      (hpoint _) (hpoint _) heq
    exact ⟨hbefore, after, tail, (List.cons.inj hrest).2, hafter, htail⟩

/-- Does a name after the point of a whole number make an exponent of it? -/
def Merges (spelling property : String) : Prop := Digits spelling.toList ∧ IsPower property.toList

instance decidableMerges (spelling property : String) : Decidable (Merges spelling property) :=
  inferInstanceAs (Decidable (_ ∧ _))

/-- What may follow a number: a mark, or a member that is no exponent of it. -/
def Follows (spelling : String) (rest : List Char) : Prop :=
  Begins (fun c => c ∈ ends ∧ c ≠ '.') rest ∨ ∃ property after, isName property = true ∧
    Begins (· ∈ ends) after ∧ rest = '.' :: (property.toList ++ after) ∧ ¬ Merges spelling property

theorem Follows.begins {spelling : String} {rest : List Char} (h : Follows spelling rest) :
    Begins (· ∈ ends) rest := by
  rcases h with h | ⟨property, after, -, -, rfl, -⟩
  · exact h.mono fun c hc => hc.1
  · exact begins_cons.2 (by decide)

/-- A number is not the front of a longer one where something else follows it. -/
theorem eq_nil_of_isNumber_append {m : String} {d s : List Char} (hn : IsNumber (m.toList ++ d))
    (hr : Follows m (d ++ s)) (hs : Begins (· ∈ ends) s) : d = [] := by
  have hpart : ∀ c, c ∈ ends → ¬ isNamePart c = true := by
    intro c hc hpart
    rw [Script.isNamePart_eq_false_of_mem (mem_marks_of_mem_ends c hc)] at hpart
    cases hpart
  cases d with
  | nil => rfl
  | cons c d =>
    exfalso
    rcases hr with hr | ⟨property, after, hname, hafter, heq, hmerges⟩
    · obtain ⟨hend, hpoint⟩ := begins_cons.1 hr
      exact hpoint (hn.eq_point (List.mem_append_right _ List.mem_cons_self) hend)
    · obtain ⟨rfl, htext⟩ := List.cons.inj heq
      obtain ⟨first, others, hproperty, hstart, -⟩ := Script.exists_cons_of_isName hname
      obtain ⟨hm, digits, tail, rfl, hdigits, htail⟩ := hn.of_point
      cases digits with
      | cons digit digits =>
        rw [hproperty] at htext
        obtain ⟨rfl, -⟩ := List.cons.inj htext
        rw [isNameStart_eq_false_of_isDigit (hdigits _ List.mem_cons_self)] at hstart
        cases hstart
      | nil =>
        rw [List.nil_append] at htext
        have hletter : ∀ c ∈ ['e', 'E'], isNamePart c = true := by decide
        rcases htail with rfl | hexponent
        · change s = property.toList ++ after at htext
          rw [htext, hproperty] at hs
          exact hpart first (begins_cons.1 hs) (Script.isNamePart_of_isNameStart hstart)
        · cases hexponent with
          | unsigned hpower =>
            have hword : ∀ c ∈ tail, isNamePart c = true := by
              cases tail with
              | nil => cases hpower
              | cons mark digits =>
                exact List.forall_mem_cons.2 ⟨hletter _ hpower.1,
                  fun c hc => isNamePart_of_isDigit (hpower.2.2 c hc)⟩
            obtain ⟨rfl, -⟩ := Text.append_inj_of_begins hword (Script.isNamePart_of_mem hname)
              (hs.mono hpart) (hafter.mono hpart) htext
            exact hmerges ⟨hm, hpower⟩
          | @signed mark sign digits hmark hsign hne hdigits =>
            have hmarks : ∀ c ∈ ['+', '-'], c ∈ marks ∧ c ∉ ends := by decide
            have hnext : Begins (¬ isNamePart · = true) (sign :: (digits ++ s)) :=
              begins_cons.2 (by simp [Script.isNamePart_eq_false_of_mem (hmarks _ hsign).1])
            have hword : ∀ c ∈ [mark], isNamePart c = true := List.forall_mem_singleton.2 (hletter _ hmark)
            obtain ⟨-, hrest⟩ := Text.append_inj_of_begins hword (Script.isNamePart_of_mem hname) hnext
              (hafter.mono hpart) htext
            rw [← hrest] at hafter
            exact (hmarks _ hsign).2 (begins_cons.1 hafter)

/-- **A number ends where it cannot be gone on with.** -/
theorem number_append_inj {m n : String} {r s : List Char} (hm : IsNumber m.toList)
    (hn : IsNumber n.toList) (hr : Follows m r) (hs : Follows n s)
    (h : m.toList ++ r = n.toList ++ s) : m = n ∧ r = s := by
  rcases List.append_eq_append_iff.1 h with ⟨d, hd, rfl⟩ | ⟨d, hd, rfl⟩
  · obtain rfl := eq_nil_of_isNumber_append (hd ▸ hn) hr hs.begins
    exact ⟨String.toList_injective (by rw [hd, List.append_nil]), rfl⟩
  · obtain rfl := eq_nil_of_isNumber_append (hd ▸ hm) hs hr.begins
    exact ⟨String.toList_injective (by rw [hd, List.append_nil]), rfl⟩

/-! ### Quoted text -/

/-- Quotes and backslashes have a backslash before them. -/
theorem escapeSingle_cases (c : Char) :
    c ∈ ['\\', '\x27'] ∧ Text.escapeSingle c = ['\\', c] ∨
      c ∉ ['\\', '\x27'] ∧ Text.escapeSingle c = [c] := by
  unfold Text.escapeSingle
  by_cases hbackslash : c = '\\'
  · subst hbackslash
    exact .inl ⟨by decide, rfl⟩
  · by_cases hquote : c = '\x27'
    · subst hquote
      exact .inl ⟨by decide, rfl⟩
    · rw [if_neg hbackslash, if_neg hquote]
      exact .inr ⟨by simp [hbackslash, hquote], rfl⟩

theorem exists_escapeSingle_eq_cons (c : Char) :
    ∃ d rest, Text.escapeSingle c = d :: rest ∧ d ≠ '\x27' := by
  rcases escapeSingle_cases c with ⟨-, heq⟩ | ⟨hc, heq⟩
  · exact ⟨_, _, heq, by decide⟩
  · exact ⟨_, _, heq, fun h => hc (by simp [h])⟩

theorem escapeSingle_append_inj {c d : Char} {r s : List Char}
    (h : Text.escapeSingle c ++ r = Text.escapeSingle d ++ s) : c = d ∧ r = s := by
  rcases escapeSingle_cases c with ⟨hc, hc'⟩ | ⟨hc, hc'⟩
  · rcases escapeSingle_cases d with ⟨hd, hd'⟩ | ⟨hd, hd'⟩
    · rw [hc', hd'] at h
      exact List.cons.inj (List.cons.inj h).2
    · rw [hc', hd'] at h
      exact absurd (by simp [← (List.cons.inj h).1]) hd
  · rcases escapeSingle_cases d with ⟨hd, hd'⟩ | ⟨hd, hd'⟩
    · rw [hc', hd'] at h
      exact absurd (by simp [(List.cons.inj h).1]) hc
    · rw [hc', hd'] at h
      exact List.cons.inj h

/-- Text between quotes ends at the first quote without a backslash before it. -/
theorem quoted_append_inj {a b r s : List Char} (h : a.flatMap Text.escapeSingle ++ '\x27' :: r =
    b.flatMap Text.escapeSingle ++ '\x27' :: s) : a = b ∧ r = s := by
  induction a generalizing b with
  | nil =>
    cases b with
    | nil => exact ⟨rfl, (List.cons.inj h).2⟩
    | cons d b =>
      obtain ⟨e, rest, heq, hne⟩ := exists_escapeSingle_eq_cons d
      rw [List.flatMap_cons, heq] at h
      exact absurd (List.cons.inj h).1.symm hne
  | cons c a ih =>
    cases b with
    | nil =>
      obtain ⟨e, rest, heq, hne⟩ := exists_escapeSingle_eq_cons c
      rw [List.flatMap_cons, heq] at h
      exact absurd (List.cons.inj h).1 hne
    | cons d b =>
      rw [List.flatMap_cons, List.flatMap_cons, List.append_assoc, List.append_assoc] at h
      obtain ⟨rfl, htail⟩ := escapeSingle_append_inj h
      obtain ⟨rfl, hrest⟩ := ih htail
      exact ⟨rfl, hrest⟩

/-! ### Terms -/

/-- The unary operators that are words. -/
def wordOperators : List String := ["typeof", "void", "delete"]

/-- The unary operators that are signs. -/
def signOperators : List String := ["-", "+", "!", "~"]

/-- The operators that join two conditions. -/
def logicalOperators : List String := ["&&", "||", "??"]

/-- The other operators with two operands. -/
def binaryOperators : List String :=
  ["==", "!=", "===", "!==", "<", "<=", ">", ">=", "<<", ">>", ">>>", "+", "-", "*", "/", "%", "**", "|",
   "^", "&", "in", "instanceof"]

/-- An expression, up to how its strings are spelled. -/
inductive Term where
  | identifier (name : String)
  | number (spelling : String)
  | text (value : String)
  | array (elements : List Term)
  | call (callee : Term) (args : List Term)
  | member (object : Term) (property : String)
  | index (object property : Term)
  | unary (operator : String) (operand : Term)
  /-- An operator between two operands, a logical one or another. -/
  | binary (operator : String) (left right : Term)

/-- What is put after a callee or an object. -/
inductive Suffix where
  | call (args : List Term)
  | member (property : String)
  | index (property : Term)

/-- A unary operator, with a blank after a word. -/
def front (operator : String) : List Char :=
  if operator ∈ wordOperators then operator.toList ++ [' '] else operator.toList

namespace Term

mutual

/-- The text of a term. -/
def chars : Term → List Char
  | .identifier name => name.toList
  | .number spelling => spelling.toList
  | .text value => '\x27' :: (value.toList.flatMap Text.escapeSingle ++ ['\x27'])
  | .array elements => '[' :: (charsOfAll elements ++ [']'])
  | .call callee args => callee.chars ++ '(' :: (charsOfAll args ++ [')'])
  | .member object property => object.chars ++ '.' :: property.toList
  | .index object property => object.chars ++ '[' :: (property.chars ++ [']'])
  | .unary operator operand => front operator ++ operand.chars
  | .binary operator left right =>
    '(' :: (left.chars ++ ' ' :: (operator.toList ++ ' ' :: (right.chars ++ [')'])))

/-- The texts of some terms with commas between them. -/
def charsOfAll : List Term → List Char
  | [] => []
  | e :: rest => e.chars ++ charsAfter rest

/-- The texts of some terms with a comma before each. -/
def charsAfter : List Term → List Char
  | [] => []
  | e :: rest => ',' :: ' ' :: (e.chars ++ charsAfter rest)

end

theorem charsAfter_eq (terms : List Term) :
    charsAfter terms = terms.flatMap fun e => ',' :: ' ' :: e.chars := by
  induction terms with
  | nil => rfl
  | cons e rest ih => rw [charsAfter, ih, List.flatMap_cons, List.cons_append, List.cons_append]

theorem charsOfAll_eq (terms : List Term) : charsOfAll terms = listing chars terms := by
  cases terms with
  | nil => rfl
  | cons e rest => rw [charsOfAll, charsAfter_eq, listing]

/-- The term with a suffix. -/
def attach (e : Term) : Suffix → Term
  | .call args => .call e args
  | .member property => .member e property
  | .index property => .index e property

/-- The term with a row of suffixes. -/
def attachAll (e : Term) (suffixes : List Suffix) : Term := suffixes.foldl attach e

end Term

namespace Suffix

/-- The text of a suffix. -/
def chars : Suffix → List Char
  | .call args => '(' :: (listing Term.chars args ++ [')'])
  | .member property => '.' :: property.toList
  | .index property => '[' :: (property.chars ++ [']'])

/-- The terms in a suffix. -/
def inside : Suffix → List Term
  | .call args => args
  | .member _ => []
  | .index property => [property]

/-- A member is named by a name. -/
def Proper : Suffix → Prop
  | .member property => isName property = true
  | _ => True

end Suffix

namespace Term

/-- Terms that are put together of the right parts, where `fits` says which suffixes a term may have. -/
inductive Built (fits : Term → Suffix → Prop) : Term → Prop
  | identifier {name : String} (hname : isName name = true) (hword : name ∉ wordOperators) :
      Built fits (.identifier name)
  | number {spelling : String} (h : IsNumber spelling.toList) : Built fits (.number spelling)
  | text (value : String) : Built fits (.text value)
  | array {elements : List Term} (helements : ∀ e ∈ elements, Built fits e) : Built fits (.array elements)
  | unary {operator : String} {operand : Term} (hoperator : operator ∈ signOperators ++ wordOperators)
      (hoperand : Built fits operand) : Built fits (.unary operator operand)
  | binary {operator : String} {left right : Term}
      (hoperator : operator ∈ logicalOperators ++ binaryOperators) (hleft : Built fits left) (hright : Built fits right) : Built fits (.binary operator left right)
  | attach {e : Term} {suffix : Suffix} (he : Built fits e) (hfits : fits e suffix) (hsuffix : suffix.Proper)
      (hinside : ∀ x ∈ suffix.inside, Built fits x) : Built fits (e.attach suffix)

/-- The terms of expressions that can be parsed: anything may be a callee or an object. -/
def Parsed : Term → Prop := Built fun _ _ => True

/-- May the term have the suffix without a change of what is meant?  A unary operator would take the suffix
with it, and a whole number an exponent. -/
def Fits : Term → Suffix → Prop
  | .unary _ _, _ => False
  | .number spelling, .member property => ¬ Merges spelling property
  | _, _ => True

/-- The terms where all suffixes fit. -/
def Settled : Term → Prop := Built Fits

theorem Settled.parsed {e : Term} (h : Settled e) : Parsed e := by
  induction h with
  | identifier hname hword => exact .identifier hname hword
  | number hnumber => exact .number hnumber
  | text value => exact .text value
  | array helements ih => exact .array ih
  | unary hoperator hoperand ih => exact .unary hoperator ih
  | binary hoperator hleft hright ihleft ihright => exact .binary hoperator ihleft ihright
  | attach he hfits hsuffix hinside ih ihinside => exact .attach ih trivial hsuffix ihinside

/-- The suffix where it is read: after the operand of a unary operator, or as an exponent. -/
def lift : Term → Suffix → Term
  | .unary operator operand, suffix => .unary operator (operand.lift suffix)
  | .number spelling, .member property =>
    if Merges spelling property then .number (spelling ++ "." ++ property)
    else .member (.number spelling) property
  | e, suffix => e.attach suffix

mutual

/-- The term as its text is read. -/
def asRead : Term → Term
  | .identifier name => .identifier name
  | .number spelling => .number spelling
  | .text value => .text value
  | .array elements => .array (asReadAll elements)
  | .call callee args => callee.asRead.lift (.call (asReadAll args))
  | .member object property => object.asRead.lift (.member property)
  | .index object property => object.asRead.lift (.index property.asRead)
  | .unary operator operand => .unary operator operand.asRead
  | .binary operator left right => .binary operator left.asRead right.asRead

/-- Some terms as their texts are read. -/
def asReadAll : List Term → List Term
  | [] => []
  | e :: rest => e.asRead :: asReadAll rest

end

theorem asReadAll_eq (terms : List Term) : asReadAll terms = terms.map asRead := by
  induction terms with
  | nil => rfl
  | cons e rest ih => rw [asReadAll, ih, List.map_cons]

end Term

/-- A suffix as its text is read. -/
def Suffix.asRead : Suffix → Suffix
  | .call args => .call (args.map Term.asRead)
  | .member property => .member property
  | .index property => .index property.asRead

namespace Term

theorem chars_attach (e : Term) (suffix : Suffix) : (e.attach suffix).chars = e.chars ++ suffix.chars := by
  cases suffix with
  | call args => rw [attach, chars, charsOfAll_eq, Suffix.chars]
  | member property => rw [attach, chars, Suffix.chars]
  | index property => rw [attach, chars, Suffix.chars]

theorem chars_attachAll (e : Term) (suffixes : List Suffix) :
    (e.attachAll suffixes).chars = e.chars ++ suffixes.flatMap Suffix.chars := by
  induction suffixes generalizing e with
  | nil => exact (List.append_nil _).symm
  | cons suffix rest ih =>
    rw [attachAll, List.foldl_cons, ← attachAll, ih, chars_attach, List.flatMap_cons, List.append_assoc]

theorem asRead_attach (e : Term) (suffix : Suffix) :
    (e.attach suffix).asRead = e.asRead.lift suffix.asRead := by
  cases suffix with
  | call args => rw [attach, asRead, asReadAll_eq, Suffix.asRead]
  | member property => rw [attach, asRead, Suffix.asRead]
  | index property => rw [attach, asRead, Suffix.asRead]

theorem chars_lift (e : Term) (suffix : Suffix) : (e.lift suffix).chars = e.chars ++ suffix.chars := by
  fun_induction lift e suffix with
  | case1 suffix operator operand ih => rw [chars, chars, ih, List.append_assoc]
  | case2 spelling property hmerges => simp [chars, Suffix.chars]
  | case3 spelling property hmerges => exact chars_attach (.number spelling) (.member property)
  | case4 e suffix => exact chars_attach e suffix

/-- A suffix that fits is read as it stands. -/
theorem lift_of_fits {e : Term} {suffix : Suffix} (h : Fits e suffix) : e.lift suffix = e.attach suffix := by
  fun_cases lift e suffix with
  | case1 suffix operator operand => cases h
  | case2 spelling property hmerges => exact absurd hmerges h
  | case3 spelling property hmerges => rfl
  | case4 e suffix => rfl

theorem fits_attach (e : Term) (suffix next : Suffix) : Fits (e.attach suffix) next := by
  cases suffix <;> trivial

/-! ### Terms as they are read -/

/-- The text is kept. -/
theorem Built.chars_asRead {fits : Term → Suffix → Prop} {e : Term} (h : Built fits e) :
    e.asRead.chars = e.chars := by
  have hlisting : ∀ terms : List Term, (∀ x ∈ terms, x.asRead.chars = x.chars) →
      listing chars (terms.map asRead) = listing chars terms := by
    intro terms hterms
    rw [Text.listing_map]
    exact Text.listing_congr hterms
  induction h with
  | identifier | number | text => rfl
  | array helements ih => rw [asRead, chars, chars, asReadAll_eq, charsOfAll_eq, charsOfAll_eq, hlisting _ ih]
  | unary hoperator hoperand ih => rw [asRead, chars, chars, ih]
  | binary hoperator hleft hright ihleft ihright => rw [asRead, chars, chars, ihleft, ihright]
  | @attach e suffix he hfits hsuffix hinside ih ihinside =>
    have hchars : suffix.asRead.chars = suffix.chars := by
      cases suffix with
      | call args => rw [Suffix.asRead, Suffix.chars, Suffix.chars, hlisting args ihinside]
      | member property => rfl
      | index property =>
        rw [Suffix.asRead, Suffix.chars, Suffix.chars, ihinside property (List.mem_singleton.2 rfl)]
    rw [asRead_attach, chars_lift, chars_attach, ih, hchars]

/-- A suffix is put where it fits. -/
theorem Settled.lift {e : Term} {suffix : Suffix} (he : Settled e) (hsuffix : suffix.Proper)
    (hinside : ∀ x ∈ suffix.inside, Settled x) : Settled (e.lift suffix) := by
  have hattach : ∀ {e : Term}, Settled e → Fits e suffix → Settled (e.lift suffix) := by
    intro e he hfits
    rw [lift_of_fits hfits]
    exact .attach he hfits hsuffix hinside
  induction he with
  | identifier hname hword => exact hattach (.identifier hname hword) trivial
  | @number spelling hnumber =>
    cases suffix with
    | call args => exact hattach (.number hnumber) trivial
    | index property => exact hattach (.number hnumber) trivial
    | member property =>
      by_cases hmerges : Merges spelling property
      · rw [Term.lift, if_pos hmerges]
        obtain ⟨c, rest, heq, -⟩ := hnumber.exists_cons
        have hne : spelling.toList ≠ [] := by
          rw [heq]
          exact List.cons_ne_nil c rest
        have hmerged : IsNumber (spelling.toList ++ '.' :: ([] ++ property.toList)) :=
          .fraction hmerges.1 (by decide) (.inl hne) (.inr (.unsigned hmerges.2))
        refine .number ?_
        rw [String.toList_append, String.toList_append, List.append_assoc]
        exact hmerged
      · exact hattach (.number hnumber) hmerges
  | text value => exact hattach (.text value) trivial
  | array helements => exact hattach (.array helements) trivial
  | unary hoperator hoperand ih => exact .unary hoperator ih
  | binary hoperator hleft hright => exact hattach (.binary hoperator hleft hright) trivial
  | attach he hfits hproper hterms => exact hattach (.attach he hfits hproper hterms) (fits_attach _ _ _)

/-- **As they are read, terms are settled.** -/
theorem Parsed.settled_asRead {e : Term} (h : Parsed e) : Settled e.asRead := by
  induction h with
  | identifier hname hword => exact .identifier hname hword
  | number hnumber => exact .number hnumber
  | text value => exact .text value
  | array helements ih =>
    rw [asRead, asReadAll_eq]
    exact .array (List.forall_mem_map.2 ih)
  | unary hoperator hoperand ih => exact .unary hoperator ih
  | binary hoperator hleft hright ihleft ihright => exact .binary hoperator ihleft ihright
  | @attach e suffix he hfits hsuffix hinside ih ihinside =>
    rw [asRead_attach]
    cases suffix with
    | call args => exact ih.lift trivial (List.forall_mem_map.2 ihinside)
    | member property => exact ih.lift hsuffix (fun x hx => by cases hx)
    | index property =>
      exact ih.lift trivial (List.forall_mem_singleton.2 (ihinside property (List.mem_singleton.2 rfl)))

/-- A settled term is read as it is. -/
theorem Settled.asRead_eq {e : Term} (h : Settled e) : e.asRead = e := by
  have hmap : ∀ terms : List Term, (∀ x ∈ terms, x.asRead = x) → terms.map asRead = terms :=
    fun terms hterms => (List.map_congr_left hterms).trans (List.map_id' terms)
  induction h with
  | identifier | number | text => rfl
  | array helements ih => rw [asRead, asReadAll_eq, hmap _ ih]
  | unary hoperator hoperand ih => rw [asRead, ih]
  | binary hoperator hleft hright ihleft ihright => rw [asRead, ihleft, ihright]
  | @attach e suffix he hfits hsuffix hinside ih ihinside =>
    have hsame : suffix.asRead = suffix := by
      cases suffix with
      | call args => rw [Suffix.asRead, hmap args ihinside]
      | member property => rfl
      | index property => rw [Suffix.asRead, ihinside property (List.mem_singleton.2 rfl)]
    rw [asRead_attach, ih, hsame, lift_of_fits hfits]

end Term

end TraceGraph.Estree
