import TraceGraph.Proofs.Terms

/-!
# One text, one term

Two terms have the same text exactly if they are read alike (`Parsed.chars_eq_iff`), since a settled term is
determined by its text (`Settled.eq_of_chars_eq`).

What a settled term begins with tells its kind, but for the operators that are words, and no name is one of
these.  After that comes a row of suffixes.  The proof follows the term down to its base and takes the suffixes
along (`Settled.attachAll_apart`): the terms in them end at a comma, a blank or a closing mark, and are told
apart by induction.
-/

namespace TraceGraph.Estree

open Script (isName isNameStart marks)
open Text (Begins begins_nil begins_cons Separates listing)

/-! ### What terms begin with -/

/-- What a text begins with. -/
inductive Lead where
  | word
  | number
  | mark (c : Char)
deriving DecidableEq, Repr

/-- What a text with this first character begins with. -/
def Lead.of (c : Char) : Lead :=
  if isNameStart c then .word else if c.isDigit ∨ c = '.' then .number else .mark c

theorem Lead.of_eq_word {c : Char} (h : isNameStart c = true) : Lead.of c = .word := if_pos h

theorem Lead.of_eq_mark {c : Char} (h : c ∈ marks) (hpoint : c ≠ '.') : Lead.of c = .mark c := by
  have hstart : ¬ isNameStart c = true := by
    intro hstart
    have hpart := Script.isNamePart_of_isNameStart hstart
    rw [Script.isNamePart_eq_false_of_mem h] at hpart
    cases hpart
  have hdigit : ∀ c ∈ marks, ¬ c.isDigit = true := by decide
  rw [Lead.of, if_neg hstart, if_neg (not_or.2 ⟨hdigit c h, hpoint⟩)]

/-- What terms can begin with. -/
def leads : List Lead :=
  .word :: .number :: ['\x27', '[', '(', '-', '+', '!', '~'].map .mark

/-- What may stand after a term. -/
def stops : List Char := [',', ')', ']', ' ']

theorem mem_ends_of_mem_stops : ∀ c ∈ stops, c ∈ ends := by decide

namespace Term

/-- What the text of a term begins with. -/
def lead : Term → Lead
  | .identifier _ => .word
  | .number _ => .number
  | .text _ => .mark '\x27'
  | .array _ => .mark '['
  | .call callee _ => callee.lead
  | .member object _ => object.lead
  | .index object _ => object.lead
  | .unary operator _ => if operator ∈ wordOperators then .word else .mark (operator.toList.headD ' ')
  | .binary _ _ _ => .mark '('

theorem lead_attach (e : Term) (suffix : Suffix) : (e.attach suffix).lead = e.lead := by
  cases suffix <;> rfl

theorem Settled.exists_cons {e : Term} (h : Settled e) :
    ∃ c rest, e.chars = c :: rest ∧ Lead.of c = e.lead ∧ e.lead ∈ leads := by
  have hmark : ∀ c ∈ ['\x27', '[', '(', '-', '+', '!', '~'], Lead.of c = .mark c ∧ Lead.mark c ∈ leads := by
    have hall : ∀ c ∈ ['\x27', '[', '(', '-', '+', '!', '~'], c ∈ marks ∧ c ≠ '.' ∧ Lead.mark c ∈ leads := by
      decide
    exact fun c hc => ⟨Lead.of_eq_mark (hall c hc).1 (hall c hc).2.1, (hall c hc).2.2⟩
  induction h with
  | identifier hname hword =>
    obtain ⟨c, rest, heq, hstart, -⟩ := Script.exists_cons_of_isName hname
    exact ⟨c, rest, heq, Lead.of_eq_word hstart, (by decide : Lead.word ∈ leads)⟩
  | number hnumber =>
    obtain ⟨c, rest, heq, hc⟩ := hnumber.exists_cons
    have hstart : ¬ isNameStart c = true := by
      rcases hc with hdigit | rfl
      · rw [isNameStart_eq_false_of_isDigit hdigit]
        decide
      · rw [Script.isNameStart_of_lt (by decide)]
        decide
    refine ⟨c, rest, heq, ?_, (by decide : Lead.number ∈ leads)⟩
    rw [Lead.of, if_neg hstart, if_pos hc]
    rfl
  | text value => exact ⟨_, _, rfl, hmark _ (by decide)⟩
  | array helements => exact ⟨_, _, rfl, hmark _ (by decide)⟩
  | binary hoperator hleft hright => exact ⟨_, _, rfl, hmark _ (by decide)⟩
  | @unary operator operand hoperator hoperand ih =>
    by_cases hword : operator ∈ wordOperators
    · have hname : ∀ operator ∈ wordOperators, isName operator = true := by decide
      obtain ⟨c, rest, heq, hstart, -⟩ := Script.exists_cons_of_isName (hname operator hword)
      rw [lead, chars, front, if_pos hword, if_pos hword, heq]
      exact ⟨c, _, rfl, Lead.of_eq_word hstart, by decide⟩
    · have hsign : operator ∈ signOperators := (List.mem_append.1 hoperator).resolve_right hword
      have hall : ∀ operator ∈ signOperators, operator.toList = [operator.toList.headD ' '] ∧
          operator.toList.headD ' ' ∈ ['\x27', '[', '(', '-', '+', '!', '~'] := by decide
      obtain ⟨heq, hmem⟩ := hall operator hsign
      rw [lead, chars, front, if_neg hword, if_neg hword]
      refine ⟨operator.toList.headD ' ', operand.chars, ?_, hmark _ hmem⟩
      rw [← List.singleton_append, ← heq]
  | @attach e suffix he hfits hsuffix hinside ih =>
    obtain ⟨c, rest, heq, hlead⟩ := ih
    rw [lead_attach]
    exact ⟨c, rest ++ suffix.chars, by rw [chars_attach, heq, List.cons_append], hlead⟩

/-- Texts that begin alike are of terms that begin alike. -/
theorem Settled.lead_eq {e e' : Term} (h : Settled e) (h' : Settled e') {r r' : List Char}
    (heq : e.chars ++ r = e'.chars ++ r') : e.lead = e'.lead := by
  obtain ⟨c, rest, hc, hlead, -⟩ := h.exists_cons
  obtain ⟨c', rest', hc', hlead', -⟩ := h'.exists_cons
  rw [hc, hc'] at heq
  rw [← hlead, ← hlead', (List.cons.inj heq).1]

theorem Settled.exists_cons_ne {e : Term} (h : Settled e) {close : Char} (hclose : close ∈ [')', ']']) :
    ∃ c rest, e.chars = c :: rest ∧ c ≠ close := by
  have hall : ∀ c ∈ [')', ']'], c ∈ marks ∧ c ≠ '.' ∧ Lead.mark c ∉ leads := by decide
  obtain ⟨c, rest, heq, hlead, hmem⟩ := h.exists_cons
  refine ⟨c, rest, heq, ?_⟩
  rintro rfl
  obtain ⟨hmark, hpoint, hnot⟩ := hall c hclose
  rw [← hlead, Lead.of_eq_mark hmark hpoint] at hmem
  exact hnot hmem

/-! ### The spine of a term -/

/-- Terms that are neither an operator with its operand nor have a suffix. -/
inductive Base : Term → Prop
  | identifier {name : String} (hname : isName name = true) (hword : name ∉ wordOperators) :
      Base (.identifier name)
  | number {spelling : String} (h : IsNumber spelling.toList) : Base (.number spelling)
  | text (value : String) : Base (.text value)
  | array {elements : List Term} (helements : ∀ e ∈ elements, Settled e) : Base (.array elements)
  | binary {operator : String} {left right : Term}
      (hoperator : operator ∈ logicalOperators ++ binaryOperators) (hleft : Settled left) (hright : Settled right) : Base (.binary operator left right)

theorem Base.settled {e : Term} (h : Base e) : Settled e := by
  cases h with
  | identifier hname hword => exact .identifier hname hword
  | number h => exact .number h
  | text value => exact .text value
  | array helements => exact .array helements
  | binary hoperator hleft hright => exact .binary hoperator hleft hright

end Term

/-- The suffix has the right parts. -/
def Suffix.Settled (suffix : Suffix) : Prop := suffix.Proper ∧ ∀ x ∈ suffix.inside, Term.Settled x

namespace Term

/-- Does the first suffix of a row fit the term?  The others always fit. -/
def FitsFirst (e : Term) (suffixes : List Suffix) : Prop := ∀ suffix ∈ suffixes.head?, Fits e suffix

/-- A settled term is an operator with its operand, or a row of suffixes after a base. -/
theorem Settled.spine {e : Term} (h : Settled e) :
    (∃ operator operand, e = .unary operator operand ∧ operator ∈ signOperators ++ wordOperators ∧
      Settled operand) ∨
    ∃ base suffixes, e = attachAll base suffixes ∧ Base base ∧ FitsFirst base suffixes ∧
      ∀ suffix ∈ suffixes, suffix.Settled := by
  have hbase : ∀ {b : Term}, Base b → ∃ base suffixes, b = attachAll base suffixes ∧ Base base ∧
      FitsFirst base suffixes ∧ ∀ suffix ∈ suffixes, suffix.Settled :=
    fun {b} hb => ⟨b, [], rfl, hb, (fun _ hmem => by cases hmem), (fun _ hmem => by cases hmem)⟩
  induction h with
  | identifier hname hword => exact .inr (hbase (.identifier hname hword))
  | number hnumber => exact .inr (hbase (.number hnumber))
  | text value => exact .inr (hbase (.text value))
  | array helements => exact .inr (hbase (.array helements))
  | binary hoperator hleft hright => exact .inr (hbase (.binary hoperator hleft hright))
  | unary hoperator hoperand => exact .inl ⟨_, _, rfl, hoperator, hoperand⟩
  | @attach e suffix he hfits hsuffix hinside ih =>
    rcases ih with ⟨operator, operand, rfl, -⟩ | ⟨base, suffixes, rfl, hb, hfirst, hsuffixes⟩
    · cases hfits
    · refine .inr ⟨base, suffixes ++ [suffix], ?_, hb, ?_, ?_⟩
      · rw [attachAll, attachAll, List.foldl_append]
        rfl
      · cases suffixes with
        | nil =>
          intro first hmem
          cases hmem
          exact hfits
        | cons first rest => exact hfirst
      · exact List.forall_mem_append.2 ⟨hsuffixes, List.forall_mem_singleton.2 ⟨hsuffix, hinside⟩⟩

/-- Where the text of the term stands, no other settled term has its text. -/
def Apart (e : Term) : Prop := Separates chars Settled (· ∈ stops) e

/-- Terms with commas between them are told apart if each of them is. -/
theorem listing_apart {items others : List Term} {close : Char} (hclose : close ∈ [')', ']'])
    (hitems : ∀ e ∈ items, Settled e ∧ e.Apart) (hothers : ∀ e ∈ others, Settled e) {r s : List Char}
    (h : listing chars items ++ close :: r = listing chars others ++ close :: s) :
    items = others ∧ r = s := by
  have hstop : ∀ c ∈ [')', ']'], c ∈ stops ∧ c ≠ ',' := by decide
  exact Text.listing_inj (by decide : ',' ∈ stops) (hstop close hclose).1 (hstop close hclose).2
    (fun e he => he.exists_cons_ne hclose) hitems hothers h

end Term

/-! ### Rows of suffixes -/

namespace Suffix

/-- A suffix is told apart from others by its first mark, and then by the terms in it. -/
theorem separates {suffix : Suffix} (hsuffix : suffix.Settled) (hinside : ∀ x ∈ suffix.inside, x.Apart) :
    Separates chars Settled (· ∈ ends) suffix := by
  intro other r s hother hr hs h
  cases suffix with
  | call args =>
    cases other with
    | call args' =>
      simp only [chars, List.cons_append, List.append_assoc, List.cons.injEq, true_and] at h
      obtain ⟨rfl, hrest⟩ := Term.listing_apart (by decide)
        (fun x hx => ⟨hsuffix.2 x hx, hinside x hx⟩) hother.2 h
      exact ⟨rfl, hrest⟩
    | member property => exact absurd (List.cons.inj h).1 (by decide)
    | index property => exact absurd (List.cons.inj h).1 (by decide)
  | member property =>
    cases other with
    | member property' =>
      obtain ⟨rfl, hrest⟩ := Script.name_append_inj hsuffix.1 hother.1 (hr.mono mem_marks_of_mem_ends)
        (hs.mono mem_marks_of_mem_ends) (List.cons.inj h).2
      exact ⟨rfl, hrest⟩
    | call args => exact absurd (List.cons.inj h).1 (by decide)
    | index property' => exact absurd (List.cons.inj h).1 (by decide)
  | index property =>
    cases other with
    | index property' =>
      simp only [chars, List.cons_append, List.append_assoc, List.cons.injEq, true_and] at h
      have hend : ∀ r, Begins (· ∈ stops) (']' :: r) := fun r => begins_cons.2 (by decide)
      obtain ⟨rfl, hrest⟩ := hinside property (List.mem_singleton.2 rfl) property' _ _
        (hother.2 property' (List.mem_singleton.2 rfl)) (hend _) (hend _) h
      exact ⟨rfl, (List.cons.inj hrest).2⟩
    | call args => exact absurd (List.cons.inj h).1 (by decide)
    | member property' => exact absurd (List.cons.inj h).1 (by decide)

theorem exists_cons (suffix : Suffix) : ∃ c rest, suffix.chars = c :: rest ∧ c ∈ ends ∧ c ∉ stops := by
  cases suffix <;> exact ⟨_, _, rfl, by decide, by decide⟩

/-- A row of suffixes begins with a mark, and so does what comes after it. -/
theorem begins_row (suffixes : List Suffix) {r : List Char} (hr : Begins (· ∈ stops) r) :
    Begins (· ∈ ends) (suffixes.flatMap chars ++ r) := by
  cases suffixes with
  | nil => exact hr.mono mem_ends_of_mem_stops
  | cons suffix rest =>
    obtain ⟨c, others, heq, hc, -⟩ := suffix.exists_cons
    rw [List.flatMap_cons, heq]
    exact begins_cons.2 hc

/-- **A row of suffixes goes on as long as it can.** -/
theorem row_inj {row others : List Suffix} {r s : List Char}
    (hrow : ∀ suffix ∈ row, Separates chars Settled (· ∈ ends) suffix)
    (hothers : ∀ suffix ∈ others, suffix.Settled) (hr : Begins (· ∈ stops) r) (hs : Begins (· ∈ stops) s)
    (h : row.flatMap chars ++ r = others.flatMap chars ++ s) : row = others ∧ r = s := by
  have hstop : ∀ (suffix : Suffix) (t u : List Char), Begins (· ∈ stops) u → suffix.chars ++ t ≠ u := by
    intro suffix t u hu heq
    obtain ⟨c, rest, hchars, -, hc⟩ := suffix.exists_cons
    rw [← heq, hchars] at hu
    exact hc (begins_cons.1 hu)
  induction row generalizing others with
  | nil =>
    cases others with
    | nil => exact ⟨rfl, h⟩
    | cons other others =>
      rw [List.flatMap_cons, List.append_assoc] at h
      exact absurd h.symm (hstop other _ _ hr)
  | cons suffix row ih =>
    rw [List.forall_mem_cons] at hrow
    rw [List.flatMap_cons, List.append_assoc] at h
    cases others with
    | nil => exact absurd h (hstop suffix _ _ hs)
    | cons other others =>
      rw [List.forall_mem_cons] at hothers
      rw [List.flatMap_cons, List.append_assoc] at h
      obtain ⟨rfl, htail⟩ := hrow.1 other _ _ hothers.1 (begins_row row hr) (begins_row others hs) h
      obtain ⟨rfl, hrest⟩ := ih hrow.2 hothers.2 htail
      exact ⟨rfl, hrest⟩

end Suffix

/-! ### Terms are told apart -/

namespace Term

/-- What follows a number that the row fits. -/
theorem follows_row {spelling : String} {row : List Suffix} (hfits : FitsFirst (.number spelling) row)
    (hrow : ∀ suffix ∈ row, suffix.Settled) {r : List Char} (hr : Begins (· ∈ stops) r) :
    Follows spelling (row.flatMap Suffix.chars ++ r) := by
  cases row with
  | nil =>
    have hstop : ∀ c ∈ stops, c ∈ ends ∧ c ≠ '.' := by decide
    exact .inl (hr.mono hstop)
  | cons suffix row =>
    have hfirst := hfits suffix rfl
    rw [List.forall_mem_cons] at hrow
    rw [List.flatMap_cons, List.append_assoc]
    cases suffix with
    | call args => exact .inl (begins_cons.2 (by decide))
    | index property => exact .inl (begins_cons.2 (by decide))
    | member property =>
      exact .inr ⟨property, _, hrow.1.1, Suffix.begins_row row hr, rfl, hfirst⟩

/-- The terms that a base is made of. -/
def parts : Term → List Term
  | .array elements => elements
  | .binary _ left right => [left, right]
  | _ => []

/-- **Bases are told apart**, if the terms that they are made of are. -/
theorem Base.cancel {b b' : Term} (hb : Base b) (hb' : Base b') (hparts : ∀ x ∈ b.parts, x.Apart)
    {row row' : List Suffix} (hfits : FitsFirst b row) (hfits' : FitsFirst b' row')
    (hrow : ∀ suffix ∈ row, suffix.Settled) (hrow' : ∀ suffix ∈ row', suffix.Settled) {r r' : List Char}
    (hr : Begins (· ∈ stops) r) (hr' : Begins (· ∈ stops) r')
    (h : b.chars ++ (row.flatMap Suffix.chars ++ r) = b'.chars ++ (row'.flatMap Suffix.chars ++ r')) :
    b = b' ∧ row.flatMap Suffix.chars ++ r = row'.flatMap Suffix.chars ++ r' := by
  have hlead := hb.settled.lead_eq hb'.settled h
  cases hb with
  | identifier hname hword =>
    cases hb' with
    | identifier hname' hword' =>
      obtain ⟨rfl, hrest⟩ := Script.name_append_inj hname hname'
        ((Suffix.begins_row row hr).mono mem_marks_of_mem_ends)
        ((Suffix.begins_row row' hr').mono mem_marks_of_mem_ends) h
      exact ⟨rfl, hrest⟩
    | _ => cases hlead
  | number hnumber =>
    cases hb' with
    | number hnumber' =>
      obtain ⟨rfl, hrest⟩ := number_append_inj hnumber hnumber' (follows_row hfits hrow hr)
        (follows_row hfits' hrow' hr') h
      exact ⟨rfl, hrest⟩
    | _ => cases hlead
  | text value =>
    cases hb' with
    | text value' =>
      simp only [chars, List.cons_append, List.append_assoc, List.cons.injEq, true_and] at h
      obtain ⟨hvalue, hrest⟩ := quoted_append_inj h
      rw [String.toList_injective hvalue]
      exact ⟨rfl, hrest⟩
    | _ => simp [lead] at hlead
  | array helements =>
    cases hb' with
    | array helements' =>
      simp only [chars, charsOfAll_eq, List.cons_append, List.append_assoc, List.cons.injEq, true_and] at h
      obtain ⟨rfl, hrest⟩ :=
        listing_apart (by decide) (fun x hx => ⟨helements x hx, hparts x hx⟩) helements' h
      exact ⟨rfl, hrest⟩
    | _ => simp [lead] at hlead
  | @binary operator left right hoperator hleft hright =>
    cases hb' with
    | @binary operator' left' right' hoperator' hleft' hright' =>
      simp only [chars, List.cons_append, List.append_assoc, List.cons.injEq, true_and] at h
      have hall : ∀ operator ∈ logicalOperators ++ binaryOperators, ∀ c ∈ operator.toList, c ≠ ' ' := by
        decide
      have hblank : ∀ r, Begins (· ∈ stops) (' ' :: r) := fun r => begins_cons.2 (by decide)
      have hend : ∀ r, Begins (· ∈ stops) (')' :: r) := fun r => begins_cons.2 (by decide)
      have hword : ∀ r, Begins (fun c => ¬ c ≠ ' ') (' ' :: r) := fun r => begins_cons.2 (by simp)
      obtain ⟨rfl, hafter⟩ := hparts left List.mem_cons_self left' _ _ hleft' (hblank _) (hblank _) h
      obtain ⟨hoperators, hoperand⟩ := Text.append_inj_of_begins (hall operator hoperator)
        (hall operator' hoperator') (hword _) (hword _) (List.cons.inj hafter).2
      obtain ⟨rfl, hrest⟩ := hparts right (List.mem_cons_of_mem _ List.mem_cons_self) right' _ _ hright'
        (hend _) (hend _) (List.cons.inj hoperand).2
      rw [String.toList_injective hoperators]
      exact ⟨rfl, (List.cons.inj hrest).2⟩
    | _ => simp [lead] at hlead

/-- The front of a term with a unary operator is not the front of a base. -/
theorem Base.ne_unary {b : Term} (hb : Base b) {operator : String} {operand : Term}
    (hoperator : operator ∈ signOperators ++ wordOperators) (hoperand : Settled operand) {r r' : List Char}
    (hr : Begins (· ∈ ends) r) : b.chars ++ r ≠ (Term.unary operator operand).chars ++ r' := by
  intro h
  have hlead := hb.settled.lead_eq (.unary hoperator hoperand) h
  rw [lead] at hlead
  by_cases hword : operator ∈ wordOperators
  · -- Only a name begins with a word too, and the word of an operator is no name.
    rw [if_pos hword] at hlead
    cases hb with
    | identifier hname hother =>
      have hisName : ∀ operator ∈ wordOperators, isName operator = true := by decide
      rw [chars, chars, front, if_pos hword, List.append_assoc, List.append_assoc] at h
      have hblank : Begins (· ∈ marks) ([' '] ++ (operand.chars ++ r')) := begins_cons.2 (by decide)
      obtain ⟨rfl, -⟩ := Script.name_append_inj hname (hisName operator hword)
        (hr.mono mem_marks_of_mem_ends) hblank h
      exact hother hword
    | _ => cases hlead
  · have hsign : operator ∈ signOperators := (List.mem_append.1 hoperator).resolve_right hword
    have hall : ∀ operator ∈ signOperators, operator.toList.headD ' ' ∉ ['\x27', '[', '('] := by decide
    have hnot : ∀ c ∈ ['\x27', '[', '('], Lead.mark c ≠ .mark (operator.toList.headD ' ') :=
      fun c hc heq => hall operator hsign (Lead.mark.inj heq ▸ hc)
    rw [if_neg hword] at hlead
    cases hb with
    | identifier => cases hlead
    | number => cases hlead
    | text => exact hnot _ (by decide) hlead
    | array => exact hnot _ (by decide) hlead
    | binary => exact hnot _ (by decide) hlead

/-- Unary operators are told apart. -/
theorem front_append_inj {operator other : String} (hoperator : operator ∈ signOperators ++ wordOperators)
    (hother : other ∈ signOperators ++ wordOperators) {r s : List Char}
    (h : front operator ++ r = front other ++ s) : operator = other ∧ r = s := by
  -- No operator with its blank is the front of another.
  have hall : ∀ operator ∈ signOperators ++ wordOperators, ∀ other ∈ signOperators ++ wordOperators,
      front operator <+: front other → operator = other := by decide
  have hle : operator = other := by
    rcases List.append_eq_append_iff.1 h with ⟨d, hd, -⟩ | ⟨d, hd, -⟩
    · exact hall operator hoperator other hother ⟨d, hd.symm⟩
    · exact (hall other hother operator hoperator ⟨d, hd.symm⟩).symm
  subst hle
  exact ⟨rfl, List.append_cancel_left h⟩

/-- The term with a row of suffixes is told apart from every other, if the suffixes are. -/
theorem Settled.attachAll_apart {e : Term} (h : Settled e) : ∀ {row : List Suffix}, FitsFirst e row →
    (∀ suffix ∈ row, suffix.Settled ∧ Separates Suffix.chars Suffix.Settled (· ∈ ends) suffix) →
    (e.attachAll row).Apart := by
  -- A base: the other term has the same base, and then the rows are compared.
  have hbase : ∀ {b : Term}, Base b → (∀ x ∈ b.parts, x.Apart) → ∀ {row : List Suffix}, FitsFirst b row →
      (∀ suffix ∈ row, suffix.Settled ∧ Separates Suffix.chars Suffix.Settled (· ∈ ends) suffix) →
      (b.attachAll row).Apart := by
    intro b hb hparts row hfits hrow other r s hother hr hs heq
    have hsettled : ∀ suffix ∈ row, suffix.Settled := fun suffix hmem => (hrow suffix hmem).1
    rw [chars_attachAll, List.append_assoc] at heq
    rcases hother.spine with ⟨operator, operand, rfl, hoperator, hoperand⟩ |
      ⟨base, suffixes, rfl, hb', hfits', hsuffixes⟩
    · exact absurd heq (hb.ne_unary hoperator hoperand (Suffix.begins_row row hr))
    · rw [chars_attachAll, List.append_assoc] at heq
      obtain ⟨rfl, hrows⟩ := hb.cancel hb' hparts hfits hfits' hsettled hsuffixes hr hs heq
      obtain ⟨rfl, hrest⟩ := Suffix.row_inj (fun suffix hmem => (hrow suffix hmem).2) hsuffixes hr hs hrows
      exact ⟨rfl, hrest⟩
  have hnone : ∀ {x : Term}, FitsFirst x [] := fun _ hmem => by cases hmem
  have hempty : ∀ suffix ∈ ([] : List Suffix), suffix.Settled ∧
      Separates Suffix.chars Suffix.Settled (· ∈ ends) suffix := fun _ hmem => by cases hmem
  induction h with
  | identifier hname hword => exact hbase (.identifier hname hword) (fun x hx => by cases hx)
  | number hnumber => exact hbase (.number hnumber) (fun x hx => by cases hx)
  | text value => exact hbase (.text value) (fun x hx => by cases hx)
  | array helements ih => exact hbase (.array helements) (fun x hx => ih x hx hnone hempty)
  | @binary operator left right hoperator hleft hright ihleft ihright =>
    intro row hfits hrow
    have hparts : ∀ x ∈ [left, right], x.Apart :=
      List.forall_mem_cons.2 ⟨ihleft hnone hempty, List.forall_mem_singleton.2 (ihright hnone hempty)⟩
    exact hbase (.binary hoperator hleft hright) hparts hfits hrow
  | @unary operator operand hoperator hoperand ih =>
    intro row hfits hrow
    cases row with
    | cons suffix row => exact (hfits suffix rfl).elim
    | nil =>
      intro other r s hother hr hs heq
      change (Term.unary operator operand).chars ++ r = other.chars ++ s at heq
      rcases hother.spine with ⟨operator', operand', rfl, hoperator', hoperand'⟩ |
        ⟨base, suffixes, rfl, hb', hfits', hsuffixes⟩
      · rw [chars, chars, List.append_assoc, List.append_assoc] at heq
        obtain ⟨rfl, hafter⟩ := front_append_inj hoperator hoperator' heq
        obtain ⟨hsame, hrest⟩ := ih hnone hempty operand' r s hoperand' hr hs hafter
        exact ⟨congrArg (Term.unary operator) hsame, hrest⟩
      · rw [chars_attachAll, List.append_assoc] at heq
        exact absurd heq.symm (hb'.ne_unary hoperator hoperand (Suffix.begins_row suffixes hs))
  | @attach e suffix he hfits hsuffix hinside ih ihinside =>
    intro row hfirst hrow
    have hseparates := Suffix.separates ⟨hsuffix, hinside⟩ fun x hx => ihinside x hx hnone hempty
    have hsuffixFits : FitsFirst e (suffix :: row) := by
      intro first hmem
      cases hmem
      exact hfits
    exact ih hsuffixFits (List.forall_mem_cons.2 ⟨⟨⟨hsuffix, hinside⟩, hseparates⟩, hrow⟩)

/-- **The text of a settled term determines it.** -/
theorem Settled.eq_of_chars_eq {e e' : Term} (h : Settled e) (h' : Settled e') (heq : e.chars = e'.chars) :
    e = e' := by
  have hapart : (e.attachAll []).Apart :=
    h.attachAll_apart (fun _ hmem => by cases hmem) (fun _ hmem => by cases hmem)
  exact (hapart e' [] [] h' begins_nil begins_nil (congrArg (· ++ []) heq)).1

/-- **Two terms have the same text exactly if they are read alike.** -/
theorem Parsed.chars_eq_iff {e e' : Term} (h : Parsed e) (h' : Parsed e') :
    e.chars = e'.chars ↔ e.asRead = e'.asRead := by
  rw [← h.chars_asRead, ← h'.chars_asRead]
  exact ⟨h.settled_asRead.eq_of_chars_eq h'.settled_asRead, fun heq => by rw [heq]⟩

end Term

end TraceGraph.Estree
