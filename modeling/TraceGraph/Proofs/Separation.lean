import TraceGraph.Proofs.Ascii
import TraceGraph.Script.Token
import TraceGraph.Text.Join

/-!
# Telling texts apart

Texts that are laid end to end can be cut apart again if each shows where it ends.  A word does: it goes on
as long as its characters are of one kind (`append_inj_of_begins`).  In general a text `Separates` before
some characters if no other text of its sort can stand in its place with one of these characters after it.
Then a list of such texts, with commas between them and a closing mark, can be cut apart as well
(`listing_inj`), whatever commas there are inside the texts.
-/

namespace TraceGraph

namespace Text

/-- The text is over, or goes on with a character of this kind. -/
def Begins (p : Char → Prop) (cs : List Char) : Prop := ∀ c ∈ cs.head?, p c

section

variable {p q : Char → Prop} {c : Char} {a b r s : List Char}

@[simp]
theorem begins_nil : Begins p [] := by
  intro c hc
  cases hc

@[simp]
theorem begins_cons : Begins p (c :: r) ↔ p c := by
  simp [Begins]

theorem Begins.mono (h : Begins p r) (hpq : ∀ c, p c → q c) : Begins q r :=
  fun c hc => hpq c (h c hc)

/-- **A word ends where the characters are no longer of its kind.** -/
theorem append_inj_of_begins (ha : ∀ c ∈ a, p c) (hb : ∀ c ∈ b, p c) (hr : Begins (¬ p ·) r)
    (hs : Begins (¬ p ·) s) (h : a ++ r = b ++ s) : a = b ∧ r = s := by
  induction a generalizing b with
  | nil =>
    cases b with
    | nil => exact ⟨rfl, h⟩
    | cons d b =>
      rw [List.nil_append] at h
      rw [h] at hr
      exact absurd (hb d List.mem_cons_self) (begins_cons.1 hr)
  | cons c a ih =>
    cases b with
    | nil =>
      rw [List.nil_append] at h
      rw [← h] at hs
      exact absurd (ha c List.mem_cons_self) (begins_cons.1 hs)
    | cons d b =>
      rw [List.forall_mem_cons] at ha hb
      obtain ⟨rfl, htail⟩ := List.cons.inj h
      obtain ⟨rfl, hrest⟩ := ih ha.2 hb.2 htail
      exact ⟨rfl, hrest⟩

end

/-! ### Lists of texts -/

section

variable {α : Type}

/-- Where the text of `a` stands with one of the stops after it, no other text of the sort can stand. -/
def Separates (text : α → List Char) (sort : α → Prop) (stop : Char → Prop) (a : α) : Prop :=
  ∀ b r s, sort b → Begins stop r → Begins stop s → text a ++ r = text b ++ s → a = b ∧ r = s

/-- The texts of some items with commas between them. -/
def listing (text : α → List Char) : List α → List Char
  | [] => []
  | a :: rest => text a ++ rest.flatMap fun b => ',' :: ' ' :: text b

theorem listing_map {β : Type} (f : α → β) (text : β → List Char) (items : List α) :
    listing text (items.map f) = listing (fun a => text (f a)) items := by
  cases items with
  | nil => rfl
  | cons a rest => rw [List.map_cons, listing, listing, List.flatMap_map]

theorem listing_congr {text text' : α → List Char} {items : List α} (h : ∀ a ∈ items, text a = text' a) :
    listing text items = listing text' items := by
  cases items with
  | nil => rfl
  | cons a rest =>
    rw [List.forall_mem_cons] at h
    have hrest : rest.map (fun b => ',' :: ' ' :: text b) = rest.map fun b => ',' :: ' ' :: text' b :=
      List.map_congr_left fun b hb => by rw [h.2 b hb]
    rw [listing, listing, h.1, List.flatMap_def, List.flatMap_def, hrest]

theorem toList_commas (items : List String) : (commas items).toList = listing String.toList items := by
  induction items with
  | nil => rfl
  | cons item rest ih =>
    cases rest with
    | nil => simp [commas, listing]
    | cons next rest =>
      rw [commas] at ih ⊢
      rw [join_cons_cons, String.toList_append, String.toList_append, ih, listing, listing,
        List.flatMap_cons]
      simp

variable {text : α → List Char} {sort : α → Prop} {stop : Char → Prop} {close : Char}
  {items others : List α} {r s : List Char}

/-- What is left of a list begins with a comma or with the closing mark. -/
theorem begins_flatMap_comma (hcomma : stop ',') (hstop : stop close) (items : List α) (r : List Char) :
    Begins stop ((items.flatMap fun a => ',' :: ' ' :: text a) ++ close :: r) := by
  cases items with
  | nil => exact begins_cons.2 hstop
  | cons a items => exact begins_cons.2 hcomma

theorem flatMap_comma_inj (hcomma : stop ',') (hstop : stop close) (hclose : close ≠ ',')
    (hitems : ∀ a ∈ items, Separates text sort stop a) (hothers : ∀ b ∈ others, sort b)
    (h : (items.flatMap fun a => ',' :: ' ' :: text a) ++ close :: r =
      (others.flatMap fun b => ',' :: ' ' :: text b) ++ close :: s) : items = others ∧ r = s := by
  induction items generalizing others with
  | nil =>
    cases others with
    | nil => exact ⟨rfl, (List.cons.inj h).2⟩
    | cons b others => exact absurd (List.cons.inj h).1 hclose
  | cons a items ih =>
    cases others with
    | nil => exact absurd (List.cons.inj h).1.symm hclose
    | cons b others =>
      rw [List.forall_mem_cons] at hitems hothers
      rw [List.flatMap_cons, List.flatMap_cons] at h
      simp only [List.cons_append, List.append_assoc, List.cons.injEq, true_and] at h
      obtain ⟨rfl, htail⟩ := hitems.1 b _ _ hothers.1 (begins_flatMap_comma hcomma hstop items r)
        (begins_flatMap_comma hcomma hstop others s) h
      obtain ⟨rfl, hrest⟩ := ih hitems.2 hothers.2 htail
      exact ⟨rfl, hrest⟩

/-- **A list can be cut apart at its commas**, up to the closing mark after it. -/
theorem listing_inj (hcomma : stop ',') (hstop : stop close) (hclose : close ≠ ',')
    (hsort : ∀ a, sort a → ∃ c rest, text a = c :: rest ∧ c ≠ close)
    (hitems : ∀ a ∈ items, sort a ∧ Separates text sort stop a) (hothers : ∀ b ∈ others, sort b)
    (h : listing text items ++ close :: r = listing text others ++ close :: s) :
    items = others ∧ r = s := by
  cases items with
  | nil =>
    cases others with
    | nil => exact ⟨rfl, (List.cons.inj h).2⟩
    | cons b others =>
      obtain ⟨c, rest, htext, hne⟩ := hsort b (hothers b List.mem_cons_self)
      rw [listing, listing, htext] at h
      exact absurd (List.cons.inj h).1.symm hne
  | cons a items =>
    rw [List.forall_mem_cons] at hitems
    cases others with
    | nil =>
      obtain ⟨c, rest, htext, hne⟩ := hsort a hitems.1.1
      rw [listing, listing, htext] at h
      exact absurd (List.cons.inj h).1 hne
    | cons b others =>
      rw [List.forall_mem_cons] at hothers
      rw [listing, listing, List.append_assoc, List.append_assoc] at h
      obtain ⟨rfl, htail⟩ := hitems.1.2 b _ _ hothers.1 (begins_flatMap_comma hcomma hstop items r)
        (begins_flatMap_comma hcomma hstop others s) h
      obtain ⟨rfl, hrest⟩ :=
        flatMap_comma_inj hcomma hstop hclose (fun a ha => (hitems.2 a ha).2) hothers.2 htail
      exact ⟨rfl, hrest⟩

end

end Text

/-! ### Names -/

namespace Script

/-- In ASCII, names start with a letter, `$` or `_`. -/
theorem isNameStart_of_lt {c : Char} (h : c.toNat < 128) :
    isNameStart c = (c.isAlpha || c == '$' || c == '_') := by
  have hfilter : (Text.letters.filter fun range => range.1 < 128) = [(0x41, 0x5a), (0x61, 0x7a)] ∧
      (Text.letterNumbers.filter fun range => range.1 < 128) = [] ∧
      (nameSymbols.filter fun range => range.1 < 128) = [(0x24, 0x24), (0x5f, 0x5f)] := by decide +kernel
  obtain ⟨hletters, hnumbers, hsymbols⟩ := hfilter
  have hsmall := Text.contains_eq_of_lt h
  rw [isNameStart, Text.isLetter, hsmall Text.letters, hletters, hsmall Text.letterNumbers, hnumbers,
    hsmall nameSymbols, hsymbols]
  clear hsmall
  obtain ⟨n, hn, rfl⟩ : ∃ n < 128, c = Char.ofNat n := ⟨c.toNat, h, (Char.ofNat_toNat c).symm⟩
  revert n
  decide +kernel

/-- In ASCII, names go on with these or with a digit. -/
theorem isNamePart_of_lt {c : Char} (h : c.toNat < 128) :
    isNamePart c = (c.isAlphanum || c == '$' || c == '_') := by
  have hfilter : (Text.combiningMarks.filter fun range => range.1 < 128) = [] ∧
      (Text.decimalDigits.filter fun range => range.1 < 128) = [(0x30, 0x39)] ∧
      (Text.connectors.filter fun range => range.1 < 128) = [(0x5f, 0x5f)] ∧
      (Text.extraParts.filter fun range => range.1 < 128) = [] := by decide +kernel
  obtain ⟨hcombining, hdigits, hconnectors, hextra⟩ := hfilter
  have hsmall := Text.contains_eq_of_lt h
  rw [isNamePart, isNameStart_of_lt h, hsmall Text.combiningMarks, hcombining, hsmall Text.decimalDigits,
    hdigits, hsmall Text.connectors, hconnectors, hsmall Text.extraParts, hextra]
  clear hsmall
  obtain ⟨n, hn, rfl⟩ : ∃ n < 128, c = Char.ofNat n := ⟨c.toNat, h, (Char.ofNat_toNat c).symm⟩
  revert n
  decide +kernel

/-- Is the text a name?  A name may be a keyword. -/
def isName (s : String) : Bool :=
  match s.toList with
  | [] => false
  | c :: rest => isNameStart c && rest.all isNamePart

/-- Marks that stand between names and not in them. -/
def marks : List Char :=
  [' ', ',', ';', '.', '(', ')', '[', ']', '\x7b', '\x7d', '"', '\x27', '=', '+', '-', '!', '~']

theorem isNamePart_eq_false_of_mem {c : Char} (h : c ∈ marks) : isNamePart c = false := by
  have hall : ∀ c ∈ marks, c.toNat < 128 ∧ (c.isAlphanum || c == '$' || c == '_') = false := by decide
  obtain ⟨hascii, hpart⟩ := hall c h
  rw [isNamePart_of_lt hascii, hpart]

theorem isNamePart_of_isNameStart {c : Char} (h : isNameStart c = true) : isNamePart c = true := by
  simp [isNamePart, h]

variable {name : String}

theorem exists_cons_of_isName (h : isName name = true) :
    ∃ c rest, name.toList = c :: rest ∧ isNameStart c = true ∧ ∀ d ∈ rest, isNamePart d = true := by
  unfold isName at h
  split at h
  · cases h
  · next c rest heq =>
    rw [Bool.and_eq_true, List.all_eq_true] at h
    exact ⟨c, rest, heq, h⟩

theorem isNamePart_of_mem (h : isName name = true) : ∀ c ∈ name.toList, isNamePart c = true := by
  obtain ⟨c, rest, heq, hstart, hrest⟩ := exists_cons_of_isName h
  rw [heq]
  exact List.forall_mem_cons.2 ⟨isNamePart_of_isNameStart hstart, hrest⟩

theorem not_mem_of_isName (h : isName name = true) {c : Char} (hc : c ∈ marks) : c ∉ name.toList := by
  intro hmem
  have hpart := isNamePart_of_mem h c hmem
  rw [isNamePart_eq_false_of_mem hc] at hpart
  cases hpart

/-- **A name ends at a mark.** -/
theorem name_append_inj {other : String} {r s : List Char} (hname : isName name = true)
    (hother : isName other = true) (hr : Text.Begins (· ∈ marks) r) (hs : Text.Begins (· ∈ marks) s)
    (h : name.toList ++ r = other.toList ++ s) : name = other ∧ r = s := by
  have hmark : ∀ c, c ∈ marks → ¬ isNamePart c = true := by
    intro c hc hpart
    rw [isNamePart_eq_false_of_mem hc] at hpart
    cases hpart
  obtain ⟨hnames, hrest⟩ := Text.append_inj_of_begins (isNamePart_of_mem hname) (isNamePart_of_mem hother)
    (hr.mono hmark) (hs.mono hmark) h
  exact ⟨String.toList_injective hnames, hrest⟩

end Script

end TraceGraph
