import TraceGraph.Java.Statement
import TraceGraph.Proofs.Separation
import TraceGraph.Proofs.StringLiteral

/-!
# Lines tell statements apart

Two statements with the same line are the same, for every graph and all eight kinds of statements
(`eq_of_line_eq`).  Names end at a mark.  The texts of values may hold any marks, but only inside quotes or
braces, so a scanner that counts braces and skips quoted text comes to the end of such a text before it meets
a comma, a semicolon or a parenthesis (`IsAtom.passes`).

Half of the kinds of statements declare something, and their lines have a blank where the others have a point.
Among the declarations, only the text after the equality sign can differ, and the value of a local is the only
one without a parenthesis; among the others, the method that is called tells which it is.
-/

namespace TraceGraph.Java

open Script (isName marks)
open Text (Begins Separates begins_cons listing toList_commas)

/-! ### The texts of values -/

/-- The texts that stand for a value: a name, a literal, or the creation of an array of such. -/
inductive IsAtom : String → Prop
  | name {text : String} (h : isName text = true) : IsAtom text
  | literal {value : Literal} {text : String} (h : value.java = .ok text) : IsAtom text
  | array {type : String} {items : List String} (htype : isName type = true)
      (hitems : ∀ item ∈ items, IsAtom item) : IsAtom (Node.arrayCreation type items)

/-- Where a scanner is: so many braces are open, and it is in quoted text or not. -/
inductive Place where
  | code (depth : Nat)
  | quoted (depth : Nat)
  /-- Right after a backslash in quoted text. -/
  | escaped (depth : Nat)
deriving DecidableEq, Repr

namespace Place

/-- The place after one more character. -/
def next : Place → Char → Place
  | .code depth, c =>
    if c = '"' then .quoted depth
    else if c = '\x7b' then .code (depth + 1)
    else if c = '\x7d' then .code (depth - 1)
    else .code depth
  | .quoted depth, c =>
    if c = '"' then .code depth else if c = '\\' then .escaped depth else .quoted depth
  | .escaped depth, _ => .quoted depth

/-- Does the scanner stop at the character?  It does at a separator outside of quotes and braces, and at an
opening parenthesis outside of quotes. -/
def stops : Place → Char → Bool
  | .code depth, c => c = '(' || depth = 0 && (c = ',' || c = ';' || c = ')')
  | _, _ => false

end Place

/-- The text up to where the scanner stops, and the rest. -/
def cut (place : Place) : List Char → List Char × List Char
  | [] => ([], [])
  | c :: rest =>
    if place.stops c then ([], c :: rest) else Prod.map (c :: ·) id (cut (place.next c) rest)

/-- The scanner goes through a piece from one place to another, whatever comes after it. -/
def Passes (start : Place) (piece : List Char) (stop : Place) : Prop :=
  ∀ rest, cut start (piece ++ rest) = Prod.map (piece ++ ·) id (cut stop rest)

namespace Passes

variable {start middle stop : Place} {piece piece' : List Char}

theorem nil (place : Place) : Passes place [] place := fun _ => rfl

theorem append (h : Passes start piece middle) (h' : Passes middle piece' stop) :
    Passes start (piece ++ piece') stop := by
  intro rest
  rw [List.append_assoc, h, h']
  exact Prod.ext (List.append_assoc _ _ _).symm rfl

theorem single {c : Char} (h : start.stops c = false) : Passes start [c] (start.next c) := by
  intro rest
  rw [List.singleton_append, cut, h]
  rfl

theorem cons {c : Char} (hc : start.stops c = false) (h : Passes (start.next c) piece stop) :
    Passes start (c :: piece) stop :=
  (single hc).append h

/-- Characters that leave the scanner where it is. -/
theorem of_forall (h : ∀ c ∈ piece, start.stops c = false ∧ start.next c = start) :
    Passes start piece start := by
  induction piece with
  | nil => exact nil start
  | cons c rest ih =>
    rw [List.forall_mem_cons] at h
    have hrest := ih h.2
    rw [← h.1.2] at hrest
    have hpass := cons h.1.1 hrest
    rwa [h.1.2] at hpass

theorem flatMap {α : Type} {piece : α → List Char} {items : List α}
    (h : ∀ item ∈ items, Passes start (piece item) start) : Passes start (items.flatMap piece) start := by
  induction items with
  | nil => exact nil start
  | cons item rest ih =>
    rw [List.forall_mem_cons] at h
    exact h.1.append (ih h.2)

/-- A piece that the scanner goes through is cut off whole. -/
theorem cut_append (h : Passes start piece stop) {rest : List Char}
    (hrest : Begins (stop.stops · = true) rest) : cut start (piece ++ rest) = (piece, rest) := by
  have hstop : cut stop rest = ([], rest) := by
    cases rest with
    | nil => rfl
    | cons c rest => rw [cut, if_pos (begins_cons.1 hrest)]
  rw [h, hstop]
  exact Prod.ext (List.append_nil _) rfl

end Passes

/-! ### Scanning the texts of values -/

/-- Characters that mean nothing to the scanner outside of quotes. -/
def IsPlain (c : Char) : Prop := c ∉ ['"', '\x7b', '\x7d', '(', ',', ';', ')']

instance decidableIsPlain (c : Char) : Decidable (IsPlain c) :=
  inferInstanceAs (Decidable (c ∉ ['"', '\x7b', '\x7d', '(', ',', ';', ')']))

theorem passes_plain {piece : List Char} (h : ∀ c ∈ piece, IsPlain c) (depth : Nat) :
    Passes (.code depth) piece (.code depth) := by
  refine Passes.of_forall fun c hc => ?_
  have hplain := h c hc
  simp only [IsPlain, List.mem_cons, List.not_mem_nil, or_false, not_or] at hplain
  obtain ⟨hquote, hopen, hclose, hcall, hcomma, hend, hdone⟩ := hplain
  constructor
  · simp [Place.stops, hcall, hcomma, hend, hdone]
  · rw [Place.next, if_neg hquote, if_neg hopen, if_neg hclose]

theorem isPlain_of_isName {name : String} (h : isName name = true) : ∀ c ∈ name.toList, IsPlain c := by
  intro c hc hspecial
  have hmarks : ∀ c ∈ ['"', '\x7b', '\x7d', '(', ',', ';', ')'], c ∈ marks := by decide
  exact Script.not_mem_of_isName h (hmarks c hspecial) hc

theorem isPlain_of_isNumeral {c : Char} (h : Decimal.IsNumeral c) : IsPlain c := by
  intro hspecial
  have hall : ∀ c ∈ ['"', '\x7b', '\x7d', '(', ',', ';', ')'], ¬ Decimal.IsNumeral c := by decide
  exact hall c hspecial h

/-- Inside quotes the scanner goes on over each escaped character. -/
theorem passes_escape (c : Char) (depth : Nat) :
    Passes (.quoted depth) (Text.escape c) (.quoted depth) := by
  have hself : ∀ d : Char, d ≠ '"' → d ≠ '\\' → Passes (.quoted depth) [d] (.quoted depth) := by
    intro d hquote hbackslash
    refine Passes.of_forall fun d' hd' => ?_
    rw [List.mem_singleton.1 hd', Place.next, if_neg hquote, if_neg hbackslash]
    exact ⟨rfl, rfl⟩
  have hshort : ∀ d : Char, Passes (.quoted depth) ['\\', d] (.quoted depth) :=
    fun d => Passes.cons rfl (Passes.single rfl)
  unfold Text.escape
  iterate 7
    split
    · exact hshort _
  next hquote hbackslash _ _ _ _ _ =>
  split
  · exact hself c hquote hbackslash
  · refine Passes.flatMap fun unit hunit => ?_
    have hdigit : ∀ n < 16, n.digitChar ≠ '"' ∧ n.digitChar ≠ '\\' := by decide
    rw [Text.unitEscape, Text.hex_four (Text.lt_of_mem_units hunit)]
    have hsmall := Text.lt_of_mem_units hunit
    have hpass : ∀ n < 16, Passes (.quoted depth) [n.digitChar] (.quoted depth) :=
      fun n hn => hself _ (hdigit n hn).1 (hdigit n hn).2
    exact (hshort 'u').append ((hpass _ (by omega)).append ((hpass _ (by omega)).append
      ((hpass _ (by omega)).append (hpass _ (by omega)))))

theorem passes_doubleQuoted (s : String) (depth : Nat) :
    Passes (.code depth) (Text.doubleQuoted s).toList (.code depth) := by
  rw [Text.doubleQuoted, String.toList_ofList]
  have hopen : Passes (.code depth) ['"'] (.quoted depth) := Passes.single (by simp [Place.stops])
  have hclose : Passes (.quoted depth) ['"'] (.code depth) := Passes.single rfl
  exact hopen.append ((Passes.flatMap fun c _ => passes_escape c depth).append hclose)

theorem eq_toString_of_integerText? {n : Int} {text : String} (h : Decimal.integerText? n = some text) :
    text = toString n := by
  obtain ⟨-, heq⟩ := Option.ite_none_right_eq_some.1 h
  exact (Option.some.inj heq).symm

theorem eq_toString_of_java {n : Int} {text : String} (h : (Literal.int n).java = .ok text) :
    text = toString n := by
  unfold Literal.java at h
  dsimp only at h
  split at h
  · next htext =>
    cases h
    exact eq_toString_of_integerText? htext
  · cases h

theorem passes_literal {value : Literal} {text : String} (h : value.java = .ok text) (depth : Nat) :
    Passes (.code depth) text.toList (.code depth) := by
  cases value with
  | null =>
    cases h
    exact passes_plain (by decide) depth
  | bool b =>
    cases h
    cases b <;> exact passes_plain (by decide) depth
  | int n =>
    rw [eq_toString_of_java h]
    exact passes_plain (fun c hc => isPlain_of_isNumeral (Decimal.all_isNumeral_toString n c hc)) depth
  | float x =>
    cases h
    refine passes_plain (fun c hc => ?_) depth
    rcases Decimal.text_cases x with hword | hnumber
    · have hall : ∀ word ∈ ["nan", "inf", "-inf"], Text.All IsPlain word := by decide
      exact hall _ hword c hc
    · exact isPlain_of_isNumeral (hnumber c hc)
  | str s =>
    cases h
    exact passes_doubleQuoted s depth

theorem toList_arrayCreation (type : String) (items : List String) :
    (Node.arrayCreation type items).toList = "new ".toList ++ type.toList ++ "[] ".toList ++
      '\x7b' :: (listing String.toList items ++ ['\x7d']) := by
  simp [Node.arrayCreation, toList_commas]

/-- **The scanner goes through the text of a value** without a stop, at every depth. -/
theorem IsAtom.passes {text : String} (h : IsAtom text) (depth : Nat) :
    Passes (.code depth) text.toList (.code depth) := by
  induction h generalizing depth with
  | name hname => exact passes_plain (isPlain_of_isName hname) depth
  | literal hvalue => exact passes_literal hvalue depth
  | @array type items htype hitems ih =>
    rw [toList_arrayCreation]
    -- Inside the braces commas are no stops.
    have hlisted : Passes (.code (depth + 1)) (listing String.toList items) (.code (depth + 1)) := by
      have hcomma : Passes (.code (depth + 1)) [',', ' '] (.code (depth + 1)) :=
        Passes.of_forall (by simp [Place.stops, Place.next])
      cases items with
      | nil => exact Passes.nil _
      | cons item rest =>
        refine (ih item List.mem_cons_self _).append (Passes.flatMap fun other hother => ?_)
        exact hcomma.append (ih other (List.mem_cons_of_mem _ hother) _)
    have hfront := ((passes_plain (by decide : ∀ c ∈ "new ".toList, IsPlain c) depth).append
      (passes_plain (isPlain_of_isName htype) depth)).append
      (passes_plain (by decide : ∀ c ∈ "[] ".toList, IsPlain c) depth)
    have hopen : Passes (.code depth) ['\x7b'] (.code (depth + 1)) :=
      Passes.single (by simp [Place.stops])
    have hclose : Passes (.code (depth + 1)) ['\x7d'] (.code depth) :=
      Passes.single (by simp [Place.stops])
    exact hfront.append (hopen.append (hlisted.append hclose))

/-- The characters that end the text of a value. -/
def IsStop (c : Char) : Prop := (Place.code 0).stops c = true

theorem IsAtom.separates {text : String} (h : IsAtom text) :
    Separates String.toList IsAtom IsStop text := by
  intro other r s hother hr hs heq
  have hcut := (h.passes 0).cut_append hr
  rw [heq, (hother.passes 0).cut_append hs] at hcut
  obtain ⟨htext, hrest⟩ := Prod.mk.inj hcut
  exact ⟨String.toList_injective htext.symm, hrest.symm⟩

/-! ### Numbers as text -/

theorem decimal_ne_nil (layout : Decimal.Layout) (d : Decimal.Scientific) : layout.decimal d ≠ [] := by
  unfold Decimal.Layout.decimal
  dsimp only
  split
  · unfold Decimal.Layout.positional
    dsimp only
    split
    · simp
    · split <;> simp
  · simp [Decimal.Layout.scientific]

theorem text_ne_empty (x : Float) : Decimal.text x ≠ "" := by
  change Decimal.plain.parts (Decimal.Binary64.ofFloat x) ≠ ""
  cases Decimal.Binary64.ofFloat x with
  | nan => decide
  | infinite negative => cases negative <;> decide
  | finite negative mantissa exponent =>
    intro h
    have hparts := (String.append_eq_empty_iff.1 h).2
    split at hparts
    · exact absurd hparts (by decide)
    · exact decimal_ne_nil _ _ (String.ofList_eq_empty_iff.1 hparts)

theorem toString_ne_empty (n : Int) : toString n ≠ "" := by
  cases n with
  | ofNat n => exact Nat.repr_ne_empty
  | negSucc n =>
    intro h
    exact absurd (String.append_eq_empty_iff.1 h).1 (by decide)

theorem repr_ne_minus (m : Nat) (s : String) : m.repr ≠ "-" ++ s := by
  intro h
  have hmem : '-' ∈ Nat.toDigits 10 m := by
    rw [← String.toList_ofList (l := Nat.toDigits 10 m), ← Nat.repr_eq_ofList_toDigits, h]
    simp
  exact absurd (Nat.isDigit_of_mem_toDigits (by decide) (by decide) hmem) (by decide)

theorem repr_inj {m n : Nat} (h : m.repr = n.repr) : m = n := by
  rw [Nat.repr_eq_ofList_toDigits, Nat.repr_eq_ofList_toDigits, String.ofList_inj] at h
  -- The digits can be read back.
  rw [← @Nat.ofDigitChars_ten_toDigits m, h, Nat.ofDigitChars_ten_toDigits]

theorem toString_inj {m n : Int} (h : toString m = toString n) : m = n := by
  cases m with
  | ofNat m =>
    cases n with
    | ofNat n => exact congrArg Int.ofNat (repr_inj h)
    | negSucc n => exact absurd h (repr_ne_minus m _)
  | negSucc m =>
    cases n with
    | ofNat n => exact absurd h.symm (repr_ne_minus n _)
    | negSucc n =>
      have hsucc := repr_inj ((String.append_right_inj "-").1 h)
      rw [Nat.succ.inj hsucc]

/-! ### Lists of values -/

theorem IsAtom.ne_empty {text : String} (h : IsAtom text) : text ≠ "" := by
  rintro rfl
  generalize htext : "" = text at h
  cases h with
  | name hname =>
    subst htext
    exact absurd hname (by decide)
  | @literal value _ hvalue =>
    subst htext
    cases value with
    | null => exact absurd (Except.ok.inj hvalue) (by decide)
    | bool b => cases b <;> exact absurd (Except.ok.inj hvalue) (by decide)
    | int n => exact toString_ne_empty n (eq_toString_of_java hvalue).symm
    | float x => exact text_ne_empty x (Except.ok.inj hvalue)
    | str s => exact absurd (Except.ok.inj hvalue) (by simp [Text.doubleQuoted])
  | array htype hitems => simp [Node.arrayCreation] at htext

/-- The text of a value does not begin with a mark that ends such texts. -/
theorem IsAtom.exists_cons {text : String} (h : IsAtom text) :
    ∃ c rest, text.toList = c :: rest ∧ ¬ IsStop c := by
  cases htext : text.toList with
  | nil => exact absurd (String.toList_eq_nil_iff.1 htext) h.ne_empty
  | cons c rest =>
    refine ⟨c, rest, rfl, fun hstop => ?_⟩
    have hcut := (h.passes 0).cut_append Text.begins_nil
    have hnone : cut (.code 0) (c :: rest) = ([], c :: rest) := if_pos hstop
    rw [List.append_nil, htext, hnone] at hcut
    cases hcut

/-- **The texts of arguments can be cut apart**, up to the parenthesis after them. -/
theorem atoms_inj {items others : List String} {r s : List Char} (hitems : ∀ item ∈ items, IsAtom item)
    (hothers : ∀ item ∈ others, IsAtom item)
    (h : listing String.toList items ++ ')' :: r = listing String.toList others ++ ')' :: s) :
    items = others ∧ r = s := by
  have hfirst : ∀ text, IsAtom text → ∃ c rest, text.toList = c :: rest ∧ c ≠ ')' := by
    intro text htext
    obtain ⟨c, rest, heq, hc⟩ := htext.exists_cons
    refine ⟨c, rest, heq, ?_⟩
    rintro rfl
    exact hc rfl
  exact Text.listing_inj (show IsStop ',' from rfl) (show IsStop ')' from rfl) (by decide) hfirst
    (fun item hitem => ⟨hitems item hitem, (hitems item hitem).separates⟩) hothers h

/-- A value that ends with the line is no call. -/
theorem IsAtom.ne_call {value : String} (h : IsAtom value) {front : List Char}
    (hfront : ∀ c ∈ front, IsPlain c) (rest : List Char) : value.toList ++ [';'] ≠ front ++ '(' :: rest := by
  intro heq
  have hend : Begins IsStop [';'] := begins_cons.2 rfl
  have hcall : Begins IsStop ('(' :: rest) := begins_cons.2 rfl
  have hcut := (h.passes 0).cut_append hend
  rw [heq, (passes_plain hfront 0).cut_append hcall] at hcut
  exact absurd (List.cons.inj (Prod.mk.inj hcut).2).1 (by decide)

/-! ### Statements -/

/-- The type of a local: a name, or the type of the arrays over it. -/
def IsLocalType (type : String) : Prop :=
  isName type = true ∨ ∃ element, isName element = true ∧ type = element ++ "[]"

/-- A type goes on up to the blank after it, and a receiver up to the point. -/
theorem front_append_inj {front other : String} {r s : List Char} (hfront : IsLocalType front)
    (hother : IsLocalType other) (hr : Begins (· ∈ [' ', '.']) r) (hs : Begins (· ∈ [' ', '.']) s)
    (h : front.toList ++ r = other.toList ++ s) : front = other ∧ r = s := by
  let p : Char → Prop := fun c => Script.isNamePart c = true ∨ c ∈ ['[', ']']
  have hall : ∀ {type : String}, IsLocalType type → ∀ c ∈ type.toList, p c := by
    rintro type (hname | ⟨element, hname, rfl⟩) c hc
    · exact .inl (Script.isNamePart_of_mem hname c hc)
    · rw [String.toList_append, List.mem_append] at hc
      exact hc.imp (Script.isNamePart_of_mem hname c) id
  have hend : ∀ c, c ∈ [' ', '.'] → ¬ p c := by
    have hsmall : ∀ c ∈ [' ', '.'], c ∈ marks ∧ c ∉ ['[', ']'] := by decide
    rintro c hc (hpart | hbracket)
    · rw [Script.isNamePart_eq_false_of_mem (hsmall c hc).1] at hpart
      cases hpart
    · exact (hsmall c hc).2 hbracket
  obtain ⟨htypes, hrest⟩ := Text.append_inj_of_begins (hall hfront) (hall hother) (hr.mono hend)
    (hs.mono hend) h
  exact ⟨String.toList_injective htypes, hrest⟩

namespace Statement

/-- The names in the statement are names, and the texts in it are the texts of values. -/
def Tidy : Statement → Prop
  | .blank => True
  | .declareVariable type name args =>
    isName type = true ∧ isName name = true ∧ ∀ arg ∈ args, IsAtom arg
  | .addFactor factor output factorArgs inputs =>
    isName factor = true ∧ (∀ arg ∈ factorArgs, IsAtom arg) ∧ ∀ input ∈ output :: inputs, IsAtom input
  | .fixValue name value => isName name = true ∧ IsAtom value
  | .declareLocal type name value => IsLocalType type ∧ isName name = true ∧ IsAtom value
  | .setIterations _ => True
  | .solve => True
  | .extractBelief belief name => isName belief = true ∧ isName name = true
  | .printBelief belief => isName belief = true

/-- The type, the name and the definition of what a statement declares. -/
def definition? : Statement → Option (String × String × List Char)
  | .declareVariable type name args => some (type, name,
      "new ".toList ++ type.toList ++ '(' :: (listing String.toList args ++ ");".toList))
  | .declareLocal type name value => some (type, name, value.toList ++ [';'])
  | .extractBelief belief name => some ("double[]", belief,
      name.toList ++ ".getBelief".toList ++ '(' :: ");".toList)
  | _ => none

/-- The receiver, the method and what comes after it, where a statement is a call. -/
def called? (graph : String) : Statement → Option (String × String × List Char)
  | .addFactor factor output factorArgs inputs => some (graph, "addFactor",
      "(new ".toList ++ (factor.toList ++ '(' :: (listing String.toList factorArgs ++ ')' :: (", ".toList ++
        (listing String.toList (output :: inputs) ++ ");".toList)))))
  | .fixValue name value => some (name, "setFixedValue", '(' :: (value.toList ++ ");".toList))
  | .setIterations count => some (graph, "getSolver",
      "().setNumIterations(".toList ++ ((toString count).toList ++ ");".toList))
  | .solve => some (graph, "solve", "();".toList)
  | .printBelief belief => some ("System", "out",
      ".println(Arrays.toString(".toList ++ (belief.toList ++ "));".toList))
  | _ => none

variable {graph line : String} {s t : Statement}

/-- **A line declares or calls something.** -/
theorem line_cases (hgraph : isName graph = true) (hs : s.Tidy) (h : s.line graph = .ok line) :
    (∃ type name rest, s.definition? = some (type, name, rest) ∧ IsLocalType type ∧ isName name = true ∧
      line.toList = type.toList ++ ' ' :: (name.toList ++ (" = ".toList ++ rest))) ∨
    ∃ receiver method rest, s.called? graph = some (receiver, method, rest) ∧ isName receiver = true ∧
      isName method = true ∧ Begins (· ∈ marks) rest ∧
      line.toList = receiver.toList ++ '.' :: (method.toList ++ rest) := by
  cases s with
  | blank => cases h
  | declareVariable type name args =>
    cases h
    exact .inl ⟨_, _, _, rfl, .inl hs.1, hs.2.1, by simp [toList_commas]⟩
  | declareLocal type name value =>
    cases h
    exact .inl ⟨_, _, _, rfl, hs.1, hs.2.1, by simp⟩
  | extractBelief belief name =>
    cases h
    exact .inl ⟨_, _, _, rfl, .inr ⟨"double", by decide, rfl⟩, hs.1, by simp⟩
  | addFactor factor output factorArgs inputs =>
    cases h
    exact .inr ⟨_, _, _, rfl, hgraph, by decide, by simp [marks], by simp [toList_commas]⟩
  | fixValue name value =>
    cases h
    exact .inr ⟨_, _, _, rfl, hs.1, by decide, by simp [marks], by simp⟩
  | setIterations count =>
    unfold Statement.line at h
    dsimp only at h
    split at h
    · next htext =>
      cases h
      rw [eq_toString_of_integerText? htext]
      exact .inr ⟨_, _, _, rfl, hgraph, by decide, by simp [marks], by simp⟩
    · cases h
  | solve =>
    cases h
    exact .inr ⟨_, _, _, rfl, hgraph, by decide, by simp [marks], by simp⟩
  | printBelief belief =>
    cases h
    exact .inr ⟨_, _, _, rfl, by decide, by decide, by simp [marks], by simp⟩

/-- Declarations of one type and name are told apart by what is after the equality sign. -/
theorem eq_of_definition?_eq (hs : s.Tidy) (ht : t.Tidy) {d : String × String × List Char}
    (h : s.definition? = some d) (h' : t.definition? = some d) : s = t := by
  have hnew : ∀ {type : String}, isName type = true → ∀ c ∈ "new ".toList ++ type.toList, IsPlain c :=
    fun htype => List.forall_mem_append.2 ⟨by decide, isPlain_of_isName htype⟩
  have hbelief : ∀ {name : String}, isName name = true →
      ∀ c ∈ name.toList ++ ".getBelief".toList, IsPlain c :=
    fun hname => List.forall_mem_append.2 ⟨isPlain_of_isName hname, by decide⟩
  have hdouble : ¬ isName "double[]" = true :=
    fun hname => Script.not_mem_of_isName hname (c := '[') (by decide) (by decide)
  rw [← h'] at h
  cases s with
  | declareVariable type name args =>
    cases t with
    | declareVariable type' name' args' =>
      simp only [definition?, Option.some.injEq, Prod.mk.injEq] at h
      obtain ⟨rfl, rfl, hrest⟩ := h
      have hargs := (List.cons.inj (List.append_cancel_left hrest)).2
      rw [(atoms_inj hs.2.2 ht.2.2 hargs).1]
    | declareLocal type' name' value =>
      simp only [definition?, Option.some.injEq, Prod.mk.injEq] at h
      obtain ⟨rfl, rfl, hrest⟩ := h
      exact absurd hrest.symm (ht.2.2.ne_call (hnew hs.1) _)
    | extractBelief belief name' =>
      simp only [definition?, Option.some.injEq, Prod.mk.injEq] at h
      obtain ⟨rfl, -⟩ := h
      exact absurd hs.1 hdouble
    | _ => cases h
  | declareLocal type name value =>
    cases t with
    | declareVariable type' name' args' =>
      simp only [definition?, Option.some.injEq, Prod.mk.injEq] at h
      obtain ⟨rfl, rfl, hrest⟩ := h
      exact absurd hrest (hs.2.2.ne_call (hnew ht.1) _)
    | declareLocal type' name' value' =>
      simp only [definition?, Option.some.injEq, Prod.mk.injEq] at h
      obtain ⟨rfl, rfl, hrest⟩ := h
      rw [String.toList_injective (List.append_cancel_right hrest)]
    | extractBelief belief name' =>
      simp only [definition?, Option.some.injEq, Prod.mk.injEq] at h
      obtain ⟨-, -, hrest⟩ := h
      exact absurd hrest (hs.2.2.ne_call (hbelief ht.2) _)
    | _ => cases h
  | extractBelief belief name =>
    cases t with
    | declareVariable type' name' args' =>
      simp only [definition?, Option.some.injEq, Prod.mk.injEq] at h
      obtain ⟨rfl, -⟩ := h
      exact absurd ht.1 hdouble
    | declareLocal type' name' value =>
      simp only [definition?, Option.some.injEq, Prod.mk.injEq] at h
      obtain ⟨-, -, hrest⟩ := h
      exact absurd hrest.symm (ht.2.2.ne_call (hbelief hs.2) _)
    | extractBelief belief' name' =>
      simp only [definition?, Option.some.injEq, Prod.mk.injEq] at h
      obtain ⟨-, rfl, hrest⟩ := h
      rw [String.toList_injective (List.append_cancel_right (List.append_cancel_right hrest))]
    | _ => cases h
  | _ => rw [h'] at h; cases h

/-- Calls are told apart by the method and then by what is after it. -/
theorem eq_of_called?_eq (hs : s.Tidy) (ht : t.Tidy) {d : String × String × List Char}
    (h : s.called? graph = some d) (h' : t.called? graph = some d) : s = t := by
  rw [← h'] at h
  cases s with
  | addFactor factor output factorArgs inputs =>
    cases t with
    | addFactor factor' output' factorArgs' inputs' =>
      simp only [called?, Option.some.injEq, Prod.mk.injEq] at h
      obtain ⟨-, -, hrest⟩ := h
      have hparen : ∀ r, Begins (· ∈ marks) ('(' :: r) := fun r => begins_cons.2 (by decide)
      obtain ⟨rfl, hargs⟩ := Script.name_append_inj hs.1 ht.1 (hparen _) (hparen _)
        (List.append_cancel_left hrest)
      obtain ⟨rfl, hinputs⟩ := atoms_inj hs.2.1 ht.2.1 (List.cons.inj hargs).2
      obtain ⟨heq, -⟩ := atoms_inj hs.2.2 ht.2.2 (List.append_cancel_left hinputs)
      obtain ⟨rfl, rfl⟩ := List.cons.inj heq
      rfl
    | _ => simp [called?] at h
  | fixValue name value =>
    cases t with
    | fixValue name' value' =>
      simp only [called?, Option.some.injEq, Prod.mk.injEq] at h
      obtain ⟨rfl, -, hrest⟩ := h
      rw [String.toList_injective (List.append_cancel_right (List.cons.inj hrest).2)]
    | _ => simp [called?] at h
  | setIterations count =>
    cases t with
    | setIterations count' =>
      simp only [called?, Option.some.injEq, Prod.mk.injEq] at h
      obtain ⟨-, -, hrest⟩ := h
      have htext := List.append_cancel_right (List.append_cancel_left hrest)
      rw [toString_inj (String.toList_injective htext)]
    | _ => simp [called?] at h
  | solve =>
    cases t with
    | solve => rfl
    | _ => simp [called?] at h
  | printBelief belief =>
    cases t with
    | printBelief belief' =>
      simp only [called?, Option.some.injEq, Prod.mk.injEq] at h
      obtain ⟨-, -, hrest⟩ := h
      rw [String.toList_injective (List.append_cancel_right (List.append_cancel_left hrest))]
    | _ => simp [called?] at h
  | _ => rw [h'] at h; cases h

/-- **The line of a statement determines it.** -/
theorem eq_of_line_eq (hgraph : isName graph = true) (hs : s.Tidy) (ht : t.Tidy)
    (h : s.line graph = .ok line) (h' : t.line graph = .ok line) : s = t := by
  have hblank : ∀ r, Begins (· ∈ [' ', '.']) (' ' :: r) := fun r => begins_cons.2 (by decide)
  have hpoint : ∀ r, Begins (· ∈ [' ', '.']) ('.' :: r) := fun r => begins_cons.2 (by decide)
  rcases line_cases hgraph hs h with ⟨type, name, rest, hd, htype, hname, hline⟩ |
    ⟨receiver, method, rest, hc, hreceiver, hmethod, hrest, hline⟩
  · rcases line_cases hgraph ht h' with ⟨type', name', rest', hd', htype', hname', hline'⟩ |
      ⟨receiver, method, rest', -, hreceiver, -, -, hline'⟩
    · rw [hline] at hline'
      obtain ⟨rfl, hafter⟩ := front_append_inj htype htype' (hblank _) (hblank _) hline'
      have hequals : ∀ r, Begins (· ∈ marks) (" = ".toList ++ r) := fun r => begins_cons.2 (by decide)
      obtain ⟨rfl, hvalue⟩ := Script.name_append_inj hname hname' (hequals _) (hequals _)
        (List.cons.inj hafter).2
      rw [← List.append_cancel_left hvalue] at hd'
      exact eq_of_definition?_eq hs ht hd hd'
    · rw [hline] at hline'
      have hafter := (front_append_inj htype (.inl hreceiver) (hblank _) (hpoint _) hline').2
      exact absurd (List.cons.inj hafter).1 (by decide)
  · rcases line_cases hgraph ht h' with ⟨type, name, rest', -, htype, -, hline'⟩ |
      ⟨receiver', method', rest', hc', hreceiver', hmethod', hrest', hline'⟩
    · rw [hline] at hline'
      have hafter := (front_append_inj (.inl hreceiver) htype (hpoint _) (hblank _) hline').2
      exact absurd (List.cons.inj hafter).1 (by decide)
    · rw [hline] at hline'
      obtain ⟨rfl, hafter⟩ :=
        front_append_inj (.inl hreceiver) (.inl hreceiver') (hpoint _) (hpoint _) hline'
      obtain ⟨rfl, rfl⟩ := Script.name_append_inj hmethod hmethod' hrest hrest' (List.cons.inj hafter).2
      exact eq_of_called?_eq hs ht hc hc'

/-- Marks in quotes and in braces do not hide where an argument ends. -/
theorem eq_of_line_eq_marks :
    Tidy (.declareVariable "Discrete" "x" [Node.arrayCreation "Object" [Text.doubleQuoted "a), \"b"], "y"]) ∧
    Statement.line "fg" (.declareVariable "Discrete" "x"
      ["new Object[] \x7b\"a), \\\"b\"\x7d", "y"]) =
        .ok "Discrete x = new Discrete(new Object[] \x7b\"a), \\\"b\"\x7d, y);" ∧
    Statement.declareVariable "Discrete" "x" [Node.arrayCreation "Object" [Text.doubleQuoted "a), \"b"], "y"] =
      .declareVariable "Discrete" "x" ["new Object[] \x7b\"a), \\\"b\"\x7d", "y"] := by
  have hquoted : IsAtom (Text.doubleQuoted "a), \"b") := @IsAtom.literal (.str "a), \"b") _ rfl
  have harray : IsAtom (Node.arrayCreation "Object" [Text.doubleQuoted "a), \"b"]) :=
    .array (by decide) (List.forall_mem_singleton.2 hquoted)
  have hname : IsAtom "y" := .name (by decide)
  have hargs := List.forall_mem_cons.2 ⟨harray, List.forall_mem_singleton.2 hname⟩
  have htext : "new Object[] \x7b\"a), \\\"b\"\x7d" =
      Node.arrayCreation "Object" [Text.doubleQuoted "a), \"b"] := by decide +kernel
  have htidy : Tidy (.declareVariable "Discrete" "x"
      [Node.arrayCreation "Object" [Text.doubleQuoted "a), \"b"], "y"]) := ⟨by decide, by decide, hargs⟩
  rw [htext]
  refine ⟨htidy, ?_, eq_of_line_eq (by decide : isName "fg" = true) htidy htidy rfl rfl⟩
  rw [← htext]
  rfl

end Statement

end TraceGraph.Java
