import TraceGraph.Proofs.Levels

/-!
# Expressions without a text

An expression is written out without a check beforehand, so what is missing in it shows only when it is
needed.  `Complete` says, without the writing, what an expression has to have at every depth.

* `TextFault.of_textWithin`: an expression that has no text holds one of an unknown type, or an integer of
  too many digits, or is not complete.
* `complete_of_textWithin`: an expression that has a text is complete.
-/

namespace TraceGraph.Estree

/-- The families of errors with which a tree is refused. -/
def refusals : List Error.Kind := [.schema, .unsupportedNode, .malformedLiteral]

/-- The families of errors where something that an expression needs is not there. -/
def gaps : List Error.Kind := [.missingField, .missingOperation, .wrongType]

/-! ### Complete expressions -/

/-- The fields that an expression needs, by its type. -/
def neededKeys : Option ExpressionType → List String
  | some .identifier => ["name"]
  | some .call => ["callee"]
  | some .member => ["object", "property"]
  | some .unary => ["operator", "argument"]
  | some .binary | some .logical => ["left", "operator", "right"]
  | _ => []

/-- The fields of an expression that hold expressions. -/
def childKeys : Option ExpressionType → List String
  | some .call => ["callee"]
  | some .member => ["object", "property"]
  | some .unary => ["argument"]
  | some .binary | some .logical => ["left", "right"]
  | _ => []

/-- The fields of an expression that hold lists of expressions. -/
def listKeys : Option ExpressionType → List String
  | some .array => ["elements"]
  | some .call => ["arguments"]
  | _ => []

/-- The field is a list, unless it is missing or counts as nothing. -/
def IsListed (fields : List (String × Value)) (key : String) : Prop :=
  ∀ v, fields.lookup key = some v → v.truthy = true → ∃ items, v = .list items

/-- An expression that has all that its text needs, at every depth.  Nothing is asked of an object of
another type. -/
inductive Complete : Value → Prop
  | intro {fields : List (String × Value)}
      (needed : ∀ key ∈ neededKeys (expressionType? fields), ∃ v, fields.lookup key = some v)
      (operator : expressionType? fields = some .unary →
        ∃ text, fields.lookup "operator" = some (.str text))
      (children : ∀ key ∈ childKeys (expressionType? fields), ∀ child,
        fields.lookup key = some child → Complete child)
      (listed : ∀ key ∈ listKeys (expressionType? fields), IsListed fields key)
      (items : ∀ key ∈ listKeys (expressionType? fields), ∀ items,
        fields.lookup key = some (.list items) → ∀ item ∈ items, Complete item) :
      Complete (.object fields)

/-- Why an expression has no text. -/
inductive TextFault (v : Value) : Error → Prop
  | unknown (type : String) : TextFault v (.unsupportedNode type)
  | digits (h : v.hasText = false) : TextFault v .tooManyDigits
  | gap {e : Error} (hkind : e.kind ∈ gaps) (h : ¬ Complete v) : TextFault v e

section

variable {fields : List (String × Value)} {key : String} {e : Error} {v w : Value} {level : Nat}
  {items : List Value}

theorem lookup_of_require (h : Value.require fields key = .ok v) : fields.lookup key = some v := by
  unfold Value.require at h
  split at h
  · next hlookup =>
    cases h
    exact hlookup
  · cases h

theorem Part.hasText_eq_false (h : Part v w) (htext : w.hasText = false) : v.hasText = false := by
  rw [← Bool.not_eq_true] at htext ⊢
  exact fun hv => htext (h.hasText hv)

theorem hasText_eq_false_of_getD (h : ((fields.lookup key).getD .null).hasText = false) :
    (Value.object fields).hasText = false := by
  cases hlookup : fields.lookup key with
  | none => rw [hlookup] at h; cases h
  | some w =>
    rw [hlookup] at h
    exact (Part.field hlookup).hasText_eq_false h

theorem eq_of_writtenText (h : v.writtenText = .error e) : e = .tooManyDigits ∧ v.hasText = false := by
  unfold Value.writtenText at h
  split at h
  · cases h
  · next htext =>
    cases h
    exact ⟨rfl, Bool.eq_false_iff.2 htext⟩

theorem textWithin_str (level : Nat) (s : String) : textWithin level (.str s) = .error .noFields := by
  cases level <;> rfl

/-- What is gone through is a list of the field, or nothing, or else texts, of which there is one at
least. -/
theorem itemsOrNone_cases (h : itemsOrNone fields key = .ok items) :
    (IsListed fields key ∧ ∀ item ∈ items, ∃ listed, fields.lookup key = some (.list listed) ∧
        item ∈ listed) ∨
      ¬ IsListed fields key ∧ (∃ item, item ∈ items) ∧ ∀ item ∈ items, ∃ s, item = .str s := by
  unfold itemsOrNone at h
  split at h
  · next hlookup =>
    cases h
    refine .inl ⟨fun v hv => ?_, by simp⟩
    rw [hlookup] at hv
    cases hv
  · next v hv =>
    split at h
    · next htruthy =>
      have hlisted : (∀ listed, v ≠ .list listed) → ¬ IsListed fields key := by
        intro hne hlisted
        obtain ⟨listed, rfl⟩ := hlisted v hv htruthy
        exact hne listed rfl
      cases v with
      | list listed =>
        cases h
        refine .inl ⟨fun w hw _ => ?_, fun item hitem => ⟨_, hv, hitem⟩⟩
        exact ⟨_, Option.some.inj (hw.symm.trans hv)⟩
      | str s =>
        cases h
        refine .inr ⟨hlisted (fun _ heq => by cases heq), ?_, ?_⟩
        · have hne : s.toList ≠ [] := by
            intro hnil
            simp_all [Value.truthy]
          obtain ⟨c, hc⟩ := List.exists_mem_of_ne_nil _ hne
          exact ⟨_, List.mem_map_of_mem hc⟩
        · intro item hitem
          obtain ⟨c, -, rfl⟩ := List.mem_map.1 hitem
          exact ⟨_, rfl⟩
      | object others =>
        cases h
        refine .inr ⟨hlisted (fun _ heq => by cases heq), ?_, ?_⟩
        · have hne : others ≠ [] := by
            rintro rfl
            cases htruthy
          obtain ⟨field, hfield⟩ := List.exists_mem_of_ne_nil _ hne
          exact ⟨_, List.mem_map_of_mem hfield⟩
        · intro item hitem
          obtain ⟨field, -, rfl⟩ := List.mem_map.1 hitem
          exact ⟨_, rfl⟩
      | _ => cases h
    · next hfalsy =>
      cases h
      refine .inl ⟨fun w hw htruthy => ?_, by simp⟩
      rw [hv] at hw
      cases hw
      exact absurd htruthy hfalsy

theorem not_isListed_of_itemsOrNone (h : itemsOrNone fields key = .error e) :
    ¬ IsListed fields key ∧ e = .notIterable := by
  unfold itemsOrNone at h
  split at h
  · cases h
  · next v hv =>
    split at h
    · next htruthy =>
      cases v with
      | list | str | object => cases h
      | _ =>
        cases h
        refine ⟨fun hlisted => ?_, rfl⟩
        obtain ⟨listed, heq⟩ := hlisted _ hv htruthy
        cases heq
    · cases h

/-! ### Faults -/

namespace Complete

theorem exists_lookup (h : Complete (.object fields)) (hkey : key ∈ neededKeys (expressionType? fields)) :
    ∃ v, fields.lookup key = some v := by
  cases h with
  | intro hneeded _ _ _ _ => exact hneeded key hkey

theorem exists_operator (h : Complete (.object fields)) (htype : expressionType? fields = some .unary) :
    ∃ text, fields.lookup "operator" = some (.str text) := by
  cases h with
  | intro _ hoperator _ _ _ => exact hoperator htype

theorem child (h : Complete (.object fields)) (hkey : key ∈ childKeys (expressionType? fields))
    (hw : fields.lookup key = some w) : Complete w := by
  cases h with
  | intro _ _ hchildren _ _ => exact hchildren key hkey w hw

theorem isListed (h : Complete (.object fields)) (hkey : key ∈ listKeys (expressionType? fields)) :
    IsListed fields key := by
  cases h with
  | intro _ _ _ hlisted _ => exact hlisted key hkey

theorem item (h : Complete (.object fields)) (hkey : key ∈ listKeys (expressionType? fields))
    (hitems : fields.lookup key = some (.list items)) (hw : w ∈ items) : Complete w := by
  cases h with
  | intro _ _ _ _ hlists => exact hlists key hkey items hitems w hw

end Complete

namespace TextFault

/-- A fault of a part, if it is one that has to be complete. -/
theorem of_part (hpart : Part v w) (hcomplete : Complete v → Complete w) (h : TextFault w e) :
    TextFault v e := by
  cases h with
  | unknown type => exact .unknown type
  | digits htext => exact .digits (hpart.hasText_eq_false htext)
  | gap hkind hincomplete => exact .gap hkind fun h => hincomplete (hcomplete h)

theorem of_not_isListed (hkey : key ∈ listKeys (expressionType? fields))
    (hlisted : ¬ IsListed fields key) (hkind : e.kind ∈ gaps) : TextFault (.object fields) e :=
  .gap hkind fun h => hlisted (h.isListed hkey)

theorem of_require (hkey : key ∈ neededKeys (expressionType? fields))
    (h : Value.require fields key = .error e) : TextFault (.object fields) e := by
  unfold Value.require at h
  split at h
  · cases h
  · next hlookup =>
    cases h
    refine .gap (by simp [gaps, Error.kind]) fun hcomplete => ?_
    obtain ⟨v, hv⟩ := hcomplete.exists_lookup hkey
    rw [hlookup] at hv
    cases hv

theorem of_writtenText (hw : w.hasText = false → v.hasText = false) (h : w.writtenText = .error e) :
    TextFault v e := by
  obtain ⟨rfl, htext⟩ := eq_of_writtenText h
  exact .digits (hw htext)

theorem of_literalText {value raw : Value} (hvalue : value.hasText = false → v.hasText = false)
    (h : literalText value raw = .error e) : TextFault v e := by
  have hplain : plainLiteral value = .error e → TextFault v e := by
    intro h
    cases value with
    | null | bool | str => cases h
    | _ => exact of_writtenText hvalue h
  unfold literalText at h
  split at h
  · split at h
    · exact hplain h
    · split at h
      · exact of_writtenText hvalue (eq_error_of_bind_pure h)
      · cases h
  · exact hplain h

/-- The expressions of a list are written out before anything else. -/
theorem of_items {rest : List String → Except Error String}
    (hkey : key ∈ listKeys (expressionType? fields))
    (hpart : ∀ w, Part (.object fields) w → ∀ e, textWithin level w = .error e → TextFault w e)
    (h : (itemsOrNone fields key >>= fun items => items.mapM (textWithin level) >>= rest) = .error e) :
    TextFault (.object fields) e ∨ ∃ texts, rest texts = .error e := by
  rcases bind_eq_error_iff.1 h with h | ⟨items, hitems, h⟩
  · obtain ⟨hlisted, rfl⟩ := not_isListed_of_itemsOrNone h
    exact .inl (of_not_isListed hkey hlisted (by decide))
  · rcases bind_eq_error_iff.1 h with h | ⟨texts, -, h⟩
    · obtain ⟨item, hreaches, h⟩ := mapM_eq_error_iff.1 h
      left
      rcases itemsOrNone_cases hitems with ⟨-, hlists⟩ | ⟨hlisted, -, hscalar⟩
      · obtain ⟨listed, hlookup, hmem⟩ := hlists item hreaches.mem
        exact of_part (.item hlookup hmem) (fun hcomplete => hcomplete.item hkey hlookup hmem)
          (hpart item (.item hlookup hmem) e h)
      · obtain ⟨s, rfl⟩ := hscalar item hreaches.mem
        rw [textWithin_str] at h
        cases h
        exact of_not_isListed hkey hlisted (by decide)
    · exact .inr ⟨texts, h⟩

/-- A field has to be there, and the expression in it has to have a text. -/
theorem of_field {rest : String → Except Error String}
    (hneeded : key ∈ neededKeys (expressionType? fields))
    (hkey : key ∈ childKeys (expressionType? fields))
    (hpart : ∀ w, Part (.object fields) w → ∀ e, textWithin level w = .error e → TextFault w e)
    (h : (Value.require fields key >>= fun w => textWithin level w >>= rest) = .error e) :
    TextFault (.object fields) e ∨ ∃ text, rest text = .error e := by
  rcases bind_eq_error_iff.1 h with h | ⟨w, hw, h⟩
  · exact .inl (of_require hneeded h)
  · have hlookup := lookup_of_require hw
    rcases bind_eq_error_iff.1 h with h | ⟨text, -, h⟩
    · exact .inl (of_part (.field hlookup) (fun hcomplete => hcomplete.child hkey hlookup)
        (hpart w (.field hlookup) e h))
    · exact .inr ⟨text, h⟩

/-- What keeps an expression from having a text.  The induction is on the levels, and goes from a fault of
a part to one of the whole. -/
theorem of_textWithin (hlevel : v.height ≤ level) (h : textWithin level v = .error e) :
    TextFault v e := by
  induction level generalizing v e with
  | zero =>
    cases v with
    | object => simp [Value.height] at hlevel
    | _ =>
      cases h
      exact .gap (by decide) fun hcomplete => by cases hcomplete
  | succ level ih =>
    cases v with
    | object fields =>
      have hpart : ∀ w, Part (.object fields) w → ∀ e, textWithin level w = .error e →
          TextFault w e := by
        intro w hw e he
        have hlt := hw.height_lt
        exact ih (by omega) he
      rw [textWithin] at h
      cases htype : expressionType? fields with
      | none =>
        rw [htype] at h
        rcases bind_eq_error_iff.1 h with h | ⟨type, -, h⟩
        · exact of_writtenText hasText_eq_false_of_getD h
        · cases h
          exact .unknown type
      | some type =>
        rw [htype] at h
        cases type with
        | identifier =>
          rcases bind_eq_error_iff.1 h with h | ⟨name, hname, h⟩
          · exact of_require (by rw [htype]; decide) h
          · exact of_writtenText (Part.field (lookup_of_require hname)).hasText_eq_false h
        | literal => exact of_literalText hasText_eq_false_of_getD h
        | array =>
          rcases of_items (by rw [htype]; decide) hpart h with h | ⟨texts, h⟩
          · exact h
          · cases h
        | call =>
          rcases of_items (by rw [htype]; decide) hpart h with h | ⟨texts, h⟩
          · exact h
          · rcases of_field (by rw [htype]; decide) (by rw [htype]; decide) hpart h with
              h | ⟨callee, h⟩
            · exact h
            · cases h
        | member =>
          rcases of_field (by rw [htype]; decide) (by rw [htype]; decide) hpart h with h | ⟨object, h⟩
          · exact h
          · rcases of_field (by rw [htype]; decide) (by rw [htype]; decide) hpart h with
              h | ⟨property, h⟩
            · exact h
            · split at h <;> cases h
        | unary =>
          rcases bind_eq_error_iff.1 h with h | ⟨operator, hoperator, h⟩
          · exact of_require (by rw [htype]; decide) h
          · rcases of_field (by rw [htype]; decide) (by rw [htype]; decide) hpart h with
              h | ⟨argument, h⟩
            · exact h
            · unfold unaryText at h
              split at h
              · split at h <;> cases h
              · next hne =>
                cases h
                refine .gap (by decide) fun hcomplete => ?_
                obtain ⟨text, hlookup⟩ := hcomplete.exists_operator htype
                rw [lookup_of_require hoperator] at hlookup
                exact hne text (Option.some.inj hlookup)
        | binary | logical =>
          rcases of_field (by rw [htype]; decide) (by rw [htype]; decide) hpart h with h | ⟨left, h⟩
          · exact h
          · rcases bind_eq_error_iff.1 h with h | ⟨operator, hoperator, h⟩
            · exact of_require (by rw [htype]; decide) h
            · rcases bind_eq_error_iff.1 h with h | ⟨text, -, h⟩
              · exact of_writtenText (Part.field (lookup_of_require hoperator)).hasText_eq_false h
              · rcases of_field (by rw [htype]; decide) (by rw [htype]; decide) hpart h with
                  h | ⟨right, h⟩
                · exact h
                · cases h
    | _ =>
      cases h
      exact .gap (by decide) fun hcomplete => by cases hcomplete

end TextFault

/-! ### Texts -/

theorem isListed_of_mapM {texts : List String}
    (hcomplete : ∀ w text, textWithin level w = .ok text → Complete w)
    (hitems : itemsOrNone fields key = .ok items) (h : items.mapM (textWithin level) = .ok texts) :
    IsListed fields key ∧
      ∀ listed, fields.lookup key = some (.list listed) → ∀ item ∈ listed, Complete item := by
  have htexts := exists_mapM_eq_ok_iff.1 ⟨texts, h⟩
  rcases itemsOrNone_cases hitems with ⟨hlisted, -⟩ | ⟨-, ⟨item, hitem⟩, hscalar⟩
  · refine ⟨hlisted, fun listed hlookup item hitem => ?_⟩
    have heq : items = listed := by
      unfold itemsOrNone at hitems
      rw [hlookup] at hitems
      cases listed with
      | nil => cases hitem
      | cons => cases hitems; rfl
    obtain ⟨text, htext⟩ := htexts item (heq ▸ hitem)
    exact hcomplete item text htext
  · obtain ⟨s, rfl⟩ := hscalar item hitem
    obtain ⟨text, htext⟩ := htexts _ hitem
    rw [textWithin_str] at htext
    cases htext

/-- An expression that has a text is complete. -/
theorem complete_of_textWithin {text : String} (h : textWithin level v = .ok text) : Complete v := by
  induction level generalizing v text with
  | zero => cases h
  | succ level ih =>
    cases v with
    | object fields =>
      rw [textWithin] at h
      cases htype : expressionType? fields with
      | none => constructor <;> simp [htype, neededKeys, childKeys, listKeys]
      | some type =>
        rw [htype] at h
        cases type with
        | identifier =>
          obtain ⟨name, hname, -⟩ := bind_eq_ok_iff.1 h
          constructor <;> simp [htype, neededKeys, childKeys, listKeys, lookup_of_require hname]
        | literal => constructor <;> simp [htype, neededKeys, childKeys, listKeys]
        | array =>
          obtain ⟨items, hitems, h⟩ := bind_eq_ok_iff.1 h
          obtain ⟨texts, htexts, -⟩ := bind_eq_ok_iff.1 h
          obtain ⟨hlisted, hcomplete⟩ := isListed_of_mapM (fun _ _ => ih) hitems htexts
          exact .intro (by simp [htype, neededKeys]) (by simp [htype]) (by simp [htype, childKeys])
            (by simpa [htype, listKeys] using hlisted) (by simpa [htype, listKeys] using hcomplete)
        | call =>
          obtain ⟨items, hitems, h⟩ := bind_eq_ok_iff.1 h
          obtain ⟨texts, htexts, h⟩ := bind_eq_ok_iff.1 h
          obtain ⟨hlisted, hcomplete⟩ := isListed_of_mapM (fun _ _ => ih) hitems htexts
          obtain ⟨callee, hcallee, h⟩ := bind_eq_ok_iff.1 h
          obtain ⟨text, htext, -⟩ := bind_eq_ok_iff.1 h
          exact .intro (by simp [htype, neededKeys, lookup_of_require hcallee]) (by simp [htype])
            (by simp [htype, childKeys, lookup_of_require hcallee, ih htext])
            (by simpa [htype, listKeys] using hlisted) (by simpa [htype, listKeys] using hcomplete)
        | member =>
          obtain ⟨object, hobject, h⟩ := bind_eq_ok_iff.1 h
          obtain ⟨text, htext, h⟩ := bind_eq_ok_iff.1 h
          obtain ⟨property, hproperty, h⟩ := bind_eq_ok_iff.1 h
          obtain ⟨text', htext', -⟩ := bind_eq_ok_iff.1 h
          constructor <;> simp [htype, neededKeys, childKeys, listKeys, lookup_of_require hobject,
            lookup_of_require hproperty, ih htext, ih htext']
        | unary =>
          obtain ⟨operator, hoperator, h⟩ := bind_eq_ok_iff.1 h
          obtain ⟨argument, hargument, h⟩ := bind_eq_ok_iff.1 h
          obtain ⟨text, htext, h⟩ := bind_eq_ok_iff.1 h
          unfold unaryText at h
          split at h
          · constructor <;> simp [htype, neededKeys, childKeys, listKeys,
              lookup_of_require hoperator, lookup_of_require hargument, ih htext]
          · cases h
        | binary | logical =>
          obtain ⟨left, hleft, h⟩ := bind_eq_ok_iff.1 h
          obtain ⟨text, htext, h⟩ := bind_eq_ok_iff.1 h
          obtain ⟨operator, hoperator, h⟩ := bind_eq_ok_iff.1 h
          obtain ⟨word, -, h⟩ := bind_eq_ok_iff.1 h
          obtain ⟨right, hright, h⟩ := bind_eq_ok_iff.1 h
          obtain ⟨text', htext', -⟩ := bind_eq_ok_iff.1 h
          constructor <;> simp [htype, neededKeys, childKeys, listKeys, lookup_of_require hleft,
            lookup_of_require hoperator, lookup_of_require hright, ih htext, ih htext']
    | _ => cases h

end

end TraceGraph.Estree
