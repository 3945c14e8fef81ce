import TraceGraph.Error
import Mathlib.Data.List.Forall2

/-!
# Computations that can fail

When a computation in steps succeeds: each of its steps does.  The steps may stand one after the other
(`bind_eq_ok_iff`), or go through a list (`mapM_eq_ok_iff`).  It fails with the error of the first step
that does (`bind_eq_error_iff`, `mapM_eq_error_iff`).
-/

namespace TraceGraph

variable {α β : Type}

theorem bind_eq_ok_iff {x : Except Error α} {f : α → Except Error β} {b : β} :
    (x >>= f) = .ok b ↔ ∃ a, x = .ok a ∧ f a = .ok b := by
  cases x with
  | error e =>
    constructor
    · intro h; cases h
    · rintro ⟨a, ha, -⟩; cases ha
  | ok a =>
    constructor
    · intro h; exact ⟨a, rfl, h⟩
    · rintro ⟨_, ha, h⟩; cases ha; exact h

/-- A list is gone through to its end if and only if each of its items has a result. -/
theorem mapM_eq_ok_iff {f : α → Except Error β} {items : List α} {results : List β} :
    items.mapM f = .ok results ↔ List.Forall₂ (fun a b => f a = .ok b) items results := by
  induction items generalizing results with
  | nil =>
    rw [List.mapM_nil, List.forall₂_nil_left_iff]
    constructor
    · intro h; cases h; rfl
    · rintro rfl; rfl
  | cons first rest ih =>
    rw [List.mapM_cons, List.forall₂_cons_left_iff]
    constructor
    · intro h
      obtain ⟨b, hb, h⟩ := bind_eq_ok_iff.1 h
      obtain ⟨bs, hbs, h⟩ := bind_eq_ok_iff.1 h
      cases h
      exact ⟨b, bs, hb, ih.1 hbs, rfl⟩
    · rintro ⟨b, bs, hb, hbs, rfl⟩
      exact bind_eq_ok_iff.2 ⟨b, hb, bind_eq_ok_iff.2 ⟨bs, ih.2 hbs, rfl⟩⟩

/-- What holds of each result on its own holds of all results of a list. -/
theorem forall_of_mapM_eq_ok {f : α → Except Error β} {items : List α} {results : List β}
    {P : β → Prop} (h : items.mapM f = .ok results) (hf : ∀ a b, f a = .ok b → P b) :
    ∀ b ∈ results, P b := by
  rw [mapM_eq_ok_iff] at h
  induction h with
  | nil => simp
  | cons hb _ ih => exact List.forall_mem_cons.2 ⟨hf _ _ hb, ih⟩

theorem exists_mapM_eq_ok_iff {f : α → Except Error β} {items : List α} :
    (∃ results, items.mapM f = .ok results) ↔ ∀ a ∈ items, ∃ b, f a = .ok b := by
  simp only [mapM_eq_ok_iff]
  induction items with
  | nil => simp
  | cons first rest ih =>
    rw [List.forall_mem_cons, ← ih]
    constructor
    · rintro ⟨_, _ | ⟨hb, hbs⟩⟩
      exact ⟨⟨_, hb⟩, _, hbs⟩
    · rintro ⟨⟨b, hb⟩, bs, hbs⟩
      exact ⟨b :: bs, .cons hb hbs⟩

/-- What is related to a list, item by item, comes from its items. -/
theorem exists_mem_of_forall₂ {R : α → β → Prop} {l : List α} {l' : List β} {b : β}
    (h : List.Forall₂ R l l') (hb : b ∈ l') : ∃ a ∈ l, R a b := by
  induction h with
  | nil => cases hb
  | cons hfirst _ ih =>
    rcases List.mem_cons.1 hb with rfl | hb
    · exact ⟨_, List.mem_cons_self, hfirst⟩
    · obtain ⟨a, ha, hR⟩ := ih hb
      exact ⟨a, List.mem_cons_of_mem _ ha, hR⟩

/-! ### Failure -/

theorem bind_eq_error_iff {x : Except Error α} {f : α → Except Error β} {e : Error} :
    (x >>= f) = .error e ↔ x = .error e ∨ ∃ a, x = .ok a ∧ f a = .error e := by
  cases x with
  | error e' =>
    constructor
    · intro h; cases h; exact .inl rfl
    · rintro (h | ⟨a, ha, -⟩)
      · cases h; rfl
      · cases ha
  | ok a =>
    constructor
    · intro h; exact .inr ⟨a, rfl, h⟩
    · rintro (h | ⟨_, ha, h⟩)
      · cases h
      · cases ha; exact h

theorem eq_error_of_bind_pure {x : Except Error α} {f : α → β} {e : Error}
    (h : (x >>= fun a => pure (f a)) = .error e) : x = .error e := by
  rcases bind_eq_error_iff.1 h with h | ⟨a, -, h⟩
  · exact h
  · cases h

theorem bind_congr_of_ok {x : Except Error α} {f g : α → Except Error β}
    (h : ∀ a, x = .ok a → f a = g a) : (x >>= f) = (x >>= g) := by
  cases x with
  | error e => rfl
  | ok a => exact h a rfl

theorem mapM_congr {f g : α → Except Error β} {items : List α} (h : ∀ a ∈ items, f a = g a) :
    items.mapM f = items.mapM g := by
  induction items with
  | nil => rfl
  | cons first rest ih =>
    rw [List.forall_mem_cons] at h
    rw [List.mapM_cons, List.mapM_cons, h.1, ih h.2]

/-- A list is gone through up to this item: each item before it has a result. -/
def Reaches (f : α → Except Error β) (items : List α) (item : α) : Prop :=
  ∃ before after results, items = before ++ item :: after ∧ before.mapM f = .ok results

theorem Reaches.mem {f : α → Except Error β} {items : List α} {item : α} (h : Reaches f items item) :
    item ∈ items := by
  obtain ⟨before, after, -, rfl, -⟩ := h
  simp

/-- Going through a list fails with the error of the first item that has no result. -/
theorem mapM_eq_error_iff {f : α → Except Error β} {items : List α} {e : Error} :
    items.mapM f = .error e ↔ ∃ item, Reaches f items item ∧ f item = .error e := by
  induction items with
  | nil =>
    constructor
    · intro h; cases h
    · rintro ⟨item, hreaches, -⟩
      cases hreaches.mem
  | cons first rest ih =>
    rw [List.mapM_cons, bind_eq_error_iff]
    constructor
    · rintro (h | ⟨b, hb, h⟩)
      · exact ⟨first, ⟨[], rest, [], rfl, rfl⟩, h⟩
      · rcases bind_eq_error_iff.1 h with h | ⟨bs, -, h⟩
        · obtain ⟨item, ⟨before, after, results, rfl, hbefore⟩, hitem⟩ := ih.1 h
          refine ⟨item, ⟨first :: before, after, b :: results, rfl, ?_⟩, hitem⟩
          rw [List.mapM_cons, hb, hbefore]
          rfl
        · cases h
    · rintro ⟨item, ⟨before, after, results, heq, hbefore⟩, h⟩
      cases before with
      | nil =>
        cases heq
        exact .inl h
      | cons other before =>
        obtain ⟨rfl, rfl⟩ := List.cons.inj heq
        rw [List.mapM_cons] at hbefore
        obtain ⟨b, hb, hbefore⟩ := bind_eq_ok_iff.1 hbefore
        obtain ⟨bs, hbs, -⟩ := bind_eq_ok_iff.1 hbefore
        refine .inr ⟨b, hb, bind_eq_error_iff.2 (.inl (ih.2 ⟨item, ?_, h⟩))⟩
        exact ⟨before, after, bs, rfl, hbs⟩

/-! ### Partial functions -/

/-- A list is gone through to its end if and only if each of its items has a result. -/
theorem mapM_eq_some_iff {f : α → Option β} {items : List α} {results : List β} :
    items.mapM f = some results ↔ List.Forall₂ (fun a b => f a = some b) items results := by
  induction items generalizing results with
  | nil =>
    rw [List.mapM_nil, List.forall₂_nil_left_iff]
    exact Option.some_inj.trans eq_comm
  | cons first rest ih =>
    rw [List.mapM_cons, List.forall₂_cons_left_iff]
    simp only [Option.bind_eq_bind, Option.bind_eq_some_iff, ih]
    constructor
    · rintro ⟨b, hb, bs, hbs, h⟩
      cases h
      exact ⟨b, bs, hb, hbs, rfl⟩
    · rintro ⟨b, bs, hb, hbs, rfl⟩
      exact ⟨b, hb, bs, hbs, rfl⟩

/-- A list that is gone through to its end has as many results as items. -/
theorem length_of_mapM_eq_some {f : α → Option β} {items : List α} {results : List β}
    (h : items.mapM f = some results) : results.length = items.length :=
  (mapM_eq_some_iff.1 h).length_eq.symm

end TraceGraph
