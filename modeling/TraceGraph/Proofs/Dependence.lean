import TraceGraph.Proofs.Acceptance
import TraceGraph.Proofs.Visits

/-!
# What a part of a program depends on

The pass carries two things from one statement to the next: the types of the variables declared so far,
and the names that the whole program assigns.  A part of the program looks at little of that.  It looks
up the types of the variables that it reads (`readNames`) and of the variables that its branches need of
their own (`locals`), and of the latter it asks whether they are assigned anywhere.  `Emits.congr` says
that nothing else counts: with other types and other assigned names that agree there, the part emits the
same.

* `isPrefix_of_append`: the code of the first statements of a program is the beginning of its code, since
  fewer names are assigned in the first statements alone.
* `statements_swap`: two neighbours can change places if neither declares what the other declares or
  reads, since then each finds the types that it looks up where it did before.
-/

namespace TraceGraph

namespace Trace

/-- The variables that a statement reads, those inside it apart. -/
def readsOf (settings : Settings) : Place × Node → List String
  | (_, .assign _ init) => reads settings init
  | (_, .evidence _ name) | (_, .query name) => [name]
  | (_, .choice test _ _ _ _ _) => reads settings test
  | _ => []

/-- The variables that a body reads, at every depth. -/
def readNames (settings : Settings) (body : List Node) : List String :=
  (occurrences .top body).flatMap (readsOf settings)

/-- The names that a body takes: those that it assigns, and the variables that its branches need of their
own. -/
def takenNames (body : List Node) : List String := assignedNames body ++ locals body

/-- Neither statement takes a name that the other takes or reads. -/
structure Independent (settings : Settings) (s t : Node) : Prop where
  taken : ∀ x ∈ takenNames [s], x ∉ takenNames [t]
  left : ∀ x ∈ takenNames [t], x ∉ readNames settings [s]
  right : ∀ x ∈ takenNames [s], x ∉ readNames settings [t]

theorem readNames_cons (settings : Settings) (node : Node) (rest : List Node) :
    readNames settings (node :: rest) = readNames settings [node] ++ readNames settings rest := by
  rw [readNames, occurrences_cons, List.flatMap_append]
  rfl

theorem readNames_choice (settings : Settings) (test merge : String)
    (thenBody elseBody rest : List Node) (thenValue elseValue : Node) :
    readNames settings (.choice (.var test) merge thenBody thenValue elseBody elseValue :: rest) =
      readNames settings thenBody ++ (reads settings thenValue ++ (readNames settings elseBody ++
        (reads settings elseValue ++ test :: readNames settings rest))) := by
  have hdepth := flatMap_occurrences (f := readsOf settings) (fun node => by cases node <;> rfl) .inner
  have htest : readsOf settings
      (.within .top, .choice (.var test) merge thenBody thenValue elseBody elseValue) = [test] := rfl
  simp only [readNames, occurrences_choice, List.flatMap_append, List.flatMap_cons, hdepth, htest]
  rfl

theorem mem_takenNames_of_mem_declarations {body : List Node} {x : String}
    (h : x ∈ declarations body) : x ∈ takenNames body :=
  List.mem_append.2 (mem_or_mem_of_mem_declarations h)

end Trace

theorem Node.body_append_iff {a b : List Node} : Body (a ++ b) ↔ Body a ∧ Body b := by
  rw [body_iff_forall, List.forall_mem_append, ← body_iff_forall, ← body_iff_forall]

namespace Compiler

open Trace

variable {c : Compiler} {assigned assigned' : List String}
  {types types' : List (String × VariableType)} {depth : Depth} {e : Emission}

/-! ### Agreement -/

theorem lookup_after_congr {x : String} (h : types'.lookup x = types.lookup x) :
    (e.after types').lookup x = (e.after types).lookup x := by
  rw [Emission.after, Emission.after, List.lookup_append, List.lookup_append, h]

/-- What is known of a name does not change where it is given no type. -/
theorem lookup_after_of_not_mem {x : String} (h : ∀ p ∈ e.types, p.1 ≠ x) :
    (e.after types).lookup x = types.lookup x := by
  have hnone : e.types.lookup x = none := by
    rw [List.lookup_eq_none_iff]
    exact fun p hp => bne_iff_ne.2 (h p hp).symm
  rw [Emission.after, List.lookup_append, hnone, Option.none_or]

/-- Two emissions that give types to different names can change places. -/
theorem lookup_after_comm {e' : Emission} (h : ∀ p ∈ e.types, ∀ q ∈ e'.types, p.1 ≠ q.1)
    (types : List (String × VariableType)) (x : String) :
    (e.after (e'.after types)).lookup x = (e'.after (e.after types)).lookup x := by
  by_cases hx : ∃ p ∈ e.types, p.1 = x
  · obtain ⟨p, hp, rfl⟩ := hx
    have hother : ∀ types : List (String × VariableType),
        (e'.after types).lookup p.1 = types.lookup p.1 :=
      fun _ => lookup_after_of_not_mem fun q hq => (h p hp q hq).symm
    rw [hother]
    exact lookup_after_congr (hother types)
  · have hsame : ∀ types : List (String × VariableType), (e.after types).lookup x = types.lookup x :=
      fun _ => lookup_after_of_not_mem fun p hp heq => hx ⟨p, hp, heq⟩
    rw [hsame]
    exact lookup_after_congr (hsame types).symm

/-- The same is known of these names. -/
def AgreeOn (names : List String) (types types' : List (String × VariableType)) : Prop :=
  ∀ x ∈ names, types'.lookup x = types.lookup x

namespace AgreeOn

variable {names : List String}

theorem append_iff {others : List String} :
    AgreeOn (names ++ others) types types' ↔ AgreeOn names types types' ∧ AgreeOn others types types' :=
  List.forall_mem_append

/-- What is added on both sides changes nothing. -/
theorem after (h : AgreeOn names types types') (e : Emission) :
    AgreeOn names (e.after types) (e.after types') :=
  fun x hx => lookup_after_congr (h x hx)

end AgreeOn

/-! ### The rules look only at what a part reads and needs -/

theorem Yields.congr {node : Node} (h : Yields c depth types node e)
    (hread : AgreeOn (readNames c.settings [node]) types types') : Yields c depth types' node e := by
  -- Only copies and evidence look at a type, each at the one of the variable that it reads.
  cases h with
  | call hkind hdescribe => exact .call hkind hdescribe
  | copy _ _ name source =>
    rw [← hread source (by simp [readNames, readsOf])]
    exact .copy _ _ _ _
  | literal htype htext => exact .literal htype htext
  | array helements htext => exact .array helements htext
  | @evidence _ kind name statement hstatement =>
    have hsame : Emission.observation c types kind name statement =
        Emission.observation c types' kind name statement := by
      rw [Emission.observation, Emission.observation, hread name (by simp [readNames, readsOf])]
    rw [hsame]
    exact .evidence hstatement
  | @evidenceCall _ name callee target kind statement hkind hstatement =>
    have htarget : target ∈ readNames c.settings [.assign name (.call callee [.var target])] := by
      simp [readNames, readsOf, reads, hkind, variableNames]
    have hsame : Emission.observation c types kind target statement =
        Emission.observation c types' kind target statement := by
      rw [Emission.observation, Emission.observation, hread target htarget]
    rw [hsame]
    exact .evidenceCall hkind hstatement
  | query => exact .query _ _

theorem Supplies.congr {merge text : String} {branch : Branch} {value : Node}
    {type : Option VariableType} (h : Supplies c assigned merge branch types value text type e)
    (hread : AgreeOn (reads c.settings value) types types')
    (hlocal : AgreeOn (local? (.last branch, .assign merge value)).toList types types')
    (hassigned : ∀ x ∈ (local? (.last branch, .assign merge value)).toList,
      x ∈ assigned' → x ∈ assigned) :
    Supplies c assigned' merge branch types' value text type e := by
  cases h with
  | var =>
    rw [← hread text (by simp)]
    exact .var text
  | literal htext => exact .literal htext
  | @call callee args _ hkind hnew hfree hdescribe =>
    have hmem : branch.variableName merge
        ∈ (local? (.last branch, .assign merge (.call callee args))).toList := by
      simp [local?, hkind]
    exact .call hkind ((hlocal _ hmem).trans hnew) (fun h => hfree (hassigned _ hmem h)) hdescribe

/-- **What a body emits depends only on the types of what it reads and needs**, and on which of the
variables that it needs are assigned: it may be fewer of them. -/
theorem Emits.congr {body : List Node} (h : Emits c assigned depth types body e) :
    ∀ {types' : List (String × VariableType)}, AgreeOn (readNames c.settings body) types types' →
      AgreeOn (locals body) types types' → (∀ x ∈ locals body, x ∈ assigned' → x ∈ assigned) →
      Emits c assigned' depth types' body e := by
  induction h with
  | nil => exact fun _ _ _ => .nil _ _
  | @step _ types node rest e _ hquery hnode _ ih =>
    intro types' hread hlocal hassigned
    rw [readNames_cons, AgreeOn.append_iff] at hread
    rw [locals_cons, locals_eq_nil_of_yields hnode, List.nil_append] at hlocal hassigned
    exact .step hquery (hnode.congr hread.1) (ih (hread.2.after e) (hlocal.after e) hassigned)
  | @choice _ types test merge thenBody elseBody rest thenValue elseValue consequent alternate
      thenType elseType e₁ e₂ e₃ e₄ _ _ hthenValue _ helseValue _ ihThen ihElse ihRest =>
    intro types' hread hlocal hassigned
    rw [readNames_choice, ← List.singleton_append] at hread
    rw [locals_choice] at hlocal hassigned
    simp only [AgreeOn.append_iff] at hread hlocal
    simp only [List.forall_mem_append] at hassigned
    obtain ⟨hreadThen, hreadThenValue, hreadElse, hreadElseValue, -, hreadRest⟩ := hread
    obtain ⟨hlocalThen, hlocalThenValue, hlocalElse, hlocalElseValue, hlocalRest⟩ := hlocal
    obtain ⟨hthen, hthenLast, helse, helseLast, hrest⟩ := hassigned
    exact .choice (ihThen hreadThen hlocalThen hthen)
      (hthenValue.congr (hreadThenValue.after _) (hlocalThenValue.after _) hthenLast)
      (ihElse (hreadElse.after _) (hlocalElse.after _) helse)
      (helseValue.congr (hreadElseValue.after _) (hlocalElseValue.after _) helseLast)
      (ihRest (hreadRest.after _) (hlocalRest.after _) hrest)

theorem mem_namesOfAll {body : List Node} {x : String} :
    x ∈ namesOfAll body ↔ ∃ node ∈ body, x ∈ namesOf node := by
  induction body with
  | nil => simp [namesOfAll]
  | cons node rest ih => simp [namesOfAll, ih]

/-- A body emits the same in a program that has only some of the statements. -/
theorem Emits.of_subset {body part whole : List Node} (hsubset : part ⊆ whole)
    (h : Emits c (namesOfAll whole) depth types body e) :
    Emits c (namesOfAll part) depth types body e := by
  refine h.congr (fun _ _ => rfl) (fun _ _ => rfl) fun x _ hx => ?_
  obtain ⟨node, hnode, hx⟩ := mem_namesOfAll.1 hx
  exact mem_namesOfAll.2 ⟨node, hsubset hnode, hx⟩

/-! ### Parts of a body -/

/-- A body in two parts emits what the first does, and then what the second does.  Only the last
statement can be a query. -/
theorem emits_append_iff {a b : List Node} :
    Emits c assigned depth types (a ++ b) e ↔
      (b ≠ [] → ∀ node ∈ a, queried? node = none) ∧
        ∃ e₁ e₂, Emits c assigned depth types a e₁ ∧
          Emits c assigned depth (e₁.after types) b e₂ ∧ e = e₁ ++ e₂ := by
  induction a generalizing types e with
  | nil =>
    constructor
    · intro h
      exact ⟨by simp, {}, e, .nil _ _, h, (Emission.empty_append e).symm⟩
    · rintro ⟨-, e₁, e₂, hnil, h, rfl⟩
      cases hnil
      rwa [Emission.empty_append]
  | cons node rest ih =>
    rw [List.cons_append, emits_cons_iff]
    constructor
    · rintro ⟨hquery, e₁, e₂, hnode, htail, rfl⟩
      obtain ⟨hrest, e₃, e₄, hthird, hfourth, rfl⟩ := ih.1 htail
      refine ⟨fun hb => List.forall_mem_cons.2 ⟨?_, hrest hb⟩, e₁ ++ e₃, e₄, ?_, ?_, ?_⟩
      · exact hquery.resolve_right (by simp [hb])
      · refine emits_cons_iff.2 ⟨hquery.imp_right fun h => ?_, e₁, e₃, hnode, hthird, rfl⟩
        exact (List.append_eq_nil_iff.1 h).1
      · rwa [Emission.after_append]
      · rw [Emission.append_assoc]
    · rintro ⟨hnone, e', e₂, hhead, hb, rfl⟩
      obtain ⟨hquery, e₁, e₃, hnode, hthird, rfl⟩ := emits_cons_iff.1 hhead
      rw [Emission.after_append] at hb
      refine ⟨?_, e₁, e₃ ++ e₂, hnode, ih.2 ⟨fun h => ?_, e₃, e₂, hthird, hb, rfl⟩, ?_⟩
      · by_cases hempty : b = []
        · exact hquery.imp_right fun h => by rw [h, hempty, List.append_nil]
        · exact .inl (List.forall_mem_cons.1 (hnone hempty)).1
      · exact (List.forall_mem_cons.1 (hnone h)).2
      · rw [Emission.append_assoc]

/-- **The code of the first statements of a program is the beginning of its code**: they are accepted if
the program is, whatever the primitives and the settings are. -/
theorem isPrefix_of_append {a b : List Node} {output : List Java.Statement} (hbody : Node.Body (a ++ b))
    (h : (c.statements (a ++ b)).result = .ok output) :
    ∃ first, (c.statements a).result = .ok first ∧ first <+: output := by
  obtain ⟨e, he, rfl⟩ := (result_statements_eq_ok_iff hbody).1 h
  obtain ⟨-, e₁, e₂, hfirst, -, rfl⟩ := emits_append_iff.1 he
  obtain ⟨ha, -⟩ := Node.body_append_iff.1 hbody
  have halone : Emits c (namesOfAll a) .top [] a e₁ := hfirst.of_subset (List.subset_append_left a b)
  exact ⟨e₁.output, (result_statements_eq_ok_iff ha).2 ⟨e₁, halone, rfl⟩, List.prefix_append _ _⟩

theorem isPrefix_of_append_sample :
    ∃ output first,
      ((Session.builtin {}).compiler.statements (Node.sample.take 3 ++ Node.sample.drop 3)).result
        = .ok output ∧
      ((Session.builtin {}).compiler.statements (Node.sample.take 3)).result = .ok first ∧
      first <+: output := by
  obtain ⟨output, h, -⟩ := Factor.exists_eq_ok_of_toOption_map
    (show ((Session.builtin {}).compiler.statements
      (Node.sample.take 3 ++ Node.sample.drop 3)).result.toOption.map List.length = some 20 by
        decide +kernel)
  obtain ⟨first, hfirst, hprefix⟩ :=
    isPrefix_of_append (a := Node.sample.take 3) (b := Node.sample.drop 3) Node.body_sample h
  exact ⟨output, first, h, hfirst, hprefix⟩

/-! ### Neighbours that change places -/

/-- The pass goes through the parts of a program one after the other, and emits these statements while it
is in each of them. -/
inductive EmitsParts (c : Compiler) :
    Scope → List (List Node) → List (List Java.Statement) → Scope → Prop
  | nil (s : Scope) : EmitsParts c s [] [] s
  | cons {r s t : Scope} {part : List Node} {output : List Java.Statement} {parts : List (List Node)}
      {outputs : List (List Java.Statement)} (hpart : Runs (c.visitBody part) r () s)
      (houtput : s.output = r.output ++ output) (hrest : EmitsParts c s parts outputs t) :
      EmitsParts c r (part :: parts) (output :: outputs) t

theorem EmitsParts.of_emits {r t : Scope} {part : List Node} {parts : List (List Node)}
    {outputs : List (List Java.Statement)} (hbody : Node.Body part)
    (hpart : Emits c r.assigned .top r.types part e)
    (hrest : EmitsParts c (r.extend e) parts outputs t) :
    EmitsParts c r (part :: parts) (e.output :: outputs) t :=
  .cons ((runs_visitBody_iff hbody).2 ⟨e, hpart, rfl⟩) rfl hrest

/-- A statement emits the same before and after one that it does not depend on. -/
theorem emits_iff_of_not_mem {node : Node} {e' : Emission}
    (h : ∀ p ∈ e'.types, p.1 ∉ takenNames [node] ∧ p.1 ∉ readNames c.settings [node]) :
    Emits c assigned depth (e'.after types) [node] e ↔ Emits c assigned depth types [node] e := by
  have hread : ∀ x ∈ readNames c.settings [node], (e'.after types).lookup x = types.lookup x :=
    fun x hx => lookup_after_of_not_mem fun p hp heq => (h p hp).2 (heq ▸ hx)
  have hlocal : ∀ x ∈ locals [node], (e'.after types).lookup x = types.lookup x :=
    fun x hx => lookup_after_of_not_mem fun p hp heq =>
      (h p hp).1 (List.mem_append_right _ (heq ▸ hx))
  constructor
  · intro hemits
    exact hemits.congr (fun x hx => (hread x hx).symm) (fun x hx => (hlocal x hx).symm) fun _ _ => id
  · intro hemits
    exact hemits.congr hread hlocal fun _ _ => id

/-- A program with two neighbours in it that are no queries emits what comes before them does, then what
each of them does, and then the rest. -/
theorem emits_neighbours_iff {before after : List Node} {s t : Node} (hs : queried? s = none)
    (ht : queried? t = none) :
    Emits c assigned depth types (before ++ [s, t] ++ after) e ↔
      (∀ node ∈ before, queried? node = none) ∧ ∃ e₁ eS eT e₂,
        Emits c assigned depth types before e₁ ∧ Emits c assigned depth (e₁.after types) [s] eS ∧
        Emits c assigned depth (eS.after (e₁.after types)) [t] eT ∧
        Emits c assigned depth (eT.after (eS.after (e₁.after types))) after e₂ ∧
        e = e₁ ++ (eS ++ (eT ++ e₂)) := by
  rw [List.append_assoc, emits_append_iff]
  constructor
  · rintro ⟨hbefore, e₁, e', h₁, htail, rfl⟩
    obtain ⟨-, eS, e'', hS, hrest, rfl⟩ := emits_cons_iff.1 htail
    obtain ⟨-, eT, e₂, hT, h₂, rfl⟩ := emits_cons_iff.1 hrest
    exact ⟨hbefore (by simp), e₁, eS, eT, e₂, h₁, hS, hT, h₂, rfl⟩
  · rintro ⟨hbefore, e₁, eS, eT, e₂, h₁, hS, hT, h₂, rfl⟩
    have hrest := emits_cons_iff.2 ⟨.inl ht, eT, e₂, hT, h₂, rfl⟩
    exact ⟨fun _ => hbefore, e₁, _, h₁, emits_cons_iff.2 ⟨.inl hs, eS, _, hS, hrest, rfl⟩, rfl⟩

/-- The program is accepted if its parts emit something, one after the other. -/
theorem exists_emitsParts {before after : List Node} {s t : Node} {e₁ eS eT e₂ : Emission}
    (hbody : Node.Body (before ++ [s, t] ++ after)) (hs : queried? s = none) (ht : queried? t = none)
    (hbefore : ∀ node ∈ before, queried? node = none)
    (h₁ : Emits c (namesOfAll (before ++ [s, t] ++ after)) .top [] before e₁)
    (hS : Emits c (namesOfAll (before ++ [s, t] ++ after)) .top (e₁.after []) [s] eS)
    (hT : Emits c (namesOfAll (before ++ [s, t] ++ after)) .top (eS.after (e₁.after [])) [t] eT)
    (h₂ : Emits c (namesOfAll (before ++ [s, t] ++ after)) .top (eT.after (eS.after (e₁.after [])))
      after e₂) :
    (c.statements (before ++ [s, t] ++ after)).result
        = .ok (e₁.output ++ eS.output ++ eT.output ++ e₂.output) ∧
      ∃ final, EmitsParts c (.start (before ++ [s, t] ++ after)) [before, [s], [t], after]
          [e₁.output, eS.output, eT.output, e₂.output] final ∧
        final.types = e₂.after (eT.after (eS.after (e₁.after []))) := by
  constructor
  · refine (result_statements_eq_ok_iff hbody).2
      ⟨_, (emits_neighbours_iff hs ht).2 ⟨hbefore, e₁, eS, eT, e₂, h₁, hS, hT, h₂, rfl⟩, ?_⟩
    simp [List.append_assoc]
  · obtain ⟨hpair, hafter⟩ := Node.body_append_iff.1 hbody
    obtain ⟨hfirst, hpair⟩ := Node.body_append_iff.1 hpair
    exact ⟨_, .of_emits hfirst h₁ (.of_emits hpair.head hS (.of_emits hpair.tail hT
      (.of_emits hafter h₂ (.nil _)))), rfl⟩

/-- Two neighbours that do not depend on each other emit the same in the other order, and what follows
finds the same types. -/
theorem emits_swap (hfind : c.find = Factor.Registry.builtin.find?) {s t : Node} {eS eT : Emission}
    (hindependent : Independent c.settings s t) (hs : Emits c assigned depth types [s] eS)
    (ht : Emits c assigned depth (eS.after types) [t] eT) :
    Emits c assigned depth types [t] eT ∧ Emits c assigned depth (eT.after types) [s] eS ∧
      ∀ x, (eS.after (eT.after types)).lookup x = (eT.after (eS.after types)).lookup x := by
  have htypesS : ∀ p ∈ eS.types, p.1 ∈ takenNames [s] := fun p hp =>
    mem_takenNames_of_mem_declarations (mem_declarations_of_emits hfind hs p hp)
  have htypesT : ∀ p ∈ eT.types, p.1 ∈ takenNames [t] := fun p hp =>
    mem_takenNames_of_mem_declarations (mem_declarations_of_emits hfind ht p hp)
  refine ⟨?_, ?_, lookup_after_comm (fun p hp q hq heq => ?_) types⟩
  · refine (emits_iff_of_not_mem fun p hp => ⟨?_, ?_⟩).1 ht
    · exact hindependent.taken _ (htypesS p hp)
    · exact hindependent.right _ (htypesS p hp)
  · refine (emits_iff_of_not_mem fun p hp => ⟨fun hx => ?_, ?_⟩).2 hs
    · exact hindependent.taken _ hx (htypesT p hp)
    · exact hindependent.left _ (htypesT p hp)
  · exact hindependent.taken _ (htypesS p hp) (heq ▸ htypesT q hq)

/-- **Independent neighbours can change places.**  If neither of two neighbours in an accepted program is a
query or takes a name that the other takes or reads, then the program with the two the other way round
is accepted as well.  Each part of it emits the same as before, and all variables have the same types
in the end. -/
theorem statements_swap {settings : Settings} {before after : List Node} {s t : Node}
    {output : List Java.Statement} (hbody : Node.Body (before ++ [s, t] ++ after))
    (hs : queried? s = none) (ht : queried? t = none) (hindependent : Independent settings s t)
    (h : ((Session.builtin settings).compiler.statements (before ++ [s, t] ++ after)).result
      = .ok output) :
    ∃ outBefore outS outT outAfter final final',
      EmitsParts (Session.builtin settings).compiler (.start (before ++ [s, t] ++ after))
        [before, [s], [t], after] [outBefore, outS, outT, outAfter] final ∧
      output = outBefore ++ outS ++ outT ++ outAfter ∧
      EmitsParts (Session.builtin settings).compiler (.start (before ++ [t, s] ++ after))
        [before, [t], [s], after] [outBefore, outT, outS, outAfter] final' ∧
      ((Session.builtin settings).compiler.statements (before ++ [t, s] ++ after)).result
        = .ok (outBefore ++ outT ++ outS ++ outAfter) ∧
      ∀ x, final'.types.lookup x = final.types.lookup x := by
  obtain ⟨e, he, -⟩ := (result_statements_eq_ok_iff hbody).1 h
  obtain ⟨hquery, e₁, eS, eT, e₂, h₁, hS, hT, h₂, -⟩ := (emits_neighbours_iff hs ht).1 he
  obtain ⟨haccepted, final, hparts, hfinal⟩ := exists_emitsParts hbody hs ht hquery h₁ hS hT h₂
  rw [h] at haccepted
  obtain ⟨hfirst, hsecond, hlookup⟩ := emits_swap rfl hindependent hS hT
  have hrest := h₂.congr (fun x _ => hlookup x) (fun x _ => hlookup x) fun _ _ => id
  -- The other program has the same statements, so it assigns the same names.
  have hperm : (before ++ [t, s] ++ after).Perm (before ++ [s, t] ++ after) :=
    ((List.Perm.swap s t []).append_left before).append_right after
  have hbody' : Node.Body (before ++ [t, s] ++ after) :=
    Node.body_iff_forall.2 fun node hnode => Node.body_iff_forall.1 hbody node (hperm.subset hnode)
  obtain ⟨haccepted', final', hparts', hfinal'⟩ := exists_emitsParts hbody' ht hs hquery
    (h₁.of_subset hperm.subset) (hfirst.of_subset hperm.subset) (hsecond.of_subset hperm.subset)
    (hrest.of_subset hperm.subset)
  refine ⟨_, _, _, _, final, final', hparts, Except.ok.inj haccepted, hparts', haccepted', fun x => ?_⟩
  rw [hfinal, hfinal']
  exact lookup_after_congr (hlookup x)

/-- Two conditionals on the same test that do not depend on each other.  Both have a branch that needs a
variable of its own. -/
def neighbours : Node × Node :=
  (.choice (.var "coin") "left" [.assign "copy" (.var "coin")] (.call "not" [.var "copy"]) []
      (.const (.bool false)),
   .choice (.var "coin") "right" [] (.var "coin") [] (.call "or" []))

theorem statements_swap_neighbours :
    let before : List Node := [.assign "coin" (.call "or" [])]
    let after : List Node := [.assign "both" (.call "and" [.var "left", .var "right"]), .query "both"]
    let body := before ++ [neighbours.1, neighbours.2] ++ after
    let body' := before ++ [neighbours.2, neighbours.1] ++ after
    ∃ output outBefore outS outT outAfter final final',
      ((Session.builtin {}).compiler.statements body).result = .ok output ∧
      Independent {} neighbours.1 neighbours.2 ∧
      EmitsParts (Session.builtin {}).compiler (.start body)
        [before, [neighbours.1], [neighbours.2], after] [outBefore, outS, outT, outAfter] final ∧
      output = outBefore ++ outS ++ outT ++ outAfter ∧
      EmitsParts (Session.builtin {}).compiler (.start body')
        [before, [neighbours.2], [neighbours.1], after] [outBefore, outT, outS, outAfter] final' ∧
      ((Session.builtin {}).compiler.statements body').result
        = .ok (outBefore ++ outT ++ outS ++ outAfter) ∧
      ∀ x, final'.types.lookup x = final.types.lookup x := by
  intro before after body body'
  have hcoin : Node.Initializer (.var "coin") := .var (by decide)
  have hbody : Node.Body body := by
    refine .assign (by decide) (.call (by decide) .nil) (.choice (by decide) (by decide)
      (.assign (by decide) hcoin .nil) (.call (by decide) (.var (by decide) .nil)) .nil (.const _) ?_)
    refine .choice (by decide) (by decide) .nil hcoin .nil (.call (by decide) .nil) ?_
    exact .assign (by decide) (.call (by decide) (.var (by decide) (.var (by decide) .nil)))
      (.query (by decide) .nil)
  have hindependent : Independent {} neighbours.1 neighbours.2 :=
    ⟨by decide +kernel, by decide +kernel, by decide +kernel⟩
  obtain ⟨output, h, -⟩ := Factor.exists_eq_ok_of_toOption_map
    (show ((Session.builtin {}).compiler.statements body).result.toOption.map List.length = some 18 by
      decide +kernel)
  obtain ⟨outBefore, outS, outT, outAfter, final, final', hswap⟩ :=
    statements_swap hbody rfl rfl hindependent h
  exact ⟨output, outBefore, outS, outT, outAfter, final, final', h, hindependent, hswap⟩

end Compiler

end TraceGraph
