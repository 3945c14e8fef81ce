import TraceGraph.Proofs.Meaning

/-!
# If-conversion keeps the meaning

Generated code runs both branches of each conditional and lets a multiplexer pick, where the program
runs one branch.  Both come to the same: if the program assigns each name once, reads only what is in
scope, and has no constant whose text is the name of a variable, then each value that a variable has
after a run of the program is the value it has after a run of the code, and the evidence and the answer
are the same.

The proof goes through a body with the two runs side by side (`Matches`).  The branch that is not
taken makes no difference, since its code only gives values to names of its own (`frame_of_emits`),
none of which the program has used.
-/

namespace TraceGraph

universe u

namespace Compiler

open Java (declaredNames expressionValue)
open Trace

variable {V : Type u} {M : Meaning V} {c : Compiler} {assigned : List String}
  {types : List (String × VariableType)} {depth : Depth} {e : Emission} {s t t' t'' : Run V}

/-! ### Running what is emitted -/

section

variable (hfactors : c.settings.DistinctFactors)

include hfactors

theorem run_described {name callee : String} {args : List Node} {d : Factor.Descriptor}
    {notices : List Notice} (hd : d.Describes c.settings name callee args) :
    Java.run M c.settings t (Emission.described name d notices).output =
      t.assign name (M.interpret name d.factor d.factorArgs (d.inputs.map (expressionValue M t))) := by
  have hbuiltin := hfactors.2 d.factor hd.factor
  simp only [List.mem_cons, List.not_mem_nil, or_false, not_or] at hbuiltin
  obtain ⟨hevidence, hmultiplexer, halias⟩ := hbuiltin
  simp [Java.run, Java.step, Emission.described, Factor.Descriptor.statements,
    Factor.Descriptor.declaration, Factor.Descriptor.attachment, hd.output, hevidence, hmultiplexer,
    halias]

theorem run_copy {type : Option VariableType} {name source : String} {notice : Notice} :
    Java.run M c.settings t
        (Emission.ofOptionalType type name c.settings.aliasFactor [source] notice).output =
      t.assign name (expressionValue M t source) := by
  have halias : c.settings.aliasFactor ≠ c.settings.multiplexerFactor := by
    have hnodup := hfactors.1
    simp only [List.nodup_cons, List.mem_cons, List.not_mem_nil, or_false] at hnodup
    exact fun h => hnodup.2.1 h.symm
  simp [Java.run, Java.step, Emission.ofOptionalType, Emission.ofVariable, halias]

theorem run_observation {name : String} {kind : EvidenceKind} {statement : Java.Statement}
    (h : Evidence.statement c.settings name kind = .ok statement) :
    Java.run M c.settings t (Emission.observation c types kind name statement).output =
      t.observe ⟨name, expressionValue M t name, Evidence.fixedTo c.settings kind⟩ := by
  have hnodup := hfactors.1
  simp only [List.nodup_cons, List.mem_cons, List.not_mem_nil, or_false, not_or] at hnodup
  obtain ⟨⟨hmultiplexer, halias⟩, -⟩ := hnodup
  cases kind with
  | condition =>
    obtain ⟨text, htext, hstatement⟩ := bind_eq_ok_iff.1 h
    cases hstatement
    have heq : text = c.settings.conditionValue.text := by
      unfold Evidence.fixedText at htext
      split at htext
      · exact (Except.ok.inj htext).symm
      · cases htext
    simp [Java.run, Java.step, Emission.observation, Evidence.fixedTo, heq]
  | factor =>
    cases h
    simp [Java.run, Java.step, Emission.observation, Evidence.fixedTo, hmultiplexer, halias]

end

theorem run_merge {merge test alternate consequent : String} {type : Option VariableType} :
    Java.run M c.settings t (Emission.merge c merge type test alternate consequent).output =
      t.assign merge (if M.truth (expressionValue M t test) then expressionValue M t consequent
        else expressionValue M t alternate) := by
  simp [Java.run, Java.step, Emission.merge, Emission.ofOptionalType, Emission.ofVariable]

/-! ### What code leaves alone -/

/-- A run that gives values to some names.  Inside a branch it does nothing else. -/
structure Frame (depth : Depth) (names : List String) (t t' : Run V) : Prop where
  value? : ∀ x, x ∉ names → t'.value? x = t.value? x
  silent : depth = .inner → t'.observations = t.observations ∧ t'.answer = t.answer

namespace Frame

theorem refl : Frame depth [] t t := ⟨fun _ _ => rfl, fun _ => ⟨rfl, rfl⟩⟩

theorem assign {name : String} {v : V} : Frame depth [name] t (t.assign name v) :=
  ⟨fun x hx => t.value?_assign_of_ne name x v (by simpa using hx), fun _ => ⟨rfl, rfl⟩⟩

theorem trans {names names' : List String} (h : Frame depth names t t')
    (h' : Frame depth names' t' t'') : Frame depth (names ++ names') t t'' := by
  constructor
  · intro x hx
    rw [List.mem_append, not_or] at hx
    rw [h'.value? x hx.2, h.value? x hx.1]
  · intro hinner
    obtain ⟨hobservations, hanswer⟩ := h.silent hinner
    obtain ⟨hobservations', hanswer'⟩ := h'.silent hinner
    exact ⟨hobservations'.trans hobservations, hanswer'.trans hanswer⟩

/-- At the top a statement may also state evidence or ask. -/
theorem of_top (h : t'.value? = t.value?) : Frame .top [] t t' :=
  ⟨fun x _ => congrFun h x, fun hinner => by cases hinner⟩

theorem of_inner {names : List String} (h : Frame .inner names t t') : Frame depth names t t' :=
  ⟨h.value?, fun _ => h.silent rfl⟩

end Frame

section

variable (M) (hfind : c.find = Factor.Registry.builtin.find?)
  (hfactors : c.settings.DistinctFactors)

include hfind hfactors

theorem frame_of_yields {node : Node} (h : Yields c depth types node e) :
    Frame depth (declarations [node]) t (Java.run M c.settings t e.output) := by
  cases h with
  | call hkind hdescribe =>
    rw [hfind] at hdescribe
    rw [run_described hfactors (Factor.describes_of_describe hdescribe),
      declarations_assign _ _ _ (by simp [isEvidence, hkind])]
    exact .assign
  | copy =>
    rw [run_copy hfactors]
    exact .assign
  | literal => exact .assign
  | array => exact .assign
  | evidence hstatement =>
    rw [run_observation hfactors hstatement]
    exact .of_top rfl
  | evidenceCall hkind hstatement =>
    rw [run_observation hfactors hstatement,
      declarations_assign_of_isEvidence _ _ _ (by simp [isEvidence, hkind])]
    exact .of_top rfl
  | query => exact .of_top rfl

theorem frame_of_supplies {merge text : String} {branch : Branch} {value : Node}
    {type : Option VariableType} (h : Supplies c assigned merge branch types value text type e) :
    Frame .inner (local? (.last branch, .assign merge value)).toList t
      (Java.run M c.settings t e.output) := by
  rw [← declaredNames_of_supplies hfind h]
  cases h with
  | var => exact .refl
  | literal => exact .refl
  | call _ _ _ hdescribe =>
    rw [declaredNames_described hfind hdescribe]
    rw [hfind] at hdescribe
    rw [run_described hfactors (Factor.describes_of_describe hdescribe)]
    exact .assign

/-- **The code of a body gives values to the names that it declares**, and inside a branch it does
nothing else. -/
theorem frame_of_emits {body : List Node} (h : Emits c assigned depth types body e) :
    Frame depth (declarations body) t (Java.run M c.settings t e.output) := by
  induction h generalizing t with
  | nil => exact .refl
  | step _ hnode _ ih =>
    rw [declarations_cons, Emission.output_append, Java.run_append]
    exact (frame_of_yields M hfind hfactors hnode).trans ih
  | choice _ hthenValue _ helseValue _ ihThen ihElse ihRest =>
    simp only [Emission.output_append, Java.run_append, run_merge, declarations_choice]
    have hthen := (ihThen (t := t)).trans (frame_of_supplies M hfind hfactors hthenValue)
    have hbranches := (hthen.trans ihElse).trans (frame_of_supplies M hfind hfactors helseValue)
    simpa only [List.append_assoc, List.singleton_append]
      using hbranches.of_inner.trans (Frame.assign.trans ihRest)

end

/-! ### Two runs side by side -/

/-- A run of a program and a run of its code so far: the names have values, all values agree, and so do
the evidence and the answer. -/
structure Matches (names : List String) (s t : Run V) : Prop where
  bound : ∀ x ∈ names, ∃ v, s.value? x = some v
  agrees : ∀ x v, s.value? x = some v → t.value? x = some v
  observations : t.observations = s.observations
  answer : t.answer = s.answer

namespace Matches

variable {names : List String}

theorem value?_eq (h : Matches names s t) {x : String} (hx : x ∈ names) :
    s.value? x = some (expressionValue M t x) := by
  obtain ⟨v, hv⟩ := h.bound x hx
  rw [expressionValue, h.agrees x v hv, hv]
  rfl

theorem assign (h : Matches names s t) (name : String) (v : V) :
    Matches (name :: names) (s.assign name v) (t.assign name v) where
  bound x hx := by
    by_cases hname : x = name
    · exact ⟨v, by rw [hname, Run.value?_assign_self]⟩
    · rw [Run.value?_assign_of_ne _ _ _ _ hname]
      exact h.bound x ((List.mem_cons.1 hx).resolve_left hname)
  agrees x w hx := by
    by_cases hname : x = name
    · rw [hname, Run.value?_assign_self] at hx ⊢
      exact hx
    · rw [Run.value?_assign_of_ne _ _ _ _ hname] at hx ⊢
      exact h.agrees x w hx
  observations := h.observations
  answer := h.answer

theorem observe (h : Matches names s t) (observation : Observation V) :
    Matches names (s.observe observation) (t.observe observation) where
  bound := h.bound
  agrees := h.agrees
  observations := by rw [Run.observations_observe, Run.observations_observe, h.observations]
  answer := h.answer

theorem reply (h : Matches names s t) (name : String) (v : V) :
    Matches names (s.reply name v) (t.reply name v) where
  bound := h.bound
  agrees := h.agrees
  observations := h.observations
  answer := rfl

/-- Code of a branch that is not taken may run on its own, if it gives values only to names that the
program has not used. -/
theorem skip {others : List String} (h : Matches names s t) (hframe : Frame .inner others t t')
    (hnew : ∀ x ∈ others, s.value? x = none) : Matches names s t' where
  bound := h.bound
  agrees x v hx := by
    rw [hframe.value? x fun hmem => by simp [hnew x hmem] at hx]
    exact h.agrees x v hx
  observations := (hframe.silent rfl).1.trans h.observations
  answer := (hframe.silent rfl).2.trans h.answer

end Matches

/-- Two runs that match, before code that declares some more names: the names are new to the program,
and no constant has the name of a variable. -/
structure Ready (constants names declared : List String) (s t : Run V) : Prop
    extends Matches names s t where
  nodup : declared.Nodup
  new : ∀ x ∈ declared, s.value? x = none
  constant : ∀ x ∈ constants, t.value? x = none ∧ x ∉ declared

namespace Ready

variable {constants names declared rest out : List String}

theorem left (h : Ready constants names (declared ++ rest) s t) :
    Ready constants names declared s t where
  toMatches := h.toMatches
  nodup := (List.nodup_append.1 h.nodup).1
  new x hx := h.new x (List.mem_append_left _ hx)
  constant x hx := ⟨(h.constant x hx).1, fun hmem => (h.constant x hx).2 (List.mem_append_left _ hmem)⟩

/-- Both runs go on. -/
theorem step {s' : Run V} (h : Ready constants names (declared ++ rest) s t)
    (hsource : ∀ x, x ∉ declared → s'.value? x = s.value? x) (hframe : Frame depth declared t t')
    (hmatches : Matches out s' t') : Ready constants out rest s' t' := by
  obtain ⟨-, hrest, hdisjoint⟩ := List.nodup_append.1 h.nodup
  refine { toMatches := hmatches, nodup := hrest, new := fun x hx => ?_, constant := fun x hx => ?_ }
  · rw [hsource x fun hmem => hdisjoint x hmem x hx rfl]
    exact h.new x (List.mem_append_right _ hx)
  · obtain ⟨hnone, hnot⟩ := h.constant x hx
    rw [List.mem_append, not_or] at hnot
    exact ⟨(hframe.value? x hnot.1).trans hnone, hnot.2⟩

/-- The code goes on alone. -/
theorem skip (h : Ready constants names (declared ++ rest) s t) (hframe : Frame .inner declared t t') :
    Ready constants names rest s t' :=
  h.step (fun _ _ => rfl) hframe (h.toMatches.skip hframe h.left.new)

/-- Both runs give a variable the same value. -/
theorem assign {name : String} (h : Ready constants names (name :: rest) s t) (v : V) :
    Ready constants (name :: names) rest (s.assign name v) (t.assign name v) := by
  have hsplit : Ready constants names ([name] ++ rest) s t := h
  have hframe : Frame .inner [name] t (t.assign name v) := .assign
  refine hsplit.step (fun x hx => ?_) hframe (h.toMatches.assign name v)
  exact s.value?_assign_of_ne name x v (by simpa using hx)

theorem of_bound (h : Ready constants out declared s t)
    (hbound : ∀ x ∈ names, ∃ v, s.value? x = some v) : Ready constants names declared s t :=
  { h with bound := hbound }

/-- Names that have values keep them when the program goes on. -/
theorem value?_eq_of_mem {s' : Run V} (h : Ready constants names (declared ++ rest) s t)
    (hsource : ∀ x, x ∉ declared → s'.value? x = s.value? x) {x : String} (hx : x ∈ names) :
    s'.value? x = s.value? x := by
  obtain ⟨v, hv⟩ := h.bound x hx
  exact hsource x fun hmem => by simp [h.left.new x hmem] at hv

end Ready

/-! ### Values of arguments, calls and branches -/

section

variable {names : List String}

/-- Arguments have the values of their texts. -/
theorem mapM_argumentValue_eq {args : List Node} {texts : List String}
    (h : Node.javaAll args = .ok texts) (hmatches : Matches names s t)
    (hvariables : ∀ x ∈ variableNames args, x ∈ names)
    (hconst : ∀ arg ∈ args, (∀ name, arg ≠ .var name) → ∀ text, arg.java = .ok text →
      t.value? text = none) :
    args.mapM (argumentValue M s) = some (texts.map (expressionValue M t)) := by
  induction args generalizing texts with
  | nil =>
    cases h
    rfl
  | cons arg rest ih =>
    obtain ⟨first, hfirst, h⟩ := bind_eq_ok_iff.1 h
    obtain ⟨others, hothers, h⟩ := bind_eq_ok_iff.1 h
    cases h
    have hrest : rest.mapM (argumentValue M s) = some (others.map (expressionValue M t)) := by
      exact ih hothers (fun x hx => hvariables x (mem_variableNames_cons hx))
        fun a ha => hconst a (List.mem_cons_of_mem _ ha)
    have harg : argumentValue M s arg = some (expressionValue M t first) := by
      cases arg with
      | var name =>
        cases hfirst
        exact hmatches.value?_eq (hvariables first (by simp [variableNames]))
      | _ =>
        have hnone := hconst _ List.mem_cons_self (by simp) first hfirst
        simp [argumentValue, hfirst, Except.toOption, expressionValue, hnone]
    simp [List.mapM_cons, harg, hrest]

/-- A call has the value that its factor gives. -/
theorem callValue_eq {place : Place} {settings : Settings} {name output callee : String}
    {args : List Node} {d : Factor.Descriptor} (hkind : EvidenceKind.ofName? callee = none)
    (h : (Factor.describe settings Factor.Registry.builtin.find? output callee args).result = .ok d)
    (hmatches : Matches names s t)
    (hreads : ∀ x ∈ reads settings (.call callee args), x ∈ names)
    (hconst : ∀ x ∈ constantTextsOf settings (place, .assign name (.call callee args)),
      t.value? x = none) :
    callValue M settings s output callee args =
      some (M.interpret output d.factor d.factorArgs (d.inputs.map (expressionValue M t))) := by
  have hd := Factor.describes_of_describe h
  have hvalues : d.args.mapM (argumentValue M s) = some (d.rendered.map (expressionValue M t)) := by
    rw [reads_call hkind, hd.handedOn_eq] at hreads
    refine mapM_argumentValue_eq hd.rendered hmatches hreads ?_
    intro arg harg hconstant text htext
    exact hconst text (mem_constantTextsOf_call (hd.handedOn_eq ▸ harg) hconstant htext)
  simp only [callValue, h]
  rcases hd.inputs with hinputs | hinputs
  · simp [hinputs]
  · rw [hinputs]
    cases hrendered : d.rendered with
    | nil => simp
    | cons first others => simp [hvalues, hrendered]

end

section

variable {names out : List String}

/-- An assignment runs like its code, if both give the variable the same value. -/
theorem exists_runNode_of_assign {settings : Settings} {visibility : Visibility} {name : String}
    {init : Node} {output : List Java.Statement} {v : V}
    (hrun : runNode M settings (.assign name init) s = some (s.assign name v))
    (hcode : Java.run M settings t output = t.assign name v)
    (hevidence : isEvidence (.assign name init) = false)
    (hscope : scopeAfterNode settings visibility (.assign name init) names = some out)
    (hmatches : Matches names s t) :
    ∃ s', runNode M settings (.assign name init) s = some s' ∧
      Matches out s' (Java.run M settings t output) ∧
      ∀ x, x ∉ declarations [.assign name init] → s'.value? x = s.value? x := by
  obtain ⟨-, rfl⟩ := scopeAfterNode_assign_eq_some_iff.1 hscope
  refine ⟨s.assign name v, hrun, ?_, fun x hx => ?_⟩
  · rw [hcode, hevidence]
    exact hmatches.assign name v
  · rw [declarations_assign _ _ _ hevidence, declarations_nil, List.mem_singleton] at hx
    exact s.value?_assign_of_ne name x v hx

/-- Evidence is stated alike by both runs. -/
theorem exists_stateEvidence_of_mem {settings : Settings} {kind : EvidenceKind} {name : String}
    (hmatches : Matches names s t) (hname : name ∈ names) :
    ∃ s', stateEvidence settings s kind name = some s' ∧
      Matches names s' (t.observe ⟨name, expressionValue M t name, Evidence.fixedTo settings kind⟩) ∧
      s'.value? = s.value? := by
  have hvalue := hmatches.value?_eq (M := M) hname
  exact ⟨_, by rw [stateEvidence, hvalue, Option.map_some], hmatches.observe _, rfl⟩

variable (hfind : c.find = Factor.Registry.builtin.find?) (hfactors : c.settings.DistinctFactors)

include hfind hfactors

/-- **A statement runs like its code.** -/
theorem exists_runNode_of_yields {node : Node} {visibility : Visibility}
    (h : Yields c depth types node e)
    (hscope : scopeAfterNode c.settings visibility node names = some out)
    (hmatches : Matches names s t) (hconst : ∀ x ∈ constantTexts c.settings [node], t.value? x = none) :
    ∃ s', runNode M c.settings node s = some s' ∧
      Matches out s' (Java.run M c.settings t e.output) ∧
      ∀ x, x ∉ declarations [node] → s'.value? x = s.value? x := by
  cases h with
  | @call _ _ name callee args d hkind hdescribe =>
    rw [hfind] at hdescribe
    have htexts : ∀ x ∈ constantTextsOf c.settings (.within .top, .assign name (.call callee args)),
        t.value? x = none := by
      simpa [constantTexts] using hconst
    have hvalue := callValue_eq (M := M) hkind hdescribe hmatches
      (scopeAfterNode_assign_eq_some_iff.1 hscope).1 htexts
    refine exists_runNode_of_assign ?_
      (run_described hfactors (Factor.describes_of_describe hdescribe)) ?_ hscope hmatches
    · simp only [runNode, hkind, hvalue, Option.map_some]
    · simp [isEvidence, hkind]
  | copy _ _ name source =>
    have hvalue := hmatches.value?_eq (M := M)
      ((scopeAfterNode_assign_eq_some_iff.1 hscope).1 source List.mem_cons_self)
    refine exists_runNode_of_assign ?_ (run_copy hfactors) rfl hscope hmatches
    simp only [runNode, initialValue, hvalue, Option.map_some]
  | literal _ htext =>
    refine exists_runNode_of_assign ?_ rfl rfl hscope hmatches
    simp only [runNode, initialValue, htext, Except.toOption, Option.map_some]
  | array _ htext =>
    refine exists_runNode_of_assign ?_ rfl rfl hscope hmatches
    simp only [runNode, initialValue, htext, Except.toOption, Option.map_some]
  | evidence hstatement =>
    obtain ⟨hname, rfl⟩ := scopeAfterNode_evidence_eq_some_iff.1 hscope
    rw [run_observation hfactors hstatement]
    obtain ⟨s', hs', hmatches', hvalue⟩ := exists_stateEvidence_of_mem hmatches hname
    exact ⟨s', hs', hmatches', fun x _ => congrFun hvalue x⟩
  | @evidenceCall _ name callee target kind _ hkind hstatement =>
    obtain ⟨hreads, rfl⟩ := scopeAfterNode_assign_eq_some_iff.1 hscope
    have htarget : target ∈ names := hreads target (by simp [reads, hkind, variableNames])
    rw [run_observation hfactors hstatement]
    obtain ⟨s', hs', hmatches', hvalue⟩ := exists_stateEvidence_of_mem hmatches htarget
    refine ⟨s', by simpa only [runNode, hkind] using hs', ?_, fun x _ => congrFun hvalue x⟩
    simpa [isEvidence, hkind] using hmatches'
  | query _ name =>
    obtain ⟨hname, rfl⟩ := scopeAfterNode_query_eq_some_iff.1 hscope
    have hvalue := hmatches.value?_eq (M := M) hname
    refine ⟨s.reply name (expressionValue M t name), ?_, hmatches.reply name _, fun _ _ => rfl⟩
    rw [runNode, hvalue, Option.map_some]

/-- At the end of a branch both runs have the same value.  Its text is a variable that has a value, a
constant, or the variable of the branch. -/
theorem valueAtEnd_of_supplies {merge text : String} {branch : Branch} {value : Node}
    {type : Option VariableType} (h : Supplies c assigned merge branch types value text type e)
    (hreads : ∀ x ∈ reads c.settings value, x ∈ names) (hmatches : Matches names s t)
    (hconst : ∀ x ∈ constantTextsOf c.settings (.last branch, .assign merge value),
      t.value? x = none) :
    valueAtEnd M c.settings s merge branch value =
        some (expressionValue M (Java.run M c.settings t e.output) text) ∧
      (text ∈ names ∨ text ∈ constantTextsOf c.settings (.last branch, .assign merge value) ∨
        text ∈ (local? (.last branch, .assign merge value)).toList) := by
  cases h with
  | var =>
    have hname : text ∈ names := hreads text List.mem_cons_self
    exact ⟨hmatches.value?_eq hname, .inl hname⟩
  | @literal value _ htext =>
    have hmem : text ∈ constantTextsOf c.settings (.last branch, .assign merge (.const value)) := by
      simp [constantTextsOf, htext, Except.toOption]
    refine ⟨?_, .inr (.inl hmem)⟩
    simp [valueAtEnd, htext, Except.toOption, expressionValue, hconst text hmem]
  | @call callee args _ hkind _ _ hdescribe =>
    rw [hfind] at hdescribe
    have hvalue := callValue_eq (M := M) hkind hdescribe hmatches hreads hconst
    rw [run_described hfactors (Factor.describes_of_describe hdescribe)]
    refine ⟨?_, .inr (.inr ?_)⟩
    · rw [expressionValue, Run.value?_assign_self]
      exact hvalue
    · simp [local?, hkind]

end

/-! ### Bodies -/

/-- Code does what a body does, from any two runs that are ready for it. -/
def Simulates (M : Meaning V) (settings : Settings) (body : List Node)
    (output : List Java.Statement) : Prop :=
  ∀ {constants names out : List String} {s t : Run V},
    scopeAfter settings .lexical body names = some out →
    (∀ x ∈ constantTexts settings body, x ∈ constants) →
    Ready constants names (declarations body) s t →
    ∃ s', Trace.run M settings body s = some s' ∧ Matches out s' (Java.run M settings t output) ∧
      ∀ x, x ∉ declarations body → s'.value? x = s.value? x

/-- The text of a value keeps its value while code runs that declares other names. -/
theorem expressionValue_eq_of_frame {constants names mine others rest : List String} {text : String}
    (h : Ready constants names (mine ++ (others ++ rest)) s t)
    (htext : text ∈ names ∨ text ∈ constants ∨ text ∈ mine) (hframe : Frame .inner others t' t'') :
    expressionValue M t'' text = expressionValue M t' text := by
  have hnot : text ∉ others := by
    intro hmem
    have hlater : text ∈ mine ++ (others ++ rest) := by simp [hmem]
    rcases htext with hname | hconstant | hmine
    · obtain ⟨v, hv⟩ := h.bound text hname
      simp [h.new text hlater] at hv
    · exact (h.constant text hconstant).2 hlater
    · exact (List.nodup_append.1 h.nodup).2.2 text hmine text (by simp [hmem]) rfl
  rw [expressionValue, hframe.value? text hnot, expressionValue]

section

variable (hfind : c.find = Factor.Registry.builtin.find?) (hfactors : c.settings.DistinctFactors)

include hfind hfactors

/-- **A branch that is taken runs like its code**, and its value is what the code supplies. -/
theorem exists_run_of_branch {constants names inBranch rest : List String} {merge text : String}
    {branch : Branch} {body : List Node} {value : Node} {type : Option VariableType} {e' : Emission}
    {types' : List (String × VariableType)} (hsimulates : Simulates M c.settings body e.output)
    (hbody : Emits c assigned .inner types body e)
    (hvalue : Supplies c assigned merge branch types' value text type e')
    (hscope : scopeAfter c.settings .lexical body names = some inBranch)
    (hreads : ∀ x ∈ reads c.settings value, x ∈ inBranch)
    (hconst : ∀ x ∈ constantTexts c.settings body, x ∈ constants)
    (hconstValue : ∀ x ∈ constantTextsOf c.settings (.last branch, .assign merge value),
      x ∈ constants)
    (hready : Ready constants names
      (declarations body ++ ((local? (.last branch, .assign merge value)).toList ++ rest)) s t) :
    ∃ s' v, Trace.run M c.settings body s = some s' ∧
      valueAtEnd M c.settings s' merge branch value = some v ∧
      Ready constants names rest s' (Java.run M c.settings t (e ++ e').output) ∧
      (∀ x, x ∉ declarations body → s'.value? x = s.value? x) ∧
      (∀ others later t'', rest = others ++ later →
        Frame .inner others (Java.run M c.settings t (e ++ e').output) t'' →
        expressionValue M t'' text = v) := by
  obtain ⟨s', hrun, hmatches, hsource⟩ := hsimulates hscope hconst hready.left
  have hready' := hready.step hsource (frame_of_emits M hfind hfactors hbody) hmatches
  obtain ⟨hend, htext⟩ := valueAtEnd_of_supplies hfind hfactors hvalue hreads hmatches
    fun x hx => (hready'.constant x (hconstValue x hx)).1
  rw [Emission.output_append, Java.run_append]
  refine ⟨s', _, hrun, hend, ?_, hsource, ?_⟩
  · refine (hready'.skip (frame_of_supplies M hfind hfactors hvalue)).of_bound fun x hx => ?_
    rw [hready.value?_eq_of_mem hsource hx]
    exact hready.bound x hx
  · rintro others later t'' rfl hframe
    exact expressionValue_eq_of_frame hready' (htext.imp_right (.imp_left (hconstValue text))) hframe

/-- **A conditional runs like its code**: the multiplexer picks the value of the branch that is taken. -/
theorem exists_runNode_of_choice {constants names inThen inElse rest : List String}
    {test merge consequent alternate : String} {thenBody elseBody : List Node}
    {thenValue elseValue : Node} {type thenType elseType : Option VariableType}
    {types₁ types₂ types₃ types₄ : List (String × VariableType)} {e₁ e₂ e₃ e₄ : Emission}
    (hthen : Emits c assigned .inner types₁ thenBody e₁)
    (hthenValue : Supplies c assigned merge .consequent types₂ thenValue consequent thenType e₂)
    (helse : Emits c assigned .inner types₃ elseBody e₃)
    (helseValue : Supplies c assigned merge .alternate types₄ elseValue alternate elseType e₄)
    (hthenSimulates : Simulates M c.settings thenBody e₁.output)
    (helseSimulates : Simulates M c.settings elseBody e₃.output)
    (htest : test ∈ names)
    (hinThen : scopeAfter c.settings .lexical thenBody names = some inThen)
    (hthenReads : ∀ x ∈ reads c.settings thenValue, x ∈ inThen)
    (hinElse : scopeAfter c.settings .lexical elseBody names = some inElse)
    (helseReads : ∀ x ∈ reads c.settings elseValue, x ∈ inElse)
    (hconst : ∀ x ∈ constantTexts c.settings
      [.choice (.var test) merge thenBody thenValue elseBody elseValue], x ∈ constants)
    (hready : Ready constants names
      (declarations [.choice (.var test) merge thenBody thenValue elseBody elseValue] ++ rest) s t) :
    ∃ s', runNode M c.settings (.choice (.var test) merge thenBody thenValue elseBody elseValue) s
        = some s' ∧
      Ready constants (merge :: names) rest s' (Java.run M c.settings t
        (e₁ ++ e₂ ++ e₃ ++ e₄ ++ .merge c merge type test alternate consequent).output) ∧
      ∀ x, x ∉ declarations [.choice (.var test) merge thenBody thenValue elseBody elseValue] →
        s'.value? x = s.value? x := by
  obtain ⟨v, hv⟩ := hready.bound test htest
  simp only [constantTexts_choice, List.forall_mem_append] at hconst
  obtain ⟨hconstThen, hconstThenValue, hconstElse, hconstElseValue, -⟩ := hconst
  simp only [declarations_choice, List.append_assoc, List.cons_append, declarations_nil,
    List.nil_append] at hready ⊢
  have helseFrame := fun t => frame_of_emits (t := t) M hfind hfactors helse
  have helseValueFrame := fun t => frame_of_supplies (t := t) M hfind hfactors helseValue
  simp only [Emission.output_append, Java.run_append, run_merge]
  cases htruth : M.truth v with
  | true =>
    obtain ⟨s', w, hrun, hend, hready', hsource, htext⟩ := exists_run_of_branch hfind hfactors
      hthenSimulates hthen hthenValue hinThen hthenReads hconstThen hconstThenValue hready
    simp only [Emission.output_append, Java.run_append] at hready' htext
    -- The code of the alternate runs as well, and touches neither the test nor the value.
    have hready₄ := (hready'.skip (helseFrame _)).skip (helseValueFrame _)
    have hpick := htext _ (merge :: rest) _ (List.append_assoc ..).symm
      ((helseFrame _).trans (helseValueFrame _))
    have hselect := hready₄.value?_eq (M := M) htest
    rw [hready.value?_eq_of_mem hsource htest, hv] at hselect
    rw [← Option.some.inj hselect, htruth, if_pos rfl, hpick]
    refine ⟨s'.assign merge w, ?_, hready₄.assign w, fun x hx => ?_⟩
    · simp [runNode, argumentValue, hv, htruth, hrun, hend]
    · simp only [List.mem_append, List.mem_cons, not_or] at hx
      rw [s'.value?_assign_of_ne merge x w hx.2.2.2.2.1, hsource x hx.1]
  | false =>
    have hready₂ := (hready.skip (frame_of_emits M hfind hfactors hthen)).skip
      (frame_of_supplies M hfind hfactors hthenValue)
    obtain ⟨s', w, hrun, hend, hready₄, hsource, htext⟩ := exists_run_of_branch hfind hfactors
      helseSimulates helse helseValue hinElse helseReads hconstElse hconstElseValue hready₂
    simp only [Emission.output_append, Java.run_append] at hready₄ htext
    have hpick := htext [] _ _ rfl .refl
    have hselect := hready₄.value?_eq (M := M) htest
    rw [hready₂.value?_eq_of_mem hsource htest, hv] at hselect
    rw [← Option.some.inj hselect, htruth, if_neg Bool.false_ne_true, hpick]
    refine ⟨s'.assign merge w, ?_, hready₄.assign w, fun x hx => ?_⟩
    · simp [runNode, argumentValue, hv, htruth, hrun, hend]
    · simp only [List.mem_append, List.mem_cons, not_or] at hx
      rw [s'.value?_assign_of_ne merge x w hx.2.2.2.2.1, hsource x hx.2.2.1]

/-- **The code of a body does what the body does.** -/
theorem simulates_of_emits {body : List Node} (h : Emits c assigned depth types body e) :
    Simulates M c.settings body e.output := by
  induction h with
  | nil =>
    intro constants names out s t hscope _ hready
    cases hscope
    exact ⟨s, rfl, hready.toMatches, fun _ _ => rfl⟩
  | step _ hnode _ ih =>
    intro constants names out s t hscope hconst hready
    rw [declarations_cons] at hready ⊢
    rw [constantTexts_cons, List.forall_mem_append] at hconst
    obtain ⟨mid, hmid, hscope⟩ := scopeAfter_cons_eq_some_iff.1 hscope
    obtain ⟨s₁, hrun₁, hmatches₁, hsource₁⟩ := exists_runNode_of_yields hfind hfactors hnode hmid
      hready.toMatches fun x hx => (hready.constant x (hconst.1 x hx)).1
    obtain ⟨s₂, hrun₂, hmatches₂, hsource₂⟩ := ih hscope hconst.2
      (hready.step hsource₁ (frame_of_yields M hfind hfactors hnode) hmatches₁)
    rw [Emission.output_append, Java.run_append]
    refine ⟨s₂, by rw [Trace.run, hrun₁]; exact hrun₂, hmatches₂, fun x hx => ?_⟩
    rw [List.mem_append, not_or] at hx
    rw [hsource₂ x hx.2, hsource₁ x hx.1]
  | choice hthen hthenValue helse helseValue _ ihThen ihElse ihRest =>
    intro constants names out s t hscope hconst hready
    rw [declarations_cons] at hready ⊢
    rw [constantTexts_cons, List.forall_mem_append] at hconst
    obtain ⟨mid, hmid, hscope⟩ := scopeAfter_cons_eq_some_iff.1 hscope
    obtain ⟨htest, inThen, hinThen, hthenReads, inElse, hinElse, helseReads, rfl⟩ :=
      scopeAfterNode_choice_eq_some_iff.1 hmid
    obtain ⟨s₁, hrun₁, hready₁, hsource₁⟩ := exists_runNode_of_choice hfind hfactors hthen
      hthenValue helse helseValue ihThen ihElse htest hinThen hthenReads hinElse helseReads hconst.1
      hready
    obtain ⟨s₂, hrun₂, hmatches₂, hsource₂⟩ := ihRest hscope hconst.2 hready₁
    rw [Emission.output_append, Java.run_append]
    refine ⟨s₂, by rw [Trace.run, hrun₁]; exact hrun₂, hmatches₂, fun x hx => ?_⟩
    rw [List.mem_append, not_or] at hx
    rw [hsource₂ x hx.2, hsource₁ x hx.1]

end

/-- **If-conversion keeps the meaning.**  Take a program that compiles, assigns each name once, reads only
what is in scope and has no constant whose text is the name of a variable; and settings that tell the
kinds of factors apart.  Whatever values, literals and factors mean, the program runs to its end, where
each name in scope has a value.  Each variable that has a value then has the same value after a run of
the generated code, and the two runs agree on the evidence and on the answer. -/
theorem java_run_agrees_trace_run {V : Type u} (M : Meaning V) {settings : Settings}
    {body : List Node} {output : List Java.Statement} {visible : List String}
    (hbody : Node.Body body)
    (h : ((Session.builtin settings).compiler.statements body).result = .ok output)
    (hfactors : settings.DistinctFactors) (hsingle : SingleAssignment body)
    (hscope : scopeAfter settings .lexical body [] = some visible)
    (htexts : ∀ x ∈ constantTexts settings body, x ∉ assignedNames body ∧ x ∉ locals body) :
    ∃ final, Trace.run M settings body {} = some final ∧
      (∀ x ∈ visible, ∃ v, final.value? x = some v) ∧
      (∀ x v, final.value? x = some v → (Java.run M settings {} output).value? x = some v) ∧
      (Java.run M settings {} output).observations = final.observations ∧
      (Java.run M settings {} output).answer = final.answer := by
  obtain ⟨e, he, rfl⟩ := (result_statements_eq_ok_iff hbody).1 h
  have hready : Ready (constantTexts settings body) [] (declarations body) ({} : Run V) {} := by
    refine ⟨⟨by simp, fun _ _ h => h, rfl, rfl⟩, nodup_declarations_of_emits hbody hsingle he,
      fun _ _ => rfl, fun x hx => ⟨rfl, fun hmem => ?_⟩⟩
    obtain ⟨hassigned, hlocal⟩ := htexts x hx
    exact (mem_or_mem_of_mem_declarations hmem).elim hassigned hlocal
  obtain ⟨final, hrun, hmatches, -⟩ := simulates_of_emits (M := M) rfl hfactors he hscope
    (fun _ hx => hx) hready
  exact ⟨final, hrun, hmatches.bound, hmatches.agrees, hmatches.observations, hmatches.answer⟩

theorem java_run_agrees_trace_run_sample :
    ∃ (M : Meaning Bool) (output : List Java.Statement) (final : Run Bool),
      ((Session.builtin {}).compiler.statements Node.sample).result = .ok output ∧
      Trace.run M {} Node.sample {} = some final ∧
      (∀ x ∈ ["outer", "size", "coin"], ∃ v, final.value? x = some v) ∧
      (∀ x v, final.value? x = some v → (Java.run M {} {} output).value? x = some v) ∧
      (Java.run M {} {} output).observations = final.observations ∧
      (Java.run M {} {} output).answer = final.answer := by
  obtain ⟨output, h, -⟩ := Factor.exists_eq_ok_of_toOption_map
    (show ((Session.builtin {}).compiler.statements Node.sample).result.toOption.map List.length
      = some 20 by decide +kernel)
  let M : Meaning Bool := ⟨id, fun text => text != "0", fun _ factor _ inputs =>
    if factor = "Not" then !inputs.all id else inputs.all id⟩
  have hscope : scopeAfter {} .lexical Node.sample [] = some ["outer", "size", "coin"] := by
    decide +kernel
  obtain ⟨final, hfinal⟩ := java_run_agrees_trace_run M Node.body_sample h (by decide +kernel)
    (by decide +kernel) hscope (by decide +kernel)
  exact ⟨M, output, final, h, hfinal⟩

end Compiler

end TraceGraph
