import TraceGraph.Proofs.Outcome
import TraceGraph.Session

/-!
# What a registry remembers

A registry remembers what names resolved to.  This file compares it with a table of producers that
remembers nothing (`Table`), and a session with one that uses such a table (`Plain`): request by request
both give the same results, whatever was registered, resolved, described or compiled before.

The reason is that a registry stays `Current`: each entry of its memory is what a look-up finds now.  A
registration can change what two names stand for, the name itself and its wrapped form
(`lookup?_put_of_ne`), and these are the two that it forgets.
-/

namespace TraceGraph

open Factor (Producer Registry)

namespace Factor

/-! ### Tables -/

/-- Producers by name. -/
abbrev Table := List (String × Producer)

namespace Table

/-- The producer that a name stands for: the one under that name, or else the one under the name that it
wraps. -/
def resolve (table : Table) (name : String) : Except Error Producer :=
  match table.lookup name with
  | some producer => .ok producer
  | none =>
    match (unwrapName? name).bind fun bare => table.lookup bare with
    | some producer => .ok producer
    | none => .error (.unknownPrimitive name)

/-- The names in order. -/
def names (table : Table) : List String := (table.map Prod.fst).mergeSort fun a b => a ≤ b

/-- Registers a producer. -/
def register (table : Table) (name : String) (producer : Option Producer) (replace : Bool) :
    Except Error Table :=
  if name = "" then .error .emptyPrimitive
  else match producer with
    | none => .error (.producerNotCallable name)
    | some producer =>
      if (table.lookup name).isSome ∧ ¬ replace then .error (.alreadyRegistered name)
      else .ok ((name, producer) :: table.filter fun entry => entry.1 != name)

/-- Every name of a table stands for a producer. -/
theorem exists_mapM_resolve_names (table : Table) :
    ∃ producers, table.names.mapM table.resolve = .ok producers := by
  refine exists_mapM_eq_ok_iff.2 fun name hname => ?_
  obtain ⟨entry, hentry, rfl⟩ := List.mem_map.1 (List.mem_mergeSort.1 hname)
  cases hlookup : table.lookup entry.1 with
  | some producer => exact ⟨producer, by rw [resolve, hlookup]⟩
  | none => exact absurd rfl (bne_iff_ne.1 (List.lookup_eq_none_iff.1 hlookup entry hentry))

end Table

/-- A name wraps another if and only if it is the wrapped form of that. -/
theorem unwrapName?_eq_some_iff {name bare : String} :
    unwrapName? name = some bare ↔ name = wrap bare := by
  unfold unwrapName? wrap
  rw [← String.length_toList]
  constructor
  · intro h
    split at h
    · next hwrapped =>
      obtain ⟨rest, hrest⟩ := List.isPrefixOf_iff_prefix.1 hwrapped
      rw [← hrest, List.drop_left] at h
      cases h
      rw [← String.toList_inj, ← hrest]
      simp
    · cases h
  · rintro rfl
    rw [String.toList_append, List.drop_left, if_pos (List.isPrefixOf_iff_prefix.2 ⟨_, rfl⟩)]
    simp

theorem lookup_filter_of_ne {entries : Table} {name other : String} (h : other ≠ name) :
    (entries.filter fun entry => entry.1 != name).lookup other = entries.lookup other := by
  induction entries with
  | nil => rfl
  | cons entry rest ih =>
    obtain ⟨key, producer⟩ := entry
    by_cases hkey : key = name
    · subst hkey
      have hother : (other == key) = false := beq_eq_false_iff_ne.2 h
      simp [List.lookup_cons, ih, hother]
    · simp [hkey, List.lookup_cons, ih]

theorem lookup_filter_self {entries : Table} {name : String} :
    (entries.filter fun entry => entry.1 != name).lookup name = none := by
  rw [List.lookup_eq_none_iff]
  intro entry hentry
  have hne : entry.1 ≠ name := by simpa using (List.mem_filter.1 hentry).2
  exact bne_iff_ne.2 hne.symm

namespace Registry

variable {r next : Registry} {name other : String} {producer : Producer}

/-- Looking a name up afresh is what the table does. -/
theorem resolve_producers (r : Registry) (name : String) :
    Table.resolve r.producers name =
      match r.lookup? name with
      | some producer => .ok producer
      | none => .error (.unknownPrimitive name) := by
  unfold lookup? Table.resolve
  cases r.producers.lookup name <;> rfl

/-- A new producer changes what its name and the wrapped form of that stand for, and no other name. -/
theorem lookup?_put_of_ne (hname : other ≠ name) (hwrap : other ≠ wrap name) :
    (r.put name producer).lookup? other = r.lookup? other := by
  have hkeep : ∀ {key : String}, key ≠ name →
      (r.put name producer).producers.lookup key = r.producers.lookup key := by
    intro key hkey
    rw [put, List.lookup_cons, beq_eq_false_iff_ne.2 hkey]
    exact lookup_filter_of_ne hkey
  unfold lookup?
  rw [hkeep hname]
  cases r.producers.lookup other with
  | some found => rfl
  | none =>
    cases hbare : unwrapName? other with
    | none => rfl
    | some bare =>
      have hne : bare ≠ name := by
        rintro rfl
        exact hwrap (unwrapName?_eq_some_iff.1 hbare)
      exact hkeep hne

/-! ### Memory that is current -/

/-- Each name that is remembered stands for the producer that is remembered. -/
def Current (r : Registry) : Prop :=
  ∀ name producer, r.memory.lookup name = some producer → r.lookup? name = some producer

theorem Current.of_memory_eq_nil (h : r.memory = []) : r.Current := by
  intro name producer hmemory
  rw [h] at hmemory
  cases hmemory

/-- With a current memory, what is found is what a look-up finds. -/
theorem Current.find?_eq (h : r.Current) (name : String) : r.find? name = r.lookup? name := by
  unfold find?
  cases hmemory : r.memory.lookup name with
  | some producer => exact (h name producer hmemory).symm
  | none => rfl

theorem Current.resolve_producers (h : r.Current) (name : String) :
    Table.resolve r.producers name =
      match r.find? name with
      | some producer => .ok producer
      | none => .error (.unknownPrimitive name) := by
  rw [h.find?_eq name, r.resolve_producers name]

theorem Current.toOption_resolve_producers (h : r.Current) (name : String) :
    (Table.resolve r.producers name).toOption = r.find? name := by
  rw [h.resolve_producers name]
  cases r.find? name <;> rfl

/-- What is still remembered after a name was forgotten was remembered before, and is not that name. -/
theorem lookup_memory_forget (h : (r.forget name).memory.lookup other = some producer) :
    other ≠ name ∧ r.memory.lookup other = some producer := by
  have hne : other ≠ name := by
    rintro rfl
    rw [forget, lookup_filter_self] at h
    cases h
  rw [forget, lookup_filter_of_ne hne] at h
  exact ⟨hne, h⟩

/-- A registration that succeeds puts the producer in its place and forgets two names. -/
theorem eq_of_register {offered : Option Producer} {replace : Bool}
    (h : r.register name offered replace = .ok next) :
    ∃ producer, next = ((r.put name producer).forget name).forget (wrap name) := by
  unfold register at h
  split at h
  · cases h
  · cases offered with
    | none => cases h
    | some producer =>
      dsimp only at h
      split at h
      · cases h
      · cases h
        exact ⟨producer, rfl⟩

theorem Current.register {offered : Option Producer} {replace : Bool} (h : r.Current)
    (hnext : r.register name offered replace = .ok next) : next.Current := by
  obtain ⟨producer, rfl⟩ := eq_of_register hnext
  intro other found hfound
  obtain ⟨hwrap, hfound⟩ := lookup_memory_forget hfound
  obtain ⟨hname, hfound⟩ := lookup_memory_forget hfound
  exact (lookup?_put_of_ne hname hwrap).trans (h other found hfound)

/-- Registering is the same with a memory and without. -/
theorem map_producers_register (r : Registry) (name : String) (offered : Option Producer)
    (replace : Bool) :
    (r.register name offered replace).map Registry.producers =
      Table.register r.producers name offered replace := by
  unfold register Table.register
  split
  · rfl
  · cases offered with
    | none => rfl
    | some producer =>
      dsimp only
      split <;> rfl

/-- Resolving a name keeps the producers, and what it adds to the memory is current. -/
theorem Current.resolve {notice : Notice} (h : r.Current)
    (hnext : r.resolve name = some (producer, notice, next)) :
    next.Current ∧ next.producers = r.producers := by
  have hfind : ∀ other, next.find? other = r.find? other := fun other => find?_of_resolve hnext other
  unfold Registry.resolve at hnext
  split at hnext
  · cases hnext
    exact ⟨h, rfl⟩
  · obtain ⟨found, hfound, heq⟩ := Option.map_eq_some_iff.1 hnext
    cases heq
    refine ⟨fun other remembered hmemory => ?_, rfl⟩
    have hremembered : r.find? other = some remembered := by
      rw [← hfind other, find?, hmemory]
    exact (h.find?_eq other).symm.trans hremembered

theorem Current.settle (notices : List Notice) : ∀ {r : Registry}, r.Current →
    (r.settle notices).1.Current ∧ (r.settle notices).1.producers = r.producers := by
  induction notices with
  | nil => exact fun h => ⟨h, rfl⟩
  | cons notice rest ih =>
    intro r h
    cases notice with
    | resolved name =>
      rw [Registry.settle]
      cases hresolve : r.resolve name with
      | none => exact ih h
      | some found =>
        obtain ⟨producer, notice, next⟩ := found
        obtain ⟨hcurrent, hproducers⟩ := h.resolve hresolve
        obtain ⟨hlast, hsame⟩ := ih hcurrent
        exact ⟨hlast, hsame.trans hproducers⟩
    | _ => exact ih h

theorem Current.preload (h : r.Current) :
    r.preload.1.Current ∧ r.preload.1.producers = r.producers :=
  h.settle _

theorem memory_eq_nil_of_register {offered : Option Producer} {replace : Bool} (h : r.memory = [])
    (hnext : r.register name offered replace = .ok next) : next.memory = [] := by
  obtain ⟨producer, rfl⟩ := eq_of_register hnext
  simp [forget, put, h]

/-- A registry that was just set up remembers nothing. -/
theorem memory_eq_nil_of_ofList {given : List (String × Option Producer)}
    (h : Registry.ofList given = .ok r) : r.memory = [] := by
  have hrun : ∀ (entries : List (String × Option Producer)) (first : Registry), first.memory = [] →
      entries.foldlM (fun r entry => r.register entry.1 entry.2 false) first = .ok r →
      r.memory = [] := by
    intro entries
    induction entries with
    | nil =>
      intro first hfirst hr
      cases hr
      exact hfirst
    | cons entry rest ih =>
      intro first hfirst hr
      rw [List.foldlM_cons] at hr
      cases hregister : first.register entry.1 entry.2 false with
      | error e => rw [hregister] at hr; cases hr
      | ok next =>
        rw [hregister] at hr
        exact ih next (memory_eq_nil_of_register hfirst hregister) hr
  exact hrun given {} rfl h

end Registry

end Factor

namespace Session

/-! ### Sessions without a memory -/

/-- Does a request offer a producer? -/
def Request.registers : Request → Bool
  | .register .. | .adopt .. => true
  | _ => false

/-- A session whose registry remembers nothing. -/
structure Plain where
  table : Factor.Table
  settings : Settings

namespace Plain

/-- The compiler that the session stands for. -/
def compiler (p : Plain) : Compiler :=
  { settings := p.settings, find := fun name => (p.table.resolve name).toOption }

/-- The result of a request. -/
def result (p : Plain) : Request → Except Error Answer
  | .register name producer replace => do
    let _ ← p.table.register name producer replace
    return .done
  | .adopt name producer => do
    let _ ← p.table.register name producer false
    return .label ((producer.map Producer.label).getD "")
  | .resolve name => do return .label (← p.table.resolve name).label
  | .contains none => .ok (.truth false)
  | .contains (some name) => .ok (.truth (p.table.resolve name).isOk)
  | .names => .ok (.names p.table.names)
  | .preload => do
    let _ ← p.table.names.mapM p.table.resolve
    return .done
  | .describe output primitive args => do
    let draft ← Factor.Draft.ofCall output primitive args
    let producer ← p.table.resolve primitive
    return .descriptor (← producer.describe draft)
  | .compile source => do return .code (← (p.compiler.code source).result)

/-- The session after a request.  Only a registration that succeeds makes a difference. -/
def next (p : Plain) : Request → Plain
  | .register name producer replace =>
    { p with table := (p.table.register name producer replace).toOption.getD p.table }
  | .adopt name producer =>
    { p with table := (p.table.register name producer false).toOption.getD p.table }
  | _ => p

/-- The session after some requests. -/
def after (p : Plain) (requests : List Request) : Plain := requests.foldl next p

/-- The results of requests in turn. -/
def results (p : Plain) : List Request → List (Except Error Answer)
  | [] => []
  | request :: rest => p.result request :: (p.next request).results rest

end Plain

/-- The session after some requests. -/
def after (s : Session) (requests : List Request) : Session :=
  requests.foldl (fun s request => (s.answer request).1) s

/-- The results of requests in turn, without the notices. -/
def results (s : Session) (requests : List Request) : List (Except Error Answer) :=
  (s.answers requests).map Report.result

/-- The session with the same producers and settings, and no memory. -/
def plain (s : Session) : Plain := ⟨s.registry.producers, s.settings⟩

section

variable {s : Session}

/-- With a current memory, both sessions compile with the same producers. -/
theorem compiler_plain (h : s.registry.Current) : s.plain.compiler = s.compiler :=
  congrArg (Compiler.mk s.settings) (funext h.toOption_resolve_producers)

theorem current_settle {α : Type} (h : s.registry.Current) (report : Report α) :
    (s.settle report).1.registry.Current ∧ (s.settle report).1.plain = s.plain := by
  obtain ⟨hcurrent, hproducers⟩ := h.settle report.notices
  exact ⟨hcurrent, congrArg (Plain.mk · s.settings) hproducers⟩

/-- A registration is the same with a memory and without. -/
theorem register_eq_plain (h : s.registry.Current) (name : String) (producer : Option Producer)
    (replace : Bool) (answer : Answer) :
    (s.register name producer replace answer).1.registry.Current ∧
      (s.register name producer replace answer).1.plain =
        { s.plain with
          table := (s.plain.table.register name producer replace).toOption.getD s.plain.table } ∧
      (s.register name producer replace answer).2.result = (do
        let _ ← s.plain.table.register name producer replace
        return answer) := by
  have htable := s.registry.map_producers_register name producer replace
  change _ = s.plain.table.register name producer replace at htable
  rw [← htable]
  unfold Session.register
  cases hregister : s.registry.register name producer replace with
  | error e => exact ⟨h, rfl, rfl⟩
  | ok next => exact ⟨h.register hregister, rfl, rfl⟩

/-- A call is described the same with a memory and without. -/
theorem result_describe_eq_plain (h : s.registry.Current) (output primitive : String)
    (args : List Node) :
    (s.describe output primitive args).result = (do
      let draft ← Factor.Draft.ofCall output primitive args
      let producer ← s.plain.table.resolve primitive
      producer.describe draft) := by
  have hresolve : s.plain.table.resolve primitive = _ := h.resolve_producers primitive
  rw [hresolve]
  unfold Session.describe
  cases Factor.Draft.ofCall output primitive args with
  | error e => rfl
  | ok draft => cases s.registry.find? primitive <;> rfl

/-- A name resolves in both sessions or in neither. -/
theorem resolve_eq_plain (h : s.registry.Current) (name : String) :
    s.registry.resolve name = none ∧ s.plain.table.resolve name = .error (.unknownPrimitive name) ∨
      ∃ producer notice next, s.registry.resolve name = some (producer, notice, next) ∧
        s.plain.table.resolve name = .ok producer ∧ next.Current ∧
        next.producers = s.registry.producers := by
  have htable : s.plain.table.resolve name = _ := h.resolve_producers name
  rw [← Registry.map_fst_resolve] at htable
  cases hresolve : s.registry.resolve name with
  | none =>
    rw [hresolve] at htable
    exact .inl ⟨rfl, htable⟩
  | some found =>
    obtain ⟨producer, notice, next⟩ := found
    rw [hresolve] at htable
    exact .inr ⟨producer, notice, next, rfl, htable, h.resolve hresolve⟩

/-- **One request.**  A session with a current memory gives the result that one without a memory gives,
and the two have the same producers afterwards. -/
theorem answer_eq_plain (h : s.registry.Current) (request : Request) :
    (s.answer request).1.registry.Current ∧ (s.answer request).1.plain = s.plain.next request ∧
      (s.answer request).2.result = s.plain.result request := by
  cases request with
  | register name producer replace => exact register_eq_plain h name producer replace .done
  | adopt name producer => exact register_eq_plain h name producer false _
  | resolve name =>
    rw [answer, Plain.result]
    rcases resolve_eq_plain h name with
      ⟨hnone, htable⟩ | ⟨producer, notice, next, hsome, htable, hcurrent, hproducers⟩
    · rw [hnone, htable]
      exact ⟨h, rfl, rfl⟩
    · rw [hsome, htable]
      exact ⟨hcurrent, congrArg (Plain.mk · s.settings) hproducers, rfl⟩
  | contains name =>
    cases name with
    | none => exact ⟨h, rfl, rfl⟩
    | some name =>
      rw [answer, Plain.result]
      rcases resolve_eq_plain h name with
        ⟨hnone, htable⟩ | ⟨producer, notice, next, hsome, htable, hcurrent, hproducers⟩
      · rw [hnone, htable]
        exact ⟨h, rfl, rfl⟩
      · rw [hsome, htable]
        exact ⟨hcurrent, congrArg (Plain.mk · s.settings) hproducers, rfl⟩
  | names => exact ⟨h, rfl, rfl⟩
  | preload =>
    obtain ⟨hcurrent, hproducers⟩ := h.preload
    refine ⟨hcurrent, congrArg (Plain.mk · s.settings) hproducers, ?_⟩
    obtain ⟨producers, hnames⟩ := Factor.Table.exists_mapM_resolve_names s.plain.table
    rw [Plain.result, hnames]
    rfl
  | describe output primitive args =>
    obtain ⟨hcurrent, hplain⟩ := current_settle h
      ((s.describe output primitive args).andThen fun d => .silent (.ok (Answer.descriptor d)))
    refine ⟨hcurrent, hplain, ?_⟩
    change ((s.describe output primitive args).andThen _).result = _
    rw [Report.result_andThen, result_describe_eq_plain h, Plain.result]
    cases Factor.Draft.ofCall output primitive args with
    | error e => rfl
    | ok draft => cases s.plain.table.resolve primitive <;> rfl
  | compile source =>
    obtain ⟨hcurrent, hplain⟩ := current_settle h (s.compiler.code source)
    refine ⟨hcurrent, hplain, ?_⟩
    rw [Plain.result, compiler_plain h]
    exact Report.result_andThen _ _

/-! ### Whole runs -/

/-- Requests leave the memory current and both sessions with the same producers. -/
theorem after_eq_plain (requests : List Request) : ∀ {s : Session}, s.registry.Current →
    (s.after requests).registry.Current ∧ (s.after requests).plain = s.plain.after requests := by
  induction requests with
  | nil => exact fun h => ⟨h, rfl⟩
  | cons request rest ih =>
    intro s h
    obtain ⟨hcurrent, hplain, -⟩ := answer_eq_plain h request
    obtain ⟨hlast, hsame⟩ := ih hcurrent
    exact ⟨hlast, hsame.trans (congrArg (Plain.after · rest) hplain)⟩

theorem results_of_current (requests : List Request) : ∀ {s : Session}, s.registry.Current →
    s.results requests = s.plain.results requests := by
  induction requests with
  | nil => exact fun _ => rfl
  | cons request rest ih =>
    intro s h
    obtain ⟨hcurrent, hplain, hresult⟩ := answer_eq_plain h request
    rw [Plain.results, ← hresult, ← hplain, ← ih hcurrent]
    rfl

/-- A request that registers nothing, or fails, changes nothing. -/
theorem Plain.next_eq_self {p : Plain} {request : Request}
    (h : request.registers = false ∨ ∃ e, p.result request = .error e) : p.next request = p := by
  cases request with
  | register name producer replace =>
    obtain h | ⟨e, h⟩ := h
    · cases h
    · rw [Plain.result] at h
      rw [Plain.next]
      cases hregister : p.table.register name producer replace with
      | error e => rfl
      | ok table => rw [hregister] at h; cases h
  | adopt name producer =>
    obtain h | ⟨e, h⟩ := h
    · cases h
    · rw [Plain.result] at h
      rw [Plain.next]
      cases hregister : p.table.register name producer false with
      | error e => rfl
      | ok table => rw [hregister] at h; cases h
  | _ => rfl

end

/-- **A memory changes no result.**  From a registry that remembers nothing yet, requests have the results
that they have without a memory.  After them, each name resolves to the producer it has without a
memory, each entry of the memory is that producer, and a further request that registers nothing, or
fails, makes no difference to any later result. -/
theorem results_eq_plain_results {s : Session} (hnew : s.registry.memory = [])
    (requests : List Request) :
    s.results requests = s.plain.results requests ∧
      (∀ name, ((s.after requests).registry.resolve name).map Prod.fst =
        ((s.plain.after requests).table.resolve name).toOption) ∧
      (∀ name producer, (s.after requests).registry.memory.lookup name = some producer →
        (s.plain.after requests).table.resolve name = .ok producer) ∧
      ∀ request later,
        request.registers = false ∨ (∃ e, ((s.after requests).answer request).2.result = .error e) →
        ((s.after requests).answer request).1.results later = (s.after requests).results later := by
  have hcurrent := Registry.Current.of_memory_eq_nil hnew
  obtain ⟨hafter, hplain⟩ := after_eq_plain requests hcurrent
  refine ⟨results_of_current requests hcurrent, fun name => ?_, fun name producer hmemory => ?_,
    fun request later hrequest => ?_⟩
  · rw [Registry.map_fst_resolve, ← hplain]
    exact (hafter.toOption_resolve_producers name).symm
  · have htable := (s.after requests).registry.resolve_producers name
    rw [hafter name producer hmemory] at htable
    rw [← hplain]
    exact htable
  · obtain ⟨hnext, hsame, hresult⟩ := answer_eq_plain hafter request
    rw [hresult] at hrequest
    rw [results_of_current later hnext, results_of_current later hafter, hsame,
      Plain.next_eq_self hrequest]

/-- A wrapped name that was resolved by way of the bare one, and is then registered itself. -/
theorem results_eq_plain_results_wrapped :
    ∃ registry, Registry.ofList [("flip", some ⟨"first", .ok⟩)] = .ok registry ∧
      registry.memory = [] ∧
      Session.results ⟨registry, {}⟩
        [.resolve "wrapped_flip", .register "wrapped_flip" (some ⟨"second", .ok⟩) false,
         .resolve "wrapped_wrapped_flip", .register "flip" (some ⟨"third", .ok⟩) false,
         .register "flip" (some ⟨"third", .ok⟩) true, .resolve "wrapped_flip", .resolve "flip"] =
        [.ok (.label "first"), .ok .done, .ok (.label "second"), .error (.alreadyRegistered "flip"),
         .ok .done, .ok (.label "second"), .ok (.label "third")] := by
  obtain ⟨registry, hregistry⟩ : ∃ registry,
      Registry.ofList [("flip", some ⟨"first", .ok⟩)] = .ok registry := ⟨_, rfl⟩
  have hnew := Registry.memory_eq_nil_of_ofList hregistry
  refine ⟨registry, hregistry, hnew, ?_⟩
  rw [(results_eq_plain_results hnew _).1]
  cases hregistry
  rfl

end Session

end TraceGraph
