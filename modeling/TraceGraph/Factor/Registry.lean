import TraceGraph.Factor.Builtin
import TraceGraph.Report

/-!
# The registry of primitives

Producers are registered by name.  Tracers call a primitive `p` also `wrapped_p`, so a name that is not
registered itself stands for the one without that beginning.  What a name resolved to is remembered,
and registering a name forgets what it and its wrapped form resolved to.
-/

namespace TraceGraph.Factor

/-- What tracers put before the name of a primitive. -/
def wrapper : String := "wrapped_"

/-- The name of a primitive in its wrapped form. -/
def wrap (name : String) : String := wrapper ++ name

/-- The name that a wrapped name wraps. -/
def unwrapName? (name : String) : Option String :=
  if wrapper.toList.isPrefixOf name.toList then
    some (String.ofList (name.toList.drop wrapper.length))
  else none

/-- Producers by name, and what names have resolved to so far. -/
structure Registry where
  producers : List (String × Producer) := []
  memory : List (String × Producer) := []

namespace Registry

/-- The producer that a name stands for, looked up afresh. -/
def lookup? (r : Registry) (name : String) : Option Producer :=
  match r.producers.lookup name with
  | some producer => some producer
  | none => (unwrapName? name).bind fun bare => r.producers.lookup bare

/-- The producer that a name resolves to, from memory if it is there. -/
def find? (r : Registry) (name : String) : Option Producer :=
  match r.memory.lookup name with
  | some producer => some producer
  | none => r.lookup? name

/-- The registered names in order. -/
def names (r : Registry) : List String := (r.producers.map Prod.fst).mergeSort fun a b => a ≤ b

/-- Forgets what a name resolved to. -/
def forget (r : Registry) (name : String) : Registry :=
  { r with memory := r.memory.filter fun entry => entry.1 != name }

/-- The registry with a producer under a name, in place of one that was there. -/
def put (r : Registry) (name : String) (producer : Producer) : Registry :=
  { r with producers := (name, producer) :: r.producers.filter fun entry => entry.1 != name }

/-- Registers a producer.  A name can be taken again only to replace its producer; `none` is offered
where there is no producer at all. -/
def register (r : Registry) (name : String) (producer : Option Producer) (replace : Bool) :
    Except Error Registry :=
  if name = "" then .error .emptyPrimitive
  else match producer with
    | none => .error (.producerNotCallable name)
    | some producer =>
      if (r.producers.lookup name).isSome ∧ ¬ replace then .error (.alreadyRegistered name)
      else .ok (((r.put name producer).forget name).forget (wrap name))

/-- The registry of some producers, registered in turn. -/
def ofList (producers : List (String × Option Producer)) : Except Error Registry :=
  producers.foldlM (fun r entry => r.register entry.1 entry.2 false) {}

/-- The registry of the built-in primitives. -/
def builtin : Registry := { producers := builtinProducers }

/-- What a name resolves to, the notice of it, and the registry that remembers it. -/
def resolve (r : Registry) (name : String) : Option (Producer × Notice × Registry) :=
  match r.memory.lookup name with
  | some producer => some (producer, .remembered name, r)
  | none =>
    (r.lookup? name).map fun producer =>
      (producer, .resolved name, { r with memory := (name, producer) :: r.memory })

/-- A name resolves to the producer that is found for it. -/
theorem map_fst_resolve (r : Registry) (name : String) :
    (r.resolve name).map Prod.fst = r.find? name := by
  unfold resolve find?
  cases r.memory.lookup name with
  | some producer => rfl
  | none => cases r.lookup? name <;> rfl

/-- Resolving a name changes nothing that is found. -/
theorem find?_of_resolve {r next : Registry} {name : String} {producer : Producer} {notice : Notice}
    (h : r.resolve name = some (producer, notice, next)) (other : String) :
    next.find? other = r.find? other := by
  unfold resolve at h
  split at h
  · cases h; rfl
  · next hmemory =>
    obtain ⟨found, hfound, heq⟩ := Option.map_eq_some_iff.1 h
    cases heq
    have hlookup : ∀ m, ({ r with memory := m } : Registry).lookup? other = r.lookup? other :=
      fun _ => rfl
    by_cases hname : other = name
    · subst hname
      simp [find?, hmemory, hfound]
    · have hne : (other == name) = false := beq_eq_false_iff_ne.2 hname
      simp [find?, List.lookup_cons, hne, hlookup]

/-- Goes through the notices of a run that used the registry: a name that was looked up is remembered,
and a name that was remembered is told as such. -/
def settle (r : Registry) : List Notice → Registry × List Notice
  | [] => (r, [])
  | .resolved name :: rest =>
    match r.resolve name with
    | some (_, notice, next) =>
      let (last, told) := next.settle rest
      (last, notice :: told)
    | none =>
      let (last, told) := r.settle rest
      (last, .resolved name :: told)
  | notice :: rest =>
    let (last, told) := r.settle rest
    (last, notice :: told)

/-- Resolves all registered names. -/
def preload (r : Registry) : Registry × List Notice :=
  let (next, told) := r.settle (r.names.map Notice.resolved)
  (next, told ++ [.preloaded next.memory.length])

end Registry

end TraceGraph.Factor
