import TraceGraph.Proofs.Domain

/-!
# The weights of a draw

A draw from a finite domain is a factor that is constructed with one array of doubles, the weights, and a
variable that is declared with its domain.  The two lists are computed apart from each other, and the weight
of a value is the entry that stands where the value stands in the domain.  They line up
(`weights_line_up`): the weights of a list belong to its positions, those of a bound to the numbers below
it, and those of a list of literals to the literals.
-/

namespace TraceGraph.Factor

/-- The names of the primitives that draw by weights from a list. -/
def weightedDraws : List String := ["discrete", "categorical"]

/-- The rules of the primitives that draw from a finite domain, by their names. -/
theorem draw_rules : ∀ entry ∈ builtins, ∀ name ∈ entry.1,
    (name ∈ weightedDraws ↔ entry.2 = .categorical) ∧
      (name = "randomInteger" ↔ entry.2 = .uniformInteger) ∧
      (name = "uniformDraw" ↔ entry.2 = .uniformDraw) := by
  decide +kernel

/-- What a draw fills in is its weights and its domain. -/
theorem Descriptor.Completes.of_draw {d : Descriptor} {draft : Draft} {domain : List String}
    {weights : List Float} (h : d.Completes (draft.draw domain weights)) :
    d.factorArgs = [Node.arrayCreation "double" (weights.map Decimal.text)] ∧
      d.variableArgs = domain :=
  ⟨h.factorArgs, h.variableArgs⟩

/-- Literals and their texts, one by one. -/
theorem forall₂_java {elements : List Node} {values : List Literal} {texts : List String}
    (hvalues : elements.mapM Node.literal? = some values) (htexts : values.mapM Literal.java = .ok texts) :
    List.Forall₂ (fun element text => ∃ value, element = .const value ∧ value.java = .ok text)
      elements texts := by
  rw [mapM_eq_some_iff] at hvalues
  rw [mapM_eq_ok_iff] at htexts
  induction hvalues generalizing texts with
  | nil =>
    cases htexts
    exact .nil
  | @cons element value _ _ hvalue _ ih =>
    cases htexts with
    | cons htext hrest => exact .cons ⟨value, Node.literal?_eq_some_iff.1 hvalue, htext⟩ (ih hrest)

/-- **The weights of a draw line up with its domain.**  A draw from a finite domain, called directly or
through the dispatcher, and by its own name or as a wrapped primitive, has one array of doubles as its only
constructor argument, which is not empty, and as many values in its domain.  If the weights are given, then
they are the entries of the array, and the domain is `0, …, k - 1`.  If a bound is given, then it is the
number of entries, all of which are the same, and the domain is again `0, …, k - 1`.  If literals are given,
then they are the domain, and all entries are the same. -/
theorem weights_line_up {settings : Settings} {output callee primitive : String} {args handed : List Node}
    {d : Descriptor}
    (h : (describe settings Registry.builtin.find? output callee args).result = .ok d)
    (hunwrap : unwrap settings callee args = .ok (primitive, handed))
    (hname : bareName primitive ∈ weightedDraws ++ ["randomInteger", "uniformDraw"]) :
    ∃ entries : List String, d.factorArgs = [Node.arrayCreation "double" entries] ∧
      1 ≤ entries.length ∧ d.variableArgs.length = entries.length ∧
      (bareName primitive ∈ weightedDraws → d.variableArgs = indices entries.length ∧
        ∃ elements weights, handed = [.array elements] ∧ entries = weights.map Decimal.text ∧
          List.Forall₂ (fun node weight => node.number? = .ok (some weight)) elements weights) ∧
      (bareName primitive = "randomInteger" → d.variableArgs = indices entries.length ∧
        ∃ node count, handed = [node] ∧ node.number? = .ok (some count) ∧
          (Decimal.Binary64.ofFloat count).toInt? = some (entries.length : Int) ∧
          ∀ entry ∈ entries, entry = Decimal.text (1.0 / count)) ∧
      (bareName primitive = "uniformDraw" → ∃ elements, handed = [.array elements] ∧
        List.Forall₂ (fun element text => ∃ value, element = .const value ∧ value.java = .ok text)
          elements d.variableArgs ∧
        ∀ entry ∈ entries, entry = Decimal.text (1.0 / Float.ofNat entries.length)) := by
  obtain ⟨first, filled, names, rule, hfirst, hrule, hmem, hfill, -, hcompletes⟩ :=
    exists_rule_of_describe_builtin h
  obtain ⟨rfl, rfl⟩ := Prod.mk.inj (Except.ok.inj (hfirst.symm.trans hunwrap))
  obtain ⟨hweighted, hbelow, hlisted⟩ := draw_rules _ hrule _ hmem
  rw [List.mem_append, List.mem_pair, hweighted, hbelow, hlisted] at hname
  rw [hweighted, hbelow, hlisted]
  rcases hname with rfl | rfl | rfl
  · obtain ⟨elements, weights, hargs, hempty, hweights, rfl⟩ := exists_weights_of_categorical hfill
    obtain ⟨hfactorArgs, hdomain⟩ := hcompletes.of_draw
    refine ⟨weights.map Decimal.text, hfactorArgs, ?_, ?_, fun _ => ⟨?_, ?_⟩, ?_, ?_⟩
    · rw [List.length_map, ← hweights.length_eq]
      exact List.length_pos_iff.2 hempty
    · simp [hdomain, indices]
    · rw [hdomain, List.length_map]
    · exact ⟨elements, weights, hargs, rfl, hweights⟩
    · intro hother
      cases hother
    · intro hother
      cases hother
  · obtain ⟨node, count, n, hargs, hnumber, hpositive, hwhole, rfl⟩ :=
      exists_count_of_uniformInteger hfill
    obtain ⟨hfactorArgs, hdomain⟩ := hcompletes.of_draw
    rw [List.map_replicate] at hfactorArgs
    refine ⟨_, hfactorArgs, ?_, ?_, ?_, fun _ => ⟨?_, ?_⟩, ?_⟩
    · rw [List.length_replicate]
      exact hpositive
    · simp [hdomain, indices]
    · intro hother
      cases hother
    · rw [hdomain, List.length_replicate]
    · rw [List.length_replicate]
      exact ⟨node, count, hargs, hnumber, hwhole, fun _ => List.eq_of_mem_replicate⟩
    · intro hother
      cases hother
  · obtain ⟨elements, values, texts, hargs, hvalues, htexts, hempty, rfl⟩ :=
      exists_values_of_uniformDraw hfill
    obtain ⟨hfactorArgs, hdomain⟩ := hcompletes.of_draw
    rw [List.map_replicate] at hfactorArgs
    refine ⟨_, hfactorArgs, ?_, ?_, ?_, ?_, fun _ => ⟨elements, hargs, ?_, ?_⟩⟩
    · rw [List.length_replicate]
      exact List.length_pos_iff.2 hempty
    · rw [hdomain, List.length_replicate]
    · intro hother
      cases hother
    · intro hother
      cases hother
    · rw [hdomain]
      exact forall₂_java hvalues htexts
    · rw [List.length_replicate]
      exact fun _ => List.eq_of_mem_replicate

/-- Weights of both kinds of numbers, for a wrapped primitive that is called through the dispatcher. -/
theorem weights_line_up_dispatched :
    let elements : List Node := [.const (.int 1), .const (.int 3), .const (.float 0.5)]
    let args : List Node := [.const (.str "wrapped_discrete"), .array [.array elements, .const .null]]
    ∃ d, (describe {} Registry.builtin.find? "x" (Settings.dispatcherName {}) args).result = .ok d ∧
      unwrap {} (Settings.dispatcherName {}) args = .ok ("wrapped_discrete", [.array elements]) ∧
      bareName "wrapped_discrete" ∈ weightedDraws ∧
      d.factorArgs = ["new double[] \x7b1.0, 3.0, 0.5\x7d"] ∧ d.variableArgs = ["0", "1", "2"] ∧
      ∃ entries : List String, d.factorArgs = [Node.arrayCreation "double" entries] ∧
        d.variableArgs.length = entries.length := by
  intro elements args
  obtain ⟨d, hd, hargs⟩ := exists_eq_ok_of_toOption_map
    (show (describe {} Registry.builtin.find? "x" (Settings.dispatcherName {}) args).result.toOption.map
      (fun d => (d.factorArgs, d.variableArgs)) =
        some (["new double[] \x7b1.0, 3.0, 0.5\x7d"], ["0", "1", "2"]) by decide +kernel)
  have hunwrap : unwrap {} (Settings.dispatcherName {}) args =
    .ok ("wrapped_discrete", [.array elements]) := rfl
  have hname : bareName "wrapped_discrete" ∈ weightedDraws := by decide +kernel
  obtain ⟨entries, hfactorArgs, -, hlength, -⟩ :=
    weights_line_up hd hunwrap (List.mem_append_left _ hname)
  exact ⟨d, hd, hunwrap, hname, congrArg Prod.fst hargs, congrArg Prod.snd hargs, entries, hfactorArgs,
    hlength⟩

end TraceGraph.Factor
