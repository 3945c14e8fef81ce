import TraceGraph.Proofs.Ascii
import TraceGraph.Proofs.Assembly
import TraceGraph.Proofs.Domain

/-!
# One line for each statement

A text without a line boundary is `Unbroken`, and unbroken lines joined by line feeds can be cut apart again
(`lines_join`).  The line of a statement is unbroken if the texts in the statement are (`unbroken_line`), and
each of these comes from the program, from the settings, or is written in printable ASCII: the texts of
literals, of numbers and of types, and the names of the built-in factors.  So line boundaries can reach the
code only through the names and the raw texts of the program (`Node.words`) and through the names in the
settings (`Settings.words`).  Literals may hold any characters, at whatever place they stand.
-/

namespace TraceGraph

namespace Text

/-- There is no line boundary in the text. -/
abbrev Unbroken (s : String) : Prop := All (fun c => isLineBoundary c = false) s

theorem Ascii.unbroken {s : String} (h : Ascii s) : Unbroken s := by
  have hboundary : ∀ c, isLineBoundary c = true → ¬ IsAscii c := by
    simp only [isLineBoundary, decide_eq_true_eq]
    decide
  exact h.mono fun c hc => Bool.eq_false_iff.2 fun hline => hboundary c hline hc

/-- The tables of the characters of identifiers. -/
def identifierTables : List Ranges :=
  [letters, letterNumbers, combiningMarks, decimalDigits, connectors, extraStarts, extraParts]

theorem contains_of_isLineBoundary {ranges : Ranges} (hranges : ranges ∈ identifierTables) {c : Char}
    (hc : isLineBoundary c = true) : ranges.contains c = false := by
  have hcontrol : ∀ ranges ∈ identifierTables, (ranges.filter fun range => range.1 < 0x20) = [] := by
    decide +kernel
  have hother : ∀ ranges ∈ identifierTables, ∀ c ∈ ['\u0085', '\u2028', '\u2029'],
      ranges.contains c = false := by decide +kernel
  have hcases : ∀ c, isLineBoundary c = true → c.toNat < 0x20 ∨ c ∈ ['\u0085', '\u2028', '\u2029'] := by
    simp only [isLineBoundary, decide_eq_true_eq]
    decide
  rcases hcases c hc with hsmall | hmem
  · rw [contains_eq_of_lt hsmall, hcontrol ranges hranges]
    rfl
  · exact hother ranges hranges c hmem

/-- An identifier has no line boundary, of whatever script it is. -/
theorem unbroken_of_isIdentifier {s : String} (h : isIdentifier s = true) : Unbroken s := by
  have hboundary : ∀ c, isLineBoundary c = true →
      isIdentifierStart c = false ∧ isIdentifierPart c = false := by
    intro c hline
    have hnone : ∀ ranges ∈ identifierTables, ranges.contains c = false :=
      fun ranges hranges => contains_of_isLineBoundary hranges hline
    simp only [identifierTables, List.forall_mem_cons] at hnone
    simp [isIdentifierStart, isIdentifierPart, isLetter, hnone]
  unfold isIdentifier at h
  intro c hc
  rw [← Bool.not_eq_true]
  intro hline
  obtain ⟨hstart, hpart⟩ := hboundary c hline
  split at h
  · cases h
  · next heq =>
    rw [heq] at hc
    rw [Bool.and_eq_true, List.all_eq_true] at h
    rcases List.mem_cons.1 hc with rfl | hc
    · rw [h.1] at hstart
      cases hstart
    · rw [h.2 c hc] at hpart
      cases hpart

theorem unbroken_commas {items : List String} (h : ∀ item ∈ items, Unbroken item) :
    Unbroken (commas items) :=
  all_join (by decide) h

/-! ### Cutting at line feeds -/

theorem splitLines_cons {c : Char} (hc : isLineBoundary c = false) {line rest : List Char}
    {others : List (List Char)} (h : splitLines rest = line :: others) :
    splitLines (c :: rest) = (c :: line) :: others := by
  rw [splitLines, if_neg (by simp [hc]), h]
  -- The pair of a carriage return and a line feed is out of the question.
  rintro _ rfl
  cases hc

theorem splitLines_append {line : List Char} (h : ∀ c ∈ line, isLineBoundary c = false)
    (rest : List Char) : splitLines (line ++ '\n' :: rest) = line :: splitLines rest := by
  induction line with
  | nil =>
    have hfeed : isLineBoundary '\n' = true := by decide
    rw [List.nil_append, splitLines, if_pos hfeed]
    rintro _ h
    cases h
  | cons c line ih =>
    obtain ⟨hc, hline⟩ := List.forall_mem_cons.1 h
    exact splitLines_cons hc (ih hline)

theorem splitLines_self {line : List Char} (h : ∀ c ∈ line, isLineBoundary c = false)
    (hne : line ≠ []) : splitLines line = [line] := by
  induction line with
  | nil => exact absurd rfl hne
  | cons c line ih =>
    obtain ⟨hc, hline⟩ := List.forall_mem_cons.1 h
    cases line with
    | nil => simp [splitLines, hc]
    | cons next line => exact splitLines_cons hc (ih hline (List.cons_ne_nil _ _))

theorem lines_append {line : String} (h : Unbroken line) (rest : String) :
    lines (line ++ "\n" ++ rest) = line :: lines rest := by
  have hlist : (line ++ "\n" ++ rest).toList = line.toList ++ '\n' :: rest.toList := by simp
  rw [lines, hlist, splitLines_append h, List.map_cons, String.ofList_toList, lines]

theorem lines_self {line : String} (h : Unbroken line) (hne : line ≠ "") : lines line = [line] := by
  rw [lines, splitLines_self h (by simpa using hne), List.map_singleton, String.ofList_toList]

/-- Lines that are not empty can be joined and cut apart again. -/
theorem lines_join {items : List String} (h : ∀ item ∈ items, Unbroken item)
    (hne : ∀ item ∈ items, item ≠ "") : lines (join "\n" items) = items := by
  induction items with
  | nil => rfl
  | cons item rest ih =>
    obtain ⟨hitem, hrest⟩ := List.forall_mem_cons.1 h
    rw [List.forall_mem_cons] at hne
    cases rest with
    | nil => exact lines_self hitem hne.1
    | cons next rest => rw [join_cons_cons, lines_append hitem, ih hrest hne.2]

/-- With a line feed after the last of them, lines may also be empty. -/
theorem lines_join_append {items : List String} (h : ∀ item ∈ items, Unbroken item)
    (hne : items ≠ []) : lines (join "\n" items ++ "\n") = items := by
  induction items with
  | nil => exact absurd rfl hne
  | cons item rest ih =>
    obtain ⟨hitem, hrest⟩ := List.forall_mem_cons.1 h
    cases rest with
    | nil =>
      rw [join_singleton, ← String.append_empty (s := item ++ "\n"), lines_append hitem]
      rfl
    | cons next rest =>
      rw [join_cons_cons, String.append_assoc, lines_append hitem, ih hrest (List.cons_ne_nil _ _)]

end Text

open Text (Ascii Unbroken all_append all_ofList unbroken_commas)

/-! ### The lines of statements -/

namespace Java.Statement

/-- The texts in a statement. -/
def texts : Statement → List String
  | .declareVariable type name args => type :: name :: args
  | .addFactor factor output factorArgs inputs => factor :: output :: (factorArgs ++ inputs)
  | .fixValue name value => [name, value]
  | .declareLocal type name value => [type, name, value]
  | .extractBelief belief name => [belief, name]
  | .printBelief belief => [belief]
  | .blank | .setIterations _ | .solve => []

/-- **A statement is one line** if there is no line boundary in its texts. -/
theorem unbroken_line {graph line : String} {statement : Statement} (hgraph : Unbroken graph)
    (h : ∀ text ∈ statement.texts, Unbroken text) (hline : statement.line graph = .ok line) :
    Unbroken line ∧ line ≠ "" := by
  have hascii : ∀ text ∈ [" ", " = new ", "(", ");", ".addFactor(new ", "), ", ".setFixedValue(", " = ",
      ";", ".getSolver().setNumIterations(", ".solve();", "double[] ", ".getBelief();",
      "System.out.println(Arrays.toString(", "));"], Ascii text := by decide +kernel
  have hconst := fun text htext => (hascii text htext).unbroken
  simp only [List.forall_mem_cons, List.not_mem_nil] at hconst
  cases statement with
  | blank => cases hline
  | setIterations count =>
    unfold Statement.line at hline
    dsimp only at hline
    split at hline
    · next htext =>
      cases hline
      have hcount := (Decimal.ascii_of_integerText? htext).unbroken
      simp [hgraph, hconst, hcount]
    · cases hline
  | addFactor factor output factorArgs inputs =>
    cases hline
    simp only [texts, List.forall_mem_cons, List.forall_mem_append] at h
    have hjoined := unbroken_commas (List.forall_mem_cons.2 ⟨h.2.1, h.2.2.2⟩)
    simp [hgraph, hconst, h.1, unbroken_commas h.2.2.1, hjoined]
  | declareVariable type name args =>
    cases hline
    simp only [texts, List.forall_mem_cons] at h
    simp [hconst, h.1, h.2.1, unbroken_commas h.2.2]
  | _ =>
    cases hline
    simp only [texts, List.forall_mem_cons, List.not_mem_nil] at h
    simp [hgraph, hconst, h]

theorem exists_line_setIterations_iff {graph : String} {count : Int} :
    (∃ line, (setIterations count).line graph = .ok line) ↔ (Decimal.integerText? count).isSome := by
  unfold Statement.line
  dsimp only
  split
  · next htext => simp [htext]
  · next htext => simp [htext]

end Java.Statement

/-! ### The file -/

namespace Java

theorem unbroken_header {className graph : String} (hname : Text.isIdentifier className = true)
    (hgraph : Unbroken graph) : ∀ line ∈ header className graph, Unbroken line := by
  have himports : ∀ name ∈ imports, Unbroken name := by
    simp only [imports, List.forall_mem_cons]
    exact ⟨all_ofList.2 (by decide), all_ofList.2 (by decide), all_ofList.2 (by decide),
      all_ofList.2 (by decide), by simp⟩
  have hclass := Text.unbroken_of_isIdentifier hname
  simp only [header, List.forall_mem_append, List.forall_mem_map, List.forall_mem_cons, all_append]
  exact ⟨fun name hname => ⟨⟨all_ofList.2 (by decide), himports name hname⟩, all_ofList.2 (by decide)⟩,
    all_ofList.2 (by decide), ⟨⟨all_ofList.2 (by decide), hclass⟩, all_ofList.2 (by decide)⟩,
    all_ofList.2 (by decide), ⟨⟨all_ofList.2 (by decide), hgraph⟩, all_ofList.2 (by decide)⟩, by simp⟩

/-- The file around some lines of code has these lines, indented, between those of its own. -/
theorem lines_sourceFile {className graph : String} {lines : List String}
    (hname : Text.isIdentifier className = true) (hgraph : Unbroken graph)
    (hlines : ∀ line ∈ lines, Unbroken line ∧ line ≠ "") :
    ∃ file, sourceFile className graph (Text.join "\n" lines) = .ok file ∧
      Text.lines file = header className graph ++ lines.map ("        " ++ ·) ++ footer ∧
      file = Text.join "\n" (Text.lines file) ++ "\n" := by
  have hindent : lines.map indent = lines.map ("        " ++ ·) :=
    List.map_congr_left fun line hline => if_neg (hlines line hline).2
  have hall : ∀ line ∈ header className graph ++ lines.map ("        " ++ ·) ++ footer,
      Unbroken line := by
    simp only [List.forall_mem_append, List.forall_mem_map, all_append]
    exact ⟨⟨unbroken_header hname hgraph, fun line hline => ⟨by decide, (hlines line hline).1⟩⟩,
      by decide⟩
  have hcut := Text.lines_join_append hall (by simp [footer])
  refine ⟨_, by rw [sourceFile, if_pos hname], ?_⟩
  rw [Text.lines_join (fun line hline => (hlines line hline).1) fun line hline => (hlines line hline).2,
    hindent, hcut]
  exact ⟨rfl, rfl⟩

end Java

/-! ### The words of a program -/

namespace Node

mutual

/-- The names of variables and the raw texts in a node. -/
def words : Node → List String
  | .var name => [name]
  | .raw text => [text]
  | .array elements => wordsOfAll elements
  | .call _ args => wordsOfAll args
  | .assign name init => name :: init.words
  | .evidence _ name => [name]
  | .choice test merge thenBody thenValue elseBody elseValue =>
    test.words ++ merge :: (wordsOfAll thenBody ++ thenValue.words ++ wordsOfAll elseBody ++ elseValue.words)
  | .query name => [name]
  | .program body => wordsOfAll body
  | .blank | .const _ => []

/-- The names of variables and the raw texts in some nodes. -/
def wordsOfAll : List Node → List String
  | [] => []
  | node :: rest => node.words ++ wordsOfAll rest

end

theorem mem_wordsOfAll_iff {nodes : List Node} {word : String} :
    word ∈ wordsOfAll nodes ↔ ∃ node ∈ nodes, word ∈ node.words := by
  induction nodes with
  | nil => simp [wordsOfAll]
  | cons node rest ih => simp [wordsOfAll, ih]

theorem wordsOfAll_subset {nodes nodes' : List Node} (h : nodes ⊆ nodes') :
    wordsOfAll nodes ⊆ wordsOfAll nodes' := by
  intro word hword
  obtain ⟨node, hnode, hword⟩ := mem_wordsOfAll_iff.1 hword
  exact mem_wordsOfAll_iff.2 ⟨node, h hnode, hword⟩

theorem unbroken_elementType (elements : List Node) : Unbroken (elementType elements) := by
  unfold elementType
  split
  · decide
  · decide
  · iterate 3
      split
      · decide
    decide

mutual

/-- The text of an argument is unbroken if its words are: what is added to them is printable. -/
theorem unbroken_java : ∀ {node : Node} {text : String}, (∀ word ∈ node.words, Unbroken word) →
    node.java = .ok text → Unbroken text
  | .var name, _, hwords, h => by
    cases h
    exact hwords name (List.mem_singleton_self name)
  | .raw text, _, hwords, h => by
    cases h
    exact hwords text (List.mem_singleton_self text)
  | .const value, _, _, h => (Literal.ascii_java h).unbroken
  | .array elements, _, hwords, h => by
    obtain ⟨texts, htexts, h⟩ := bind_eq_ok_iff.1 h
    cases h
    have hitems := unbroken_commas (unbroken_javaAll hwords htexts)
    simp only [arrayCreation, all_append]
    exact ⟨⟨⟨⟨by decide, unbroken_elementType elements⟩, by decide⟩, hitems⟩, by decide⟩
  | .blank, _, _, h | .call _ _, _, _, h | .assign _ _, _, _, h | .evidence _ _, _, _, h
  | .choice _ _ _ _ _ _, _, _, h | .query _, _, _, h | .program _, _, _, h => by cases h

theorem unbroken_javaAll : ∀ {nodes : List Node} {texts : List String},
    (∀ word ∈ wordsOfAll nodes, Unbroken word) → javaAll nodes = .ok texts →
    ∀ text ∈ texts, Unbroken text
  | [], _, _, h => by
    cases h
    simp
  | node :: rest, _, hwords, h => by
    obtain ⟨first, hfirst, h⟩ := bind_eq_ok_iff.1 h
    obtain ⟨others, hothers, h⟩ := bind_eq_ok_iff.1 h
    cases h
    obtain ⟨hnode, hrest⟩ := List.forall_mem_append.1 hwords
    exact List.forall_mem_cons.2 ⟨unbroken_java hnode hfirst, unbroken_javaAll hrest hothers⟩

end

end Node

namespace Trace

mutual

theorem words_subset_of_mem_occurrencesIn {depth : Depth} : ∀ {node : Node} {o : Place × Node},
    o ∈ occurrencesIn depth node → o.2.words ⊆ node.words
  | .choice test merge thenBody thenValue elseBody elseValue, o, h => by
    simp only [occurrencesIn, List.mem_append, List.mem_cons, List.not_mem_nil, or_false] at h
    intro word hword
    simp only [Node.words, List.mem_append, List.mem_cons]
    rcases h with h | rfl | h | rfl | rfl
    · simp [words_subset_of_mem_occurrences h hword]
    · rcases List.mem_cons.1 hword with rfl | hword <;> simp [*]
    · simp [words_subset_of_mem_occurrences h hword]
    · rcases List.mem_cons.1 hword with rfl | hword <;> simp [*]
    · simpa only [Node.words, List.mem_append, List.mem_cons] using hword
  | .blank, _, h | .var _, _, h | .const _, _, h | .array _, _, h | .raw _, _, h | .call _ _, _, h
  | .assign _ _, _, h | .evidence _ _, _, h | .query _, _, h | .program _, _, h => by
    cases List.mem_singleton.1 h
    exact List.Subset.refl _

/-- The words of a statement at any depth are words of the program. -/
theorem words_subset_of_mem_occurrences {depth : Depth} : ∀ {body : List Node} {o : Place × Node},
    o ∈ occurrences depth body → o.2.words ⊆ Node.wordsOfAll body
  | [], _, h => by cases h
  | node :: rest, o, h => by
    intro word hword
    rcases List.mem_append.1 h with h | h
    · exact List.mem_append_left _ (words_subset_of_mem_occurrencesIn h hword)
    · exact List.mem_append_right _ (words_subset_of_mem_occurrences h hword)

end

end Trace

/-! ### The texts of descriptors -/

theorem VariableType.unbroken_name (type : VariableType) : Unbroken type.name := by
  cases type <;> decide

namespace Factor

theorem ascii_indices (n : Nat) : ∀ text ∈ indices n, Ascii text := by
  intro text htext
  obtain ⟨i, -, rfl⟩ := List.mem_map.1 htext
  exact Decimal.ascii_toString i

theorem ascii_doubleArray (values : List Float) : Ascii (doubleArray values) := by
  have hvalues : ∀ text ∈ values.map Decimal.text, Ascii text := by
    intro text htext
    obtain ⟨x, -, rfl⟩ := List.mem_map.1 htext
    exact Decimal.ascii_text x
  simp only [doubleArray, Node.arrayCreation, all_append]
  exact ⟨⟨by decide, Text.all_join (by decide) hvalues⟩, by decide⟩

/-- The texts that a filled draft is constructed with are those of arguments, or else printable. -/
def Draft.Writes (draft filled : Draft) : Prop :=
  ∀ text ∈ filled.factorArgs.getD [] ++ filled.variableArgs.getD [], text ∈ draft.rendered ∨ Ascii text

theorem Draft.writes_draw {draft : Draft} {domain : List String} (h : ∀ text ∈ domain, Ascii text)
    (weights : List Float) : draft.Writes (draft.draw domain weights) := by
  intro text htext
  rcases List.mem_append.1 htext with htext | htext
  · rw [List.mem_singleton.1 htext]
    exact .inr (ascii_doubleArray weights)
  · exact .inr (h text htext)

section

variable {draft filled : Draft} (hfactorArgs : draft.factorArgs = none)
  (hvariableArgs : draft.variableArgs = none)

include hfactorArgs hvariableArgs

theorem Draft.writes_parameterized (type : VariableType) (factor : String) :
    draft.Writes (draft.parameterized type factor) := by
  unfold parameterized
  split
  · intro text htext
    exact .inl (by simpa [choose, hvariableArgs] using htext)
  · intro text htext
    simp [choose, hfactorArgs, hvariableArgs] at htext

/-- **What a rule writes by itself is printable.** -/
theorem Rule.writes {rule : Rule} (h : rule.fill draft = .ok filled) : draft.Writes filled := by
  -- Constants in place of the arguments.
  have hnumbers : ∀ (type : VariableType) (factor : String) (values : List Float),
      draft.Writes { draft.choose type factor with factorArgs := some (values.map Decimal.text) } := by
    intro type factor values text htext
    simp only [Draft.choose, hvariableArgs, Option.getD_some, Option.getD_none, List.append_nil,
      List.mem_map] at htext
    obtain ⟨x, -, rfl⟩ := htext
    exact .inr (Decimal.ascii_text x)
  cases fill_eq_ok_iff.1 h with
  | half => exact hnumbers .bit "Bernoulli" [0.5]
  | normal => exact hnumbers .real "Normal" [_, _]
  | gamma => exact hnumbers .real "Gamma" [_, _]
  | bernoulli | beta | exponential => exact Draft.writes_parameterized hfactorArgs hvariableArgs _ _
  | categorical | uniformInteger => exact Draft.writes_draw (ascii_indices _) _
  | uniformDraw _ _ _ _ htexts =>
    exact Draft.writes_draw (forall_of_mapM_eq_ok htexts fun _ _ => Literal.ascii_java) _
  | function =>
    intro text htext
    simp [Draft.choose, hfactorArgs, hvariableArgs] at htext

end

theorem wordsOfAll_subset_of_unwrap {settings : Settings} {callee primitive : String}
    {args handed : List Node} (h : unwrap settings callee args = .ok (primitive, handed)) :
    Node.wordsOfAll handed ⊆ Node.wordsOfAll args := by
  rcases unwrap_eq_ok h with ⟨-, rfl⟩ | ⟨elements, others, rfl, rfl⟩
  · exact List.Subset.refl _
  · -- The arguments stand in an array behind the name.
    intro word hword
    have hword := Node.wordsOfAll_subset (List.dropLast_subset _) hword
    exact Node.mem_wordsOfAll_iff.2 ⟨.array _, by simp, hword⟩

/-- **The texts of a described call are unbroken** if the variable and the words of the arguments are. -/
theorem unbroken_of_describe {settings : Settings} {output callee : String} {args : List Node}
    {d : Descriptor} (houtput : Unbroken output) (hargs : ∀ word ∈ Node.wordsOfAll args, Unbroken word)
    (h : (describe settings Registry.builtin.find? output callee args).result = .ok d) :
    ∀ statement ∈ d.statements, ∀ text ∈ statement.texts, Unbroken text := by
  have hdescribes := describes_of_describe h
  have hrendered : ∀ text ∈ d.rendered, Unbroken text :=
    Node.unbroken_javaAll (fun word hword => hargs word
      (wordsOfAll_subset_of_unwrap hdescribes.unwrap hword)) hdescribes.rendered
  have hinputs : ∀ text ∈ d.inputs, Unbroken text := by
    rcases hdescribes.inputs with heq | heq
    · simp [heq]
    · exact heq ▸ hrendered
  have hfactor : Unbroken d.factor := by
    have hall : ∀ factor ∈ builtinFactors, Ascii factor := by decide +kernel
    exact (hall d.factor hdescribes.factor).unbroken
  have hwritten : ∀ text ∈ d.factorArgs ++ d.variableArgs, Unbroken text := by
    obtain ⟨first, producer, hfirst, hfind, hproducer⟩ := result_describe_eq_ok_iff.1 h
    obtain ⟨names, rule, filled, -, -, -, hfill, hcomplete⟩ := exists_rule_of_describe hfind hproducer
    obtain ⟨-, -, -, ⟨hopen, hfactorArgs, hvariableArgs⟩, -⟩ := draft_eq_ok hfirst
    have hd := Draft.completes_of_complete hcomplete
    intro text htext
    rw [hd.factorArgs, hd.variableArgs] at htext
    rcases Rule.writes hfactorArgs hvariableArgs hfill text htext with hmem | hascii
    · rw [hd.rendered, (Rule.chooses hopen hfill).1.rendered] at hrendered
      exact hrendered text hmem
    · exact hascii.unbroken
  obtain ⟨hfactorArgs, hvariableArgs⟩ := List.forall_mem_append.1 hwritten
  have htype := d.variableType.unbroken_name
  simp only [Descriptor.statements, Descriptor.declaration, Descriptor.attachment, Java.Statement.texts,
    List.forall_mem_cons, List.forall_mem_append, hdescribes.output]
  exact ⟨⟨htype, houtput, hvariableArgs⟩, ⟨hfactor, houtput, hfactorArgs, hinputs⟩, by simp⟩

end Factor

/-- The names in the settings that are written in the code. -/
def Settings.words (settings : Settings) : List String :=
  [settings.graphName, settings.beliefName, settings.evidenceFactor, settings.multiplexerFactor,
   settings.aliasFactor]

namespace Compiler

open Java (Statement)
open Trace

variable {c : Compiler} {assigned : List String} {types : List (String × VariableType)} {e : Emission}

/-! ### The texts of the code -/

/-- The texts that the condition and the names of the settings put into the code are unbroken. -/
structure UnbrokenSettings (settings : Settings) : Prop where
  words : ∀ word ∈ settings.words, Unbroken word
  condition : ∃ n, settings.conditionValue = .int n

theorem unbroken_variableName {merge : String} (h : Unbroken merge) (branch : Branch) :
    Unbroken (branch.variableName merge) := by
  simp only [Branch.variableName, all_append]
  exact ⟨⟨h, by decide⟩, by cases branch <;> decide⟩

theorem unbroken_of_branchValue {merge text : String} {branch : Branch} {value : Node}
    (hmerge : Unbroken merge) (hvalue : ∀ word ∈ value.words, Unbroken word)
    (h : BranchValue merge branch value text) : Unbroken text := by
  cases h with
  | var => exact hvalue text (List.mem_singleton_self text)
  | @literal value text htext =>
    have hascii : Ascii text := by
      unfold branchText at htext
      split at htext
      · next b =>
        cases htext
        cases b <;> decide
      · exact Literal.ascii_java htext
    exact hascii.unbroken
  | call => exact unbroken_variableName hmerge branch

theorem unbroken_of_codes (hfind : c.find = Factor.Registry.builtin.find?)
    (hsettings : UnbrokenSettings c.settings) {o : Place × Node} {piece : List Statement}
    (hwords : ∀ word ∈ o.2.words, Unbroken word) (h : Codes c o piece) :
    ∀ statement ∈ piece, ∀ text ∈ statement.texts, Unbroken text := by
  have hnames := hsettings.words
  simp only [Settings.words, List.forall_mem_cons] at hnames
  obtain ⟨-, hbelief, hevidence, hmultiplexer, halias, -⟩ := hnames
  cases h with
  | call _ hdescribe =>
    rw [hfind] at hdescribe
    obtain ⟨hname, hargs⟩ := List.forall_mem_cons.1 hwords
    exact Factor.unbroken_of_describe hname hargs hdescribe
  | branchCall _ hdescribe =>
    rw [hfind] at hdescribe
    obtain ⟨hmerge, hargs⟩ := List.forall_mem_cons.1 hwords
    exact Factor.unbroken_of_describe (unbroken_variableName hmerge _) hargs hdescribe
  | copy _ name source type =>
    simp only [Node.words, List.forall_mem_cons] at hwords
    simp [Statement.texts, hwords, halias, type.unbroken_name]
  | @literal _ name type _ value htype htext =>
    have hlocal : Unbroken type := by
      cases value with
      | null => cases htype
      | _ => cases htype; decide
    have hname := hwords name List.mem_cons_self
    simp [Statement.texts, hlocal, hname, (Literal.ascii_java htext).unbroken]
  | @array _ name text elements htext =>
    obtain ⟨hname, helements⟩ := List.forall_mem_cons.1 hwords
    have hlocal : Unbroken (Node.elementType elements ++ "[]") :=
      all_append.2 ⟨Node.unbroken_elementType elements, by decide⟩
    simp only [Statement.texts, List.forall_mem_cons]
    exact ⟨⟨hlocal, hname, Node.unbroken_java helements htext, by simp⟩, by simp⟩
  | evidence hstates =>
    obtain ⟨n, hn⟩ := hsettings.condition
    have hcondition : Unbroken c.settings.conditionValue.text := by
      rw [hn]
      exact (Decimal.ascii_toString n).unbroken
    have hcode : ∀ kind target, Unbroken target →
        ∀ text ∈ (Evidence.code c.settings target kind).texts, Unbroken text := by
      intro kind target htarget
      cases kind <;> simp [Evidence.code, Statement.texts, htarget, hcondition, hevidence]
    rw [List.forall_mem_singleton]
    cases hstates with
    | plain kind name => exact hcode kind name (hwords name (List.mem_singleton_self name))
    | call name target => exact hcode _ target (hwords target (by simp [Node.words, Node.wordsOfAll]))
  | query name =>
    have hname := hwords name (List.mem_singleton_self name)
    simp [Java.inference, Statement.texts, hname, hbelief]
  | branchVar | branchLiteral => simp
  | merge type hfactor =>
    cases hfactor with
    | @intro test merge _ _ _ _ _ _ halternate hconsequent =>
      simp only [Node.words, List.forall_mem_append, List.forall_mem_cons] at hwords
      obtain ⟨⟨htest, -⟩, hmerge, ⟨⟨-, hthen⟩, -⟩, helse⟩ := hwords
      have hthenText := unbroken_of_branchValue hmerge hthen hconsequent
      have helseText := unbroken_of_branchValue hmerge helse halternate
      simp [Statement.texts, htest, hmerge, hthenText, helseText, hmultiplexer, type.unbroken_name]

/-- **There is no line boundary in the texts of the code.** -/
theorem unbroken_of_emits (hfind : c.find = Factor.Registry.builtin.find?)
    (hsettings : UnbrokenSettings c.settings) {body : List Node}
    (hwords : ∀ word ∈ Node.wordsOfAll body, Unbroken word) {depth : Depth}
    (h : Emits c assigned depth types body e) :
    ∀ statement ∈ e.output, ∀ text ∈ statement.texts, Unbroken text := by
  intro statement hstatement
  obtain ⟨o, ho, piece, hcode, hmem⟩ := exists_codes_of_mem h hstatement
  exact unbroken_of_codes hfind hsettings
    (fun word hword => hwords word (words_subset_of_mem_occurrences ho hword)) hcode statement hmem

/-! ### Which statements have a line -/

theorem ne_blank_of_codes {o : Place × Node} {piece : List Statement} (h : Codes c o piece) :
    ∀ statement ∈ piece, statement ≠ .blank := by
  cases h with
  | evidence hstates =>
    cases hstates with
    | plain kind => cases kind <;> simp [Evidence.code]
    | @call _ _ _ kind => cases kind <;> simp [Evidence.code]
  | merge _ hfactor =>
    cases hfactor
    simp
  | _ => simp [Factor.Descriptor.statements, Factor.Descriptor.declaration,
      Factor.Descriptor.attachment, Java.inference]

/-- The code can be written unless it asks for something with too many iterations. -/
theorem exists_mapM_line_iff {body : List Node} (h : Emits c assigned .top types body e) :
    (∃ lines, e.output.mapM (Statement.line c.settings.graphName) = .ok lines) ↔
      asked? body = none ∨ (Decimal.integerText? c.settings.iterations).isSome := by
  obtain ⟨hinference, -⟩ := inference_of_emits h
  have hmem : ∀ statement, statement ∈ Java.inference c.settings (asked? body) ↔
      statement ∈ e.output ∧ statement.isInference = true := by
    intro statement
    rw [← hinference, List.mem_filter]
  rw [exists_mapM_eq_ok_iff]
  constructor
  · intro hlines
    cases hasked : asked? body with
    | none => exact .inl rfl
    | some name =>
      have hline := hlines (.setIterations c.settings.iterations)
        ((hmem _).1 (by simp [hasked, Java.inference])).1
      exact .inr (Statement.exists_line_setIterations_iff.1 hline)
  · intro htext statement hstatement
    have hblank : statement ≠ .blank := by
      obtain ⟨o, -, piece, hcode, hmem⟩ := exists_codes_of_mem h hstatement
      exact ne_blank_of_codes hcode statement hmem
    cases statement with
    | blank => exact absurd rfl hblank
    | setIterations count =>
      -- The code sets the iterations only to solve for what is asked.
      have hcount := (hmem _).2 ⟨hstatement, rfl⟩
      cases hasked : asked? body with
      | none => simp [hasked, Java.inference] at hcount
      | some name =>
        obtain rfl : count = c.settings.iterations := by simpa [hasked, Java.inference] using hcount
        rw [Statement.exists_line_setIterations_iff]
        exact htext.resolve_left (by simp [hasked])
    | _ => exact ⟨_, rfl⟩

/-- The code of a program is made of the lines of its statements. -/
theorem result_code_eq {body : List Node} {output : List Statement}
    (h : (c.statements body).result = .ok output) :
    (c.code (.node (.program body))).result =
      (output.mapM (Statement.line c.settings.graphName)).map (Text.join "\n") := by
  rw [code, Report.result_andThen, statementsOf, Source.program, Report.andThen_silent_ok, h]
  cases hlines : output.mapM (Statement.line c.settings.graphName) with
  | error e => simp [Except.bind, Report.silent, Statement.render, hlines, Except.map, bind]
  | ok lines =>
    simp [Except.bind, Report.silent, Statement.render, hlines, Except.map, bind, pure, Except.pure]

/-- **One line for each statement**, whatever the literals hold.  If there is no line boundary in the names
and the raw texts of a program and in the names of the settings, and a condition fixes an integer, then the
lines of the code are the lines of its statements, one by one; the code can be written unless it asks for
something with too many iterations; and the file that runs it, as a class of any name, is made of the lines of
the header, the lines of the statements behind eight blanks, and the lines of the footer. -/
theorem lines_code {settings : Settings} {body : List Node} {output : List Statement}
    (hbody : Node.Body body) (hsettings : UnbrokenSettings settings)
    (hwords : ∀ word ∈ Node.wordsOfAll body, Unbroken word)
    (h : ((Session.builtin settings).compiler.statements body).result = .ok output) :
    ((Session.builtin settings).compiler.code (.node (.program body))).result.map Text.lines =
        output.mapM (Statement.line settings.graphName) ∧
      ((∃ code, ((Session.builtin settings).compiler.code (.node (.program body))).result = .ok code) ↔
        asked? body = none ∨ (Decimal.integerText? settings.iterations).isSome) ∧
      ∀ code className,
        ((Session.builtin settings).compiler.code (.node (.program body))).result = .ok code →
        Text.isIdentifier className = true →
        ∃ lines file, output.mapM (Statement.line settings.graphName) = .ok lines ∧
          Java.sourceFile className settings.graphName code = .ok file ∧
          Text.lines file = Java.header className settings.graphName ++
            lines.map ("        " ++ ·) ++ Java.footer ∧
          file = Text.join "\n" (Text.lines file) ++ "\n" ∧
          (Java.header className settings.graphName).length = 8 ∧ Java.footer.length = 2 := by
  obtain ⟨e, he, rfl⟩ := (result_statements_eq_ok_iff hbody).1 h
  have hgraph : Unbroken settings.graphName := hsettings.words _ List.mem_cons_self
  have htexts := unbroken_of_emits rfl hsettings hwords he
  have hlines : ∀ {lines}, e.output.mapM (Statement.line settings.graphName) = .ok lines →
      ∀ line ∈ lines, Unbroken line ∧ line ≠ "" := by
    intro lines hlines line hline
    obtain ⟨statement, hstatement, heq⟩ := exists_mem_of_forall₂ (mapM_eq_ok_iff.1 hlines) hline
    exact Statement.unbroken_line hgraph (htexts statement hstatement) heq
  have hsame : (Session.builtin settings).compiler.settings = settings := rfl
  have hcode := result_code_eq h
  have hexists := exists_mapM_line_iff he
  rw [hsame] at hcode hexists
  rw [hcode, ← hexists]
  cases hmap : e.output.mapM (Statement.line settings.graphName) with
  | error e =>
    refine ⟨rfl, ⟨?_, ?_⟩, ?_⟩
    · rintro ⟨_, h⟩; cases h
    · rintro ⟨_, h⟩; cases h
    · intro _ _ h; cases h
  | ok lines =>
    have hunbroken := hlines hmap
    refine ⟨?_, ⟨fun _ => ⟨lines, rfl⟩, fun _ => ⟨_, rfl⟩⟩, ?_⟩
    · rw [Except.map, Except.map, Text.lines_join (fun line hline => (hunbroken line hline).1)
        fun line hline => (hunbroken line hline).2]
    · intro code className h hname
      cases h
      obtain ⟨file, hfile, hcut, hwhole⟩ := Java.lines_sourceFile hname hgraph hunbroken
      exact ⟨lines, file, rfl, hfile, hcut, hwhole, rfl, rfl⟩

/-- A program with line boundaries in its literals, and in nothing else. -/
def boundariesInLiterals : List Node :=
  [.assign "note" (.const (.str "one\ntwo\u2028three")),
   .assign "draw" (.call "uniformDraw" [.array [.const (.str "\r\n"), .const (.str "\u0085")]]),
   .query "draw"]

theorem lines_code_boundariesInLiterals :
    ∃ output code lines file,
      ((Session.builtin {}).compiler.statements boundariesInLiterals).result = .ok output ∧
      (∀ word ∈ Node.wordsOfAll boundariesInLiterals, Unbroken word) ∧ output.length = 7 ∧
      ((Session.builtin {}).compiler.code (.node (.program boundariesInLiterals))).result = .ok code ∧
      output.mapM (Statement.line "myGraph") = .ok lines ∧ Text.lines code = lines ∧
      Java.sourceFile "Model" "myGraph" code = .ok file ∧
      Text.lines file =
        Java.header "Model" "myGraph" ++ lines.map ("        " ++ ·) ++ Java.footer := by
  have hbody : Node.Body boundariesInLiterals :=
    .assign (by decide) (.const _) (.assign (by decide)
      (.call (by decide) (.array (.const _ (.const _ .nil)) .nil)) (.query (by decide) .nil))
  have hsettings : UnbrokenSettings {} := ⟨by decide, 1, rfl⟩
  have hwords : ∀ word ∈ Node.wordsOfAll boundariesInLiterals, Unbroken word := by decide +kernel
  obtain ⟨output, h, hlength⟩ := Factor.exists_eq_ok_of_toOption_map
    (show ((Session.builtin {}).compiler.statements boundariesInLiterals).result.toOption.map List.length
      = some 7 by decide +kernel)
  obtain ⟨hlines, hcode, hfile⟩ := lines_code hbody hsettings hwords h
  obtain ⟨code, hcode⟩ := hcode.2 (.inr (by decide +kernel))
  obtain ⟨lines, file, hmap, hsource, hcut, -⟩ := hfile code "Model" hcode (by decide +kernel)
  refine ⟨output, code, lines, file, h, hwords, hlength, hcode, hmap, ?_, hsource, hcut⟩
  rw [hcode, hmap] at hlines
  exact Except.ok.inj hlines

end Compiler

end TraceGraph
