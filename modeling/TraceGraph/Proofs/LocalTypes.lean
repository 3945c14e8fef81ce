import TraceGraph.Proofs.Assembly
import TraceGraph.Proofs.Domain
import TraceGraph.Proofs.FloatingLiteral
import TraceGraph.Proofs.Rendering
import TraceGraph.Proofs.StringLiteral

/-!
# The types of locals

A literal that a program assigns becomes a local of Java, and the type of the local is picked by the sort of
the literal; an array has an element type that is picked by the sorts of its elements.  `Node.Fits` are Java's
rules for what may be assigned to a local of a type: which types admit a literal, what a literal of each sort
looks like, and that the elements of an array have to fit its element type.

The types are always picked so that they admit the values (`Node.elementType_mem`), at every depth of an array
(`Node.fits_java`).  What is not looked at is the size of a number.  An integer is written out whatever it is,
but Java's integers have thirty-two bits; and an infinity, or what is not a number, is written as a word.  So a
local fits its type if and only if all numbers in its value are in range (`Node.fits_iff`).
-/

namespace TraceGraph

namespace Literal

/-- The types of the locals that a literal may be assigned to. -/
def javaTypes : Literal → List String
  | .null => ["String", "Object"]
  | .bool _ => ["boolean", "Object"]
  | .int _ => ["int", "double", "Object"]
  | .float _ => ["double", "Object"]
  | .str _ => ["String", "Object"]

/-- The text is a literal of Java for the value.  An integer has thirty-two bits, and a double is finite. -/
inductive Spells : Literal → String → Prop
  | null : Spells .null "null"
  | bool (b : Bool) : Spells (.bool b) (toString b)
  | int {n : Int} (hlow : -2 ^ 31 ≤ n) (hhigh : n < 2 ^ 31) : Spells (.int n) (toString n)
  | float {x : Float} {text : String} (h : Java.Denotes text x) : Spells (.float x) text
  | str {s text : String} {units : List Nat} (htranslate : Java.translate 0 text.toList = some units)
      (hliteral : Java.stringLiteral? units = some (Text.utf16 s, [])) : Spells (.str s) text

/-- The literal is no number, or a number that Java has a literal for. -/
def InRange : Literal → Prop
  | .int n => -2 ^ 31 ≤ n ∧ n < 2 ^ 31
  | .float x => x.isFinite = true
  | _ => True

instance decidableInRange : (value : Literal) → Decidable value.InRange
  | .int n => inferInstanceAs (Decidable (-2 ^ 31 ≤ n ∧ n < 2 ^ 31))
  | .float x => inferInstanceAs (Decidable (x.isFinite = true))
  | .null | .bool _ | .str _ => inferInstanceAs (Decidable True)

theorem Spells.inRange {value : Literal} {text : String} (h : value.Spells text) : value.InRange := by
  cases h with
  | int hlow hhigh => exact ⟨hlow, hhigh⟩
  | float h => exact h.isFinite
  | _ => trivial

/-- The text that the literal is written as. -/
def Written (value : Literal) (text : String) : Prop := value.java = .ok text

theorem Written.spells {value : Literal} {text : String} (hjava : value.Written text)
    (h : value.InRange) : value.Spells text := by
  cases value with
  | null =>
    cases hjava
    exact .null
  | bool b =>
    cases hjava
    cases b
    · exact .bool false
    · exact .bool true
  | int n =>
    rw [Java.eq_toString_of_java hjava]
    exact .int h.1 h.2
  | float x =>
    cases hjava
    exact .float (Java.denotes_text h)
  | str s =>
    cases hjava
    obtain ⟨units, htranslate, hliteral⟩ := Java.exists_translate_doubleQuoted s
    exact .str htranslate hliteral

theorem localType_mem {name type : String} {value : Literal}
    (h : Compiler.localType name value = .ok type) : type ∈ value.javaTypes := by
  cases value <;> cases h <;> exact List.mem_cons_self

end Literal

namespace Node

mutual

/-- The literals in a literal or an array, at every depth. -/
def literals : Node → List Literal
  | .const value => [value]
  | .array elements => literalsOfAll elements
  | _ => []

/-- The literals in the elements of an array. -/
def literalsOfAll : List Node → List Literal
  | [] => []
  | node :: rest => node.literals ++ literalsOfAll rest

end

mutual

/-- A local of the type may be declared with the text for the value of the node, where a text is said to spell a
literal.  What is no literal and no array is only known to be an object. -/
inductive Fits (spells : Literal → String → Prop) : Node → String → String → Prop
  | var (name : String) : Fits spells (.var name) "Object" name
  | raw (text : String) : Fits spells (.raw text) "Object" text
  | const {value : Literal} {type text : String} (htype : type ∈ value.javaTypes)
      (htext : spells value text) : Fits spells (.const value) type text
  | array {elements : List Node} {element : String} {texts : List String}
      (helements : AllFit spells elements element texts) :
      Fits spells (.array elements) (element ++ "[]") (arrayCreation element texts)
  | object {elements : List Node} {element : String} {texts : List String}
      (helements : AllFit spells elements element texts) :
      Fits spells (.array elements) "Object" (arrayCreation element texts)

/-- The elements fit an element type. -/
inductive AllFit (spells : Literal → String → Prop) : List Node → String → List String → Prop
  | nil (element : String) : AllFit spells [] element []
  | cons {node : Node} {rest : List Node} {element text : String} {texts : List String}
      (hnode : Fits spells node element text) (hrest : AllFit spells rest element texts) :
      AllFit spells (node :: rest) element (text :: texts)

end

section

variable {spells spells' : Literal → String → Prop}

mutual

/-- What is asked of a literal may be changed as long as the literals of the value keep to it. -/
theorem Fits.mono : ∀ {node : Node} {type text : String}, Fits spells node type text →
    (∀ value ∈ node.literals, ∀ text, spells value text → spells' value text) → Fits spells' node type text
  | _, _, _, .var name, _ => .var name
  | _, _, _, .raw text, _ => .raw text
  | _, _, _, .const htype htext, h => .const htype (List.forall_mem_singleton.1 h _ htext)
  | _, _, _, .array helements, h => .array (helements.mono h)
  | _, _, _, .object helements, h => .object (helements.mono h)

theorem AllFit.mono : ∀ {nodes : List Node} {element : String} {texts : List String},
    AllFit spells nodes element texts →
      (∀ value ∈ literalsOfAll nodes, ∀ text, spells value text → spells' value text) →
        AllFit spells' nodes element texts
  | _, _, _, .nil element, _ => .nil element
  | _, _, _, .cons hnode hrest, h =>
    have hparts := List.forall_mem_append.1 h
    .cons (hnode.mono hparts.1) (hrest.mono hparts.2)

end

mutual

/-- Each literal of a value that fits is spelled. -/
theorem Fits.exists_spells : ∀ {node : Node} {type text : String}, Fits spells node type text →
    ∀ value ∈ node.literals, ∃ text, spells value text
  | _, _, _, .var _ | _, _, _, .raw _ => by simp [literals]
  | _, _, _, .const _ htext => List.forall_mem_singleton.2 ⟨_, htext⟩
  | _, _, _, .array helements | _, _, _, .object helements => helements.exists_spells

theorem AllFit.exists_spells : ∀ {nodes : List Node} {element : String} {texts : List String},
    AllFit spells nodes element texts → ∀ value ∈ literalsOfAll nodes, ∃ text, spells value text
  | _, _, _, .nil _ => by simp [literalsOfAll]
  | _, _, _, .cons hnode hrest =>
    List.forall_mem_append.2 ⟨hnode.exists_spells, hrest.exists_spells⟩

end

end

/-! ### The types that are picked -/

/-- The types of the locals that a value may be assigned to, an array as it is created. -/
def javaTypes : Node → List String
  | .const value => value.javaTypes
  | .array elements => [elementType elements ++ "[]", "Object"]
  | _ => ["Object"]

theorem object_mem (node : Node) : "Object" ∈ node.javaTypes := by
  cases node with
  | const value => cases value <;> simp [javaTypes, Literal.javaTypes]
  | _ => simp [javaTypes]

/-- **The element type of an array admits every element.** -/
theorem elementType_mem {elements : List Node} {node : Node} (h : node ∈ elements) :
    elementType elements ∈ node.javaTypes := by
  unfold elementType
  split
  · exact object_mem node
  · exact object_mem node
  · next values _ hvalues =>
    obtain ⟨value, hvalue, hnode⟩ := exists_mem_of_forall₂ (mapM_eq_some_iff.1 hvalues).flip h
    obtain rfl := literal?_eq_some_iff.1 hnode
    split_ifs with hbool hnumber htext
    · have hsort := List.all_eq_true.1 hbool value hvalue
      cases value <;> simp_all [javaTypes, Literal.javaTypes, Literal.isBool]
    · have hsort := List.all_eq_true.1 hnumber value hvalue
      cases value <;> simp_all [javaTypes, Literal.javaTypes, Literal.isNumber]
    · have hsort := List.all_eq_true.1 htext value hvalue
      cases value <;> simp_all [javaTypes, Literal.javaTypes, Literal.isText]
    · exact object_mem _

mutual

/-- **The types are picked so that they admit the values**, at every depth of an array. -/
theorem fits_java : ∀ {node : Node} {type text : String}, node.java = .ok text →
    type ∈ node.javaTypes → Fits Literal.Written node type text
  | .var name, type, text, hjava, htype => by
    cases hjava
    rw [List.mem_singleton.1 htype]
    exact .var name
  | .raw text, type, _, hjava, htype => by
    cases hjava
    rw [List.mem_singleton.1 htype]
    exact .raw text
  | .const value, type, text, hjava, htype => .const htype hjava
  | .array elements, type, text, hjava, htype => by
    obtain ⟨texts, htexts, h⟩ := bind_eq_ok_iff.1 hjava
    cases h
    have helements := allFit_java htexts fun node hnode => elementType_mem hnode
    rcases List.mem_cons.1 htype with rfl | htype
    · exact .array helements
    · rw [List.mem_singleton.1 htype]
      exact .object helements
  | .blank, _, _, h, _ | .call _ _, _, _, h, _ | .assign _ _, _, _, h, _ | .evidence _ _, _, _, h, _
  | .choice _ _ _ _ _ _, _, _, h, _ | .query _, _, _, h, _ | .program _, _, _, h, _ => by cases h

theorem allFit_java : ∀ {nodes : List Node} {element : String} {texts : List String},
    javaAll nodes = .ok texts → (∀ node ∈ nodes, element ∈ node.javaTypes) →
      AllFit Literal.Written nodes element texts
  | [], element, _, hjava, _ => by
    cases hjava
    exact .nil element
  | node :: rest, element, _, hjava, htype => by
    obtain ⟨text, htext, h⟩ := bind_eq_ok_iff.1 hjava
    obtain ⟨texts, htexts, h⟩ := bind_eq_ok_iff.1 h
    cases h
    obtain ⟨hnode, hrest⟩ := List.forall_mem_cons.1 htype
    exact .cons (fits_java htext hnode) (allFit_java htexts hrest)

end

theorem Fits.inRange {node : Node} {type text : String} (h : Fits Literal.Spells node type text) :
    ∀ value ∈ node.literals, value.InRange := by
  intro value hvalue
  obtain ⟨text, htext⟩ := h.exists_spells value hvalue
  exact htext.inRange

/-- **A value fits the type that is picked for it if and only if all its numbers are in range.** -/
theorem fits_iff {node : Node} {type text : String} (hjava : node.java = .ok text)
    (htype : type ∈ node.javaTypes) :
    Fits Literal.Spells node type text ↔ ∀ value ∈ node.literals, value.InRange := by
  refine ⟨Fits.inRange, fun h => ?_⟩
  exact (fits_java hjava htype).mono fun value hvalue text htext => htext.spells (h value hvalue)

end Node

/-! ### The locals of a program -/

/-- Does the statement declare a local? -/
def Java.Statement.isLocal : Java.Statement → Bool
  | .declareLocal .. => true
  | _ => false

namespace Compiler

open Java (Statement)
open Trace

/-- The literal or array that a statement assigns, with the name. -/
def assignedValue? : Place × Node → Option (String × Node)
  | (.within _, .assign name (.const value)) => some (name, .const value)
  | (.within _, .assign name (.array elements)) => some (name, .array elements)
  | _ => none

/-- The literals and arrays that a body assigns, at every depth, each with its name. -/
def assignedValues (body : List Node) : List (String × Node) :=
  (occurrences .top body).filterMap assignedValue?

/-- The statement declares a local for the assignment, of a type that is picked for its value. -/
inductive DeclaresLocal : String × Node → Statement → Prop
  | intro {name type text : String} {init : Node} (hjava : init.java = .ok text)
      (htype : type ∈ init.javaTypes) : DeclaresLocal (name, init) (.declareLocal type name text)

theorem forall₂_declaresLocal_of_codes {c : Compiler} {occurrence : Place × Node} {piece : List Statement}
    (h : Codes c occurrence piece) :
    List.Forall₂ DeclaresLocal (assignedValue? occurrence).toList (piece.filter Statement.isLocal) := by
  cases h with
  | literal htype htext => exact .cons (.intro htext (Literal.localType_mem htype)) .nil
  | array htext => exact .cons (.intro htext List.mem_cons_self) .nil
  | merge type hfactor =>
    cases hfactor
    exact .nil
  | evidence hstates =>
    cases hstates with
    | plain kind => cases kind <;> exact .nil
    | @call _ _ _ kind => cases kind <;> exact .nil
  | _ => exact .nil

/-- The locals in the code are those of the literals and arrays that are assigned, one by one. -/
theorem forall₂_declaresLocal {c : Compiler} {occurrences : List (Place × Node)}
    {pieces : List (List Statement)} (h : List.Forall₂ (Codes c) occurrences pieces) :
    List.Forall₂ DeclaresLocal (occurrences.filterMap assignedValue?)
      (pieces.flatten.filter Statement.isLocal) := by
  rw [List.filterMap_eq_flatMap_toList]
  induction h with
  | nil => exact .nil
  | cons hpiece _ ih =>
    rw [List.flatten_cons, List.filter_append, List.flatMap_cons]
    exact List.rel_append (forall₂_declaresLocal_of_codes hpiece) ih

/-- **A local fits its type if and only if the numbers in its value are in range.**  In the code of an accepted
program the locals are those of the literals and arrays that the program assigns, at every depth and in their
order.  Each has a type that admits its value, with an element type that admits every element of an array at
every depth.  Its text is what Java takes for the value, too, if and only if each integer in the value has at
most thirty-two bits and each double is finite. -/
theorem locals_fit_iff_inRange {c : Compiler} {body : List Node} {output : List Statement}
    (hbody : Node.Body body) (h : (c.statements body).result = .ok output) :
    List.Forall₂ (fun (assignment : String × Node) statement => ∃ type text,
        statement = .declareLocal type assignment.1 text ∧
        Node.Fits Literal.Written assignment.2 type text ∧
        (Node.Fits Literal.Spells assignment.2 type text ↔ ∀ value ∈ assignment.2.literals, value.InRange))
      (assignedValues body) (output.filter Statement.isLocal) := by
  obtain ⟨e, he, rfl⟩ := (result_statements_eq_ok_iff hbody).1 h
  obtain ⟨pieces, hpieces, hcodes⟩ := exists_pieces_of_emits he
  rw [hpieces]
  refine (forall₂_declaresLocal hcodes).imp ?_
  rintro _ _ ⟨hjava, htype⟩
  exact ⟨_, _, rfl, Node.fits_java hjava htype, Node.fits_iff hjava htype⟩

theorem locals_fit_iff_inRange_nested :
    ∃ body, Node.Body body ∧ ((Session.builtin {}).compiler.statements body).result =
        .ok [.declareLocal "double" "p" "1e-05",
          .declareLocal "Object[]" "x" "new Object[] \x7bnew double[] \x7b0.5, -2147483648\x7d, null\x7d"] ∧
      Node.Fits Literal.Spells
        (.array [.array [.const (.float 0.5), .const (.int (-2147483648))], .const .null]) "Object[]"
        "new Object[] \x7bnew double[] \x7b0.5, -2147483648\x7d, null\x7d" := by
  let body : List Node := [.assign "p" (.const (.float 0.00001)),
    .assign "x" (.array [.array [.const (.float 0.5), .const (.int (-2147483648))], .const .null])]
  have hbody : Node.Body body :=
    .assign (by decide) (.const _) (.assign (by decide)
      (.array (.array (.const _ (.const _ .nil)) (.const _ .nil))) .nil)
  obtain ⟨output, h, rfl⟩ := Factor.exists_eq_ok_of_toOption_map
    (show ((Session.builtin {}).compiler.statements body).result.toOption.map id =
      some [.declareLocal "double" "p" "1e-05",
        .declareLocal "Object[]" "x" "new Object[] \x7bnew double[] \x7b0.5, -2147483648\x7d, null\x7d"] by
      decide +kernel)
  refine ⟨body, hbody, h, ?_⟩
  obtain _ | ⟨-, _ | ⟨⟨_, _, heq, -, hfits⟩, -⟩⟩ := locals_fit_iff_inRange hbody h
  cases heq
  exact hfits.2 (by decide +kernel)

/-- An integer of more than thirty-two bits is written out as it is, and so is an infinity. -/
theorem not_fits_of_size :
    ∃ body, Node.Body body ∧ ((Session.builtin {}).compiler.statements body).result =
        .ok [.declareLocal "int" "x" "3000000000", .declareLocal "double[]" "y" "new double[] \x7binf\x7d"] ∧
      ¬ Node.Fits Literal.Spells (.const (.int 3000000000)) "int" "3000000000" ∧
      ¬ Node.Fits Literal.Spells (.array [.const (.float (1.0 / 0.0))]) "double[]"
        "new double[] \x7binf\x7d" := by
  let body : List Node := [.assign "x" (.const (.int 3000000000)),
    .assign "y" (.array [.const (.float (1.0 / 0.0))])]
  have hbody : Node.Body body :=
    .assign (by decide) (.const _) (.assign (by decide) (.array (.const _ .nil)) .nil)
  obtain ⟨output, h, rfl⟩ := Factor.exists_eq_ok_of_toOption_map
    (show ((Session.builtin {}).compiler.statements body).result.toOption.map id =
      some [.declareLocal "int" "x" "3000000000", .declareLocal "double[]" "y" "new double[] \x7binf\x7d"] by
      decide +kernel)
  refine ⟨body, hbody, h, fun hfits => ?_, fun hfits => ?_⟩
  · exact absurd (hfits.inRange _ List.mem_cons_self) (by decide)
  · exact absurd (hfits.inRange _ List.mem_cons_self) (by decide +kernel)

end Compiler

end TraceGraph
