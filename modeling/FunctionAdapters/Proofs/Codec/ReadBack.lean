import FunctionAdapters.Proofs.Codec.Metadata

/-!
Classes and shapes are read back from their texts: from what is printed for them
(`printed_read_back`), and, other than in print, from everything of their form
(`rearranged_read_back`).  Both follow from the codes of classes and shapes; a printed value is of
its own form.

Nesting is limited where values are read.  A key that is no field is skipped with all that stands
under it, so there the limit does not apply.
-/

namespace FunctionAdapters

open Json Json.Decoder

theorem Json.Codes.printed {α : Type} {d : Decoder α} {form : Form} {j : Json} {a : α}
    (h : Codes (maxNesting + 2) d form j a) (hdepth : j.depth ≤ maxNesting) :
    decodeText d j.compact = .ok a ∧ decodeText d j.pretty = .ok a := by
  have hform := h.holdsOf maxNesting hdepth
  constructor
  · exact h.decodes.text (by omega) hform h.sized (by simpa [compact] using spells_chars j)
  · exact h.decodes.text (by omega) hform h.sized (by simpa [pretty] using spells_prettyChars j 0)

/-- **What is printed is read back:** every class, and every shape on its own, from the compact and
from the indented text, as long as the printed value is not nested deeper than values are read. -/
theorem printed_read_back :
    (∀ cls : ClassMetadata, cls.toJson.depth ≤ maxNesting →
      decodeText ClassMetadata.decoder cls.toJson.compact = .ok cls ∧
        decodeText ClassMetadata.decoder cls.toJson.pretty = .ok cls) ∧
    ∀ s : Shape, s.toJson.depth ≤ maxNesting →
      decodeText Shape.decoder s.toJson.compact = .ok s ∧
        decodeText Shape.decoder s.toJson.pretty = .ok s :=
  ⟨fun cls hdepth => cls.codes_form.printed hdepth, fun s hdepth => s.codes.printed hdepth⟩

/-- The shape `List<? extends C0>`. -/
def sourceType : Shape := .ofClass ⟨"java.util", "List"⟩ [.wildcardExtends (.typeVar ⟨0⟩)]

def fillMethod : Operation where
  kind := .instanceMethod
  name := "fill"
  parameters := [⟨"source", sourceType⟩]
  doc := some "Takes all of \"source\"."

def box : ClassMetadata where
  name := ⟨"demo", "Box"⟩
  typeParams := [⟨0⟩]
  typeVars := ⟨[{ name := "T" }]⟩
  operations := [fillMethod]

theorem box_read_back :
    box.toJson.depth ≤ maxNesting ∧ sourceType.toJson.depth ≤ maxNesting ∧
      decodeText ClassMetadata.decoder box.toJson.compact = .ok box ∧
      decodeText Shape.decoder sourceType.toJson.pretty = .ok sourceType := by
  have hbox : box.toJson.depth ≤ maxNesting := by decide
  have htype : sourceType.toJson.depth ≤ maxNesting := by decide
  exact ⟨hbox, htype, (printed_read_back.1 box hbox).1, (printed_read_back.2 sourceType htype).2⟩

/-- **In whatever form a class is written, it is read back:** with the fields of records and
wildcards in any order, any values under other keys among them, fields left out that have their
usual value, and any blanks between the tokens.  The limit on nesting is one on what is read
(`room`); a text that keeps to it altogether will do as well. -/
theorem rearranged_read_back {cls : ClassMetadata} {room : Nat} {j : Json} {text : String}
    (hform : cls.form room j) (hnesting : room ≤ maxNesting ∨ j.depth ≤ maxNesting)
    (hsized : j.Sized) (htext : Spells j text.toList) :
    decodeText ClassMetadata.decoder text = .ok cls := by
  have hcodes := cls.codes_form
  have hread : cls.form maxNesting j := hcodes.flexible hform (min_le_iff.mpr hnesting)
  exact hcodes.decodes.text (by omega) hread hsized htext

/-! ### A class written by hand

The class `box`, with usual values left out, the type of the parameter in front of its name, the
bound in front of its kind, and a further key. -/

def handwrittenWildcard : Json :=
  .object [("wildcard", .object [
    ("bound", .object [("type_variable", .int 0)]),
    ("kind", .string "extends")])]

def handwrittenFill : Json :=
  .object [
    ("kind", .string "instance"),
    ("name", .string "fill"),
    ("parameters", .array [.object [
      ("ty", .object [("declared", .object [
        ("name", .object [("package", .string "java.util"), ("simple", .string "List")]),
        ("args", .array [handwrittenWildcard])])]),
      ("name", .string "source")]]),
    ("doc", .string "Takes all of \"source\".")]

def handwrittenBox : Json :=
  .object [
    ("name", .object [("package", .string "demo"), ("simple", .string "Box")]),
    ("type_params", .array [.int 0]),
    ("type_vars", .array [.object [("name", .string "T")]]),
    ("operations", .array [handwrittenFill]),
    ("since", .object [("major", .int 11)])]

theorem form_handwrittenWildcard :
    (Shape.wildcardExtends (.typeVar ⟨0⟩)).form 3 handwrittenWildcard := by
  refine ⟨2, _, rfl, rfl, 1, _, rfl, rfl,
    ⟨_, [], .keep rfl (.keep ⟨0, _, rfl, rfl, rfl⟩ .none), by simp, .swap _ _ _⟩, ?_⟩
  intro before b after heq _
  have hmem : ("bound", b) ∈ before ++ ("bound", b) :: after := by simp
  rw [← heq] at hmem
  obtain rfl : b = .object [("type_variable", .int 0)] := by simpa using hmem
  decide

theorem form_handwrittenFill : fillMethod.form 9 handwrittenFill := by
  have hname : ClassName.form ⟨"java.util", "List"⟩ 4
      (.object [("package", .string "java.util"), ("simple", .string "List")]) :=
    ⟨3, _, rfl, rfl, _, [], .keep rfl (.keep rfl .none), by simp, .refl _⟩
  have htype : sourceType.form 6 (.object [("declared", .object [
      ("name", .object [("package", .string "java.util"), ("simple", .string "List")]),
      ("args", .array [handwrittenWildcard])])]) :=
    ⟨5, _, rfl, rfl, 4, _, rfl, rfl, _, [],
      .keep hname (.keep ⟨3, _, rfl, rfl, .cons form_handwrittenWildcard .nil⟩ (.drop rfl .none)),
      by simp, .refl _⟩
  exact ⟨8, _, rfl, rfl, _, [],
    .keep rfl (.keep rfl (.keep
      ⟨7, _, rfl, rfl,
        .cons ⟨6, _, rfl, rfl, _, [], .keep rfl (.keep htype .none), by simp, .swap _ _ _⟩ .nil⟩
      (.drop rfl (.drop rfl (.keep rfl (.drop rfl .none)))))),
    by simp, .refl _⟩

theorem form_handwrittenBox : box.form 11 handwrittenBox :=
  ⟨10, _, rfl, rfl, _, [("since", .object [("major", .int 11)])],
    .keep ⟨9, _, rfl, rfl, _, [], .keep rfl (.keep rfl .none), by simp, .refl _⟩
      (.keep ⟨9, _, rfl, rfl, .cons rfl .nil⟩
        (.keep ⟨9, _, rfl, rfl, .cons
            ⟨8, _, rfl, rfl, _, [], .keep rfl (.drop rfl (.drop rfl .none)), by simp, .refl _⟩ .nil⟩
          (.keep ⟨9, _, rfl, rfl, .cons form_handwrittenFill .nil⟩ .none))),
    by simp [FieldForm.needed, FieldForm.optional], .refl _⟩

theorem handwrittenBox_read_back :
    decodeText ClassMetadata.decoder handwrittenBox.compact = .ok box :=
  rearranged_read_back form_handwrittenBox (.inl (by decide)) (by simp [handwrittenBox,
    handwrittenFill, handwrittenWildcard, Sized, ItemsSized, FieldsSized])
    (by simpa [compact] using spells_chars handwrittenBox)

end FunctionAdapters
