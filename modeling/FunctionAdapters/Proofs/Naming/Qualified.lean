import FunctionAdapters.ClassName
import FunctionAdapters.Proofs.Text.Segments

/-!
# Class names taken apart and put together

A dotted name is taken apart before its first piece that starts with an uppercase character, or
before its last piece if there is none (`exists_cut`).  What is then the simple path is not taken
apart any further, and putting the halves together gives the name back, unless nothing but a dot at
the start of the name is before the cut (`qualified_ofQualifiedWith`).

The main statement `ofQualified_laws` holds whichever characters are taken for uppercase ones.
-/

namespace FunctionAdapters.ClassName

open Text

variable {upper : Char → Bool}

/-! ## Where a name is taken apart -/

def Capital (upper : Char → Bool) (piece : List Char) : Prop := piece.head?.any upper = true

theorem packageLength_append {front rest : List (List Char)} {first : List Char}
    (hfront : ∀ piece ∈ front, ¬ Capital upper piece) (hcut : Capital upper first ∨ rest = []) :
    packageLength upper (front ++ first :: rest) = front.length := by
  have hnone : front.findIdx? (fun piece => piece.head?.any upper) = none := by
    simpa [Capital] using hfront
  rw [packageLength, List.findIdx?_append, hnone, Option.none_or, List.findIdx?_cons]
  by_cases hfirst : Capital upper first
  · have htrue : first.head?.any upper = true := hfirst
    simp [htrue]
  · have hfalse : first.head?.any upper = false := by simpa [Capital] using hfirst
    have hrest : rest = [] := hcut.resolve_left hfirst
    simp [hfalse, hrest]

theorem exists_split (upper : Char → Bool) {pieces : List (List Char)} (h : pieces ≠ []) :
    ∃ front first rest, pieces = front ++ first :: rest ∧
      (∀ piece ∈ front, ¬ Capital upper piece) ∧ (Capital upper first ∨ rest = []) := by
  induction pieces with
  | nil => exact absurd rfl h
  | cons piece pieces ih =>
    by_cases hstop : Capital upper piece ∨ pieces = []
    · exact ⟨[], piece, pieces, rfl, by simp, hstop⟩
    · rw [not_or] at hstop
      obtain ⟨front, first, rest, rfl, hfront, hcut⟩ := ih hstop.2
      exact ⟨piece :: front, first, rest, rfl, List.forall_mem_cons.2 ⟨hstop.1, hfront⟩, hcut⟩

/-- **The cut.**  No piece before it starts with an uppercase character, and the one after it does or
is the last. -/
theorem exists_cut (upper : Char → Bool) (text : String) :
    ∃ front first rest, segments '.' text.toList = front ++ first :: rest ∧
      (∀ piece ∈ front, ¬ Capital upper piece) ∧ (Capital upper first ∨ rest = []) ∧
      ofQualifiedWith upper text =
        ⟨String.ofList (joined '.' front), String.ofList (joined '.' (first :: rest))⟩ := by
  obtain ⟨front, first, rest, hpieces, hfront, hcut⟩ :=
    exists_split upper (segments_ne_nil '.' text.toList)
  refine ⟨front, first, rest, hpieces, hfront, hcut, ?_⟩
  simp only [ofQualifiedWith, hpieces, packageLength_append hfront hcut, List.take_left,
    List.drop_left]

theorem ofQualifiedWith_of_simple {text : String} {first : List Char} {rest : List (List Char)}
    (h : segments '.' text.toList = first :: rest) (hcut : Capital upper first ∨ rest = []) :
    ofQualifiedWith upper text = ⟨"", text⟩ := by
  have hlength : packageLength upper (segments '.' text.toList) = 0 := by
    rw [h]
    exact packageLength_append (List.forall_mem_nil _) hcut
  simp only [ofQualifiedWith, hlength, List.take_zero, List.drop_zero, joined_segments,
    String.ofList_toList]
  rfl

/-! ## The halves -/

theorem not_mem_of_mem_pieces {text : String} {pieces : List (List Char)}
    (h : segments '.' text.toList = pieces) : ∀ piece ∈ pieces, '.' ∉ piece :=
  fun _ hpiece => not_mem_of_mem_segments (h ▸ hpiece)

theorem not_capital_of_mem_package (upper : Char → Bool) (text : String) :
    ∀ piece ∈ segments '.' (ofQualifiedWith upper text).package.toList, ¬ Capital upper piece := by
  obtain ⟨front, first, rest, hpieces, hfront, -, hname⟩ := exists_cut upper text
  rw [hname, String.toList_ofList]
  by_cases hnil : front = []
  · -- an empty package is one empty piece
    rw [hnil]
    simp [joined, segments, Capital]
  · rwa [segments_joined hnil fun piece hpiece =>
      not_mem_of_mem_pieces hpieces piece (List.mem_append_left _ hpiece)]

theorem capital_or_single_simple (upper : Char → Bool) (text : String) :
    Capital upper (ofQualifiedWith upper text).simple.toList ∨
      '.' ∉ (ofQualifiedWith upper text).simple.toList := by
  obtain ⟨front, first, rest, hpieces, -, hcut, hname⟩ := exists_cut upper text
  rw [hname, String.toList_ofList]
  by_cases hrest : rest = []
  · right
    rw [hrest]
    exact not_mem_of_mem_pieces hpieces first (by simp)
  · left
    have hfirst : Capital upper first := hcut.resolve_right hrest
    rw [joined_cons hrest]
    cases first with
    | nil => simp [Capital] at hfirst
    | cons c piece => exact hfirst

/-! ## The halves put together -/

/-- **Putting together what was taken apart** gives the name back, or the name without a dot at its
start, which then is a simple path. -/
theorem qualified_ofQualifiedWith (upper : Char → Bool) (text : String) :
    (ofQualifiedWith upper text).qualified = text ∨
      ∃ simple : String, text.toList = '.' :: simple.toList ∧
        ofQualifiedWith upper text = ⟨"", simple⟩ ∧ ofQualifiedWith upper simple = ⟨"", simple⟩ := by
  obtain ⟨front, first, rest, hpieces, -, hcut, hname⟩ := exists_cut upper text
  have htext : joined '.' (front ++ first :: rest) = text.toList := by
    rw [← hpieces, joined_segments]
  rw [hname]
  by_cases hnil : joined '.' front = []
  · rcases joined_eq_nil_iff.1 hnil with rfl | rfl
    · -- there is no package
      left
      rw [List.nil_append] at htext
      rw [htext, String.ofList_toList]
      rfl
    · -- the package is the empty piece before a dot
      right
      rw [joined_append (List.cons_ne_nil _ _) (List.cons_ne_nil _ _)] at htext
      have hsimple : segments '.' (joined '.' (first :: rest)) = first :: rest :=
        segments_joined (List.cons_ne_nil first rest) fun piece hpiece =>
          not_mem_of_mem_pieces hpieces piece (List.mem_append_right _ hpiece)
      refine ⟨String.ofList (joined '.' (first :: rest)), ?_, rfl, ?_⟩
      · rw [String.toList_ofList, ← htext]
        rfl
      · exact ofQualifiedWith_of_simple (by rwa [String.toList_ofList]) hcut
  · left
    have hfront : front ≠ [] := by
      rintro rfl
      exact hnil rfl
    have hpackage : String.ofList (joined '.' front) ≠ "" := by
      rw [ne_eq, ← String.toList_inj, String.toList_ofList]
      exact hnil
    rw [joined_append hfront (List.cons_ne_nil first rest)] at htext
    rw [qualified, if_neg hpackage, ← String.toList_inj, String.toList_append,
      String.toList_append, String.toList_ofList, String.toList_ofList, ← htext]
    simp

/-- **Taking names apart and putting them together.**  A name that does not start with a dot is put
together again as it was, and every name, once put together, is taken apart in the same way.  No
piece of the package starts with an uppercase character; the simple path does, or is a single
piece. -/
theorem ofQualified_laws (upper : Char → Bool) (text : String) :
    (text.toList.head? ≠ some '.' → (ofQualifiedWith upper text).qualified = text) ∧
    ofQualifiedWith upper (ofQualifiedWith upper text).qualified = ofQualifiedWith upper text ∧
    (∀ piece ∈ segments '.' (ofQualifiedWith upper text).package.toList,
      ¬ Capital upper piece) ∧
    (Capital upper (ofQualifiedWith upper text).simple.toList ∨
      '.' ∉ (ofQualifiedWith upper text).simple.toList) := by
  refine ⟨?_, ?_, not_capital_of_mem_package upper text, capital_or_single_simple upper text⟩
  · intro hdot
    rcases qualified_ofQualifiedWith upper text with h | ⟨simple, htext, -, -⟩
    · exact h
    · rw [htext] at hdot
      exact absurd rfl hdot
  · rcases qualified_ofQualifiedWith upper text with h | ⟨simple, -, hname, hsimple⟩
    · rw [h]
    · rw [hname]
      exact hsimple

/-- A nested class of a package, whose two capital pieces stay together. -/
theorem nestedState_qualified :
    "java.lang.Thread.State".toList.head? ≠ some '.' ∧
      ofQualified "java.lang.Thread.State" = ⟨"java.lang", "Thread.State"⟩ ∧
      (ofQualified "java.lang.Thread.State").qualified = "java.lang.Thread.State" :=
  ⟨by decide, by decide, (ofQualified_laws isUppercase _).1 (by decide)⟩

end FunctionAdapters.ClassName
