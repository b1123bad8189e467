import FunctionAdapters.DocComment
import FunctionAdapters.Proofs.Text.Segments
import Mathlib.Data.List.Forall2

/-!
# The lines of a doc comment

A comment has a first line, a line for each line of the documentation, and a last line, and these
can be read back up to carriage returns at the ends of lines: `lines_kept`.

Nothing is escaped, so the documentation may close the comment.  It does so by a line that holds an
asterisk and a slash, and by one that starts with a slash, which then stands right after the asterisk
of the margin (`comment_closed_early`).  The main statement `closedAtEnd_iff` says that nothing else
closes a comment before its end.
-/

namespace FunctionAdapters.DocComment

open Text

/-! ## The text as lines -/

/-- A line of documentation in the comment, without its line break. -/
def row (content : List Char) : List Char := margin ++ trimEnd '\r' content

def rows (raw : String) : List (List Char) :=
  "    /**".toList :: (segments '\n' raw.toList).map row

theorem toList_render (raw : String) :
    (render raw).toList = (rows raw).flatMap (· ++ ['\n']) ++ closing := by
  rw [render, String.toList_ofList, rows, List.flatMap_cons, List.flatMap_map]
  rfl

theorem newline_not_mem_rows {raw : String} : ∀ line ∈ rows raw, '\n' ∉ line := by
  intro line hline
  rcases List.mem_cons.1 hline with rfl | hline
  · decide
  · obtain ⟨content, hcontent, rfl⟩ := List.mem_map.1 hline
    rw [row, List.mem_append, not_or]
    refine ⟨by decide, fun hmem => not_mem_of_mem_segments hcontent ?_⟩
    exact (isPrefix_trimEnd '\r' content).mem hmem

theorem segments_render (raw : String) :
    segments '\n' (render raw).toList = rows raw ++ [closing] := by
  rw [toList_render, segments_lines newline_not_mem_rows, segments_of_not_mem (by decide)]

theorem render_eq_iff_rows {raw raw' : String} : render raw = render raw' ↔ rows raw = rows raw' := by
  constructor
  · intro h
    have hsegments : segments '\n' (render raw).toList = segments '\n' (render raw').toList := by
      rw [h]
    rw [segments_render, segments_render] at hsegments
    exact List.append_cancel_right hsegments
  · intro h
    rw [← String.toList_inj, toList_render, toList_render, h]

theorem row_eq_iff {a b : List Char} : row a = row b ↔ SameUpToEnd '\r' a b := by
  rw [row, row, List.append_right_inj, sameUpToEnd_iff]

/-- **A comment keeps the lines.**  It consists of a first line, the lines of the documentation
behind the margin and without their trailing carriage returns, and a last line.  So two texts have
one comment if and only if their lines differ at most in trailing carriage returns. -/
theorem lines_kept (raw : String) :
    (∃ inner, segments '\n' (render raw).toList =
        "    /**".toList :: inner ++ ["     */".toList] ∧
      inner.map (List.dropPrefix? · margin) =
        (segments '\n' raw.toList).map fun content => some (trimEnd '\r' content)) ∧
    ∀ raw', render raw = render raw' ↔
      List.Forall₂ (SameUpToEnd '\r') (segments '\n' raw.toList) (segments '\n' raw'.toList) := by
  constructor
  · refine ⟨(segments '\n' raw.toList).map row, segments_render raw, ?_⟩
    rw [List.map_map]
    refine List.map_congr_left fun content _ => ?_
    exact List.dropPrefix?_append_of_beq _ (beq_self_eq_true margin)
  · intro raw'
    -- rows are equal if the lines differ in carriage returns at their end only
    have hsame : List.Forall₂ (SameUpToEnd '\r') (segments '\n' raw.toList)
        (segments '\n' raw'.toList) ↔
        List.Forall₂ (fun a b => row a = row b) (segments '\n' raw.toList)
          (segments '\n' raw'.toList) := by
      simp only [row_eq_iff]
    rw [hsame, render_eq_iff_rows, rows, rows, List.cons_inj_right,
      ← List.forall₂_map_right_iff, ← List.forall₂_map_left_iff, List.forall₂_eq_eq_eq]

/-! ## Where the comment is closed -/

/-- What closes a comment. -/
def mark : List Char := ['*', '/']

/-- A text that closes a comment with its last two characters and not before. -/
def ClosedAtEnd (text : List Char) : Prop :=
  mark <:+ text ∧ ∀ before after, text = before ++ mark ++ after → after = []

theorem closedAtEnd_iff_dropLast {text : List Char} (h : mark <:+ text) :
    ClosedAtEnd text ↔ ¬ mark <:+: text.dropLast := by
  have hne : text ≠ [] := by
    rintro rfl
    exact absurd (List.suffix_nil.1 h) (by decide)
  constructor
  · rintro ⟨-, hlast⟩ ⟨before, after, htext⟩
    have htext' : text = before ++ mark ++ (after ++ [text.getLast hne]) := by
      rw [← List.append_assoc, htext, List.dropLast_append_getLast]
    exact absurd (hlast before _ htext') (by simp)
  · refine fun hnot => ⟨h, fun before after htext => ?_⟩
    by_contra hafter
    refine hnot ⟨before, after.dropLast, ?_⟩
    rw [htext, List.dropLast_append_of_ne_nil hafter]

theorem mark_suffix_render (raw : String) : mark <:+ (render raw).toList := by
  rw [toList_render]
  exact (by decide : mark <:+ closing).trans (List.suffix_append _ _)

theorem mark_infix_render_dropLast_iff {raw : String} :
    mark <:+: (render raw).toList.dropLast ↔
      ∃ content ∈ segments '\n' raw.toList, mark <:+: row content := by
  have hmark : '\n' ∉ mark := by decide
  -- neither the opening line nor what is left of the last one holds the mark
  have hfirst : ¬ mark <:+: "    /**".toList := by decide
  have hlast : ¬ mark <:+: closing.dropLast := by decide
  rw [toList_render, List.dropLast_append_of_ne_nil (by decide), infix_iff_segments hmark,
    segments_lines newline_not_mem_rows, segments_of_not_mem (by decide : '\n' ∉ closing.dropLast)]
  constructor
  · rintro ⟨line, hline, hinfix⟩
    rcases List.mem_append.1 hline with hline | hline
    · rcases List.mem_cons.1 hline with rfl | hline
      · exact absurd hinfix hfirst
      · obtain ⟨content, hcontent, rfl⟩ := List.mem_map.1 hline
        exact ⟨content, hcontent, hinfix⟩
    · exact absurd (List.mem_singleton.1 hline ▸ hinfix) hlast
  · rintro ⟨content, hcontent, hinfix⟩
    have hrow : row content ∈ rows raw := List.mem_cons_of_mem _ (List.mem_map_of_mem hcontent)
    exact ⟨row content, List.mem_append_left _ hrow, hinfix⟩

/-- The margin ends in an asterisk, which a slash at the start of a line makes a mark. -/
theorem mark_infix_row_iff {content : List Char} :
    mark <:+: row content ↔ mark <:+: content ∨ content.head? = some '/' := by
  have hmargin : mark <:+: row content ↔
      mark <:+: trimEnd '\r' content ∨ (trimEnd '\r' content).head? = some '/' := by
    have hspaces : margin = [' ', ' ', ' ', ' ', ' ', '*'] := by decide
    rw [row, hspaces]
    generalize trimEnd '\r' content = trimmed
    simp only [mark, List.cons_append, List.nil_append, List.infix_cons_iff, List.cons_prefix_cons]
    cases trimmed with
    | nil => simp
    | cons first rest => simp [or_comm, eq_comm]
  rw [hmargin, head?_trimEnd_iff (by decide)]
  have htrim : ['*'] ++ ['/'] <:+: trimEnd '\r' content ↔ ['*'] ++ ['/'] <:+: content :=
    infix_trimEnd_iff (by decide : '/' ≠ '\r')
  exact or_congr htrim Iff.rfl

/-- **Where a comment is closed.**  The comment for a text ends in the mark that closes it, and does
not hold it before if and only if no line of the text holds it or starts with a slash. -/
theorem closedAtEnd_iff (raw : String) :
    mark <:+ (render raw).toList ∧
      (ClosedAtEnd (render raw).toList ↔
        ∀ content ∈ segments '\n' raw.toList,
          ¬ mark <:+: content ∧ content.head? ≠ some '/') := by
  refine ⟨mark_suffix_render raw, ?_⟩
  rw [closedAtEnd_iff_dropLast (mark_suffix_render raw), mark_infix_render_dropLast_iff]
  simp only [mark_infix_row_iff, not_exists, not_and, not_or, ne_eq]

/-- **Documentation may close its comment.**  What follows the mark in the text is outside. -/
theorem comment_closed_early : ¬ ClosedAtEnd (render "Ends */ here").toList := by
  rintro ⟨-, hlast⟩
  have hafter := hlast "    /**\n     *Ends ".toList " here\n     */".toList (by decide)
  exact absurd hafter (by decide)

end FunctionAdapters.DocComment
