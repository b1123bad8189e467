/-!
Texts cut at a separator character.  `segments` lists the pieces between the separators, one more
than there are separators, and `joined` puts pieces back: `joined_segments` says that cutting and
joining loses nothing.
-/

namespace FunctionAdapters.Text

/-- The pieces of a text between the occurrences of `sep`; the empty text has one empty piece. -/
def segments (sep : Char) : List Char → List (List Char)
  | [] => [[]]
  | c :: cs =>
    if c = sep then [] :: segments sep cs
    else
      match segments sep cs with
      | [] => [[c]]
      | piece :: rest => (c :: piece) :: rest

/-- The pieces in order with `sep` between neighbours. -/
def joined (sep : Char) : List (List Char) → List Char
  | [] => []
  | [piece] => piece
  | piece :: rest => piece ++ sep :: joined sep rest

theorem segments_ne_nil (sep : Char) (cs : List Char) : segments sep cs ≠ [] := by
  cases cs with
  | nil => simp [segments]
  | cons c cs =>
    unfold segments
    split
    · simp
    · split <;> simp

theorem joined_segments (sep : Char) (cs : List Char) : joined sep (segments sep cs) = cs := by
  induction cs with
  | nil => rfl
  | cons c cs ih =>
    unfold segments
    split
    · next h =>
      cases hs : segments sep cs with
      | nil => exact absurd hs (segments_ne_nil sep cs)
      | cons piece rest => rw [hs] at ih; simp [joined, ih, h]
    · cases hs : segments sep cs with
      | nil => exact absurd hs (segments_ne_nil sep cs)
      | cons piece rest =>
        rw [hs] at ih
        cases rest with
        | nil => simpa [joined] using ih
        | cons next more => simpa [joined] using ih

theorem segments_of_not_mem {sep : Char} {cs : List Char} (h : sep ∉ cs) :
    segments sep cs = [cs] := by
  induction cs with
  | nil => rfl
  | cons c cs ih =>
    rw [List.mem_cons, not_or] at h
    rw [segments, if_neg (Ne.symm h.1), ih h.2]

/-- A piece ends where the next separator is. -/
theorem segments_append {sep : Char} {piece : List Char} (h : sep ∉ piece) (cs : List Char) :
    segments sep (piece ++ sep :: cs) = piece :: segments sep cs := by
  induction piece with
  | nil => rw [List.nil_append, segments, if_pos rfl]
  | cons c piece ih =>
    rw [List.mem_cons, not_or] at h
    rw [List.cons_append, segments, if_neg (Ne.symm h.1), ih h.2]

/-- Joining and cutting loses nothing, if there is a piece and none holds a separator. -/
theorem segments_joined {sep : Char} {pieces : List (List Char)} (hne : pieces ≠ [])
    (h : ∀ piece ∈ pieces, sep ∉ piece) : segments sep (joined sep pieces) = pieces := by
  induction pieces with
  | nil => exact absurd rfl hne
  | cons piece rest ih =>
    have hpiece : sep ∉ piece := h piece List.mem_cons_self
    cases rest with
    | nil => exact segments_of_not_mem hpiece
    | cons next more =>
      have hrest : segments sep (joined sep (next :: more)) = next :: more :=
        ih (List.cons_ne_nil next more) fun p hp => h p (List.mem_cons_of_mem piece hp)
      rw [joined, segments_append hpiece, hrest]
      exact List.cons_ne_nil next more

theorem joined_eq_intercalate (sep : Char) (pieces : List (List Char)) :
    joined sep pieces = [sep].intercalate pieces := by
  induction pieces with
  | nil => rfl
  | cons piece rest ih =>
    cases rest with
    | nil => rw [List.intercalate_singleton, joined]
    | cons next more =>
      rw [List.intercalate_cons_cons, joined, ih, List.append_assoc, List.singleton_append]
      exact List.cons_ne_nil next more

/-- The last piece. -/
def lastSegment (sep : Char) (cs : List Char) : List Char :=
  (segments sep cs).getLastD []

/-- A text without its trailing occurrences of `c`. -/
def trimEnd (c : Char) (cs : List Char) : List Char :=
  (cs.reverse.dropWhile (· == c)).reverse

end FunctionAdapters.Text
