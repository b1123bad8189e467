import FunctionAdapters.Text.Segments
import Mathlib.Data.List.DropRight
import Mathlib.Data.List.Infix

/-!
# What the pieces of a text hold

No piece holds the separator, and lines that all end in it are read back as the pieces
(`segments_lines`).  A text without separators occurs in a text exactly if it occurs in one of the
pieces (`infix_iff_segments`): an occurrence never goes across a separator.

Texts that differ at most in how often they end in a character are those with one text left when
these characters are taken away (`sameUpToEnd_iff`).
-/

namespace FunctionAdapters.Text

variable {sep : Char}

/-! ## Pieces -/

theorem exists_segments (sep : Char) (cs : List Char) :
    ∃ first rest, segments sep cs = first :: rest :=
  List.exists_cons_of_ne_nil (segments_ne_nil sep cs)

theorem segments_cons_of_ne {c : Char} {cs first : List Char} {rest : List (List Char)}
    (hc : c ≠ sep) (h : segments sep cs = first :: rest) :
    segments sep (c :: cs) = (c :: first) :: rest := by
  rw [segments, if_neg hc, h]

/-- Characters in front of a text that are no separators belong to the first piece. -/
theorem segments_append_left {front cs first : List Char} {rest : List (List Char)}
    (hfront : sep ∉ front) (h : segments sep cs = first :: rest) :
    segments sep (front ++ cs) = (front ++ first) :: rest := by
  induction front with
  | nil => exact h
  | cons c front ih =>
    rw [List.mem_cons, not_or] at hfront
    exact segments_cons_of_ne (Ne.symm hfront.1) (ih hfront.2)

theorem not_mem_of_mem_segments {cs piece : List Char} (h : piece ∈ segments sep cs) :
    sep ∉ piece := by
  induction cs generalizing piece with
  | nil =>
    obtain rfl := List.mem_singleton.1 h
    exact List.not_mem_nil
  | cons c cs ih =>
    by_cases hc : c = sep
    · rw [segments, if_pos hc, List.mem_cons] at h
      rcases h with rfl | h
      · exact List.not_mem_nil
      · exact ih h
    · obtain ⟨first, rest, hsegments⟩ := exists_segments sep cs
      rw [segments_cons_of_ne hc hsegments, List.mem_cons] at h
      rw [hsegments] at ih
      rcases h with rfl | h
      · rw [List.mem_cons, not_or]
        exact ⟨Ne.symm hc, ih List.mem_cons_self⟩
      · exact ih (List.mem_cons_of_mem first h)

theorem segments_lines {lines : List (List Char)} (h : ∀ line ∈ lines, sep ∉ line)
    (cs : List Char) :
    segments sep (lines.flatMap (· ++ [sep]) ++ cs) = lines ++ segments sep cs := by
  induction lines with
  | nil => rfl
  | cons line lines ih =>
    have hline : sep ∉ line := h line List.mem_cons_self
    have hlines := ih fun l hl => h l (List.mem_cons_of_mem line hl)
    rw [List.flatMap_cons, List.append_assoc, List.append_assoc, List.singleton_append,
      segments_append hline, hlines, List.cons_append]

/-! ## Pieces put together -/

theorem joined_cons {piece : List Char} {rest : List (List Char)} (h : rest ≠ []) :
    joined sep (piece :: rest) = piece ++ sep :: joined sep rest := by
  obtain ⟨next, more, rfl⟩ := List.exists_cons_of_ne_nil h
  rfl

theorem joined_append {front back : List (List Char)} (hfront : front ≠ []) (hback : back ≠ []) :
    joined sep (front ++ back) = joined sep front ++ sep :: joined sep back := by
  induction front with
  | nil => exact absurd rfl hfront
  | cons piece front ih =>
    cases front with
    | nil => exact joined_cons hback
    | cons next more =>
      rw [List.cons_append, joined_cons (by simp), joined_cons (by simp), ih (by simp),
        List.append_assoc, List.cons_append]

theorem joined_eq_nil_iff {pieces : List (List Char)} :
    joined sep pieces = [] ↔ pieces = [] ∨ pieces = [[]] := by
  cases pieces with
  | nil => simp [joined]
  | cons piece rest => cases rest <;> simp [joined]

/-! ## Occurrences -/

theorem isInfix_intercalate {α : Type} {separator l : List α} {ls : List (List α)} (h : l ∈ ls) :
    l <:+: separator.intercalate ls := by
  induction ls with
  | nil => cases h
  | cons first rest ih =>
    cases rest with
    | nil =>
      rw [List.mem_singleton.1 h, List.intercalate_singleton]
    | cons second rest =>
      rw [List.intercalate_cons_cons]
      rcases List.mem_cons.1 h with rfl | h
      · rw [List.append_assoc]
        exact (List.prefix_append l _).isInfix
      · exact (ih h).trans (List.suffix_append _ _).isInfix

theorem isInfix_of_mem_segments {cs piece : List Char} (h : piece ∈ segments sep cs) :
    piece <:+: cs := by
  have hinfix : piece <:+: [sep].intercalate (segments sep cs) := isInfix_intercalate h
  rwa [← joined_eq_intercalate, joined_segments] at hinfix

/-- **An occurrence stays in one piece**, if it holds no separator. -/
theorem infix_iff_segments {mark cs : List Char} (hmark : sep ∉ mark) :
    mark <:+: cs ↔ ∃ piece ∈ segments sep cs, mark <:+: piece := by
  constructor
  · rintro ⟨before, after, rfl⟩
    -- the piece of the occurrence, whatever stands before it
    induction before with
    | nil =>
      obtain ⟨first, rest, hsegments⟩ := exists_segments sep after
      refine ⟨mark ++ first, ?_, (List.prefix_append mark first).isInfix⟩
      rw [List.nil_append, segments_append_left hmark hsegments]
      exact List.mem_cons_self
    | cons c before ih =>
      obtain ⟨piece, hpiece, hinfix⟩ := ih
      rw [List.cons_append, List.cons_append]
      by_cases hc : c = sep
      · rw [segments, if_pos hc]
        exact ⟨piece, List.mem_cons_of_mem [] hpiece, hinfix⟩
      · obtain ⟨first, rest, hsegments⟩ := exists_segments sep (before ++ mark ++ after)
        rw [segments_cons_of_ne hc hsegments]
        rw [hsegments, List.mem_cons] at hpiece
        rcases hpiece with rfl | hpiece
        · exact ⟨c :: piece, List.mem_cons_self, hinfix.trans (List.suffix_cons c piece).isInfix⟩
        · exact ⟨piece, List.mem_cons_of_mem _ hpiece, hinfix⟩
  · rintro ⟨piece, hpiece, hinfix⟩
    exact hinfix.trans (isInfix_of_mem_segments hpiece)

/-! ## Ends that are taken away -/

variable {c : Char}

theorem isPrefix_trimEnd (c : Char) (cs : List Char) : trimEnd c cs <+: cs :=
  List.rdropWhile_prefix _ cs

theorem exists_eq_trimEnd_append (c : Char) (cs : List Char) :
    ∃ n, cs = trimEnd c cs ++ List.replicate n c := by
  have hall : ∀ x ∈ cs.rtakeWhile (· == c), x = c := fun x hx => by
    simpa using List.mem_rtakeWhile_imp hx
  refine ⟨(cs.rtakeWhile (· == c)).length, ?_⟩
  rw [← List.eq_replicate_of_mem hall]
  exact List.rdropWhile_append_rtakeWhile.symm

theorem trimEnd_append_replicate (cs : List Char) (n : Nat) :
    trimEnd c (cs ++ List.replicate n c) = trimEnd c cs := by
  induction n with
  | zero => rw [List.replicate_zero, List.append_nil]
  | succ n ih =>
    rw [List.replicate_succ', ← List.append_assoc, ← ih]
    exact List.rdropWhile_concat_pos _ _ _ (by simp)

/-- Two texts that differ at most in how often they end in a character. -/
def SameUpToEnd (c : Char) (a b : List Char) : Prop :=
  ∃ core m n, a = core ++ List.replicate m c ∧ b = core ++ List.replicate n c

theorem sameUpToEnd_iff {a b : List Char} :
    SameUpToEnd c a b ↔ trimEnd c a = trimEnd c b := by
  constructor
  · rintro ⟨core, m, n, rfl, rfl⟩
    rw [trimEnd_append_replicate, trimEnd_append_replicate]
  · intro h
    obtain ⟨m, hm⟩ := exists_eq_trimEnd_append c a
    obtain ⟨n, hn⟩ := exists_eq_trimEnd_append c b
    exact ⟨trimEnd c a, m, n, hm, h ▸ hn⟩

/-- Taking the character away at the end changes nothing about occurrences that do not end in it. -/
theorem infix_trimEnd_iff {mark cs : List Char} {last : Char} (hlast : last ≠ c) :
    mark ++ [last] <:+: trimEnd c cs ↔ mark ++ [last] <:+: cs := by
  obtain ⟨n, hn⟩ := exists_eq_trimEnd_append c cs
  constructor
  · intro h
    exact h.trans (isPrefix_trimEnd c cs).isInfix
  · intro h
    rw [hn] at h
    clear hn
    -- the characters that were taken away are put back one by one, and the mark ends in none of
    -- them
    induction n with
    | zero => rwa [List.replicate_zero, List.append_nil] at h
    | succ n ih =>
      rw [List.replicate_succ', ← List.append_assoc, List.infix_concat_iff] at h
      rcases h with h | h
      · -- an occurrence at the very end would end in the character
        rw [List.suffix_concat_iff] at h
        rcases h with h | ⟨t, ht, -⟩
        · simp at h
        · exact absurd (List.append_inj_right' ht rfl) (by simpa using hlast)
      · exact ih h

theorem head?_trimEnd_iff {cs : List Char} {first : Char} (hfirst : first ≠ c) :
    (trimEnd c cs).head? = some first ↔ cs.head? = some first := by
  obtain ⟨n, hn⟩ := exists_eq_trimEnd_append c cs
  cases htrim : trimEnd c cs with
  | nil =>
    rw [htrim, List.nil_append] at hn
    rw [hn]
    simp [List.head?_replicate, Ne.symm hfirst]
  | cons x rest =>
    rw [htrim, List.cons_append] at hn
    rw [hn]
    simp

end FunctionAdapters.Text
