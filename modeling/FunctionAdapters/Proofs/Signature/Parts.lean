import FunctionAdapters.Proofs.Except
import FunctionAdapters.Proofs.Text.Segments
import FunctionAdapters.Signature.Usage
import Mathlib.Logic.Relation

/-!
# Shapes where they stand

The text of a shape holds the texts of what it is built from, and each of these stands at a
position of its own.  `Placed.parts` says which shapes are written directly inside a text;
`Placed.Contains` leads from a text to everything that is written in it.

A shape that has a text fits its position, and so does everything that the text contains
(`Placed.fits_of_contains`).  As no part stands as a whole type, the only `void` that a text
contains is the text itself (`Placed.eq_of_contains_void`).
-/

namespace FunctionAdapters

/-- A shape and the position where it stands. -/
structure Placed where
  position : Position
  shape : Shape

namespace Placed

def text (v : Vocabulary) (p : Placed) : Except UnsupportedShape String :=
  p.shape.usage v p.position

/-- What is written directly inside the text of a shape.  The bounds of a declared type are, if it
stands for an intersection; otherwise its arguments. -/
def parts (p : Placed) : List Placed :=
  match p.shape with
  | .declared _ args bounds =>
    if p.position = .bound ∧ Shape.standsForBounds args bounds then bounds.map (⟨.nested, ·⟩)
    else args.map (⟨.argument, ·⟩)
  | .array component => [⟨.component, component⟩]
  | .wildcardExtends bound | .wildcardSuper bound => [⟨.nested, bound⟩]
  | _ => []

/-- What is written anywhere in a text, the whole of it included. -/
def Contains : Placed → Placed → Prop := Relation.ReflTransGen fun p q => q ∈ p.parts

/-- Whether a shape, its parts apart, can be written where it stands. -/
def Fits (table : TypeVarTable) (p : Placed) : Prop :=
  match p.shape with
  | .wildcard | .wildcardExtends _ | .wildcardSuper _ => p.position = .argument
  | .typeVar id => ∃ param, table.get? id = some param
  | .void => p.position = .whole
  | .top => False
  | .primitive _ | .declared .. | .array _ => True

theorem position_of_mem_parts {p q : Placed} (h : q ∈ p.parts) : q.position ≠ .whole := by
  unfold parts at h
  split at h
  · split at h
    · obtain ⟨bound, -, rfl⟩ := List.mem_map.1 h
      exact Position.noConfusion
    · obtain ⟨arg, -, rfl⟩ := List.mem_map.1 h
      exact Position.noConfusion
  · rw [List.mem_singleton.1 h]
    exact Position.noConfusion
  · rw [List.mem_singleton.1 h]
    exact Position.noConfusion
  · rw [List.mem_singleton.1 h]
    exact Position.noConfusion
  · cases h

end Placed

/-! ## Texts within texts -/

theorem isInfix_joined {separator text : String} {texts : List String} (h : text ∈ texts) :
    text.toList <:+: (separator.intercalate texts).toList := by
  rw [String.toList_intercalate]
  exact Text.isInfix_intercalate (List.mem_map_of_mem h)

theorem isInfix_angled {separator text : String} {texts : List String} (h : text ∈ texts) :
    text.toList <:+: (angled separator texts).toList := by
  unfold angled
  rw [List.isEmpty_eq_false_iff.2 (List.ne_nil_of_mem h)]
  simp only [Bool.false_eq_true, if_false, String.toList_append]
  exact (isInfix_joined h).trans (List.infix_append _ _ _)

namespace Shape

variable {v : Vocabulary}

theorem text_of_mem_usages {position : Position} {shapes : List Shape} {texts : List String}
    (h : usages v position shapes = .ok texts) {s : Shape} (hs : s ∈ shapes) :
    ∃ text ∈ texts, s.usage v position = .ok text := by
  induction shapes generalizing texts with
  | nil => cases hs
  | cons first rest ih =>
    unfold usages at h
    obtain ⟨text, htext, h⟩ := Except.bind_eq_ok.1 h
    obtain ⟨others, hothers, h⟩ := Except.bind_eq_ok.1 h
    obtain rfl := Except.ok.inj h
    rcases List.mem_cons.1 hs with rfl | hs
    · exact ⟨text, List.mem_cons_self, htext⟩
    · obtain ⟨other, hother, hsome⟩ := ih hothers hs
      exact ⟨other, List.mem_cons_of_mem text hother, hsome⟩

end Shape

namespace Placed

variable {v : Vocabulary} {p q : Placed} {text : String}

theorem fits_of_text (h : p.text v = .ok text) : p.Fits v.table := by
  obtain ⟨position, s⟩ := p
  unfold Placed.text Shape.usage at h
  cases s with
  | primitive | declared | array => trivial
  | wildcard | wildcardExtends | wildcardSuper => exact (Except.ite_error_eq_ok.1 h).1
  | typeVar id =>
    simp only at h
    split at h
    · next param hparam => exact ⟨param, hparam⟩
    · cases h
  | void => exact (Except.ite_error_eq_ok.1 h).1
  | top => cases h

theorem text_of_mem_parts (h : p.text v = .ok text) (hq : q ∈ p.parts) :
    ∃ part, q.text v = .ok part ∧ part.toList <:+: text.toList := by
  obtain ⟨position, s⟩ := p
  unfold Placed.text Shape.usage at h
  cases s with
  | declared name args bounds =>
    simp only [parts] at h hq
    split at h
    · next hb =>
      rw [if_pos hb] at hq
      obtain ⟨bound, hbound, rfl⟩ := List.mem_map.1 hq
      obtain ⟨texts, htexts, h⟩ := Except.bind_eq_ok.1 h
      obtain rfl := Except.ok.inj h
      obtain ⟨part, hpart, husage⟩ := Shape.text_of_mem_usages htexts hbound
      exact ⟨part, husage, isInfix_joined hpart⟩
    · next hb =>
      rw [if_neg hb] at hq
      obtain ⟨arg, harg, rfl⟩ := List.mem_map.1 hq
      obtain ⟨texts, htexts, h⟩ := Except.bind_eq_ok.1 h
      obtain rfl := Except.ok.inj h
      obtain ⟨part, hpart, husage⟩ := Shape.text_of_mem_usages htexts harg
      have hargs : (angled ", " texts).toList <:+: (name.sourceName ++ angled ", " texts).toList := by
        rw [String.toList_append]
        exact (List.suffix_append _ _).isInfix
      exact ⟨part, husage, (isInfix_angled hpart).trans hargs⟩
  | array component =>
    obtain rfl := List.mem_singleton.1 hq
    obtain ⟨part, hpart, h⟩ := Except.bind_eq_ok.1 h
    obtain rfl := Except.ok.inj h
    refine ⟨part, hpart, ?_⟩
    rw [String.toList_append]
    exact (List.prefix_append _ _).isInfix
  | wildcardExtends bound | wildcardSuper bound =>
    obtain rfl := List.mem_singleton.1 hq
    obtain ⟨-, h⟩ := Except.ite_error_eq_ok.1 h
    obtain ⟨part, hpart, h⟩ := Except.bind_eq_ok.1 h
    obtain rfl := Except.ok.inj h
    refine ⟨part, hpart, ?_⟩
    rw [String.toList_append]
    exact (List.suffix_append _ _).isInfix
  | primitive | wildcard | typeVar | void | top => cases hq

/-- **Texts within a text.**  Everything that a text contains is written within it. -/
theorem text_of_contains (h : p.text v = .ok text) (hq : p.Contains q) :
    ∃ part, q.text v = .ok part ∧ part.toList <:+: text.toList := by
  induction hq with
  | refl => exact ⟨text, h, List.infix_rfl⟩
  | tail _ hpart ih =>
    obtain ⟨outer, houter, hwithin⟩ := ih
    obtain ⟨part, htext, hinner⟩ := text_of_mem_parts houter hpart
    exact ⟨part, htext, hinner.trans hwithin⟩

theorem fits_of_contains (h : p.text v = .ok text) (hq : p.Contains q) : q.Fits v.table := by
  obtain ⟨part, hpart, -⟩ := text_of_contains h hq
  exact fits_of_text hpart

/-- **Where `void` is written.**  A text that contains `void` is `void`, as a whole type. -/
theorem eq_of_contains_void (h : p.text v = .ok text) (hq : p.Contains q)
    (hvoid : q.shape = .void) : q = p ∧ p.position = .whole := by
  have hwhole : q.position = .whole := by
    have hfits := fits_of_contains h hq
    unfold Fits at hfits
    rw [hvoid] at hfits
    exact hfits
  rcases Relation.ReflTransGen.cases_tail hq with rfl | ⟨outer, -, hpart⟩
  · exact ⟨rfl, hwhole⟩
  · exact absurd hwhole (position_of_mem_parts hpart)

end Placed

end FunctionAdapters
