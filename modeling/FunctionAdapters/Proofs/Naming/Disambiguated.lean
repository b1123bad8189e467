import FunctionAdapters.Naming.KindTag
import FunctionAdapters.Text.Segments

/-!
# Reading a disambiguated name

A disambiguated name is a name, a dollar sign and the tags of the parameters with underscores in
between.  No tag holds a dollar sign or an underscore and none is empty, so the tags can be read
back (`tagText_injective`), and so can the name if it holds no dollar sign: `disambiguated_inj`.
-/

namespace FunctionAdapters

open Text

namespace KindTag

theorem underscore_not_mem_text (tag : KindTag) : '_' ∉ tag.text.toList := by
  cases tag <;> decide

theorem text_toList_ne_nil (tag : KindTag) : tag.text.toList ≠ [] := by
  cases tag <;> decide

def tagText (tags : List KindTag) : String := "_".intercalate (tags.map text)

theorem toList_tagText (tags : List KindTag) :
    (tagText tags).toList = joined '_' (tags.map fun tag => tag.text.toList) := by
  rw [tagText, String.toList_intercalate, List.map_map, joined_eq_intercalate]
  rfl

theorem tagText_cons_ne_nil (tag : KindTag) (tags : List KindTag) :
    (tagText (tag :: tags)).toList ≠ [] := by
  intro h
  rw [toList_tagText] at h
  cases tags with
  | nil => exact tag.text_toList_ne_nil h
  | cons next more => exact absurd h (by simp [joined])

theorem segments_tagText (tag : KindTag) (tags : List KindTag) :
    segments '_' (tagText (tag :: tags)).toList =
      (tag :: tags).map fun tag => tag.text.toList := by
  rw [toList_tagText, segments_joined (by simp)]
  intro piece hpiece
  obtain ⟨t, -, rfl⟩ := List.mem_map.1 hpiece
  exact t.underscore_not_mem_text

/-- **Tags can be read back**, no tags at all included: no tag has an empty text. -/
theorem tagText_injective : Function.Injective tagText := by
  intro xs ys h
  have hlist : (tagText xs).toList = (tagText ys).toList := congrArg String.toList h
  cases xs with
  | nil =>
    cases ys with
    | nil => rfl
    | cons y ys => exact absurd hlist.symm (tagText_cons_ne_nil y ys)
  | cons x xs =>
    cases ys with
    | nil => exact absurd hlist (tagText_cons_ne_nil x xs)
    | cons y ys =>
      have hpieces := congrArg (segments '_') hlist
      rw [segments_tagText, segments_tagText] at hpieces
      refine List.map_inj_right ?_ |>.1 hpieces
      intro a b hab
      exact text_injective (String.toList_inj.1 hab)

end KindTag

namespace Operation

theorem disambiguated_eq (op : Operation) (name : String) :
    op.disambiguated name = name ++ "$" ++ KindTag.tagText op.kindTags := rfl

theorem toList_disambiguated (op : Operation) (name : String) :
    (op.disambiguated name).toList =
      name.toList ++ '$' :: (KindTag.tagText op.kindTags).toList := by
  rw [disambiguated_eq, String.toList_append, String.toList_append]
  simp

theorem dollar_mem_disambiguated (op : Operation) (name : String) :
    '$' ∈ (op.disambiguated name).toList := by
  rw [toList_disambiguated]
  simp

/-- **Disambiguated names can be read back**, if the names hold no dollar sign. -/
theorem disambiguated_inj {a b : Operation} {m n : String} (hm : '$' ∉ m.toList)
    (hn : '$' ∉ n.toList) :
    a.disambiguated m = b.disambiguated n ↔ m = n ∧ a.kindTags = b.kindTags := by
  constructor
  · intro h
    have hlist := congrArg String.toList h
    rw [toList_disambiguated, toList_disambiguated] at hlist
    have hpieces := congrArg (segments '$') hlist
    rw [segments_append hm, segments_append hn, List.cons.injEq] at hpieces
    obtain rfl : m = n := String.toList_inj.1 hpieces.1
    have htags := List.cons.inj (List.append_cancel_left hlist)
    exact ⟨rfl, KindTag.tagText_injective (String.toList_inj.1 htags.2)⟩
  · rintro ⟨rfl, htags⟩
    rw [disambiguated_eq, disambiguated_eq, htags]

end Operation

end FunctionAdapters
