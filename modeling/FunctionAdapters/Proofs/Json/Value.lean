import FunctionAdapters.Proofs.Json.Decoding

/-!
# The value that a text spells

`Json.ofText?` reads a text without knowing what it is for.  A text that spells a value, with blanks
after it, gives the value (`ofText?_of_spells`); so the compact and the indented text of a value are
texts of the same one (`ofText?_line`).

This holds of all values that a reader can take: they must not be nested too deep, and their
integers must fit 64 bits (`Fits`).
-/

namespace FunctionAdapters.Json

/-! ## From a source to its value -/

mutual
/-- The value that a source stands for, if it is complete and no number has a fraction. -/
def Source.value? : Source → Option Json
  | .null => some .null
  | .bool b => some (.bool b)
  | .number (.int n) => some (.int n)
  | .number (.float _) => none
  | .string s => some (.string s)
  | .array items none => (itemValues? items).map .array
  | .array _ (some _) => none
  | .object entries none => (entryValues? entries).map .object
  | .object _ (some _) => none
  | .unreadable => none
  | .broken _ => none
def Source.itemValues? : List Source → Option (List Json)
  | [] => some []
  | item :: rest => do return (← value? item) :: (← itemValues? rest)
def Source.entryValues? : List (Key × Source) → Option (List (String × Json))
  | [] => some []
  | (.text key, value) :: rest => do return (key, ← value? value) :: (← entryValues? rest)
  | (_, _) :: _ => none
end

/-- The value that a text spells, with nothing but blanks around it. -/
def ofText? (text : String) : Option Json :=
  match Source.ofText maxNesting text with
  | (s, some rest) => if (skipBlanks rest).isEmpty then s.value? else none
  | (_, none) => none

mutual
theorem value?_source : ∀ (j : Json) {room : Nat}, j.depth ≤ room →
    (j.source room).value? = some j
  | .null, _, _ => rfl
  | .bool _, _, _ => rfl
  | .int _, _, _ => rfl
  | .string _, _, _ => rfl
  | .array items, room + 1, h => by
    simp [source, Source.value?, itemValues?_itemSources items (Nat.le_of_succ_le_succ h)]
  | .object fields, room + 1, h => by
    simp [source, Source.value?, entryValues?_entrySources fields (Nat.le_of_succ_le_succ h)]
theorem itemValues?_itemSources : ∀ (items : List Json) {room : Nat}, depths items ≤ room →
    Source.itemValues? (itemSources items room) = some items
  | [], _, _ => rfl
  | item :: rest, room, h => by
    rw [depths, Nat.max_le] at h
    simp [itemSources, Source.itemValues?, value?_source item h.1,
      itemValues?_itemSources rest h.2]
theorem entryValues?_entrySources : ∀ (fields : List (String × Json)) {room : Nat},
    fieldDepths fields ≤ room → Source.entryValues? (entrySources fields room) = some fields
  | [], _, _ => rfl
  | (key, value) :: rest, room, h => by
    rw [fieldDepths, Nat.max_le] at h
    simp [entrySources, Source.entryValues?, value?_source value h.1,
      entryValues?_entrySources rest h.2]
end

/-! ## Values that can be read -/

/-- A value that can be read where there is room for some levels of nesting. -/
structure Fits (room : Nat) (j : Json) : Prop where
  depth_le : j.depth ≤ room
  sized : j.Sized

section

variable {room room' : Nat} {j : Json}

theorem Fits.mono (h : Fits room j) (hle : room ≤ room') : Fits room' j :=
  ⟨h.depth_le.trans hle, h.sized⟩

theorem fits_null (room : Nat) : Fits room .null := ⟨Nat.zero_le _, trivial⟩

theorem fits_string (room : Nat) (s : String) : Fits room (.string s) := ⟨Nat.zero_le _, trivial⟩

theorem fits_ofNat (room : Nat) {n : Nat} (h : n < 2 ^ 64) : Fits room (.ofNat n) := by
  refine ⟨Nat.zero_le _, ?_⟩
  simp only [ofNat, Sized]
  omega

theorem fits_ofOption {α : Type} {f : α → Json} {o : Option α} (h : ∀ a ∈ o, Fits room (f a)) :
    Fits room (.ofOption f o) := by
  cases o with
  | none => exact fits_null room
  | some a => exact h a rfl

theorem depths_le {items : List Json} (h : ∀ item ∈ items, item.depth ≤ room) :
    depths items ≤ room := by
  induction items with
  | nil => exact Nat.zero_le _
  | cons item rest ih =>
    obtain ⟨hitem, hrest⟩ := List.forall_mem_cons.1 h
    rw [depths, Nat.max_le]
    exact ⟨hitem, ih hrest⟩

theorem fieldDepths_le {fields : List (String × Json)}
    (h : ∀ field ∈ fields, field.2.depth ≤ room) : fieldDepths fields ≤ room := by
  induction fields with
  | nil => exact Nat.zero_le _
  | cons field rest ih =>
    obtain ⟨hfield, hrest⟩ := List.forall_mem_cons.1 h
    rw [fieldDepths, Nat.max_le]
    exact ⟨hfield, ih hrest⟩

theorem fits_array {items : List Json} (h : ∀ item ∈ items, Fits room item) :
    Fits (room + 1) (.array items) :=
  ⟨Nat.succ_le_succ (depths_le fun item hitem => (h item hitem).depth_le),
    itemsSized_of fun item hitem => (h item hitem).sized⟩

theorem fits_object {fields : List (String × Json)} (h : ∀ field ∈ fields, Fits room field.2) :
    Fits (room + 1) (.object fields) :=
  ⟨Nat.succ_le_succ (fieldDepths_le fun field hfield => (h field hfield).depth_le),
    fieldsSized_of fun field hfield => (h field hfield).sized⟩

theorem fits_strings (room : Nat) (texts : List String) : Fits (room + 1) (.strings texts) := by
  refine fits_array fun item hitem => ?_
  obtain ⟨s, -, rfl⟩ := List.mem_map.1 hitem
  exact fits_string room s

end

/-! ## Whole texts -/

theorem skipBlanks_of_blank {b : List Char} (hb : Blank b) : skipBlanks b = [] := by
  rw [← List.append_nil b, skipBlanks, List.dropWhile_append_of_pos hb]
  rfl

/-- **A text that spells a value gives the value,** whatever blanks come after it. -/
theorem ofText?_of_spells {j : Json} {v b : List Char} {text : String} (hfits : Fits maxNesting j)
    (h : Spells j v) (hb : Blank b) (htext : text.toList = v ++ b) : ofText? text = some j := by
  have hread := ofText_of_spells_append hfits.sized h (ends_of_blanks hb) htext maxNesting
  simp [ofText?, hread, skipBlanks_of_blank hb, value?_source j hfits.depth_le]

theorem ofText?_line {j : Json} (hfits : Fits maxNesting j) :
    ofText? (j.compact ++ "\n") = some j ∧ ofText? (j.pretty ++ "\n") = some j := by
  have hb : Blank ['\n'] := by simp [Blank, isBlank]
  constructor
  · exact ofText?_of_spells hfits (spells_chars j) hb (by simp [compact])
  · exact ofText?_of_spells hfits (spells_prettyChars j 0) hb (by simp [pretty])

end FunctionAdapters.Json
