import FunctionAdapters.Json.Reader
import FunctionAdapters.Proofs.Json.Literal
import Mathlib.Tactic.FinCases

/-!
A value that is spelled out is read back as its source tree, whatever blanks stand between its
tokens.  The two printed forms are such spellings.

The tree of a value depends on the room for nesting that is left: where it is used up, an array or
an object can only be skipped (`Json.source`).  That one step of the reader goes on to the next is
one lemma for each kind of value (`Reads`); the induction over the value puts them together
(`reads_of_spells`).  The tokens are counted for it: every three steps take a character.
-/

namespace FunctionAdapters.Json

/-! ## Values as they are found -/

mutual
/-- All integers inside fit 64 bits, with or without sign. -/
def Sized : Json → Prop
  | .null => True
  | .bool _ => True
  | .int n => -2 ^ 63 ≤ n ∧ n < 2 ^ 64
  | .string _ => True
  | .array items => ItemsSized items
  | .object fields => FieldsSized fields
def ItemsSized : List Json → Prop
  | [] => True
  | item :: rest => Sized item ∧ ItemsSized rest
def FieldsSized : List (String × Json) → Prop
  | [] => True
  | (_, value) :: rest => Sized value ∧ FieldsSized rest
end

mutual
def source : Json → Nat → Source
  | .null, _ => .null
  | .bool b, _ => .bool b
  | .int n, _ => .number (.int n)
  | .string s, _ => .string s
  | .array _, 0 => .unreadable
  | .array items, room + 1 => .array (itemSources items room) none
  | .object _, 0 => .unreadable
  | .object fields, room + 1 => .object (entrySources fields room) none
def itemSources : List Json → Nat → List Source
  | [], _ => []
  | item :: rest, room => source item room :: itemSources rest room
def entrySources : List (String × Json) → Nat → List (Key × Source)
  | [], _ => []
  | (key, value) :: rest, room => (.text key, source value room) :: entrySources rest room
end

mutual
theorem skipFault_source : ∀ (j : Json) (room : Nat), (j.source room).skipFault = none
  | .null, _ => rfl
  | .bool _, _ => rfl
  | .int _, _ => rfl
  | .string _, _ => rfl
  | .array _, 0 => rfl
  | .array items, room + 1 => by simp [source, Source.skipFault, skipFault_itemSources items room]
  | .object _, 0 => rfl
  | .object fields, room + 1 => by
    simp [source, Source.skipFault, skipFault_entrySources fields room]
theorem skipFault_itemSources : ∀ (items : List Json) (room : Nat),
    Source.itemsSkipFault (itemSources items room) = none
  | [], _ => rfl
  | item :: rest, room => by
    simp [itemSources, Source.itemsSkipFault, skipFault_source item room,
      skipFault_itemSources rest room]
theorem skipFault_entrySources : ∀ (fields : List (String × Json)) (room : Nat),
    Source.entriesSkipFault (entrySources fields room) = none
  | [], _ => rfl
  | (_, value) :: rest, room => by
    simp [entrySources, Source.entriesSkipFault, Key.skipFault, skipFault_source value room,
      skipFault_entrySources rest room]
end

mutual
theorem readFault_source : ∀ (j : Json) {room : Nat}, j.depth ≤ room →
    (j.source room).readFault = none
  | .null, _, _ => rfl
  | .bool _, _, _ => rfl
  | .int _, _, _ => rfl
  | .string _, _, _ => rfl
  | .array items, room + 1, h => by
    simp [source, Source.readFault, readFault_itemSources items (Nat.le_of_succ_le_succ h)]
  | .object fields, room + 1, h => by
    simp [source, Source.readFault, readFault_entrySources fields (Nat.le_of_succ_le_succ h)]
theorem readFault_itemSources : ∀ (items : List Json) {room : Nat}, depths items ≤ room →
    Source.itemsReadFault (itemSources items room) = none
  | [], _, _ => rfl
  | item :: rest, room, h => by
    rw [depths, Nat.max_le] at h
    simp [itemSources, Source.itemsReadFault, readFault_source item h.1,
      readFault_itemSources rest h.2]
theorem readFault_entrySources : ∀ (fields : List (String × Json)) {room : Nat},
    fieldDepths fields ≤ room → Source.entriesReadFault (entrySources fields room) = none
  | [], _, _ => rfl
  | (_, value) :: rest, room, h => by
    rw [fieldDepths, Nat.max_le] at h
    simp [entrySources, Source.entriesReadFault, Key.read, readFault_source value h.1,
      readFault_entrySources rest h.2]
end

/-! ## Spellings -/

def Blank (cs : List Char) : Prop := ∀ c ∈ cs, isBlank c

/-- A key and its value, the value spelled as `value` says. -/
def SpellsField (key : String) (value : List Char → Prop) (cs : List Char) : Prop :=
  ∃ b b' v, Blank b ∧ Blank b' ∧ value v ∧ cs = quote key ++ (b ++ ':' :: (b' ++ v))

mutual
/-- The texts that spell a value: its tokens in order, with any blanks between them. -/
def Spells : Json → List Char → Prop
  | .null, cs => cs = ['n', 'u', 'l', 'l']
  | .bool true, cs => cs = ['t', 'r', 'u', 'e']
  | .bool false, cs => cs = ['f', 'a', 'l', 's', 'e']
  | .int n, cs => cs = intChars n
  | .string s, cs => cs = quote s
  | .array [], cs => ∃ b, Blank b ∧ cs = '[' :: (b ++ [']'])
  | .array (first :: rest), cs => ∃ b v tail, Blank b ∧ Spells first v ∧ SpellsItems rest tail ∧
    cs = '[' :: (b ++ (v ++ tail))
  | .object [], cs => ∃ b, Blank b ∧ cs = '{' :: (b ++ ['}'])
  | .object ((key, value) :: rest), cs => ∃ b v tail, Blank b ∧ SpellsField key (Spells value) v ∧
    SpellsFields rest tail ∧ cs = '{' :: (b ++ (v ++ tail))
/-- What follows the first item of an array. -/
def SpellsItems : List Json → List Char → Prop
  | [], cs => ∃ b, Blank b ∧ cs = b ++ [']']
  | item :: rest, cs => ∃ b b' v tail, Blank b ∧ Blank b' ∧ Spells item v ∧ SpellsItems rest tail ∧
    cs = b ++ ',' :: (b' ++ (v ++ tail))
/-- What follows the first field of an object. -/
def SpellsFields : List (String × Json) → List Char → Prop
  | [], cs => ∃ b, Blank b ∧ cs = b ++ ['}']
  | (key, value) :: rest, cs => ∃ b b' v tail, Blank b ∧ Blank b' ∧
    SpellsField key (Spells value) v ∧ SpellsFields rest tail ∧
    cs = b ++ ',' :: (b' ++ (v ++ tail))
end

theorem blank_nil : Blank [] := by simp [Blank]

theorem blank_space : Blank [' '] := by simp [Blank, isBlank]

theorem blank_lineBreak (level : Nat) : Blank (lineBreak level) := by
  simp [Blank, lineBreak, isBlank]

mutual
/-- The compact form spells its value. -/
theorem spells_chars : ∀ j : Json, Spells j j.chars
  | .null => rfl
  | .bool true => rfl
  | .bool false => rfl
  | .int _ => rfl
  | .string _ => rfl
  | .array [] => ⟨[], blank_nil, rfl⟩
  | .array (first :: rest) =>
    ⟨[], _, _, blank_nil, spells_chars first, spellsItems_itemsChars rest, by simp [chars]⟩
  | .object [] => ⟨[], blank_nil, rfl⟩
  | .object ((key, value) :: rest) =>
    ⟨[], _, _, blank_nil, ⟨[], [], _, blank_nil, blank_nil, spells_chars value, rfl⟩,
      spellsFields_fieldsChars rest, by simp [chars]⟩
theorem spellsItems_itemsChars : ∀ items : List Json, SpellsItems items (itemsChars items)
  | [] => ⟨[], blank_nil, rfl⟩
  | item :: rest =>
    ⟨[], [], _, _, blank_nil, blank_nil, spells_chars item, spellsItems_itemsChars rest,
      by simp [itemsChars]⟩
theorem spellsFields_fieldsChars :
    ∀ fields : List (String × Json), SpellsFields fields (fieldsChars fields)
  | [] => ⟨[], blank_nil, rfl⟩
  | (key, value) :: rest =>
    ⟨[], [], _, _, blank_nil, blank_nil,
      ⟨[], [], _, blank_nil, blank_nil, spells_chars value, rfl⟩,
      spellsFields_fieldsChars rest, by simp [fieldsChars]⟩
end

mutual
/-- The indented form spells its value, at every level. -/
theorem spells_prettyChars : ∀ (j : Json) (level : Nat), Spells j (j.prettyChars level)
  | .null, _ => rfl
  | .bool true, _ => rfl
  | .bool false, _ => rfl
  | .int _, _ => rfl
  | .string _, _ => rfl
  | .array [], _ => ⟨[], blank_nil, rfl⟩
  | .array (first :: rest), level =>
    ⟨_, _, _, blank_lineBreak (level + 1), spells_prettyChars first (level + 1),
      spellsItems_prettyItems rest level, by simp [prettyChars]⟩
  | .object [], _ => ⟨[], blank_nil, rfl⟩
  | .object ((key, value) :: rest), level =>
    ⟨_, _, _, blank_lineBreak (level + 1),
      ⟨[], _, _, blank_nil, blank_space, spells_prettyChars value (level + 1), rfl⟩,
      spellsFields_prettyFields rest level, by simp [prettyChars]⟩
theorem spellsItems_prettyItems : ∀ (items : List Json) (level : Nat),
    SpellsItems items (prettyItems level items)
  | [], level => ⟨_, blank_lineBreak level, rfl⟩
  | item :: rest, level =>
    ⟨[], _, _, _, blank_nil, blank_lineBreak (level + 1), spells_prettyChars item (level + 1),
      spellsItems_prettyItems rest level, by simp [prettyItems]⟩
theorem spellsFields_prettyFields : ∀ (fields : List (String × Json)) (level : Nat),
    SpellsFields fields (prettyFields level fields)
  | [], level => ⟨_, blank_lineBreak level, rfl⟩
  | (key, value) :: rest, level =>
    ⟨[], _, _, _, blank_nil, blank_lineBreak (level + 1),
      ⟨[], _, _, blank_nil, blank_space, spells_prettyChars value (level + 1), rfl⟩,
      spellsFields_prettyFields rest level, by simp [prettyFields]⟩
end

/-! ## Steps of the reader -/

theorem skipBlanks_append {b : List Char} (hb : Blank b) {c : Char} (hc : isBlank c = false)
    (cs : List Char) : skipBlanks (b ++ c :: cs) = c :: cs := by
  rw [skipBlanks, List.dropWhile_append_of_pos hb, List.dropWhile_cons_of_neg (by simp [hc])]

theorem ends_of_blanks {b : List Char} (hb : Blank b) : Ends b := by
  intro d hd
  have hblank : isBlank d := hb d (List.mem_of_mem_head? hd)
  simp only [isBlank, Bool.or_eq_true, decide_eq_true_eq] at hblank
  rcases hblank with ((rfl | rfl) | rfl) | rfl <;> decide

theorem ends_of_blank {b : List Char} (hb : Blank b) {c : Char} (hc : c ∈ [',', ']', '}'])
    (cs : List Char) : Ends (b ++ c :: cs) := by
  intro d hd
  cases b with
  | nil =>
    cases hd
    fin_cases hc <;> decide
  | cons b bs => exact ends_of_blanks hb d hd

theorem digit_not_mem {c : Char} (hc : c.isDigit) :
    c ∉ ['"', '[', ']', '{', 'n', 't', 'f', '-', ' ', '\n', '\t', '\r'] := by
  intro hmem
  fin_cases hmem <;> revert hc <;> decide

theorem readValue_digit {c : Char} (hc : c.isDigit) {b : List Char} (hb : Blank b)
    (fuel room : Nat) (cs : List Char) :
    readValue (fuel + 1) room (b ++ c :: cs) = readNumber false (c :: cs) := by
  have hother := digit_not_mem hc
  simp only [List.mem_cons, List.not_mem_nil, or_false, not_or] at hother
  have hblank : isBlank c = false := by simp [isBlank, hother]
  rw [readValue, skipBlanks_append hb hblank]
  split <;> simp_all

/-- The text of a value, with blanks in front of it and a text after it that does not continue it,
is found as the value. -/
def Reads (j : Json) (v : List Char) : Prop :=
  ∀ ⦃b rest : List Char⦄ (fuel room : Nat), Blank b → Ends rest → 3 * v.length ≤ fuel →
    readValue fuel room (b ++ (v ++ rest)) = (j.source room, some rest)

/-- What follows the first item of an array is found as the other items. -/
def ReadsItems (items : List Json) (tail : List Char) : Prop :=
  ∀ ⦃first : Json⦄ ⦃v b : List Char⦄ (rest : List Char) (fuel room : Nat), Reads first v → Blank b →
    3 * (v ++ tail).length ≤ fuel + 2 →
    readItems fuel room (b ++ (v ++ (tail ++ rest))) =
      (first.source room :: itemSources items room, .ok rest)

/-- What follows the first field of an object is found as the other fields. -/
def ReadsFields (fields : List (String × Json)) (tail : List Char) : Prop :=
  ∀ ⦃key : String⦄ ⦃value : Json⦄ ⦃v b : List Char⦄ (rest : List Char) (fuel room : Nat),
    SpellsField key (Reads value) v → Blank b → 3 * (v ++ tail).length ≤ fuel + 2 →
    readEntries fuel room (b ++ (v ++ (tail ++ rest))) =
      ((.text key, value.source room) :: entrySources fields room, .ok rest)

/-- It is enough to read the text without blanks in front of it, from its first character. -/
theorem reads_of_head {j : Json} {c : Char} {v : List Char} (hc : isBlank c = false)
    (h : ∀ ⦃rest : List Char⦄ (fuel room : Nat), Ends rest → 3 * v.length + 2 ≤ fuel →
      readValue (fuel + 1) room (c :: (v ++ rest)) = (j.source room, some rest)) :
    Reads j (c :: v) := by
  intro b rest fuel room hb hrest hfuel
  rw [List.length_cons] at hfuel
  obtain ⟨fuel, rfl⟩ := Nat.exists_eq_add_of_le' (show 1 ≤ fuel by omega)
  have hskip : skipBlanks (b ++ (c :: v ++ rest)) = skipBlanks (c :: (v ++ rest)) := by
    rw [List.cons_append, skipBlanks_append hb hc]
    exact (skipBlanks_append blank_nil hc _).symm
  have hread := h fuel room hrest (by omega)
  rw [readValue] at hread ⊢
  rw [hskip, hread]

theorem reads_null : Reads .null ['n', 'u', 'l', 'l'] :=
  reads_of_head rfl fun _ _ _ _ _ => by simp [readValue, skipBlanks, isBlank, readWord, source]

theorem reads_true : Reads (.bool true) ['t', 'r', 'u', 'e'] :=
  reads_of_head rfl fun _ _ _ _ _ => by simp [readValue, skipBlanks, isBlank, readWord, source]

theorem reads_false : Reads (.bool false) ['f', 'a', 'l', 's', 'e'] :=
  reads_of_head rfl fun _ _ _ _ _ => by simp [readValue, skipBlanks, isBlank, readWord, source]

theorem reads_string (s : String) : Reads (.string s) (quote s) :=
  reads_of_head rfl fun rest _ _ _ _ => by
    simp [readValue, skipBlanks, isBlank, source, readString_escapes]

theorem ofInteger_true {n : Int} (hsign : n < 0) (hn : -2 ^ 63 ≤ n) :
    NumberLiteral.ofInteger true n.natAbs = .int n := by
  have hlimit : 0 < n.natAbs ∧ n.natAbs ≤ Nat.pow 2 63 := by
    rw [Nat.pow_eq]
    omega
  simp only [NumberLiteral.ofInteger, Bool.not_true, Bool.false_eq_true, if_false, hlimit,
    and_self, if_true]
  congr
  omega

theorem ofInteger_false {n : Int} (hsign : ¬n < 0) :
    NumberLiteral.ofInteger false n.natAbs = .int n := by
  simp [NumberLiteral.ofInteger]
  omega

theorem reads_int {n : Int} (hlow : -2 ^ 63 ≤ n) (hhigh : n < 2 ^ 64) :
    Reads (.int n) (intChars n) := by
  have hsize : n.natAbs < Nat.pow 2 64 := by
    rw [Nat.pow_eq]
    omega
  by_cases hsign : n < 0
  · rw [intChars, if_pos hsign]
    refine reads_of_head rfl fun rest fuel room hrest _ => ?_
    have hread := readNumber_toDigits true hsize hrest
    rw [ofInteger_true hsign hlow] at hread
    simpa [readValue, skipBlanks, isBlank, source] using hread
  · rw [intChars, if_neg hsign]
    obtain ⟨c, cs, hdigits⟩ : ∃ c cs, Nat.toDigits 10 n.natAbs = c :: cs :=
      List.exists_cons_of_ne_nil Nat.toDigits_ne_nil
    -- the first digit tells a number from every other value
    have hc : c.isDigit :=
      Nat.isDigit_of_mem_toDigits (by omega) (by omega) (hdigits ▸ List.mem_cons_self)
    intro b rest fuel room hb hrest hfuel
    have hread := readNumber_toDigits false hsize hrest
    rw [ofInteger_false hsign] at hread
    rw [hdigits, List.cons_append] at hread ⊢
    rw [hdigits, List.length_cons] at hfuel
    obtain ⟨fuel, rfl⟩ := Nat.exists_eq_add_of_le' (show 1 ≤ fuel by omega)
    rw [readValue_digit hc hb, hread]
    rfl

/-! ## Arrays -/

theorem readsItems_nil {b : List Char} (hb : Blank b) : ReadsItems [] (b ++ [']']) := by
  intro first v b' rest fuel room hfirst hb' hfuel
  simp only [List.length_append, List.length_singleton] at hfuel
  obtain ⟨fuel, rfl⟩ := Nat.exists_eq_add_of_le' (show 1 ≤ fuel by omega)
  have hread := hfirst fuel room hb' (ends_of_blank hb (c := ']') (by simp) rest) (by omega)
  rw [readItems]
  simp [hread, skipBlanks_append hb (c := ']') rfl, itemSources]

theorem readsItems_cons {item : Json} {items : List Json} {b b' v tail : List Char}
    (hb : Blank b) (hb' : Blank b') (hitem : Reads item v) (hitems : ReadsItems items tail) :
    ReadsItems (item :: items) (b ++ ',' :: (b' ++ (v ++ tail))) := by
  intro first w b'' rest fuel room hfirst hb'' hfuel
  simp only [List.length_append, List.length_cons] at hfuel
  obtain ⟨fuel, rfl⟩ := Nat.exists_eq_add_of_le' (show 1 ≤ fuel by omega)
  have hread := hfirst fuel room hb''
    (ends_of_blank hb (c := ',') (by simp) (b' ++ (v ++ (tail ++ rest)))) (by omega)
  have hothers := hitems rest fuel room hitem hb' (by simp; omega)
  rw [readItems]
  simp [hread, skipBlanks_append hb (c := ',') rfl, hothers, itemSources]

theorem reads_of_readArray {items : List Json} {cs : List Char}
    (h : ∀ (rest : List Char) (fuel room : Nat), 3 * cs.length + 1 ≤ fuel →
      readArray (fuel + 1) room (cs ++ rest) = (.array (itemSources items room) none, some rest)) :
    Reads (.array items) ('[' :: cs) := by
  refine reads_of_head rfl fun rest fuel room _ hfuel => ?_
  obtain ⟨fuel, rfl⟩ := Nat.exists_eq_add_of_le' (show 1 ≤ fuel by omega)
  have hread (room : Nat) := h rest fuel room (by omega)
  cases room <;> simp [readValue, skipBlanks, isBlank, hread, source, tooDeep]

theorem reads_array_nil {b : List Char} (hb : Blank b) : Reads (.array []) ('[' :: (b ++ [']'])) :=
  reads_of_readArray fun rest fuel room _ => by
    simp [readArray, skipBlanks_append hb (c := ']') rfl, itemSources]

theorem reads_array_cons {first : Json} {items : List Json} {b v tail : List Char} {c : Char}
    (hb : Blank b) (hc : isBlank c = false ∧ c ≠ ']') (hfirst : Reads first (c :: v))
    (hitems : ReadsItems items tail) :
    Reads (.array (first :: items)) ('[' :: (b ++ (c :: v ++ tail))) :=
  reads_of_readArray fun rest fuel room hfuel => by
    simp only [List.length_append, List.length_cons] at hfuel
    have hread := hitems rest fuel room hfirst blank_nil
      (by simp; omega)
    simp only [List.nil_append, List.cons_append] at hread
    simp [readArray, skipBlanks_append hb hc.1, hread, hc.2, itemSources]

/-! ## Objects -/

/-- One step over the entries of an object: a field is read, and the character after it decides. -/
theorem readEntries_field {key : String} {value : Json} {v b rest : List Char} {fuel : Nat}
    (room : Nat) (hfield : SpellsField key (Reads value) v) (hb : Blank b)
    (hfuel : 3 * v.length ≤ fuel) (hrest : Ends rest) {after : List Char} :
    (skipBlanks rest = '}' :: after → readEntries (fuel + 1) room (b ++ (v ++ rest)) =
      ([(.text key, value.source room)], .ok after)) ∧
    (skipBlanks rest = ',' :: after → readEntries (fuel + 1) room (b ++ (v ++ rest)) =
      (readEntries fuel room after).map ((.text key, value.source room) :: ·) id) := by
  obtain ⟨b₁, b₂, w, hb₁, hb₂, hvalue, rfl⟩ := hfield
  simp only [List.length_append, List.length_cons] at hfuel
  have hread := hvalue fuel room hb₂ hrest (by omega)
  rw [readEntries]
  constructor <;> intro hafter <;>
    simp [quote, skipBlanks_append hb (c := '"') rfl, readKey_escapes,
      skipBlanks_append hb₁ (c := ':') rfl, hread, hafter]

theorem readsFields_nil {b : List Char} (hb : Blank b) : ReadsFields [] (b ++ ['}']) := by
  intro key value v b' rest fuel room hfield hb' hfuel
  simp only [List.length_append, List.length_singleton] at hfuel
  obtain ⟨fuel, rfl⟩ := Nat.exists_eq_add_of_le' (show 1 ≤ fuel by omega)
  have hskip : skipBlanks (b ++ ['}'] ++ rest) = '}' :: rest := by
    simp [skipBlanks_append hb (c := '}') rfl]
  have hends : Ends (b ++ ['}'] ++ rest) := by simpa using ends_of_blank hb (by simp) rest
  rw [(readEntries_field room hfield hb' (by omega) hends).1 hskip, entrySources]

theorem readsFields_cons {key : String} {value : Json} {fields : List (String × Json)}
    {b b' v tail : List Char} (hb : Blank b) (hb' : Blank b')
    (hvalue : SpellsField key (Reads value) v) (hfields : ReadsFields fields tail) :
    ReadsFields ((key, value) :: fields) (b ++ ',' :: (b' ++ (v ++ tail))) := by
  intro key' value' w b'' rest fuel room hfield hb'' hfuel
  simp only [List.length_append, List.length_cons] at hfuel
  obtain ⟨fuel, rfl⟩ := Nat.exists_eq_add_of_le' (show 1 ≤ fuel by omega)
  have hothers := hfields rest fuel room hvalue hb' (by simp; omega)
  have hskip : skipBlanks (b ++ ',' :: (b' ++ (v ++ tail)) ++ rest) =
      ',' :: (b' ++ (v ++ (tail ++ rest))) := by
    simp [skipBlanks_append hb (c := ',') rfl]
  have hends : Ends (b ++ ',' :: (b' ++ (v ++ tail)) ++ rest) := by
    simpa using ends_of_blank hb (by simp) _
  rw [(readEntries_field room hfield hb'' (by omega) hends).2 hskip, hothers, entrySources]
  rfl

theorem reads_of_readObject {fields : List (String × Json)} {cs : List Char}
    (h : ∀ (rest : List Char) (fuel room : Nat), 3 * cs.length + 1 ≤ fuel →
      readObject (fuel + 1) room (cs ++ rest) =
        (.object (entrySources fields room) none, some rest)) :
    Reads (.object fields) ('{' :: cs) := by
  refine reads_of_head rfl fun rest fuel room _ hfuel => ?_
  obtain ⟨fuel, rfl⟩ := Nat.exists_eq_add_of_le' (show 1 ≤ fuel by omega)
  have hread (room : Nat) := h rest fuel room (by omega)
  cases room <;> simp [readValue, skipBlanks, isBlank, hread, source, tooDeep]

theorem reads_object_nil {b : List Char} (hb : Blank b) :
    Reads (.object []) ('{' :: (b ++ ['}'])) :=
  reads_of_readObject fun rest fuel room _ => by
    simp [readObject, skipBlanks_append hb (c := '}') rfl, entrySources]

theorem reads_object_cons {key : String} {value : Json} {fields : List (String × Json)}
    {b v tail : List Char} (hb : Blank b) (hvalue : SpellsField key (Reads value) v)
    (hfields : ReadsFields fields tail) :
    Reads (.object ((key, value) :: fields)) ('{' :: (b ++ (v ++ tail))) :=
  reads_of_readObject fun rest fuel room hfuel => by
    simp only [List.length_append] at hfuel
    have hread := hfields rest fuel room hvalue blank_nil
      (by simp; omega)
    obtain ⟨b₁, b₂, w, -, -, -, rfl⟩ := hvalue
    simp only [quote, List.nil_append, List.cons_append, List.append_assoc] at hread ⊢
    simp [readObject, skipBlanks_append hb (c := '"') rfl, hread, entrySources]

/-! ## All values -/

/-- A value starts with a character that is not skipped and does not end an array. -/
theorem spells_head {j : Json} {v : List Char} (h : Spells j v) :
    ∃ c cs, v = c :: cs ∧ isBlank c = false ∧ c ≠ ']' := by
  match j with
  | .null => exact ⟨_, _, h, by decide⟩
  | .bool true => exact ⟨_, _, h, by decide⟩
  | .bool false => exact ⟨_, _, h, by decide⟩
  | .int n =>
    obtain rfl : v = intChars n := h
    unfold intChars
    split_ifs
    · exact ⟨_, _, rfl, by decide⟩
    · obtain ⟨c, cs, hdigits⟩ : ∃ c cs, Nat.toDigits 10 n.natAbs = c :: cs :=
        List.exists_cons_of_ne_nil Nat.toDigits_ne_nil
      have hc : c.isDigit :=
        Nat.isDigit_of_mem_toDigits (by omega) (by omega) (hdigits ▸ List.mem_cons_self)
      have hother := digit_not_mem hc
      exact ⟨c, cs, hdigits, by simp_all [isBlank]⟩
  | .string _ => exact ⟨_, _, h, by decide⟩
  | .array [] => obtain ⟨b, -, rfl⟩ := h; exact ⟨_, _, rfl, by decide⟩
  | .array (_ :: _) => obtain ⟨b, v, tail, -, -, -, rfl⟩ := h; exact ⟨_, _, rfl, by decide⟩
  | .object [] => obtain ⟨b, -, rfl⟩ := h; exact ⟨_, _, rfl, by decide⟩
  | .object ((_, _) :: _) =>
    obtain ⟨b, v, tail, -, -, -, rfl⟩ := h
    exact ⟨_, _, rfl, by decide⟩

mutual
/-- **A spelling of a value is found as the value.** -/
theorem reads_of_spells : ∀ {j : Json} {v : List Char}, Sized j → Spells j v → Reads j v
  | .null, _, _, h => h ▸ reads_null
  | .bool true, _, _, h => h ▸ reads_true
  | .bool false, _, _, h => h ▸ reads_false
  | .int _, _, hsized, h => h ▸ reads_int hsized.1 hsized.2
  | .string s, _, _, h => h ▸ reads_string s
  | .array [], _, _, ⟨_, hb, h⟩ => h ▸ reads_array_nil hb
  | .array (_ :: _), _, hsized, ⟨_, _, _, hb, hfirst, hrest, h⟩ => by
    have hreads := reads_of_spells hsized.1 hfirst
    have hothers := readsItems_of_spells hsized.2 hrest
    obtain ⟨c, cs, rfl, hc⟩ := spells_head hfirst
    exact h ▸ reads_array_cons hb hc hreads hothers
  | .object [], _, _, ⟨_, hb, h⟩ => h ▸ reads_object_nil hb
  | .object ((_, _) :: _), _, hsized, ⟨_, _, _, hb, ⟨b₁, b₂, w, hb₁, hb₂, hvalue, hw⟩, hrest, h⟩ =>
    h ▸ reads_object_cons hb ⟨b₁, b₂, w, hb₁, hb₂, reads_of_spells hsized.1 hvalue, hw⟩
      (readsFields_of_spells hsized.2 hrest)
theorem readsItems_of_spells : ∀ {items : List Json} {tail : List Char}, ItemsSized items →
    SpellsItems items tail → ReadsItems items tail
  | [], _, _, ⟨_, hb, h⟩ => h ▸ readsItems_nil hb
  | _ :: _, _, hsized, ⟨_, _, _, _, hb, hb', hitem, hrest, h⟩ =>
    h ▸ readsItems_cons hb hb' (reads_of_spells hsized.1 hitem)
      (readsItems_of_spells hsized.2 hrest)
theorem readsFields_of_spells : ∀ {fields : List (String × Json)} {tail : List Char},
    FieldsSized fields → SpellsFields fields tail → ReadsFields fields tail
  | [], _, _, ⟨_, hb, h⟩ => h ▸ readsFields_nil hb
  | (_, _) :: _, _, hsized,
      ⟨_, _, _, _, hb, hb', ⟨b₁, b₂, w, hb₁, hb₂, hvalue, hw⟩, hrest, h⟩ =>
    h ▸ readsFields_cons hb hb' ⟨b₁, b₂, w, hb₁, hb₂, reads_of_spells hsized.1 hvalue, hw⟩
      (readsFields_of_spells hsized.2 hrest)
end

theorem ofText_of_spells_append {j : Json} {v rest : List Char} {text : String}
    (hsized : Sized j) (h : Spells j v) (hrest : Ends rest) (htext : text.toList = v ++ rest)
    (room : Nat) : Source.ofText room text = (j.source room, some rest) := by
  have hread := reads_of_spells hsized h (3 * text.toList.length + 3) room blank_nil hrest
    (by rw [htext, List.length_append]; omega)
  rw [Source.ofText]
  rwa [List.nil_append, ← htext] at hread

/-- **A text that spells a value is found as the value,** with nothing left over. -/
theorem ofText_of_spells {j : Json} {text : String} (hsized : Sized j)
    (h : Spells j text.toList) (room : Nat) :
    Source.ofText room text = (j.source room, some []) :=
  ofText_of_spells_append hsized h (ends_of_blanks blank_nil) (List.append_nil _).symm room

end FunctionAdapters.Json
