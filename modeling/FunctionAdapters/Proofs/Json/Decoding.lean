import FunctionAdapters.Json.Decoder
import FunctionAdapters.Proofs.Json.Form
import Mathlib.Data.List.Find

/-!
Decoding along a form: all values of the form are decoded alike.

For a record this is shown one entry at a time.  What an entry does to the record that is being
filled in is `put` for a field and nothing for another key (`fillByName_entries`), and different
fields are put in any order, so the order of the entries does not matter (`put_rearranged`).

A value with its decoder, its form and the value it is written as is a code (`Codes`): one lemma for
each way of building a decoder puts the codes of the parts together.
-/

namespace FunctionAdapters.Json

/-! ## All values of a form -/

theorem source_eq_null {j : Json} {room : Nat} : j.source room = .null ↔ j = .null := by
  cases j <;> cases room <;> simp [source]

theorem source_ne_broken (j : Json) (room : Nat) {b : Break} : j.source room ≠ .broken b := by
  cases j <;> cases room <;> simp [source]

/-- What the decoder gives for all values of the form that are nested less than `bound`. -/
def Decodes {α : Type} (bound : Nat) (d : Decoder α) (form : Form) (a : α) : Prop :=
  ∀ access room j, room < bound → form room j → d access (j.source room) = .ok a

namespace Decodes

variable {α β : Type} {bound : Nat} {d : Decoder α} {form : Form} {a : α}

theorem map (h : Decodes bound d form a) (f : α → β) : Decodes bound (d.map f) form (f a) := by
  intro access room j hroom hj
  rw [Decoder.map, h access room j hroom hj]
  rfl

theorem string (text : String) :
    Decodes bound Decoder.string (.exactly (.string text)) text := by
  rintro access room j - rfl
  rfl

theorem nat (type : String) {limit n : Nat} (h : n < limit) :
    Decodes bound (Decoder.nat type limit) (.exactly (.ofNat n)) n := by
  rintro access room j - rfl
  simp [Decoder.nat, ofNat, source, h]

theorem alone {variants : Decoder.Variants α} {name : String}
    (h : variants.lookup name = some (.bare a)) :
    Decodes bound (Decoder.choice variants) (.exactly (.string name)) a := by
  rintro access room j - rfl
  simp [Decoder.choice, source, Decoder.Variants.select, h, bind, Except.bind,
    Decoder.Content.alone]

theorem nameOf {names : List (String × α)} {name : String} (h : names.lookup name = some a) :
    Decodes bound (Decoder.nameOf names) (.exactly (.string name)) a := by
  refine alone ?_
  induction names with
  | nil => cases h
  | cons first names ih =>
    rw [List.map_cons, List.lookup_cons]
    rw [List.lookup_cons] at h
    split at h
    · rw [Option.some.inj h]
    · exact ih h

theorem tagged {variants : Decoder.Variants α} {tag : String} {content : Decoder.Content α}
    (hselect : variants.lookup tag = some content) (h : Decodes bound content.decode form a) :
    Decodes (bound + 1) (Decoder.choice variants) (.tagged tag form) a := by
  rintro access room j hroom ⟨r, v, rfl, rfl, hv⟩
  have hcontent := h access r v (by omega) hv
  cases access <;>
    simp [Decoder.choice, source, entrySources, Key.read, Except.mapError, Decoder.Variants.select,
      hselect, hcontent, Decoder.noFault, bind, Except.bind, pure, Except.pure]

theorem fields {fields : List FieldForm} (h : Decodes bound d (.record fields) a) :
    Decodes bound (Decoder.Content.fields d).decode (.record fields) a := by
  intro access room j hroom hj
  have hd := h access room j hroom hj
  obtain ⟨r, entries, rfl, rfl, -⟩ := hj
  cases access <;> exact hd

theorem decodeItems {values : List α} {forms : List Form} {r : Nat} {items : List Json}
    (h : List.Forall₂ (fun form a => Decodes bound d form a) forms values)
    (hitems : List.Forall₂ (fun form v => form r v) forms items) (hr : r < bound)
    (access : Access) :
    Decoder.decodeItems d access (itemSources items r) = .ok values := by
  induction hitems generalizing values with
  | nil => cases h; rfl
  | cons hitem hitems ih =>
    cases h with
    | cons hfirst hothers =>
      simp [itemSources, Decoder.decodeItems, hfirst access r _ hr hitem, ih hothers, bind,
        Except.bind, pure, Except.pure]

theorem list {values : List α} {forms : List Form}
    (h : List.Forall₂ (fun form a => Decodes bound d form a) forms values) :
    Decodes bound (Decoder.list d) (.list forms) values := by
  rintro access room j hroom ⟨r, items, rfl, rfl, hitems⟩
  simp [Decoder.list, source, decodeItems h hitems (by omega), Decoder.noFault, bind, Except.bind,
    pure, Except.pure]

theorem nullable {form : α → Form} {a : Option α} (h : ∀ b ∈ a, Decodes bound d (form b) b)
    (hnull : ∀ b ∈ a, ∀ room, ¬form b room .null) :
    Decodes bound (Decoder.nullable d) (.nullable form a) a := by
  intro access room j hroom hj
  cases a with
  | none => cases hj; rfl
  | some b =>
    have hb := h b rfl access room j hroom hj
    unfold Decoder.nullable
    split
    case h_1 heq =>
      rw [source_eq_null] at heq
      exact absurd (heq ▸ hj) (hnull b rfl room)
    case h_2 heq => exact absurd heq (source_ne_broken j room)
    case h_3 => rw [hb]; rfl

end Decodes

/-! ## Codes -/

theorem itemsSized_of {items : List Json} (h : ∀ item ∈ items, Sized item) : ItemsSized items := by
  induction items with
  | nil => trivial
  | cons item items ih => exact ⟨h item (by simp), ih fun v hv => h v (by simp [hv])⟩

theorem fieldsSized_of {fields : List (String × Json)} (h : ∀ field ∈ fields, Sized field.2) :
    FieldsSized fields := by
  induction fields with
  | nil => trivial
  | cons field fields ih => exact ⟨h field (by simp), ih fun v hv => h v (by simp [hv])⟩

/-- A value is written as `j`, which is of a form that is decoded to it wherever it is read. -/
structure Codes {α : Type} (bound : Nat) (d : Decoder α) (form : Form) (j : Json) (a : α) : Prop where
  decodes : Decodes bound d form a
  flexible : form.Flexible
  holdsOf : form.HoldsOf j
  sized : j.Sized

namespace Codes

variable {α β : Type} {bound : Nat} {d : Decoder α} {form : Form} {j : Json} {a : α}

theorem map (h : Codes bound d form j a) (f : α → β) : Codes bound (d.map f) form j (f a) :=
  ⟨h.decodes.map f, h.flexible, h.holdsOf, h.sized⟩

theorem string (text : String) :
    Codes bound Decoder.string (.exactly (.string text)) (.string text) text :=
  ⟨.string text, Form.flexible_exactly _, Form.holdsOf_exactly _, trivial⟩

theorem nat (type : String) {limit n : Nat} (h : n < limit) (hlimit : limit ≤ 2 ^ 64) :
    Codes bound (Decoder.nat type limit) (.exactly (.ofNat n)) (.ofNat n) n :=
  ⟨.nat type h, Form.flexible_exactly _, Form.holdsOf_exactly _, by
    simp only [ofNat, Sized]
    omega⟩

theorem alone {variants : Decoder.Variants α} {name : String}
    (h : variants.lookup name = some (.bare a)) :
    Codes bound (Decoder.choice variants) (.exactly (.string name)) (.string name) a :=
  ⟨.alone h, Form.flexible_exactly _, Form.holdsOf_exactly _, trivial⟩

theorem nameOf {names : List (String × α)} {name : String} (h : names.lookup name = some a) :
    Codes bound (Decoder.nameOf names) (.exactly (.string name)) (.string name) a :=
  ⟨.nameOf h, Form.flexible_exactly _, Form.holdsOf_exactly _, trivial⟩

theorem tagged {variants : Decoder.Variants α} {tag : String} {content : Decoder.Content α}
    (hselect : variants.lookup tag = some content) (h : Codes bound content.decode form j a) :
    Codes (bound + 1) (Decoder.choice variants) (.tagged tag form) (.object [(tag, j)]) a :=
  ⟨.tagged hselect h.decodes, Form.flexible_tagged tag h.flexible, Form.holdsOf_tagged tag h.holdsOf,
    h.sized, trivial⟩

theorem fields {fields : List FieldForm} (h : Codes bound d (.record fields) j a) :
    Codes bound (Decoder.Content.fields d).decode (.record fields) j a :=
  ⟨h.decodes.fields, h.flexible, h.holdsOf, h.sized⟩

theorem list {form : α → Form} {toJson : α → Json} {values : List α}
    (h : ∀ a ∈ values, Codes bound d (form a) (toJson a) a) :
    Codes bound (Decoder.list d) (.list (values.map form)) (.array (values.map toJson)) values where
  decodes := .list <| by
    rw [List.forall₂_map_left_iff, List.forall₂_same]
    exact fun a ha => (h a ha).decodes
  flexible := Form.flexible_list <| List.forall_mem_map.mpr fun a ha => (h a ha).flexible
  holdsOf := Form.holdsOf_list <| by
    rw [List.forall₂_map_left_iff, List.forall₂_map_right_iff, List.forall₂_same]
    exact fun a ha => (h a ha).holdsOf
  sized := itemsSized_of <| List.forall_mem_map.mpr fun a ha => (h a ha).sized

theorem nullable {form : α → Form} {toJson : α → Json} {a : Option α}
    (h : ∀ b ∈ a, Codes bound d (form b) (toJson b) b) (hnull : ∀ b ∈ a, ∀ room, ¬form b room .null) :
    Codes bound (Decoder.nullable d) (.nullable form a) (.ofOption toJson a) a where
  decodes := .nullable (fun b hb => (h b hb).decodes) hnull
  flexible := Form.flexible_nullable fun b hb => (h b hb).flexible
  holdsOf := Form.holdsOf_nullable fun b hb => (h b hb).holdsOf
  sized := by
    cases a with
    | none => trivial
    | some b => exact (h b rfl).sized

theorem zero {d' : Decoder α} (h : Codes bound d form j a) : Codes 0 d' form j a :=
  ⟨fun _ _ _ hroom => absurd hroom (Nat.not_lt_zero _), h.flexible, h.holdsOf, h.sized⟩

end Codes

/-! ## Filling in a record -/

/-- A field of a record: how it is decoded, how it may stand in an object, as what it is written,
and how the value it should get is stored. -/
structure Slot (σ : Type) where
  field : Decoder.Field σ
  form : FieldForm
  json : Json
  put : σ → σ

namespace Slot

variable {α σ : Type} {bound : Nat} {blank : σ}

def needed (name : String) (d : Decoder α) (set : α → σ → σ) (value : Form) (j : Json) (a : α) :
    Slot σ :=
  ⟨.needed name d set, .needed name value, j, set a⟩

def optional (name : String) (d : Decoder α) (set : α → σ → σ) (value : Form) (usual : Prop)
    (j : Json) (a : α) : Slot σ :=
  ⟨.optional name d set, .optional name value usual, j, set a⟩

/-- The parts of a field go together. -/
structure Sound (bound : Nat) (blank : σ) (slot : Slot σ) : Prop where
  name : slot.field.name = slot.form.name
  store : ∀ access room v record, room < bound → slot.form.value room v →
    slot.field.store access (v.source room) record = .ok (slot.put record)
  omitted : slot.form.omittable → slot.field.required = false ∧ slot.put blank = blank
  flexible : slot.form.value.Flexible
  holdsOf : slot.form.value.HoldsOf slot.json
  sized : slot.json.Sized

variable {name : String} {d : Decoder α} {set : α → σ → σ} {value : Form} {j : Json} {a : α}

theorem sound_needed (h : Codes bound d value j a) :
    (needed name d set value j a).Sound bound blank where
  name := rfl
  store access room v record hroom hv := by
    simp [needed, Decoder.Field.needed, Decoder.Field.of, h.decodes access room v hroom hv,
      Except.map]
  omitted := False.elim
  flexible := h.flexible
  holdsOf := h.holdsOf
  sized := h.sized

theorem sound_optional {usual : Prop} (h : Codes bound d value j a)
    (husual : usual → set a blank = blank) :
    (optional name d set value usual j a).Sound bound blank where
  name := rfl
  store access room v record hroom hv := by
    simp [optional, Decoder.Field.optional, Decoder.Field.of, h.decodes access room v hroom hv,
      Except.map]
  omitted h := ⟨rfl, husual h⟩
  flexible := h.flexible
  holdsOf := h.holdsOf
  sized := h.sized

end Slot

section Step

variable {σ : Type} {access : Access} {fields : List (Decoder.Field σ)} {key : String} {s : Source}
  {rest : List (Key × Source)} {seen : List String} {record : σ}

theorem fillByName_skip (hfind : fields.find? (·.name = key) = none) (hs : s.skipFault = none) :
    Decoder.fillByName access fields ((.text key, s) :: rest) seen record =
      Decoder.fillByName access fields rest seen record := by
  simp only [Decoder.fillByName, Key.read, Except.mapError, bind, Except.bind, hfind, hs,
    Decoder.noFault]

theorem fillByName_store {field : Decoder.Field σ} {record' : σ}
    (hfind : fields.find? (·.name = key) = some field) (hnew : key ∉ seen)
    (hstore : field.store access s record = .ok record') :
    Decoder.fillByName access fields ((.text key, s) :: rest) seen record =
      Decoder.fillByName access fields rest (key :: seen) record' := by
  simp only [Decoder.fillByName, Key.read, Except.mapError, bind, Except.bind, hfind, hnew,
    if_false, hstore]

end Step

section Fill

variable {σ : Type} {slots : List (Slot σ)} {bound : Nat} {blank : σ}

/-- What an entry does to the record. -/
def putEntry (slots : List (Slot σ)) (record : σ) (key : String) : σ :=
  match slots.find? (·.form.name = key) with
  | some slot => slot.put record
  | none => record

theorem find?_slot (hnames : (slots.map (·.form.name)).Nodup) {slot : Slot σ} (h : slot ∈ slots) :
    slots.find? (·.form.name = slot.form.name) = some slot := by
  induction slots with
  | nil => cases h
  | cons first slots ih =>
    rw [List.map_cons, List.nodup_cons] at hnames
    rcases List.mem_cons.mp h with rfl | h
    · simp
    · have hne : first.form.name ≠ slot.form.name := fun heq =>
        hnames.1 (heq ▸ List.mem_map_of_mem h)
      rw [List.find?_cons_of_neg (by simpa using hne), ih hnames.2 h]

theorem find?_field (hsound : ∀ slot ∈ slots, slot.Sound bound blank) (key : String) :
    (slots.map (·.field)).find? (·.name = key) =
      (slots.find? (·.form.name = key)).map (·.field) := by
  rw [List.find?_map]
  congr 1
  exact List.find?_congr fun slot h => by simp [(hsound slot h).name]

/-- **Filling in goes through the entries in turn:** each is put if it is a field, and skipped if
not. -/
theorem fillByName_entries (access : Access) {room : Nat} (hroom : room < bound)
    (hsound : ∀ slot ∈ slots, slot.Sound bound blank) {entries : List (String × Json)}
    (hvalues : ∀ entry ∈ entries, ∀ slot ∈ slots, slot.form.name = entry.1 →
      slot.form.value room entry.2)
    (hdistinct : entries.Pairwise fun e e' =>
      e.1 = e'.1 → e.1 ∉ slots.map (·.form.name)) :
    ∀ (seen : List String) (record : σ), (∀ entry ∈ entries, entry.1 ∉ seen) →
      ∃ seen', Decoder.fillByName access (slots.map (·.field)) (entrySources entries room) seen
          record = .ok (entries.foldl (fun record e => putEntry slots record e.1) record, seen') ∧
        ∀ name, name ∈ seen' ↔
          name ∈ seen ∨ name ∈ entries.map Prod.fst ∧ name ∈ slots.map (·.form.name) := by
  -- the keys seen so far are the fields among the entries gone through
  induction entries with
  | nil => exact fun _ _ _ => ⟨_, rfl, by simp⟩
  | cons entry entries ih =>
    obtain ⟨key, value⟩ := entry
    intro seen record hseen
    rw [List.pairwise_cons] at hdistinct
    have ih := ih (fun entry h => hvalues entry (List.mem_cons_of_mem _ h)) hdistinct.2
    have hfield := find?_field hsound key
    cases hfind : slots.find? (·.form.name = key) with
    | none =>
      obtain ⟨seen', hfill, hseen'⟩ := ih seen record fun entry h => hseen entry (by simp [h])
      -- no field has this key, so the value is skipped
      have hkey : key ∉ slots.map (·.form.name) := by
        simpa [List.find?_eq_none] using hfind
      rw [hfind, Option.map_none] at hfield
      refine ⟨seen', ?_, fun name => ?_⟩
      · rw [entrySources, fillByName_skip hfield (skipFault_source value room), hfill]
        simp [putEntry, hfind]
      · rw [hseen', List.map_cons, List.mem_cons]
        grind
    | some slot =>
      have hslot : slot ∈ slots := List.mem_of_find?_eq_some hfind
      have hname : slot.form.name = key := by simpa using List.find?_some hfind
      have hkey : key ∈ slots.map (·.form.name) := hname ▸ List.mem_map_of_mem hslot
      -- the field reads the value, and its key is not seen again in what follows
      have hstore := (hsound slot hslot).store access room value record hroom
        (hvalues (key, value) (by simp) slot hslot hname)
      obtain ⟨seen', hfill, hseen'⟩ := ih (key :: seen) (slot.put record) fun entry h => by
        have hother : key ≠ entry.1 := fun heq => hdistinct.1 entry h heq hkey
        simpa [hother.symm] using hseen entry (List.mem_cons_of_mem _ h)
      rw [hfind, Option.map_some] at hfield
      refine ⟨seen', ?_, fun name => ?_⟩
      · rw [entrySources, fillByName_store hfield (hseen (key, value) (by simp)) hstore, hfill]
        simp [putEntry, hfind]
      · rw [hseen', List.map_cons, List.mem_cons, List.mem_cons]
        grind

/-! ### Any order -/

variable (hcomm : ∀ s ∈ slots, ∀ t ∈ slots, ∀ record, s.put (t.put record) = t.put (s.put record))
include hcomm

theorem putEntry_comm (record : σ) (key key' : String) :
    putEntry slots (putEntry slots record key) key' =
      putEntry slots (putEntry slots record key') key := by
  cases hfind : slots.find? (·.form.name = key) <;>
    cases hfind' : slots.find? (·.form.name = key') <;>
    simp only [putEntry, hfind, hfind']
  exact hcomm _ (List.mem_of_find?_eq_some hfind') _ (List.mem_of_find?_eq_some hfind) _

/-- The fields that are written are all put, and the others have their usual value already. -/
theorem put_written (hnames : (slots.map (·.form.name)).Nodup) {room : Nat}
    {part : List (Slot σ)} (hpart : ∀ slot ∈ part, slot ∈ slots) {written : List (String × Json)}
    (h : Written room (part.map (·.form)) written) {record : σ}
    (husual : ∀ slot ∈ part, slot.form.omittable → slot.put record = record) :
    written.foldl (fun record e => putEntry slots record e.1) record =
      part.foldl (fun record slot => slot.put record) record := by
  induction part generalizing written record with
  | nil => cases h; rfl
  | cons slot others ih =>
    have hslot : slot ∈ slots := hpart slot (by simp)
    have hothers : ∀ slot ∈ others, slot ∈ slots := fun t ht => hpart t (List.mem_cons_of_mem _ ht)
    cases h with
    | keep _ h =>
      have hput : putEntry slots record slot.form.name = slot.put record := by
        rw [putEntry, find?_slot hnames hslot]
      rw [List.foldl_cons, List.foldl_cons, hput]
      -- Another field that has its usual value keeps it when this one is put.
      refine ih hothers h fun t ht homit => ?_
      rw [hcomm t (hothers t ht) slot hslot, husual t (List.mem_cons_of_mem _ ht) homit]
    | drop homit h =>
      rw [List.foldl_cons, husual slot (by simp) homit]
      exact ih hothers h fun t ht => husual t (List.mem_cons_of_mem _ ht)

/-- **In whatever order the fields stand,** and whatever stands between them, the record becomes
the same. -/
theorem put_rearranged (hsound : ∀ slot ∈ slots, slot.Sound bound blank)
    (hnames : (slots.map (·.form.name)).Nodup) {room : Nat} {entries : List (String × Json)}
    (h : Rearranged room (slots.map (·.form)) entries) :
    entries.foldl (fun record e => putEntry slots record e.1) blank =
      slots.foldl (fun record slot => slot.put record) blank := by
  obtain ⟨written, added, hwritten, hadded, hperm⟩ := h
  have hskip (added : List (String × Json)) (record : σ)
      (hadded : ∀ entry ∈ added, entry.1 ∉ (slots.map (·.form)).map (·.name)) :
      added.foldl (fun record e => putEntry slots record e.1) record = record := by
    induction added with
    | nil => rfl
    | cons entry added ih =>
      have hnone : slots.find? (·.form.name = entry.1) = none := by
        simpa [List.find?_eq_none] using hadded entry (by simp)
      rw [List.foldl_cons, putEntry, hnone, ih fun e he => hadded e (List.mem_cons_of_mem _ he)]
  -- puts into different fields commute, so the written fields can be brought to the front, in
  -- order
  calc entries.foldl (fun record e => putEntry slots record e.1) blank
    _ = (written ++ added).foldl (fun record e => putEntry slots record e.1) blank :=
      hperm.foldl_eq' (fun _ _ _ _ record => putEntry_comm hcomm record _ _) blank
    _ = written.foldl (fun record e => putEntry slots record e.1) blank := by
      rw [List.foldl_append, hskip added _ hadded]
    _ = slots.foldl (fun record slot => slot.put record) blank :=
      put_written hcomm hnames (fun _ h => h) hwritten fun slot hslot homit =>
        ((hsound slot hslot).omitted homit).2

/-- **A record is decoded from its fields in any order,** with other keys among them and without
the fields that have their usual value. -/
theorem Decodes.record (expected : String) (hsound : ∀ slot ∈ slots, slot.Sound bound blank)
    (hnames : (slots.map (·.form.name)).Nodup) :
    Decodes bound (Decoder.record expected (slots.map (·.field)) blank)
      (.record (slots.map (·.form))) (slots.foldl (fun record slot => slot.put record) blank) := by
  rintro access room j hroom ⟨r, entries, rfl, rfl, h⟩
  have hnames' : ((slots.map (·.form)).map (·.name)).Nodup := by rwa [List.map_map]
  obtain ⟨seen, hfill, hseen⟩ := fillByName_entries access (Nat.lt_of_succ_lt hroom) hsound
    (fun entry hentry slot hslot => h.value hnames' entry hentry _ (List.mem_map_of_mem hslot))
    (by simpa using h.distinct hnames') [] blank (by simp)
  have hthere : (slots.map (·.field)).find? (fun field => field.required && !seen.contains field.name)
      = none := by
    rw [List.find?_eq_none]
    intro field hfield
    obtain ⟨slot, hslot, rfl⟩ := List.mem_map.mp hfield
    have hslot' := hsound slot hslot
    -- a field that may be left out is not required; any other one is among the entries, so it was
    -- seen
    by_cases homit : slot.form.omittable
    · simp [(hslot'.omitted homit).1]
    · have hmem := h.needed_mem slot.form (List.mem_map_of_mem hslot) homit
      have hseen := (hseen slot.form.name).mpr (.inr ⟨hmem, List.mem_map_of_mem hslot⟩)
      simp [hslot'.name, hseen]
  simp only [Decoder.record, source, bind, Except.bind, hfill, Decoder.noFault, hthere,
    put_rearranged hcomm hsound hnames h]
  rfl

end Fill

theorem Codes.record {σ : Type} {bound : Nat} (expected : String) (blank : σ) (slots : List (Slot σ))
    (hcomm : ∀ s ∈ slots, ∀ t ∈ slots, ∀ record, s.put (t.put record) = t.put (s.put record))
    (hsound : slots.Forall (Slot.Sound bound blank)) (hnames : (slots.map (·.form.name)).Nodup) :
    Codes bound (Decoder.record expected (slots.map (·.field)) blank)
      (.record (slots.map (·.form))) (.object (slots.map fun slot => (slot.form.name, slot.json)))
      (slots.foldl (fun record slot => slot.put record) blank) := by
  rw [List.forall_iff_forall_mem] at hsound
  exact {
    decodes := Decodes.record hcomm expected hsound hnames
    flexible := Form.flexible_record <| List.forall_mem_map.mpr fun slot hslot =>
      (hsound slot hslot).flexible
    holdsOf := Form.holdsOf_record <| by
      rw [List.forall₂_map_left_iff, List.forall₂_map_right_iff, List.forall₂_same]
      exact fun slot hslot => ⟨rfl, (hsound slot hslot).holdsOf⟩
    sized := fieldsSized_of <| List.forall_mem_map.mpr fun slot hslot => (hsound slot hslot).sized }

/-! ## Texts -/

/-- **Every text of a form is decoded to its value,** if the integers in it fit 64 bits. -/
theorem Decodes.text {α : Type} {bound : Nat} {d : Decoder α} {form : Form} {a : α} {j : Json}
    {text : String} (h : Decodes bound d form a) (hbound : maxNesting < bound)
    (hform : form maxNesting j) (hsized : j.Sized) (htext : Spells j text.toList) :
    Decoder.decodeText d text = .ok a := by
  have hread := ofText_of_spells hsized htext maxNesting
  have hdecode := h .direct maxNesting j hbound hform
  simp [Decoder.decodeText, hread, hdecode, skipBlanks, bind, Except.bind, pure, Except.pure]

end FunctionAdapters.Json
