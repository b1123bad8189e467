import FunctionAdapters.Proofs.Json.Reader
import Mathlib.Data.List.Forall2

/-!
Which values stand for something: for a record, the objects that hold its fields in any order, with
other keys among them and without some of the fields that have a usual value (`Rearranged`).

Forms keep count of the levels of nesting that can still be read, since an array or an object that
is nested deeper can only be skipped.  What stands under other keys is skipped and not restricted,
so a form may hold of values nested as deep as one likes; only the part that is read has to fit
(`Form.Flexible`).
-/

namespace FunctionAdapters.Json

/-! ## Forms -/

/-- The values that stand for something, by the levels of nesting that can be read. -/
abbrev Form := Nat → Json → Prop

/-- How a field may stand in an object. -/
structure FieldForm where
  name : String
  /-- The values with which it is written. -/
  value : Form
  /-- Whether it may be left out. -/
  omittable : Prop

namespace FieldForm

/-- A field that is always written. -/
def needed (name : String) (value : Form) : FieldForm := ⟨name, value, False⟩

/-- A field that may be left out when its value is the usual one. -/
def optional (name : String) (value : Form) (usual : Prop) : FieldForm := ⟨name, value, usual⟩

/-- A field that is never written. -/
def absent (name : String) : FieldForm := ⟨name, fun _ _ => False, True⟩

end FieldForm

/-- The fields in their order, some left out. -/
inductive Written (room : Nat) : List FieldForm → List (String × Json) → Prop
  | none : Written room [] []
  | keep {field : FieldForm} {v : Json} {fields : List FieldForm} {entries : List (String × Json)} :
    field.value room v → Written room fields entries →
      Written room (field :: fields) ((field.name, v) :: entries)
  | drop {field : FieldForm} {fields : List FieldForm} {entries : List (String × Json)} :
    field.omittable → Written room fields entries → Written room (field :: fields) entries

/-- The fields in any order, some left out, among entries with other keys. -/
def Rearranged (room : Nat) (fields : List FieldForm) (entries : List (String × Json)) : Prop :=
  ∃ written added, Written room fields written ∧
    (∀ entry ∈ added, entry.1 ∉ fields.map (·.name)) ∧ entries.Perm (written ++ added)

namespace Written

variable {room : Nat} {fields : List FieldForm} {entries : List (String × Json)}

theorem sublist (h : Written room fields entries) :
    (entries.map Prod.fst).Sublist (fields.map (·.name)) := by
  induction h with
  | none => exact .slnil
  | keep _ _ ih => exact ih.cons_cons _
  | drop _ _ ih => exact ih.cons _

theorem value (h : Written room fields entries) (hnames : (fields.map (·.name)).Nodup) :
    ∀ entry ∈ entries, ∀ field ∈ fields, field.name = entry.1 → field.value room entry.2 := by
  induction h with
  | none => simp
  | keep hv hwritten ih =>
    rw [List.map_cons, List.nodup_cons] at hnames
    rintro entry (_ | ⟨_, hentry⟩) field (_ | ⟨_, hfield⟩) heq
    · exact hv
    · exact absurd (List.mem_map.mpr ⟨field, hfield, heq⟩) hnames.1
    · exact absurd (heq ▸ hwritten.sublist.subset (List.mem_map_of_mem hentry)) hnames.1
    · exact ih hnames.2 entry hentry field hfield heq
  | drop _ hwritten ih =>
    rw [List.map_cons, List.nodup_cons] at hnames
    rintro entry hentry field (_ | ⟨_, hfield⟩) heq
    · exact absurd (heq ▸ hwritten.sublist.subset (List.mem_map_of_mem hentry)) hnames.1
    · exact ih hnames.2 entry hentry field hfield heq

theorem needed_mem (h : Written room fields entries) :
    ∀ field ∈ fields, ¬field.omittable → field.name ∈ entries.map Prod.fst := by
  induction h with
  | none => simp
  | keep _ _ ih =>
    rintro field (_ | ⟨_, hfield⟩) hneeded
    · exact List.mem_cons_self
    · exact List.mem_cons_of_mem _ (ih field hfield hneeded)
  | drop homit _ ih =>
    rintro field (_ | ⟨_, hfield⟩) hneeded
    · exact absurd homit hneeded
    · exact ih field hfield hneeded

end Written

namespace Rearranged

variable {room : Nat} {fields : List FieldForm} {entries : List (String × Json)}

theorem value (h : Rearranged room fields entries) (hnames : (fields.map (·.name)).Nodup) :
    ∀ entry ∈ entries, ∀ field ∈ fields, field.name = entry.1 → field.value room entry.2 := by
  obtain ⟨written, added, hwritten, hadded, hperm⟩ := h
  intro entry hentry field hfield heq
  rcases List.mem_append.mp (hperm.mem_iff.mp hentry) with hentry | hentry
  · exact hwritten.value hnames entry hentry field hfield heq
  · exact absurd (heq ▸ List.mem_map_of_mem hfield) (hadded entry hentry)

theorem needed_mem (h : Rearranged room fields entries) :
    ∀ field ∈ fields, ¬field.omittable → field.name ∈ entries.map Prod.fst := by
  obtain ⟨written, added, hwritten, -, hperm⟩ := h
  intro field hfield hneeded
  rw [(hperm.map Prod.fst).mem_iff, List.map_append]
  exact List.mem_append_left _ (hwritten.needed_mem field hfield hneeded)

theorem distinct (h : Rearranged room fields entries) (hnames : (fields.map (·.name)).Nodup) :
    entries.Pairwise fun e e' => e.1 = e'.1 → e.1 ∉ fields.map (·.name) := by
  obtain ⟨written, added, hwritten, hadded, hperm⟩ := h
  rw [hperm.pairwise_iff fun {e e'} h heq => heq ▸ h heq.symm, List.pairwise_append]
  refine ⟨?_, List.pairwise_of_forall_mem_list fun e he _ _ _ => hadded e he, ?_⟩
  · have hkeys := hnames.sublist hwritten.sublist
    rw [List.Nodup, List.pairwise_map] at hkeys
    exact hkeys.imp fun hne heq => absurd heq hne
  · intro e _ e' he' heq
    exact heq ▸ hadded e' he'

end Rearranged

namespace Form

/-- This value and no other; it is no array and no object. -/
def exactly (v : Json) : Form := fun _ j => j = v

/-- An object with this key alone. -/
def tagged (tag : String) (inner : Form) : Form := fun room j =>
  ∃ r v, room = r + 1 ∧ j = .object [(tag, v)] ∧ inner r v

def list (items : List Form) : Form := fun room j =>
  ∃ r values, room = r + 1 ∧ j = .array values ∧ List.Forall₂ (fun form v => form r v) items values

def record (fields : List FieldForm) : Form := fun room j =>
  ∃ r entries, room = r + 1 ∧ j = .object entries ∧ Rearranged r fields entries

/-- A value or `null`. -/
def nullable {α : Type} (form : α → Form) : Option α → Form
  | none => exactly .null
  | some a => form a

end Form

/-! ## How much is read -/

theorem depth_le_depths {items : List Json} {item : Json} (h : item ∈ items) :
    item.depth ≤ depths items := by
  induction items with
  | nil => cases h
  | cons first items ih =>
    rw [depths]
    rcases List.mem_cons.mp h with rfl | h
    · exact Nat.le_max_left _ _
    · exact le_trans (ih h) (Nat.le_max_right _ _)

theorem depth_le_fieldDepths {entries : List (String × Json)} {entry : String × Json}
    (h : entry ∈ entries) : entry.2.depth ≤ fieldDepths entries := by
  induction entries with
  | nil => cases h
  | cons first entries ih =>
    rw [fieldDepths]
    rcases List.mem_cons.mp h with rfl | h
    · exact Nat.le_max_left _ _
    · exact le_trans (ih h) (Nat.le_max_right _ _)

/-- A value is of the form with any other room too in which it can be read, or all of it that had to
be read before. -/
def Form.Flexible (form : Form) : Prop :=
  ∀ ⦃room room' j⦄, form room j → min room j.depth ≤ room' → form room' j

theorem Written.flexible {room room' : Nat} {fields : List FieldForm}
    {entries : List (String × Json)} (h : Written room fields entries)
    (hflexible : ∀ field ∈ fields, field.value.Flexible)
    (hroom : ∀ entry ∈ entries, min room entry.2.depth ≤ room') : Written room' fields entries := by
  induction h with
  | none => exact .none
  | keep hv _ ih =>
    exact .keep (hflexible _ (by simp) hv (hroom (_, _) List.mem_cons_self))
      (ih (fun field h => hflexible field (by simp [h])) fun entry h => hroom entry (by simp [h]))
  | drop homit _ ih =>
    exact .drop homit (ih (fun field h => hflexible field (by simp [h])) hroom)

theorem Rearranged.flexible {room room' : Nat} {fields : List FieldForm}
    {entries : List (String × Json)} (h : Rearranged room fields entries)
    (hflexible : ∀ field ∈ fields, field.value.Flexible)
    (hroom : min room (fieldDepths entries) ≤ room') : Rearranged room' fields entries := by
  obtain ⟨written, added, hwritten, hadded, hperm⟩ := h
  refine ⟨written, added, hwritten.flexible hflexible fun entry hentry => ?_, hadded, hperm⟩
  have hdepth := depth_le_fieldDepths (hperm.mem_iff.mpr (List.mem_append_left added hentry))
  omega

namespace Form

theorem flexible_exactly (v : Json) : (exactly v).Flexible := fun _ _ _ h _ => h

theorem flexible_tagged (tag : String) {inner : Form} (h : inner.Flexible) :
    (tagged tag inner).Flexible := by
  rintro room room' j ⟨r, v, rfl, rfl, hv⟩ hroom
  simp only [depth, fieldDepths] at hroom
  obtain ⟨r', rfl⟩ := Nat.exists_eq_add_of_le' (show 1 ≤ room' by omega)
  exact ⟨r', v, rfl, rfl, h hv (by omega)⟩

theorem flexible_list {items : List Form} (h : ∀ form ∈ items, form.Flexible) :
    (list items).Flexible := by
  rintro room room' j ⟨r, values, rfl, rfl, hvalues⟩ hroom
  simp only [depth] at hroom
  obtain ⟨r', rfl⟩ := Nat.exists_eq_add_of_le' (show 1 ≤ room' by omega)
  refine ⟨r', values, rfl, rfl, ?_⟩
  have hdepths : ∀ v ∈ values, min r v.depth ≤ r' := fun v hv => by
    have := depth_le_depths hv
    omega
  clear hroom
  induction hvalues with
  | nil => exact .nil
  | cons hv _ ih =>
    exact .cons (h _ (by simp) hv (hdepths _ (by simp)))
      (ih (fun form hform => h form (by simp [hform])) fun v hv => hdepths v (by simp [hv]))

theorem flexible_record {fields : List FieldForm} (h : ∀ field ∈ fields, field.value.Flexible) :
    (record fields).Flexible := by
  rintro room room' j ⟨r, entries, rfl, rfl, hentries⟩ hroom
  simp only [depth] at hroom
  obtain ⟨r', rfl⟩ := Nat.exists_eq_add_of_le' (show 1 ≤ room' by omega)
  exact ⟨r', entries, rfl, rfl, hentries.flexible h (by omega)⟩

theorem flexible_nullable {α : Type} {form : α → Form} {a : Option α}
    (h : ∀ b ∈ a, (form b).Flexible) : (nullable form a).Flexible := by
  cases a with
  | none => exact flexible_exactly .null
  | some b => exact h b rfl

/-- The form holds of a value wherever it can be read whole. -/
def HoldsOf (form : Form) (j : Json) : Prop := ∀ room, j.depth ≤ room → form room j

theorem holdsOf_exactly (v : Json) : (exactly v).HoldsOf v := fun _ _ => rfl

theorem holdsOf_tagged (tag : String) {inner : Form} {v : Json} (h : inner.HoldsOf v) :
    (tagged tag inner).HoldsOf (.object [(tag, v)]) := by
  intro room hroom
  simp only [depth, fieldDepths] at hroom
  obtain ⟨r, rfl⟩ := Nat.exists_eq_add_of_le' (show 1 ≤ room by omega)
  exact ⟨r, v, rfl, rfl, h r (by omega)⟩

theorem holdsOf_list {items : List Form} {values : List Json}
    (h : List.Forall₂ HoldsOf items values) : (list items).HoldsOf (.array values) := by
  intro room hroom
  simp only [depth] at hroom
  obtain ⟨r, rfl⟩ := Nat.exists_eq_add_of_le' (show 1 ≤ room by omega)
  refine ⟨r, values, rfl, rfl, ?_⟩
  have hdepths : ∀ v ∈ values, v.depth ≤ r := fun v hv => by
    have := depth_le_depths hv
    omega
  clear hroom
  induction h with
  | nil => exact .nil
  | cons hv _ ih => exact .cons (hv r (hdepths _ (by simp))) (ih fun v hv => hdepths v (by simp [hv]))

theorem holdsOf_record {fields : List FieldForm} {entries : List (String × Json)}
    (h : List.Forall₂ (fun field entry => field.name = entry.1 ∧ field.value.HoldsOf entry.2)
      fields entries) : (record fields).HoldsOf (.object entries) := by
  intro room hroom
  simp only [depth] at hroom
  obtain ⟨r, rfl⟩ := Nat.exists_eq_add_of_le' (show 1 ≤ room by omega)
  refine ⟨r, entries, rfl, rfl, entries, [], ?_, by simp, by simp⟩
  have hdepths : ∀ entry ∈ entries, entry.2.depth ≤ r := fun entry hentry => by
    have := depth_le_fieldDepths hentry
    omega
  clear hroom
  induction h with
  | nil => exact .none
  | @cons field entry fields entries hfield _ ih =>
    obtain ⟨key, value⟩ := entry
    obtain ⟨rfl, hvalue⟩ := hfield
    exact .keep (hvalue r (hdepths (field.name, value) (by simp)))
      (ih fun entry hentry => hdepths entry (by simp [hentry]))

theorem holdsOf_nullable {α : Type} {form : α → Form} {toJson : α → Json} {a : Option α}
    (h : ∀ b ∈ a, (form b).HoldsOf (toJson b)) :
    (nullable form a).HoldsOf (Json.ofOption toJson a) := by
  cases a with
  | none => exact holdsOf_exactly .null
  | some b => exact h b rfl

end Form

end FunctionAdapters.Json
