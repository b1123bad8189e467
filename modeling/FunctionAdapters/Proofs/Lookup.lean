import Mathlib.Data.Option.Defs
import Mathlib.Data.List.Nodup

/-!
# Looking up keys

Where no key stands twice, what is found under a key is what stands there, so the order does not
matter (`lookup_of_perm`).  Lists with the same keys and related values give related values
(`Aligned.rel_lookup`).
-/

namespace FunctionAdapters

variable {α β : Type} {entries : List (String × α)} {key : String} {value : α}

theorem mem_of_lookup (h : entries.lookup key = some value) : (key, value) ∈ entries := by
  obtain ⟨before, after, hentries, -⟩ := List.lookup_eq_some_iff.1 h
  rw [hentries]
  exact List.mem_append_right before List.mem_cons_self

theorem lookup_eq_none_iff_not_mem : entries.lookup key = none ↔ key ∉ entries.map Prod.fst := by
  rw [List.lookup_eq_none_iff]
  constructor
  · intro h hkey
    obtain ⟨e, he, rfl⟩ := List.mem_map.1 hkey
    simpa using h e he
  · intro h e he
    simpa using fun hkey : key = e.1 => h (hkey ▸ List.mem_map_of_mem he)

theorem lookup_eq_some_iff_mem (hkeys : (entries.map Prod.fst).Nodup) :
    entries.lookup key = some value ↔ (key, value) ∈ entries := by
  constructor
  · exact mem_of_lookup
  · intro hmem
    cases hfound : entries.lookup key with
    | none => exact absurd (List.mem_map_of_mem hmem) (lookup_eq_none_iff_not_mem.1 hfound)
    | some found =>
      have hsame := List.inj_on_of_nodup_map hkeys (mem_of_lookup hfound) hmem rfl
      exact congrArg some (congrArg Prod.snd hsame)

theorem forall_mem_iff_lookup {P : String → α → Prop} (hkeys : (entries.map Prod.fst).Nodup) :
    (∀ e ∈ entries, P e.1 e.2) ↔ ∀ key value, entries.lookup key = some value → P key value := by
  constructor
  · exact fun h key value hfound => h (key, value) (mem_of_lookup hfound)
  · exact fun h e he => h e.1 e.2 ((lookup_eq_some_iff_mem hkeys).2 he)

/-- **The order does not matter**, if no key stands twice. -/
theorem lookup_of_perm {entries' : List (String × α)} (hperm : entries.Perm entries')
    (hkeys : (entries.map Prod.fst).Nodup) (key : String) :
    entries.lookup key = entries'.lookup key := by
  have hkeys' : (entries'.map Prod.fst).Nodup := (hperm.map Prod.fst).nodup_iff.1 hkeys
  ext value
  rw [lookup_eq_some_iff_mem hkeys, lookup_eq_some_iff_mem hkeys', hperm.mem_iff]

/-- The same keys in the same order, with related values. -/
inductive Aligned (R : α → β → Prop) : List (String × α) → List (String × β) → Prop
  | nil : Aligned R [] []
  | cons (key : String) {a : α} {b : β} {rest : List (String × α)} {rest' : List (String × β)}
    (first : R a b) (others : Aligned R rest rest') :
    Aligned R ((key, a) :: rest) ((key, b) :: rest')

namespace Aligned

variable {R : α → β → Prop} {entries' : List (String × β)}

theorem keys_eq (h : Aligned R entries entries') :
    entries.map Prod.fst = entries'.map Prod.fst := by
  induction h with
  | nil => rfl
  | cons key first others ih => rw [List.map_cons, List.map_cons, ih]

theorem rel_lookup (h : Aligned R entries entries') (key : String) :
    Option.Rel R (entries.lookup key) (entries'.lookup key) := by
  induction h with
  | nil => exact .none
  | cons k first others ih =>
    rw [List.lookup_cons, List.lookup_cons]
    by_cases hkey : key = k
    · rw [beq_iff_eq.2 hkey]
      exact .some first
    · rw [beq_false_of_ne hkey]
      exact ih

end Aligned

section Related

variable {R : α → β → Prop} {found : Option α} {found' : Option β} (h : Option.Rel R found found')
include h

theorem bind_eq_of_rel {γ : Type} {f : α → Option γ} {g : β → Option γ}
    (hfg : ∀ a b, R a b → f a = g b) : found.bind f = found'.bind g := by
  cases h with
  | none => rfl
  | some hab => exact hfg _ _ hab

theorem forall_mem_iff_of_rel {P : α → Prop} {Q : β → Prop} (hPQ : ∀ a b, R a b → (P a ↔ Q b)) :
    (∀ a ∈ found, P a) ↔ ∀ b ∈ found', Q b := by
  cases h with
  | none => simp
  | some hab => simpa using hPQ _ _ hab

end Related

end FunctionAdapters
