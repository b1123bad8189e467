import FunctionAdapters.Proofs.Except
import FunctionAdapters.Proofs.Lookup
import FunctionAdapters.Toml.Decoder

/-!
# Decoding tables

A record is read from a table if and only if each of its entries is taken by a field
(`exists_fillByName_iff`), and then each part of the record is what stands under its key, or what it was
before if nothing stands there (`reads_of_fillByName`).  Neither depends on the order of the entries.
-/

namespace FunctionAdapters.Toml

/-! ## Names -/

def Node.holdsNothing : Node → Bool
  | .table _ entries => entries.isEmpty
  | .array items => items.isEmpty
  | .tables items => items.isEmpty
  | _ => false

/-- The word that a node gives, alone or as the only key of a table with nothing under it. -/
def Node.word? : Node → Option String
  | .string word => some word
  | .table _ [(word, content)] => if content.holdsNothing then some word else none
  | _ => none

theorem Node.word?_eq_none {origin : Origin} {entries : Entries} (h : entries.length ≠ 1) :
    (Node.table origin entries).word? = none := by
  match entries with
  | [] | _ :: _ :: _ => rfl
  | [_] => exact absurd rfl h

namespace Decoder

theorem noContent_iff {node : Node} : noContent node = .ok () ↔ node.holdsNothing = true := by
  cases node <;> simp [noContent, Node.holdsNothing]

theorem select_eq_ok {α : Type} {names : List (String × α)} {word : String} {a : α} :
    select names word = .ok a ↔ names.lookup word = some a := by
  unfold select
  split <;> simp [*]

/-- **A choice is a word that is among the names**, in one of its two forms. -/
theorem nameOf_eq_ok {α : Type} {names : List (String × α)} {node : Node} {a : α} :
    nameOf names node = .ok a ↔ ∃ word ∈ node.word?, names.lookup word = some a := by
  cases node with
  | string word => simp [nameOf, Node.word?, select_eq_ok]
  | table origin entries =>
    match entries with
    | [] => simp [nameOf, Node.word?]
    -- the word as the only key, with nothing under it
    | [(word, content)] =>
      constructor
      · intro h
        obtain ⟨value, hvalue, h⟩ := Except.bind_eq_ok.1 h
        obtain ⟨_, hcontent, h⟩ := Except.bind_eq_ok.1 h
        obtain rfl := Except.ok.inj h
        refine ⟨word, ?_, select_eq_ok.1 hvalue⟩
        rw [Node.word?, if_pos (noContent_iff.1 hcontent)]
        rfl
      · rintro ⟨w, hword, hlookup⟩
        rw [Node.word?] at hword
        split at hword
        · next hcontent =>
          obtain rfl := Option.some.inj hword
          rw [nameOf, select_eq_ok.2 hlookup, noContent_iff.2 hcontent]
          rfl
        · cases hword
    | _ :: _ :: _ => simp [nameOf, Node.word?]
  | _ => simp [nameOf, Node.word?]

/-! ## Records -/

variable {σ : Type} {fields : List (Field σ)}

@[simp] theorem Field.name_of {α : Type} (name : String) (d : Decoder α) (set : α → σ → σ) :
    (Field.of name d set).name = name := rfl

theorem Field.store_of_eq_ok {α : Type} {name : String} {d : Decoder α} {set : α → σ → σ}
    {node : Node} {record record' : σ} :
    (Field.of name d set).store node record = .ok record' ↔
      ∃ a, d node = .ok a ∧ set a record = record' :=
  Except.map_eq_ok

/-- **What is read.**  A record can be filled from some entries if and only if every entry is taken. -/
theorem exists_fillByName_iff {takes : String → Node → Prop}
    (htakes : ∀ key node record, takes key node ↔
      ∃ field ∈ fields.find? (·.name = key), ∃ record', field.store node record = .ok record')
    (entries : Entries) (record : σ) :
    (∃ record', fillByName fields entries record = .ok record') ↔
      ∀ e ∈ entries, takes e.1 e.2 := by
  induction entries generalizing record with
  | nil => simp [fillByName]
  | cons e entries ih =>
    obtain ⟨key, node⟩ := e
    rw [List.forall_mem_cons, htakes key node record, fillByName]
    cases hfind : fields.find? (·.name = key) with
    | none => simp
    | some field =>
      simp only [Except.bind_eq_ok, Option.mem_some_iff, exists_eq_left']
      -- whether a value is read does not depend on the record it goes into
      constructor
      · rintro ⟨filled, next, hnext, hfilled⟩
        exact ⟨⟨next, hnext⟩, (ih next).1 ⟨filled, hfilled⟩⟩
      · rintro ⟨⟨next, hnext⟩, hothers⟩
        obtain ⟨filled, hfilled⟩ := (ih next).2 hothers
        exact ⟨filled, next, hnext, hfilled⟩

/-- **What is stored.**  A part of a filled record goes with what stands under its key; it is what it
was before if nothing stands there. -/
theorem reads_of_fillByName {β : Type} (get : σ → β) (Reads : Node → β → Prop) (name : String)
    (hset : ∀ field ∈ fields, field.name = name → ∀ node record record',
      field.store node record = .ok record' → Reads node (get record'))
    (hkeep : ∀ field ∈ fields, field.name ≠ name → ∀ node record record',
      field.store node record = .ok record' → get record' = get record)
    {entries : Entries} (hkeys : (entries.map Prod.fst).Nodup) {record record' : σ}
    (h : fillByName fields entries record = .ok record') :
    (entries.lookup name).elim (get record' = get record) fun node => Reads node (get record') := by
  induction entries generalizing record with
  | nil =>
    obtain rfl := Except.ok.inj h
    exact rfl
  | cons e entries ih =>
    obtain ⟨key, node⟩ := e
    rw [List.map_cons, List.nodup_cons] at hkeys
    rw [fillByName] at h
    split at h
    · next field hfind =>
      obtain ⟨next, hnext, h⟩ := Except.bind_eq_ok.1 h
      have hmem : field ∈ fields := List.mem_of_find?_eq_some hfind
      have hname : field.name = key := by simpa using List.find?_some hfind
      have hrest := ih hkeys.2 h
      rw [List.lookup_cons]
      by_cases hkey : name = key
      · -- nothing after it stands under this key
        have hnone : entries.lookup name = none :=
          lookup_eq_none_iff_not_mem.2 (hkey ▸ hkeys.1)
        have hread := hset field hmem (hname.trans hkey.symm) _ _ _ hnext
        rw [hnone] at hrest
        rw [beq_iff_eq.2 hkey]
        exact (show get record' = get next from hrest) ▸ hread
      · have hkept := hkeep field hmem (fun heq => hkey (heq.symm.trans hname)) _ _ _ hnext
        rw [beq_false_of_ne hkey, ← hkept]
        exact hrest
    · cases h

theorem bind_of_fillByName {β : Type} (get : σ → Option β) (read? : Node → Option β) (name : String)
    (hset : ∀ field ∈ fields, field.name = name → ∀ node record record',
      field.store node record = .ok record' → read? node = get record')
    (hkeep : ∀ field ∈ fields, field.name ≠ name → ∀ node record record',
      field.store node record = .ok record' → get record' = get record)
    {entries : Entries} (hkeys : (entries.map Prod.fst).Nodup) {record record' : σ}
    (hblank : get record = none) (h : fillByName fields entries record = .ok record') :
    get record' = (entries.lookup name).bind read? := by
  have hread := reads_of_fillByName get (fun node b => read? node = b) name hset hkeep hkeys h
  revert hread
  cases entries.lookup name with
  | none => exact fun hkept => hkept.trans hblank
  | some node => exact Eq.symm

/-! ## Free keys -/

theorem decodeEntries_eq_ok {α : Type} {d : Decoder α} {entries : Entries}
    {values : List (String × α)} (h : decodeEntries d entries = .ok values) :
    Aligned (fun node a => d node = .ok a) entries values := by
  induction entries generalizing values with
  | nil =>
    obtain rfl := Except.ok.inj h
    exact .nil
  | cons e entries ih =>
    obtain ⟨key, node⟩ := e
    rw [decodeEntries] at h
    obtain ⟨value, hvalue, h⟩ := Except.bind_eq_ok.1 h
    obtain ⟨more, hmore, h⟩ := Except.bind_eq_ok.1 h
    obtain rfl := Except.ok.inj h
    exact .cons key hvalue (ih hmore)

theorem exists_decodeEntries_iff {α : Type} {d : Decoder α} {entries : Entries} :
    (∃ values, decodeEntries d entries = .ok values) ↔ ∀ e ∈ entries, ∃ a, d e.2 = .ok a := by
  induction entries with
  | nil => simp [decodeEntries]
  | cons e entries ih =>
    obtain ⟨key, node⟩ := e
    rw [List.forall_mem_cons, ← ih, decodeEntries]
    simp only [Except.bind_eq_ok]
    constructor
    · rintro ⟨values, value, hvalue, more, hmore, -⟩
      exact ⟨⟨value, hvalue⟩, ⟨more, hmore⟩⟩
    · rintro ⟨⟨value, hvalue⟩, ⟨more, hmore⟩⟩
      exact ⟨_, value, hvalue, more, hmore, rfl⟩

end Decoder

end FunctionAdapters.Toml
