import FunctionAdapters.Config.Load
import FunctionAdapters.Proofs.Toml.Decoding
import FunctionAdapters.Proofs.Toml.Path

/-!
# The sections of a configuration

The tables of a configuration, where they stand and which keys they have, are said once as data
(`Section.path`, `Section.kind?`).  A document whose sections are tables is read if and only if every
entry of every section is under one of these keys and of the kind that belongs there
(`exists_ofDocument_iff`).
-/

namespace FunctionAdapters

open Toml Toml.Decoder

/-! ## Values -/

def NamingPolicy.named : String → Option NamingPolicy
  | "rename" => some .rename
  | "exclude" => some .exclude
  | _ => none

namespace Toml.Node

/-- The policy that a node names. -/
def policy? (node : Node) : Option NamingPolicy := node.word?.bind NamingPolicy.named

def text? : Node → Option String
  | string text => some text
  | _ => none

def truth? : Node → Option Bool
  | boolean truth => some truth
  | _ => none

def IsTable (node : Node) : Prop := ∃ origin entries, node = .table origin entries

end Toml.Node

theorem lookup_words (word : String) : NamingPolicy.words.lookup word = NamingPolicy.named word := by
  unfold NamingPolicy.named
  split
  · rfl
  · rfl
  · next hrename hexclude =>
    simp only [NamingPolicy.words, NamingPolicy.word, List.map_cons, List.map_nil]
    rw [List.lookup_cons, beq_false_of_ne hrename, List.lookup_cons, beq_false_of_ne hexclude]
    rfl

theorem nameOf_words_eq_ok {node : Node} {policy : NamingPolicy} :
    nameOf NamingPolicy.words node = .ok policy ↔ node.policy? = some policy := by
  simp only [nameOf_eq_ok, lookup_words, Node.policy?, Option.bind_eq_some_iff, Option.mem_def]

theorem string_eq_ok {node : Node} {text : String} :
    string node = .ok text ↔ node.text? = some text := by
  cases node <;> simp [string, wrongKind, Node.text?]

theorem boolean_eq_ok {node : Node} {truth : Bool} :
    boolean node = .ok truth ↔ node.truth? = some truth := by
  cases node <;> simp [boolean, wrongKind, Node.truth?]

/-! ## Sections and their keys -/

namespace Config

/-- A table of a configuration. -/
inductive Section where
  | root
  | naming
  | classes
  /-- What is chosen for one class, by its full name. -/
  | ofClass (name : String)
  | logging

/-- What stands under a key. -/
inductive Kind where
  | table (s : Section)
  | policy
  | text
  | truth

namespace Section

def path : Section → List String
  | root => []
  | naming => ["naming"]
  | classes => ["classes"]
  | ofClass name => ["classes", name]
  | logging => ["logging"]

/-- What stands under a key of a section; nothing if the key means nothing there. -/
def kind? (s : Section) (key : String) : Option Kind :=
  match s with
  | root =>
    [("naming", .table naming), ("classes", .table classes),
      ("logging", .table logging)].lookup key
  | naming => [("default_policy", .policy)].lookup key
  | classes => some (.table (.ofClass key))
  | ofClass _ => [("policy", .policy), ("generated_name", .text)].lookup key
  | logging => [("level", .text), ("json", .truth)].lookup key

/-- Whether the decoder for a section reads a node. -/
def Readable : Section → Node → Prop
  | root, node => ∃ c, Config.decoder node = .ok c
  | naming, node => ∃ c, NamingConfig.decoder node = .ok c
  | classes, node => ∃ cs, Decoder.map ClassConfig.decoder node = .ok cs
  | ofClass _, node => ∃ c, ClassConfig.decoder node = .ok c
  | logging, node => ∃ c, LoggingConfig.decoder node = .ok c

end Section

namespace Kind

/-- Whether a node is of a kind; of a section it says only that it is a table. -/
def Fits : Kind → Node → Prop
  | .table _, node => node.IsTable
  | policy, node => node.policy?.isSome
  | text, node => node.text?.isSome
  | truth, node => node.truth?.isSome

/-- Whether the decoder for a kind reads a node. -/
def Readable : Kind → Node → Prop
  | .table s, node => s.Readable node
  | policy, node => ∃ p, nameOf NamingPolicy.words node = .ok p
  | text, node => ∃ t, string node = .ok t
  | truth, node => ∃ b, boolean node = .ok b

theorem readable_iff_fits {kind : Kind} (h : ∀ s, kind ≠ .table s) (node : Node) :
    kind.Readable node ↔ kind.Fits node := by
  cases kind with
  | table s => exact absurd rfl (h s)
  | policy => simp only [Readable, Fits, nameOf_words_eq_ok, Option.isSome_iff_exists]
  | text => simp only [Readable, Fits, string_eq_ok, Option.isSome_iff_exists]
  | truth => simp only [Readable, Fits, boolean_eq_ok, Option.isSome_iff_exists]

end Kind

/-! ## Reading a section -/

/-- A field is for a key if it has its name and reads what is of its kind. -/
structure IsFor {σ : Type} (field : Toml.Decoder.Field σ) (entry : String × Kind) : Prop where
  name_eq : field.name = entry.1
  store_iff : ∀ node record,
    entry.2.Readable node ↔ ∃ record', field.store node record = .ok record'

theorem isFor_of {α σ : Type} (name : String) {d : Toml.Decoder α} (set : α → σ → σ) {kind : Kind}
    (h : ∀ node, kind.Readable node ↔ ∃ a, d node = .ok a) :
    IsFor (.of name d set) (name, kind) where
  name_eq := rfl
  store_iff node record := by
    simp only [h node, Field.store_of_eq_ok]
    constructor
    · rintro ⟨a, ha⟩
      exact ⟨_, a, ha, rfl⟩
    · rintro ⟨_, a, ha, -⟩
      exact ⟨a, ha⟩

section Records

variable {σ : Type} {fields : List (Toml.Decoder.Field σ)} {keys : List (String × Kind)}
  (h : List.Forall₂ IsFor fields keys)
include h

theorem exists_find?_iff (key : String) (node : Node) (record : σ) :
    (∃ kind ∈ keys.lookup key, kind.Readable node) ↔
      ∃ field ∈ fields.find? (·.name = key), ∃ record', field.store node record = .ok record' := by
  induction h with
  | nil => simp
  | @cons field entry fields keys first others ih =>
    rw [List.lookup_cons, List.find?_cons, first.name_eq]
    by_cases hkey : key = entry.1
    · rw [beq_iff_eq.2 hkey, decide_eq_true hkey.symm]
      simpa using first.store_iff node record
    · rw [beq_false_of_ne hkey, decide_eq_false (Ne.symm hkey)]
      exact ih

/-- A record is read from a table if every entry is under a key that is known and of its kind. -/
theorem exists_record_iff (expected : String) (blank : σ) (origin : Origin) {entries : Entries}
    (hkeys : (entries.map Prod.fst).Nodup) :
    (∃ a, record expected fields blank (.table origin entries) = .ok a) ↔
      ∀ key node, entries.lookup key = some node →
        ∃ kind ∈ keys.lookup key, kind.Readable node := by
  rw [← forall_mem_iff_lookup hkeys]
  exact exists_fillByName_iff (exists_find?_iff h) entries blank

end Records

/-- **What a section takes.** -/
theorem Section.readable_iff (s : Section) (origin : Origin) {entries : Entries}
    (hkeys : (entries.map Prod.fst).Nodup) :
    s.Readable (.table origin entries) ↔
      ∀ key node, entries.lookup key = some node → ∃ kind ∈ s.kind? key, kind.Readable node := by
  cases s with
  | root =>
    refine exists_record_iff ?_ _ _ origin hkeys
    exact .cons (isFor_of _ _ fun _ => .rfl) <| .cons (isFor_of _ _ fun _ => .rfl) <|
      .cons (isFor_of _ _ fun _ => .rfl) .nil
  | naming =>
    refine exists_record_iff ?_ _ _ origin hkeys
    exact .cons (isFor_of _ _ fun _ => .rfl) .nil
  | classes =>
    refine (exists_decodeEntries_iff (d := ClassConfig.decoder)).trans ?_
    rw [forall_mem_iff_lookup (P := fun _ node => ∃ c, ClassConfig.decoder node = .ok c) hkeys]
    simp [kind?, Kind.Readable, Readable]
  | ofClass name =>
    refine exists_record_iff ?_ _ _ origin hkeys
    exact .cons (isFor_of _ _ fun _ => .rfl) <| .cons (isFor_of _ _ fun _ => .rfl) .nil
  | logging =>
    refine exists_record_iff ?_ _ _ origin hkeys
    exact .cons (isFor_of _ _ fun _ => .rfl) <| .cons (isFor_of _ _ fun _ => .rfl) .nil

/-! ## Documents -/

/-- The sections that a document has are tables. -/
def SectionsAreTables (document : Node) : Prop :=
  ∀ (s sub : Section) (key : String), s.kind? key = some (.table sub) →
    ∀ node ∈ document.at? (s.path ++ [key]), node.IsTable

/-- What a document holds in its sections is under known keys and of the kinds that belong there. -/
def Conforms (document : Node) : Prop :=
  ∀ (s : Section) (key : String), ∀ node ∈ document.at? (s.path ++ [key]),
    ∃ kind ∈ s.kind? key, kind.Fits node

namespace Section

theorem kind?_root {key : String} {kind : Kind} (h : root.kind? key = some kind) :
    key = "naming" ∧ kind = .table naming ∨ key = "classes" ∧ kind = .table classes ∨
      key = "logging" ∧ kind = .table logging := by
  simpa using mem_of_lookup h

theorem kind?_ne_table {s sub : Section} (hs : s ≠ root ∧ s ≠ classes) (key : String) :
    s.kind? key ≠ some (.table sub) := by
  intro h
  cases s with
  | root => exact hs.1 rfl
  | classes => exact hs.2 rfl
  | _ => simpa using mem_of_lookup h

theorem path_of_kind? {s sub : Section} {key : String} (h : s.kind? key = some (.table sub)) :
    sub.path = s.path ++ [key] := by
  cases s with
  | root => rcases kind?_root h with ⟨rfl, ⟨⟩⟩ | ⟨rfl, ⟨⟩⟩ | ⟨rfl, ⟨⟩⟩ <;> rfl
  | classes =>
    cases h
    rfl
  | _ => exact absurd h (kind?_ne_table (by simp) key)

/-- Induction from the root down. -/
theorem induction_down {P : Section → Prop} (hroot : P root)
    (hsub : ∀ s sub key, s.kind? key = some (.table sub) → P s → P sub) (s : Section) : P s := by
  cases s with
  | root => exact hroot
  | naming => exact hsub root naming "naming" rfl hroot
  | classes => exact hsub root classes "classes" rfl hroot
  | ofClass name =>
    exact hsub classes (.ofClass name) name rfl (hsub root classes "classes" rfl hroot)
  | logging => exact hsub root logging "logging" rfl hroot

/-- Induction from the last sections up. -/
theorem induction_up {P : Section → Prop}
    (h : ∀ s, (∀ sub key, s.kind? key = some (.table sub) → P sub) → P s) (s : Section) : P s := by
  have hleaf (s : Section) (hs : s ≠ root ∧ s ≠ classes) : P s :=
    h s fun sub key hkind => absurd hkind (kind?_ne_table hs key)
  have hclasses : P classes := h classes fun sub key hkind => by
    cases hkind
    exact hleaf _ ⟨nofun, nofun⟩
  cases s with
  | root =>
    refine h root fun sub key hkind => ?_
    rcases kind?_root hkind with ⟨-, ⟨⟩⟩ | ⟨-, ⟨⟩⟩ | ⟨-, ⟨⟩⟩
    · exact hleaf naming ⟨nofun, nofun⟩
    · exact hclasses
    · exact hleaf logging ⟨nofun, nofun⟩
  | classes => exact hclasses
  | _ => exact hleaf _ ⟨nofun, nofun⟩

end Section

variable {document : Node}

theorem Section.readable_at_iff (s : Section) (hdistinct : document.Distinct) {origin : Origin}
    {entries : Entries} (hat : document.at? s.path = some (.table origin entries)) :
    s.Readable (.table origin entries) ↔
      ∀ key, ∀ node ∈ document.at? (s.path ++ [key]), ∃ kind ∈ s.kind? key, kind.Readable node := by
  rw [s.readable_iff origin (hdistinct.at? hat).entries.keys]
  refine forall_congr' fun key => forall_congr' fun node => ?_
  rw [Option.mem_def, Node.at?_append, hat, Option.bind_some, Node.at?_table]
  cases entries.lookup key <;> rfl

theorem Section.isTable_at (s : Section) (hdocument : document.IsTable)
    (htables : SectionsAreTables document) : ∀ node ∈ document.at? s.path, node.IsTable := by
  induction s using Section.induction_down with
  | hroot =>
    rintro node ⟨⟩
    exact hdocument
  | hsub s sub key hsub ih =>
    rw [path_of_kind? hsub]
    exact htables s sub key hsub

theorem Section.readable_of_root (hdistinct : document.Distinct)
    (hroot : Section.root.Readable document) (s : Section) :
    ∀ node, document.at? s.path = some node → s.Readable node := by
  induction s using Section.induction_down with
  | hroot =>
    rintro node ⟨⟩
    exact hroot
  | hsub s sub key hsub ih =>
    intro node hnode
    rw [path_of_kind? hsub] at hnode
    obtain ⟨origin, entries, hat, -⟩ := Node.at?_concat.1 hnode
    have hentries := ih _ hat
    obtain ⟨kind, hkind, hreads⟩ := (s.readable_at_iff hdistinct hat).1 hentries key node hnode
    obtain rfl := Option.some.inj (hsub.symm.trans hkind)
    exact hreads

theorem conforms_of_readable (hdistinct : document.Distinct) (htables : SectionsAreTables document)
    (hroot : Section.root.Readable document) : Conforms document := by
  intro s key node hnode
  obtain ⟨origin, entries, hat, -⟩ := Node.at?_concat.1 hnode
  have hentries := s.readable_of_root hdistinct hroot _ hat
  obtain ⟨kind, hkind, hreads⟩ := (s.readable_at_iff hdistinct hat).1 hentries key node hnode
  refine ⟨kind, hkind, ?_⟩
  cases kind with
  | table sub => exact htables s sub key hkind node hnode
  | _ => exact (Kind.readable_iff_fits (by nofun) node).1 hreads

theorem readable_of_conforms (hdistinct : document.Distinct) (hconforms : Conforms document)
    (s : Section) :
    ∀ node, document.at? s.path = some node → node.IsTable → s.Readable node := by
  induction s using Section.induction_up with
  | h s ih =>
    rintro _ hat ⟨origin, entries, rfl⟩
    refine (s.readable_at_iff hdistinct hat).2 fun key node hnode => ?_
    obtain ⟨kind, hkind, hfits⟩ := hconforms s key node hnode
    refine ⟨kind, hkind, ?_⟩
    cases kind with
    | table sub =>
      exact ih sub key hkind node (Section.path_of_kind? hkind ▸ hnode) hfits
    | _ => exact (Kind.readable_iff_fits (by nofun) node).2 hfits

/-- **What is read.**  A document whose sections are tables is read if and only if it conforms. -/
theorem exists_ofDocument_iff {entries : Entries} (hdistinct : Entries.Distinct entries)
    (htables : SectionsAreTables (.table .header entries)) :
    (∃ config, ofDocument entries = .ok config) ↔ Conforms (.table .header entries) := by
  have hdocument : (Node.table .header entries).Distinct := .table .header hdistinct
  constructor
  · exact conforms_of_readable hdocument htables
  · exact fun h => readable_of_conforms hdocument h .root _ rfl ⟨.header, entries, rfl⟩

end Config

end FunctionAdapters
