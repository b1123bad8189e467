import FunctionAdapters.Proofs.Toml.Distinct

/-!
# Values under paths of keys

What stands in a document is said by paths of keys: `Node.at?` follows a path through tables, however
these came to be.  Documents that differ in the order of the entries of their tables, and in how the
tables came to be, hold the same under every path up to such differences (`Rearranged.at?`).
-/

namespace FunctionAdapters.Toml

/-- What stands under a path of keys, through tables. -/
def Node.at? (node : Node) : List String → Option Node
  | [] => some node
  | key :: path =>
    match node with
    | .table _ entries => (entries.lookup key).bind fun inner => inner.at? path
    | _ => none

namespace Node

theorem at?_table (origin : Origin) (entries : Entries) (key : String) (path : List String) :
    (Node.table origin entries).at? (key :: path) =
      (entries.lookup key).bind fun inner => inner.at? path := rfl

theorem at?_singleton (origin : Origin) (entries : Entries) (key : String) :
    (Node.table origin entries).at? [key] = entries.lookup key := by
  rw [at?_table]
  cases entries.lookup key <;> rfl

theorem at?_append (node : Node) (path path' : List String) :
    node.at? (path ++ path') = (node.at? path).bind fun inner => inner.at? path' := by
  induction path generalizing node with
  | nil => rfl
  | cons key path ih =>
    cases node with
    | table origin entries =>
      rw [List.cons_append, at?_table, at?_table, Option.bind_assoc]
      simp only [ih]
    | _ => rfl

theorem at?_concat {node found : Node} {path : List String} {key : String} :
    node.at? (path ++ [key]) = some found ↔
      ∃ origin entries, node.at? path = some (.table origin entries) ∧
        entries.lookup key = some found := by
  rw [at?_append, Option.bind_eq_some_iff]
  constructor
  · rintro ⟨inner, hinner, hfound⟩
    cases inner with
    | table origin entries =>
      rw [at?_table, Option.bind_eq_some_iff] at hfound
      obtain ⟨_, hlookup, ⟨⟩⟩ := hfound
      exact ⟨origin, entries, hinner, hlookup⟩
    | _ => cases hfound
  · rintro ⟨origin, entries, hinner, hlookup⟩
    refine ⟨_, hinner, ?_⟩
    rw [at?_table, hlookup]
    rfl

theorem Distinct.at? {node found : Node} {path : List String} (h : node.Distinct)
    (hfound : node.at? path = some found) : found.Distinct := by
  induction path generalizing node with
  | nil => exact Option.some.inj hfound ▸ h
  | cons key path ih =>
    cases h with
    | table origin hinner =>
      rw [at?_table] at hfound
      obtain ⟨inner, hlookup, hfound⟩ := Option.bind_eq_some_iff.1 hfound
      exact ih (hinner.lookup hlookup) hfound
    | _ => cases hfound

end Node

mutual
/-- The same node, but for the order of the entries of tables and for how the tables came to be. -/
inductive Node.Rearranged : Node → Node → Prop
  | same (node : Node) : Node.Rearranged node node
  | table (origin origin' : Origin) {entries entries' : List (String × Node)}
    (h : Entries.Rearranged entries entries') :
    Node.Rearranged (.table origin entries) (.table origin' entries')
/-- The same entries in another order, with values that are the same in this sense. -/
inductive Entries.Rearranged : List (String × Node) → List (String × Node) → Prop
  | of {entries between entries' : List (String × Node)}
    (values : Aligned Node.Rearranged entries between) (order : between.Perm entries') :
    Entries.Rearranged entries entries'
end

theorem Entries.Rearranged.lookup {entries entries' : Entries}
    (h : Entries.Rearranged entries entries') (hkeys : (entries.map Prod.fst).Nodup) (key : String) :
    Option.Rel Node.Rearranged (entries.lookup key) (entries'.lookup key) := by
  cases h with
  | @of _ between _ values order =>
    have hbetween : (between.map Prod.fst).Nodup := values.keys_eq ▸ hkeys
    rw [← lookup_of_perm order hbetween]
    exact values.rel_lookup key

theorem Entries.Rearranged.length_eq {entries entries' : Entries}
    (h : Entries.Rearranged entries entries') : entries.length = entries'.length := by
  cases h with
  | of values order =>
    rw [← order.length_eq, ← List.length_map Prod.fst, values.keys_eq, List.length_map]

/-- **Paths do not see the order.**  Under a path, rearranged documents hold the same up to the order
of its entries, or both hold nothing. -/
theorem Node.Rearranged.at? {node node' : Node} (h : node.Rearranged node')
    (hdistinct : node.Distinct) (path : List String) :
    Option.Rel Node.Rearranged (node.at? path) (node'.at? path) := by
  induction path generalizing node node' with
  | nil => exact .some h
  | cons key path ih =>
    cases h with
    | same =>
      cases node.at? (key :: path) with
      | none => exact .none
      | some found => exact .some (.same found)
    | @table origin origin' entries entries' hentries =>
      cases hdistinct with
      | table _ hinner =>
        have hlookup := hentries.lookup hinner.keys key
        have hvalue : ∀ found ∈ entries.lookup key, found.Distinct := fun _ => hinner.lookup
        rw [at?_table, at?_table]
        -- only what stands under the key matters from here on
        generalize entries.lookup key = found at hlookup hvalue ⊢
        generalize entries'.lookup key = found' at hlookup ⊢
        cases hlookup with
        | none => exact .none
        | some hsame => exact ih hsame (hvalue _ rfl)

end FunctionAdapters.Toml
