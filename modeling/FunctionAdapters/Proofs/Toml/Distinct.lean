import FunctionAdapters.Proofs.Lookup
import FunctionAdapters.Toml.Reader

/-!
# No key twice

A line that adds an entry looks whether its key is new in the table it adds to, so no table of a
document holds a key twice.  Each rule by which lines build a document keeps this
(`Builder.Distinct.step`), and so do tables written in place, which are built by the same rule
(`distinct_of_scan`).  The main statement `distinct_document` says it for all documents that are read.
-/

namespace FunctionAdapters.Toml

mutual
/-- No table inside a node holds a key twice. -/
inductive Node.Distinct : Node → Prop
  | string (s : String) : Node.Distinct (.string s)
  | integer (n : Int) : Node.Distinct (.integer n)
  | float (x : Float) : Node.Distinct (.float x)
  | boolean (b : Bool) : Node.Distinct (.boolean b)
  | datetime (text : String) : Node.Distinct (.datetime text)
  | array {items : List Node} (h : ∀ item ∈ items, Node.Distinct item) :
    Node.Distinct (.array items)
  | table (origin : Origin) {entries : List (String × Node)} (h : Entries.Distinct entries) :
    Node.Distinct (.table origin entries)
  | tables {items : List (List (String × Node))} (h : ∀ entries ∈ items, Entries.Distinct entries) :
    Node.Distinct (.tables items)
/-- Some entries hold no key twice, and neither does any table inside them. -/
inductive Entries.Distinct : List (String × Node) → Prop
  | of {entries : List (String × Node)} (keys : (entries.map Prod.fst).Nodup)
    (values : ∀ e ∈ entries, Node.Distinct e.2) : Entries.Distinct entries
end

theorem Node.Distinct.entries {origin : Origin} {entries : Entries}
    (h : (Node.table origin entries).Distinct) : Entries.Distinct entries := by
  cases h with
  | table _ hentries => exact hentries

namespace Entries

variable {entries : Entries} {key : String} {node : Node}

namespace Distinct

theorem keys (h : Distinct entries) : (entries.map Prod.fst).Nodup := by
  cases h with
  | of keys values => exact keys

theorem values (h : Distinct entries) : ∀ e ∈ entries, e.2.Distinct := by
  cases h with
  | of keys values => exact values

theorem nil : Distinct [] := .of List.nodup_nil (by simp)

theorem lookup (h : Distinct entries) (hlookup : entries.lookup key = some node) : node.Distinct :=
  h.values _ (mem_of_lookup hlookup)

theorem lookup_table {origin : Origin} {inner : Entries} (h : Distinct entries)
    (hlookup : entries.lookup key = some (.table origin inner)) : Distinct inner :=
  (h.lookup hlookup).entries

theorem lookup_tables {items : List Entries} (h : Distinct entries)
    (hlookup : entries.lookup key = some (.tables items)) : ∀ inner ∈ items, Distinct inner := by
  cases h.lookup hlookup with
  | tables hitems => exact hitems

/-! ## Changes of a table -/

theorem append (h : Distinct entries) (hnew : entries.lookup key = none) (hnode : node.Distinct) :
    Distinct (entries ++ [(key, node)]) := by
  refine .of ?_ ?_
  · rw [List.map_append, List.map_singleton, ← List.concat_eq_append]
    exact h.keys.concat (lookup_eq_none_iff_not_mem.1 hnew)
  · intro e he
    rcases List.mem_append.1 he with he | he
    · exact h.values e he
    · rw [List.mem_singleton.1 he]
      exact hnode

theorem replace (h : Distinct entries) (hnode : node.Distinct) :
    Distinct (entries.replace key node) := by
  refine .of ?_ ?_
  · -- no key changes, and the values are old ones or the new one
    have hkeys : (entries.replace key node).map Prod.fst = entries.map Prod.fst := by
      rw [Entries.replace, List.map_map]
      refine List.map_congr_left fun e _ => ?_
      dsimp only [Function.comp]
      split <;> rfl
    rw [hkeys]
    exact h.keys
  · intro e he
    obtain ⟨⟨k, v⟩, hold, rfl⟩ := List.mem_map.1 he
    dsimp only
    split
    · exact hnode
    · exact h.values _ hold

theorem replace_last {items : List Entries} {last : Entries} (h : Distinct entries)
    (hlookup : entries.lookup key = some (.tables items)) (hlast : Distinct last) :
    Distinct (entries.replace key (.tables (items.dropLast ++ [last]))) := by
  refine h.replace (.tables fun inner hinner => ?_)
  rcases List.mem_append.1 hinner with hinner | hinner
  · exact h.lookup_tables hlookup inner ((List.dropLast_sublist items).mem hinner)
  · rw [List.mem_singleton.1 hinner]
    exact hlast

theorem remove (h : Distinct entries) : Distinct (entries.remove key) := by
  refine .of (h.keys.sublist (List.filter_sublist.map Prod.fst)) fun e he => ?_
  exact h.values e (List.mem_of_mem_filter he)

theorem add {entries' : Entries} (h : Distinct entries) (hnode : node.Distinct)
    (hadd : entries.add key node = some entries') : Distinct entries' := by
  unfold Entries.add at hadd
  split at hadd
  · cases hadd
  · next hnew =>
    obtain rfl := Option.some.inj hadd
    exact h.append hnew hnode

/-- **A dotted key** adds to a table on the way, or makes the tables that are missing. -/
theorem addDotted {path : List String} {entries entries' : Entries} (h : Distinct entries)
    (hnode : node.Distinct) (hadd : entries.addDotted key node path = some entries') :
    Distinct entries' := by
  induction path generalizing entries entries' with
  | nil => exact h.add hnode hadd
  | cons step path ih =>
    rw [Entries.addDotted] at hadd
    -- the step is missing, made by dotted keys, passed by a header, or some repeated tables
    split at hadd
    case h_1 hnew =>
      obtain ⟨inner, hinner, hadd⟩ := Option.bind_eq_some_iff.1 hadd
      obtain rfl := Option.some.inj hadd
      exact h.append hnew (.table .dotted (ih .nil hinner))
    case h_2 inner hlookup =>
      obtain ⟨inner', hinner, hadd⟩ := Option.bind_eq_some_iff.1 hadd
      obtain rfl := Option.some.inj hadd
      exact h.replace (.table .dotted (ih (h.lookup_table hlookup) hinner))
    case h_3 inner hlookup =>
      dsimp only at hadd
      split at hadd
      · cases hadd
      · obtain ⟨inner', hinner, hadd⟩ := Option.bind_eq_some_iff.1 hadd
        obtain rfl := Option.some.inj hadd
        exact h.replace (.table .passed (ih (h.lookup_table hlookup) hinner))
    case h_4 items hlookup =>
      dsimp only at hadd
      split at hadd
      · cases hadd
      · obtain ⟨last, hlast, hadd⟩ := Option.bind_eq_some_iff.1 hadd
        obtain ⟨last', hlast', hadd⟩ := Option.bind_eq_some_iff.1 hadd
        obtain rfl := Option.some.inj hadd
        have hold := h.lookup_tables hlookup last (List.mem_of_getLast? hlast)
        exact h.replace_last hlookup (ih hold hlast')
    case h_5 => cases hadd

theorem updateAt {change : Entries → Option Entries}
    (hchange : ∀ inner inner', Distinct inner → change inner = some inner' → Distinct inner')
    {path : List String} {entries entries' : Entries} (h : Distinct entries)
    (hupdate : entries.updateAt change path = some entries') : Distinct entries' := by
  induction path generalizing entries entries' with
  | nil => exact hchange entries entries' h hupdate
  | cons step path ih =>
    rw [Entries.updateAt] at hupdate
    -- the step is missing, a table in place, another table, or the last of some repeated ones
    split at hupdate
    case h_1 hnew =>
      obtain ⟨inner, hinner, hupdate⟩ := Option.bind_eq_some_iff.1 hupdate
      obtain rfl := Option.some.inj hupdate
      exact h.append hnew (.table .passed (ih .nil hinner))
    case h_2 => cases hupdate
    case h_3 origin inner _ hlookup =>
      obtain ⟨inner', hinner, hupdate⟩ := Option.bind_eq_some_iff.1 hupdate
      obtain rfl := Option.some.inj hupdate
      exact h.replace (.table origin (ih (h.lookup_table hlookup) hinner))
    case h_4 items hlookup =>
      obtain ⟨last, hlast, hupdate⟩ := Option.bind_eq_some_iff.1 hupdate
      obtain ⟨last', hlast', hupdate⟩ := Option.bind_eq_some_iff.1 hupdate
      obtain rfl := Option.some.inj hupdate
      have hold := h.lookup_tables hlookup last (List.mem_of_getLast? hlast)
      exact h.replace_last hlookup (ih hold hlast')
    case h_5 => cases hupdate

theorem entriesAt {path : List String} {entries inner : Entries} (h : Distinct entries)
    (hat : entries.entriesAt path = some inner) : Distinct inner := by
  induction path generalizing entries with
  | nil => exact Option.some.inj hat ▸ h
  | cons step path ih =>
    rw [Entries.entriesAt] at hat
    split at hat
    case h_1 origin inner' hlookup => exact ih (h.lookup_table hlookup) hat
    case h_2 items hlookup =>
      obtain ⟨last, hlast, hat⟩ := Option.bind_eq_some_iff.1 hat
      exact ih (h.lookup_tables hlookup last (List.mem_of_getLast? hlast)) hat
    case h_3 => cases hat

end Distinct

end Entries

theorem kept_by_foldlM {α β : Type} {f : β → α → Option β} {P : β → Prop} {Q : α → Prop}
    (hstep : ∀ b a b', P b → Q a → f b a = some b' → P b') {as : List α} {b b' : β} (hb : P b)
    (has : ∀ a ∈ as, Q a) (h : as.foldlM f b = some b') : P b' := by
  induction as generalizing b with
  | nil => exact Option.some.inj h ▸ hb
  | cons a as ih =>
    rw [List.foldlM_cons] at h
    obtain ⟨next, hnext, h⟩ := Option.bind_eq_some_iff.1 h
    rw [List.forall_mem_cons] at has
    exact ih (hstep b a next hb has.1 hnext) has.2 h

/-! ## Scanned values -/

/-- What a scanner finds has a property, whatever the text. -/
def Scanner.Finds {α : Type} (scan : Scanner α) (P : α → Prop) : Prop :=
  ∀ cs a rest, scan cs = some (a, rest) → P a

theorem exists_found_of_map {α β : Type} {found : Option (α × List Char)} {f : α → β} {b : β}
    {rest : List Char} (h : found.map (fun x => (f x.1, x.2)) = some (b, rest)) :
    ∃ a, found = some (a, rest) ∧ f a = b := by
  obtain ⟨⟨a, rest'⟩, hfound, heq⟩ := Option.map_eq_some_iff.1 h
  obtain ⟨rfl, rfl⟩ := Prod.mk.inj heq
  exact ⟨a, hfound, rfl⟩

/-- **A table written in place** is built by its keys, from nothing. -/
theorem Node.distinct_inlineTable {entries : List (List String × String × Node)} {node : Node}
    (h : ∀ e ∈ entries, e.2.2.Distinct) (hnode : Node.inlineTable entries = some node) :
    node.Distinct := by
  obtain ⟨built, hbuilt, heq⟩ := Option.bind_eq_some_iff.1 hnode
  obtain rfl := Option.some.inj heq
  refine .table .inline (kept_by_foldlM (fun _ _ _ hold he hadd => ?_) .nil h hbuilt)
  exact hold.addDotted he hadd

theorem distinct_numberValue {cs rest : List Char} {node : Node}
    (h : numberValue cs = some (node, rest)) : node.Distinct := by
  unfold numberValue at h
  split at h
  · obtain ⟨rfl, -⟩ := Prod.mk.inj (Option.some.inj h)
    exact .datetime _
  · obtain ⟨rfl, -⟩ := Prod.mk.inj (Option.some.inj h)
    exact .float _
  · obtain ⟨rfl, -⟩ := Prod.mk.inj (Option.some.inj h)
    exact .float _
  · obtain ⟨n, -, rfl⟩ := exists_found_of_map h
    exact .integer n

/-- What the scanners of values find in some steps. -/
structure FindsDistinct (steps : Nat) : Prop where
  value : ∀ room, Scanner.Finds (value steps room) Node.Distinct
  arrayItems : ∀ room, Scanner.Finds (arrayItems steps room) fun items =>
    ∀ item ∈ items, item.Distinct
  inlineEntries : ∀ room, Scanner.Finds (inlineEntries steps room) fun entries =>
    ∀ e ∈ entries, e.2.2.Distinct
  moreEntries : ∀ room, Scanner.Finds (moreEntries steps room) fun entries =>
    ∀ e ∈ entries, e.2.2.Distinct

namespace FindsDistinct

variable {steps : Nat}

theorem value_succ (h : FindsDistinct steps) (room : Nat) :
    Scanner.Finds (Toml.value (steps + 1) room) Node.Distinct := by
  intro cs node rest hvalue
  rw [Toml.value.eq_def] at hvalue
  dsimp only at hvalue
  split at hvalue
  case h_1 => cases hvalue
  case h_2 text =>
    cases room with
    | zero => cases hvalue
    | succ room =>
      obtain ⟨items, hitems, rfl⟩ := exists_found_of_map hvalue
      exact .array (h.arrayItems room _ _ _ hitems)
  case h_3 text =>
    cases room with
    | zero => cases hvalue
    | succ room =>
      obtain ⟨⟨entries, after⟩, hentries, hvalue⟩ := Option.bind_eq_some_iff.1 hvalue
      obtain ⟨table, htable, hvalue⟩ := Option.bind_eq_some_iff.1 hvalue
      obtain ⟨rfl, -⟩ := Prod.mk.inj (Option.some.inj hvalue)
      exact Node.distinct_inlineTable (h.inlineEntries room _ _ _ hentries) htable
  case h_4 c text _ _ =>
    split at hvalue
    · obtain ⟨s, -, rfl⟩ := exists_found_of_map hvalue
      exact .string s
    split at hvalue
    · obtain ⟨b, -, rfl⟩ := exists_found_of_map hvalue
      exact .boolean b
    split at hvalue
    · obtain ⟨x, -, rfl⟩ := exists_found_of_map hvalue
      exact .float x
    split at hvalue
    · exact distinct_numberValue hvalue
    · cases hvalue

theorem arrayItems_succ (h : FindsDistinct steps) (room : Nat) :
    Scanner.Finds (Toml.arrayItems (steps + 1) room) fun items => ∀ item ∈ items, item.Distinct := by
  intro cs items rest hitems
  rw [Toml.arrayItems.eq_def] at hitems
  dsimp only at hitems
  split at hitems
  case h_1 =>
    obtain ⟨rfl, -⟩ := Prod.mk.inj (Option.some.inj hitems)
    simp
  case h_2 =>
    obtain ⟨⟨item, after⟩, hitem, hitems⟩ := Option.bind_eq_some_iff.1 hitems
    have hdistinct : item.Distinct := h.value room _ _ _ hitem
    dsimp only at hitems
    split at hitems
    · obtain ⟨rfl, -⟩ := Prod.mk.inj (Option.some.inj hitems)
      simpa using hdistinct
    · obtain ⟨⟨more, after'⟩, hmore, hitems⟩ := Option.bind_eq_some_iff.1 hitems
      obtain ⟨rfl, -⟩ := Prod.mk.inj (Option.some.inj hitems)
      exact List.forall_mem_cons.2 ⟨hdistinct, h.arrayItems room _ _ _ hmore⟩
    · cases hitems

theorem inlineEntries_succ (h : FindsDistinct steps) (room : Nat) :
    Scanner.Finds (Toml.inlineEntries (steps + 1) room) fun entries =>
      ∀ e ∈ entries, e.2.2.Distinct := by
  intro cs entries rest hentries
  rw [Toml.inlineEntries.eq_def] at hentries
  dsimp only at hentries
  split at hentries
  · obtain ⟨rfl, -⟩ := Prod.mk.inj (Option.some.inj hentries)
    simp
  · exact h.moreEntries room _ _ _ hentries

theorem moreEntries_succ (h : FindsDistinct steps) (room : Nat) :
    Scanner.Finds (Toml.moreEntries (steps + 1) room) fun entries =>
      ∀ e ∈ entries, e.2.2.Distinct := by
  intro cs entries rest hentries
  rw [Toml.moreEntries.eq_def] at hentries
  dsimp only at hentries
  obtain ⟨⟨⟨path, key⟩, afterKey⟩, -, hentries⟩ := Option.bind_eq_some_iff.1 hentries
  obtain ⟨afterSign, -, hentries⟩ := Option.bind_eq_some_iff.1 hentries
  obtain ⟨⟨node, after⟩, hnode, hentries⟩ := Option.bind_eq_some_iff.1 hentries
  have hdistinct : node.Distinct := h.value room _ _ _ hnode
  dsimp only at hentries
  split at hentries
  · obtain ⟨rfl, -⟩ := Prod.mk.inj (Option.some.inj hentries)
    simpa using hdistinct
  · obtain ⟨⟨more, after'⟩, hmore, hentries⟩ := Option.bind_eq_some_iff.1 hentries
    obtain ⟨rfl, -⟩ := Prod.mk.inj (Option.some.inj hentries)
    exact List.forall_mem_cons.2 ⟨hdistinct, h.moreEntries room _ _ _ hmore⟩
  · cases hentries

end FindsDistinct

/-- **Values hold no key twice**, however deep they are. -/
theorem findsDistinct (steps : Nat) : FindsDistinct steps := by
  induction steps with
  | zero =>
    refine ⟨?_, ?_, ?_, ?_⟩ <;> intro room cs found rest h
    · rw [value] at h; cases h
    · rw [arrayItems] at h; cases h
    · rw [inlineEntries] at h; cases h
    · rw [moreEntries] at h; cases h
  | succ steps ih =>
    exact ⟨ih.value_succ, ih.arrayItems_succ, ih.inlineEntries_succ, ih.moreEntries_succ⟩

/-! ## Lines -/

def Line.Distinct : Line → Prop
  | .entry _ _ node => node.Distinct
  | .header .. | .repeatedHeader .. => True

theorem distinct_line {cs rest : List Char} {l : Line} (h : line cs = some (l, rest)) :
    l.Distinct := by
  unfold line at h
  split at h
  case h_1 =>
    obtain ⟨⟨⟨path, key⟩, after⟩, -, h⟩ := Option.bind_eq_some_iff.1 h
    obtain ⟨after', -, h⟩ := Option.bind_eq_some_iff.1 h
    obtain ⟨rfl, -⟩ := Prod.mk.inj (Option.some.inj h)
    trivial
  case h_2 =>
    obtain ⟨⟨⟨path, key⟩, after⟩, -, h⟩ := Option.bind_eq_some_iff.1 h
    obtain ⟨after', -, h⟩ := Option.bind_eq_some_iff.1 h
    obtain ⟨rfl, -⟩ := Prod.mk.inj (Option.some.inj h)
    trivial
  case h_3 =>
    obtain ⟨⟨⟨path, key⟩, after⟩, -, h⟩ := Option.bind_eq_some_iff.1 h
    obtain ⟨afterSign, -, h⟩ := Option.bind_eq_some_iff.1 h
    obtain ⟨⟨node, afterValue⟩, hnode, h⟩ := Option.bind_eq_some_iff.1 h
    obtain ⟨after', -, h⟩ := Option.bind_eq_some_iff.1 h
    obtain ⟨rfl, -⟩ := Prod.mk.inj (Option.some.inj h)
    exact (findsDistinct _).value _ _ _ _ hnode

theorem distinct_lines {steps : Nat} {cs : List Char} {ls : List Line}
    (h : lines steps cs = some ls) : ∀ l ∈ ls, l.Distinct := by
  induction steps generalizing cs ls with
  | zero =>
    rw [lines] at h
    split at h
    · obtain rfl := Option.some.inj h
      simp
    · cases h
  | succ steps ih =>
    rw [lines] at h
    split at h
    · obtain rfl := Option.some.inj h
      simp
    · -- an empty line, a comment, or something to be kept
      split at h
      · exact ih h
      · split at h
        · obtain ⟨after, -, h⟩ := Option.bind_eq_some_iff.1 h
          exact ih h
        · obtain ⟨⟨first, after⟩, hfirst, h⟩ := Option.bind_eq_some_iff.1 h
          obtain ⟨more, hmore, h⟩ := Option.bind_eq_some_iff.1 h
          obtain rfl := Option.some.inj h
          exact List.forall_mem_cons.2 ⟨distinct_line hfirst, ih hmore⟩

namespace Builder

/-- Neither what is finished nor what is being filled holds a key twice. -/
structure Distinct (b : Builder) : Prop where
  root : Entries.Distinct b.root
  current : Entries.Distinct b.current

variable {b b' : Builder}

theorem Distinct.close {entries : Entries} (h : b.Distinct) (hclose : b.close = some entries) :
    Entries.Distinct entries := by
  unfold Builder.close at hclose
  -- the document itself, a table under a header, or one of some repeated tables
  split at hclose
  case h_1 => exact Option.some.inj hclose ▸ h.current
  case h_2 path key htarget =>
    refine h.root.updateAt (fun inner inner' hinner hadd => ?_) hclose
    exact hinner.add (.table .header h.current) hadd
  case h_3 path key htarget =>
    refine h.root.updateAt (fun inner inner' hinner hadd => ?_) hclose
    split at hadd
    · next hnew =>
      obtain rfl := Option.some.inj hadd
      exact hinner.append hnew (.tables (by simpa using h.current))
    · next items hlookup =>
      obtain rfl := Option.some.inj hadd
      refine hinner.replace (.tables ?_)
      simpa [or_imp, forall_and] using ⟨hinner.lookup_tables hlookup, h.current⟩
    · cases hadd

theorem distinct_openTable {root : Entries} {path : List String} {key : String}
    (h : Entries.Distinct root) (hopen : openTable root path key = some b') : b'.Distinct := by
  unfold openTable at hopen
  dsimp only at hopen
  split at hopen
  case h_1 hnew =>
    obtain ⟨rest, hrest, hopen⟩ := Option.bind_eq_some_iff.1 hopen
    obtain rfl := Option.some.inj hopen
    refine ⟨h.updateAt (fun inner inner' hinner hsame => ?_) hrest, .nil⟩
    exact Option.some.inj hsame ▸ hinner
  -- a table that was only passed through so far is taken out and filled further
  case h_2 inner hlookup =>
    obtain ⟨rest, hrest, hopen⟩ := Option.bind_eq_some_iff.1 hopen
    obtain rfl := Option.some.inj hopen
    refine ⟨h.updateAt (fun inner inner' hinner hremove => ?_) hrest, ?_⟩
    · exact Option.some.inj hremove ▸ hinner.remove
    · cases hat : root.entriesAt path with
      | none =>
        rw [hat] at hlookup
        cases hlookup
      | some parent =>
        rw [hat] at hlookup
        exact (h.entriesAt hat).lookup_table hlookup
  case h_3 => cases hopen

theorem distinct_openRepeated {root : Entries} {path : List String} {key : String}
    (h : Entries.Distinct root) (hopen : openRepeated root path key = some b') : b'.Distinct := by
  unfold openRepeated at hopen
  dsimp only at hopen
  split at hopen
  case h_1 =>
    obtain ⟨rest, hrest, hopen⟩ := Option.bind_eq_some_iff.1 hopen
    obtain rfl := Option.some.inj hopen
    refine ⟨h.updateAt (fun inner inner' hinner hadd => ?_) hrest, .nil⟩
    exact hinner.add (.tables (by simp)) hadd
  case h_2 =>
    obtain rfl := Option.some.inj hopen
    exact ⟨h, .nil⟩
  case h_3 => cases hopen

/-- **What a line keeps.** -/
theorem Distinct.step {l : Line} (h : b.Distinct) (hl : l.Distinct) (hstep : b.step l = some b') :
    b'.Distinct := by
  cases l with
  | entry path key node =>
    obtain ⟨current, hcurrent, hstep⟩ := Option.bind_eq_some_iff.1 hstep
    obtain rfl := Option.some.inj hstep
    exact ⟨h.root, h.current.addDotted hl hcurrent⟩
  | header path key =>
    obtain ⟨root, hroot, hstep⟩ := Option.bind_eq_some_iff.1 hstep
    exact distinct_openTable (h.close hroot) hstep
  | repeatedHeader path key =>
    obtain ⟨root, hroot, hstep⟩ := Option.bind_eq_some_iff.1 hstep
    exact distinct_openRepeated (h.close hroot) hstep

theorem Distinct.run {ls : List Line} (h : b.Distinct) (hls : ∀ l ∈ ls, l.Distinct)
    (hrun : ls.foldlM Builder.step b = some b') : b'.Distinct :=
  kept_by_foldlM (fun _ _ _ hb hl hstep => hb.step hl hstep) h hls hrun

end Builder

/-- **No document holds a key twice**, in any of its tables. -/
theorem distinct_document {text : String} {entries : Entries} (h : document? text = some entries) :
    Entries.Distinct entries := by
  obtain ⟨ls, hls, h⟩ := Option.bind_eq_some_iff.1 h
  obtain ⟨b, hb, h⟩ := Option.bind_eq_some_iff.1 h
  have hstart : Builder.Distinct {} := ⟨.nil, .nil⟩
  exact (hstart.run (distinct_lines hls) hb).close h

end FunctionAdapters.Toml
