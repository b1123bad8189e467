/-!
Documents of nested tables, as TOML has them, and the rules by which its lines build one.

A table remembers how it came to be, since that decides what later lines may do to it: a table
written in place is closed, a table named by a header is not named again, and a table made by a
dotted key grows by dotted keys only.
-/

namespace FunctionAdapters.Toml

/-- How a table came to be. -/
inductive Origin where
  /-- Written in place, between braces. -/
  | inline
  /-- Named by a header. -/
  | header
  /-- On the way to a table named by a header. -/
  | passed
  /-- Made by a dotted key. -/
  | dotted
  deriving DecidableEq, Repr, Inhabited

inductive Node where
  | string (s : String)
  | integer (n : Int)
  | float (x : Float)
  | boolean (b : Bool)
  /-- A date, a time or both, by its text. -/
  | datetime (text : String)
  | array (items : List Node)
  | table (origin : Origin) (entries : List (String × Node))
  /-- The tables named by one repeated header, in order. -/
  | tables (items : List (List (String × Node)))
  deriving Inhabited

/-- The entries of a table, in the order of the text. -/
abbrev Entries := List (String × Node)

namespace Entries

/-- Replaces the value of a key where it stands. -/
def replace (entries : Entries) (key : String) (value : Node) : Entries :=
  entries.map fun (k, v) => if k = key then (k, value) else (k, v)

def remove (entries : Entries) (key : String) : Entries := entries.filter (·.1 ≠ key)

/-- Adds an entry at the end, under a key that is new. -/
def add (entries : Entries) (key : String) (value : Node) : Option Entries :=
  match entries.lookup key with
  | some _ => none
  | none => some (entries ++ [(key, value)])

/-- Adds an entry under a dotted key.  The last table on the way has to be made by dotted keys;
before it, tables passed by headers and the last of some repeated ones are gone through. -/
def addDotted (entries : Entries) (key : String) (value : Node) : List String → Option Entries
  | [] => entries.add key value
  | step :: path =>
    match entries.lookup step with
    | none => do
      let inner ← addDotted [] key value path
      return entries ++ [(step, .table .dotted inner)]
    | some (.table .dotted inner) => do
      return entries.replace step (.table .dotted (← addDotted inner key value path))
    | some (.table .passed inner) => do
      if path.isEmpty then none
      return entries.replace step (.table .passed (← addDotted inner key value path))
    | some (.tables items) => do
      if path.isEmpty then none
      let last ← items.getLast?
      return entries.replace step (.tables (items.dropLast ++ [← addDotted last key value path]))
    | some _ => none

/-- Changes the table that a header's path leads to, and makes the tables on the way. -/
def updateAt (entries : Entries) (change : Entries → Option Entries) :
    List String → Option Entries
  | [] => change entries
  | step :: path =>
    match entries.lookup step with
    | none => do return entries ++ [(step, .table .passed (← updateAt [] change path))]
    | some (.table .inline _) => none
    | some (.table origin inner) => do
      return entries.replace step (.table origin (← updateAt inner change path))
    | some (.tables items) => do
      let last ← items.getLast?
      return entries.replace step (.tables (items.dropLast ++ [← updateAt last change path]))
    | some _ => none

/-- The table that a header's path leads to, when all tables on the way are there. -/
def entriesAt (entries : Entries) : List String → Option Entries
  | [] => some entries
  | step :: path =>
    match entries.lookup step with
    | some (.table _ inner) => entriesAt inner path
    | some (.tables items) => do entriesAt (← items.getLast?) path
    | _ => none

end Entries

/-- A line of a document that says something.  The last key of a path stands apart. -/
inductive Line where
  | entry (path : List String) (key : String) (value : Node)
  | header (path : List String) (key : String)
  | repeatedHeader (path : List String) (key : String)

/-- The table that the lines are about to fill. -/
inductive Target where
  | root
  | table (path : List String) (key : String)
  | repeated (path : List String) (key : String)

/-- A document being built: what is finished, and the table that is being filled. -/
structure Builder where
  root : Entries := []
  target : Target := .root
  current : Entries := []

namespace Builder

/-- Puts the table that was being filled into its place. -/
def close (b : Builder) : Option Entries :=
  match b.target with
  | .root => some b.current
  | .table path key => b.root.updateAt (·.add key (.table .header b.current)) path
  | .repeated path key =>
    b.root.updateAt (fun entries =>
      match entries.lookup key with
      | none => some (entries ++ [(key, .tables [b.current])])
      | some (.tables items) => some (entries.replace key (.tables (items ++ [b.current])))
      | some _ => none) path

/-- Starts a table named by a header.  If it was only passed so far, its entries are kept and it
moves to the end of its parent. -/
def openTable (root : Entries) (path : List String) (key : String) : Option Builder := do
  let found := ((root.entriesAt path).getD []).lookup key
  match found with
  | none => return { root := ← root.updateAt some path, target := .table path key }
  | some (.table .passed inner) =>
    let rest ← root.updateAt (fun entries => some (entries.remove key)) path
    return { root := rest, target := .table path key, current := inner }
  | some _ => none

/-- Starts one more table under a repeated header. -/
def openRepeated (root : Entries) (path : List String) (key : String) : Option Builder := do
  let found := ((root.entriesAt path).getD []).lookup key
  match found with
  | none =>
    let rest ← root.updateAt (·.add key (.tables [])) path
    return { root := rest, target := .repeated path key }
  | some (.tables _) => return { root, target := .repeated path key }
  | some _ => none

/-- What a line does. -/
def step (b : Builder) : Line → Option Builder
  | .entry path key value => do return { b with current := ← b.current.addDotted key value path }
  | .header path key => do openTable (← b.close) path key
  | .repeatedHeader path key => do openRepeated (← b.close) path key

end Builder

/-- The document that some lines build; nothing if they contradict each other. -/
def Entries.ofLines (lines : List Line) : Option Entries := do
  (← lines.foldlM Builder.step {}).close

/-- A table written in place, from its entries under dotted keys. -/
def Node.inlineTable (entries : List (List String × String × Node)) : Option Node := do
  let add (built : Entries) : List String × String × Node → Option Entries
    | (path, key, value) => built.addDotted key value path
  let built ← entries.foldlM add []
  return .table .inline built

end FunctionAdapters.Toml
