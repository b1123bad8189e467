import FunctionAdapters.Log.Level
import FunctionAdapters.Text.Alphanumeric
import FunctionAdapters.Text.Blank
import FunctionAdapters.Text.Segments

/-!
Log filters: which records are shown.  A filter is a list of directives, the most specific one
first; the first whose target starts the target of a record decides.
-/

namespace FunctionAdapters.Log

open Text

/-- How much is shown: nothing, or everything up to a level. -/
inductive Threshold where
  | off
  | upTo (level : Level)
  deriving DecidableEq, Repr, Inhabited

namespace Threshold

def name : Threshold → String
  | off => "off"
  | upTo level => lowerAscii level.name

def shows (t : Threshold) (level : Level) : Bool :=
  match t with
  | off => false
  | upTo greatest => level.verbosity ≤ greatest.verbosity

/-- All thresholds, by how much they show. -/
def all : List Threshold :=
  [off, upTo .error, upTo .warn, upTo .info, upTo .debug, upTo .trace]

/-- The threshold of a number, counted from nothing; a plus sign may stand before it. -/
def ofNumber? (text : String) : Option Threshold :=
  let digits := match text.toList with
    | '+' :: rest => rest
    | cs => cs
  if digits.isEmpty || !digits.all Char.isDigit then none
  else all[digits.foldl (fun n c => 10 * n + (c.toNat - '0'.toNat)) 0]?

/-- The threshold of a name in any case, or of its number. -/
def ofName? (text : String) : Option Threshold :=
  (all.find? (·.name = lowerAscii text)).or (ofNumber? text)

end Threshold

/-- A threshold for the records of some targets, or of all. -/
structure Directive where
  target : Option String
  threshold : Threshold
  deriving DecidableEq, Repr, Inhabited

namespace Directive

/-- Whether a target can start with a character. -/
def startsTarget (c : Char) : Bool := isAlphanumeric c || c = '-' || c = ':' || c = '_'

/-- A target and its threshold around an equals sign; without a threshold everything is shown. -/
def ofPair? (cs : List Char) : Option Directive :=
  let target := String.ofList (cs.takeWhile (· ≠ '='))
  let level := String.ofList ((cs.dropWhile (· ≠ '=')).drop 1)
  if level = "" then some ⟨some target, .upTo .trace⟩
  else (Threshold.ofName? level).map (⟨some target, ·⟩)

/-- A threshold for all targets, or a target of which everything is shown. -/
def ofWord (text : String) : Directive :=
  match Threshold.ofName? text with
  | some threshold => ⟨none, threshold⟩
  | none => ⟨some text, .upTo .trace⟩

/-- A directive: a word or a pair.  White space belongs to a word; in front of a pair it is
wrong. -/
def ofText? (text : String) : Option Directive :=
  let cs := text.toList
  if !(trimWhite text).toList.head?.any startsTarget then none
  else if !cs.contains '=' then some (ofWord text)
  else if cs.head?.any isWhite then none
  else ofPair? cs

def toText (d : Directive) : String :=
  match d.target with
  | some target => target ++ "=" ++ d.threshold.name
  | none => d.threshold.name

/-- Whether a directive comes before another: the longer target first, among equally long ones the
greater one, and no target last. -/
def before (a b : Directive) : Bool :=
  match a.target, b.target with
  | some s, some t =>
    if s.utf8ByteSize = t.utf8ByteSize then t < s else t.utf8ByteSize < s.utf8ByteSize
  | some _, none => true
  | none, _ => false

/-- Whether a directive is about a target. -/
def covers (d : Directive) (target : String) : Bool :=
  match d.target with
  | some start => start.toList.isPrefixOf target.toList
  | none => true

end Directive

structure Filter where
  directives : List Directive
  deriving DecidableEq, Repr, Inhabited

namespace Filter

/-- Adds a directive in its place; one for the same target is replaced. -/
def insert (d : Directive) : List Directive → List Directive
  | [] => [d]
  | first :: rest =>
    if first.target = d.target then d :: rest
    else if d.before first then d :: first :: rest
    else first :: insert d rest

/-- The directives of a text with commas between them.  Empty ones are skipped; without any, nothing
is shown. -/
def ofText? (text : String) : Option Filter := do
  let parts := (segments ',' text.toList).filter (!·.isEmpty)
  let directives ← parts.mapM fun part => Directive.ofText? (String.ofList part)
  return ⟨directives.foldl (fun ds d => insert d ds) []⟩

/-- The filter of a text, or the usual one if the text is wrong. -/
def ofText (text : String) : Filter :=
  (ofText? text).getD ⟨[⟨none, .upTo .info⟩]⟩

def toText (f : Filter) : String := ",".intercalate (f.directives.map Directive.toText)

/-- Whether a record of a target is shown. -/
def shows (f : Filter) (target : String) (level : Level) : Bool :=
  match f.directives.find? (·.covers target) with
  | some d => d.threshold.shows level
  | none => false

end Filter

end FunctionAdapters.Log
