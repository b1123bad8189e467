import FunctionAdapters.Config.Load
import FunctionAdapters.Text.Segments

/-!
A folder without folders in it: files by name, and how a path finds one of them.
-/

namespace FunctionAdapters.CommandLine

open Text

structure Folder where
  files : List (String × String)

namespace Folder

/-- A step of a path that leads nowhere else. -/
def isIdle (step : List Char) : Bool := step = [] || step = ['.']

/-- A step of a path that names no file. -/
def isWalk (step : List Char) : Bool := isIdle step || step = ['.', '.']

/-- The steps of a path without the idle ones in front.  A path that starts with a slash does not
start in the folder, so nothing is left out of it. -/
def steps (path : String) : List (List Char) :=
  match segments '/' path.toList with
  | [] :: rest => [] :: rest
  | all => all.dropWhile isIdle

/-- The greatest length of a step of a path, in bytes. -/
def maxStep : Nat := 255

/-- The greatest length of a path, in bytes. -/
def maxPath : Nat := 4095

/-- Whether a path is too long to be looked up, or the first name in it is. -/
def isTooLong (path : String) : Bool :=
  let names := (segments '/' path.toList).dropWhile isWalk
  path.utf8ByteSize > maxPath
    || names.head?.any fun name => (String.ofList name).utf8ByteSize > maxStep

/-- The file at a path, which is read from the folder. -/
def read (folder : Folder) (path : String) : Except ReadError String :=
  if path.toList.contains '\x00' then .error .badPath
  else if path = "" then .error .notFound
  else if isTooLong path then .error .tooLong
  else if (segments '/' path.toList).all isWalk then .error .isDirectory
  else
    match steps path with
    | [name] =>
      match folder.files.lookup (String.ofList name) with
      | some text => .ok text
      | none => .error .notFound
    | _ => .error .notFound

end Folder

end FunctionAdapters.CommandLine
