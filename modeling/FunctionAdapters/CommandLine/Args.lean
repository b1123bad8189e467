/-!
The arguments of a command: what is asked for, or nothing if they cannot be understood.
-/

namespace FunctionAdapters.CommandLine

/-- What to plan and how to print it. -/
structure PlanArgs where
  metadata : String
  config : Option String := none
  pretty : Bool := false
  deriving DecidableEq, Repr, Inhabited

inductive Command where
  | plan (args : PlanArgs)
  | schema
  | version
  | help
  deriving DecidableEq, Repr, Inhabited

/-- The arguments of `plan` read so far. -/
structure PlanState where
  metadata : Option String := none
  config : Option String := none
  pretty : Bool := false

namespace PlanState

/-- Takes a file to plan; there is one. -/
def withMetadata (s : PlanState) (path : String) : Option PlanState :=
  if path = "" ∨ s.metadata.isSome then none else some { s with metadata := some path }

/-- Takes a configuration; there is at most one. -/
def withConfig (s : PlanState) (path : String) : Option PlanState :=
  if path = "" ∨ s.config.isSome then none else some { s with config := some path }

def withPretty (s : PlanState) : Option PlanState :=
  if s.pretty then none else some { s with pretty := true }

def finish (s : PlanState) : Option Command :=
  s.metadata.map fun metadata => .plan { metadata, config := s.config, pretty := s.pretty }

end PlanState

/-- An argument that looks like an option; a dash alone is a name. -/
def isOption (arg : String) : Bool := arg.startsWith "-" && arg ≠ "-"

/-- A request for help; what follows the letter does not matter. -/
def isHelp (arg : String) : Bool := arg.startsWith "-h" || arg = "--help"

/-- A request for the version, likewise. -/
def isVersion (arg : String) : Bool := arg.startsWith "-V" || arg = "--version"

/-- The value of an option written with an equals sign. -/
def valueOf? (option arg : String) : Option String :=
  let start := option.toList ++ ['=']
  if start.isPrefixOf arg.toList then some (String.ofList (arg.toList.drop start.length)) else none

/-- The arguments of `plan`; after two dashes all of them are names. -/
def planArgs (s : PlanState) : List String → Option Command
  | [] => s.finish
  | "--" :: rest => do (← rest.foldlM PlanState.withMetadata s).finish
  | ["--config"] => none
  | "--config" :: path :: rest =>
    if isOption path then none else do planArgs (← s.withConfig path) rest
  | "--pretty" :: rest => do planArgs (← s.withPretty) rest
  | arg :: rest =>
    if isHelp arg then some .help
    else if isOption arg then
      match valueOf? "--config" arg with
      | some path => do planArgs (← s.withConfig path) rest
      | none => none
    else do planArgs (← s.withMetadata arg) rest

/-- The arguments of `schema`: none. -/
def schemaArgs : List String → Option Command
  | [] | ["--"] => some .schema
  | arg :: _ => if isHelp arg then some .help else none

namespace Command

def ofArgs : List String → Option Command
  | "plan" :: rest => planArgs {} rest
  | "schema" :: rest => schemaArgs rest
  | ["help"] | ["help", "plan"] | ["help", "schema"] | ["help", "help"] => some .help
  | arg :: _ =>
    if isVersion arg then some .version else if isHelp arg then some .help else none
  | [] => none

/-- The files that a command reads. -/
def paths : Command → List String
  | plan args => args.config.toList ++ [args.metadata]
  | _ => []

end Command

end FunctionAdapters.CommandLine
