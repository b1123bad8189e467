import FunctionAdapters.ClassName
import FunctionAdapters.Log.Filter
import FunctionAdapters.Options

/-!
The configuration of a run: the naming policy, what is different for single classes, and logging.
-/

namespace FunctionAdapters

open Text

structure NamingConfig where
  /-- The policy of classes that do not choose their own. -/
  defaultPolicy : NamingPolicy := .rename
  deriving DecidableEq, Repr, Inhabited

/-- What is chosen for one class. -/
structure ClassConfig where
  policy : Option NamingPolicy := none
  generatedName : Option String := none
  deriving DecidableEq, Repr, Inhabited

structure LoggingConfig where
  /-- A level, or the directives of a filter. -/
  level : String := "info"
  /-- Whether records are written as JSON. -/
  json : Bool := false
  deriving DecidableEq, Repr, Inhabited

structure Config where
  naming : NamingConfig := {}
  /-- Choices by full class name. -/
  classes : List (String × ClassConfig) := []
  logging : LoggingConfig := {}
  deriving DecidableEq, Repr, Inhabited

namespace LoggingConfig

/-- The directives for the configured level.  White space and case do not matter for a level by
itself, `warning` is another word for `warn`, and nothing stands for `info`. -/
def directives (c : LoggingConfig) : String :=
  let level := trimWhite c.level
  let bare := lowerAscii level
  if bare = "" then "info"
  else if bare = "warning" then "warn"
  else if bare ∈ Log.Threshold.all.map Log.Threshold.name then bare
  else level

/-- The filter for the configured level, with the directives of the environment after it. -/
def filter (c : LoggingConfig) (environment : Option String) : Log.Filter :=
  let extra := trimWhite (environment.getD "")
  .ofText (if extra = "" then c.directives else c.directives ++ "," ++ extra)

end LoggingConfig

namespace Config

/-- The choices made for a class by its full name. -/
def optionsFor (c : Config) (cls : ClassName) : ClassOptions :=
  let own := (c.classes.lookup cls.qualified).getD {}
  { policy := own.policy.getD c.naming.defaultPolicy, generatedName := own.generatedName }

end Config

end FunctionAdapters
