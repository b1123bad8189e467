import FunctionAdapters.Codec.Plan
import FunctionAdapters.CommandLine.Args
import FunctionAdapters.Config.Load
import FunctionAdapters.Config.Schema

/-!
What a command does: the text it prints, the lines it reports, and its exit code.  Classes are
planned one by one; one that fails is reported and left out, and the others are printed.  If planning
a class does not end, then neither does the command, and there is no outcome.
-/

namespace FunctionAdapters.CommandLine

open Json

/-- A line for the reader of the reports. -/
inductive Report where
  | record (level : Log.Level) (message : String)
  | text (line : String)
  /-- How the command is used. -/
  | usage (text : String)
  deriving DecidableEq, Repr, Inhabited

structure Outcome where
  code : UInt32
  stdout : String := ""
  reports : List Report := []
  deriving Repr, Inhabited

/-- What a command depends on: how files are read, and the directives of the environment. -/
structure Setting where
  read : String → Except ReadError String
  logDirectives : Option String

def versionText : String := "fngen 0.1.0\n"

def usageText : String :=
  "Usage: fngen plan <METADATA> [--config <FILE>] [--pretty]\n       fngen schema\n"

/-! ## Planning -/

/-- The plan of a class as the configuration has it, or why there is none, after what happened. -/
def planConfigured? (config : Config) (cls : ClassMetadata) :
    Option (List PlanEvent × Except PlanError ClassPlan) :=
  cls.planWithEvents? (config.optionsFor cls.name)

/-- Plans some classes, one after the other. -/
def planClasses? (config : Config) (classes : List ClassMetadata) :
    Option (List (List PlanEvent × Except PlanError ClassPlan)) :=
  classes.mapM (planConfigured? config)

/-- The plans that there are. -/
def plans (results : List (Except PlanError ClassPlan)) : List ClassPlan :=
  results.filterMap Except.toOption

/-- A log record, if the filter lets it through. -/
def shownRecord (filter : Log.Filter) (level : Log.Level) (message : String) : List Report :=
  if filter.shows Log.planTarget level then [.record level message] else []

/-- What is reported about a class. -/
def classReports (filter : Log.Filter) (events : List PlanEvent)
    (result : Except PlanError ClassPlan) : List Report :=
  let ofEvents := events.flatMap fun event => shownRecord filter event.level event.message
  match result with
  | .ok _ => ofEvents
  | .error e =>
    ofEvents ++ shownRecord filter .error "class skipped" ++ [.text ("error: " ++ e.message)]

/-- The printed form of some plans. -/
def plansText (pretty : Bool) (plans : List ClassPlan) : String :=
  let json : Json := .array (plans.map ClassPlan.toJson)
  (if pretty then json.pretty else json.compact) ++ "\n"

/-- The outcome of runs over some classes. -/
def outcomeOf (filter : Log.Filter) (pretty : Bool)
    (runs : List (List PlanEvent × Except PlanError ClassPlan)) : Outcome :=
  let results := runs.map Prod.snd
  { code := if results.all Except.isOk then 0 else 1
    stdout := plansText pretty (plans results)
    reports := runs.flatMap fun (events, result) => classReports filter events result }

/-- The outcome of planning some classes. -/
def planOutcome (config : Config) (filter : Log.Filter) (pretty : Bool)
    (classes : List ClassMetadata) : Option Outcome :=
  (planClasses? config classes).map (outcomeOf filter pretty)

/-! ## Commands -/

/-- The outcome of a command that cannot be carried out. -/
def failure (activity path cause : String) : Outcome :=
  { code := 2, reports := [.text (activity ++ " " ++ path ++ ": " ++ cause)] }

/-- What is said about a text that gives no metadata. -/
def decodeMessage : DecodeError → String
  | .fault .truncated => "the text ends too early"
  | .fault .malformed => "not a JSON text"
  | .mismatch m => m.message

/-- The configuration of a run. -/
def loadConfig (setting : Setting) : Option String → Except Outcome Config
  | none => .ok {}
  | some path =>
    (Config.ofFile setting.read path).mapError fun e => failure "loading" path e.message

/-- The classes to plan. -/
def loadClasses (setting : Setting) (path : String) : Except Outcome (List ClassMetadata) :=
  match setting.read path with
  | .error cause => .error (failure "reading" path cause.message)
  | .ok text =>
    ((Decoder.list ClassMetadata.decoder).decodeText text).mapError fun e =>
      failure "parsing" path (decodeMessage e)

/-- The configuration and the classes of a run. -/
def loadAll (setting : Setting) (args : PlanArgs) :
    Except Outcome (Config × List ClassMetadata) := do
  return (← loadConfig setting args.config, ← loadClasses setting args.metadata)

/-- Plans the classes of a file. -/
def runPlan (setting : Setting) (args : PlanArgs) : Option Outcome :=
  match loadAll setting args with
  | .error outcome => some outcome
  | .ok (config, classes) =>
    planOutcome config (config.logging.filter setting.logDirectives) args.pretty classes

def runCommand (setting : Setting) : Command → Option Outcome
  | .plan args => runPlan setting args
  | .schema => some { code := 0, stdout := Schema.config.pretty ++ "\n" }
  | .version => some { code := 0, stdout := versionText }
  | .help => some { code := 0, stdout := usageText }

/-- What a command line does. -/
def run (setting : Setting) (args : List String) : Option Outcome :=
  match Command.ofArgs args with
  | some command => runCommand setting command
  | none => some { code := 2, reports := [.usage usageText] }

end FunctionAdapters.CommandLine
