import FunctionAdapters.Codec.Operation
import FunctionAdapters.Config.Basic
import FunctionAdapters.Toml.Decoder
import FunctionAdapters.Toml.Reader

/-!
Configurations from TOML files.  Keys that mean nothing are refused at every level, and all that is
left out has its usual value.
-/

namespace FunctionAdapters

open Toml Toml.Decoder

/-- Why a file cannot be read. -/
inductive ReadError where
  | notFound
  | isDirectory
  /-- The path has a character that no path has. -/
  | badPath
  /-- The path or a step of it is longer than any there is. -/
  | tooLong
  /-- Any other reason, in the words of the system. -/
  | other (reason : String)
  deriving DecidableEq, Repr, Inhabited

namespace ReadError

def message : ReadError → String
  | notFound => "No such file or directory (os error 2)"
  | isDirectory => "Is a directory (os error 21)"
  | badPath => "file name contained an unexpected NUL byte"
  | tooLong => "File name too long (os error 36)"
  | other reason => reason

end ReadError

inductive ConfigError where
  | unreadable (path : String) (cause : ReadError)
  /-- The text is not TOML. -/
  | malformed
  | mismatch (m : Mismatch)
  deriving DecidableEq, Repr

namespace ConfigError

def message : ConfigError → String
  | unreadable path cause => "failed to read config file " ++ path ++ ": " ++ cause.message
  | malformed => "failed to parse toml config: not a TOML document"
  | mismatch m => "failed to parse toml config: " ++ m.message

end ConfigError

def NamingConfig.decoder : Toml.Decoder NamingConfig :=
  record "struct NamingConfig"
    [.of "default_policy" (nameOf NamingPolicy.words) fun a c => { c with defaultPolicy := a }]
    {}

def ClassConfig.decoder : Toml.Decoder ClassConfig :=
  record "struct ClassConfig"
    [.of "policy" (nameOf NamingPolicy.words) fun a c => { c with policy := some a },
      .of "generated_name" string fun a c => { c with generatedName := some a }]
    {}

def LoggingConfig.decoder : Toml.Decoder LoggingConfig :=
  record "struct LoggingConfig"
    [.of "level" string fun a c => { c with level := a },
      .of "json" boolean fun a c => { c with json := a }]
    {}

namespace Config

def decoder : Toml.Decoder Config :=
  record "struct GeneratorConfig"
    [.of "naming" NamingConfig.decoder fun a c => { c with naming := a },
      .of "classes" (map ClassConfig.decoder) fun a c => { c with classes := a },
      .of "logging" LoggingConfig.decoder fun a c => { c with logging := a }]
    {}

/-- The configuration of a document. -/
def ofDocument (entries : Entries) : Except Mismatch Config := decoder (.table .header entries)

/-- The configuration of a TOML text. -/
def ofText (text : String) : Except ConfigError Config :=
  match document? text with
  | none => .error .malformed
  | some entries => (ofDocument entries).mapError .mismatch

/-- The configuration of a file, given how files are read. -/
def ofFile (read : String → Except ReadError String) (path : String) : Except ConfigError Config :=
  match read path with
  | .error cause => .error (.unreadable path cause)
  | .ok text => ofText text

end Config

end FunctionAdapters
