import FunctionAdapters.Json.Value

/-!
The JSON schema of configuration files.
-/

namespace FunctionAdapters.Schema

/-- An object of one field. -/
def single (key : String) (value : Json) : Json := .object [(key, value)]

/-- A reference to a definition of the schema. -/
def ref (name : String) : Json := single "$ref" (.string ("#/definitions/" ++ name))

/-- A closed object with the given properties. -/
def closed (properties : List (String × Json)) : Json :=
  .object [
    ("type", .string "object"),
    ("properties", .object properties),
    ("additionalProperties", .bool false)]

/-- A section with its usual content. -/
def section_ (name : String) (usual : List (String × Json)) : Json :=
  .object [("default", .object usual), ("allOf", .array [ref name])]

/-- A word and what it means. -/
def word (text description : String) : Json :=
  .object [
    ("description", .string description),
    ("type", .string "string"),
    ("enum", .array [.string text])]

def classConfig : Json :=
  closed [
    ("generated_name", .object [
      ("description",
        .string "Simple name of the generated class. Defaults to `<SimpleName>_`."),
      ("default", .null),
      ("type", .array [.string "string", .string "null"])]),
    ("policy", .object [
      ("default", .null),
      ("anyOf", .array [ref "NamingPolicy", single "type" (.string "null")])])]

def loggingConfig : Json :=
  closed [
    ("json", .object [
      ("description", .string "Emit logs as JSON lines."),
      ("default", .bool false),
      ("type", .string "boolean")]),
    ("level", .object [
      ("description",
        .string "A level (`info`, `debug`, ..) or a full `EnvFilter` directive string."),
      ("default", .string "info"),
      ("type", .string "string")])]

def namingConfig : Json :=
  closed [
    ("default_policy", .object [
      ("description", .string "Policy applied to classes without an explicit override."),
      ("default", .string "rename"),
      ("allOf", .array [ref "NamingPolicy"])])]

def namingPolicy : Json :=
  .object [
    ("description", .string "How colliding generated names inside one class are resolved."),
    ("oneOf", .array [
      word "rename" "Later overloads get a `$`-suffix derived from their parameter kinds.",
      word "exclude" "Later overloads are dropped."])]

/-- The schema of a configuration file. -/
def config : Json :=
  .object [
    ("$schema", .string "http://json-schema.org/draft-07/schema#"),
    ("title", .string "GeneratorConfig"),
    ("type", .string "object"),
    ("properties", .object [
      ("classes", .object [
        ("description", .string "Per-class overrides keyed by fully qualified class name."),
        ("default", .object []),
        ("type", .string "object"),
        ("additionalProperties", ref "ClassConfig")]),
      ("logging",
        section_ "LoggingConfig" [("json", .bool false), ("level", .string "info")]),
      ("naming", section_ "NamingConfig" [("default_policy", .string "rename")])]),
    ("additionalProperties", .bool false),
    ("definitions", .object [
      ("ClassConfig", classConfig),
      ("LoggingConfig", loggingConfig),
      ("NamingConfig", namingConfig),
      ("NamingPolicy", namingPolicy)])]

end FunctionAdapters.Schema
