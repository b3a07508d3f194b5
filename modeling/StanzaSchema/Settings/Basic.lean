import StanzaSchema.Artifact
import StanzaSchema.Text.WhiteSpace

/-!
Settings of the command line: what is compiled when nothing else is said, and how events are logged.
-/

namespace StanzaSchema

inductive LogLevel where
  | trace
  | debug
  | info
  | warn
  | error
deriving DecidableEq

namespace LogLevel

def all : List LogLevel := [.trace, .debug, .info, .warn, .error]

def name : LogLevel → String
  | .trace => "trace"
  | .debug => "debug"
  | .info => "info"
  | .warn => "warn"
  | .error => "error"

/-- A second name of the warning level, accepted and never written. -/
def warnAlias : String := "warning"

def ofName? (name : String) : Option LogLevel :=
  if name = warnAlias then some .warn else all.find? fun level => level.name == name

end LogLevel

inductive LogFormat where
  | pretty
  | compact
  | json
deriving DecidableEq

namespace LogFormat

def all : List LogFormat := [.pretty, .compact, .json]

def name : LogFormat → String
  | .pretty => "pretty"
  | .compact => "compact"
  | .json => "json"

def ofName? (name : String) : Option LogFormat := all.find? fun format => format.name == name

end LogFormat

structure CompileSettings where
  input : String := "./Model.mddl"
  output : String := "./model/"
  stem : String := Artifact.defaultStem
  indent : Nat := Artifact.defaultIndent
deriving DecidableEq

structure LogSettings where
  level : LogLevel := .info
  format : LogFormat := .compact
deriving DecidableEq

structure Settings where
  compile : CompileSettings := {}
  log : LogSettings := {}
deriving DecidableEq

namespace Settings

/-- The file that settings are read from when no other is named. -/
def fileName : String := "microddl.toml"

def indentLimit : Nat := 16

/-- The settings, unless a value is of the right type and still of no use. -/
def validate (settings : Settings) : Except Failure Settings :=
  if Text.trim settings.compile.stem = "" then
    .error (.invalidSetting "compile.prefix must not be empty")
  else if indentLimit < settings.compile.indent then
    .error (.invalidSetting ("compile.pretty_indent must be at most " ++
      natText indentLimit ++ ", got " ++ natText settings.compile.indent))
  else .ok settings

def toJson (settings : Settings) : Json :=
  .object [
    ("compile", .object [("input", .text settings.compile.input),
      ("output", .text settings.compile.output), ("prefix", .text settings.compile.stem),
      ("pretty_indent", (Json.ofNat? settings.compile.indent).getD .zero)]),
    ("debug", .object [("log_level", .text settings.log.level.name),
      ("log_format", .text settings.log.format.name)])]

end Settings

end StanzaSchema
