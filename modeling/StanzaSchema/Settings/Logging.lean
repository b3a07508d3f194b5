import StanzaSchema.Settings.Basic
import StanzaSchema.Settings.Environment

/-!
What is logged, and how. Variables of the environment count most, then the demand for more on the
command line, then the settings. A variable with a value that means nothing counts as not set.
-/

namespace StanzaSchema

namespace Logging

/-- The value of a variable in lower case. Only ASCII letters are lowered: no word that is
understood has a letter that is the lower case of another one. -/
def lowered? (environment : Environment) (name : String) : Option String :=
  (environment name).map fun value => String.ofList (value.toList.map Char.toLower)

def isDebugging (environment : Environment) : Bool :=
  match lowered? environment "MICRODDL_DEBUG" with
  | some value => ["true", "1", "yes"].contains value
  | none => false

def level (environment : Environment) (settings : LogSettings) (verbose : Bool) : LogLevel :=
  match (lowered? environment "MICRODDL_LOG_LEVEL").bind LogLevel.ofName? with
  | some level => level
  | none => if verbose || isDebugging environment then .debug else settings.level

def format (environment : Environment) (settings : LogSettings) : LogFormat :=
  ((lowered? environment "MICRODDL_LOG_FORMAT").bind LogFormat.ofName?).getD settings.format

end Logging

end StanzaSchema
