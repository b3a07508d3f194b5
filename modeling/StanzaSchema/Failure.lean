import StanzaSchema.File.Fault

/-!
What can make a run fail: a file that cannot be read or written, a model or configuration that is
not one. Each failure is a cause; its wording is in `Failure.message`.
-/

namespace StanzaSchema

/-- How a compiled model is unusable: its text ended early, is no JSON, or has the wrong shape. -/
inductive ModelFaultKind where
  | ended
  | malformed
  | shape
deriving DecidableEq, Repr

structure ModelFault where
  kind : ModelFaultKind
  text : String
deriving DecidableEq

inductive Failure where
  | unreadable (path : String) (fault : IoFault)
  | includeFailed (path includedFrom : String) (fault : IoFault)
  | unwritable (path : String) (fault : IoFault)
  | unserializable (artifact : String) (fault : ModelFault)
  | invalidModel (path : String) (fault : ModelFault)
  | invalidSetting (message : String)
  | malformedSettings (text : String)
deriving DecidableEq

namespace Failure

def message : Failure → String
  | .unreadable path _ => "failed to read file: " ++ path
  | .includeFailed path includedFrom _ =>
    "failed to read include `" ++ path ++ "` (included from " ++ includedFrom ++ ")"
  | .unwritable path _ => "failed to write `" ++ path ++ "`"
  | .unserializable artifact _ => "failed to serialize the " ++ artifact ++ " artifact"
  | .invalidModel path _ => "invalid compiled model in `" ++ path ++ "`"
  | .invalidSetting message => "configuration error: " ++ message
  | .malformedSettings _ => "failed to parse TOML"

/-- What the failure came from, in words. -/
def causeText? : Failure → Option String
  | .unreadable _ fault => some fault.text
  | .includeFailed _ _ fault => some fault.text
  | .unwritable _ fault => some fault.text
  | .unserializable _ fault => some fault.text
  | .invalidModel _ fault => some fault.text
  | .invalidSetting _ => none
  | .malformedSettings text => some text

/-- The message with its cause. -/
def fullMessage (failure : Failure) : String :=
  match failure.causeText? with
  | some cause => failure.message ++ ": " ++ cause
  | none => failure.message

/-- Whether a file could not be read. -/
def isReadFailure : Failure → Bool
  | .unreadable _ _ => true
  | .includeFailed _ _ _ => true
  | _ => false

def code : Failure → String
  | .unreadable _ _ => "microddl::schema::io_error"
  | .includeFailed _ _ _ => "microddl::schema::include_failed"
  | .unwritable _ _ => "microddl::schema::write_error"
  | .unserializable _ _ => "microddl::schema::serialize_error"
  | .invalidModel _ _ => "microddl::schema::invalid_model"
  | .invalidSetting _ => "microddl::schema::config_error"
  | .malformedSettings _ => "microddl::schema::toml_error"

def help? : Failure → Option String
  | .includeFailed _ _ _ =>
    some "include paths are resolved relative to the including file's directory"
  | _ => none

end Failure

end StanzaSchema
