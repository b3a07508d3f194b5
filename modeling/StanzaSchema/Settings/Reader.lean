import StanzaSchema.Settings.Basic
import StanzaSchema.Settings.Environment
import StanzaSchema.Toml.Reader

/-!
Reading settings from a TOML text, after references to the environment in it have been replaced.
Sections and their fields may be left out, but nothing else may stand in their place. A section may
also list its fields in order.
-/

namespace StanzaSchema

namespace Toml

def text? : Toml → Option String
  | .text value => some value
  | _ => none

def natural? : Toml → Option Nat
  | .integer value => if 0 ≤ value then some value.toNat else none
  | _ => none

def isEmptyContainer : Toml → Bool
  | .array [] => true
  | .table _ [] => true
  | _ => false

/-- One of several names, by itself or as the only key over an empty table or array. -/
def variant? {α : Type} (ofName? : String → Option α) : Toml → Option α
  | .text name => ofName? name
  | .table _ [(name, content)] => if content.isEmptyContainer then ofName? name else none
  | _ => none

/-- The fields of a section: a table without other members, or an array of them in order. -/
inductive Fields where
  | named (members : Members)
  | listed (items : List Toml)

def fields? (names : List String) : Toml → Option Fields
  | .table _ members =>
    if members.all fun member => names.contains member.1 then some (.named members) else none
  | .array items => some (.listed items)
  | .tables before last => some (.listed (before ++ [.table .header last]))
  | _ => none

def Fields.field? (names : List String) (name : String) : Fields → Option Toml
  | .named members => Entries.find? name members
  | .listed items => items[names.idxOf name]?

/-- The value of a field, or its default where the field is absent. -/
def Fields.read? {α : Type} (names : List String) (name : String) (default : α)
    (read : Toml → Option α) (fields : Fields) : Option α :=
  match fields.field? names name with
  | some value => read value
  | none => some default

end Toml

namespace CompileSettings

def fieldNames : List String := ["input", "output", "prefix", "pretty_indent"]

def ofToml? (value : Toml) : Option CompileSettings := do
  let fields ← value.fields? fieldNames
  let default : CompileSettings := {}
  return {
    input := ← fields.read? fieldNames "input" default.input Toml.text?
    output := ← fields.read? fieldNames "output" default.output Toml.text?
    stem := ← fields.read? fieldNames "prefix" default.stem Toml.text?
    indent := ← fields.read? fieldNames "pretty_indent" default.indent Toml.natural? }

end CompileSettings

namespace LogSettings

def fieldNames : List String := ["log_level", "log_format"]

def ofToml? (value : Toml) : Option LogSettings := do
  let fields ← value.fields? fieldNames
  let default : LogSettings := {}
  return {
    level := ← fields.read? fieldNames "log_level" default.level (Toml.variant? LogLevel.ofName?)
    format :=
      ← fields.read? fieldNames "log_format" default.format (Toml.variant? LogFormat.ofName?) }

end LogSettings

namespace Settings

def sectionNames : List String := ["compile", "debug"]

def ofToml? (members : Toml.Members) : Option Settings := do
  let fields ← (Toml.table .header members).fields? sectionNames
  return {
    compile := ← fields.read? sectionNames "compile" {} CompileSettings.ofToml?
    log := ← fields.read? sectionNames "debug" {} LogSettings.ofToml? }

/-- The settings in a text. -/
def ofText (environment : Environment) (text : String) : Except Failure Settings :=
  match (Toml.parse (environment.expand text)).bind ofToml? with
  | none => .error (.malformedSettings "the text holds no settings")
  | some settings => settings.validate

/-- The settings in a file. -/
def ofFile (environment : Environment) (system : FileSystem) (path : Path) :
    Except Failure Settings :=
  match system.readText path with
  | .error fault => .error (.unreadable path.text fault)
  | .ok text => ofText environment text

end Settings

end StanzaSchema
