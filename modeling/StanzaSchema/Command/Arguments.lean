import StanzaSchema.Settings.Environment
import StanzaSchema.Text.Cut

/-!
Arguments of the command line. Words are read from left to right: options with their values, then a
command, then the options and the operand of the command. The options that are common to all
commands may stand on either side. A value is looked at when the next option or operand comes, or at
the end, after the command has been read.
-/

namespace StanzaSchema

inductive Command where
  | compile (input output stem : Option String)
  | info (model : Option String)
  | version
deriving DecidableEq

structure Invocation where
  config : Option String
  verbose : Bool
  command : Command
deriving DecidableEq

/-- Why arguments lead to no command. Asking for help or for the version is no error. -/
inductive UsageFault where
  | help
  | version
  | nothingGiven
  | missingCommand
  | unknownCommand
  | unknownArgument
  | invalidValue
  | repeated
  | unexpectedValue
deriving DecidableEq

def UsageFault.exitCode : UsageFault → Nat
  | .help => 0
  | .version => 0
  | _ => 2

namespace Arguments

inductive Verb where
  | compile
  | info
  | version
deriving DecidableEq

namespace Verb

def all : List Verb := [.compile, .info, .version]

def name : Verb → String
  | .compile => "compile"
  | .info => "info"
  | .version => "version"

def ofName? (name : String) : Option Verb := all.find? fun verb => verb.name == name

def takesOperand : Verb → Bool
  | .version => false
  | _ => true

end Verb

/-- Shows the help for a command, like an option of the same name. -/
def helpVerb : String := "help"

def isVerbName (word : String) : Bool := word == helpVerb || (Verb.ofName? word).isSome

/-- The variable that may name the file of settings. -/
def configVariable : String := "MICRODDL_CONFIG"

/-- What a value is for. -/
inductive Slot where
  | config
  | output
  | stem
  | operand
deriving DecidableEq

/-- All values but the stem of file names are paths, which cannot be empty. -/
def Slot.accepts (slot : Slot) (value : String) : Bool := slot == .stem || value != ""

inductive Switch where
  | value (slot : Slot)
  | verbose
  | help
  | version
deriving DecidableEq

/-- The side of the command that a word stands on: before it, or among the words of a command. -/
abbrev Side := Option Verb

structure Spelling where
  short : Char
  long : String
  meaning : Switch

def common : List Spelling :=
  [⟨'c', "config", .value .config⟩, ⟨'v', "verbose", .verbose⟩, ⟨'h', "help", .help⟩,
   ⟨'V', "version", .version⟩]

def spellings : Side → List Spelling
  | some .compile => [⟨'o', "output", .value .output⟩, ⟨'p', "prefix", .value .stem⟩] ++ common
  | _ => common

def ofShort? (side : Side) (c : Char) : Option Switch :=
  ((spellings side).find? fun spelling => spelling.short == c).map Spelling.meaning

def ofLong? (side : Side) (name : String) : Option Switch :=
  ((spellings side).find? fun spelling => spelling.long == name).map Spelling.meaning

/-- What one side has given. -/
structure Given where
  values : List (Slot × String) := []
  verbose : Bool := false
  /-- A value that has not been looked at, or an option whose value has not come yet. -/
  pending : Option (Slot × Option String) := none
  /-- Whether all further words are operands. -/
  operandsOnly : Bool := false
  operandSeen : Bool := false

namespace Given

def value? (given : Given) (slot : Slot) : Option String := given.values.lookup slot

def isAwaiting (given : Given) : Bool :=
  match given.pending with
  | some (_, none) => true
  | _ => false

def assign (given : Given) (slot : Slot) (value : String) : Except UsageFault Given :=
  if (given.value? slot).isSome then .error .repeated
  else if slot.accepts value then .ok { given with values := (slot, value) :: given.values }
  else .error .invalidValue

/-- Looks at the value that is pending. -/
def settle (given : Given) : Except UsageFault Given :=
  match given.pending with
  | none => .ok given
  | some (_, none) => .error .invalidValue
  | some (slot, some value) => { given with pending := none }.assign slot value

/-- An option whose value is the next word. -/
def await (given : Given) (slot : Slot) : Except UsageFault Given := do
  let given ← given.settle
  return { given with pending := some (slot, none) }

/-- An option with its value. -/
def assignNow (given : Given) (slot : Slot) (value : String) : Except UsageFault Given := do
  let given ← given.settle
  given.assign slot value

def raise (given : Given) (switch : Switch) : Except UsageFault Given := do
  let given ← given.settle
  match switch with
  | .help => .error .help
  | .version => .error .version
  | _ => if given.verbose then .error .repeated else .ok { given with verbose := true }

/-- A word of options with one letter each. The rest of the word is the value of the first that
takes one. -/
def readShort (side : Side) (given : Given) : List Char → Except UsageFault Given
  | [] => .ok given
  | c :: rest =>
    match ofShort? side c, rest with
    | none, _ => .error .unknownArgument
    | some (.value slot), [] => given.await slot
    | some (.value slot), '=' :: value => given.assignNow slot (String.ofList value)
    | some (.value slot), value => given.assignNow slot (String.ofList value)
    | some switch, rest => do readShort side (← given.raise switch) rest

/-- An option by its name, with its value after an equals sign or in the next word. -/
def readLong (side : Side) (given : Given) (name : List Char) : Except UsageFault Given :=
  let (name, value) := match Text.cutAt? '=' name with
    | some (name, value) => (name, some (String.ofList value))
    | none => (name, none)
  match ofLong? side (String.ofList name), value with
  | none, _ => .error .unknownArgument
  | some (.value slot), some value => given.assignNow slot value
  | some (.value slot), none => given.await slot
  | some _, some _ => .error .unexpectedValue
  | some switch, none => given.raise switch

/-- A word that is no option and no value of one. -/
def readOperand (side : Side) (given : Given) (word : String) : Except UsageFault Given :=
  match side with
  | none =>
    .error (if given.operandsOnly && isVerbName word then .unknownArgument else .unknownCommand)
  | some verb =>
    if verb.takesOperand && !given.operandSeen then do
      let given ← given.settle
      return { given with pending := some (.operand, some word), operandSeen := true }
    else .error .unknownArgument

def readPlain (side : Side) (given : Given) (word : String) : Except UsageFault Given :=
  match given.pending with
  | some (slot, none) => .ok { given with pending := some (slot, some word) }
  | _ => given.readOperand side word

def readWord (side : Side) (given : Given) (word : String) : Except UsageFault Given :=
  if given.operandsOnly then given.readOperand side word
  else
    match word.toList with
    | ['-', '-'] => .ok { given with operandsOnly := true }
    | '-' :: '-' :: name => given.readLong side name
    | ['-'] => given.readPlain side word
    | '-' :: letters => given.readShort side letters
    | _ => given.readPlain side word

/-- What a side has given when its words are over. The path of the configuration in the environment
is looked at for each side that does not give another. -/
def finish (environment : Environment) (given : Given) : Except UsageFault Given := do
  let given ← given.settle
  match given.value? .config, environment configVariable with
  | none, some path => if Slot.accepts .config path then .ok given else .error .invalidValue
  | _, _ => .ok given

end Given

/-- Help is about nothing, or about one command. -/
def helpAbout : List String → UsageFault
  | [] => .help
  | [word] => if isVerbName word then .help else .unknownCommand
  | _ => .unknownCommand

/-- The words after the command. -/
def readAfter (environment : Environment) (verb : Verb) (words : List String) :
    Except UsageFault Given := do
  (← words.foldlM (Given.readWord (some verb)) {}).finish environment

def command (verb : Verb) (given : Given) : Command :=
  match verb with
  | .compile => .compile (given.value? .operand) (given.value? .output) (given.value? .stem)
  | .info => .info (given.value? .operand)
  | .version => .version

/-- What the sides give together. The words of the command count more than those before it, and both
more than the environment. -/
def combine (environment : Environment) (before : Given) (verb : Verb) (after : Given) :
    Invocation where
  config := ((after.value? .config).or (before.value? .config)).or (environment configVariable)
  verbose := before.verbose || after.verbose
  command := command verb after

/-- Without a command, it matters whether anything else was given. -/
def withoutCommand (environment : Environment) (given : Given) : UsageFault :=
  if given.verbose || (given.value? .config).isSome || (environment configVariable).isSome then
    .missingCommand
  else .nothingGiven

/-- The words from the first on, or from one before the command on. -/
def readBefore (environment : Environment) (given : Given) :
    List String → Except UsageFault Invocation
  | [] => do .error (withoutCommand environment (← given.finish environment))
  | word :: rest =>
    let verb := if given.operandsOnly || given.isAwaiting then none else Verb.ofName? word
    match verb with
    | some verb => do
      let after ← readAfter environment verb rest
      return combine environment (← given.finish environment) verb after
    | none =>
      if word = helpVerb ∧ !given.operandsOnly ∧ !given.isAwaiting then .error (helpAbout rest)
      else do readBefore environment (← given.readWord none word) rest

/-- What the words of a command line ask for. -/
def parse (environment : Environment) (words : List String) : Except UsageFault Invocation :=
  readBefore environment {} words

end Arguments

end StanzaSchema
