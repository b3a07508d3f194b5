import StanzaSchema.Command.Arguments
import StanzaSchema.Command.Output
import StanzaSchema.Model.Load
import StanzaSchema.Settings.Reader

/-!
Commands of the command line, as functions of the file system. A command that fails has printed what
it knew by then.
-/

namespace StanzaSchema

inductive CommandFailure where
  | configuration (message : String)
  | schema (failure : Failure)
deriving DecidableEq

namespace CommandFailure

def message : CommandFailure → String
  | .configuration message => "Configuration error: " ++ message
  | .schema failure => "Schema error: " ++ failure.fullMessage

def code : CommandFailure → String
  | .configuration _ => "microddl::config"
  | .schema _ => "microddl::schema"

end CommandFailure

/-- The settings in a file that has to exist, or in the usual file, or the defaults where it does
not exist. -/
def Settings.load (environment : Environment) (system : FileSystem) (explicit : Option String) :
    Except CommandFailure Settings :=
  let read (path : Path) : Except CommandFailure Settings :=
    (ofFile environment system path).mapError .schema
  match explicit with
  | some path =>
    if system.pathExists ⟨path⟩ then read ⟨path⟩
    else .error (.configuration ("Configuration file not found: " ++ path))
  | none => if system.pathExists ⟨fileName⟩ then read ⟨fileName⟩ else .ok {}

/-- What a command did: the file system after it, what it printed, and why it failed if it did. -/
structure Effect where
  system : FileSystem
  output : String
  failure : Option CommandFailure

namespace Command

def compileEffect (system : FileSystem) (job : Job) : Effect :=
  let opening := Output.title "Compile MicroDDL" ++ Output.fact "Input" job.input.text ++
    Output.fact "Output" job.directory.text ++ Output.fact "Prefix" job.stem ++ Output.emptyLine
  let after := job.run system
  match after.report.result with
  | .error failure => ⟨after.system, opening, some (.schema failure)⟩
  | .ok compilation =>
    let warnings :=
      if compilation.isClean then ""
      else
        Output.heading "Warnings" ++
          String.join (compilation.warnings.map fun warning => Output.warning warning.text) ++
          Output.emptyLine
    let success := Output.success ("Compiled " ++ natText compilation.tally.tables ++ " tables (" ++
      natText compilation.tally.columns ++ " columns) from " ++ natText compilation.tally.files ++
      " file(s)")
    let artifacts :=
      Output.heading "Artifacts" ++ String.join (job.artifactPaths.map fun path =>
        Output.item path.text)
    ⟨after.system, opening ++ warnings ++ success ++ Output.emptyLine ++ artifacts, none⟩

def infoEffect (system : FileSystem) (path : Path) : Effect :=
  let opening := Output.title "Model Info"
  if system.pathExists path then
    match (loadFile system.volume path).result with
    | .error failure => ⟨system, opening, some (.schema failure)⟩
    | .ok loaded =>
      let facts :=
        Output.fact "File" path.text ++
          Output.fact "Extended" (if loaded.extended then "yes" else "no") ++
        Output.fact "Tables" (natText loaded.model.tableCount) ++
        Output.fact "Columns" (natText loaded.model.columnCount)
      let tables := loaded.model.tablesInOrder.map fun table =>
        Output.item (table.name ++ " (" ++ natText table.columns.length ++ " columns)")
      ⟨system, opening ++ facts ++ Output.emptyLine ++ Output.heading "Tables" ++
        String.join tables, none⟩
  else ⟨system, opening, some (.configuration ("Model file not found: " ++ path.text))⟩

def versionNumber : String := "0.1.0"

def versionText : String :=
  Output.title "MicroDDL" ++ Output.fact "Version" versionNumber ++
    Output.fact "Binary" "microddl-cli" ++
    Output.fact "Build" "debug" ++ Output.emptyLine ++ Output.heading "Components" ++
    Output.fact "microddl-schema" versionNumber ++ Output.fact "microddl-cli" versionNumber

/-- The job of compiling, where arguments count more than settings. -/
def compileJob (settings : CompileSettings) (input output stem : Option String) : Job where
  input := ⟨input.getD settings.input⟩
  directory := ⟨output.getD settings.output⟩
  stem := stem.getD settings.stem
  indent := settings.indent

/-- The model that is summarized when none is named. -/
def defaultModel (settings : CompileSettings) : Path :=
  Artifact.extended.path ⟨settings.output⟩ settings.stem

def run (command : Command) (settings : Settings) (system : FileSystem) : Effect :=
  match command with
  | .compile input output stem =>
    compileEffect system (compileJob settings.compile input output stem)
  | .info model => infoEffect system ((model.map Path.mk).getD (defaultModel settings.compile))
  | .version => ⟨system, versionText, none⟩

end Command

/-- Loads the settings and runs the command. -/
def Invocation.run (invocation : Invocation) (environment : Environment)
    (system : FileSystem) : Effect :=
  match Settings.load environment system invocation.config with
  | .error failure => ⟨system, "", some failure⟩
  | .ok settings => invocation.command.run settings system

namespace Effect

/-- What goes to standard output. After a failure, it ends in an empty line. -/
def printed (effect : Effect) : String :=
  match effect.failure with
  | none => effect.output
  | some _ => effect.output ++ Output.emptyLine

def exitCode (effect : Effect) : Nat := if effect.failure.isSome then 1 else 0

end Effect

end StanzaSchema
