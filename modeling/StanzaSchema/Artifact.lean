import StanzaSchema.File.System
import StanzaSchema.Model.Derivation
import StanzaSchema.Model.Layout
import StanzaSchema.Reading.Run

/-!
Compiling a schema file into three JSON files: the tables alone, the whole model with derived
schemas, and the views alone. They are written in this order, each as a whole, and the first failure
ends the run.
-/

namespace StanzaSchema

inductive Artifact where
  | base
  | extended
  | views
deriving DecidableEq

namespace Artifact

/-- All artifacts in the order in which they are written. -/
def all : List Artifact := [.base, .extended, .views]

def name : Artifact → String
  | .base => "base"
  | .extended => "extended"
  | .views => "PICT"

def suffix : Artifact → String
  | .base => ".json"
  | .extended => "-Extended.json"
  | .views => "-PICT.json"

def path (artifact : Artifact) (directory : Path) (stem : String) : Path :=
  directory.join (stem ++ artifact.suffix)

/-- The part of a model that an artifact holds. Only the tables of the base artifact are without
derived schemas. -/
def content (artifact : Artifact) (model : Model) : Json :=
  match artifact with
  | .base => model.baseJson
  | .extended => model.derive.toJson
  | .views => model.derive.viewsJson

def text (artifact : Artifact) (model : Model) (indent : Nat) : String :=
  (artifact.content model).pretty indent

def defaultStem : String := "MeadowModel"

def defaultIndent : Nat := 4

end Artifact

/-- What to compile, and where to put the artifacts. -/
structure Job where
  input : Path
  directory : Path
  stem : String
  indent : Nat
deriving DecidableEq

/-- The file system after a run, and the run's report. -/
structure Aftermath (α : Type) where
  system : FileSystem
  report : Report α

namespace Job

def artifactPaths (job : Job) : List Path :=
  Artifact.all.map fun artifact => artifact.path job.directory job.stem

/-- Writes one artifact. -/
def writeArtifact (job : Job) (model : Model) (system : FileSystem) (artifact : Artifact) :
    Except Failure FileSystem × List Event :=
  let path := artifact.path job.directory job.stem
  let fields : List (String × FieldValue) :=
    [("path", .text path.text), ("artifact", .text artifact.name)]
  match system.write path (artifact.text model job.indent).toUTF8 with
  | .error fault =>
    (.error (.unwritable path.text fault),
     [⟨.error, "error writing artifact: " ++ fault.text, fields⟩])
  | .ok written => (.ok written, [⟨.info, "artifact written", fields⟩])

/-- What happens before an artifact is written. -/
def prelude (model : Model) : Artifact → List Event
  | .extended => model.derivationEvents
  | _ => []

/-- Writes artifacts until one fails; those before it stay. -/
def writeArtifacts (job : Job) (model : Model) (system : FileSystem) :
    List Artifact → FileSystem × Option Failure × List Event
  | [] => (system, none, [])
  | artifact :: rest =>
    match job.writeArtifact model system artifact with
    | (.error failure, events) => (system, some failure, prelude model artifact ++ events)
    | (.ok written, events) =>
      let (last, failure, more) := job.writeArtifacts model written rest
      (last, failure, prelude model artifact ++ events ++ more)

def opening (job : Job) : Event :=
  ⟨.info, "compiling MicroDDL to JSON",
   [("input", .text job.input.text), ("output", .text job.directory.text),
    ("prefix", .text job.stem)]⟩

def closing (compilation : Compilation) : Event :=
  ⟨.info, "compile stages completed",
   [("tables", .count compilation.model.tableCount),
    ("warnings", .count compilation.warnings.length)]⟩

/-- Makes the output directory, reads the input with its includes, and writes the artifacts. -/
def run (job : Job) (system : FileSystem) : Aftermath Compilation :=
  match system.makeDirectories job.directory with
  | (made, some fault) =>
    ⟨made, .error (.unwritable job.directory.text fault),
     [job.opening, ⟨.error, "error creating output directory: " ++ fault.text,
       [("path", .text job.directory.text)]⟩]⟩
  | (made, none) =>
    let reading := compileFile made.volume job.input
    match reading.result with
    | .error failure => ⟨made, .error failure, job.opening :: reading.events⟩
    | .ok compilation =>
      let (written, failure, events) := job.writeArtifacts compilation.model made Artifact.all
      let events := job.opening :: (reading.events ++ events)
      match failure with
      | some failure => ⟨written, .error failure, events⟩
      | none =>
        let derived := { compilation with model := compilation.model.derive }
        ⟨written, .ok derived, events ++ [closing compilation]⟩

end Job

end StanzaSchema
