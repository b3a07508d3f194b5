import StanzaSchema.Command.Usage

/-!
The command line. The part of the disk that a command asks for is brought into a file system, the
command runs on that, and what it changed goes back to the disk.
-/

namespace StanzaSchema.Disk

/-- The place of a location on the disk. -/
def textOf (location : Location) : String := "/" ++ "/".intercalate location

/-- The names down to the current directory. -/
def workingDirectory : IO { here : Location // ".." ∉ here } := do
  let here ← IO.currentDir
  return ⟨(Path.mk here.toString).segments.filter fun segment =>
    !Path.isIdle segment && segment != "..", by simp⟩

/-- Brings in what stands at a location. Tells whether it is a directory. -/
def observeAt (system : FileSystem) (location : Location) : IO (FileSystem × Bool) := do
  let place := (← IO.currentDir) / textOf location
  if ← place.isDir then return (system.put location .directory, true)
  match ← (IO.FS.readBinFile place).toBaseIO with
  | .ok content => return (system.put location (.file content), false)
  | .error _ => return (system, false)

/-- Brings in what a path passes through. -/
def observeFrom (system : FileSystem) (here : Location) : List String → IO FileSystem
  | [] => return system
  | segment :: rest => do
    if Path.isIdle segment then observeFrom system here rest
    else if segment = ".." then observeFrom system here.dropLast rest
    else
      let next := here ++ [segment]
      let (system, isDirectory) ← observeAt system next
      if isDirectory then observeFrom system next rest else return system

def observe (system : FileSystem) (path : Path) : IO FileSystem :=
  observeFrom system (system.start path) path.segments

def observeAll (system : FileSystem) (paths : List Path) : IO FileSystem :=
  paths.foldlM observe system

/-- An empty file system with the directories down to the working directory. -/
def start : IO FileSystem := do
  let here ← workingDirectory
  let directories :=
    (List.range (here.1.length + 1)).map fun count => (here.1.take count, Node.directory)
  return ⟨here.1, directories.drop 1, here.2⟩

/-- Puts on the disk what is new or different. -/
def store (before after : FileSystem) : IO Unit := do
  for (location, node) in after.nodes do
    if before.node? location != some node then
      match node with
      | .directory => IO.FS.createDirAll (textOf location)
      | .file content => IO.FS.writeBinFile (textOf location) content

/-- The values of variables of the environment. -/
def environment (names : List String) : IO Environment := do
  let entries ← names.mapM fun name => do return (name, ← IO.getEnv name)
  return fun name => (entries.lookup name).join

/-- The paths that a command asks for, before it is known what they include. -/
def pathsOf (settings : Settings) : Command → List Path
  | .compile input output stem =>
    let job := Command.compileJob settings.compile input output stem
    job.input :: job.directory :: job.artifactPaths
  | .info model => [(model.map Path.mk).getD (Command.defaultModel settings.compile)]
  | .version => []

/-- The file that a run could not include. -/
def wanted? : Option CommandFailure → Option Path
  | some (.schema (.includeFailed path _ _)) => some ⟨path⟩
  | _ => none

/-- Runs a command, again whenever it asks for a file that has not been looked for. -/
partial def attempt (run : FileSystem → Effect) (looked : List Path) (system : FileSystem) :
    IO (FileSystem × Effect) := do
  let effect := run system
  match wanted? effect.failure with
  | none => return (system, effect)
  | some path =>
    if path ∈ looked then return (system, effect)
    else attempt run (path :: looked) (← observe system path)

/-- Runs what the arguments ask for. -/
def runInvocation (invocation : Invocation) : IO UInt32 := do
  let config : Path := ⟨invocation.config.getD Settings.fileName⟩
  let configured ← observe (← start) config
  let names := match configured.readText config with
    | .ok text => Environment.referenced text.toList
    | .error _ => []
  let environment ← environment names
  let paths := match Settings.load environment configured invocation.config with
    | .ok settings => pathsOf settings invocation.command
    | .error _ => []
  let (before, effect) ← attempt (invocation.run environment) [] (← observeAll configured paths)
  store before effect.system
  IO.print effect.printed
  match effect.failure with
  | some failure => IO.eprint (Output.failure failure.message)
  | none => pure ()
  return effect.exitCode.toUInt32

end StanzaSchema.Disk

open StanzaSchema in
def main (words : List String) : IO UInt32 := do
  match Arguments.parse (← Disk.environment [Arguments.configVariable]) words with
  | .error fault =>
    if fault.exitCode = 0 then IO.print fault.text else IO.eprint fault.text
    return fault.exitCode.toUInt32
  | .ok invocation => Disk.runInvocation invocation
