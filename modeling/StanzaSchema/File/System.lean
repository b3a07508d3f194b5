import StanzaSchema.File.Volume
import StanzaSchema.OrderedMap
import StanzaSchema.Text.Order

/-!
File systems as values: directories and files by their place under the root, and a working
directory. Paths are walked segment by segment, so a path through a missing directory leads nowhere
even if it turns back.
-/

namespace StanzaSchema

/-- The names from the root down to a directory or file. -/
abbrev Location := List String

inductive Node where
  | directory
  | file (content : ByteArray)

instance : DecidableEq Node
  | .directory, .directory => isTrue rfl
  | .directory, .file _ => isFalse nofun
  | .file _, .directory => isFalse nofun
  | .file content, .file other =>
    match ByteArray.instDecidableEq content other with
    | isTrue same => isTrue (congrArg Node.file same)
    | isFalse differs => isFalse fun equal => differs (Node.file.inj equal)

structure FileSystem where
  workingDirectory : Location
  nodes : List (Location × Node)
  /-- The working directory is a place of its own: none of the names down to it turns back. -/
  placed : ".." ∉ workingDirectory

namespace FileSystem

/-- An empty working directory under the root. -/
def fresh (name : String) (placed : ".." ∉ [name] := by decide) : FileSystem :=
  { workingDirectory := [name], nodes := [([name], .directory)], placed }

def node? (system : FileSystem) (location : Location) : Option Node :=
  if location = [] then some .directory else Entries.find? location system.nodes

def put (system : FileSystem) (location : Location) (node : Node) : FileSystem :=
  { system with nodes := Entries.put location node system.nodes }

/-- The longest name of a file, in bytes. -/
def nameLimit : Nat := 255

/-- The longest path that can be looked up, in bytes. -/
def pathLimit : Nat := 4095

def walk (system : FileSystem) : Location → List String → Except IoKind Location
  | here, [] => .ok here
  | here, segment :: rest =>
    match system.node? here with
    | none => .error .notFound
    | some (.file _) => .error .notDirectory
    | some .directory =>
      if Path.isIdle segment then system.walk here rest
      else if segment = ".." then system.walk here.dropLast rest
      else if nameLimit < segment.utf8ByteSize then .error .nameTooLong
      else if (system.node? (here ++ [segment])).isSome then system.walk (here ++ [segment]) rest
      else .error .notFound

def start (system : FileSystem) (path : Path) : Location :=
  if path.isAbsolute then [] else system.workingDirectory

/-- Texts that name nothing whatever the file system holds. -/
def unusable? (path : Path) : Option IoKind :=
  if path.text = "" then some .notFound
  else if path.text.toList.contains '\x00' then some .invalidInput
  else if pathLimit < path.text.utf8ByteSize then some .nameTooLong
  else none

/-- Where a path leads. -/
def resolve (system : FileSystem) (path : Path) : Except IoKind Location :=
  match unusable? path with
  | some kind => .error kind
  | none => system.walk (system.start path) path.segments

def pathExists (system : FileSystem) (path : Path) : Bool := (system.resolve path).toOption.isSome

def isDirectory (system : FileSystem) (path : Path) : Bool :=
  match system.resolve path with
  | .ok location => system.node? location == some .directory
  | .error _ => false

def identity (system : FileSystem) (path : Path) : FileId :=
  match system.resolve path with
  | .ok location => "/" :: location
  | .error _ => path.components

def readNode : Option Node → Except IoKind String
  | some (.file content) =>
    match String.fromUTF8? content with
    | some text => .ok text
    | none => .error .invalidData
  | some .directory => .error .isDirectory
  | none => .error .notFound

def readText (system : FileSystem) (path : Path) : Except IoFault String :=
  match system.resolve path with
  | .error kind => .error (.ofKind kind)
  | .ok location =>
    match readNode (system.node? location) with
    | .ok text => .ok text
    | .error kind => .error (.ofKind kind)

/-- The directory that a path's last segment is looked up in. -/
def resolveDirectory (system : FileSystem) (path : Path) (segments : List String) :
    Except IoKind Location :=
  match system.walk (system.start path) segments with
  | .error kind => .error kind
  | .ok location =>
    match system.node? location with
    | some .directory => .ok location
    | some (.file _) => .error .notDirectory
    | none => .error .notFound

/-- Replaces or makes a file as a whole. -/
def write (system : FileSystem) (path : Path) (content : ByteArray) : Except IoFault FileSystem :=
  match unusable? path with
  | some kind => .error (.ofKind kind)
  | none =>
    match system.resolveDirectory path path.segments.dropLast with
    | .error kind => .error (.ofKind kind)
    | .ok directory =>
      let name := path.segments.getLastD ""
      if Path.isIdle name || name == ".." then .error (.ofKind .isDirectory)
      else if nameLimit < name.utf8ByteSize then .error (.ofKind .nameTooLong)
      else if system.node? (directory ++ [name]) = some .directory then
        .error (.ofKind .isDirectory)
      else .ok (system.put (directory ++ [name]) (.file content))

/-- Makes one directory in a directory that exists. Slashes at the end do not matter. -/
def makeDirectory (system : FileSystem) (path : Path) : Except IoKind FileSystem :=
  match unusable? path with
  | some kind => .error kind
  | none =>
    let segments := (path.segments.reverse.dropWhile fun segment => segment == "").reverse
    match system.resolveDirectory path segments.dropLast with
    | .error kind => .error kind
    | .ok directory =>
      let name := segments.getLastD ""
      if Path.isIdle name || name == ".." then .error .alreadyExists
      else if nameLimit < name.utf8ByteSize then .error .nameTooLong
      else if (system.node? (directory ++ [name])).isSome then .error .alreadyExists
      else .ok (system.put (directory ++ [name]) .directory)

/-- Makes the first of the directories, after the ones above it where one is missing. What was made
on the way stays even if the attempt fails. -/
def makeAll (system : FileSystem) : List Path → FileSystem × Option IoKind
  | [] => (system, some .other)
  | path :: above =>
    if path.text = "" then (system, none)
    else
      match system.makeDirectory path with
      | .ok made => (made, none)
      | .error .notFound =>
        match system.makeAll above with
        | (system, some kind) => (system, some kind)
        | (system, none) =>
          match system.makeDirectory path with
          | .ok made => (made, none)
          | .error kind => (system, if system.isDirectory path then none else some kind)
      | .error kind => (system, if system.isDirectory path then none else some kind)

def makeDirectories (system : FileSystem) (path : Path) : FileSystem × Option IoFault :=
  let (system, kind) := system.makeAll path.ancestors
  (system, kind.map .ofKind)

/-- Writes a file after making the directories above it. -/
def install (system : FileSystem) (path : Path) (content : ByteArray) : Except IoFault FileSystem :=
  match path.parent? with
  | none => system.write path content
  | some above =>
    match system.makeDirectories above with
    | (_, some fault) => .error fault
    | (system, none) => system.write path content

def insertListed (entry : String × Nat) : List (String × Nat) → List (String × Nat)
  | [] => [entry]
  | head :: rest =>
    if Text.precedes entry.1 head.1 then entry :: head :: rest else head :: insertListed entry rest

/-- The files below the working directory with their sizes, in the order of their paths. -/
def listing (system : FileSystem) : List (String × Nat) :=
  system.nodes.foldl (fun listed entry =>
    match entry.2 with
    | .directory => listed
    | .file content =>
      if system.workingDirectory.isPrefixOf entry.1 then
        insertListed ("/".intercalate (entry.1.drop system.workingDirectory.length),
          content.size) listed
      else listed) []

theorem mem_of_find? {location : Location} {nodes : List (Location × Node)} {node : Node}
    (found : Entries.find? location nodes = some node) : location ∈ Entries.keys nodes := by
  induction nodes with
  | nil => simp [Entries.find?] at found
  | cons entry rest ih =>
    simp only [Entries.find?] at found
    split at found
    next same => simp [Entries.keys, same]
    next => exact List.mem_cons_of_mem _ (ih found)

private theorem identity_mem_of_readText {system : FileSystem} {path : Path} {text : String}
    (readable : system.readText path = .ok text) :
    system.identity path ∈ system.nodes.map fun entry => "/" :: entry.1 := by
  unfold readText at readable
  unfold identity
  split at readable
  next => simp at readable
  next location resolved =>
    rw [resolved]
    have present : ∃ content, system.node? location = some (.file content) := by
      unfold readNode at readable
      split at readable
      next matched =>
        split at matched
        next content found => exact ⟨content, found⟩
        all_goals simp at matched
      next => simp at readable
    obtain ⟨content, found⟩ := present
    unfold node? at found
    split at found
    next => simp at found
    next =>
      have member := mem_of_find? found
      simp only [Entries.keys, List.mem_map] at member
      obtain ⟨entry, inside, same⟩ := member
      exact List.mem_map.mpr ⟨entry, inside, by rw [same]⟩

/-- What a run may read on this file system. -/
def volume (system : FileSystem) : Volume where
  read := system.readText
  identity := system.identity
  known := system.nodes.map fun entry => "/" :: entry.1
  identity_mem := fun _ _ readable => identity_mem_of_readText readable

end FileSystem

end StanzaSchema
