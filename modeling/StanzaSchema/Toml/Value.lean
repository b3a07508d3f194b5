import StanzaSchema.OrderedMap

/-!
TOML values, and how the lines of a document put a tree of tables together. A table may be opened by
a header once, after headers of tables inside it but not after keys with dots have made it; keys
with dots only extend tables that such keys have made. A value that is complete, such as an inline
table, is never extended.
-/

namespace StanzaSchema

/-- How a table came about: by a header of its own, by the header of a table inside it, by keys with
dots, or as a value. -/
inductive Toml.Origin where
  | header
  | implied
  | dotted
  | inline
deriving DecidableEq

/-- Floating-point numbers and points in time are kept as they are spelled. An array of tables that
headers make has its last table apart, which is the one that later lines extend. -/
inductive Toml where
  | text (value : String)
  | integer (value : Int)
  | boolean (value : Bool)
  | floating (spelling : String)
  | moment (spelling : String)
  | array (items : List Toml)
  | table (origin : Toml.Origin) (members : List (String × Toml))
  | tables (before : List Toml) (last : List (String × Toml))

namespace Toml

abbrev Members := List (String × Toml)

/-- Changes the table that a path of keys leads to, making the tables on the way. -/
def update (dotted : Bool) (change : Origin → Members → Option Members) :
    List String → Origin → Members → Option Members
  | [], origin, members => change origin members
  | key :: path, _, members =>
    match Entries.find? key members with
    | none =>
      let made : Origin := if dotted then .dotted else .implied
      (update dotted change path made []).map fun inner =>
        Entries.put key (.table made inner) members
    | some (.table origin inner) =>
      if origin = .inline ∨ dotted ∧ origin = .header then none
      else (update dotted change path origin inner).map fun inner =>
        Entries.put key (.table origin inner) members
    | some (.tables before last) =>
      (update dotted change path .header last).map fun last =>
        Entries.put key (.tables before last) members
    | some _ => none

/-- Adds a value under a key with dots. The key must be new, and the table that holds it made the
same way. -/
def insertDotted (path : List String) (key : String) (value : Toml) :
    Origin → Members → Option Members :=
  update true (fun origin members =>
    if (origin == .dotted) == path.isEmpty || (Entries.find? key members).isSome then none
    else some (Entries.put key value members)) path

/-- What a document's lines have made so far, and the path of the table that further keys belong
to. -/
structure Draft where
  root : Members
  current : List String

namespace Draft

def empty : Draft := ⟨[], []⟩

def insert (draft : Draft) (path : List String) (key : String) (value : Toml) : Option Draft :=
  (update false (insertDotted path key value) draft.current .header draft.root).map fun root =>
    { draft with root }

def openWith (draft : Draft) (path : List String) (key : String)
    (change : Option Toml → Option Toml) : Option Draft :=
  let place (members : Members) : Option Members :=
    (change (Entries.find? key members)).map fun opened => Entries.put key opened members
  (update false (fun _ => place) path .header draft.root).map fun root => ⟨root, path ++ [key]⟩

/-- The header of a table. -/
def openTable (draft : Draft) (path : List String) (key : String) : Option Draft :=
  draft.openWith path key fun
    | none => some (.table .header [])
    | some (.table .implied inner) => some (.table .header inner)
    | some _ => none

/-- The header of the next table of an array. -/
def openNext (draft : Draft) (path : List String) (key : String) : Option Draft :=
  draft.openWith path key fun
    | none => some (.tables [] [])
    | some (.tables before last) => some (.tables (before ++ [.table .header last]) [])
    | some _ => none

end Draft

end Toml

end StanzaSchema
