import StanzaSchema.Text.Cut

/-!
Paths as texts. A path keeps the spelling it was made with; joining, the parent and the components
are read off the segments between its slashes. A segment that is empty or a single dot stands for
nothing, but for a dot in front.
-/

namespace StanzaSchema

structure Path where
  text : String
deriving DecidableEq

namespace Path

def segments (path : Path) : List String := Text.parts '/' path.text

def isIdle (segment : String) : Bool := segment == "" || segment == "."

def isAbsolute (path : Path) : Bool := path.text.toList.head? == some '/'

/-- What a path starts from: the root, the working directory by name, or nothing written. -/
inductive Lead where
  | root
  | dot
  | none
deriving DecidableEq

def lead (path : Path) : Lead :=
  if path.isAbsolute then .root else if path.segments.head? = some "." then .dot else .none

/-- The segments after the lead. -/
def body (path : Path) : List String :=
  match path.lead with
  | .none => path.segments
  | _ => path.segments.drop 1

/-- The parts that make up a path: paths with equal components are the same path. -/
def components (path : Path) : List String :=
  let names := path.body.filter fun segment => !isIdle segment
  match path.lead with
  | .root => "/" :: names
  | .dot => "." :: names
  | .none => names

def ofBody (lead : Lead) (body : List String) : Path :=
  let text := "/".intercalate body
  match lead with
  | .root => ⟨"/" ++ text⟩
  | .dot => ⟨if body.isEmpty then "." else "./" ++ text⟩
  | .none => ⟨text⟩

def dropIdleEnd (segments : List String) : List String :=
  (segments.reverse.dropWhile isIdle).reverse

/-- The path without its last component and the slashes before it. The root and the empty path have
none. -/
def parent? (path : Path) : Option Path :=
  match (dropIdleEnd path.body).reverse with
  | _ :: before => some (ofBody path.lead (dropIdleEnd before.reverse))
  | [] => if path.lead = .dot then some ⟨""⟩ else none

/-- The target as seen from the base. An absolute target stands for itself. -/
def join (base : Path) (target : String) : Path :=
  if (Path.mk target).isAbsolute then ⟨target⟩
  else if base.text = "" ∨ base.text.toList.getLast? = some '/' then ⟨base.text ++ target⟩
  else ⟨base.text ++ "/" ++ target⟩

/-- The path and the paths above it, the nearest first. A path of `n` characters has at most `n`
above it. -/
def ancestors (path : Path) : List Path := go path.text.length path
where
  go : Nat → Path → List Path
    | 0, path => [path]
    | steps + 1, path =>
      match path.parent? with
      | some above => path :: go steps above
      | none => [path]

end Path

end StanzaSchema
