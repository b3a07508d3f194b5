import StanzaSchema.Text.Cut

/-!
Variables of the environment in a text. A reference is a dollar sign and a name in braces; the name
is not empty and has no closing brace. References are found from left to right, and what they stand
for is not looked at again.
-/

namespace StanzaSchema

/-- The values of the variables that are set. -/
abbrev Environment := String → Option String

namespace Environment

def ofEntries (entries : List (String × String)) : Environment := fun name => entries.lookup name

/-- The name of the reference at the front of a text, and what follows the reference. -/
def reference? : List Char → Option (List Char × List Char)
  | '$' :: '\x7b' :: rest =>
    match Text.cutAt? '\x7d' rest with
    | some (name, tail) => if name.isEmpty then none else some (name, tail)
    | none => none
  | _ => none

/-- A reference as it is written. -/
def written (name : List Char) : List Char := '$' :: '\x7b' :: (name ++ ['\x7d'])

theorem eq_written_append_of_reference? {chars name tail : List Char}
    (found : reference? chars = some (name, tail)) : chars = written name ++ tail := by
  unfold reference? at found
  split at found
  next rest =>
    split at found
    next cut =>
      split at found
      next => simp at found
      next =>
        simp only [Option.some.injEq, Prod.mk.injEq] at found
        obtain ⟨rfl, rfl⟩ := found
        simp [written, (Text.eq_append_of_cutAt? cut).1]
    next => simp at found
  next => simp at found

/-- What a reference stands for: the variable's value, or itself if the variable is not set. -/
def meaning (environment : Environment) (name : List Char) : List Char :=
  match environment (String.ofList name) with
  | some value => value.toList
  | none => written name

/-- The text with its references replaced, after so many characters that belong to a reference
already replaced. -/
def expandChars (environment : Environment) : Nat → List Char → List Char
  | _, [] => []
  | skipped + 1, _ :: rest => expandChars environment skipped rest
  | 0, c :: rest =>
    match reference? (c :: rest) with
    | some (name, _) => environment.meaning name ++ expandChars environment (name.length + 2) rest
    | none => c :: expandChars environment 0 rest

/-- The text with its references replaced by what they stand for. -/
def expand (environment : Environment) (text : String) : String :=
  String.ofList (environment.expandChars 0 text.toList)

/-- The names of the references in a text. -/
def referenced : List Char → List String
  | [] => []
  | c :: rest =>
    match reference? (c :: rest) with
    | some (name, _) => String.ofList name :: referenced rest
    | none => referenced rest

end Environment

end StanzaSchema
