import StanzaSchema.Text.Lines
import StanzaSchema.Toml.Lexeme

/-!
Reading TOML documents. Values nest at most `nestingLimit` levels deep. A document is read line by
line, where the value of a key may run over several lines; the reading fails as a whole if any line
is wrong.
-/

namespace StanzaSchema.Toml

def nestingLimit : Nat := 79

/-- The rest of an array after its bracket or a comma. -/
def readItems (item : Reads Toml) (chars : List Char) : Option (List Toml × List Char) :=
  match skipSpace false chars with
  | ']' :: rest => some ([], rest)
  | next =>
    match item next with
    | none => none
    | some (value, rest) =>
      match skipSpace false rest with
      | ']' :: tail => some ([value], tail)
      | ',' :: tail =>
        if tail.length < chars.length then
          (readItems item tail).map fun items => (value :: items.1, items.2)
        else none
      | _ => none
termination_by chars.length

/-- A key and its value, up to the value's end. -/
def readPair (value : Reads Toml) : Reads ((List String × String) × Toml) := fun chars =>
  match readName chars with
  | some (name, '=' :: rest) =>
    (value (skipBlanks rest)).map fun taken => ((name, taken.1), taken.2)
  | _ => none

/-- The pairs of an inline table that is not empty, added to those that stand before them. -/
def readPairs (value : Reads Toml) (members : Members) (chars : List Char) :
    Option (Members × List Char) :=
  match readPair value chars with
  | none => none
  | some (((path, key), content), rest) =>
    match insertDotted path key content .inline members with
    | none => none
    | some members =>
      match skipBlanks rest with
      | '\x7d' :: tail => some (members, tail)
      | ',' :: tail => if tail.length < chars.length then readPairs value members tail else none
      | _ => none
termination_by chars.length

def readInline (value : Reads Toml) : Reads Toml := fun chars =>
  match skipBlanks chars with
  | '\x7d' :: rest => some (.table .inline [], rest)
  | _ => (readPairs value [] chars).map fun taken => (.table .inline taken.1, taken.2)

def readWord (word : String) (value : Toml) (chars : List Char) : Option (Toml × List Char) :=
  (Text.afterHead? word.toList chars).map fun rest => (value, rest)

/-- A value whose elements are read by `nested`, or that may have none. -/
def readNode (nested : Option (Reads Toml)) : Reads Toml := fun chars =>
  match chars with
  | [] => none
  | '"' :: rest => (readString '"' rest).map fun taken => (.text taken.1, taken.2)
  | '\'' :: rest => (readString '\'' rest).map fun taken => (.text taken.1, taken.2)
  | '[' :: rest =>
    match nested with
    | none => none
    | some value => (readItems value rest).map fun taken => (.array taken.1, taken.2)
  | '\x7b' :: rest =>
    match nested with
    | none => none
    | some value => readInline value rest
  | 't' :: _ => readWord "true" (.boolean true) chars
  | 'f' :: _ => readWord "false" (.boolean false) chars
  | _ => readScalar chars

/-- A value with so many levels of nesting left. -/
def readValue : Nat → Reads Toml
  | 0 => readNode none
  | depth + 1 => readNode (some (readValue depth))

/-- The header of a table, or of the next table of an array, after its first bracket. -/
def readHeader (draft : Draft) : List Char → Option (Draft × List Char)
  | '[' :: rest =>
    match readName rest with
    | some ((path, key), ']' :: ']' :: tail) =>
      do return (← draft.openNext path key, ← afterLine? tail)
    | _ => none
  | rest =>
    match readName rest with
    | some ((path, key), ']' :: tail) => do return (← draft.openTable path key, ← afterLine? tail)
    | _ => none

/-- One line with what its value runs over: a header, a key with its value, or nothing. -/
def readLine (draft : Draft) (chars : List Char) : Option (Draft × List Char) :=
  match chars with
  | '[' :: rest => readHeader draft rest
  | '#' :: _ => (afterLine? chars).map fun rest => (draft, rest)
  | _ =>
    match afterNewline? chars with
    | some rest => some (draft, rest)
    | none =>
      match readPair (readValue nestingLimit) chars with
      | none => none
      | some (((path, key), content), rest) =>
        do return (← draft.insert path key content, ← afterLine? rest)

def readLines (draft : Draft) (chars : List Char) : Option Draft :=
  match skipBlanks chars with
  | [] => some draft
  | next =>
    match readLine draft next with
    | none => none
    | some (draft, rest) => if rest.length < chars.length then readLines draft rest else none
termination_by chars.length

/-- The members of a document. -/
def parse (text : String) : Option Members :=
  (readLines .empty (Text.dropByteOrderMark text.toList)).map Draft.root

end StanzaSchema.Toml
