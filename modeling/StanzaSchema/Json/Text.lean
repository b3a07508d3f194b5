import StanzaSchema.Json.Value
import StanzaSchema.Number.Text

/-!
JSON values as text: on one line without blanks, or with one entry a line and a fixed number of
spaces for each level.
-/

namespace StanzaSchema.Json

/-- Numbers from 0.00001 up to below 10 ^ 16 are written without an exponent. -/
def floatLayout : FloatLayout := ⟨-5, 16⟩

def Number.chars : Number → List Char
  | .whole value _ => intChars value
  | .floating value => floatLayout.chars value

def hexDigits (n width : Nat) : List Char :=
  let digits := Nat.toDigits 16 n
  List.replicate (width - digits.length) '0' ++ digits

/-- Quotes, backslashes and control characters are escaped, nothing else is. -/
def escapeChar (c : Char) : List Char :=
  if c = '"' then ['\\', '"']
  else if c = '\\' then ['\\', '\\']
  else if c = '\x08' then ['\\', 'b']
  else if c = '\x0c' then ['\\', 'f']
  else if c = '\n' then ['\\', 'n']
  else if c = '\r' then ['\\', 'r']
  else if c = '\t' then ['\\', 't']
  else if c.toNat < 0x20 then '\\' :: 'u' :: hexDigits c.toNat 4
  else [c]

def quoted (text : String) : List Char := '"' :: (text.toList.flatMap escapeChar ++ ['"'])

/-- What stands between the entries of a value that is nested so many levels deep, and after a
key. -/
structure Layout where
  lineBreak : Nat → List Char
  colon : List Char

def Layout.compact : Layout := ⟨fun _ => [], [':']⟩

def Layout.indented (width : Nat) : Layout :=
  ⟨fun level => '\n' :: List.replicate (width * level) ' ', [':', ' ']⟩

mutual
def write (layout : Layout) (level : Nat) : Json → List Char
  | .null => ['n', 'u', 'l', 'l']
  | .boolean true => ['t', 'r', 'u', 'e']
  | .boolean false => ['f', 'a', 'l', 's', 'e']
  | .number value => value.chars
  | .text value => quoted value
  | .array [] => ['[', ']']
  | .array (item :: rest) =>
    '[' :: (layout.lineBreak (level + 1) ++
      (write layout (level + 1) item ++ (writeItems layout (level + 1) rest ++
      (layout.lineBreak level ++ [']']))))
  | .object [] => ['\x7b', '\x7d']
  | .object ((key, value) :: rest) =>
    '\x7b' :: (layout.lineBreak (level + 1) ++
      (quoted key ++ (layout.colon ++ (write layout (level + 1) value ++
      (writeMembers layout (level + 1) rest ++ (layout.lineBreak level ++ ['\x7d']))))))
def writeItems (layout : Layout) (level : Nat) : List Json → List Char
  | [] => []
  | item :: rest =>
    ',' :: (layout.lineBreak level ++ (write layout level item ++ writeItems layout level rest))
def writeMembers (layout : Layout) (level : Nat) : List (String × Json) → List Char
  | [] => []
  | (key, value) :: rest =>
    ',' :: (layout.lineBreak level ++ (quoted key ++ (layout.colon ++ (write layout level value ++
      writeMembers layout level rest))))
end

/-- The value on one line. -/
def compact (value : Json) : String := String.ofList (write .compact 0 value)

/-- The value with one entry a line and `width` spaces for each level. -/
def pretty (width : Nat) (value : Json) : String := String.ofList (write (.indented width) 0 value)

end StanzaSchema.Json
