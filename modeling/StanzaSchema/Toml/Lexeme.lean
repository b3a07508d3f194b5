import StanzaSchema.Number.Decimal
import StanzaSchema.Number.Digits
import StanzaSchema.Text.Cut
import StanzaSchema.Toml.Value

/-!
The smallest parts of a TOML text: blanks, comments, line ends, keys, strings, numbers and points in
time. A reader takes what it understands from the front and leaves the rest; it fails where no
continuation can be right.
-/

namespace StanzaSchema.Toml

abbrev Reads (α : Type) := List Char → Option (α × List Char)

section Space

def isBlank (c : Char) : Bool := c == ' ' || c == '\t'

/-- Characters of comments and strings: all but control characters, of which the tab alone is
allowed. -/
def isPlain (c : Char) : Bool := c == '\t' || (0x20 ≤ c.toNat && c.toNat != 0x7F)

def skipBlanks (chars : List Char) : List Char := chars.dropWhile isBlank

def afterNewline? : List Char → Option (List Char)
  | '\n' :: rest => some rest
  | '\r' :: '\n' :: rest => some rest
  | _ => none

/-- What follows a line that holds nothing more than a comment. -/
def afterLine? (chars : List Char) : Option (List Char) :=
  let ending := match skipBlanks chars with
    | '#' :: rest => rest.dropWhile isPlain
    | rest => rest
  if ending.isEmpty then some [] else afterNewline? ending

/-- Skips blanks and line ends. -/
def skipLines : List Char → List Char
  | [] => []
  | c :: rest =>
    if isBlank c || c == '\n' || (c == '\r' && rest.head? == some '\n') then skipLines rest
    else c :: rest

/-- Skips blanks, line ends and comments. -/
def skipSpace (inComment : Bool) : List Char → List Char
  | [] => []
  | c :: rest =>
    if inComment && isPlain c then skipSpace true rest
    else if isBlank c || c == '\n' || (c == '\r' && rest.head? == some '\n') then
      skipSpace false rest
    else if c == '#' then skipSpace true rest
    else c :: rest

end Space

section Strings

/-- A fixed number of hexadecimal digits that name a character. -/
def readCode (count : Nat) : Reads Char := fun chars =>
  let digits := chars.take count
  if digits.length = count ∧ digits.all isHexDigit then
    let code := digitsValue 16 digits
    if code.isValidChar then some (Char.ofNat code, chars.drop count) else none
  else none

/-- What follows a backslash. -/
def readEscape : Reads Char := fun chars =>
  match chars with
  | 'b' :: rest => some ('\x08', rest)
  | 'f' :: rest => some ('\x0c', rest)
  | 'n' :: rest => some ('\n', rest)
  | 'r' :: rest => some ('\r', rest)
  | 't' :: rest => some ('\t', rest)
  | '"' :: rest => some ('"', rest)
  | '\\' :: rest => some ('\\', rest)
  | 'u' :: rest => readCode 4 rest
  | 'U' :: rest => readCode 8 rest
  | _ => none

/-- The rest of a string on one line. Only a string in double quotes has escapes. -/
def readShort (quote : Char) (chars : List Char) : Option (List Char × List Char) :=
  match chars with
  | [] => none
  | c :: rest =>
    if c = quote then some ([], rest)
    else if c = '\\' ∧ quote = '"' then
      match readEscape rest with
      | none => none
      | some (d, tail) =>
        if tail.length < rest.length + 1 then
          (readShort quote tail).map fun taken => (d :: taken.1, taken.2)
        else none
    else if isPlain c then (readShort quote rest).map fun taken => (c :: taken.1, taken.2)
    else none
termination_by chars.length

/-- The text after a backslash at the end of a line, which takes along all blanks and empty lines
that follow. -/
def afterFold? (chars : List Char) : Option (List Char) :=
  (afterNewline? (skipBlanks chars)).map skipLines

/-- Up to two quotes in front of the closing three belong to the string. -/
def closing? (quote : Char) : List Char → Option (List Char × List Char)
  | a :: b :: c :: rest =>
    if a = quote ∧ b = quote ∧ c = quote then
      let more := (rest.takeWhile fun d => d == quote).take 2
      some (more, rest.drop more.length)
    else none
  | _ => none

/-- The rest of a string that may run over several lines. Line ends are read as line feeds. -/
def readLong (quote : Char) (chars : List Char) : Option (List Char × List Char) :=
  match closing? quote chars with
  | some ended => some ended
  | none =>
    match chars with
    | [] => none
    | c :: rest =>
      match afterNewline? (c :: rest) with
      | some tail =>
        if tail.length < rest.length + 1 then
          (readLong quote tail).map fun taken => ('\n' :: taken.1, taken.2)
        else none
      | none =>
        if c = '\\' ∧ quote = '"' then
          match afterFold? rest with
          | some tail => if tail.length < rest.length + 1 then readLong quote tail else none
          | none =>
            match readEscape rest with
            | none => none
            | some (d, tail) =>
              if tail.length < rest.length + 1 then
                (readLong quote tail).map fun taken => (d :: taken.1, taken.2)
              else none
        else if isPlain c then (readLong quote rest).map fun taken => (c :: taken.1, taken.2)
        else none
termination_by chars.length

def textOf (taken : List Char × List Char) : String × List Char := (String.ofList taken.1, taken.2)

/-- A string after its first quote. A line end right after three quotes is no part of it. -/
def readString (quote : Char) : Reads String := fun chars =>
  match chars with
  | a :: b :: rest =>
    if a = quote ∧ b = quote then (readLong quote ((afterNewline? rest).getD rest)).map textOf
    else (readShort quote chars).map textOf
  | _ => (readShort quote chars).map textOf

end Strings

section Keys

def isBare (c : Char) : Bool := c.isAlphanum || c == '_' || c == '-'

def readKey : Reads String := fun chars =>
  match chars with
  | '"' :: rest => (readShort '"' rest).map textOf
  | '\'' :: rest => (readShort '\'' rest).map textOf
  | _ =>
    let key := chars.takeWhile isBare
    if key.isEmpty then none else some (String.ofList key, chars.dropWhile isBare)

/-- Keys with dots between them, and the blanks around each. -/
def readKeys (chars : List Char) : Option (List String × List Char) :=
  match readKey (skipBlanks chars) with
  | none => none
  | some (key, rest) =>
    match skipBlanks rest with
    | '.' :: tail =>
      if tail.length < chars.length then (readKeys tail).map fun keys => (key :: keys.1, keys.2)
      else none
    | rest => some ([key], rest)
termination_by chars.length

/-- The most keys that one name may have. -/
def keyLimit : Nat := 79

/-- A path of keys and the last one. -/
def readName : Reads (List String × String) := fun chars =>
  match readKeys chars with
  | none => none
  | some (keys, rest) =>
    match keys.getLast? with
    | some last => if keys.length ≤ keyLimit then some ((keys.dropLast, last), rest) else none
    | none => none

end Keys

section Numbers

/-- Digits with single underscores between them, after the first digit. -/
def moreDigits (isDigit : Char → Bool) : Reads (List Char)
  | [] => some ([], [])
  | '_' :: rest =>
    match rest with
    | d :: tail =>
      if isDigit d then (moreDigits isDigit tail).map fun taken => (d :: taken.1, taken.2) else none
    | [] => none
  | c :: rest =>
    if isDigit c then (moreDigits isDigit rest).map fun taken => (c :: taken.1, taken.2)
    else some ([], c :: rest)

def readDigits (isDigit : Char → Bool) : Reads (List Char) := fun chars =>
  match chars with
  | c :: rest =>
    if isDigit c then (moreDigits isDigit rest).map fun taken => (c :: taken.1, taken.2) else none
  | [] => none

def readSign : List Char → Bool × List Char
  | '-' :: rest => (true, rest)
  | '+' :: rest => (false, rest)
  | rest => (false, rest)

/-- Decimal digits. Only a zero by itself starts with a zero. -/
def readWhole : Reads (List Char) := fun chars =>
  match chars with
  | '0' :: rest => some (['0'], rest)
  | _ => readDigits isDecimalDigit chars

/-- Whole numbers of 64 bits with a sign. -/
def inRange (value : Int) : Bool := -(power 2 63 : Int) ≤ value && value < (power 2 63 : Int)

def integer? (value : Int) (rest : List Char) : Option (Toml × List Char) :=
  if inRange value then some (.integer value, rest) else none

def readRadix (base : Nat) (isDigit : Char → Bool) (chars : List Char) :
    Option (Toml × List Char) :=
  match readDigits isDigit chars with
  | none => none
  | some (digits, rest) => integer? (digitsValue base digits) rest

def readInteger : Reads Toml := fun chars =>
  match chars with
  | '0' :: 'x' :: rest => readRadix 16 isHexDigit rest
  | '0' :: 'o' :: rest => readRadix 8 isOctalDigit rest
  | '0' :: 'b' :: rest => readRadix 2 isBinaryDigit rest
  | _ =>
    let (negative, rest) := readSign chars
    match readWhole rest with
    | none => none
    | some (digits, rest) =>
      let size : Int := digitsValue 10 digits
      integer? (if negative then -size else size) rest

/-- An exponent with its mark. -/
def readExponent : Reads Int := fun chars =>
  match chars with
  | c :: rest =>
    if c = 'e' ∨ c = 'E' then
      let (negative, rest) := readSign rest
      (readDigits isDecimalDigit rest).map fun taken =>
        let size : Int := digitsValue 10 taken.1
        (if negative then -size else size, taken.2)
    else none
  | [] => none

/-- An exponent, or zero where no mark of one follows. -/
def readExponentOrZero : Reads Int := fun chars =>
  match chars with
  | c :: _ => if c = 'e' ∨ c = 'E' then readExponent chars else some (0, chars)
  | [] => some (0, [])

/-- A decimal without a sign, with a fraction, an exponent or both. -/
def readDecimal : Reads Decimal := fun chars =>
  match readWhole chars with
  | none => none
  | some (whole, '.' :: rest) =>
    match readDigits isDecimalDigit rest with
    | none => none
    | some (fraction, rest) =>
      (readExponentOrZero rest).map fun taken =>
        (⟨digitsValue 10 (whole ++ fraction), taken.1 - fraction.length⟩, taken.2)
  | some (whole, rest) =>
    (readExponent rest).map fun taken => (⟨digitsValue 10 whole, taken.1⟩, taken.2)

/-- What follows a floating-point number. One above the largest number is refused, while one below
the lowest stands for negative infinity. -/
def afterFloating? (chars : List Char) : Option (List Char) :=
  let (negative, unsigned) := readSign chars
  match Text.afterHead? "inf".toList unsigned, Text.afterHead? "nan".toList unsigned with
  | some rest, _ => some rest
  | none, some rest => some rest
  | none, none =>
    match readDecimal unsigned with
    | none => none
    | some (decimal, rest) => if negative || decimal.nearest?.isSome then some rest else none

end Numbers

section Moments

/-- So many decimal digits whose value lies within bounds. -/
def readField (width least most : Nat) : Reads Nat := fun chars =>
  let digits := chars.take width
  let value := digitsValue 10 digits
  if digits.length = width ∧ digits.all isDecimalDigit ∧ least ≤ value ∧ value ≤ most then
    some (value, chars.drop width)
  else none

def isLeapYear (year : Nat) : Bool := year % 4 == 0 && (year % 100 != 0 || year % 400 == 0)

def daysInMonth (year month : Nat) : Nat :=
  if month = 2 then (if isLeapYear year then 29 else 28)
  else if month = 4 ∨ month = 6 ∨ month = 9 ∨ month = 11 then 30
  else 31

def afterDate? (chars : List Char) : Option (List Char) := do
  let (year, rest) ← readField 4 0 9999 chars
  let rest ← Text.afterHead? ['-'] rest
  let (month, rest) ← readField 2 1 12 rest
  let rest ← Text.afterHead? ['-'] rest
  let (_, rest) ← readField 2 1 (daysInMonth year month) rest
  return rest

def afterTime? (chars : List Char) : Option (List Char) := do
  let (_, rest) ← readField 2 0 23 chars
  let rest ← Text.afterHead? [':'] rest
  let (_, rest) ← readField 2 0 59 rest
  let rest ← Text.afterHead? [':'] rest
  let (_, rest) ← readField 2 0 60 rest
  match rest with
  | '.' :: fraction =>
    if (fraction.takeWhile isDecimalDigit).isEmpty then some rest
    else some (fraction.dropWhile isDecimalDigit)
  | _ => some rest

/-- What follows an offset from universal time, or the text itself where there is none. -/
def afterOffset? : List Char → Option (List Char)
  | [] => some []
  | c :: rest =>
    if c = 'Z' ∨ c = 'z' then some rest
    else if c = '+' ∨ c = '-' then do
      let (_, rest) ← readField 2 0 23 rest
      let rest ← Text.afterHead? [':'] rest
      let (_, rest) ← readField 2 0 59 rest
      return rest
    else some (c :: rest)

def isTimeMark (c : Char) : Bool := c == 'T' || c == 't' || c == ' '

/-- What follows a date, a time, or both with an offset. -/
def afterMoment? (chars : List Char) : Option (List Char) :=
  match afterDate? chars with
  | none => afterTime? chars
  | some [] => some []
  | some (c :: rest) =>
    if isTimeMark c then
      match afterTime? rest with
      | some rest => afterOffset? rest
      | none => some (c :: rest)
    else some (c :: rest)

end Moments

/-- A number or a point in time. -/
def readScalar : Reads Toml := fun chars =>
  let spelling (rest : List Char) : String :=
    String.ofList (chars.take (chars.length - rest.length))
  match afterMoment? chars with
  | some rest => some (.moment (spelling rest), rest)
  | none =>
    match afterFloating? chars with
    | some rest => some (.floating (spelling rest), rest)
    | none => readInteger chars

end StanzaSchema.Toml
