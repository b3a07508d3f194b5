import StanzaSchema.Json.Numeral
import StanzaSchema.Text.Cut

/-!
Reading JSON texts, one character after the other. The state between two characters is the stack of
arrays and objects that are open and what may come next in the innermost. A text is malformed as
soon as a character cannot stand where it does, and it ended early if no character is wrong but
something is missing at the end.
-/

namespace StanzaSchema.Json

/-- Arrays and objects nest at most so many levels deep. -/
def nestingLimit : Nat := 127

def isBlank (c : Char) : Bool := c == ' ' || c == '\n' || c == '\t' || c == '\r'

/-- What is open: an array, an object between its members, or an object whose key waits for a value.
The newest item or member comes first. -/
inductive Frame where
  | array (items : List Json)
  | object (members : List (String × Json))
  | member (members : List (String × Json)) (key : String)

/-- Where in a string the reading stands: among its characters, after a backslash, in the four
hexadecimal digits of an escape, or between the halves of a surrogate pair. -/
inductive InString where
  | plain
  | escape
  | unit (high : Option Nat) (digits : List Char)
  | halfway (high : Nat)
  | halfwayEscape (high : Nat)

/-- What may come next. Characters that were taken are kept with the newest first. -/
inductive Spot where
  | value
  | firstItem
  | firstKey
  | key
  | colon (key : String)
  | after
  | done (value : Json)
  | string (isKey : Bool) (taken : List Char) (place : InString)
  | number (taken : List Char)
  | word (value : Json) (rest : List Char)

structure Machine where
  stack : List Frame
  spot : Spot

namespace Machine

def start : Machine := ⟨[], .value⟩

/-- A value is complete and goes to what is open around it. -/
def deliver (stack : List Frame) (value : Json) : Except Fault Machine :=
  match stack with
  | [] => .ok ⟨[], .done value⟩
  | .array items :: stack => .ok ⟨.array (value :: items) :: stack, .after⟩
  | .member members key :: stack => .ok ⟨.object ((key, value) :: members) :: stack, .after⟩
  | .object _ :: _ => .error .malformed

/-- An array or object begins. -/
def enter (stack : List Frame) (frame : Frame) (spot : Spot) : Except Fault Machine :=
  if stack.length < nestingLimit then .ok ⟨frame :: stack, spot⟩ else .error .malformed

def closeArray (stack : List Frame) : Except Fault Machine :=
  match stack with
  | .array items :: stack => deliver stack (.array items.reverse)
  | _ => .error .malformed

def closeObject (stack : List Frame) : Except Fault Machine :=
  match stack with
  | .object members :: stack => deliver stack (.object (sortMembers members.reverse))
  | _ => .error .malformed

def stepValue (stack : List Frame) (c : Char) : Except Fault Machine :=
  if c = '"' then .ok ⟨stack, .string false [] .plain⟩
  else if c = '-' ∨ isDecimalDigit c then .ok ⟨stack, .number [c]⟩
  else if c = 'n' then .ok ⟨stack, .word .null ['u', 'l', 'l']⟩
  else if c = 't' then .ok ⟨stack, .word (.boolean true) ['r', 'u', 'e']⟩
  else if c = 'f' then .ok ⟨stack, .word (.boolean false) ['a', 'l', 's', 'e']⟩
  else if c = '[' then enter stack (.array []) .firstItem
  else if c = '\x7b' then enter stack (.object []) .firstKey
  else .error .malformed

def stepKey (stack : List Frame) (c : Char) : Except Fault Machine :=
  if c = '"' then .ok ⟨stack, .string true [] .plain⟩ else .error .malformed

def stepColon (stack : List Frame) (key : String) (c : Char) : Except Fault Machine :=
  match stack with
  | .object members :: stack =>
    if c = ':' then .ok ⟨.member members key :: stack, .value⟩ else .error .malformed
  | _ => .error .malformed

def stepAfter (stack : List Frame) (c : Char) : Except Fault Machine :=
  if c = ',' then
    match stack with
    | .array _ :: _ => .ok ⟨stack, .value⟩
    | .object _ :: _ => .ok ⟨stack, .key⟩
    | _ => .error .malformed
  else if c = ']' then closeArray stack
  else if c = '\x7d' then closeObject stack
  else .error .malformed

def stepWord (stack : List Frame) (value : Json) (rest : List Char) (c : Char) :
    Except Fault Machine :=
  match rest with
  | [] => .error .malformed
  | [last] => if c = last then deliver stack value else .error .malformed
  | next :: rest => if c = next then .ok ⟨stack, .word value rest⟩ else .error .malformed

section Strings

/-- A string is complete. -/
def endString (stack : List Frame) (isKey : Bool) (taken : List Char) : Except Fault Machine :=
  let text := String.ofList taken.reverse
  if isKey then .ok ⟨stack, .colon text⟩ else deliver stack (.text text)

/-- The character that an escape of one letter stands for. -/
def escaped? (c : Char) : Option Char :=
  if c = '"' ∨ c = '\\' ∨ c = '/' then some c
  else if c = 'b' then some '\x08'
  else if c = 'f' then some '\x0c'
  else if c = 'n' then some '\n'
  else if c = 'r' then some '\r'
  else if c = 't' then some '\t'
  else none

def isHighSurrogate (unit : Nat) : Bool := 0xD800 ≤ unit && unit ≤ 0xDBFF

def isLowSurrogate (unit : Nat) : Bool := 0xDC00 ≤ unit && unit ≤ 0xDFFF

/-- What the digits of an escape mean: a character, or the first half of a pair. -/
def endUnit (high : Option Nat) (taken : List Char) (unit : Nat) :
    Except Fault (List Char × InString) :=
  match high with
  | some high =>
    if isLowSurrogate unit then
      .ok (Char.ofNat ((high - 0xD800) * 0x400 + (unit - 0xDC00) + 0x10000) :: taken, .plain)
    else .error .malformed
  | none =>
    if isLowSurrogate unit then .error .malformed
    else if isHighSurrogate unit then .ok (taken, .halfway unit)
    else .ok (Char.ofNat unit :: taken, .plain)

/-- Four bytes are awaited before any of them is looked at. -/
def stepUnit (high : Option Nat) (taken digits : List Char) (c : Char) :
    Except Fault (List Char × InString) :=
  let digits := c :: digits
  if Text.byteLength digits < 4 then .ok (taken, .unit high digits)
  else if digits.length = 4 ∧ digits.all isHexDigit then
    endUnit high taken (digitsValue 16 digits.reverse)
  else .error .malformed

/-- A character of a string that does not end it. -/
def stepInside (taken : List Char) (place : InString) (c : Char) :
    Except Fault (List Char × InString) :=
  match place with
  | .plain =>
    if c = '\\' then .ok (taken, .escape)
    else if c.toNat < 0x20 then .error .malformed
    else .ok (c :: taken, .plain)
  | .escape =>
    if c = 'u' then .ok (taken, .unit none [])
    else
      match escaped? c with
      | some d => .ok (d :: taken, .plain)
      | none => .error .malformed
  | .unit high digits => stepUnit high taken digits c
  | .halfway high => if c = '\\' then .ok (taken, .halfwayEscape high) else .error .malformed
  | .halfwayEscape high => if c = 'u' then .ok (taken, .unit (some high) []) else .error .malformed

def isPlainPlace : InString → Bool
  | .plain => true
  | _ => false

def stepString (stack : List Frame) (isKey : Bool) (taken : List Char)
    (place : InString) (c : Char) :
    Except Fault Machine :=
  if c = '"' ∧ isPlainPlace place then endString stack isKey taken
  else
    match stepInside taken place c with
    | .error fault => .error fault
    | .ok (taken, place) => .ok ⟨stack, .string isKey taken place⟩

end Strings

/-- Characters that go on with a number that has begun. -/
def isNumeric (c : Char) : Bool :=
  isDecimalDigit c || c == '.' || c == 'e' || c == 'E' || c == '+' || c == '-'

/-- One character where no number is under way. -/
def stepSettled (machine : Machine) (c : Char) : Except Fault Machine :=
  match machine.spot with
  | .string isKey taken place => stepString machine.stack isKey taken place c
  | .word value rest => stepWord machine.stack value rest c
  | .number _ => .error .malformed
  | spot =>
    if isBlank c then .ok machine
    else
      match spot with
      | .firstItem => if c = ']' then closeArray machine.stack else stepValue machine.stack c
      | .firstKey => if c = '\x7d' then closeObject machine.stack else stepKey machine.stack c
      | .key => stepKey machine.stack c
      | .colon key => stepColon machine.stack key c
      | .after => stepAfter machine.stack c
      | .value => stepValue machine.stack c
      | _ => .error .malformed

/-- One character. A number ends before the first character that does not go on with it. -/
def step (machine : Machine) (c : Char) : Except Fault Machine :=
  match machine.spot with
  | .number taken =>
    if isNumeric c then .ok ⟨machine.stack, .number (c :: taken)⟩
    else
      match numeral taken.reverse with
      | .error _ => .error .malformed
      | .ok value =>
        match deliver machine.stack value with
        | .error fault => .error fault
        | .ok machine => machine.stepSettled c
  | _ => machine.stepSettled c

/-- The value that was read, when the text is over. -/
def finish (machine : Machine) : Except Fault Json :=
  match machine.spot with
  | .done value => .ok value
  | .number taken =>
    match numeral taken.reverse with
    | .error fault => .error fault
    | .ok value => if machine.stack.isEmpty then .ok value else .error .ended
  | _ => .error .ended

end Machine

/-- Reads a text that holds one value and blanks around it. -/
def parse (text : String) : Except Fault Json :=
  match text.toList.foldlM Machine.step .start with
  | .error fault => .error fault
  | .ok machine => machine.finish

end StanzaSchema.Json
