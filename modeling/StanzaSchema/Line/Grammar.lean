import StanzaSchema.Text.Cut
import StanzaSchema.View

/-!
The grammar of directives. A rule looks at a place in a text and, if it finds what it stands for,
gives the place behind it. Repetition takes as much as it can and gives nothing back, a choice is
settled by the first alternative that is found, and a text that is only looked ahead to is not
passed. A keyword or an argument may leave a rest; a directive takes the whole text, up to an empty
mark at its end.
-/

namespace StanzaSchema

inductive Keyword where
  | domain
  | authorization
  | view (kind : ViewKind)
  | includeFile
deriving DecidableEq, Repr

namespace Keyword

def all : List Keyword :=
  [.domain, .authorization, .view .create, .view .record, .view .list, .view .update, .view .delete,
   .includeFile]

def text : Keyword → String
  | .domain => "Domain"
  | .authorization => "Authorization"
  | .view kind => "PICT-" ++ kind.name
  | .includeFile => "Include"

end Keyword

namespace Grammar

/-- A place in a text: what is still to be read, and how many bytes have been. -/
structure Cursor where
  rest : List Char
  offset : Nat
deriving DecidableEq

namespace Cursor

def start (text : String) : Cursor := ⟨text.toList, 0⟩

/-- What stands between this place and a later one. -/
def upTo (cursor later : Cursor) : List Char :=
  cursor.rest.take (cursor.rest.length - later.rest.length)

end Cursor

/-- Any character. -/
def any? (cursor : Cursor) : Option Cursor :=
  match cursor.rest with
  | [] => none
  | c :: rest => some ⟨rest, cursor.offset + c.utf8Size⟩

/-- This character. -/
def char? (wanted : Char) (cursor : Cursor) : Option Cursor :=
  if cursor.rest.head? = some wanted then any? cursor else none

/-- These characters. -/
def literal? : List Char → Cursor → Option Cursor
  | [], cursor => some cursor
  | c :: word, cursor => (char? c cursor).bind (literal? word)

def endOfText? (cursor : Cursor) : Option Cursor :=
  if cursor.rest.isEmpty then some cursor else none

/-- A rule that moves on wherever it is found, so that it can be repeated. -/
structure Move where
  find? : Cursor → Option Cursor
  shorter : ∀ {cursor next}, find? cursor = some next → next.rest.length < cursor.rest.length

namespace Move

/-- The rule again and again, up to where it is not found. -/
def zeroOrMore (move : Move) (cursor : Cursor) : Cursor :=
  match _found : move.find? cursor with
  | none => cursor
  | some next => move.zeroOrMore next
termination_by cursor.rest.length
decreasing_by exact move.shorter _found

def oneOrMore? (move : Move) (cursor : Cursor) : Option Cursor :=
  (move.find? cursor).map move.zeroOrMore

end Move

theorem length_of_any? {cursor next : Cursor} (found : any? cursor = some next) :
    next.rest.length < cursor.rest.length := by
  unfold any? at found
  split at found
  next => cases found
  next shown =>
    cases found
    simp [shown]

def space : Move where
  find? := char? ' '
  shorter found := by
    unfold char? at found
    split at found
    · exact length_of_any? found
    · cases found

/-- The first keyword that is found. -/
def keyword? (cursor : Cursor) : Option (Keyword × Cursor) :=
  Keyword.all.findSome? fun keyword =>
    (literal? keyword.text.toList cursor).map fun next => (keyword, next)

/-- A bracket at the very end of the text. -/
def closing? (cursor : Cursor) : Option Cursor := (char? ']' cursor).bind endOfText?

/-- Any character but the bracket at the very end, which is looked ahead to. -/
def argumentCharacter : Move where
  find? cursor := if (closing? cursor).isSome then none else any? cursor
  shorter found := by
    split at found
    · cases found
    · exact length_of_any? found

def argument? (cursor : Cursor) : Option Cursor := argumentCharacter.oneOrMore? cursor

/-- The places between the parts of a directive. -/
structure Cuts where
  keyword : Keyword
  opened : Cursor
  worded : Cursor
  spaced : Cursor
  told : Cursor
  closed : Cursor
deriving DecidableEq

def directive? (cursor : Cursor) : Option Cuts := do
  let opened ← char? '[' cursor
  let (keyword, worded) ← keyword? opened
  let spaced ← space.oneOrMore? worded
  let told ← argument? spaced
  let closed ← char? ']' told
  let _ ← endOfText? closed
  return { keyword, opened, worded, spaced, told, closed }

inductive Rule where
  | keyword
  | argument
  | directive
  | endOfText
deriving DecidableEq, Repr

/-- The bytes that a rule was found between. -/
structure Span where
  rule : Rule
  start : Nat
  stop : Nat
deriving DecidableEq

def Span.between (rule : Rule) (first last : Cursor) : Span := ⟨rule, first.offset, last.offset⟩

/-- A span and the spans inside it. -/
structure Tree where
  span : Span
  inner : List Span
deriving DecidableEq

/-- The spans of a directive that was found from this place on. -/
def Cuts.tree (cuts : Cuts) (start : Cursor) : Tree where
  span := .between .directive start cuts.closed
  inner :=
    [.between .keyword cuts.opened cuts.worded, .between .argument cuts.spaced cuts.told,
     .between .endOfText cuts.closed cuts.closed]

/-- What the rule finds at the front of the text. -/
def find? (rule : Rule) (text : String) : Option Tree :=
  let start := Cursor.start text
  match rule with
  | .keyword => (keyword? start).map fun found => ⟨.between .keyword start found.2, []⟩
  | .argument => (argument? start).map fun next => ⟨.between .argument start next, []⟩
  | .directive => (directive? start).map fun cuts => cuts.tree start
  | .endOfText => (endOfText? start).map fun next => ⟨.between .endOfText start next, []⟩

end Grammar

end StanzaSchema
