import StanzaSchema.Column.DataType
import StanzaSchema.Line.Directive

/-!
Lines of a schema text and what they are by their form alone. A line is trimmed, its tokens are cut
at single spaces, and its first character decides its class; whether the class means anything is up
to the stanza that the line stands in.
-/

namespace StanzaSchema

/-- A trimmed line. -/
structure Line where
  text : String
deriving DecidableEq

/-- A column as one line declares it. -/
structure Declaration where
  type : DataType
  /-- None when the symbol stands alone. -/
  name : Option String
  size : Option String
  join : Option String
  tableJoin : Option String
deriving DecidableEq

inductive LineClass where
  | blank
  | tableOpen (name : String)
  | column (declaration : Declaration)
  | columnDescription (column text : String)
  | tableDescription (text : String)
  | comment
  | directive (directive : Directive)
  | unrecognized
deriving DecidableEq

namespace Line

def ofText (raw : String) : Line := ⟨Text.trim raw⟩

def isBlank (line : Line) : Bool := line.text == ""

/-- Consecutive spaces have empty tokens between them. -/
def tokens (line : Line) : List String := if line.isBlank then [] else Text.parts ' ' line.text

/-- The first token, empty on a blank line. -/
def head (line : Line) : String := line.tokens.headD ""

def symbol? (line : Line) : Option Char := line.text.toList.head?

/-- The head without the symbol. -/
def name (line : Line) : String := String.ofList (line.head.toList.drop 1)

/-- What follows the head and its spaces. -/
def tail (line : Line) : List Char :=
  (line.text.toList.drop line.head.length).dropWhile fun c => c == ' '

def joinMark : String := "->"

def tableJoinMark : String := "=>"

/-- The last token of a line whose last but one is `mark`, if something stands before the two. -/
def target? (mark : String) (tokens : List String) : Option String :=
  match tokens.reverse with
  | target :: found :: _ :: _ => if found = mark then some target else none
  | _ => none

def isSizeToken (token : String) : Bool :=
  token != "" && token.toList.all fun c => '0' ≤ c && c ≤ '9'

def isPrecisionToken (token : String) : Bool :=
  token != "" && token.toList.all fun c => '0' ≤ c && c ≤ '9' || c == ','

/-- Whether a token is a size for the type. -/
def acceptsSize : DataType → String → Bool
  | .decimal, token => isPrecisionToken token
  | .string, token => isSizeToken token
  | .guid, token => isSizeToken token
  | .numeric, token => isSizeToken token
  | _, _ => false

def declaration (line : Line) (type : DataType) : Declaration where
  type := type
  name := if line.name = "" then none else some line.name
  size := (line.tokens[1]?).filter (acceptsSize type)
  join := target? joinMark line.tokens
  tableJoin := target? tableJoinMark line.tokens

/-- The class of a line that starts with this symbol, which declares no column. -/
def classOfSymbol (line : Line) (symbol : Char) : LineClass :=
  match symbol with
  | '!' => .tableOpen line.name
  | '"' => .columnDescription line.name (String.ofList (Text.dropFinal '"' line.tail))
  | '>' => .tableDescription (String.ofList (line.text.toList.drop 1))
  | '/' => .comment
  | '[' =>
    match Directive.read? line.text with
    | some directive => .directive directive
    | none => .unrecognized
  | _ => .unrecognized

def classify (line : Line) : LineClass :=
  match line.symbol? with
  | none => .blank
  | some symbol =>
    match DataType.ofSymbol? symbol with
    | some type => .column (line.declaration type)
    | none => line.classOfSymbol symbol

theorem symbol?_eq_none_iff {line : Line} : line.symbol? = none ↔ line.isBlank = true := by
  simp [symbol?, isBlank]

theorem classify_of_isBlank {line : Line} (blank : line.isBlank = true) :
    line.classify = .blank := by
  rw [classify, symbol?_eq_none_iff.mpr blank]

end Line

end StanzaSchema
