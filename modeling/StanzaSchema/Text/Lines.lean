/-!
Physical lines of a source text. A line ends at a line feed, together with a carriage return right
before it; a text that ends in a line feed has no further empty line. One byte order mark in front
of the text is no part of it.
-/

namespace StanzaSchema.Text

def byteOrderMark : Char := '\uFEFF'

/-- The text without one leading byte order mark. -/
def dropByteOrderMark : List Char → List Char
  | [] => []
  | c :: rest => if c = byteOrderMark then rest else c :: rest

/-- A line that ended in a line feed, without the carriage return before it. -/
def dropCarriageReturn (line : List Char) : List Char :=
  if line.getLast? = some '\r' then line.dropLast else line

/-- Lines of the parts between line feeds: all but the last part were ended by one. -/
def endedLines : List (List Char) → List (List Char)
  | [] => []
  | [last] => if last.isEmpty then [] else [last]
  | part :: next :: rest => dropCarriageReturn part :: endedLines (next :: rest)

def physicalLines (text : String) : List String :=
  (endedLines ((dropByteOrderMark text.toList).splitOn '\n')).map String.ofList

end StanzaSchema.Text
