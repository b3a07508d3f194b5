import StanzaSchema.Reading.Step
import StanzaSchema.Text.Lines

/-!
A reading session: the lines of one file after the other, with the warnings and events that they
caused. A stanza left open at the end of a file goes on in the next.
-/

namespace StanzaSchema

structure Session where
  progress : Progress
  files : Nat
  lines : Nat
  /-- The newest warning first. -/
  warnings : List Warning
  /-- The newest event first. -/
  events : List Event

namespace Session

def start : Session := ⟨.start, 0, 0, [], []⟩

def note (session : Session) (event : Event) : Session :=
  { session with events := event :: session.events }

def warn (session : Session) (warning : Warning) : Session :=
  { session with
    warnings := warning :: session.warnings
    events := warning.event :: session.events }

/-- Takes over what a line did. -/
def accept (session : Session) (place : Place) (line : Line) (outcome : Outcome) : Session :=
  let after : Session :=
    { session with
      progress := outcome.progress
      lines := session.lines + 1
      events := outcome.events.reverse ++ session.events }
  match outcome.warning with
  | some kind => after.warn ⟨place.file.text, place.line, kind, line.text⟩
  | none => after

/-- Reads lines from a number on. Also gives the files they include, in their order. -/
def readLines (file : Path) : Nat → List String → Session → Session × List Pending
  | _, [], session => (session, [])
  | number, raw :: rest, session =>
    let line := Line.ofText raw
    let outcome := session.progress.readLine ⟨file, number⟩ line
    let (last, found) :=
      readLines file (number + 1) rest (session.accept ⟨file, number⟩ line outcome)
    (last, outcome.pending.toList ++ found)

/-- Reads a file. Also gives the files it includes. -/
def readFile (session : Session) (file : Path) (text : String) : Session × List Pending :=
  let opened :=
    { session with files := session.files + 1 }.note ⟨.info, "parsing MicroDDL file",
        [("file", .text file.text)]⟩
  let (read, found) := readLines file 1 (Text.physicalLines text) opened
  (read.note ⟨.info, "finished MicroDDL file",
    [("file", .text file.text), ("includes", .count found.length)]⟩, found)

end Session

end StanzaSchema
