import StanzaSchema.Reading.Run

/-!
The files of a run as its events tell them. The reading of a file begins with an event of its own,
which no line of any file can cause, so the events list the files that were read, in their order.
-/

namespace StanzaSchema

/-- The file whose reading begins with this event. -/
def Event.opened? (event : Event) : Option Path :=
  if event.level = .info ∧ event.message = "parsing MicroDDL file" then
    event.fields.findSome? fun field =>
      match field with
      | ("file", .text file) => some ⟨file⟩
      | _ => none
  else none

def Event.openedFiles (events : List Event) : List Path := events.filterMap opened?

/-- The files whose reading began, in the order of the events. -/
def Report.openedFiles {α : Type} (report : Report α) : List Path := Event.openedFiles report.events

namespace Progress

private theorem openedFiles_enterTable (progress : Progress) (place : Place) (stanza : Stanza)
    (name message : String) (other : message ≠ "parsing MicroDDL file") :
    Event.openedFiles (progress.enterTable place stanza name message).events = [] := by
  simp only [enterTable, Outcome.noted]
  split <;> simp [Event.openedFiles, Event.opened?, Event.tableMade, Place.event, other]

private theorem openedFiles_obey (progress : Progress) (place : Place) (directive : Directive) :
    Event.openedFiles (progress.obey place directive).events = [] := by
  unfold obey
  split
  · simp [Event.openedFiles, Event.opened?, Place.event, Outcome.noted]
  · exact openedFiles_enterTable _ _ _ _ _ (by decide)
  · simp only [enterViews, Outcome.noted]
    split <;> simp [Event.openedFiles, Event.opened?, Event.viewsMade, Place.event]
  · simp [includeFile, Event.openedFiles, Event.opened?, Place.event]

theorem openedFiles_readOutside (progress : Progress) (place : Place) (found : LineClass) :
    Event.openedFiles (progress.readOutside place found).events = [] := by
  unfold readOutside
  split
  · split
    · rfl
    · exact openedFiles_enterTable _ _ _ _ _ (by decide)
  · rfl
  · exact openedFiles_obey ..
  · rfl

theorem openedFiles_readTableLine (progress : Progress) (place : Place) (scope : String)
    (line : Line) (found : LineClass) :
    Event.openedFiles (progress.readTableLine place scope line found).events = [] := by
  unfold readTableLine
  split
  · unfold declare
    split <;> simp [Outcome.noted, Outcome.silent, Event.openedFiles, Event.opened?, Place.event]
  · dsimp only
    split <;> rfl
  · rfl
  · simp [Outcome.noted, Event.openedFiles, Event.opened?, Place.event]

private theorem openedFiles_readAuthorizationLine (progress : Progress) (place : Place)
    (scope : String) (line : Line) :
    Event.openedFiles (progress.readAuthorizationLine place scope line).events = [] := by
  unfold readAuthorizationLine
  split
  · unfold authorize
    split <;>
      simp [Outcome.noted, Outcome.silent, Outcome.warned, Event.openedFiles,
        Event.opened?, Place.event]
  · rfl

private theorem openedFiles_changeView (place : Place) (scope : String) (line : Line)
    (view : View) :
    Event.openedFiles (changeView place scope line view).2 = [] := by
  unfold changeView
  split
  · rfl
  · split
    · simp [Event.openedFiles, Event.opened?, Place.event]
    · split <;> simp [Event.openedFiles, Event.opened?, Place.event]
    · rfl
    · rfl

private theorem openedFiles_readViewLine (progress : Progress) (place : Place) (scope : String)
    (kind : ViewKind) (line : Line) :
    Event.openedFiles (progress.readViewLine place scope kind line).events = [] := by
  unfold readViewLine
  split
  · rfl
  · rename_i view _
    have quiet := openedFiles_changeView place scope line view
    split <;> simp_all [Outcome.noted]

/-- No line passes for the beginning of a file. -/
theorem openedFiles_readLine (progress : Progress) (place : Place) (line : Line) :
    Event.openedFiles (progress.readLine place line).events = [] := by
  unfold readLine
  split
  · rfl
  · split
    · exact openedFiles_readOutside ..
    · exact openedFiles_readTableLine ..
    · exact openedFiles_readAuthorizationLine ..
    · exact openedFiles_readViewLine ..
    · rfl

end Progress

namespace Session

/-- The files whose reading began in a session so far. -/
def openedFiles (session : Session) : List Path := Event.openedFiles session.events.reverse

theorem openedFiles_note (session : Session) (event : Event) :
    (session.note event).openedFiles = session.openedFiles ++ event.opened?.toList := by
  cases opened : event.opened? <;> simp [openedFiles, note, Event.openedFiles, opened]

theorem openedFiles_warn (session : Session) (warning : Warning) :
    (session.warn warning).openedFiles = session.openedFiles := by
  simp [openedFiles, warn, Event.openedFiles, Warning.event, Event.opened?]

private theorem openedFiles_accept (session : Session) (place : Place) (line : Line) :
    (session.accept place line (session.progress.readLine place line)).openedFiles =
      session.openedFiles := by
  have quiet := Progress.openedFiles_readLine session.progress place line
  unfold accept
  split
  · rw [openedFiles_warn]
    simp_all [openedFiles, Event.openedFiles]
  · simp_all [openedFiles, Event.openedFiles]

private theorem openedFiles_readLines (file : Path) (number : Nat) (lines : List String)
    (session : Session) :
    (readLines file number lines session).1.openedFiles = session.openedFiles := by
  induction lines generalizing number session with
  | nil => rfl
  | cons raw rest ih =>
    rw [readLines]
    exact (ih _ _).trans (openedFiles_accept ..)

theorem openedFiles_readFile (session : Session) (file : Path) (text : String) :
    (session.readFile file text).1.openedFiles = session.openedFiles ++ [file] := by
  simp only [readFile, openedFiles_note, openedFiles_readLines]
  simp [openedFiles, Event.opened?]

end Session

end StanzaSchema
