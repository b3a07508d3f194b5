import StanzaSchema.Event
import StanzaSchema.Line.Basic
import StanzaSchema.Line.Property
import StanzaSchema.Model.Basic
import StanzaSchema.Reading.Frontier
import StanzaSchema.Reading.Position

/-!
What one line does. A blank line closes the open stanza; any other line belongs to it. Outside a
stanza a line opens one, changes the domain or names a file to include. A line that cannot be used
changes nothing and is warned about.
-/

namespace StanzaSchema

/-- What has been read so far. -/
structure Progress where
  position : Position
  model : Model
  tableCount : Nat
  columnCount : Nat

def Progress.start : Progress := ⟨.start, .empty, 0, 0⟩

/-- Where a line stands. -/
structure Place where
  file : Path
  line : Nat
deriving DecidableEq

def Place.fields (place : Place) : List (String × FieldValue) :=
  [("file", .text place.file.text), ("line", .count place.line)]

/-- An event at this place. -/
def Place.event (place : Place) (level : Level) (message : String)
    (fields : List (String × FieldValue)) : Event :=
  ⟨level, message, place.fields ++ fields⟩

structure Outcome where
  progress : Progress
  warning : Option WarningKind
  pending : Option Pending
  events : List Event

namespace Outcome

def silent (progress : Progress) : Outcome := ⟨progress, none, none, []⟩

def noted (progress : Progress) (events : List Event) : Outcome := ⟨progress, none, none, events⟩

def warned (progress : Progress) (kind : WarningKind) : Outcome := ⟨progress, some kind, none, []⟩

end Outcome

/-- The column that a line declares or describes without naming it. -/
def unknownColumn (scope : String) : String := scope ++ "_UnknownColumn"

/-- The column that a declaration in this scope stands for. -/
def Declaration.column (declaration : Declaration) (scope : String) : Column :=
  { Column.ofType (declaration.name.getD (unknownColumn scope)) declaration.type with
    size := declaration.size.or declaration.type.defaultSize?
    join := declaration.join
    tableJoin := declaration.tableJoin }

def PropertyValue.json : PropertyValue → Json
  | .boolean value => .boolean value
  | .text value => .text value

namespace Progress

/-- Makes the table of a stanza and enters it. -/
def enterTable (progress : Progress) (place : Place) (stanza : Stanza)
    (name message : String) : Outcome :=
  let domain := progress.position.domain
  let (model, made) := progress.model.openTable name domain
  let making := if made then [Event.tableMade name domain] else []
  .noted { progress with model, position := progress.position.enter stanza name }
    (making ++ [place.event .info message [("table", .text name)]])

def enterViews (progress : Progress) (place : Place) (kind : ViewKind) (name : String) : Outcome :=
  let (model, made) := progress.model.openViews name
  let making := if made then [Event.viewsMade name] else []
  .noted { progress with model, position := progress.position.enter (.view kind) name }
    (making ++ [place.event .info "begins PICT stanza" [("table", .text name),
      ("operation", .text kind.name)]])

def includeFile (progress : Progress) (place : Place) (target : String) : Outcome :=
  let pending := Pending.ofTarget place.file target place.line
  { progress, warning := none, pending := some pending
    events := [place.event .info "references include file" [("include", .text pending.path.text)]] }

def obey (progress : Progress) (place : Place) (directive : Directive) : Outcome :=
  match directive.keyword with
  | .domain =>
    .noted { progress with position := progress.position.setDomain directive.argument }
      [place.event .info "changes the domain" [("domain", .text directive.argument)]]
  | .authorization =>
    progress.enterTable place .authorization directive.argument "begins authorization stanza"
  | .view kind => progress.enterViews place kind directive.argument
  | .includeFile => progress.includeFile place directive.argument

/-- A line outside any stanza. -/
def readOutside (progress : Progress) (place : Place) : LineClass → Outcome
  | .tableOpen name =>
    if name = "" then .warned progress .emptyName
    else
      { progress with tableCount := progress.tableCount + 1 }.enterTable place .table name
          "begins table stanza"
  | .comment => .silent progress
  | .directive directive => progress.obey place directive
  | _ => .warned progress .outsideStanza

def declare (progress : Progress) (place : Place) (scope : String) (column : Column) : Outcome :=
  let fields := [("table", FieldValue.text scope), ("column", .text column.name)]
  match progress.model.declareColumn scope column with
  | (model, some .added) =>
    .noted { progress with model, columnCount := progress.columnCount + 1 }
      [place.event .debug "column" fields]
  | (model, some .updated) =>
    .noted { progress with model } [place.event .debug "column redeclared" fields]
  | (_, none) => .silent progress

/-- A line of a table stanza. -/
def readTableLine (progress : Progress) (place : Place) (scope : String) (line : Line) :
    LineClass → Outcome
  | .column declaration => progress.declare place scope (declaration.column scope)
  | .columnDescription column text =>
    let column := if column = "" then unknownColumn scope else column
    match progress.model.describeColumn scope column text with
    | (model, true) => .silent { progress with model }
    | (_, false) => .warned progress .unknownColumn
  | .tableDescription text =>
    .silent { progress with model := (progress.model.describeTable scope text).1 }
  | _ => .noted progress [place.event .debug "comment" [("content", .text line.text)]]

def authorize (progress : Progress) (place : Place) (scope operation role : String)
    (authorizer : Authorizer) :
    Outcome :=
  match progress.model.authorize scope operation role authorizer with
  | (model, some (.broadcast roles)) =>
    .noted { progress with model }
      [place.event .info "wildcard authorization"
        [("table", .text scope), ("operation", .text operation), ("roles", .count roles),
         ("authorizer", .text authorizer.token)]]
  | (model, some (.role previous)) =>
    let fields :=
      [("table", .text scope), ("operation", .text operation), ("role", .text role),
       ("authorizer", .text authorizer.token)] ++
        (previous.map fun previous => ("previous", FieldValue.text previous.token)).toList
    .noted { progress with model } [place.event .info "custom authorization" fields]
  | (_, some .unknownRole) => .warned progress .unknownRole
  | (_, none) => .silent progress

/-- A line of an authorization stanza. Further tokens do not matter. -/
def readAuthorizationLine (progress : Progress) (place : Place) (scope : String)
    (line : Line) : Outcome :=
  match line.tokens with
  | operation :: role :: authorizer :: _ =>
    progress.authorize place scope operation role (.ofToken authorizer)
  | _ => .warned progress .tooFewTokens

/-- What a line of a view stanza does to the view. -/
def changeView (place : Place) (scope : String) (line : Line) (view : View) :
    Except WarningKind View × List Event :=
  match line.text.toList with
  | '#' :: heading => (.ok (view.pushColumn (.heading (String.ofList heading))), [])
  | _ =>
    match PropertyLine.read line.text with
    | .title title =>
      (.ok { view with title }, [place.event .debug "PICT title" [("table", .text scope)]])
    | .property name value =>
      match view.setProperty name value.json with
      | .ok view => (.ok view, [])
      | .error rejection =>
        (.error .invalidProperty,
         [place.event .debug "PICT property rejected" [("rejection", .text rejection.message)]])
    | .malformed => (.error .malformedProperty, [])
    | .valueSet attributes => (.ok (view.pushColumn (.ofAttributes line.head attributes)), [])

/-- A line of a view stanza. -/
def readViewLine (progress : Progress) (place : Place) (scope : String) (kind : ViewKind)
    (line : Line) : Outcome :=
  match progress.model.view? scope kind with
  | none => .silent progress
  | some view =>
    match changeView place scope line view with
    | (.ok view, events) =>
      .noted { progress with model := progress.model.setView scope kind view } events
    | (.error kind, events) => { Outcome.warned progress kind with events }

/-- What a line does. -/
def readLine (progress : Progress) (place : Place) (line : Line) : Outcome :=
  if line.isBlank then .silent { progress with position := progress.position.close }
  else
    match progress.position.stanza, progress.position.scope with
    | .none, _ => progress.readOutside place line.classify
    | .table, some scope => progress.readTableLine place scope line line.classify
    | .authorization, some scope => progress.readAuthorizationLine place scope line
    | .view kind, some scope => progress.readViewLine place scope kind line
    | _, none => .silent progress

end Progress

end StanzaSchema
