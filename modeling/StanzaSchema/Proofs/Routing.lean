import StanzaSchema.Proofs.Maps
import StanzaSchema.Reading.Session

/-!
What a line asks for, apart from what comes of it. The position alone decides how a line is taken:
the request that it makes there moves the position and changes the model, without a second look at
the line. A run is therefore the requests of its lines, one after the other.
-/

namespace StanzaSchema

/-- What a line asks for where it stands. -/
inductive Request where
  | close
  | nothing
  | refused (kind : WarningKind)
  | setDomain (domain : String)
  | openTable (stanza : Stanza) (name domain : String)
  | openViews (kind : ViewKind) (name : String)
  | includeFile (target : String)
  | declare (scope : String) (declaration : Declaration)
  | describeColumn (scope column text : String)
  | describeTable (scope text : String)
  | authorize (scope operation role : String) (authorizer : Authorizer)
  | changeView (scope : String) (kind : ViewKind) (line : Line)

namespace Request

def ofDirective (domain : String) (directive : Directive) : Request :=
  match directive.keyword with
  | .domain => .setDomain directive.argument
  | .authorization => .openTable .authorization directive.argument domain
  | .view kind => .openViews kind directive.argument
  | .includeFile => .includeFile directive.argument

/-- A line outside any stanza. -/
def outside (domain : String) : LineClass → Request
  | .tableOpen name => if name = "" then .refused .emptyName else .openTable .table name domain
  | .comment => .nothing
  | .directive directive => ofDirective domain directive
  | _ => .refused .outsideStanza

/-- A line of a table stanza. -/
def inTable (scope : String) : LineClass → Request
  | .column declaration => .declare scope declaration
  | .columnDescription column text =>
    .describeColumn scope (if column = "" then unknownColumn scope else column) text
  | .tableDescription text => .describeTable scope text
  | _ => .nothing

/-- A line of an authorization stanza. -/
def inAuthorization (scope : String) : List String → Request
  | operation :: role :: authorizer :: _ => .authorize scope operation role (.ofToken authorizer)
  | _ => .refused .tooFewTokens

def ofLine (position : Position) (line : Line) : Request :=
  if line.isBlank then .close
  else
    match position.stanza, position.scope with
    | .none, _ => outside position.domain line.classify
    | .table, some scope => inTable scope line.classify
    | .authorization, some scope => inAuthorization scope line.tokens
    | .view kind, some scope => .changeView scope kind line
    | _, none => .nothing

end Request

def Position.follow (position : Position) : Request → Position
  | .close => position.close
  | .setDomain domain => position.setDomain domain
  | .openTable stanza name _ => position.enter stanza name
  | .openViews kind name => position.enter (.view kind) name
  | _ => position

/-- The view after one of its lines; the place of the line is only told in events. -/
def View.readLine (line : Line) (view : View) : Except WarningKind View :=
  (Progress.changeView ⟨⟨""⟩, 0⟩ "" line view).1

namespace Model

def changeView (model : Model) (scope : String) (kind : ViewKind) (line : Line) : Model :=
  match model.view? scope kind with
  | none => model
  | some view =>
    match view.readLine line with
    | .ok view => model.setView scope kind view
    | .error _ => model

def follow (model : Model) : Request → Model
  | .openTable _ name domain => (model.openTable name domain).1
  | .openViews _ name => (model.openViews name).1
  | .declare scope declaration => (model.declareColumn scope (declaration.column scope)).1
  | .describeColumn scope column text => (model.describeColumn scope column text).1
  | .describeTable scope text => (model.describeTable scope text).1
  | .authorize scope operation role authorizer =>
    (model.authorize scope operation role authorizer).1
  | .changeView scope kind line => model.changeView scope kind line
  | _ => model

/-- How many columns a request adds. -/
def columnsAdded (model : Model) : Request → Nat
  | .declare scope declaration =>
    if (model.declareColumn scope (declaration.column scope)).2 = some .added then 1 else 0
  | _ => 0

end Model

/-- How many table stanzas a request opens. -/
def Request.tablesOpened : Request → Nat
  | .openTable .table _ _ => 1
  | _ => 0

/-- The file that a request is to include. -/
def Request.target? : Request → Option String
  | .includeFile target => some target
  | _ => none

/-- What is wrong with a request, given the model that it meets. -/
def Model.objection? (model : Model) : Request → Option WarningKind
  | .refused kind => some kind
  | .describeColumn scope column text =>
    if (model.describeColumn scope column text).2 then none else some .unknownColumn
  | .authorize scope operation role authorizer =>
    if (model.authorize scope operation role authorizer).2 = some .unknownRole then
      some .unknownRole
    else none
  | .changeView scope kind line =>
    match model.view? scope kind with
    | some view =>
      match view.readLine line with
      | .ok _ => none
      | .error kind => some kind
    | none => none
  | _ => none

def Progress.follow (progress : Progress) (request : Request) : Progress where
  position := progress.position.follow request
  model := progress.model.follow request
  tableCount := progress.tableCount + request.tablesOpened
  columnCount := progress.columnCount + progress.model.columnsAdded request

theorem Progress.position_follow (progress : Progress) (request : Request) :
    (progress.follow request).position = progress.position.follow request := rfl

theorem View.readLine_eq (place : Place) (scope : String) (line : Line) (view : View) :
    (Progress.changeView place scope line view).1 = view.readLine line := by
  unfold View.readLine Progress.changeView
  split
  · rfl
  · split
    · rfl
    · split <;> rfl
    · rfl
    · rfl

namespace Model

variable {model : Model} {scope : String}

theorem declareColumn_none {column : Column}
    (refused : (model.declareColumn scope column).2 = none) :
    (model.declareColumn scope column).1 = model := by
  unfold declareColumn at refused ⊢
  split
  · rfl
  · split <;> simp_all

theorem describeColumn_false {column text : String}
    (refused : (model.describeColumn scope column text).2 = false) :
    (model.describeColumn scope column text).1 = model := by
  unfold describeColumn at refused ⊢
  split
  · rfl
  · split <;> simp_all

theorem authorize_none {operation role : String} {authorizer : Authorizer}
    (refused : (model.authorize scope operation role authorizer).2 = none) :
    (model.authorize scope operation role authorizer).1 = model := by
  unfold authorize at refused ⊢
  split <;> simp_all

theorem authorize_unknownRole {operation role : String} {authorizer : Authorizer}
    (refused : (model.authorize scope operation role authorizer).2 = some .unknownRole) :
    (model.authorize scope operation role authorizer).1 = model := by
  unfold authorize at refused ⊢
  split
  · rfl
  next policy found =>
    have same : (policy.apply operation role authorizer).1 = policy := by
      simp only [found, Option.some.injEq] at refused
      unfold Policy.apply at refused ⊢
      split
      · simp_all
      · split <;> simp_all
    simp only [same, OrderedMap.insert_self found]

end Model

/-- An outcome is all that a request comes to, but for the events on the way. -/
structure Outcome.Answers (outcome : Outcome) (before : Progress) (place : Place)
    (request : Request) : Prop where
  progress : outcome.progress = before.follow request
  warning : outcome.warning = before.model.objection? request
  pending : outcome.pending = request.target?.map fun target =>
    .ofTarget place.file target place.line

namespace Progress

variable (progress : Progress) (place : Place)

theorem answers_readOutside (found : LineClass) :
    (progress.readOutside place found).Answers progress place
      (.outside progress.position.domain found) := by
  cases found with
  | tableOpen name =>
    simp only [readOutside, Request.outside]
    split <;> exact ⟨rfl, rfl, rfl⟩
  | directive directive =>
    obtain ⟨keyword, argument⟩ := directive
    cases keyword <;> exact ⟨rfl, rfl, rfl⟩
  | _ => exact ⟨rfl, rfl, rfl⟩

private theorem answers_declare (scope : String) (declaration : Declaration) :
    (progress.declare place scope (declaration.column scope)).Answers progress place
      (.declare scope declaration) := by
  unfold declare
  split
  next made => exact ⟨by simp only [follow, Model.follow, Model.columnsAdded, made]; rfl, rfl, rfl⟩
  next made => exact ⟨by simp only [follow, Model.follow, Model.columnsAdded, made]; rfl, rfl, rfl⟩
  next made =>
    have same := Model.declareColumn_none (congrArg Prod.snd made)
    refine ⟨?_, rfl, rfl⟩
    simp only [follow, Model.follow, Model.columnsAdded]
    rw [same, made]
    rfl

theorem answers_readTableLine (scope : String) (line : Line) (found : LineClass) :
    (progress.readTableLine place scope line found).Answers progress place
      (.inTable scope found) := by
  cases found with
  | column declaration => exact answers_declare ..
  | columnDescription column text =>
    simp only [readTableLine, Request.inTable]
    generalize (if column = "" then unknownColumn scope else column) = name
    split
    next made =>
      exact ⟨by simp only [follow, Model.follow, made]; rfl,
        by simp only [Model.objection?, made]; rfl, rfl⟩
    next made =>
      have same := Model.describeColumn_false (congrArg Prod.snd made)
      exact ⟨by simp only [follow, Model.follow, same]; rfl,
        by simp only [Model.objection?, made]; rfl, rfl⟩
  | _ => exact ⟨rfl, rfl, rfl⟩

private theorem answers_authorize (scope operation role : String) (authorizer : Authorizer) :
    (progress.authorize place scope operation role authorizer).Answers progress place
      (.authorize scope operation role authorizer) := by
  unfold authorize
  split
  next made =>
    exact ⟨by simp only [follow, Model.follow, made]; rfl,
      by simp only [Model.objection?, made]; rfl, rfl⟩
  next made =>
    exact ⟨by simp only [follow, Model.follow, made]; rfl,
      by simp only [Model.objection?, made]; rfl, rfl⟩
  next made =>
    have same := Model.authorize_unknownRole (congrArg Prod.snd made)
    exact ⟨by simp only [follow, Model.follow, same]; rfl,
      by simp only [Model.objection?, made]; rfl, rfl⟩
  next made =>
    have same := Model.authorize_none (congrArg Prod.snd made)
    exact ⟨by simp only [follow, Model.follow, same]; rfl,
      by simp only [Model.objection?, made]; rfl, rfl⟩

private theorem answers_readAuthorizationLine (scope : String) (line : Line) :
    (progress.readAuthorizationLine place scope line).Answers progress place
      (.inAuthorization scope line.tokens) := by
  unfold readAuthorizationLine
  generalize line.tokens = tokens
  split
  next => exact answers_authorize ..
  next short =>
    unfold Request.inAuthorization
    split
    next => exact absurd rfl (short _ _ _ _)
    next => exact ⟨rfl, rfl, rfl⟩

private theorem answers_readViewLine (scope : String) (kind : ViewKind) (line : Line) :
    (progress.readViewLine place scope kind line).Answers progress place
      (.changeView scope kind line) := by
  unfold readViewLine
  cases found : progress.model.view? scope kind with
  | none =>
    exact ⟨by simp only [follow, Model.follow, Model.changeView, found]; rfl,
      by simp only [Model.objection?, found]; rfl, rfl⟩
  | some view =>
    have read := View.readLine_eq place scope line view
    simp only
    split
    next made =>
      rw [made] at read
      exact ⟨by simp only [follow, Model.follow, Model.changeView, found, ← read]; rfl,
        by simp only [Model.objection?, found, ← read]; rfl, rfl⟩
    next made =>
      rw [made] at read
      exact ⟨by simp only [follow, Model.follow, Model.changeView, found, ← read]; rfl,
        by simp only [Model.objection?, found, ← read]; rfl, rfl⟩

/-- What a line does, warns of and includes is what its request comes to. -/
theorem answers_readLine (line : Line) :
    (progress.readLine place line).Answers progress place (.ofLine progress.position line) := by
  unfold readLine Request.ofLine
  split
  · exact ⟨rfl, rfl, rfl⟩
  · cases progress.position.stanza with
    | none => exact answers_readOutside ..
    | table =>
      cases progress.position.scope with
      | none => exact ⟨rfl, rfl, rfl⟩
      | some scope => exact answers_readTableLine ..
    | authorization =>
      cases progress.position.scope with
      | none => exact ⟨rfl, rfl, rfl⟩
      | some scope => exact answers_readAuthorizationLine ..
    | view kind =>
      cases progress.position.scope with
      | none => exact ⟨rfl, rfl, rfl⟩
      | some scope => exact answers_readViewLine ..

/-- A line does what its request says. -/
theorem progress_readLine (line : Line) :
    (progress.readLine place line).progress = progress.follow (.ofLine progress.position line) :=
  (progress.answers_readLine place line).progress

end Progress

end StanzaSchema
