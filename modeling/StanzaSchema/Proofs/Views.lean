import StanzaSchema.Proofs.Cutting
import StanzaSchema.Proofs.Tidiness

/-!
The views of a table after a run. Each line of a view stanza adds a column, sets the title or
assigns a property. The columns of a view are those of all its lines, over all stanzas and files;
title and properties are what the last line that sets them says, and what the template says where
there is none.
-/

namespace StanzaSchema

/-- The map without the entries of these names. -/
def OrderedMap.without {β : Type} (map : OrderedMap β) (names : List String) : OrderedMap β :=
  ⟨map.entries.filter fun entry => entry.1 ∉ names,
   (List.filter_sublist.map Prod.fst).nodup map.distinct⟩

namespace Line

/-- The text of a title in parentheses. -/
def title? (line : Line) : Option String :=
  let chars := line.text.toList
  if chars.head? = some '(' ∧ chars.getLast? = some ')' ∧ 2 ≤ chars.length then
    some (String.ofList chars.tail.dropLast)
  else none

/-- The name and the value of an assignment, which starts with a colon and is split at its first
equals sign. -/
def assignment? (line : Line) : Option (String × String) :=
  match line.text.toList with
  | ':' :: rest =>
    let name := Text.trimChars (rest.takeWhile (· ≠ '='))
    if '=' ∈ rest ∧ name ≠ [] then
      some (String.ofList name, String.ofList (Text.trimChars ((rest.dropWhile (· ≠ '=')).drop 1)))
    else none
  | _ => none

/-- The column that a line adds to a view: a heading, or a column with the attributes that follow
its first token. -/
def viewColumn? (line : Line) : Option ViewColumn :=
  match line.text.toList with
  | '#' :: heading => some ⟨String.ofList heading, some "SectionHeading", .empty⟩
  | ':' :: _ => none
  | chars =>
    if line.title?.isSome then none
    else
      let attributes := ValueSet.read chars
      some ⟨(attributes.get? "Column").getD line.head, attributes.get? "Type",
        attributes.without ["Column", "Type"]⟩

/-- The title that a line gives to a view, in parentheses or by an assignment. -/
def givenTitle? (line : Line) : Option String :=
  line.title?.or (line.assignment?.bind fun (name, value) =>
    if name = "Title" then some value else none)

/-- Whether a line switches a view on or off. -/
def givenSwitch? (line : Line) : Option Bool :=
  line.assignment?.bind fun (name, value) =>
    if name = "Enabled" then
      if value = "true" then some true else if value = "false" then some false else none
    else none

/-- The value that a line gives to a property. -/
def givenValue? (property : String) (line : Line) : Option Json :=
  line.assignment?.bind fun (name, value) =>
    if name = property then
      some (if value = "true" then .boolean true else if value =
        "false" then .boolean false else .text value)
    else none

end Line

/-- What is left of the attributes of a column when its name and kind are taken out. -/
theorem ViewColumn.ofAttributes_eq (head : String) (attributes : OrderedMap String) :
    ofAttributes head attributes =
      ⟨(attributes.get? "Column").getD head, attributes.get? "Type",
       attributes.without ["Column", "Type"]⟩ := by
  have rest : (attributes.erase "Column").entries = attributes.entries.filter fun entry =>
    entry.1 ≠ "Column" :=
    Entries.drop_eq_filter attributes.distinct
  have kind : (attributes.erase "Column").get? "Type" = attributes.get? "Type" :=
    Entries.find?_drop (by decide) attributes.entries
  have left : ((attributes.erase "Column").erase "Type").entries =
      (attributes.without ["Column", "Type"]).entries := by
    refine (Entries.drop_eq_filter (attributes.erase "Column").distinct).trans ?_
    rw [rest, List.filter_filter]
    apply List.filter_congr
    intro entry _
    by_cases column : entry.1 = "Column" <;> by_cases type : entry.1 = "Type" <;>
      simp [column, type]
  rw [ofAttributes, kind, OrderedMap.ext_entries left]

private theorem PropertyLine.title?_eq (line : Line) :
    (title? line.text.toList).map String.ofList = line.title? := by
  unfold title? Line.title?
  split
  next rest shown =>
    cases rest with
    | nil => simp [shown]
    | cons c rest =>
      rw [shown]
      simp only [List.head?_cons, List.tail_cons, List.getLast?_cons_cons,
        List.length_cons, true_and]
      split
      next closed => simp [closed]
      next open_ => simp [open_]
  next other =>
    rw [if_neg, Option.map_none]
    rintro ⟨opened, _⟩
    obtain ⟨rest, shown⟩ := List.head?_eq_some_iff.mp opened
    exact other rest shown

theorem Line.viewColumn?_other {line : Line} (plain : line.text.toList.head? ≠ some '#')
    (other : line.text.toList.head? ≠ some ':') :
    line.viewColumn? =
      if line.title?.isSome then none
      else
        let attributes := ValueSet.read line.text.toList
        some ⟨(attributes.get? "Column").getD line.head, attributes.get? "Type",
          attributes.without ["Column", "Type"]⟩ := by
  unfold viewColumn?
  split
  next shown => simp [shown] at plain
  next shown => simp [shown] at other
  next => rfl

namespace PropertyLine

variable {line : Line}

/-- What is read from a line that starts with a colon. -/
theorem read_colon {rest : List Char} (shown : line.text.toList = ':' :: rest) :
    read line.text = match line.assignment? with
      | some (name, value) => .property name (.ofText value)
      | none => .malformed := by
  have untitled : title? (':' :: rest) = none := rfl
  simp only [read, Line.assignment?, shown, untitled, ofAssignment, Text.cutAt?_eq]
  by_cases split : '=' ∈ rest
  · simp only [split, ↓reduceIte, true_and]
    generalize Text.trimChars (rest.takeWhile fun c => decide (c ≠ '=')) = name
    cases name <;> simp
  · simp [split]

/-- What is read from a line that starts with no colon. -/
theorem read_other (other : line.text.toList.head? ≠ some ':') :
    read line.text = match line.title? with
      | some inside => .title inside
      | none => .valueSet (ValueSet.read line.text.toList) := by
  rw [← title?_eq, read]
  cases title? line.text.toList with
  | some inside => rfl
  | none =>
    simp only [Option.map_none]
    split
    next shown => simp [shown] at other
    next => rfl

end PropertyLine

theorem PropertyValue.json_ofText (text : String) :
    (ofText text).json =
      if text = "true" then .boolean true
      else if text = "false" then .boolean false
      else .text text := by
  unfold ofText
  split
  · rfl
  · split <;> rfl

namespace View

variable {line : Line}

private theorem readLine_heading {rest : List Char} (shown : line.text.toList = '#' :: rest)
    (view : View) :
    view.readLine line = .ok (view.pushColumn (.heading (String.ofList rest))) := by
  simp only [readLine, Progress.changeView, shown]

private theorem readLine_plain (plain : line.text.toList.head? ≠ some '#') (view : View) :
    view.readLine line = match PropertyLine.read line.text with
      | .title title => .ok { view with title }
      | .property name value =>
        (view.setProperty name value.json).mapError fun _ => .invalidProperty
      | .malformed => .error .malformedProperty
      | .valueSet attributes => .ok (view.pushColumn (.ofAttributes line.head attributes)) := by
  unfold readLine Progress.changeView
  split
  next shown => simp [shown] at plain
  next =>
    cases PropertyLine.read line.text with
    | property name value =>
      simp only
      cases view.setProperty name value.json <;> rfl
    | _ => rfl

/-- What a line says to a view, as one of the things that it can say. -/
theorem readLine_cases (line : Line) :
    (∃ column, line.viewColumn? = some column ∧ line.title? = none ∧ line.assignment? = none ∧
      ∀ view : View, view.readLine line = .ok (view.pushColumn column)) ∨
    (∃ title, line.viewColumn? = none ∧ line.title? = some title ∧ line.assignment? = none ∧
      ∀ view : View, view.readLine line = .ok { view with title }) ∨
    (∃ name value, line.viewColumn? = none ∧ line.title? = none ∧
      line.assignment? = some (name, value) ∧ ∀ view : View, view.readLine line =
        (view.setProperty name (PropertyValue.ofText value).json).mapError fun _ =>
          .invalidProperty) ∨
    line.viewColumn? = none ∧ line.title? = none ∧ line.assignment? = none ∧
      ∀ view : View, view.readLine line = .error .malformedProperty := by
  by_cases heading : line.text.toList.head? = some '#'
  · obtain ⟨rest, shown⟩ := List.head?_eq_some_iff.mp heading
    refine .inl ⟨.heading (String.ofList rest), ?_, ?_, ?_, readLine_heading shown⟩
    · simp only [Line.viewColumn?, shown]
      rfl
    · simp [Line.title?, shown]
    · rw [Line.assignment?, shown]
      rfl
  · by_cases colon : line.text.toList.head? = some ':'
    · obtain ⟨rest, shown⟩ := List.head?_eq_some_iff.mp colon
      have untitled : line.title? = none := by simp [Line.title?, shown]
      have uncolumned : line.viewColumn? = none := by
        rw [Line.viewColumn?, shown]
        rfl
      have read := PropertyLine.read_colon shown
      cases assigned : line.assignment? with
      | some assignment =>
        obtain ⟨name, value⟩ := assignment
        refine .inr (.inr (.inl ⟨name, value, uncolumned, untitled, rfl, fun view => ?_⟩))
        rw [readLine_plain heading, read, assigned]
      | none =>
        refine .inr (.inr (.inr ⟨uncolumned, untitled, rfl, fun view => ?_⟩))
        rw [readLine_plain heading, read, assigned]
    · have unassigned : line.assignment? = none := by
        unfold Line.assignment?
        split
        next shown => simp [shown] at colon
        next => rfl
      have read := PropertyLine.read_other colon
      have columned := Line.viewColumn?_other heading colon
      cases titled : line.title? with
      | some title =>
        refine .inr (.inl ⟨title, ?_, rfl, unassigned, fun view => ?_⟩)
        · rw [columned, titled]
          rfl
        · rw [readLine_plain heading, read, titled]
      | none =>
        refine .inl ⟨.ofAttributes line.head (ValueSet.read line.text.toList), ?_, rfl, unassigned,
          fun view => ?_⟩
        · rw [columned, titled, ViewColumn.ofAttributes_eq]
          rfl
        · rw [readLine_plain heading, read, titled]

/-- The view after a line, which is as before when the line cannot be used. -/
def take (view : View) (line : Line) : View := (view.readLine line).toOption.getD view

/-- What an assignment does to a view. -/
def assign (view : View) (name value : String) : View :=
  if name = "Enabled" then
    if value = "true" then { view with enabled := true }
    else if value = "false" then { view with enabled := false }
    else view
  else if name = "Title" then { view with title := value }
  else if name = "Columns" then view
  else view.withProperty name
    (if value = "true" then .boolean true else if value =
      "false" then .boolean false else .text value)

private theorem setProperty_ofText (view : View) (name value : String) :
    (view.setProperty name (PropertyValue.ofText value).json).toOption.getD view =
      view.assign name value := by
  have truth : (Json.boolean true).compact = "true" := by decide
  have falsehood : (Json.boolean false).compact = "false" := by decide
  rw [PropertyValue.json_ofText]
  unfold setProperty assign
  by_cases switch : name = "Enabled"
  · by_cases affirmed : value = "true"
    · simp [switch, affirmed, Except.toOption]
    · by_cases denied : value = "false" <;> simp [switch, affirmed, denied, Except.toOption]
  · by_cases titled : name = "Title"
    -- A title that reads as a truth value is written back as the word that it was.
    · by_cases affirmed : value = "true"
      · simp [titled, affirmed, truth, Except.toOption]
      · by_cases denied : value = "false" <;> simp [titled, affirmed, denied, falsehood,
          Except.toOption]
    · by_cases listed : name = "Columns" <;> simp [switch, titled, listed, Except.toOption]

theorem take_cases (line : Line) :
    (∃ column, line.viewColumn? = some column ∧ line.title? = none ∧ line.assignment? = none ∧
      ∀ view : View, view.take line = view.pushColumn column) ∨
    (∃ title, line.viewColumn? = none ∧ line.title? = some title ∧ line.assignment? = none ∧
      ∀ view : View, view.take line = { view with title }) ∨
    (∃ name value, line.viewColumn? = none ∧ line.title? = none ∧
      line.assignment? = some (name, value) ∧
      ∀ view : View, view.take line = view.assign name value) ∨
    line.viewColumn? = none ∧ line.title? = none ∧ line.assignment? = none ∧ ∀ view :
    View, view.take line = view := by
  rcases readLine_cases line with ⟨column, added, untitled, unassigned, read⟩ |
    ⟨title, added, titled, unassigned, read⟩ |
    ⟨name, value, added, untitled, assigned, read⟩ | ⟨added, untitled, unassigned, read⟩
  · refine .inl ⟨column, added, untitled, unassigned, fun view => ?_⟩
    rw [take, read]
    rfl
  · refine .inr (.inl ⟨title, added, titled, unassigned, fun view => ?_⟩)
    rw [take, read]
    rfl
  · refine .inr (.inr (.inl ⟨name, value, added, untitled, assigned, fun view => ?_⟩))
    rw [take, read, ← setProperty_ofText]
    cases view.setProperty name (PropertyValue.ofText value).json <;> rfl
  · refine .inr (.inr (.inr ⟨added, untitled, unassigned, fun view => ?_⟩))
    rw [take, read]
    rfl

section Fields

variable (view : View) (line : Line)

theorem columns_take : (view.take line).columns = view.columns ++ line.viewColumn?.toList := by
  rcases take_cases line with ⟨column, added, _, _, taken⟩ | ⟨title, added, _, _, taken⟩ |
    ⟨name, value, added, _, _, taken⟩ | ⟨added, _, _, taken⟩
  · simp [taken, added, pushColumn]
  · simp [taken, added]
  · rw [taken, added, Option.toList_none, List.append_nil]
    unfold assign withProperty
    repeat' split
    all_goals rfl
  · simp [taken, added]

theorem title_take : some (view.take line).title = line.givenTitle?.or (some view.title) := by
  rcases take_cases line with ⟨column, _, untitled, unassigned, taken⟩ |
    ⟨title, _, titled, _, taken⟩ |
    ⟨name, value, _, untitled, assigned, taken⟩ | ⟨_, untitled, unassigned, taken⟩
  · simp [taken, Line.givenTitle?, untitled, unassigned, pushColumn]
  · simp [taken, Line.givenTitle?, titled]
  · simp only [taken, Line.givenTitle?, untitled, assigned, Option.none_or, Option.bind_some,
      assign, withProperty]
    by_cases same : name = "Title"
    · simp [same]
    · simp only [same, ↓reduceIte, Option.none_or]
      repeat' split
      all_goals rfl
  · simp [taken, Line.givenTitle?, untitled, unassigned]

theorem enabled_take :
    some (view.take line).enabled = line.givenSwitch?.or (some view.enabled) := by
  rcases take_cases line with ⟨column, _, _, unassigned, taken⟩ | ⟨title, _, _, unassigned, taken⟩ |
    ⟨name, value, _, _, assigned, taken⟩ | ⟨_, _, unassigned, taken⟩
  · simp [taken, Line.givenSwitch?, unassigned, pushColumn]
  · simp [taken, Line.givenSwitch?, unassigned]
  · simp only [taken, Line.givenSwitch?, assigned, Option.bind_some, assign, withProperty]
    repeat' split
    all_goals rfl
  · simp [taken, Line.givenSwitch?, unassigned]

theorem property?_take {property : String} (free : property ∉ View.record.fieldNames) :
    (view.take line).property? property =
      (line.givenValue? property).or (view.property? property) := by
  rcases take_cases line with ⟨column, _, _, unassigned, taken⟩ | ⟨title, _, _, unassigned, taken⟩ |
    ⟨name, value, _, _, assigned, taken⟩ | ⟨_, _, unassigned, taken⟩
  · simp [taken, Line.givenValue?, unassigned, pushColumn, property?]
  · simp [taken, Line.givenValue?, unassigned, property?]
  · simp only [View.record, Json.Record.fieldNames, List.map_cons, List.map_nil, List.mem_cons,
      List.not_mem_nil, or_false, not_or] at free
    obtain ⟨switch, columns, title⟩ := free
    by_cases same : name = property
    · subst same
      simp [taken, Line.givenValue?, assigned, assign, withProperty, property?, switch,
        columns, title]
    · simp only [taken, Line.givenValue?, assigned, Option.bind_some, same, ↓reduceIte,
        Option.none_or, assign, withProperty, property?]
      repeat' split
      all_goals simp [OrderedMap.get?_insert, same]
  · simp [taken, Line.givenValue?, unassigned]

end Fields

/-- What each line sets anew is in the end as the last line that sets it says. -/
theorem foldl_take_last {β : Type} (held : View → Option β) (given : Line → Option β)
    (step : ∀ view line, held (take view line) = (given line).or (held view)) (lines : List Line)
    (view : View) :
    held (lines.foldl take view) = (lines.filterMap given).getLast?.or (held view) := by
  induction lines generalizing view with
  | nil => rfl
  | cons line rest ih =>
    rw [List.foldl_cons, ih, step, ← Option.or_assoc]
    congr 1
    cases set : given line with
    | none => rw [List.filterMap_cons_none set, Option.or_none]
    | some value =>
      rw [List.filterMap_cons_some set, List.getLast?_cons]
      cases (rest.filterMap given).getLast? <;> rfl

theorem columns_foldl (lines : List Line) (view : View) :
    (lines.foldl take view).columns = view.columns ++ lines.filterMap Line.viewColumn? := by
  induction lines generalizing view with
  | nil => simp
  | cons line rest ih =>
    rw [List.foldl_cons, ih, columns_take, List.append_assoc]
    cases added : line.viewColumn? with
    | none => rw [List.filterMap_cons_none added]; rfl
    | some column => rw [List.filterMap_cons_some added]; rfl

end View

/-- The line, if it stands in a stanza of this kind for this table. -/
def RoutedLine.viewLine? (table : String) (kind : ViewKind) (routed : RoutedLine) : Option Line :=
  if routed.position.stanza = .view kind ∧ routed.position.scope = some table ∧
    routed.line.isBlank = false then
    some routed.line
  else none

/-- The lines for a view of a table among the lines of a run, in their order. -/
def viewLinesFor (table : String) (kind : ViewKind) (lines : List RoutedLine) : List Line :=
  lines.filterMap (RoutedLine.viewLine? table kind)

private theorem Request.ofLine_eq_changeView_iff {position : Position} {line said : Line}
    {scope : String} {kind : ViewKind} :
    ofLine position line = .changeView scope kind said ↔
      (RoutedLine.mk position line).viewLine? scope kind = some said := by
  constructor
  · intro asked
    have about : position.scope = some scope := scope_ofLine (by rw [asked]; rfl)
    have here : position.stanza = .view kind := home_ofLine (by rw [asked]; rfl)
    simp only [ofLine, here, about] at asked
    split at asked
    next => cases asked
    next written =>
      cases asked
      simp [RoutedLine.viewLine?, here, about, written]
  · intro found
    unfold RoutedLine.viewLine? at found
    split at found
    next all =>
      obtain ⟨here, about, written⟩ :
        position.stanza = .view kind ∧ position.scope = some scope ∧ line.isBlank = false := all
      cases found
      simp only [ofLine, written, here, about, Bool.false_eq_true, ↓reduceIte]
    next => cases found

theorem ViewSet.view_changeView (views : ViewSet) (table : String) (kind other : ViewKind)
    (line : Line) :
    (views.follow table (.changeView table kind line)).view other =
      if kind = other then (views.view kind).take line else views.view other := by
  rw [follow, if_pos rfl, View.take]
  by_cases same : kind = other
  · subst same
    cases (views.view kind).readLine line <;> simp [Except.toOption]
  · cases (views.view kind).readLine line <;> simp [same]

private theorem ViewSet.view_follow (views : ViewSet) (table : String) (kind : ViewKind)
    (routed : RoutedLine) :
    (views.follow table routed.request).view kind =
      (routed.viewLine? table kind).toList.foldl View.take (views.view kind) := by
  cases found : routed.viewLine? table kind with
  | some line =>
    have asked : routed.request = .changeView table kind line :=
      Request.ofLine_eq_changeView_iff.mpr found
    rw [asked, view_changeView, if_pos rfl]
    rfl
  | none =>
    cases asked : routed.request with
    | changeView scope other line =>
      have spoken := Request.ofLine_eq_changeView_iff.mp asked
      by_cases about : scope = table
      · have apart : other ≠ kind := by
          intro same
          rw [about, same, found] at spoken
          cases spoken
        rw [about, view_changeView, if_neg apart]
        rfl
      · rw [follow, if_neg about]
        rfl
    | _ => rfl

/-- What a view of a table is, or would start as. -/
def Model.viewOf (model : Model) (table : String) (kind : ViewKind) : View :=
  ((model.views.get? table).getD .template).view kind

namespace Progress

variable {progress : Progress}

/-- A line goes to its view. No line comes before the views that it is for. -/
theorem viewOf_follow (seated : progress.Seated) (table : String) (kind : ViewKind) (line : Line) :
    (progress.follow (.ofLine progress.position line)).model.viewOf table kind =
      ((RoutedLine.mk progress.position line).viewLine? table kind).toList.foldl View.take
        (progress.model.viewOf table kind) := by
  simp only [follow, Model.viewOf, Model.views_follow]
  cases found : progress.model.views.get? table with
  | some views => exact views.view_follow table kind ⟨progress.position, line⟩
  | none =>
    have unsaid : (RoutedLine.mk progress.position line).viewLine? table kind = none := by
      apply if_neg
      rintro ⟨here, about, _⟩
      exact OrderedMap.get?_eq_none_iff.mp found (seated.views about here)
    rw [unsaid]
    cases (Request.ofLine progress.position line).opensViews table <;> rfl

private theorem viewOf_readAll (table : String) (kind : ViewKind) (lines : List Line) :
    (start.readAll lines).model.viewOf table kind =
      (viewLinesFor table kind (Position.start.route lines)).foldl View.take
      (ViewSet.template.view kind) := by
  refine account_readAll
    (fun said progress =>
      progress.model.viewOf table kind = said.foldl View.take (ViewSet.template.view kind)) ?_ rfl
    lines
  intro progress said _ seated told line
  rw [viewOf_follow seated, told, List.foldl_append]

end Progress

/-- After a run, the columns of a view are those that the lines of its stanzas give, over all files.
The title, the switch and every other property are what the last line that sets them says, and what
the template says where there is none. No property takes the name of a field of the view, and no
attribute that of a field of its column. -/
theorem views_last_setting {volume : Volume} {text : String} {origin : Path}
    {compilation : Compilation}
    (success : (compileText volume text origin).result = .ok compilation) :
    ∀ table views, compilation.model.views.get? table = some views → ∀ kind,
      let lines := viewLinesFor table kind (transcript volume text origin)
      let initial := ViewSet.template.view kind
      let view := views.view kind
      view.columns = lines.filterMap Line.viewColumn? ∧
      view.title = (lines.filterMap Line.givenTitle?).getLast?.getD initial.title ∧
      view.enabled = (lines.filterMap Line.givenSwitch?).getLast?.getD true ∧
      (∀ property, property ∉ ["Enabled", "Columns", "Title"] →
        view.property? property =
          (lines.filterMap (Line.givenValue? property)).getLast?.or (initial.property? property)) ∧
      (∀ property ∈ ["Enabled", "Columns", "Title"], property ∉ view.properties.keys) ∧
      ∀ column ∈ view.columns, "Column" ∉ column.attributes.keys ∧
        "Type" ∉ column.attributes.keys := by
  intro table views found kind lines initial view
  have tidy := Progress.tidy_readAll (scannedLines volume text origin)
  have told := Progress.viewOf_readAll table kind (scannedLines volume text origin)
  rw [← model_of_ok success] at tidy told
  have folded : view = lines.foldl View.take initial := by
    simp only [Model.viewOf, found, Option.getD_some] at told
    exact told
  have separate := (tidy table views found kind).separate
  refine ⟨?_, ?_, ?_, ?_, ?_, ?_⟩
  · have none_yet : initial.columns = [] := by cases kind <;> rfl
    rw [folded, View.columns_foldl, none_yet, List.nil_append]
  · have last :=
      View.foldl_take_last (fun view => some view.title) Line.givenTitle? View.title_take
        lines initial
    simp only [← folded, Option.or_some, Option.some.injEq] at last
    exact last
  · have last :=
      View.foldl_take_last (fun view => some view.enabled) Line.givenSwitch? View.enabled_take
        lines initial
    have on : initial.enabled = true := by cases kind <;> rfl
    simp only [← folded, on, Option.or_some, Option.some.injEq] at last
    exact last
  · intro property free
    rw [folded]
    exact View.foldl_take_last (fun view => view.property? property) (Line.givenValue? property)
      (fun view line => view.property?_take line free) lines initial
  · intro property reserved listed
    exact separate.properties property listed reserved
  · intro column shown
    exact ⟨fun listed => separate.columns column shown _ listed (by decide),
      fun listed => separate.columns column shown _ listed (by decide)⟩

namespace Bookstore

/-- A file that goes on with the view that the display leaves open. -/
def shelf : String :=
  ":Title=true\n:Enabled=no\nPrice Width:3 Column:Cost Type:Money\n:RowMenu = a=b\n"

def display : String := "[Include shelf]\n[PICT-List Book]\n#On sale\n(Books)\n:Enabled=false\n"

def shelves : Volume := .ofTexts (.ofEntries [("shelf", shelf)])

/-- The columns, the title, the switch and the row menu of the list of books. -/
def listing (compilation : Compilation) :
    Option (List ViewColumn × String × Bool × Option String) :=
  (compilation.model.views.get? "Book").map fun views =>
    (views.list.columns, views.list.title, views.list.enabled,
     (views.list.property? "RowMenu").map Json.compact)

private theorem listing_compileWithin :
    (compileWithin 1 shelves display origin).map listing =
      some (some ([.heading "On sale", ⟨"Cost", some "Money", .ofEntries [("Width", "3")]⟩],
        "true", false, some "\"a=b\"")) := by decide +kernel

end Bookstore

/-- The last title is a word that stands for a truth value elsewhere, the switch stays as it was
last set to one, and a value is all that follows the first equals sign. -/
theorem views_last_setting_bookstore :
    ∃ compilation views,
      (compileText Bookstore.shelves Bookstore.display Bookstore.origin).result = .ok compilation ∧
      compilation.model.views.get? "Book" = some views ∧ views.list.title = "true" ∧
      views.list.enabled = false ∧
      let lines :=
  viewLinesFor "Book" .list (transcript Bookstore.shelves Bookstore.display Bookstore.origin)
      lines.filterMap Line.viewColumn? =
        [.heading "On sale", ⟨"Cost", some "Money", .ofEntries [("Width", "3")]⟩] ∧
      (lines.filterMap Line.givenTitle?).getLast?.getD "<%= EntityName %>s" = "true" ∧
      (lines.filterMap Line.givenSwitch?).getLast?.getD true = false ∧
      ((lines.filterMap (Line.givenValue? "RowMenu")).getLast?.or (some (.boolean true))).map
      Json.compact =
        some "\"a=b\"" := by
  obtain ⟨compilation, finished, told⟩ := Option.map_eq_some_iff.mp Bookstore.listing_compileWithin
  have success := compileText_of_compileWithin finished
  obtain ⟨views, found, shown⟩ := Option.map_eq_some_iff.mp told
  simp only [Prod.mk.injEq] at shown
  obtain ⟨columns, title, enabled, menu⟩ := shown
  obtain ⟨each, titled, switched, set, _⟩ := views_last_setting success "Book" views found .list
  exact ⟨compilation, views, success, found, title, enabled, each.symm.trans columns,
    titled.symm.trans title, switched.symm.trans enabled, set "RowMenu" (by decide) ▸ menu⟩

end StanzaSchema
