import StanzaSchema.Proofs.FileLog

/-!
The work stack against the recursive depth-first traversal. A traversal reads a file and then visits
what the file includes, one after the other, each with all that it includes in turn. It keeps a
journal of its stops, which tells in which order files were read, which includes were passed over
and at which one it gave up.
-/

namespace StanzaSchema

/-- A text and the path that it was reached by. -/
structure Source where
  file : Path
  text : String
deriving DecidableEq

/-- What a traversal came upon. -/
inductive Stop where
  | scanned (source : Source)
  | repeated (pending : Pending)
  | unreadable (pending : Pending) (fault : IoFault)
deriving DecidableEq

namespace Stop

/-- The path of the file that a stop marks as visited. -/
def marked? : Stop → Option Path
  | .scanned source => some source.file
  | .repeated _ => none
  | .unreadable pending _ => some pending.path

def source? : Stop → Option Source
  | .scanned source => some source
  | _ => none

/-- The failure of a traversal that gives up at this stop. -/
def failure? : Stop → Option Failure
  | .unreadable pending fault =>
    some (.includeFailed pending.path.text pending.includedFrom.text fault)
  | _ => none

/-- The files that stops marked, in their order. -/
def marks (volume : Volume) (stops : List Stop) : List FileId :=
  (stops.filterMap marked?).map volume.identity

def sources (stops : List Stop) : List Source := stops.filterMap source?

/-- A stop is what the volume says, given the stops before it. Only the text of the first file is
not read from the volume. -/
def Sound (volume : Volume) (before : List Stop) : Stop → Prop
  | .scanned source =>
    volume.identity source.file ∉ marks volume before ∧
      (before ≠ [] → volume.read source.file = .ok source.text)
  | .repeated pending => volume.identity pending.path ∈ marks volume before
  | .unreadable pending fault =>
    volume.identity pending.path ∉ marks volume before ∧ volume.read pending.path = .error fault

theorem marks_concat (volume : Volume) (stops : List Stop) (stop : Stop) :
    marks volume (stops ++ [stop]) =
      marks volume stops ++ (stop.marked?.map volume.identity).toList := by
  cases marked : stop.marked? <;> simp [marks, marked]

theorem sources_concat (stops : List Stop) (stop : Stop) :
    sources (stops ++ [stop]) = sources stops ++ stop.source?.toList := by
  cases found : stop.source? <;> simp [sources, found]

theorem Sound.new {volume : Volume} {before : List Stop} {stop : Stop} {path : Path}
    (sound : stop.Sound volume before) (marked : stop.marked? = some path) :
    volume.identity path ∉ marks volume before := by
  cases stop with
  | scanned source =>
    cases marked
    exact sound.1
  | repeated pending => cases marked
  | unreadable pending fault =>
    cases marked
    exact sound.1

end Stop

/-- A traversal under way: the files it marked, the newest first, what it read so far and its stops
in order. -/
structure Tour where
  visited : List FileId
  session : Session
  stops : List Stop

namespace Tour

/-- Reads a text. Also gives the files it includes. -/
def scan (tour : Tour) (source : Source) : Tour × List Pending :=
  let (session, found) := tour.session.readFile source.file source.text
  ({ tour with session, stops := tour.stops ++ [.scanned source] }, found)

/-- Passes over a file that was marked before. -/
def skip (tour : Tour) (pending : Pending) : Tour :=
  { tour with
    session := tour.session.warn
      ⟨pending.includedFrom.text, pending.line, .repeatedInclude, pending.path.text⟩
    stops := tour.stops ++ [.repeated pending] }

/-- Marks a file that is about to be read. -/
def mark (tour : Tour) (file : FileId) (pending : Pending) : Tour :=
  { tour with
    visited := file :: tour.visited
    session :=
      tour.session.note ⟨.info, "processing include file", [("file", .text pending.path.text)]⟩ }

/-- Gives up at a file that cannot be read. -/
def abandon (tour : Tour) (pending : Pending) (fault : IoFault) : Tour :=
  { tour with
    session := tour.session.note ⟨.error, "error reading include: " ++ fault.text,
      [("file", .text pending.path.text), ("included_from", .text pending.includedFrom.text)]⟩
    stops := tour.stops ++ [.unreadable pending fault] }

/-- Marks a file and reads its text. Also gives the files it includes. -/
def enter (tour : Tour) (volume : Volume) (pending : Pending) (text : String) :
    Tour × List Pending :=
  (tour.mark (volume.identity pending.path) pending).scan ⟨pending.path, text⟩

/-- Where a traversal from `start` led, and why it ended early if it did. No mark is taken back on
the way. -/
structure Course (start : Tour) where
  last : Tour
  failure : Option Failure
  kept : start.visited ⊆ last.visited

/-- A course seen from an earlier point. -/
def Course.since {start later : Tour} (course : Course later)
    (kept : start.visited ⊆ later.visited) :
    Course start :=
  ⟨course.last, course.failure, fun _ member => course.kept (kept member)⟩

/-- Fewer files are left when more are marked. -/
theorem unvisited_mono {volume : Volume} {fewer more : List FileId} (kept : fewer ⊆ more) :
    (Session.unvisited volume more).length ≤ (Session.unvisited volume fewer).length := by
  simp only [Session.unvisited, ← List.countP_eq_length_filter]
  apply List.countP_mono_left
  intro file _ absent
  simp only [Bool.not_eq_true', List.contains_eq_mem, decide_eq_false_iff_not] at absent ⊢
  exact fun member => absent (kept member)

mutual
/-- Reads a file, then visits the files that it includes. -/
def visit (volume : Volume) (source : Source) (tour : Tour) : Course tour :=
  (visitEach volume (tour.scan source).2 (tour.scan source).1).since (List.Subset.refl _)
termination_by ((Session.unvisited volume tour.visited).length, 1, 0)
decreasing_by exact Prod.Lex.right _ (Prod.Lex.left _ _ Nat.zero_lt_one)
/-- Visits files in their order, each one with all that it includes before the next. -/
def visitEach (volume : Volume) (includes : List Pending) (tour : Tour) : Course tour :=
  match includes with
  | [] => ⟨tour, none, List.Subset.refl _⟩
  | pending :: rest =>
    let file := volume.identity pending.path
    if _seen : file ∈ tour.visited then
      (visitEach volume rest (tour.skip pending)).since (List.Subset.refl _)
    else
      match _readable : volume.read pending.path with
      | .error fault =>
        ⟨(tour.mark file pending).abandon pending fault,
         some (.includeFailed pending.path.text pending.includedFrom.text fault),
         List.subset_cons_self ..⟩
      | .ok text =>
        let inside := visit volume ⟨pending.path, text⟩ (tour.mark file pending)
        match inside.failure with
        | some failure =>
          ⟨inside.last, some failure, fun _ member => inside.kept (List.mem_cons_of_mem _ member)⟩
        | none =>
          (visitEach volume rest inside.last).since fun _ member =>
            inside.kept (List.mem_cons_of_mem _ member)
termination_by ((Session.unvisited volume tour.visited).length, 0, includes.length)
decreasing_by
  · exact Prod.Lex.right _ (Prod.Lex.right _ (by simp))
  · exact Prod.Lex.left _ _ (Session.unvisited_lt (volume.identity_mem _ _ _readable) _seen)
  · have fewer : (Session.unvisited volume inside.last.visited).length ≤ _ :=
      unvisited_mono inside.kept
    exact Prod.Lex.left _ _
      (Nat.lt_of_le_of_lt fewer (Session.unvisited_lt (volume.identity_mem _ _ _readable) _seen))
end

/-- The derivation of a traversal, with one rule for each thing that can happen at an include. -/
inductive Visits (volume : Volume) : Tour → List Pending → Tour → Option Failure → Prop where
  | done {tour : Tour} : Visits volume tour [] tour none
  | repeated {tour last : Tour} {pending : Pending} {waiting : List Pending}
      {failure : Option Failure} (seen : volume.identity pending.path ∈ tour.visited)
      (rest : Visits volume (tour.skip pending) waiting last failure) :
      Visits volume tour (pending :: waiting) last failure
  | unreadable {tour : Tour} {pending : Pending} {waiting : List Pending} {fault : IoFault}
      (new : volume.identity pending.path ∉ tour.visited)
      (broken : volume.read pending.path = .error fault) :
      Visits volume tour (pending :: waiting)
        ((tour.mark (volume.identity pending.path) pending).abandon pending fault)
        (some (.includeFailed pending.path.text pending.includedFrom.text fault))
  | failed {tour last : Tour} {pending : Pending} {waiting : List Pending} {text : String}
      {failure : Failure} (new : volume.identity pending.path ∉ tour.visited)
      (readable : volume.read pending.path = .ok text)
      (inside : Visits volume (tour.enter volume pending text).1 (tour.enter volume pending text).2
        last (some failure)) :
      Visits volume tour (pending :: waiting) last (some failure)
  | returned {tour middle last : Tour} {pending : Pending} {waiting : List Pending} {text : String}
      {failure : Option Failure}
      (new : volume.identity pending.path ∉ tour.visited)
      (readable : volume.read pending.path = .ok text)
      (inside : Visits volume (tour.enter volume pending text).1 (tour.enter volume pending text).2
        middle none)
      (rest : Visits volume middle waiting last failure) :
      Visits volume tour (pending :: waiting) last failure

theorem visits_visitEach (volume : Volume) (includes : List Pending) (tour : Tour) :
    Visits volume tour includes (visitEach volume includes tour).last
      (visitEach volume includes tour).failure := by
  refine visitEach.induct volume
    (fun source tour => Visits volume (tour.scan source).1 (tour.scan source).2
      (visit volume source tour).last (visit volume source tour).failure)
    (fun includes tour => Visits volume tour includes
      (visitEach volume includes tour).last (visitEach volume includes tour).failure)
    ?_ ?_ ?_ ?_ ?_ ?_ includes tour
  · intro source tour inside
    rw [visit]
    exact inside
  · intro tour
    rw [visitEach]
    exact .done
  · intro tour pending waiting file seen rest
    rw [visitEach, dif_pos seen]
    exact .repeated seen rest
  · intro tour pending waiting file new fault broken
    rw [visitEach, dif_neg new]
    split
    next _ same =>
      cases broken.symm.trans same
      exact .unreadable new broken
    next _ same => cases broken.symm.trans same
  · intro tour pending waiting file new text readable inside failure failed derived _
    rw [visitEach, dif_neg new]
    split
    next _ same => cases readable.symm.trans same
    next _ same =>
      cases readable.symm.trans same
      rw [failed] at derived
      simp only [inside, file] at failed derived
      simp only [failed]
      exact .failed new readable derived
  · intro tour pending waiting file new text readable inside succeeded derived _ rest
    rw [visitEach, dif_neg new]
    split
    next _ same => cases readable.symm.trans same
    next _ same =>
      cases readable.symm.trans same
      rw [succeeded] at derived
      simp only [inside, file] at succeeded derived rest
      simp only [succeeded]
      exact .returned new readable derived rest

/-- What every stop keeps holds at the end of a traversal. -/
theorem Visits.keeps {volume : Volume} {Holds : Tour → Prop}
    (skip : ∀ {tour pending}, volume.identity pending.path ∈ tour.visited → Holds tour →
      Holds (tour.skip pending))
    (enter : ∀ {tour pending text}, volume.identity pending.path ∉ tour.visited →
      volume.read pending.path = .ok text → Holds tour → Holds (tour.enter volume pending text).1)
    (abandon : ∀ {tour pending fault}, volume.identity pending.path ∉ tour.visited →
      volume.read pending.path = .error fault → Holds tour →
      Holds ((tour.mark (volume.identity pending.path) pending).abandon pending fault))
    {tour last : Tour} {includes : List Pending} {failure : Option Failure}
    (derived : Visits volume tour includes last failure) (holds : Holds tour) : Holds last := by
  induction derived with
  | done => exact holds
  | repeated seen _ ih => exact ih (skip seen holds)
  | unreadable new broken => exact abandon new broken holds
  | failed new readable _ ih => exact ih (enter new readable holds)
  | returned new readable _ _ inside rest => exact rest (inside (enter new readable holds))

section Loop

variable {volume : Volume} {tour last : Tour} {includes : List Pending} {failure : Option Failure}

/-- How the work stack goes on after a course: not at all after a failure. -/
def resume (volume : Volume) (last : Tour) (failure : Option Failure) (waiting : List Pending) :
    Session × Option Failure :=
  match failure with
  | some failure => (last.session, some failure)
  | none => last.session.explore volume ⟨last.visited, waiting⟩

/-- What the work stack does with the includes of a file on top of what was waiting before: it
completes them as the traversal does, and then goes on with the rest. -/
theorem Visits.explore (derived : Visits volume tour includes last failure)
    (waiting : List Pending) :
    tour.session.explore volume ⟨tour.visited, includes ++ waiting⟩ =
      last.resume volume failure waiting := by
  induction derived generalizing waiting with
  | done => rfl
  | repeated seen _ ih =>
    rw [List.cons_append, Session.explore_turned (Session.takeTurn_of_mem seen)]
    exact ih waiting
  | unreadable new broken =>
    rw [List.cons_append, Session.explore_stopped (Session.takeTurn_of_error new broken)]
    rfl
  | failed new readable _ ih =>
    rw [List.cons_append, Session.explore_turned (Session.takeTurn_of_ok new readable)]
    exact ih _
  | returned new readable _ _ inside rest =>
    rw [List.cons_append, Session.explore_turned (Session.takeTurn_of_ok new readable)]
    exact (inside _).trans (rest waiting)

/-- The failure of a traversal is that of its first stop at an unreadable file. -/
theorem Visits.failure_eq (derived : Visits volume tour includes last failure)
    (sofar : tour.stops.findSome? Stop.failure? = none) :
    last.stops.findSome? Stop.failure? = failure := by
  induction derived with
  | done => exact sofar
  | repeated _ _ ih => exact ih (by simp [skip, sofar, Stop.failure?])
  | unreadable _ _ => simp [abandon, mark, sofar, Stop.failure?]
  | failed _ _ _ ih => exact ih (by simp [enter, scan, mark, sofar, Stop.failure?])
  | returned _ _ _ _ inside rest =>
    exact rest (inside (by simp [enter, scan, mark, sofar, Stop.failure?]))

end Loop

end Tour

/-- A journal in which every stop fits those before it. -/
inductive Journal (volume : Volume) : List Stop → Prop where
  | empty : Journal volume []
  | add {stops : List Stop} {stop : Stop} (earlier : Journal volume stops)
      (sound : stop.Sound volume stops) :
      Journal volume (stops ++ [stop])

namespace Journal

variable {volume : Volume} {stops : List Stop}

theorem sound (journal : Journal volume stops) {before after : List Stop} {stop : Stop}
    (split : stops = before ++ stop :: after) : stop.Sound volume before := by
  induction journal generalizing after with
  | empty => simp at split
  | @add stops latest _ fits ih =>
    -- The stop is the latest one, or it stands in the journal before that.
    rcases List.eq_nil_or_concat after with rfl | ⟨between, final, rfl⟩
    · obtain ⟨rfl, same⟩ := List.append_inj' split rfl
      cases same
      exact fits
    · rw [List.concat_eq_append, ← List.cons_append, ← List.append_assoc] at split
      exact ih (List.append_inj' split rfl).1

private theorem nodup_marks (journal : Journal volume stops) : (Stop.marks volume stops).Nodup := by
  induction journal with
  | empty => exact .nil
  | @add stops stop _ fits ih =>
    rw [Stop.marks_concat]
    cases marked : stop.marked? with
    | none => simpa using ih
    | some path =>
      have new := fits.new marked
      rw [Option.map_some, Option.toList_some, List.nodup_append]
      refine ⟨ih, by simp, ?_⟩
      intro file member other last same
      rw [same, List.mem_singleton.mp last] at member
      exact new member

/-- No file is read twice, whatever paths it is reached by. -/
theorem nodup_sources (journal : Journal volume stops) :
    ((Stop.sources stops).map fun source => volume.identity source.file).Nodup := by
  apply List.Sublist.nodup _ journal.nodup_marks
  clear journal
  induction stops with
  | nil => exact .slnil
  | cons stop rest ih =>
    cases stop with
    | scanned source => exact ih.cons_cons _
    | repeated pending => exact ih
    | unreadable pending fault => exact ih.cons _

end Journal

namespace Tour

/-- A tour whose journal holds together and accounts for all marks. -/
structure Charted (volume : Volume) (tour : Tour) : Prop where
  journal : Journal volume tour.stops
  marks : tour.visited.reverse = Stop.marks volume tour.stops
  begun : tour.stops ≠ []

namespace Charted

variable {volume : Volume} {tour : Tour} {pending : Pending}

theorem mem_visited_iff (charted : Charted volume tour) (file : FileId) :
    file ∈ tour.visited ↔ file ∈ Stop.marks volume tour.stops := by
  rw [← charted.marks, List.mem_reverse]

theorem skip (charted : Charted volume tour) (seen : volume.identity pending.path ∈ tour.visited) :
    Charted volume (tour.skip pending) where
  journal := charted.journal.add ((charted.mem_visited_iff _).mp seen)
  marks := by
    simp only [Tour.skip, Stop.marks_concat, Stop.marked?]
    simpa using charted.marks
  begun := by simp [Tour.skip]

theorem enter (charted : Charted volume tour) (new : volume.identity pending.path ∉ tour.visited)
    {text : String} (readable : volume.read pending.path = .ok text) :
    Charted volume (tour.enter volume pending text).1 where
  journal :=
    charted.journal.add ⟨fun member => new ((charted.mem_visited_iff _).mpr member),
      fun _ => readable⟩
  marks := by
    simp only [Tour.enter, scan, mark, Stop.marks_concat, Stop.marked?]
    simpa using charted.marks
  begun := by simp [Tour.enter, scan]

theorem abandon (charted : Charted volume tour) (new : volume.identity pending.path ∉ tour.visited)
    {fault : IoFault} (broken : volume.read pending.path = .error fault) :
    Charted volume ((tour.mark (volume.identity pending.path) pending).abandon pending fault) where
  journal :=
    charted.journal.add ⟨fun member => new ((charted.mem_visited_iff _).mpr member), broken⟩
  marks := by
    simp only [Tour.abandon, mark, Stop.marks_concat, Stop.marked?]
    simpa using charted.marks
  begun := by simp [Tour.abandon]

end Charted

/-- The events of a session tell of the files that the journal lists. -/
def Logged (tour : Tour) : Prop :=
  tour.session.openedFiles = (Stop.sources tour.stops).map Source.file

theorem Logged.skip {tour : Tour} (logged : Logged tour) (pending : Pending) :
    Logged (tour.skip pending) := by
  simp only [Logged, Tour.skip, Session.openedFiles_warn, Stop.sources_concat] at logged ⊢
  simp [Stop.source?, logged]

theorem Logged.scan {tour : Tour} (logged : Logged tour) (source : Source) :
    Logged (tour.scan source).1 := by
  simp only [Logged, Tour.scan, Session.openedFiles_readFile, Stop.sources_concat] at logged ⊢
  simp [Stop.source?, logged]

theorem Logged.mark {tour : Tour} (logged : Logged tour) (file : FileId) (pending : Pending) :
    Logged (tour.mark file pending) := by
  simp only [Logged, Tour.mark, Session.openedFiles_note] at logged ⊢
  simp [Event.opened?, logged]

theorem Logged.abandon {tour : Tour} (logged : Logged tour) (pending : Pending) (fault : IoFault) :
    Logged (tour.abandon pending fault) := by
  simp only [Logged, Tour.abandon, Session.openedFiles_note, Stop.sources_concat] at logged ⊢
  simp [Event.opened?, Stop.source?, logged]

/-- A tour that has marked its first file and read nothing yet. -/
def outset (volume : Volume) (origin : Path) : Tour := ⟨[volume.identity origin], .start, []⟩

/-- The traversal of a text and all that it includes. -/
def depthFirst (volume : Volume) (text : String) (origin : Path) : Course (outset volume origin) :=
  visit volume ⟨origin, text⟩ (outset volume origin)

/-- What a traversal amounts to. -/
def Course.report {start : Tour} (course : Course start) : Report Compilation where
  result := match course.failure with
    | some failure => .error failure
    | none => .ok course.last.session.compilation
  events := course.last.session.events.reverse

section DepthFirst

variable (volume : Volume) (text : String) (origin : Path)

theorem visits_depthFirst :
    Visits volume ((outset volume origin).scan ⟨origin, text⟩).1
      ((outset volume origin).scan ⟨origin, text⟩).2
      (depthFirst volume text origin).last (depthFirst volume text origin).failure := by
  rw [depthFirst, visit]
  exact visits_visitEach ..

theorem charted_depthFirst : Charted volume (depthFirst volume text origin).last := by
  refine (visits_depthFirst volume text origin).keeps (fun seen charted => charted.skip seen)
    (fun new readable charted =>
      charted.enter new readable) (fun new broken charted => charted.abandon new broken) ?_
  exact ⟨.add .empty ⟨List.not_mem_nil, fun started => absurd rfl started⟩, rfl, by simp [scan]⟩

theorem logged_depthFirst : Logged (depthFirst volume text origin).last := by
  have unread : Logged (outset volume origin) := rfl
  exact (visits_depthFirst volume text origin).keeps (fun _ logged => logged.skip _)
    (fun _ _ logged =>
      (logged.mark _ _).scan _) (fun _ _ logged => (logged.mark _ _).abandon _ _) (unread.scan _)

theorem failure_depthFirst :
    (depthFirst volume text origin).failure =
      (depthFirst volume text origin).last.stops.findSome? Stop.failure? :=
  ((visits_depthFirst volume text origin).failure_eq rfl).symm

/-- The work stack does what a derivation of the traversal tells, whichever it is. -/
theorem Visits.compileText_eq {volume : Volume} {text : String} {origin : Path} {last : Tour}
    {failure : Option Failure}
    (derived : Visits volume ((outset volume origin).scan ⟨origin, text⟩).1
      ((outset volume origin).scan ⟨origin, text⟩).2
      last failure) :
    compileText volume text origin =
      { result := failure.elim (.ok last.session.compilation) .error
        events := last.session.events.reverse } := by
  have loop := derived.explore []
  rw [List.append_nil] at loop
  have session : compileText volume text origin =
      (let ended := last.resume volume failure []
       { result := match ended.2 with
          | some failure => .error failure
          | none => .ok ended.1.compilation
         events := ended.1.events.reverse }) := by
    rw [← loop]
    simp only [compileText, Frontier.afterRoot_eq]
    rfl
  rw [session]
  cases failure with
  | some failure => simp [resume]
  | none => simp only [resume, Session.explore_done, Option.elim_none]

theorem compileText_eq_report :
    compileText volume text origin = (depthFirst volume text origin).report := by
  rw [(visits_depthFirst volume text origin).compileText_eq, Course.report]
  cases (depthFirst volume text origin).failure <;> rfl

end DepthFirst

end Tour

/-- The work stack does what the depth-first traversal does, to the last event. So it fails exactly
when the traversal comes upon a file that is neither marked nor readable, with the first such file
as its cause, and it never begins to read a file that it has read under any path. -/
theorem compileText_eq_depthFirst (volume : Volume) (text : String) (origin : Path) :
    let course := Tour.depthFirst volume text origin
    compileText volume text origin = course.report ∧
    (∀ failure, (compileText volume text origin).result = .error failure ↔
      course.last.stops.findSome? Stop.failure? = some failure) ∧
    (∀ before stop after, course.last.stops = before ++ stop :: after → stop.Sound volume before) ∧
    (compileText volume text origin).openedFiles =
      (Stop.sources course.last.stops).map Source.file ∧
    ((compileText volume text origin).openedFiles.map volume.identity).Nodup := by
  intro course
  have same := Tour.compileText_eq_report volume text origin
  have charted := Tour.charted_depthFirst volume text origin
  have opened : (compileText volume text origin).openedFiles =
      (Stop.sources course.last.stops).map Source.file := by
    rw [same]
    exact Tour.logged_depthFirst volume text origin
  refine ⟨same, ?_, ?_, opened, ?_⟩
  · intro failure
    rw [same, ← Tour.failure_depthFirst]
    cases failed : (Tour.depthFirst volume text origin).failure <;>
      simp [Tour.Course.report, failed]
  · intro before stop after split
    exact charted.journal.sound split
  · rw [opened, List.map_map]
    exact charted.journal.nodup_sources

end StanzaSchema
