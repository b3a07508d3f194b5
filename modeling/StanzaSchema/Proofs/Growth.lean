import StanzaSchema.Proofs.Authorization
import StanzaSchema.Proofs.Openings
import StanzaSchema.Proofs.Reach
import StanzaSchema.Proofs.Views

/-!
A model only grows. Whatever is read after some point, what the model held there is still in it:
lists have got longer at their end, descriptions have gone on, and names, domains and roles have
stayed. Types, titles and rules may be set anew, but nothing is taken out and nothing is moved.
-/

namespace StanzaSchema

/-- What one look-up finds, the other finds as well, and there it may have grown. -/
def Kept {β : Type} (Larger : β → β → Prop) (earlier later : Option β) : Prop :=
  ∀ value, earlier = some value → ∃ after, later = some after ∧ Larger value after

namespace Kept

variable {β : Type} {Larger : β → β → Prop} {first second third : Option β}

theorem refl (same : ∀ value, Larger value value) (found : Option β) : Kept Larger found found := by
  intro value present
  exact ⟨value, present, same value⟩

theorem trans (chain : ∀ {a b c}, Larger a b → Larger b c → Larger a c)
    (left : Kept Larger first second) (right : Kept Larger second third) :
    Kept Larger first third := by
  intro value found
  obtain ⟨middle, present, grown⟩ := left value found
  obtain ⟨last, still, more⟩ := right middle present
  exact ⟨last, still, chain grown more⟩

/-- A value that is exchanged for a larger one is kept, whatever stands for a missing one. -/
theorem map_or {change : β → β} (larger : ∀ value, Larger value (change value))
    (found new : Option β) :
    Kept Larger found ((found.map change).or new) := by
  rintro value rfl
  exact ⟨change value, rfl, larger value⟩

end Kept

/-- A text that may have gone on. -/
def Text.Grows (earlier later : String) : Prop := earlier.toList <+: later.toList

structure Column.Grows (earlier later : Column) : Prop where
  name : later.name = earlier.name
  description : Kept Text.Grows earlier.description later.description

structure Table.Grows (earlier later : Table) : Prop where
  name : later.name = earlier.name
  domain : later.domain = earlier.domain
  columnNames : earlier.columnNames <+: later.columnNames
  columns : ∀ name, Kept Column.Grows (earlier.column? name) (later.column? name)
  description : Text.Grows earlier.description later.description

/-- The operations that a role has rules for. -/
def Operations.Grows (earlier later : Operations) : Prop := earlier.keys <+: later.keys

structure Policy.Grows (earlier later : Policy) : Prop where
  roles : later.roleNames = earlier.roleNames
  operations : ∀ role, Kept Operations.Grows (earlier.operations? role) (later.operations? role)

def ViewSet.Grows (earlier later : ViewSet) : Prop :=
  ∀ kind, (earlier.view kind).columns <+: (later.view kind).columns

structure Model.Grows (earlier later : Model) : Prop where
  sequence : earlier.sequence <+: later.sequence
  tables : ∀ name, Kept Table.Grows (earlier.tables.get? name) (later.tables.get? name)
  policies : ∀ name,
    Kept Policy.Grows (earlier.authorization.get? name) (later.authorization.get? name)
  views : ∀ name, Kept ViewSet.Grows (earlier.views.get? name) (later.views.get? name)

namespace Text

theorem Grows.refl (text : String) : Grows text text := List.prefix_refl _

theorem Grows.trans {first second third : String} (left : Grows first second)
    (right : Grows second third) :
    Grows first third := List.IsPrefix.trans left right

theorem grows_of_empty {text : String} (empty : text = "") (later : String) : Grows text later := by
  rw [empty]
  exact List.nil_prefix

theorem grows_append (text mark more : String) : Grows text (text ++ mark ++ more) := by
  rw [Grows, String.append_assoc, String.toList_append]
  exact List.prefix_append ..

end Text

namespace Column

theorem Grows.refl (column : Column) : column.Grows column := ⟨rfl, .refl Text.Grows.refl _⟩

theorem Grows.trans {first second third : Column} (left : first.Grows second)
    (right : second.Grows third) :
    first.Grows third :=
  ⟨right.name.trans left.name, .trans Text.Grows.trans left.description right.description⟩

/-- A further line of a description goes after what is there. -/
theorem grows_describe (column : Column) (text : String) : column.Grows (column.describe text) := by
  refine ⟨column.describe_name text, ?_⟩
  intro existing described
  unfold describe
  split
  · exact ⟨existing, described, .refl existing⟩
  · rw [described]
    dsimp only
    split
    next empty => exact ⟨text, rfl, Text.grows_of_empty empty text⟩
    next => exact ⟨_, rfl, Text.grows_append ..⟩

/-- Another declaration leaves the description alone. -/
theorem grows_redeclare (column new : Column) : column.Grows (column.redeclare new) :=
  ⟨rfl, .refl Text.Grows.refl _⟩

end Column

namespace Table

theorem Grows.refl (table : Table) : table.Grows table :=
  ⟨rfl, rfl, List.prefix_refl _, fun _ => .refl Column.Grows.refl _, .refl _⟩

theorem Grows.trans {first second third : Table} (left : first.Grows second)
    (right : second.Grows third) :
    first.Grows third where
  name := right.name.trans left.name
  domain := right.domain.trans left.domain
  columnNames := left.columnNames.trans right.columnNames
  columns name := .trans Column.Grows.trans (left.columns name) (right.columns name)
  description := left.description.trans right.description

/-- The column of a name is found again after a change to it or to another one. -/
theorem kept_modifyFirst (name : String) {change : Column → Column}
    (larger : ∀ column : Column, column.Grows (change column)) (columns : List Column)
    (other : String) :
    Kept Column.Grows (columns.find? fun column => column.name == other)
      ((modifyFirst name change columns).find? fun column => column.name == other) := by
  induction columns with
  | nil => exact .refl Column.Grows.refl _
  | cons first rest ih =>
    rw [modifyFirst]
    by_cases asked : first.name = other
    · have found : (first :: rest).find? (fun column => column.name == other) = some first := by
        simp [asked]
      rw [found]
      rintro _ ⟨⟩
      split
      · exact ⟨change first, by simp [(larger first).name, asked], larger first⟩
      · exact ⟨first, by simp [asked], .refl first⟩
    · rw [List.find?_cons_of_neg (by simpa using asked)]
      split
      · rw [List.find?_cons_of_neg (by simpa [(larger first).name] using asked)]
        exact .refl Column.Grows.refl _
      · rw [List.find?_cons_of_neg (by simpa using asked)]
        exact ih

private theorem grows_modifyColumn (table : Table) (name : String) {change : Column → Column}
    (larger : ∀ column : Column, column.Grows (change column)) :
    table.Grows (table.modifyColumn name change) := by
  have names : (table.modifyColumn name change).columnNames = table.columnNames :=
    names_modifyFirst _ _ (fun column => (larger column).name) _
  exact ⟨rfl, rfl, ⟨[], (List.append_nil _).trans names.symm⟩,
    kept_modifyFirst name larger table.columns, .refl _⟩

private theorem grows_pushColumn (table : Table) (column : Column) :
    table.Grows (table.pushColumn column) := by
  refine ⟨rfl, rfl, ?_, ?_, .refl _⟩
  · rw [columnNames, columnNames, pushColumn, List.map_append]
    exact List.prefix_append ..
  · intro name existing found
    refine ⟨existing, ?_, .refl existing⟩
    rw [column?] at found
    rw [column?, pushColumn, List.find?_append, found, Option.some_or]

theorem grows_describe (table : Table) (text : String) : table.Grows (table.describe text) := by
  refine ⟨rfl, rfl, List.prefix_refl _, fun _ => .refl Column.Grows.refl _, ?_⟩
  unfold describe
  dsimp only
  split
  next empty => exact Text.grows_of_empty empty text
  next => exact Text.grows_append ..

/-- No request takes anything from a table. -/
theorem grows_follow (name : String) (table : Table) (request : Request) :
    table.Grows (table.follow name request) := by
  cases request with
  | declare scope declaration =>
    simp only [follow]
    split
    · unfold declare
      split
      · exact table.grows_modifyColumn _ fun existing => existing.grows_redeclare _
      · exact table.grows_pushColumn _
    · exact .refl table
  | describeColumn scope column text =>
    simp only [follow]
    split
    · exact table.grows_modifyColumn _ fun existing => existing.grows_describe text
    · exact .refl table
  | describeTable scope text =>
    simp only [follow]
    split
    · exact table.grows_describe text
    · exact .refl table
  | _ => exact .refl table

end Table

namespace Operations

theorem Grows.refl (operations : Operations) : Grows operations operations := List.prefix_refl _

theorem Grows.trans {first second third : Operations} (left : Grows first second)
    (right : Grows second third) :
    Grows first third := List.IsPrefix.trans left right

private theorem grows_insert (operations : Operations) (operation : String)
    (authorizer : Authorizer) :
    Grows operations (operations.insert operation authorizer) := by
  rw [Grows, OrderedMap.keys_insert]
  split
  · exact List.prefix_refl _
  · exact List.prefix_append ..

end Operations

namespace Policy

theorem Grows.refl (policy : Policy) : policy.Grows policy :=
  ⟨rfl, fun _ => .refl Operations.Grows.refl _⟩

theorem Grows.trans {first second third : Policy} (left : first.Grows second)
    (right : second.Grows third) :
    first.Grows third :=
  ⟨right.roles.trans left.roles,
    fun role => .trans Operations.Grows.trans (left.operations role) (right.operations role)⟩

/-- A rule makes no role and takes no operation away. -/
theorem grows_applyRule (policy : Policy) (rule : Rule) : policy.Grows (policy.applyRule rule) := by
  refine ⟨policy.roleNames_applyRule rule, ?_⟩
  intro role operations found
  unfold applyRule apply
  split
  · rw [operations?_broadcast, found, Option.map_some]
    refine ⟨_, rfl, ?_⟩
    split
    · exact .refl operations
    · exact operations.grows_insert ..
  · split
    next changed present =>
      by_cases same : rule.role = role
      · rw [same, found, Option.some.injEq] at present
        subst present
        refine ⟨operations.insert rule.operation rule.authorizer, ?_, operations.grows_insert ..⟩
        simp [operations?, insertRole, same]
      · refine ⟨operations, ?_, .refl operations⟩
        rw [operations?] at found
        simpa [operations?, insertRole, same] using found
    next => exact ⟨operations, found, .refl operations⟩

theorem grows_follow (name : String) (policy : Policy) (request : Request) :
    policy.Grows (policy.follow name request) := by
  cases request with
  | authorize scope operation role authorizer =>
    simp only [follow]
    split
    · exact policy.grows_applyRule ⟨operation, role, authorizer⟩
    · exact .refl policy
  | _ => exact .refl policy

end Policy

namespace ViewSet

theorem Grows.refl (views : ViewSet) : views.Grows views := fun _ => List.prefix_refl _

theorem Grows.trans {first second third : ViewSet} (left : first.Grows second)
    (right : second.Grows third) :
    first.Grows third := fun kind => (left kind).trans (right kind)

/-- A line of a view adds a column at most. -/
theorem grows_follow (name : String) (views : ViewSet) (request : Request) :
    views.Grows (views.follow name request) := by
  cases request with
  | changeView scope kind line =>
    by_cases about : scope = name
    · intro other
      rw [about, view_changeView]
      split
      next same =>
        rw [← same, View.columns_take]
        exact List.prefix_append ..
      · exact List.prefix_refl _
    · rw [follow, if_neg about]
      exact .refl views
  | _ => exact .refl views

end ViewSet

namespace Model

theorem Grows.refl (model : Model) : model.Grows model :=
  ⟨List.prefix_refl _, fun _ => .refl Table.Grows.refl _, fun _ => .refl Policy.Grows.refl _,
    fun _ => .refl ViewSet.Grows.refl _⟩

theorem Grows.trans {first second third : Model} (left : first.Grows second)
    (right : second.Grows third) :
    first.Grows third where
  sequence := left.sequence.trans right.sequence
  tables name := .trans Table.Grows.trans (left.tables name) (right.tables name)
  policies name := .trans Policy.Grows.trans (left.policies name) (right.policies name)
  views name := .trans ViewSet.Grows.trans (left.views name) (right.views name)

/-- A request keeps all that a model holds. The policies of an incoherent model could be made
anew. -/
theorem grows_follow {model : Model} (coherent : model.Coherent) (request : Request) :
    model.Grows (model.follow request) := by
  refine ⟨?_, ?_, ?_, ?_⟩
  · rw [sequence_follow]
    exact List.prefix_append ..
  · intro name
    rw [table_follow]
    exact .map_or (fun table => Table.grows_follow name table request) _ _
  · intro name
    rw [policy_follow coherent]
    exact .map_or (fun policy => Policy.grows_follow name policy request) _ _
  · intro name
    rw [views_follow]
    exact .map_or (fun views => ViewSet.grows_follow name views request) _ _

end Model

theorem Progress.grows_readAll {progress : Progress} (coherent : progress.model.Coherent)
    (lines : List Line) :
    progress.model.Grows (progress.readAll lines).model := by
  induction lines generalizing progress with
  | nil => exact .refl _
  | cons line rest ih =>
    have step : progress.model.Grows (progress.follow (.ofLine progress.position line)).model :=
      Model.grows_follow coherent _
    exact step.trans (ih (coherent.follow _))

/-- The points that a session can come to from here, by further lines and files, and by files that
are waiting with all that they include. -/
inductive Session.Later (now : Session) : Session → Prop where
  | now : Later now now
  | lines {session : Session} (sofar : Later now session) (file : Path) (number : Nat)
      (lines : List String) :
      Later now (readLines file number lines session).1
  | file {session : Session} (sofar : Later now session) (path : Path) (text : String) :
      Later now (session.readFile path text).1
  | waiting {session : Session} (sofar : Later now session) (volume : Volume)
      (frontier : Frontier) :
      Later now (session.explore volume frontier).1

namespace Session

private theorem exists_readAll_explore (volume : Volume) (frontier : Frontier) (session : Session) :
    ∃ lines, (session.explore volume frontier).1.progress = session.progress.readAll lines := by
  fun_induction explore volume frontier session with
  | case1 => exact ⟨[], rfl⟩
  | case2 frontier session pending rest waiting stopped failure turned =>
    obtain ⟨fault, _, rfl, _⟩ := takeTurn_failed turned
    exact ⟨[], rfl⟩
  | case3 frontier session pending rest waiting further next turned ih =>
    obtain ⟨lines, later⟩ := ih
    rcases takeTurn_cases turned with ⟨_, rfl, _⟩ | ⟨_, text, _, rfl, _⟩
    · exact ⟨lines, later⟩
    · have told := (session.announce pending).progress_readFile ⟨pending.path, text⟩
      refine ⟨Source.lines ⟨pending.path, text⟩ ++ lines, ?_⟩
      rw [later, told, ← Progress.readAll_append]
      rfl

/-- However a session goes on, it reads some more lines. -/
theorem Later.exists_readAll {now later : Session} (onward : now.Later later) :
    ∃ lines, later.progress = now.progress.readAll lines := by
  have extend {session next : Session}
      (sofar : ∃ lines, session.progress = now.progress.readAll lines)
      (more : ∃ lines, next.progress = session.progress.readAll lines) :
      ∃ lines, next.progress = now.progress.readAll lines := by
    obtain ⟨earlier, told⟩ := sofar
    obtain ⟨lines, further⟩ := more
    exact ⟨earlier ++ lines, by rw [further, told, ← Progress.readAll_append]⟩
  induction onward with
  | now => exact ⟨[], rfl⟩
  | lines _ file number lines ih => exact extend ih ⟨_, progress_readLines ..⟩
  | @file session _ path text ih => exact extend ih ⟨_, session.progress_readFile ⟨path, text⟩⟩
  | waiting _ volume frontier ih => exact extend ih (exists_readAll_explore ..)

end Session

/-- At every point of a run, what the model holds is there to stay. Whatever lines and files come
later, the sequence goes on from where it was; each table keeps its name, its domain and its columns
in their order, with descriptions that can only go on; its policy, which every table has, keeps its
roles and their operations in order; and views keep their columns. -/
theorem model_only_grows {now later : Session} (reached : now.progress.Reached)
    (onward : now.Later later) :
    now.progress.model.Grows later.progress.model ∧
    now.progress.model.authorization.keys = now.progress.model.tables.keys := by
  have coherent := reached.coherent
  obtain ⟨lines, told⟩ := onward.exists_readAll
  constructor
  · rw [told]
    exact Progress.grows_readAll coherent lines
  · rw [coherent.policies, coherent.sequence]

/-- The file that the orders include adds two tables and opens the first one again. -/
theorem model_only_grows_bookstore :
    let root := Session.start.readFile Bookstore.origin Bookstore.orders
    let frontier := Frontier.afterRoot (Bookstore.storage.identity Bookstore.origin) root.2
    let last := (root.1.explore Bookstore.storage frontier).1
    root.1.progress.Reached ∧ root.1.Later last ∧
      root.1.progress.model.sequence = ["Author"] ∧
      last.progress.model.sequence = ["Author", "Book", "Order"] ∧
      root.1.progress.model.Grows last.progress.model := by
  intro root frontier last
  have reached : root.1.progress.Reached := Session.reached_readFile .start _ _
  have onward : root.1.Later last := .waiting .now _ _
  have evaluated : (root.1.exploreFor Bookstore.storage 1 frontier).map
      (fun ended => (root.1.progress.model.sequence, ended.1.progress.model.sequence)) =
        some (["Author"], ["Author", "Book", "Order"]) := by decide +kernel
  obtain ⟨ended, finished, told⟩ := Option.map_eq_some_iff.mp evaluated
  obtain ⟨before, after⟩ := Prod.mk.inj told
  refine ⟨reached, onward, before, ?_, (model_only_grows reached onward).1⟩
  simp only [last, Session.explore_of_exploreFor finished]
  exact after

end StanzaSchema
