import StanzaSchema.Proofs.Columns
import StanzaSchema.Proofs.Separation

/-!
The first reference to a table. A table is made by the first line that opens it for its columns or
for its policy, in whatever file that line stands. There it gets its place in the sequence and the
domain that holds at that point, and it keeps both whatever comes later.
-/

namespace StanzaSchema

namespace LineClass

/-- The table that such a line refers to where no stanza is open, by its name or by a directive. -/
def reference? : LineClass → Option String
  | .tableOpen name => if name = "" then none else some name
  | .directive ⟨.authorization, name⟩ => some name
  | _ => none

/-- The domain that such a line sets where no stanza is open. -/
def domain? : LineClass → Option String
  | .directive ⟨.domain, domain⟩ => some domain
  | _ => none

end LineClass

namespace RoutedLine

def reference? (routed : RoutedLine) : Option String :=
  if routed.position.stanza = .none then routed.line.classify.reference? else none

def domain? (routed : RoutedLine) : Option String :=
  if routed.position.stanza = .none then routed.line.classify.domain? else none

end RoutedLine

/-- The domain after some lines: the last one that was set. -/
def domainAfter (lines : List RoutedLine) : String :=
  (lines.filterMap RoutedLine.domain?).getLast?.getD Table.defaultDomain

/-- The lines before the first reference to a table. -/
def beforeReference (name : String) (lines : List RoutedLine) : List RoutedLine :=
  lines.takeWhile fun line => line.reference? ≠ some name

namespace Request

def reference? : Request → Option String
  | .openTable _ name _ => some name
  | _ => none

def domain? : Request → Option String
  | .setDomain domain => some domain
  | _ => none

/-- What only requests from outside any stanza tell, a line tells by its class there and by nothing
elsewhere. -/
theorem tell_ofLine {α : Type} {tell : Request → Option α}
    (only : ∀ request, request.home? ≠ some .none → tell request = none) (position : Position)
    (line : Line) :
    tell (ofLine position line) =
      if position.stanza = .none then tell (outside position.domain line.classify) else none := by
  split
  next closed =>
    cases blank : line.isBlank with
    | false => simp [ofLine, blank, closed]
    | true =>
      -- A blank line asks for something else than its class would outside a stanza, but neither is
      -- told.
      have close : ofLine position line = .close := by simp [ofLine, blank]
      rw [close, Line.classify_of_isBlank blank, only .close (Option.some_ne_none _).symm]
      exact (only (.refused .outsideStanza) (Option.some_ne_none _).symm).symm
  next opened =>
    apply only
    intro home
    exact opened (home_ofLine home)

private theorem told_outside (domain : String) (found : LineClass) :
    (outside domain found).reference? = found.reference? ∧
      (outside domain found).domain? = found.domain? := by
  cases found with
  | tableOpen name =>
    simp only [outside, LineClass.reference?]
    split <;> exact ⟨rfl, rfl⟩
  | directive directive =>
    obtain ⟨keyword, argument⟩ := directive
    cases keyword <;> exact ⟨rfl, rfl⟩
  | _ => exact ⟨rfl, rfl⟩

theorem reference?_ofLine (position : Position) (line : Line) :
    (ofLine position line).reference? = (RoutedLine.mk position line).reference? := by
  have only (request : Request) (inside : request.home? ≠ some .none) :
      request.reference? = none := by
    cases request with
    | openTable stanza name domain => exact absurd rfl inside
    | _ => rfl
  rw [tell_ofLine only, (told_outside ..).1]
  rfl

theorem domain?_ofLine (position : Position) (line : Line) :
    (ofLine position line).domain? = (RoutedLine.mk position line).domain? := by
  have only (request : Request) (inside : request.home? ≠ some .none) : request.domain? = none := by
    cases request with
    | setDomain domain => exact absurd rfl inside
    | _ => rfl
  rw [tell_ofLine only, (told_outside ..).2]
  rfl

end Request

section Order

variable {name : String} {lines : List RoutedLine} {line : RoutedLine}

theorem domainAfter_concat (lines : List RoutedLine) (line : RoutedLine) :
    domainAfter (lines ++ [line]) = line.domain?.getD (domainAfter lines) := by
  rw [domainAfter, List.getLast?_filterMap_concat]
  cases line.domain? <;> rfl

/-- Once there is a reference, further lines do not move the first one. -/
theorem beforeReference_concat_of_mem (referred : name ∈ lines.filterMap RoutedLine.reference?) :
    beforeReference name (lines ++ [line]) = beforeReference name lines := by
  unfold beforeReference
  induction lines with
  | nil => cases referred
  | cons first rest ih =>
    by_cases refers : first.reference? = some name
    · simp [refers]
    · have later : name ∈ rest.filterMap RoutedLine.reference? := by
        obtain ⟨other, member, same⟩ := List.mem_filterMap.mp referred
        rcases List.mem_cons.mp member with rfl | member
        · exact absurd same refers
        · exact List.mem_filterMap.mpr ⟨other, member, same⟩
      simpa [refers] using ih later

theorem beforeReference_of_not_mem (unknown : name ∉ lines.filterMap RoutedLine.reference?)
    (refers : line.reference? = some name) : beforeReference name (lines ++ [line]) = lines := by
  have apart : ∀ other ∈ lines, decide (other.reference? ≠ some name) = true := by
    intro other member
    rw [decide_eq_true_iff]
    intro same
    exact unknown (List.mem_filterMap.mpr ⟨other, member, same⟩)
  rw [beforeReference, List.takeWhile_append_of_pos apart,
    List.takeWhile_cons_of_neg (by simp [refers]), List.append_nil]

end Order

/-- A reference to a table that is not there puts its name at the end of the sequence. -/
theorem Model.sequence_reference (model : Model) (request : Request) :
    (model.follow request).sequence =
      match request.reference? with
      | some name => if model.tables.contains name then model.sequence else model.sequence ++ [name]
      | none => model.sequence := by
  rw [sequence_follow]
  cases request with
  | openTable stanza name domain =>
    simp only [Request.reference?]
    split <;> simp
  | _ => exact List.append_nil _

theorem Position.domain_follow (position : Position) (request : Request) :
    (position.follow request).domain = request.domain?.getD position.domain := by
  cases request <;> rfl

theorem Table.domain_follow (name : String) (table : Table) (request : Request) :
    (table.follow name request).domain = table.domain := by
  cases request with
  | declare scope declaration =>
    simp only [follow]
    split
    · unfold declare
      split <;> rfl
    · rfl
  | describeColumn scope column text =>
    simp only [follow]
    split <;> rfl
  | describeTable scope text =>
    simp only [follow]
    split <;> rfl
  | _ => rfl

/-- What has been read goes back to the first references among the lines. -/
structure Progress.Referred (lines : List RoutedLine) (progress : Progress) : Prop where
  sequence : progress.model.sequence = (lines.filterMap RoutedLine.reference?).eraseDups
  domain : progress.position.domain = domainAfter lines
  tables : ∀ {name table}, progress.model.tables.get? name = some table →
    table.domain = domainAfter (beforeReference name lines)

namespace Progress.Referred

variable {lines : List RoutedLine} {progress : Progress}

theorem start : Referred [] .start := by
  refine ⟨rfl, rfl, ?_⟩
  intro name table found
  cases found

private theorem mem_tables_iff (referred : Referred lines progress)
    (coherent : progress.model.Coherent) (name : String) :
    name ∈ progress.model.tables.keys ↔ name ∈ lines.filterMap RoutedLine.reference? := by
  rw [coherent.sequence, referred.sequence, List.mem_eraseDups]

private theorem sequence_step (referred : Referred lines progress)
    (coherent : progress.model.Coherent) (line : Line) :
    (progress.follow (.ofLine progress.position line)).model.sequence =
      ((lines ++ [RoutedLine.mk progress.position line]).filterMap
        RoutedLine.reference?).eraseDups := by
  rw [List.filterMap_append, follow, Model.sequence_reference, Request.reference?_ofLine,
    referred.sequence]
  cases told : (RoutedLine.mk progress.position line).reference? with
  | none => simp [told]
  | some name =>
    have known : progress.model.tables.contains name = true ↔
        name ∈ lines.filterMap RoutedLine.reference? := by
      rw [OrderedMap.contains_iff, referred.mem_tables_iff coherent]
    have here : [RoutedLine.mk progress.position line].filterMap RoutedLine.reference? =
        [name] := by simp [told]
    rw [here, List.eraseDups_concat]
    simp only [known]

theorem step (referred : Referred lines progress) (coherent : progress.model.Coherent)
    (line : Line) :
    Referred (lines ++ [RoutedLine.mk progress.position line])
      (progress.follow (.ofLine progress.position line)) := by
  refine ⟨referred.sequence_step coherent line, ?_, ?_⟩
  · rw [position_follow, Position.domain_follow, Request.domain?_ofLine, domainAfter_concat,
      referred.domain]
  · intro name table found
    simp only [follow, Model.table_follow] at found
    cases present : progress.model.tables.get? name with
    | some existing =>
      have known := (referred.mem_tables_iff coherent name).mp (OrderedMap.mem_keys_of_get? present)
      simp only [present, Option.map_some, Option.some_or, Option.some.injEq] at found
      rw [← found, Table.domain_follow, beforeReference_concat_of_mem known,
        referred.tables present]
    | none =>
      -- The line makes the table, in the domain that holds where it stands.
      simp only [present, Option.map_none, Option.none_or] at found
      have unknown : name ∉ lines.filterMap RoutedLine.reference? := by
        rw [← referred.mem_tables_iff coherent]
        exact OrderedMap.get?_eq_none_iff.mp present
      have told := Request.reference?_ofLine progress.position line
      cases asked : Request.ofLine progress.position line with
      | openTable stanza opened domain =>
        rw [asked] at found told
        simp only [Request.table?] at found
        split at found <;> cases found
        next same =>
          have holds : domain = progress.position.domain := (Request.openTable_inv asked).1
          rw [beforeReference_of_not_mem unknown (told.symm.trans (congrArg some same)),
            ← referred.domain]
          exact holds
      | _ =>
        rw [asked] at found
        cases found

end Progress.Referred

private theorem Progress.referred_readAll (lines : List Line) :
    (start.readAll lines).Referred (Position.start.route lines) := by
  have account : Referred ((Position.start.route lines).filterMap some) (start.readAll lines) := by
    refine account_readAll Referred ?_ .start lines
    intro progress lines coherent _ referred line
    exact referred.step coherent line
  rwa [List.filterMap_some] at account

/-- After a run, the sequence lists the tables that lines of all files referred to by opening them
outside any stanza, each once and in the order of the first references. A table is in the domain
that was set last before the first reference to it, in whatever file, and in the default domain
where none had been set. -/
theorem first_reference_wins {volume : Volume} {text : String} {origin : Path}
    {compilation : Compilation}
    (success : (compileText volume text origin).result = .ok compilation) :
    compilation.model.sequence =
      ((transcript volume text origin).filterMap RoutedLine.reference?).eraseDups ∧
    compilation.model.sequence.Nodup ∧ compilation.model.tables.keys = compilation.model.sequence ∧
    ∀ name table, compilation.model.tables.get? name = some table →
      table.domain = domainAfter (beforeReference name (transcript volume text origin)) := by
  have coherent := Progress.coherent_readAll (scannedLines volume text origin)
  have referred := Progress.referred_readAll (scannedLines volume text origin)
  have model := model_of_ok success
  rw [← model] at coherent
  refine ⟨?_, coherent.sequence ▸ compilation.model.tables.distinct, coherent.sequence, ?_⟩
  · rw [model]
    exact referred.sequence
  · intro name table found
    rw [model] at found
    exact referred.tables found

namespace Bookstore

/-- The file that the orders include. It closes the stanza that they leave open. -/
def stock : String :=
  "\n!Book\n~Author -> ID\n\n[Domain Store]\n!Author\n\n[Authorization Book]\n\n!Order\n"

def orders : String :=
  "[Domain Shop]\n[Authorization Author]\n[Domain Lost]\n\n[Include stock]\n[PICT-List Shelf]\n"

def storage : Volume := .ofTexts (.ofEntries [("stock", stock)])

/-- The tables in their order, each with its domain. -/
def domains (compilation : Compilation) : List (String × Option String) :=
  compilation.model.sequence.map fun name =>
    (name, (compilation.model.tables.get? name).map Table.domain)

private theorem domains_compileWithin :
    (compileWithin 1 storage orders origin).map domains =
      some [("Author", some "Shop"), ("Book", some "Shop"), ("Order", some "Store")] := by
  decide +kernel

end Bookstore

/-- A table that is first referred to by its policy, one that gets its domain from another file, and
one after the domain was changed there. What stands inside a stanza sets no domain, and neither
views nor joins make a table. -/
theorem first_reference_wins_bookstore :
    ∃ compilation table,
      (compileText Bookstore.storage Bookstore.orders Bookstore.origin).result = .ok compilation ∧
      ((transcript Bookstore.storage Bookstore.orders Bookstore.origin).filterMap
        RoutedLine.reference?).eraseDups =
        ["Author", "Book", "Order"] ∧
      compilation.model.tables.get? "Order" = some table ∧ table.domain = "Store" ∧
      domainAfter (beforeReference "Order"
        (transcript Bookstore.storage Bookstore.orders Bookstore.origin)) =
        "Store" := by
  obtain ⟨compilation, finished, told⟩ := Option.map_eq_some_iff.mp Bookstore.domains_compileWithin
  have success := compileText_of_compileWithin finished
  obtain ⟨referred, _, _, domains⟩ := first_reference_wins success
  have sequence : compilation.model.sequence = ["Author", "Book", "Order"] := by
    have names := congrArg (List.map Prod.fst) told
    simpa [Bookstore.domains, Function.comp_def] using names
  simp only [Bookstore.domains, sequence, List.map_cons, List.cons.injEq, Prod.mk.injEq] at told
  obtain ⟨table, found, stored⟩ := Option.map_eq_some_iff.mp told.2.2.1.2
  exact ⟨compilation, table, success, referred.symm.trans sequence, found, stored,
    (domains "Order" table found).symm.trans stored⟩

end StanzaSchema
