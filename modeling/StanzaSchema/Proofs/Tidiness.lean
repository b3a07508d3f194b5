import StanzaSchema.Proofs.Authorization
import StanzaSchema.Proofs.Loading

/-!
What a run puts into policies and views. Every authorizer is the one that its token stands for, no
free property or attribute takes the name of a field, and the values of properties are plain. So the
text of a model tells all of it.
-/

namespace StanzaSchema

theorem Authorizer.canonical_ofToken (token : String) : (ofToken token).Canonical := by
  rw [Canonical, token_ofToken]

namespace Policy

private theorem canonical_of_authorizer? {policy : Policy}
    (each : ∀ role ∈ policy.roleNames, ∀ operation authorizer,
      policy.authorizer? role operation = some authorizer →
      authorizer.Canonical) : policy.Canonical := by
  intro role listed operation member
  have operations : policy.operations? role.1 = some role.2 := OrderedMap.mem_entries_iff.mp listed
  have decided : role.2.get? operation.1 = some operation.2 := OrderedMap.mem_entries_iff.mp member
  refine each role.1 (List.mem_map_of_mem listed) operation.1 operation.2 ?_
  rw [authorizer?, operations, Option.bind_some, decided]

private theorem Preset.canonical_authorizer (preset : Preset) (operation : String) :
    (preset.authorizer operation).Canonical := by
  cases preset with
  | denyAll => rfl
  | allowAll => rfl
  | readonly =>
    simp only [Preset.authorizer]
    split <;> rfl
  | customer =>
    simp only [Preset.authorizer]
    split <;> rfl
  | customerMine =>
    simp only [Preset.authorizer]
    split
    · rfl
    · split <;> rfl

/-- Rules that tokens stand for leave a template with such authorizers only. -/
theorem canonical_foldl {rules : List Rule}
    (canonical : ∀ rule ∈ rules, rule.authorizer.Canonical) :
    (rules.foldl applyRule template).Canonical := by
  refine canonical_of_authorizer? ?_
  intro role listed operation authorizer decided
  rw [roleNames_foldl] at listed
  rw [authorizer?_foldl rules template listed, authorizer?_template listed] at decided
  split at decided
  next rule last =>
    cases decided
    exact canonical rule (List.mem_filter.mp (List.mem_of_getLast? last)).1
  next =>
    unfold preset? at decided
    split at decided <;> cases decided
    exact Preset.canonical_authorizer _ _

end Policy

private theorem canonical_rulesFor (table : String) (lines : List RoutedLine) :
    ∀ rule ∈ rulesFor table lines, rule.authorizer.Canonical := by
  intro rule listed
  obtain ⟨routed, _, spoken⟩ := List.mem_filterMap.mp listed
  unfold RoutedLine.ruleFor? Line.rule? at spoken
  split at spoken
  · split at spoken <;> cases spoken
    exact Authorizer.canonical_ofToken _
  · cases spoken

theorem Progress.canonical_readAll (lines : List Line) :
    ∀ name policy, (Progress.start.readAll lines).model.authorization.get? name = some policy →
      policy.Canonical := by
  intro name policy found
  have ruled := policyOf_readAll name lines
  simp only [Model.policyOf, found, Option.getD_some] at ruled
  rw [ruled]
  exact Policy.canonical_foldl (canonical_rulesFor _ _)

/-- A truth value or a text. -/
def Json.Plain (value : Json) : Prop :=
  (∃ truth, value = .boolean truth) ∨ ∃ text, value = .text text

theorem PropertyValue.plain_json (value : PropertyValue) : value.json.Plain := by
  cases value with
  | boolean truth => exact .inl ⟨truth, rfl⟩
  | text text => exact .inr ⟨text, rfl⟩

namespace ViewColumn

theorem separate_heading (text : String) : (heading text).Separate := by
  intro name listed
  cases listed

theorem separate_ofAttributes (head : String) (attributes : OrderedMap String) :
    (ofAttributes head attributes).Separate := by
  intro name listed reserved
  have outer := OrderedMap.not_mem_keys_erase (attributes.erase "Column") "Type"
  have inner := OrderedMap.not_mem_keys_erase attributes "Column"
  simp only [record, Json.Record.fieldNames, List.map_cons, List.map_nil, List.mem_cons,
    List.not_mem_nil, or_false]
    at reserved
  rcases reserved with rfl | rfl
  · exact inner (OrderedMap.keys_erase_subset _ _ listed)
  · exact outer listed

end ViewColumn

/-- A view with free names apart from its fields and plain properties. -/
structure View.Tidy (view : View) : Prop where
  separate : view.Separate
  plain : ∀ {name value}, view.properties.get? name = some value → value.Plain

namespace View.Tidy

variable {view changed : View}

theorem ofTitle (title : String) : Tidy (.ofTitle title) := by
  refine ⟨⟨?_, ?_⟩, ?_⟩
  · intro column listed
    cases listed
  · intro name listed
    cases listed
  · intro name value found
    cases found

theorem withProperty (tidy : Tidy view) {name : String} {value : Json}
    (free : name ∉ View.record.fieldNames) (plain : value.Plain) :
    Tidy (view.withProperty name value) := by
  refine ⟨⟨tidy.separate.columns, ?_⟩, ?_⟩
  · intro other listed
    rw [View.withProperty, OrderedMap.keys_insert] at listed
    split at listed
    · exact tidy.separate.properties other listed
    · rcases List.mem_append.mp listed with former | last
      · exact tidy.separate.properties other former
      · exact List.mem_singleton.mp last ▸ free
  · intro other content found
    rw [View.withProperty, OrderedMap.get?_insert] at found
    split at found
    · cases found
      exact plain
    · exact tidy.plain found

theorem setProperty (tidy : Tidy view) {name : String} {value : Json} (plain : value.Plain)
    (done : view.setProperty name value = .ok changed) : Tidy changed := by
  unfold View.setProperty at done
  split at done
  · split at done <;> cases done
    exact ⟨⟨tidy.separate.columns, tidy.separate.properties⟩, tidy.plain⟩
  · split at done
    · split at done <;> cases done <;>
        exact ⟨⟨tidy.separate.columns, tidy.separate.properties⟩, tidy.plain⟩
    · split at done <;> cases done
      next notEnabled notTitle notColumns =>
        refine tidy.withProperty ?_ plain
        simp [View.record, Json.Record.fieldNames, notEnabled, notTitle, notColumns]

theorem pushColumn (tidy : Tidy view) {column : ViewColumn} (separate : column.Separate) :
    Tidy (view.pushColumn column) := by
  refine ⟨⟨?_, tidy.separate.properties⟩, tidy.plain⟩
  intro other listed
  rcases List.mem_append.mp listed with former | last
  · exact tidy.separate.columns other former
  · exact List.mem_singleton.mp last ▸ separate

theorem readLine (tidy : Tidy view) {line : Line} (done : view.readLine line = .ok changed) :
    Tidy changed := by
  unfold View.readLine Progress.changeView at done
  split at done
  · cases done
    exact tidy.pushColumn (ViewColumn.separate_heading _)
  · split at done
    · cases done
      exact ⟨⟨tidy.separate.columns, tidy.separate.properties⟩, tidy.plain⟩
    next name value _ =>
      split at done
      next set =>
        cases done
        exact tidy.setProperty value.plain_json set
      next => cases done
    · cases done
    · cases done
      exact tidy.pushColumn (ViewColumn.separate_ofAttributes _ _)

end View.Tidy

namespace ViewSet

def Tidy (views : ViewSet) : Prop := ∀ kind, (views.view kind).Tidy

private theorem tidy_template : template.Tidy := by
  have truth : (Json.boolean true).Plain := .inl ⟨true, rfl⟩
  intro kind
  cases kind with
  | create => exact .ofTitle _
  | record => exact .ofTitle _
  | update => exact .ofTitle _
  | list => exact (View.Tidy.ofTitle _).withProperty (by decide) truth
  | delete =>
    exact
      (((View.Tidy.ofTitle _).withProperty (by decide) truth).withProperty (by decide)
        truth).withProperty
      (by decide) (.inr ⟨_, rfl⟩)

theorem Tidy.follow {views : ViewSet} (tidy : views.Tidy) (name : String) (request : Request) :
    (views.follow name request).Tidy := by
  cases request with
  | changeView scope kind line =>
    simp only [ViewSet.follow]
    split
    · split
      next view done =>
        intro other
        rw [view_setView]
        split
        · exact (tidy kind).readLine done
        · exact tidy other
      next => exact tidy
    · exact tidy
  | _ => exact tidy

end ViewSet

/-- The views of a run are tidy. -/
theorem Progress.tidy_readAll (lines : List Line) :
    ∀ name views, (Progress.start.readAll lines).model.views.get? name = some views →
      views.Tidy := by
  have step (progress : Progress) (line : Line)
      (tidy : ∀ name views, progress.model.views.get? name = some views → views.Tidy) :
      ∀ name views,
        (progress.follow (.ofLine progress.position line)).model.views.get? name = some views →
        views.Tidy := by
    intro name views found
    rw [Progress.follow, Model.views_follow] at found
    rcases Option.or_eq_some_iff.mp found with kept | ⟨_, made⟩
    · obtain ⟨former, held, rfl⟩ := Option.map_eq_some_iff.mp kept
      exact (tidy name former held).follow name _
    · split at made <;> cases made
      exact ViewSet.tidy_template
  have start : ∀ name views, Progress.start.model.views.get? name = some views → views.Tidy := by
    intro name views found
    cases found
  exact readAll_induction step start lines

end StanzaSchema
