import QueryAid.Lint.Validation
import Mathlib.Data.List.Basic
/-!
# Where the validation goes

The validation goes from the selection set of each definition down into the sets below it, and with each of them it
knows the type that selections are made from, or does not. `Validation.Enters` is this walk as a relation.
`mem_checkSelectionSet_iff` says that nothing else happens on it: an error about selections is an error about one
selection by itself, in a set that is entered, with the type with which it is entered.

So what holds of every error is shown for each rule by itself (`Reports`). `checkDocument_reports` is such a fact: every
error is a violation that is said of one part of the document, and a field that is said not to exist does not.
-/

namespace QueryAid

/-! ### The walk -/

/-- One step from a selection set down into a set below it. -/
inductive Descent where
  | field (head : FieldHead)
  | inline (head : InlineHead)

/-- The selections of an operation or a fragment. -/
def Definition.selectionSet : Definition → SelectionSet
  | operation o => o.selectionSet
  | fragment f => f.selectionSet

namespace Schema

variable {s : Schema} {t : TypeDef}

theorem mem_types_of_type? {name : String} (h : s.type? name = some t) : t ∈ s.types.entries :=
  (Table.find?_eq_some_iff.1 h).1

theorem mem_types_of_root? {k : OperationKind} (h : s.root? k = some t) : t ∈ s.types.entries := by
  obtain ⟨name, -, hfind⟩ := Option.bind_eq_some_iff.1 h
  exact mem_types_of_type? hfind

end Schema

namespace Validation

variable {s : Schema} {d : Document} {x : Definition} {e : ValidationError}

/-- The type that the selections of a definition are made from. -/
def rootType? (s : Schema) : Definition → Option TypeDef
  | .operation o => s.root? o.kind
  | .fragment f => conditionType? s f.typeCondition

/-- **The validation enters a selection set,** below a definition on a path, with the type that its selections are made
from. -/
inductive Enters (s : Schema) (x : Definition) : List Descent → Option TypeDef → SelectionSet → Prop where
  | root : Enters s x [] (rootType? s x) x.selectionSet
  | field {path : List Descent} {parent : Option TypeDef} {set inner : SelectionSet} {head : FieldHead}
    (hset : Enters s x path parent set) (h : .field head (some inner) ∈ set.selections) :
    Enters s x (path ++ [.field head]) (fieldType? s parent head) inner
  | inline {path : List Descent} {parent : Option TypeDef} {set inner : SelectionSet} {head : InlineHead}
    (hset : Enters s x path parent set) (h : .inline head inner ∈ set.selections) :
    Enters s x (path ++ [.inline head]) (inlineType? s parent head) inner

/-- The rules for a selection, the selections below it left aside. -/
def checkSelectionHead (s : Schema) (d : Document) (parent : Option TypeDef) : Selection → List ValidationError
  | .field head inner => checkFieldHead s parent head inner.isSome
  | .spread f => checkSpread s d f
  | .inline head _ => checkInlineHead s head

/-- An error about one selection by itself, in a set that is entered. -/
def FoundOnWalk (s : Schema) (d : Document) (x : Definition) (e : ValidationError) : Prop :=
  ∃ path parent set, Enters s x path parent set ∧ ∃ y ∈ set.selections, e ∈ checkSelectionHead s d parent y

theorem mem_checkSelections_iff {parent : Option TypeDef} {ys : List Selection} :
    e ∈ checkSelections s d parent ys ↔ ∃ y ∈ ys, e ∈ checkSelection s d parent y := by
  induction ys with
  | nil => simp [checkSelections]
  | cons y ys ih => rw [checkSelections, List.mem_append, ih, List.exists_mem_cons_iff]

theorem mem_checkSelectionSet_iff_exists {parent : Option TypeDef} {set : SelectionSet} :
    e ∈ checkSelectionSet s d parent set ↔ ∃ y ∈ set.selections, e ∈ checkSelection s d parent y := by
  obtain ⟨ys, span⟩ := set
  rw [checkSelectionSet]
  exact mem_checkSelections_iff

mutual

private theorem foundOnWalk_of_mem_checkSelection {path : List Descent} {parent : Option TypeDef}
    {set : SelectionSet} (hset : Enters s x path parent set) :
    ∀ y : Selection, y ∈ set.selections → e ∈ checkSelection s d parent y → FoundOnWalk s d x e
  | .field head none, hy, he => ⟨path, parent, set, hset, _, hy, he⟩
  | .field head (some inner), hy, he => by
    rw [checkSelection, List.mem_append] at he
    rcases he with he | he
    · exact ⟨path, parent, set, hset, _, hy, he⟩
    · exact foundOnWalk_of_mem_checkSelectionSet inner (.field hset hy) he
  | .spread f, hy, he => ⟨path, parent, set, hset, _, hy, he⟩
  | .inline head inner, hy, he => by
    rw [checkSelection, List.mem_append] at he
    rcases he with he | he
    · exact ⟨path, parent, set, hset, _, hy, he⟩
    · exact foundOnWalk_of_mem_checkSelectionSet inner (.inline hset hy) he

private theorem foundOnWalk_of_mem_checkSelectionSet {path : List Descent} {parent : Option TypeDef} :
    ∀ set : SelectionSet, Enters s x path parent set → e ∈ checkSelectionSet s d parent set →
      FoundOnWalk s d x e
  | .mk ys _, hset, he => foundOnWalk_of_mem_checkSelections hset ys (fun _ hy => hy) he

private theorem foundOnWalk_of_mem_checkSelections {path : List Descent} {parent : Option TypeDef}
    {set : SelectionSet} (hset : Enters s x path parent set) :
    ∀ ys : List Selection, (∀ y ∈ ys, y ∈ set.selections) → e ∈ checkSelections s d parent ys →
      FoundOnWalk s d x e
  | [], _, he => absurd he List.not_mem_nil
  | y :: ys, hsub, he => by
    rw [List.forall_mem_cons] at hsub
    rw [checkSelections, List.mem_append] at he
    rcases he with he | he
    · exact foundOnWalk_of_mem_checkSelection hset y hsub.1 he
    · exact foundOnWalk_of_mem_checkSelections hset ys hsub.2 he

end

/-- What is found in a set that is entered is found in the definition. -/
theorem mem_checkSelectionSet_of_enters {path : List Descent} {parent : Option TypeDef} {set : SelectionSet}
    (h : Enters s x path parent set) (he : e ∈ checkSelectionSet s d parent set) :
    e ∈ checkSelectionSet s d (rootType? s x) x.selectionSet := by
  induction h with
  | root => exact he
  | field hset hy ih =>
    refine ih (mem_checkSelectionSet_iff_exists.2 ⟨_, hy, ?_⟩)
    rw [checkSelection]
    exact List.mem_append_right _ he
  | inline hset hy ih =>
    refine ih (mem_checkSelectionSet_iff_exists.2 ⟨_, hy, ?_⟩)
    rw [checkSelection]
    exact List.mem_append_right _ he

/-- **The errors about the selections of a definition are those about each selection by itself,** in each set that is
entered, with the type with which it is entered. -/
theorem mem_checkSelectionSet_iff :
    e ∈ checkSelectionSet s d (rootType? s x) x.selectionSet ↔ FoundOnWalk s d x e := by
  constructor
  · intro he
    exact foundOnWalk_of_mem_checkSelectionSet x.selectionSet .root he
  · rintro ⟨path, parent, set, hset, y, hy, he⟩
    refine mem_checkSelectionSet_of_enters hset (mem_checkSelectionSet_iff_exists.2 ⟨y, hy, ?_⟩)
    cases y with
    | field head inner =>
      cases inner with
      | none => exact he
      | some inner =>
        rw [checkSelection]
        exact List.mem_append_left _ he
    | spread f => exact he
    | inline head inner =>
      rw [checkSelection]
      exact List.mem_append_left _ he

/-- The types that selections are made from are types of the schema. -/
theorem mem_types_of_enters {path : List Descent} {parent : Option TypeDef} {set : SelectionSet}
    (h : Enters s x path parent set) : ∀ t, parent = some t → t ∈ s.types.entries := by
  have hcondition : ∀ condition t, conditionType? s condition = some t → t ∈ s.types.entries := by
    intro condition t ht
    exact Schema.mem_types_of_type? (Option.filter_eq_some_iff.1 ht).1
  induction h with
  | root =>
    intro t ht
    cases x with
    | operation o => exact Schema.mem_types_of_root? ht
    | fragment f => exact hcondition _ t ht
  | field _ _ _ =>
    intro t ht
    obtain ⟨f, -, hfind⟩ := Option.bind_eq_some_iff.1 (Option.filter_eq_some_iff.1 ht).1
    exact Schema.mem_types_of_type? hfind
  | @inline path parent set inner head _ _ ih =>
    intro t ht
    unfold inlineType? at ht
    split at ht
    · exact ih t ht
    · exact hcondition _ t ht

/-! ### What errors say -/

/-- **Every error in a list is a violation that may be said of a part of the document,** and it is said of one such
part. -/
def ReportsOf (allowed : Violation → SourceNode → Prop) (errors : List ValidationError) : Prop :=
  ∀ e ∈ errors, ∃ v n, e = Violation.on v n ∧ allowed v n

section ReportsOf

variable {α : Type} {allowed : Violation → SourceNode → Prop} {errors errors' : List ValidationError} {xs : List α}

theorem reportsOf_nil : ReportsOf allowed [] := nofun

theorem reportsOf_on {v : Violation} {n : SourceNode} (h : allowed v n) : ReportsOf allowed [v.on n] :=
  List.forall_mem_singleton.2 ⟨v, n, rfl, h⟩

theorem ReportsOf.append (h : ReportsOf allowed errors) (h' : ReportsOf allowed errors') :
    ReportsOf allowed (errors ++ errors') :=
  List.forall_mem_append.2 ⟨h, h'⟩

theorem reportsOf_map {v : α → Violation} {n : α → SourceNode} (h : ∀ x ∈ xs, allowed (v x) (n x)) :
    ReportsOf allowed (xs.map fun x => (v x).on (n x)) :=
  List.forall_mem_map.2 fun x hx => ⟨v x, n x, rfl, h x hx⟩

theorem reportsOf_flatMap {f : α → List ValidationError} (h : ∀ x ∈ xs, ReportsOf allowed (f x)) :
    ReportsOf allowed (xs.flatMap f) := by
  intro e he
  obtain ⟨x, hx, he⟩ := List.mem_flatMap.1 he
  exact h x hx e he

end ReportsOf

/-- **Every error in a list is a violation that may be said,** and it is said of one part of the document. -/
def Reports (allowed : Violation → Prop) (errors : List ValidationError) : Prop :=
  ∀ e ∈ errors, ∃ v n, e = Violation.on v n ∧ allowed v

section Reports

variable {α : Type} {allowed : Violation → Prop} {errors errors' : List ValidationError} {xs : List α}

theorem reports_nil : Reports allowed [] := reportsOf_nil

theorem reports_on {v : Violation} {n : SourceNode} (h : allowed v) : Reports allowed [v.on n] := reportsOf_on h

theorem Reports.append (h : Reports allowed errors) (h' : Reports allowed errors') :
    Reports allowed (errors ++ errors') :=
  ReportsOf.append h h'

theorem reports_map {v : α → Violation} {n : α → SourceNode} (h : ∀ x ∈ xs, allowed (v x)) :
    Reports allowed (xs.map fun x => (v x).on (n x)) :=
  reportsOf_map h

theorem reports_flatMap {f : α → List ValidationError} (h : ∀ x ∈ xs, Reports allowed (f x)) :
    Reports allowed (xs.flatMap f) :=
  reportsOf_flatMap h

end Reports

/-- If a violation is that a type has no field of some name, there is a type of that name without such a field. -/
def FieldMissing (s : Schema) : Violation → Prop
  | .unknownField name parent => ∃ t ∈ s.types.entries, t.name = parent ∧ s.resolveField t name = none
  | _ => True

theorem checkArguments_reports {parameters : Table InputValueDef} {owner : ArgumentOwner} {node : SourceNode}
    {args : List Argument} : Reports (FieldMissing s) (checkArguments parameters owner node args) :=
  (reports_map fun _ _ => trivial).append (reports_map fun _ _ => trivial)

theorem checkKnownDirective_reports {location : DirectiveLocation} {earlier : List DirectiveUse} {use : DirectiveUse}
    {definition : DirectiveDef} :
    Reports (FieldMissing s) (checkKnownDirective location earlier use definition) := by
  refine Reports.append (Reports.append ?_ ?_) checkArguments_reports
  · split
    · exact reports_on trivial
    · exact reports_nil
  · split
    · exact reports_nil
    · exact reports_on trivial

theorem checkDirectivesAfter_reports {location : DirectiveLocation} {earlier uses : List DirectiveUse} :
    Reports (FieldMissing s) (checkDirectivesAfter s location earlier uses) := by
  induction uses generalizing earlier with
  | nil => exact reports_nil
  | cons use rest ih =>
    rw [checkDirectivesAfter]
    refine Reports.append ?_ ih
    split
    · exact reports_on trivial
    · exact checkKnownDirective_reports

theorem checkTypeCondition_reports {fragment : Option Name} {condition : Name} :
    Reports (FieldMissing s) (checkTypeCondition s fragment condition) := by
  unfold checkTypeCondition
  split
  · exact reports_on trivial
  · split
    · exact reports_nil
    · exact reports_on trivial

theorem checkVariableDefinition_reports {v : VariableDefinition} :
    Reports (FieldMissing s) (checkVariableDefinition s v) := by
  refine Reports.append checkDirectivesAfter_reports ?_
  split
  · exact reports_on trivial
  · split
    · exact reports_nil
    · exact reports_on trivial

theorem checkKnownField_reports {t : TypeDef} {head : FieldHead} {definition : FieldDef} {hasSelections : Bool} :
    Reports (FieldMissing s) (checkKnownField s t head definition hasSelections) := by
  refine Reports.append checkArguments_reports ?_
  split
  · exact reports_nil
  · split
    · exact reports_on trivial
    · split
      · exact reports_on trivial
      · exact reports_nil

/-- A field that is said not to exist is one that the type does not have. -/
theorem checkFieldHead_reports {parent : Option TypeDef} {head : FieldHead} {hasSelections : Bool}
    (h : ∀ t, parent = some t → t ∈ s.types.entries) :
    Reports (FieldMissing s) (checkFieldHead s parent head hasSelections) := by
  refine Reports.append checkDirectivesAfter_reports ?_
  split
  · exact reports_nil
  · next t =>
    split
    · next hnone => exact reports_on ⟨t, h t rfl, rfl, hnone⟩
    · exact checkKnownField_reports

theorem checkSelectionHead_reports {parent : Option TypeDef} (h : ∀ t, parent = some t → t ∈ s.types.entries)
    (y : Selection) : Reports (FieldMissing s) (checkSelectionHead s d parent y) := by
  cases y with
  | field head inner => exact checkFieldHead_reports h
  | spread f =>
    refine Reports.append checkDirectivesAfter_reports ?_
    split
    · exact reports_nil
    · exact reports_on trivial
  | inline head inner =>
    refine Reports.append checkDirectivesAfter_reports ?_
    split
    · exact reports_nil
    · exact checkTypeCondition_reports

/-- Whatever set the walk enters, it enters it with a type of the schema, or with none. -/
theorem checkSelectionSet_reports :
    Reports (FieldMissing s) (checkSelectionSet s d (rootType? s x) x.selectionSet) := by
  intro e he
  obtain ⟨path, parent, set, hset, y, -, he⟩ := mem_checkSelectionSet_iff.1 he
  exact checkSelectionHead_reports (mem_types_of_enters hset) y e he

/-- **Every error is a violation that is said of one part of the document,** and a field that is said not to exist in
a type does not. -/
theorem checkDocument_reports : Reports (FieldMissing s) (checkDocument s d) := by
  refine Reports.append (reports_map fun _ _ => trivial) (reports_flatMap fun x _ => ?_)
  have hset : Reports (FieldMissing s) (checkSelectionSet s d (rootType? s x) x.selectionSet) :=
    checkSelectionSet_reports
  cases x with
  | operation o =>
    have hroot : Reports (FieldMissing s)
        (if (s.root? o.kind).isSome then [] else [(Violation.noRoot o.kind).on (nodeOf o.span o.name)]) := by
      split
      · exact reports_nil
      · exact reports_on trivial
    have hvariables : Reports (FieldMissing s) (o.variableDefinitions.flatMap (checkVariableDefinition s)) :=
      reports_flatMap fun _ _ => checkVariableDefinition_reports
    have husage : Reports (FieldMissing s) (checkVariableUsage d o) :=
      (reports_map fun _ _ => trivial).append (reports_map fun _ _ => trivial)
    exact (((hroot.append checkDirectivesAfter_reports).append hvariables).append hset).append husage
  | fragment f => exact (checkDirectivesAfter_reports.append checkTypeCondition_reports).append hset

end Validation

end QueryAid
