import QueryAid.Document.Parser
import QueryAid.Proofs.Lint.Rules
import QueryAid.Proofs.Lint.VariableUsage
import QueryAid.Proofs.Schema.Closed
/-!
# Valid documents

A document is valid if each of its parts is as it should be (`Document.Valid`). What a selection set should be depends
on the type that it is made from, which is a matter of the selections around it (`Document.Typed`).
`validate_eq_nil_iff` says that the validation finds nothing exactly in valid documents.

The validation goes on below a field that does not exist and a condition that does not hold, but checks less there. So
the proof must show that nothing is left unchecked in a document in which nothing was found: then every selection set
has a type.
-/

namespace QueryAid

/-! ### What it means -/

/-- The location of the directives of a selection. -/
def Selection.directiveLocation : Selection → DirectiveLocation
  | field .. => .field
  | spread _ => .fragmentSpread
  | inline .. => .inlineFragment

namespace Document

/-- **A selection set is one of a document,** at any depth. -/
inductive Contains (d : Document) : SelectionSet → Prop where
  | operation {o : Operation} (h : o ∈ d.operations) : d.Contains o.selectionSet
  | fragment {f : Fragment} (h : f ∈ d.fragments) : d.Contains f.selectionSet
  | field {set inner : SelectionSet} {head : FieldHead} (hset : d.Contains set)
    (h : .field head (some inner) ∈ set.selections) : d.Contains inner
  | inline {set inner : SelectionSet} {head : InlineHead} (hset : d.Contains set)
    (h : .inline head inner ∈ set.selections) : d.Contains inner

/-- **The type that a selection set of a document is made from:** the root of an operation, the type of a condition,
the type around an inline fragment without one, or the type of the field that the set belongs to. -/
inductive Typed (s : Schema) (d : Document) : SelectionSet → TypeDef → Prop where
  | operation {o : Operation} {t : TypeDef} (h : o ∈ d.operations) (hroot : s.root? o.kind = some t) :
    d.Typed s o.selectionSet t
  | fragment {f : Fragment} {t : TypeDef} (h : f ∈ d.fragments)
    (hcondition : s.type? f.typeCondition.value = some t) : d.Typed s f.selectionSet t
  | inherited {set inner : SelectionSet} {head : InlineHead} {t : TypeDef} (hset : d.Typed s set t)
    (h : .inline head inner ∈ set.selections) (hnone : head.typeCondition = none) : d.Typed s inner t
  | condition {set inner : SelectionSet} {head : InlineHead} {condition : Name} {t : TypeDef}
    (hset : d.Contains set) (h : .inline head inner ∈ set.selections)
    (hsome : head.typeCondition = some condition) (hcondition : s.type? condition.value = some t) :
    d.Typed s inner t
  | field {set inner : SelectionSet} {head : FieldHead} {t u : TypeDef} {f : FieldDef} (hset : d.Typed s set t)
    (h : .field head (some inner) ∈ set.selections) (hf : s.resolveField t head.name.value = some f)
    (hu : s.namedType? f.type = some u) : d.Typed s inner u

/-- **A document is valid for a schema.** -/
structure Valid (s : Schema) (d : Document) : Prop where
  executable : d.nonExecutable = []
  roots : ∀ o ∈ d.operations, ∃ t, s.root? o.kind = some t
  operationDirectives : ∀ o ∈ d.operations, s.AllowsDirectives o.kind.directiveLocation o.directives
  variableDirectives : ∀ o ∈ d.operations, ∀ v ∈ o.variableDefinitions,
    s.AllowsDirectives .variableDefinition v.directives
  fragmentDirectives : ∀ f ∈ d.fragments, s.AllowsDirectives .fragmentDefinition f.directives
  selectionDirectives : ∀ set, d.Contains set → ∀ x ∈ set.selections,
    s.AllowsDirectives x.directiveLocation x.directives
  variableTypes : ∀ o ∈ d.operations, ∀ v ∈ o.variableDefinitions, s.IsInputName v.type.innermostName.value
  fragmentConditions : ∀ f ∈ d.fragments, s.IsCompositeName f.typeCondition.value
  inlineConditions : ∀ set, d.Contains set → ∀ head inner, .inline head inner ∈ set.selections →
    ∀ condition, head.typeCondition = some condition → s.IsCompositeName condition.value
  typed : ∀ set, d.Contains set → ∃ t, d.Typed s set t
  fields : ∀ set t, d.Typed s set t → ∀ head inner, .field head inner ∈ set.selections →
    s.AllowsField t head inner.isSome
  spreads : ∀ set, d.Contains set → ∀ f, .spread f ∈ set.selections →
    ∃ g ∈ d.fragments, g.name.value = f.name.value
  /-- Every variable that an operation uses is defined by it. -/
  variablesDefined : ∀ o ∈ d.operations, ∀ name, d.Uses o name → o.Defines name
  /-- Every variable that an operation defines is used by it. -/
  variablesUsed : ∀ o ∈ d.operations, ∀ name, o.Defines name → d.Uses o name

end Document

/-! ### The rules, taken together -/

theorem dedupAdjacent_eq_nil_iff {α : Type} [DecidableEq α] {l : List α} : dedupAdjacent l = [] ↔ l = [] := by
  induction l using dedupAdjacent.induct with
  | case1 => rfl
  | case2 a => exact Iff.rfl
  | case3 b l ih =>
    rw [dedupAdjacent, if_pos rfl, ih]
    exact iff_of_false (List.cons_ne_nil _ _) (List.cons_ne_nil _ _)
  | case4 a b l h ih =>
    rw [dedupAdjacent, if_neg h]
    exact iff_of_false (List.cons_ne_nil _ _) (List.cons_ne_nil _ _)

/-- Errors that are put in order are none exactly if there were none. -/
theorem sortErrors_eq_nil_iff {errors : List ValidationError} : sortErrors errors = [] ↔ errors = [] := by
  rw [sortErrors, dedupAdjacent_eq_nil_iff, ← List.length_eq_zero_iff, List.length_mergeSort,
    List.length_eq_zero_iff]

namespace Validation

variable {s : Schema} {d : Document}

theorem checkVariableUsage_eq_nil_iff {o : Operation} :
    checkVariableUsage d o = [] ↔
      (∀ name, d.Uses o name → o.Defines name) ∧ ∀ name, o.Defines name → d.Uses o name := by
  rw [checkVariableUsage, undefinedVariables_eq, unusedVariables_eq]
  simp only [List.append_eq_nil_iff, List.map_eq_nil_iff, List.filter_eq_nil_iff, Bool.not_eq_true,
    Bool.not_eq_false', decide_eq_true_iff]
  refine and_congr ?_ ?_
  · simp only [Document.uses_iff, forall_exists_index, and_imp, forall_apply_eq_imp_iff₂]
  · simp only [Operation.Defines, forall_exists_index, and_imp, forall_apply_eq_imp_iff₂]

theorem checkSelections_eq_nil_iff {parent : Option TypeDef} {xs : List Selection} :
    checkSelections s d parent xs = [] ↔ ∀ x ∈ xs, checkSelection s d parent x = [] := by
  induction xs with
  | nil => exact iff_of_true rfl fun x hx => absurd hx List.not_mem_nil
  | cons x xs ih => rw [checkSelections, List.append_eq_nil_iff, ih, List.forall_mem_cons]

theorem checkSelectionSet_eq_nil_iff {parent : Option TypeDef} {set : SelectionSet} :
    checkSelectionSet s d parent set = [] ↔ ∀ x ∈ set.selections, checkSelection s d parent x = [] := by
  obtain ⟨xs, span⟩ := set
  rw [checkSelectionSet]
  exact checkSelections_eq_nil_iff

section Members

variable {parent : Option TypeDef} {set inner : SelectionSet}

/-- A field in a set in which nothing is found. -/
theorem checkFieldHead_of_mem (h : checkSelectionSet s d parent set = []) {head : FieldHead}
    {below : Option SelectionSet} (hx : .field head below ∈ set.selections) :
    checkFieldHead s parent head below.isSome = [] := by
  have hfield := checkSelectionSet_eq_nil_iff.1 h _ hx
  cases below with
  | none => exact hfield
  | some inner =>
    rw [checkSelection, List.append_eq_nil_iff] at hfield
    exact hfield.1

/-- The selections below a field in a set in which nothing is found. -/
theorem checkSelectionSet_of_mem_field (h : checkSelectionSet s d parent set = []) {head : FieldHead}
    (hx : .field head (some inner) ∈ set.selections) :
    checkSelectionSet s d (fieldType? s parent head) inner = [] := by
  have hfield := checkSelectionSet_eq_nil_iff.1 h _ hx
  rw [checkSelection, List.append_eq_nil_iff] at hfield
  exact hfield.2

theorem checkSpread_of_mem (h : checkSelectionSet s d parent set = []) {f : FragmentSpread}
    (hx : .spread f ∈ set.selections) : checkSpread s d f = [] :=
  checkSelectionSet_eq_nil_iff.1 h _ hx

/-- An inline fragment in a set in which nothing is found, and the selections in it. -/
theorem checkInline_of_mem (h : checkSelectionSet s d parent set = []) {head : InlineHead}
    (hx : .inline head inner ∈ set.selections) :
    checkInlineHead s head = [] ∧ checkSelectionSet s d (inlineType? s parent head) inner = [] := by
  have hinline := checkSelectionSet_eq_nil_iff.1 h _ hx
  rw [checkSelection, List.append_eq_nil_iff] at hinline
  exact hinline

end Members

/-- The type that a condition stands for, if it is composite as it must be. -/
theorem conditionType?_eq_some {condition : Name} {t : TypeDef} (h : s.IsCompositeName condition.value)
    (ht : s.type? condition.value = some t) : conditionType? s condition = some t := by
  obtain ⟨u, hu, hcomposite⟩ := h
  obtain rfl : u = t := Option.some.inj (hu.symm.trans ht)
  rw [conditionType?, ht, Option.filter_some, if_pos hcomposite]

/-- The type of a field with selections, which is composite as it must be. -/
theorem fieldType?_eq_some {t u : TypeDef} {head : FieldHead} {f : FieldDef} (h : s.AllowsField t head true)
    (hf : s.resolveField t head.name.value = some f) (hu : s.namedType? f.type = some u) :
    fieldType? s (some t) head = some u := by
  obtain ⟨f', u', hf', -, hu', hcomposite⟩ := h
  obtain rfl : f' = f := Option.some.inj (hf'.symm.trans hf)
  obtain rfl : u' = u := Option.some.inj (hu'.symm.trans hu)
  have hdef : fieldDef? s (some t) head.name.value = some f' := hf
  rw [fieldType?, hdef, Option.bind_some, hu, Option.filter_some, if_pos hcomposite.symm]

theorem checkOperation_eq_nil_iff {o : Operation} :
    checkOperation s d o = [] ↔ (∃ t, s.root? o.kind = some t) ∧
      s.AllowsDirectives o.kind.directiveLocation o.directives ∧
      (∀ v ∈ o.variableDefinitions,
        s.AllowsDirectives .variableDefinition v.directives ∧ s.IsInputName v.type.innermostName.value) ∧
      checkSelectionSet s d (s.root? o.kind) o.selectionSet = [] ∧ checkVariableUsage d o = [] := by
  simp only [checkOperation, List.append_eq_nil_iff, List.flatMap_eq_nil_iff, checkDirectives_eq_nil_iff,
    checkVariableDefinition_eq_nil_iff, and_assoc]
  refine and_congr_left fun _ => ?_
  rw [← Option.isSome_iff_exists]
  split
  · next h => simp [h]
  · next h => simp [h]

theorem checkFragment_eq_nil_iff {f : Fragment} :
    checkFragment s d f = [] ↔ s.AllowsDirectives .fragmentDefinition f.directives ∧
      s.IsCompositeName f.typeCondition.value ∧
      checkSelectionSet s d (conditionType? s f.typeCondition) f.selectionSet = [] := by
  rw [checkFragment, List.append_eq_nil_iff, List.append_eq_nil_iff, checkDirectives_eq_nil_iff,
    checkTypeCondition_eq_nil_iff, and_assoc]

/-- **Nothing is found in a document exactly if nothing is found in its operations and fragments,** and it has no
other definitions. -/
theorem checkDocument_eq_nil_iff :
    checkDocument s d = [] ↔ d.nonExecutable = [] ∧ (∀ o ∈ d.operations, checkOperation s d o = []) ∧
      ∀ f ∈ d.fragments, checkFragment s d f = [] := by
  rw [checkDocument, List.append_eq_nil_iff, List.map_eq_nil_iff, List.flatMap_eq_nil_iff]
  refine and_congr_right fun _ => ?_
  constructor
  · intro h
    refine ⟨fun o ho => ?_, fun f hf => ?_⟩
    · obtain ⟨x, hx, heq⟩ := List.mem_filterMap.1 ho
      cases x with
      | operation o' => cases heq; exact h _ hx
      | fragment f => cases heq
    · obtain ⟨x, hx, heq⟩ := List.mem_filterMap.1 hf
      cases x with
      | operation o => cases heq
      | fragment f' => cases heq; exact h _ hx
  · rintro ⟨hoperations, hfragments⟩ x hx
    cases x with
    | operation o => exact hoperations o (List.mem_filterMap.2 ⟨_, hx, rfl⟩)
    | fragment f => exact hfragments f (List.mem_filterMap.2 ⟨_, hx, rfl⟩)

end Validation

/-! ### Nothing is left unchecked -/

theorem Document.Typed.mem_types {s : Schema} {d : Document} {set : SelectionSet} {t : TypeDef}
    (h : d.Typed s set t) : t ∈ s.types.entries := by
  induction h with
  | operation _ hroot =>
    obtain ⟨name, -, hfind⟩ := Option.bind_eq_some_iff.1 hroot
    exact (Table.find?_eq_some_iff.1 hfind).1
  | fragment _ hcondition => exact (Table.find?_eq_some_iff.1 hcondition).1
  | inherited _ _ _ ih => exact ih
  | condition _ _ _ hcondition => exact (Table.find?_eq_some_iff.1 hcondition).1
  | field _ _ _ hu _ => exact (Table.find?_eq_some_iff.1 hu).1

namespace Validation

variable {s : Schema} {d : Document} {set : SelectionSet} {t : TypeDef}

/-- All fields of all types have a type, and none an input object. -/
def FieldsHaveTypes (s : Schema) : Prop :=
  ∀ t ∈ s.types.entries, ∀ name f, s.resolveField t name = some f →
    ∃ u, s.namedType? f.type = some u ∧ u.isInputObject = false

/-- Every selection set was looked at, be it without a type. -/
theorem exists_checked_of_contains (hd : checkDocument s d = []) (h : d.Contains set) :
    ∃ parent, checkSelectionSet s d parent set = [] := by
  obtain ⟨-, hoperations, hfragments⟩ := checkDocument_eq_nil_iff.1 hd
  induction h with
  | operation ho =>
    obtain ⟨-, -, -, hset, -⟩ := checkOperation_eq_nil_iff.1 (hoperations _ ho)
    exact ⟨_, hset⟩
  | fragment hf =>
    obtain ⟨-, -, hset⟩ := checkFragment_eq_nil_iff.1 (hfragments _ hf)
    exact ⟨_, hset⟩
  | field _ hx ih =>
    obtain ⟨parent, hparent⟩ := ih
    exact ⟨_, checkSelectionSet_of_mem_field hparent hx⟩
  | inline _ hx ih =>
    obtain ⟨parent, hparent⟩ := ih
    exact ⟨_, (checkInline_of_mem hparent hx).2⟩

/-- The condition of an inline fragment was looked at, whatever is around it. -/
theorem checkInlineHead_of_contains (hd : checkDocument s d = []) (h : d.Contains set) {head : InlineHead}
    {inner : SelectionSet} (hx : .inline head inner ∈ set.selections) : checkInlineHead s head = [] := by
  obtain ⟨parent, hparent⟩ := exists_checked_of_contains hd h
  exact (checkInline_of_mem hparent hx).1

/-- **A selection set was checked with every type that it is made from.** -/
theorem checkSelectionSet_of_typed (hs : FieldsHaveTypes s) (hd : checkDocument s d = []) (h : d.Typed s set t) :
    checkSelectionSet s d (some t) set = [] := by
  obtain ⟨-, hoperations, hfragments⟩ := checkDocument_eq_nil_iff.1 hd
  induction h with
  | operation ho hroot =>
    obtain ⟨-, -, -, hset, -⟩ := checkOperation_eq_nil_iff.1 (hoperations _ ho)
    exact hroot ▸ hset
  | fragment hf hcondition =>
    obtain ⟨-, hcomposite, hset⟩ := checkFragment_eq_nil_iff.1 (hfragments _ hf)
    rw [conditionType?_eq_some hcomposite hcondition] at hset
    exact hset
  | inherited _ hx hnone ih =>
    have hinner := (checkInline_of_mem ih hx).2
    rw [inlineType?, hnone] at hinner
    exact hinner
  | condition hset hx hsome hcondition =>
    -- The type around the fragment may have been unknown: the condition is enough.
    obtain ⟨parent, hparent⟩ := exists_checked_of_contains hd hset
    obtain ⟨hhead, hinner⟩ := checkInline_of_mem hparent hx
    have hcomposite := (checkInlineHead_eq_nil_iff.1 hhead).2 _ hsome
    rw [inlineType?, hsome] at hinner
    exact conditionType?_eq_some hcomposite hcondition ▸ hinner
  | @field set inner head t u f hset hx hf hu ih =>
    have hallows := ((checkFieldHead_eq_nil_iff (hs t hset.mem_types)).1 (checkFieldHead_of_mem ih hx)).2
    have hinner := checkSelectionSet_of_mem_field ih hx
    rw [fieldType?_eq_some hallows hf hu] at hinner
    exact hinner

/-- **In a document in which nothing is found, every selection set has a type.** -/
theorem exists_typed_of_contains (hs : FieldsHaveTypes s) (hd : checkDocument s d = []) (h : d.Contains set) :
    ∃ t, d.Typed s set t := by
  obtain ⟨-, hoperations, hfragments⟩ := checkDocument_eq_nil_iff.1 hd
  -- By induction on the nesting: a set with a type was checked with it, so that the sets in it have types.
  induction h with
  | operation ho =>
    obtain ⟨⟨t, ht⟩, -⟩ := checkOperation_eq_nil_iff.1 (hoperations _ ho)
    exact ⟨t, .operation ho ht⟩
  | fragment hf =>
    obtain ⟨-, ⟨t, ht, -⟩, -⟩ := checkFragment_eq_nil_iff.1 (hfragments _ hf)
    exact ⟨t, .fragment hf ht⟩
  | field _ hx ih =>
    obtain ⟨t, ht⟩ := ih
    have hhead := checkFieldHead_of_mem (checkSelectionSet_of_typed hs hd ht) hx
    obtain ⟨-, f, u, hf, -, hu, -⟩ := (checkFieldHead_eq_nil_iff (hs t ht.mem_types)).1 hhead
    exact ⟨u, .field ht hx hf hu⟩
  | @inline set inner head hset hx ih =>
    obtain ⟨t, ht⟩ := ih
    cases hcondition : head.typeCondition with
    | none => exact ⟨t, .inherited ht hx hcondition⟩
    | some condition =>
      have hhead := checkInlineHead_eq_nil_iff.1 (checkInlineHead_of_contains hd hset hx)
      obtain ⟨u, hu, -⟩ := hhead.2 condition hcondition
      exact ⟨u, .condition hset hx hcondition hu⟩

/-! ### Nothing is found in valid documents -/

mutual

/-- Nothing is found in a selection of a valid document, with the type that its set is made from. -/
private theorem checkSelection_of_valid (hs : FieldsHaveTypes s) (hd : d.Valid s) {set : SelectionSet}
    {t : TypeDef} (hset : d.Contains set) (htyped : d.Typed s set t) :
    ∀ x : Selection, x ∈ set.selections → checkSelection s d (some t) x = []
  | .field head none, hx => by
    rw [checkSelection, checkFieldHead_eq_nil_iff (hs t htyped.mem_types)]
    exact ⟨hd.selectionDirectives set hset _ hx, hd.fields set t htyped head none hx⟩
  | .field head (some inner), hx => by
    have hallows : s.AllowsField t head true := hd.fields set t htyped head (some inner) hx
    obtain ⟨f, u, hf, -, hu, -⟩ := hd.fields set t htyped head (some inner) hx
    rw [checkSelection, List.append_eq_nil_iff, checkFieldHead_eq_nil_iff (hs t htyped.mem_types),
      fieldType?_eq_some hallows hf hu]
    exact ⟨⟨hd.selectionDirectives set hset _ hx, hallows⟩,
      checkSelectionSet_of_valid hs hd inner (.field hset hx) (.field htyped hx hf hu)⟩
  | .spread f, hx => by
    rw [checkSelection, checkSpread_eq_nil_iff]
    exact ⟨hd.selectionDirectives set hset _ hx, hd.spreads set hset f hx⟩
  | .inline head inner, hx => by
    have hconditions := hd.inlineConditions set hset head inner hx
    rw [checkSelection, List.append_eq_nil_iff, checkInlineHead_eq_nil_iff]
    refine ⟨⟨hd.selectionDirectives set hset _ hx, hconditions⟩, ?_⟩
    cases hcondition : head.typeCondition with
    | none =>
      rw [inlineType?, hcondition]
      exact checkSelectionSet_of_valid hs hd inner (.inline hset hx) (.inherited htyped hx hcondition)
    | some condition =>
      obtain ⟨u, hu, -⟩ := hconditions condition hcondition
      have htype : inlineType? s (some t) head = some u := by
        rw [inlineType?, hcondition]
        exact conditionType?_eq_some (hconditions condition hcondition) hu
      rw [htype]
      exact checkSelectionSet_of_valid hs hd inner (.inline hset hx) (.condition hset hx hcondition hu)

private theorem checkSelectionSet_of_valid (hs : FieldsHaveTypes s) (hd : d.Valid s) {t : TypeDef} :
    ∀ set : SelectionSet, d.Contains set → d.Typed s set t → checkSelectionSet s d (some t) set = []
  | .mk xs _, hset, htyped => checkSelections_of_valid hs hd hset htyped xs fun _ hx => hx

private theorem checkSelections_of_valid (hs : FieldsHaveTypes s) (hd : d.Valid s) {set : SelectionSet}
    {t : TypeDef} (hset : d.Contains set) (htyped : d.Typed s set t) :
    ∀ xs : List Selection, (∀ x ∈ xs, x ∈ set.selections) → checkSelections s d (some t) xs = []
  | [], _ => rfl
  | x :: xs, hsub => by
    rw [List.forall_mem_cons] at hsub
    rw [checkSelections, List.append_eq_nil_iff]
    exact ⟨checkSelection_of_valid hs hd hset htyped x hsub.1,
      checkSelections_of_valid hs hd hset htyped xs hsub.2⟩

end

/-- **The rules find nothing in valid documents.** -/
theorem checkDocument_of_valid (hs : FieldsHaveTypes s) (hd : d.Valid s) : checkDocument s d = [] := by
  refine checkDocument_eq_nil_iff.2 ⟨hd.executable, fun o ho => ?_, fun f hf => ?_⟩
  · obtain ⟨t, ht⟩ := hd.roots o ho
    have hset := checkSelectionSet_of_valid hs hd o.selectionSet (.operation ho) (.operation ho ht)
    refine checkOperation_eq_nil_iff.2 ⟨⟨t, ht⟩, hd.operationDirectives o ho, fun v hv => ?_, ht ▸ hset, ?_⟩
    · exact ⟨hd.variableDirectives o ho v hv, hd.variableTypes o ho v hv⟩
    · exact checkVariableUsage_eq_nil_iff.2 ⟨hd.variablesDefined o ho, hd.variablesUsed o ho⟩
  · have hcomposite := hd.fragmentConditions f hf
    obtain ⟨t, ht, -⟩ := hd.fragmentConditions f hf
    have hset := checkSelectionSet_of_valid hs hd f.selectionSet (.fragment hf) (.fragment hf ht)
    refine checkFragment_eq_nil_iff.2 ⟨hd.fragmentDirectives f hf, hcomposite, ?_⟩
    rw [conditionType?_eq_some hcomposite ht]
    exact hset

/-- **Documents in which the rules find nothing are valid.** -/
theorem valid_of_checkDocument (hs : FieldsHaveTypes s) (hd : checkDocument s d = []) : d.Valid s := by
  obtain ⟨hexecutable, hoperations, hfragments⟩ := checkDocument_eq_nil_iff.1 hd
  have hoperation := fun o ho => checkOperation_eq_nil_iff.1 (hoperations o ho)
  have hfragment := fun f hf => checkFragment_eq_nil_iff.1 (hfragments f hf)
  have hvariables := fun o ho => checkVariableUsage_eq_nil_iff.1 (hoperation o ho).2.2.2.2
  have htyped : ∀ set, d.Contains set → ∃ t, d.Typed s set t := fun _ hset => exists_typed_of_contains hs hd hset
  have hfield : ∀ set t, d.Typed s set t → ∀ head inner, .field head inner ∈ set.selections →
      s.AllowsDirectives .field head.directives ∧ s.AllowsField t head inner.isSome := by
    intro set t ht head inner hx
    have hhead := checkFieldHead_of_mem (checkSelectionSet_of_typed hs hd ht) hx
    exact (checkFieldHead_eq_nil_iff (hs t ht.mem_types)).1 hhead
  have hspread : ∀ set, d.Contains set → ∀ f, .spread f ∈ set.selections → checkSpread s d f = [] := by
    intro set hset f hx
    obtain ⟨parent, hparent⟩ := exists_checked_of_contains hd hset
    exact checkSpread_of_mem hparent hx
  exact
    { executable := hexecutable
      roots := fun o ho => (hoperation o ho).1
      operationDirectives := fun o ho => (hoperation o ho).2.1
      variableDirectives := fun o ho v hv => ((hoperation o ho).2.2.1 v hv).1
      fragmentDirectives := fun f hf => (hfragment f hf).1
      selectionDirectives := fun set hset x hx => by
        cases x with
        | field head inner =>
          obtain ⟨t, ht⟩ := htyped set hset
          exact (hfield set t ht head inner hx).1
        | spread f => exact (checkSpread_eq_nil_iff.1 (hspread set hset f hx)).1
        | inline head inner => exact (checkInlineHead_eq_nil_iff.1 (checkInlineHead_of_contains hd hset hx)).1
      variableTypes := fun o ho v hv => ((hoperation o ho).2.2.1 v hv).2
      fragmentConditions := fun f hf => (hfragment f hf).2.1
      inlineConditions := fun set hset head inner hx =>
        (checkInlineHead_eq_nil_iff.1 (checkInlineHead_of_contains hd hset hx)).2
      typed := htyped
      fields := fun set t ht head inner hx => (hfield set t ht head inner hx).2
      spreads := fun set hset f hx => (checkSpread_eq_nil_iff.1 (hspread set hset f hx)).2
      variablesDefined := fun o ho => (hvariables o ho).1
      variablesUsed := fun o ho => (hvariables o ho).2 }

end Validation

/-! ### Documents and schemas -/

/-- The fields of a schema that was built from sources have types, and none an input object. -/
theorem Schema.fieldsHaveTypes {sources : List (Option String × String)} {s : Schema}
    (h : Schema.ofSources sources = .ok s) : Validation.FieldsHaveTypes s :=
  fun _ ht _ _ hf => (Schema.closedField_of_resolveField h ht hf).type

/-- **The validation finds nothing in a document exactly if the document is valid,** for every schema that was built
from sources. -/
theorem validate_eq_nil_iff {sources : List (Option String × String)} {s : Schema}
    (h : Schema.ofSources sources = .ok s) (d : Document) : validate s d = [] ↔ d.Valid s := by
  rw [validate, sortErrors_eq_nil_iff]
  exact ⟨Validation.valid_of_checkDocument (Schema.fieldsHaveTypes h),
    Validation.checkDocument_of_valid (Schema.fieldsHaveTypes h)⟩

/-- A document with a variable that only a fragment uses, and with selections below an inline fragment, is valid. -/
theorem valid_of_nested_selections : ∃ s d,
    Schema.ofSources [(none, "type Query { a(x: Int!): B } interface B { c: ID }")] = .ok s ∧
      Document.parse
        "query($v: Int!) { ... on Query { ...F } } fragment F on Query { a(x: $v) { __typename } }".toList =
          .ok d ∧
      d.Valid s := by
  have hvalidate : (do
      let s ← (Schema.ofSources [(none, "type Query { a(x: Int!): B } interface B { c: ID }")]).toOption
      let d ← (Document.parse
        "query($v: Int!) { ... on Query { ...F } } fragment F on Query { a(x: $v) { __typename } }".toList).toOption
      return validate s d) = some [] := by
    decide +kernel
  obtain ⟨s, hs, hvalidate⟩ := Option.bind_eq_some_iff.1 hvalidate
  obtain ⟨d, hd, hvalidate⟩ := Option.bind_eq_some_iff.1 hvalidate
  have hs : Schema.ofSources [(none, "type Query { a(x: Int!): B } interface B { c: ID }")] = .ok s :=
    eq_ok_of_toOption hs
  exact ⟨s, d, hs, eq_ok_of_toOption hd, (validate_eq_nil_iff hs d).1 (Option.some.inj hvalidate)⟩

end QueryAid
