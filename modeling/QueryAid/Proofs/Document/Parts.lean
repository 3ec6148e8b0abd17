import QueryAid.Document.Usage
import QueryAid.Proofs.Document.Occurrence
import QueryAid.Proofs.Document.Reach
import QueryAid.Proofs.Document.Spans
/-!
# The parts of a document

What belongs to a construct is a part of its layout (`Layout.IsPart`): the names in it, its arguments and directives,
the selections below it, and the variables that it refers to at any depth.
-/

namespace QueryAid

namespace Layout

variable {k l m : Layout} {span : Span} {parts ls : List Layout}

theorem IsPart.trans (h : IsPart k l) (h' : IsPart l m) : IsPart k m := by
  induction h' with
  | self l => exact h
  | inVariable n span =>
    cases h with
    | self => exact .inVariable n span
  | inNode hl _ ih => exact .inNode hl (ih h)

theorem isPart_of_mem (hl : l ∈ parts) : IsPart l (node span parts) := .inNode hl (.self l)

theorem mem_scattered (hl : l ∈ ls) : l ∈ scattered ls := by
  induction ls with
  | nil => cases hl
  | cons l' ls ih =>
    rw [scattered]
    rcases List.mem_cons.1 hl with rfl | hl
    · exact List.mem_cons_of_mem _ List.mem_cons_self
    · exact List.mem_cons_of_mem _ (List.mem_cons_of_mem _ (ih hl))

end Layout

open Layout

/-! ### Arguments and directives -/

theorem Argument.layout_mem_layouts {a : Argument} {as : List Argument} (ha : a ∈ as) :
    a.layout ∈ Argument.layouts as := by
  cases as with
  | nil => cases ha
  | cons b bs => exact List.mem_append_left _ (List.mem_cons_of_mem _ (mem_scattered (List.mem_map_of_mem ha)))

theorem Argument.name_isPart (a : Argument) : IsPart (.name a.name) a.layout := isPart_of_mem List.mem_cons_self

theorem Argument.value_isPart (a : Argument) : IsPart a.value.layout a.layout := isPart_of_mem (by simp)

theorem DirectiveUse.name_isPart (d : DirectiveUse) : IsPart (.name d.name) d.layout := isPart_of_mem (by simp)

theorem DirectiveUse.argument_isPart {d : DirectiveUse} {a : Argument} (ha : a ∈ d.arguments) :
    IsPart a.layout d.layout :=
  isPart_of_mem (List.mem_cons_of_mem _ (List.mem_cons_of_mem _ (Argument.layout_mem_layouts ha)))

/-! ### Selections -/

section Selections

variable {h : FieldHead} {i : InlineHead} {inner : Option SelectionSet} {set : SelectionSet} {use : DirectiveUse}

theorem FieldHead.isPart_of_mem_layouts {l : Layout} (hl : l ∈ h.layouts) :
    IsPart l (Selection.field h inner).layout := by
  cases inner with
  | none => exact isPart_of_mem hl
  | some set => exact isPart_of_mem (List.mem_append_left _ hl)

theorem FieldHead.name_isPart : IsPart (.name h.name) (Selection.field h inner).layout :=
  isPart_of_mem_layouts (List.mem_append_left _ (List.mem_append_right _ List.mem_cons_self))

theorem FieldHead.argument_isPart {a : Argument} (ha : a ∈ h.arguments) :
    IsPart a.layout (Selection.field h inner).layout :=
  isPart_of_mem_layouts
    (List.mem_append_left _ (List.mem_append_right _ (List.mem_cons_of_mem _ (Argument.layout_mem_layouts ha))))

theorem FieldHead.directive_isPart (huse : use ∈ h.directives) : IsPart use.layout (Selection.field h inner).layout :=
  isPart_of_mem_layouts (List.mem_append_right _ (List.mem_map_of_mem huse))

theorem FieldHead.set_isPart : IsPart set.layout (Selection.field h (some set)).layout :=
  isPart_of_mem (List.mem_append_right _ List.mem_cons_self)

theorem FragmentSpread.name_isPart (f : FragmentSpread) : IsPart (.name f.name) f.layout := isPart_of_mem (by simp)

theorem FragmentSpread.directive_isPart {f : FragmentSpread} (huse : use ∈ f.directives) :
    IsPart use.layout f.layout :=
  isPart_of_mem (List.mem_cons_of_mem _ (List.mem_cons_of_mem _ (List.mem_map_of_mem huse)))

theorem InlineHead.condition_isPart {condition : Name} (h : i.typeCondition = some condition) :
    IsPart (.name condition) (Selection.inline i set).layout := by
  refine isPart_of_mem (List.mem_append_left _ ?_)
  rw [InlineHead.layouts, h]
  simp [Name.conditionLayouts]

theorem InlineHead.directive_isPart (huse : use ∈ i.directives) :
    IsPart use.layout (Selection.inline i set).layout :=
  isPart_of_mem (List.mem_append_left _ (List.mem_append_right _ (List.mem_map_of_mem huse)))

theorem InlineHead.set_isPart : IsPart set.layout (Selection.inline i set).layout :=
  isPart_of_mem (List.mem_append_right _ List.mem_cons_self)

theorem SelectionSet.selection_isPart {y : Selection} (hy : y ∈ set.selections) : IsPart y.layout set.layout := by
  obtain ⟨ys, span⟩ := set
  rw [SelectionSet.layout, Selection.layoutsOfList_eq]
  exact isPart_of_mem (List.mem_append_left _ (List.mem_cons_of_mem _ (List.mem_map_of_mem hy)))

end Selections

/-! ### Definitions -/

section Definitions

variable {use : DirectiveUse} {o : Operation} {f : Fragment}

theorem VariableDefinition.name_isPart (v : VariableDefinition) :
    IsPart (.variableName v.name v.variableSpan) v.layout :=
  isPart_of_mem (by simp)

theorem VariableDefinition.type_isPart (v : VariableDefinition) : IsPart v.type.layout v.layout :=
  isPart_of_mem (by simp)

theorem VariableDefinition.directive_isPart {v : VariableDefinition} (huse : use ∈ v.directives) :
    IsPart use.layout v.layout :=
  isPart_of_mem (List.mem_append_right _ (List.mem_map_of_mem huse))

theorem TypeRef.innermostName_isPart (t : TypeRef) : IsPart (.name t.innermostName) t.layout := by
  induction t with
  | named n => exact .self _
  | list inner span ih => exact ih.trans (isPart_of_mem (by simp))
  | nonNull inner span ih => exact ih.trans (isPart_of_mem (by simp))

/-- A query that needs no keyword has nothing in front of its selections. -/
theorem Operation.isPart_of_mem_head {l : Layout}
    (hl : l ∈ (o.name.elim [] fun n => [.name n]) ++ VariableDefinition.layouts o.variableDefinitions ++
      o.directives.map DirectiveUse.layout) : IsPart l o.layout := by
  refine isPart_of_mem (List.mem_append_left _ ?_)
  unfold Operation.headLayouts
  split
  · next hshort =>
    obtain ⟨kind, name, defined, uses, set, span⟩ := o
    simp only [Operation.isShort, Bool.and_eq_true, beq_iff_eq, Option.isNone_iff_eq_none, List.isEmpty_iff] at hshort
    obtain ⟨⟨⟨rfl, rfl⟩, rfl⟩, rfl⟩ := hshort
    cases hl
  · exact List.mem_cons_of_mem _ hl

theorem Operation.name_isPart {n : Name} (h : o.name = some n) : IsPart (.name n) o.layout := by
  refine isPart_of_mem_head (List.mem_append_left _ (List.mem_append_left _ ?_))
  rw [h]
  exact List.mem_cons_self

theorem Operation.variable_isPart {v : VariableDefinition} (hv : v ∈ o.variableDefinitions) :
    IsPart v.layout o.layout := by
  refine isPart_of_mem_head (List.mem_append_left _ (List.mem_append_right _ ?_))
  cases hdefined : o.variableDefinitions with
  | nil =>
    rw [hdefined] at hv
    cases hv
  | cons w ws =>
    rw [hdefined] at hv
    exact List.mem_append_left _ (List.mem_cons_of_mem _ (List.mem_map_of_mem hv))

theorem Operation.directive_isPart (huse : use ∈ o.directives) : IsPart use.layout o.layout :=
  isPart_of_mem_head (List.mem_append_right _ (List.mem_map_of_mem huse))

theorem Operation.set_isPart (o : Operation) : IsPart o.selectionSet.layout o.layout :=
  isPart_of_mem (List.mem_append_right _ List.mem_cons_self)

theorem Fragment.condition_isPart (f : Fragment) : IsPart (.name f.typeCondition) f.layout :=
  isPart_of_mem (by simp [Name.conditionLayouts])

theorem Fragment.directive_isPart (huse : use ∈ f.directives) : IsPart use.layout f.layout :=
  isPart_of_mem (List.mem_append_left _ (List.mem_append_right _ (List.mem_map_of_mem huse)))

theorem Fragment.set_isPart (f : Fragment) : IsPart f.selectionSet.layout f.layout :=
  isPart_of_mem (List.mem_append_right _ List.mem_cons_self)

theorem NonExecutable.name_isPart {x : NonExecutable} {n : Name} (h : x.name = some n) :
    IsPart (.name n) x.layout := by
  refine isPart_of_mem ?_
  rw [NonExecutable.parts, h]
  simp

end Definitions

/-! ### Variables -/

/-- The layout of what a reference refers with. -/
def VariableReference.layout (r : VariableReference) : Layout := .variableName r.name r.span

theorem VariableReference.name_isPart (r : VariableReference) : IsPart (.name r.name) r.layout := .inVariable _ _

section References

variable {r : VariableReference}

/-- A variable that a value refers to stands in it. -/
theorem Value.reference_isPart {v : Value} {p : List Nat} (h : v.RefersAt p r) : IsPart r.layout v.layout := by
  induction h with
  | var => exact .self _
  | item hget _ ih =>
    rw [Value.layout, Value.layoutsOfList_eq]
    exact ih.trans (isPart_of_mem
      (List.mem_append_left _ (List.mem_cons_of_mem _ (List.mem_map_of_mem (List.mem_of_getElem? hget)))))
  | field hget _ ih =>
    rw [Value.layout, Value.layoutsOfFields_eq]
    have hfield := List.mem_map_of_mem (f := ObjectField.layout) (List.mem_of_getElem? hget)
    refine (ih.trans (isPart_of_mem ?_)).trans
      (isPart_of_mem (List.mem_append_left _ (List.mem_cons_of_mem _ (mem_scattered hfield))))
    simp

theorem Argument.exists_reference_isPart {as : List Argument} (hr : r ∈ Argument.references as) :
    ∃ a ∈ as, IsPart r.layout a.layout := by
  obtain ⟨a, ha, hr⟩ := List.mem_flatMap.1 hr
  obtain ⟨p, h⟩ := a.value.enumerates_references.mem_iff.1 hr
  exact ⟨a, ha, (Value.reference_isPart h).trans a.value_isPart⟩

theorem DirectiveUse.exists_reference_isPart {uses : List DirectiveUse} (hr : r ∈ DirectiveUse.references uses) :
    ∃ use ∈ uses, IsPart r.layout use.layout := by
  obtain ⟨use, huse, hr⟩ := List.mem_flatMap.1 hr
  obtain ⟨a, ha, h⟩ := Argument.exists_reference_isPart hr
  exact ⟨use, huse, h.trans (DirectiveUse.argument_isPart ha)⟩

theorem FieldHead.reference_isPart {h : FieldHead} {inner : Option SelectionSet}
    (hr : r ∈ Argument.references h.arguments ++ DirectiveUse.references h.directives) :
    IsPart r.layout (Selection.field h inner).layout := by
  rcases List.mem_append.1 hr with hr | hr
  · obtain ⟨a, ha, h⟩ := Argument.exists_reference_isPart hr
    exact h.trans (FieldHead.argument_isPart ha)
  · obtain ⟨use, huse, h⟩ := DirectiveUse.exists_reference_isPart hr
    exact h.trans (FieldHead.directive_isPart huse)

mutual

/-- A variable that a selection refers to stands in it, and not in the fragments that it spreads. -/
theorem Selection.reference_isPart : (x : Selection) → r ∈ x.references → IsPart r.layout x.layout
  | .field h none, hr => FieldHead.reference_isPart hr
  | .field h (some set), hr => by
    rw [Selection.references, List.mem_append] at hr
    rcases hr with hr | hr
    · exact FieldHead.reference_isPart hr
    · exact (SelectionSet.reference_isPart set hr).trans FieldHead.set_isPart
  | .spread f, hr => by
    obtain ⟨use, huse, h⟩ := DirectiveUse.exists_reference_isPart hr
    exact h.trans (FragmentSpread.directive_isPart huse)
  | .inline h set, hr => by
    rw [Selection.references, List.mem_append] at hr
    rcases hr with hr | hr
    · obtain ⟨use, huse, h⟩ := DirectiveUse.exists_reference_isPart hr
      exact h.trans (InlineHead.directive_isPart huse)
    · exact (SelectionSet.reference_isPart set hr).trans InlineHead.set_isPart

theorem SelectionSet.reference_isPart : (set : SelectionSet) → r ∈ set.references → IsPart r.layout set.layout
  | .mk xs span, hr => by
    obtain ⟨x, hx, h⟩ := Selection.exists_reference_isPart xs hr
    exact h.trans (SelectionSet.selection_isPart hx)

theorem Selection.exists_reference_isPart :
    (xs : List Selection) → r ∈ Selection.referencesOfList xs → ∃ x ∈ xs, IsPart r.layout x.layout
  | x :: xs, hr => by
    rw [Selection.referencesOfList, List.mem_append] at hr
    rcases hr with hr | hr
    · exact ⟨x, List.mem_cons_self, Selection.reference_isPart x hr⟩
    · obtain ⟨y, hy, h⟩ := Selection.exists_reference_isPart xs hr
      exact ⟨y, List.mem_cons_of_mem _ hy, h⟩

end

end References

/-! ### Documents -/

namespace Document

variable {d : Document} {l m : Layout}

theorem IsPart.below (h : d.IsPart l) (hm : Layout.IsPart m l) : d.IsPart m := by
  rcases h with ⟨x, hx, h⟩ | ⟨x, hx, h⟩
  · exact .inl ⟨x, hx, hm.trans h⟩
  · exact .inr ⟨x, hx, hm.trans h⟩

theorem definition_isPart {x : Definition} (hx : x ∈ d.definitions) : d.IsPart x.layout := .inl ⟨x, hx, .self _⟩

theorem mem_operations_iff {o : Operation} : o ∈ d.operations ↔ .operation o ∈ d.definitions := by
  simp only [operations, List.mem_filterMap]
  constructor
  · rintro ⟨o' | f, hmem, ho⟩
    · exact Option.some.inj ho ▸ hmem
    · cases ho
  · exact fun h => ⟨_, h, rfl⟩

theorem mem_fragments_iff {f : Fragment} : f ∈ d.fragments ↔ .fragment f ∈ d.definitions := by
  simp only [fragments, List.mem_filterMap]
  constructor
  · rintro ⟨o | f', hmem, hf⟩
    · cases hf
    · exact Option.some.inj hf ▸ hmem
  · exact fun h => ⟨_, h, rfl⟩

/-- **What an operation uses is part of the document:** of the operation, or of a fragment that it reaches. -/
theorem usage_isPart {o : Operation} {r : VariableReference} (ho : .operation o ∈ d.definitions)
    (hr : r ∈ d.usages o) : d.IsPart r.layout := by
  rcases List.mem_append.1 hr with hr | hr
  · have hoperation : d.IsPart o.layout := definition_isPart ho
    rcases List.mem_append.1 hr with hr | hr
    · obtain ⟨use, huse, h⟩ := DirectiveUse.exists_reference_isPart hr
      exact hoperation.below (h.trans (Operation.directive_isPart huse))
    · exact hoperation.below ((SelectionSet.reference_isPart _ hr).trans o.set_isPart)
  · obtain ⟨f, hf, hr⟩ := List.mem_flatMap.1 hr
    have hfragment : d.IsPart f.layout := definition_isPart (mem_fragments_iff.1 (mem_of_mem_reachFrom hf))
    rcases List.mem_append.1 hr with hr | hr
    · obtain ⟨use, huse, h⟩ := DirectiveUse.exists_reference_isPart hr
      exact hfragment.below (h.trans (Fragment.directive_isPart huse))
    · exact hfragment.below ((SelectionSet.reference_isPart _ hr).trans f.set_isPart)

end Document

end QueryAid
