import QueryAid.Proofs.Document.Parts
import QueryAid.Proofs.Lint.Order
import QueryAid.Proofs.Lint.VariableUsage
import QueryAid.Proofs.Parsing
/-!
# The order of definitions

A document says the same when its definitions change places, as long as no two of its fragments share a name. The
validation then reports the same errors (`mem_validate_iff_of_reordered`), fragments may stand before or after the
operations that spread them.

Of the other definitions, a rule only ever asks which fragment a name leads to. With distinct names every order gives
the same answer (`Document.Reordered.fragment?_eq`), and documents that agree in these answers have the same errors in
each definition (`mem_checkDefinition_iff`). The walk over the fragments that an operation reaches may take another
way, but ends with the same ones.
-/

namespace QueryAid

namespace Document

/-- **The definitions of two documents are the same ones,** in any order. -/
structure Reordered (d d' : Document) : Prop where
  definitions : d.definitions.Perm d'.definitions
  nonExecutable : d.nonExecutable.Perm d'.nonExecutable

/-- No two fragments share a name. -/
def DistinctFragments (d : Document) : Prop := (d.fragments.map fun f => f.name.value).Nodup

instance (d : Document) : Decidable d.DistinctFragments :=
  inferInstanceAs (Decidable (d.fragments.map fun f => f.name.value).Nodup)

/-- Two documents have the same fragments: every name leads to one and the same in both. -/
def SameFragments (d d' : Document) : Prop := ∀ name, d.fragment? name = d'.fragment? name

section Fragments

variable {d d' : Document} {o : Operation} {f : Fragment} {name : String} {r : VariableReference}

theorem mem_fragments_of_fragment? (h : d.fragment? name = some f) : f ∈ d.fragments := List.mem_of_find?_eq_some h

theorem name_of_fragment? (h : d.fragment? name = some f) : f.name.value = name := by
  have hname := List.find?_some (p := fun f : Fragment => f.name.value == name) h
  exact beq_iff_eq.1 hname

/-- **Where names are distinct, a name leads to the fragment that has it,** wherever that stands. -/
theorem fragment?_eq_some_iff (hd : d.DistinctFragments) :
    d.fragment? name = some f ↔ f ∈ d.fragments ∧ f.name.value = name := by
  constructor
  · intro h
    exact ⟨mem_fragments_of_fragment? h, name_of_fragment? h⟩
  · rintro ⟨hf, rfl⟩
    obtain ⟨g, hg⟩ : ∃ g, d.fragment? f.name.value = some g := by
      rw [← Option.isSome_iff_exists, fragment?, List.find?_isSome]
      exact ⟨f, hf, beq_self_eq_true _⟩
    rwa [List.inj_on_of_nodup_map hd (mem_fragments_of_fragment? hg) hf (name_of_fragment? hg)] at hg

namespace Reordered

theorem fragments (h : d.Reordered d') : d.fragments.Perm d'.fragments := h.definitions.filterMap _

theorem distinctFragments (h : d.Reordered d') (hd : d.DistinctFragments) : d'.DistinctFragments :=
  (h.fragments.map _).nodup_iff.1 hd

theorem fragment?_eq (h : d.Reordered d') (hd : d.DistinctFragments) : d.SameFragments d' := by
  intro name
  ext f
  rw [fragment?_eq_some_iff hd, fragment?_eq_some_iff (h.distinctFragments hd), h.fragments.mem_iff]

end Reordered

namespace SameFragments

theorem symm (h : d.SameFragments d') : d'.SameFragments d := fun name => (h name).symm

theorem reaches (h : d.SameFragments d') (hf : d.Reaches o f) : d'.Reaches o f := by
  induction hf with
  | first hspreads hfind => exact .first hspreads ((h _).symm.trans hfind)
  | next _ hspreads hfind ih => exact .next ih hspreads ((h _).symm.trans hfind)

/-- An operation reaches the same fragments, if perhaps in another order. -/
theorem mem_reached_iff (h : d.SameFragments d') : f ∈ d.reached o ↔ f ∈ d'.reached o := by
  rw [Document.mem_reached_iff, Document.mem_reached_iff]
  exact ⟨h.reaches, h.symm.reaches⟩

/-- An operation uses the same variables at the same places. -/
theorem mem_usages_iff (h : d.SameFragments d') : r ∈ d.usages o ↔ r ∈ d'.usages o := by
  simp only [usages, List.mem_append, List.mem_flatMap, h.mem_reached_iff]

theorem uses_iff (h : d.SameFragments d') : d.Uses o name ↔ d'.Uses o name := by
  simp only [Document.uses_iff, h.mem_usages_iff]

end SameFragments

end Fragments

end Document

/-! ### The rules -/

namespace Validation

variable {s : Schema} {d d' : Document} {e : ValidationError}

/-- A spread is looked at for the fragment that it leads to. -/
theorem checkSpread_eq (h : d.SameFragments d') (f : FragmentSpread) : checkSpread s d f = checkSpread s d' f := by
  rw [checkSpread, checkSpread, h]

theorem checkSelectionHead_eq (h : d.SameFragments d') (parent : Option TypeDef) (y : Selection) :
    checkSelectionHead s d parent y = checkSelectionHead s d' parent y := by
  cases y with
  | field head inner => rfl
  | spread f => exact checkSpread_eq h f
  | inline head inner => rfl

theorem mem_checkSelectionSet_iff_of_sameFragments (h : d.SameFragments d') {x : Definition} :
    e ∈ checkSelectionSet s d (rootType? s x) x.selectionSet ↔
      e ∈ checkSelectionSet s d' (rootType? s x) x.selectionSet := by
  simp only [mem_checkSelectionSet_iff, FoundOnWalk, checkSelectionHead_eq h]

theorem mem_checkVariableUsage_iff (h : d.SameFragments d') {o : Operation} :
    e ∈ checkVariableUsage d o ↔ e ∈ checkVariableUsage d' o := by
  rw [checkVariableUsage, checkVariableUsage, undefinedVariables_eq, undefinedVariables_eq, unusedVariables_eq,
    unusedVariables_eq]
  simp only [List.mem_append, List.mem_map, List.mem_filter, h.mem_usages_iff, h.uses_iff]

/-- **A definition has the same errors in documents with the same fragments.** -/
theorem mem_checkDefinition_iff (h : d.SameFragments d') {x : Definition} :
    e ∈ checkDefinition s d x ↔ e ∈ checkDefinition s d' x := by
  have hset := mem_checkSelectionSet_iff_of_sameFragments (s := s) (e := e) h (x := x)
  cases x with
  | operation o =>
    rw [rootType?, Definition.selectionSet] at hset
    simp only [checkDefinition, checkOperation, List.mem_append, hset, mem_checkVariableUsage_iff h]
  | fragment f =>
    rw [rootType?, Definition.selectionSet] at hset
    simp only [checkDefinition, checkFragment, List.mem_append, hset]

end Validation

/-! ### Documents -/

/-- **The order of its definitions has no bearing on the errors of a document** in which no two fragments share a
name. -/
theorem mem_validate_iff_of_reordered {d d' : Document} (h : d.Reordered d') (hd : d.DistinctFragments) (s : Schema)
    (e : ValidationError) : e ∈ validate s d ↔ e ∈ validate s d' := by
  have hdefinition : ∀ x, e ∈ Validation.checkDefinition s d x ↔ e ∈ Validation.checkDefinition s d' x :=
    fun _ => Validation.mem_checkDefinition_iff (h.fragment?_eq hd)
  rw [validate, validate, mem_sortErrors_iff, mem_sortErrors_iff, Validation.checkDocument, Validation.checkDocument,
    List.mem_append, List.mem_append, (h.nonExecutable.map _).mem_iff, List.mem_flatMap, List.mem_flatMap]
  simp only [hdefinition, h.definitions.mem_iff]

/-- A document with fragments before and after the operation that reaches them has the same errors when it is read from
its end. -/
theorem mem_validate_of_reversed : ∃ s d,
    Schema.ofSources [(none, "type Query { a: Int }")] = .ok s ∧
      Document.parse
        "fragment F on Query { a ...G } query Q { ...F } fragment G on Query { a @skip(if: $v) ...F }".toList = .ok d ∧
      d.Reordered ⟨d.definitions.reverse, d.nonExecutable⟩ ∧ d.DistinctFragments ∧
      (validate s d).map ValidationError.message = ["Variable \"$v\" is not defined by operation \"Q\"."] ∧
      ∀ e, e ∈ validate s d ↔ e ∈ validate s ⟨d.definitions.reverse, d.nonExecutable⟩ := by
  have hread : (do
      let s ← (Schema.ofSources [(none, "type Query { a: Int }")]).toOption
      let d ← (Document.parse
        "fragment F on Query { a ...G } query Q { ...F } fragment G on Query { a @skip(if: $v) ...F }".toList).toOption
      return (decide d.DistinctFragments, (validate s d).map ValidationError.message)) =
      some (true, ["Variable \"$v\" is not defined by operation \"Q\"."]) := by
    decide +kernel
  obtain ⟨s, hs, hread⟩ := Option.bind_eq_some_iff.1 hread
  obtain ⟨d, hd, hread⟩ := Option.bind_eq_some_iff.1 hread
  obtain ⟨hdistinct, hmessages⟩ := Prod.mk.inj (Option.some.inj hread)
  have hs : Schema.ofSources [(none, "type Query { a: Int }")] = .ok s := eq_ok_of_toOption hs
  have hreordered : d.Reordered ⟨d.definitions.reverse, d.nonExecutable⟩ := ⟨(List.reverse_perm _).symm, .refl _⟩
  exact ⟨s, d, hs, eq_ok_of_toOption hd, hreordered, of_decide_eq_true hdistinct, hmessages,
    mem_validate_iff_of_reordered hreordered (of_decide_eq_true hdistinct) s⟩

end QueryAid
