import QueryAid.Lint.Validation
/-!
# Selections from unknown types

Where the type is unknown that selections are made from, only the rules apply that do not ask for it. So whoever knows
more types finds more errors, and finds the others in the same order (`checkSelectionSet_sublist`). On the way down into
the sets below, types get known and unknown again, in two runs at different places; what stays is that the one run knows
no type which the other one does not (`KnowsAtMost`).
-/

namespace QueryAid

namespace Validation

variable {s : Schema} {d : Document} {parent parent' : Option TypeDef}

/-- **A type is not known better:** it is the other one if it is known at all. -/
def KnowsAtMost (parent parent' : Option TypeDef) : Prop := ∀ t, parent = some t → parent' = some t

theorem knowsAtMost_none (parent : Option TypeDef) : KnowsAtMost none parent := nofun

theorem knowsAtMost_refl (parent : Option TypeDef) : KnowsAtMost parent parent := fun _ => id

/-- The type of a field is not known better than the one that the field is selected from. -/
theorem KnowsAtMost.fieldType? (h : KnowsAtMost parent parent') (s : Schema) (head : FieldHead) :
    KnowsAtMost (fieldType? s parent head) (fieldType? s parent' head) := by
  cases parent with
  | none => exact knowsAtMost_none _
  | some t =>
    rw [h t rfl]
    exact knowsAtMost_refl _

/-- An inline fragment passes on what is known, or has a condition, from which the same gets known in any case. -/
theorem KnowsAtMost.inlineType? (h : KnowsAtMost parent parent') (s : Schema) (head : InlineHead) :
    KnowsAtMost (inlineType? s parent head) (inlineType? s parent' head) := by
  unfold Validation.inlineType?
  cases head.typeCondition with
  | none => exact h
  | some condition => exact knowsAtMost_refl _

/-- The rules for a field that ask for its type come after those that do not. -/
theorem KnowsAtMost.checkFieldHead_sublist (h : KnowsAtMost parent parent') (head : FieldHead) (hasSelections : Bool) :
    (checkFieldHead s parent head hasSelections).Sublist (checkFieldHead s parent' head hasSelections) := by
  cases parent with
  | none =>
    have hdirectives : checkFieldHead s none head hasSelections = checkDirectives s .field head.directives :=
      List.append_nil _
    rw [hdirectives]
    exact List.sublist_append_left _ _
  | some t =>
    obtain rfl : parent' = some t := h t rfl
    exact List.Sublist.refl _

mutual

theorem checkSelection_sublist_of_knowsAtMost {parent parent' : Option TypeDef} (h : KnowsAtMost parent parent') :
    ∀ x : Selection, (checkSelection s d parent x).Sublist (checkSelection s d parent' x)
  | .field head none => h.checkFieldHead_sublist head false
  | .field head (some inner) => by
    have hinner := checkSelectionSet_sublist_of_knowsAtMost (h.fieldType? s head) inner
    exact (h.checkFieldHead_sublist head true).append hinner
  | .spread f => List.Sublist.refl (checkSpread s d f)
  | .inline head inner => by
    have hinner := checkSelectionSet_sublist_of_knowsAtMost (h.inlineType? s head) inner
    exact (List.Sublist.refl (checkInlineHead s head)).append hinner

/-- **Who knows at least as much finds all the errors,** in the same order. -/
theorem checkSelectionSet_sublist_of_knowsAtMost {parent parent' : Option TypeDef} (h : KnowsAtMost parent parent') :
    ∀ set : SelectionSet, (checkSelectionSet s d parent set).Sublist (checkSelectionSet s d parent' set)
  | .mk selections _ => checkSelections_sublist_of_knowsAtMost h selections

theorem checkSelections_sublist_of_knowsAtMost {parent parent' : Option TypeDef} (h : KnowsAtMost parent parent') :
    ∀ xs : List Selection, (checkSelections s d parent xs).Sublist (checkSelections s d parent' xs)
  | [] => List.Sublist.refl []
  | x :: xs => by
    have hx := checkSelection_sublist_of_knowsAtMost h x
    have hxs := checkSelections_sublist_of_knowsAtMost h xs
    exact hx.append hxs

end

/-- **Knowing the type that selections are made from only adds errors:** those that are found without it are found with
it as well, whatever type it is, and in the same order. -/
theorem checkSelectionSet_sublist (s : Schema) (d : Document) (t : TypeDef) (set : SelectionSet) :
    (checkSelectionSet s d none set).Sublist (checkSelectionSet s d (some t) set) :=
  checkSelectionSet_sublist_of_knowsAtMost (knowsAtMost_none (some t)) set

end Validation

end QueryAid
