import QueryAid.Document.Parser
import QueryAid.Lint.Validation
import QueryAid.Proofs.Document.Occurrence
import QueryAid.Proofs.Document.Reach
/-!
# The variables of an operation

`checkVariableUsage_eq` says which errors there are about the variables of an operation: one for each place at which
a variable is referred to that the operation does not define, and one for each definition of a variable that is
referred to at no place. The places are those in the operation and in the fragments that it reaches
(`Document.UsedAt`).
-/

namespace QueryAid

/-! ### Uses -/

/-- **An operation uses a variable at a place:** in its own directives or selections, or in those of a fragment
that it reaches. The place names the fragment, if any, and starts with 0 for directives and with 1 for selections. -/
inductive Document.UsedAt (d : Document) (o : Operation) :
    Option String × List Nat → VariableReference → Prop where
  | directive {p : List Nat} {r : VariableReference} (h : DirectiveUse.RefersAt o.directives p r) :
    d.UsedAt o (none, 0 :: p) r
  | selection {p : List Nat} {r : VariableReference} (h : o.selectionSet.RefersAt p r) :
    d.UsedAt o (none, 1 :: p) r
  | fragmentDirective {f : Fragment} {p : List Nat} {r : VariableReference} (hf : d.Reaches o f)
    (h : DirectiveUse.RefersAt f.directives p r) : d.UsedAt o (some f.name.value, 0 :: p) r
  | fragmentSelection {f : Fragment} {p : List Nat} {r : VariableReference} (hf : d.Reaches o f)
    (h : f.selectionSet.RefersAt p r) : d.UsedAt o (some f.name.value, 1 :: p) r

/-- An operation uses the variable of a name. -/
def Document.Uses (d : Document) (o : Operation) (name : String) : Prop :=
  ∃ p r, d.UsedAt o p r ∧ r.name.value = name

/-- An operation defines the variable of a name. -/
def Operation.Defines (o : Operation) (name : String) : Prop :=
  ∃ v ∈ o.variableDefinitions, v.name.value = name

instance (o : Operation) (name : String) : Decidable (o.Defines name) :=
  inferInstanceAs (Decidable (∃ v ∈ o.variableDefinitions, v.name.value = name))

/-- The references in the directives and selections of an operation or a fragment. -/
theorem enumerates_references_of_definition (directives : List DirectiveUse) (set : SelectionSet) :
    Enumerates (DirectiveUse.references directives ++ set.references) fun p r =>
      (∃ q, p = 0 :: q ∧ DirectiveUse.RefersAt directives q r) ∨ ∃ q, p = 1 :: q ∧ set.RefersAt q r :=
  ((DirectiveUse.enumerates_references directives).below 0).append (set.enumerates_references.below 1)
    (apart_of_ne (by decide))

/-- **The uses of variables that are listed are all that there are, once for each place.** -/
theorem Document.enumerates_usages (d : Document) (o : Operation) : Enumerates (d.usages o) (d.UsedAt o) := by
  have hoperation := (enumerates_references_of_definition o.directives o.selectionSet).rename
    (fun p => ((none : Option String), p)) fun _ _ h => (Prod.mk.inj h).2
  have hfragment : ∀ f ∈ d.reached o, _ := fun f _ =>
    (enumerates_references_of_definition f.directives f.selectionSet).rename
      (fun p => (some f.name.value, p)) fun _ _ h => (Prod.mk.inj h).2
  -- No two fragments that are reached share a name, so that their places are apart.
  have hapart := List.pairwise_map.1 (d.nodup_names_reached (o := o))
  refine (hoperation.append (Enumerates.flatMap hfragment (hapart.imp ?_)) ?_).congr fun p r => ?_
  -- The place of a use in a fragment tells the name of the fragment, and that of another use none.
  · rintro f g hne p a b ⟨q, rfl, -⟩ ⟨q', h, -⟩
    exact hne (Option.some.inj (Prod.mk.inj h).1)
  · rintro p a b ⟨q, rfl, -⟩ ⟨f, -, q', h, -⟩
    cases h
  · constructor
    · rintro (⟨_, rfl, ⟨q, rfl, h⟩ | ⟨q, rfl, h⟩⟩ | ⟨f, hf, _, rfl, ⟨q, rfl, h⟩ | ⟨q, rfl, h⟩⟩)
      · exact .directive h
      · exact .selection h
      · exact .fragmentDirective (mem_reached_iff.1 hf) h
      · exact .fragmentSelection (mem_reached_iff.1 hf) h
    · intro h
      cases h with
      | directive h => exact .inl ⟨_, rfl, .inl ⟨_, rfl, h⟩⟩
      | selection h => exact .inl ⟨_, rfl, .inr ⟨_, rfl, h⟩⟩
      | fragmentDirective hf h => exact .inr ⟨_, mem_reached_iff.2 hf, _, rfl, .inl ⟨_, rfl, h⟩⟩
      | fragmentSelection hf h => exact .inr ⟨_, mem_reached_iff.2 hf, _, rfl, .inr ⟨_, rfl, h⟩⟩

/-- A variable is used exactly if one of the listed uses is of its name. -/
theorem Document.uses_iff {d : Document} {o : Operation} {name : String} :
    d.Uses o name ↔ ∃ r ∈ d.usages o, r.name.value = name := by
  simp only [Uses, (d.enumerates_usages o).mem_iff]
  exact ⟨fun ⟨p, r, h, hname⟩ => ⟨r, ⟨p, h⟩, hname⟩, fun ⟨r, ⟨p, h⟩, hname⟩ => ⟨p, r, h, hname⟩⟩

instance (d : Document) (o : Operation) (name : String) : Decidable (d.Uses o name) :=
  decidable_of_iff _ Document.uses_iff.symm

/-! ### Errors -/

namespace Validation

/-- What is said of a reference to a variable that an operation does not define. -/
def undefinedError (o : Operation) (r : VariableReference) : ValidationError :=
  (Violation.undefinedVariable r.name.value (o.name.map Name.value)).on (.reference r.span r.name.span)

/-- What is said of a definition of a variable that an operation does not use. -/
def unusedError (o : Operation) (v : VariableDefinition) : ValidationError :=
  (Violation.unusedVariable v.name.value (o.name.map Name.value)).on (.defining v.span v.variableSpan)

variable (d : Document) (o : Operation)

theorem undefinedVariables_eq : undefinedVariables d o =
    ((d.usages o).filter fun r => !decide (o.Defines r.name.value)).map (undefinedError o) := by
  have hdefines : ∀ r : VariableReference, (!o.variableDefinitions.any fun v => v.name.value == r.name.value) =
      !decide (o.Defines r.name.value) := by
    intro r
    refine congrArg not ?_
    rw [Bool.eq_iff_iff, List.any_eq_true, decide_eq_true_iff]
    simp only [beq_iff_eq, Operation.Defines]
  simp only [undefinedVariables, hdefines]
  rfl

theorem unusedVariables_eq : unusedVariables d o =
    (o.variableDefinitions.filter fun v => !decide (d.Uses o v.name.value)).map (unusedError o) := by
  have huses : ∀ v : VariableDefinition, (!(d.usages o).any fun r => r.name.value == v.name.value) =
      !decide (d.Uses o v.name.value) := by
    intro v
    refine congrArg not ?_
    rw [Bool.eq_iff_iff, List.any_eq_true, decide_eq_true_iff, Document.uses_iff]
    simp only [beq_iff_eq]
  simp only [unusedVariables, huses]
  rfl

/-- **The errors about the variables of an operation:** one for each use of a variable that it does not define, and
then one for each definition of a variable that it does not use. -/
theorem checkVariableUsage_eq : ∃ undefined,
    Enumerates undefined (fun p r => d.UsedAt o p r ∧ ¬ o.Defines r.name.value) ∧
    checkVariableUsage d o = undefined.map (undefinedError o) ++
      (o.variableDefinitions.filter fun v => ¬ d.Uses o v.name.value).map (unusedError o) := by
  refine ⟨_, ((d.enumerates_usages o).filter fun r => !decide (o.Defines r.name.value)).congr fun p r => ?_, ?_⟩
  · rw [Bool.not_eq_true', decide_eq_false_iff_not]
  · rw [checkVariableUsage, undefinedVariables_eq, unusedVariables_eq]
    simp only [decide_not]

-- The two fragments spread each other, and the variable is used in both.
example :
    ((Document.parse
        "query Q { ...F } fragment F on T { a(x: $v) ...G } fragment G on T { b(x: $v) ...F }".toList).toOption.map
      fun d => d.operations.flatMap fun o => (checkVariableUsage d o).map ValidationError.message) =
      some ["Variable \"$v\" is not defined by operation \"Q\".",
        "Variable \"$v\" is not defined by operation \"Q\"."] := by
  decide +kernel

end Validation

end QueryAid
