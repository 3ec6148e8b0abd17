import QueryAid.Document.Basic
/-!
# What selections refer to

The variables and fragments that selections name, and the fragments that are reached through any number of
spreads. A spread leads to the first fragment of its name.
-/

namespace QueryAid

mutual

/-- The variables that a selection refers to, in order; fragments that it spreads are not looked into. -/
def Selection.references : Selection → List VariableReference
  | .field h none => Argument.references h.arguments ++ DirectiveUse.references h.directives
  | .field h (some set) =>
    Argument.references h.arguments ++ DirectiveUse.references h.directives ++ set.references
  | .spread s => DirectiveUse.references s.directives
  | .inline h set => DirectiveUse.references h.directives ++ set.references

/-- The variables that the selections of a set refer to. -/
def SelectionSet.references : SelectionSet → List VariableReference
  | .mk selections _ => Selection.referencesOfList selections

/-- The variables that selections refer to. -/
def Selection.referencesOfList : List Selection → List VariableReference
  | [] => []
  | s :: ss => s.references ++ Selection.referencesOfList ss

end

mutual

/-- The names of the fragments that a selection spreads, in order. -/
def Selection.spreads : Selection → List String
  | .field _ none => []
  | .field _ (some set) => set.spreads
  | .spread s => [s.name.value]
  | .inline _ set => set.spreads

/-- The names of the fragments that the selections of a set spread. -/
def SelectionSet.spreads : SelectionSet → List String
  | .mk selections _ => Selection.spreadsOfList selections

/-- The names of the fragments that selections spread. -/
def Selection.spreadsOfList : List Selection → List String
  | [] => []
  | s :: ss => s.spreads ++ Selection.spreadsOfList ss

end

/-- The variables that a fragment refers to in its own directives and selections. -/
def Fragment.references (f : Fragment) : List VariableReference :=
  DirectiveUse.references f.directives ++ f.selectionSet.references

/-- The fragments that do not have the given name. -/
def fragmentsExcept (name : String) (fragments : List Fragment) : List Fragment :=
  fragments.filter fun f => f.name.value != name

theorem fragmentsExcept_cons_of_eq {name : String} {f : Fragment} {fs : List Fragment} (h : f.name.value = name) :
    fragmentsExcept name (f :: fs) = fragmentsExcept name fs := by
  simp [fragmentsExcept, h]

theorem fragmentsExcept_cons_of_ne {name : String} {f : Fragment} {fs : List Fragment} (h : f.name.value ≠ name) :
    fragmentsExcept name (f :: fs) = f :: fragmentsExcept name fs := by
  simp [fragmentsExcept, h]

/-- How many names there are to look at for the sake of some fragments: each one's own, and those it spreads. -/
def visitWeight : List Fragment → Nat
  | [] => 0
  | f :: fs => 1 + f.selectionSet.spreads.length + visitWeight fs

theorem visitWeight_fragmentsExcept_le (name : String) (fragments : List Fragment) :
    visitWeight (fragmentsExcept name fragments) ≤ visitWeight fragments := by
  induction fragments with
  | nil => exact Nat.le_refl _
  | cons f fs ih =>
    by_cases h : f.name.value = name
    · rw [fragmentsExcept_cons_of_eq h, visitWeight]
      omega
    · rw [fragmentsExcept_cons_of_ne h, visitWeight, visitWeight]
      omega

/-- A visit leaves less to look at, although the spreads of the visited fragment come on top. -/
theorem visitWeight_lt {name : String} {fragments : List Fragment} {f : Fragment}
    (h : fragments.find? (fun f => f.name.value == name) = some f) :
    visitWeight (fragmentsExcept name fragments) + f.selectionSet.spreads.length < visitWeight fragments := by
  induction fragments with
  | nil => cases h
  | cons g gs ih =>
    by_cases hg : g.name.value = name
    · obtain rfl : g = f := by simpa [hg] using h
      have hle := visitWeight_fragmentsExcept_le name gs
      rw [fragmentsExcept_cons_of_eq hg, visitWeight]
      omega
    · have hlt := ih (by simpa [hg] using h)
      rw [fragmentsExcept_cons_of_ne hg, visitWeight, visitWeight]
      omega

/-- The fragments among `unvisited` that are reached from the `pending` names, each once. -/
def reachFrom (unvisited : List Fragment) : List String → List Fragment
  | [] => []
  | name :: pending =>
    match _found : unvisited.find? fun f => f.name.value == name with
    | none => reachFrom unvisited pending
    | some f =>
      -- The other fragments of this name are never reached, so that they can be left out as well.
      f :: reachFrom (fragmentsExcept name unvisited) (f.selectionSet.spreads ++ pending)
termination_by pending => visitWeight unvisited + pending.length
decreasing_by
  · simp only [List.length_cons]
    omega
  · have hlt := visitWeight_lt _found
    simp only [List.length_append, List.length_cons]
    omega

/-- **The fragments that an operation reaches**, each once. -/
def Document.reached (d : Document) (o : Operation) : List Fragment :=
  reachFrom d.fragments o.selectionSet.spreads

/-- **The variables that an operation uses:** in its own directives and selections, and in the fragments that it
reaches. -/
def Document.usages (d : Document) (o : Operation) : List VariableReference :=
  DirectiveUse.references o.directives ++ o.selectionSet.references ++
    (d.reached o).flatMap Fragment.references

end QueryAid
