import QueryAid.Document.Usage
import Mathlib.Data.List.Nodup
/-!
# The fragments that an operation reaches

`Document.reached` visits fragments depth first and leaves out the names that it has met. It finds each fragment
that is reached through any number of spreads (`mem_reached_iff`), and none of them twice
(`nodup_names_reached`), whether or not fragments spread each other in circles.
-/

namespace QueryAid

/-! ### Spreads -/

/-- **A selection set spreads the fragments of a name,** at any depth, other fragments aside. -/
inductive SelectionSet.Spreads : SelectionSet → String → Prop where
  | here {set : SelectionSet} {f : FragmentSpread} (h : .spread f ∈ set.selections) : set.Spreads f.name.value
  | field {set inner : SelectionSet} {head : FieldHead} {name : String}
      (h : .field head (some inner) ∈ set.selections) (hinner : inner.Spreads name) : set.Spreads name
  | inline {set inner : SelectionSet} {head : InlineHead} {name : String}
      (h : .inline head inner ∈ set.selections) (hinner : inner.Spreads name) : set.Spreads name

theorem Selection.mem_spreadsOfList_iff {selections : List Selection} {name : String} :
    name ∈ spreadsOfList selections ↔ ∃ x ∈ selections, name ∈ x.spreads := by
  induction selections with
  | nil => simp [spreadsOfList]
  | cons x xs ih => rw [spreadsOfList, List.mem_append, ih, List.exists_mem_cons_iff]

theorem SelectionSet.mem_spreads_iff_exists {set : SelectionSet} {name : String} :
    name ∈ set.spreads ↔ ∃ x ∈ set.selections, name ∈ x.spreads := by
  obtain ⟨selections, span⟩ := set
  exact Selection.mem_spreadsOfList_iff

mutual

/-- What a selection is said to spread, its set does. -/
private theorem spreads_of_mem_selection {set : SelectionSet} {name : String} :
    ∀ (x : Selection), x ∈ set.selections → name ∈ x.spreads → set.Spreads name
  | .field _ none, _, h => absurd h List.not_mem_nil
  | .field _ (some inner), hx, h => .field hx (spreads_of_mem inner h)
  | .spread f, hx, h => by
    obtain rfl := List.mem_singleton.1 h
    exact .here hx
  | .inline _ inner, hx, h => .inline hx (spreads_of_mem inner h)

private theorem spreads_of_mem {name : String} : ∀ set : SelectionSet, name ∈ set.spreads → set.Spreads name
  | .mk selections span, h => spreads_of_mem_list (.mk selections span) selections (fun _ hx => hx) h

private theorem spreads_of_mem_list (set : SelectionSet) {name : String} :
    ∀ xs : List Selection, (∀ x ∈ xs, x ∈ set.selections) → name ∈ Selection.spreadsOfList xs → set.Spreads name
  | [], _, h => absurd h List.not_mem_nil
  | x :: xs, hsub, h => by
    rw [List.forall_mem_cons] at hsub
    rcases List.mem_append.1 h with h | h
    · exact spreads_of_mem_selection x hsub.1 h
    · exact spreads_of_mem_list set xs hsub.2 h

end

/-- **The names that are listed as spread are those that are.** -/
theorem SelectionSet.mem_spreads_iff {set : SelectionSet} {name : String} :
    name ∈ set.spreads ↔ set.Spreads name := by
  constructor
  · exact spreads_of_mem set
  · intro h
    induction h with
    | here h => exact mem_spreads_iff_exists.2 ⟨_, h, List.mem_singleton_self _⟩
    | field h _ ih => exact mem_spreads_iff_exists.2 ⟨_, h, ih⟩
    | inline h _ ih => exact mem_spreads_iff_exists.2 ⟨_, h, ih⟩

/-! ### Reaching -/

/-- **An operation reaches a fragment** through any number of spreads. -/
inductive Document.Reaches (d : Document) (o : Operation) : Fragment → Prop where
  | first {name : String} {f : Fragment} (h : o.selectionSet.Spreads name) (hf : d.fragment? name = some f) :
    d.Reaches o f
  | next {g : Fragment} {name : String} {f : Fragment} (hg : d.Reaches o g) (h : g.selectionSet.Spreads name)
    (hf : d.fragment? name = some f) : d.Reaches o f

/-- A fragment among `unvisited` is reached from one of the `pending` names. -/
inductive ReachedFrom (unvisited : List Fragment) (pending : List String) : Fragment → Prop where
  | first {name : String} {f : Fragment} (h : name ∈ pending)
    (hf : unvisited.find? (fun f => f.name.value == name) = some f) : ReachedFrom unvisited pending f
  | next {g : Fragment} {name : String} {f : Fragment} (hg : ReachedFrom unvisited pending g)
    (h : name ∈ g.selectionSet.spreads) (hf : unvisited.find? (fun f => f.name.value == name) = some f) :
    ReachedFrom unvisited pending f

section ReachedFrom

variable {unvisited : List Fragment} {pending : List String} {name : String} {f g : Fragment}

/-- Without the fragments of a name, look-ups of other names find what they found. -/
theorem find?_fragmentsExcept {other : String} (h : other ≠ name) :
    (fragmentsExcept name unvisited).find? (fun f => f.name.value == other) =
      unvisited.find? fun f => f.name.value == other := by
  rw [fragmentsExcept, List.find?_filter]
  congr
  funext f
  by_cases hf : f.name.value = other
  · simp [hf, h]
  · simp [hf]

theorem find?_fragmentsExcept_self :
    (fragmentsExcept name unvisited).find? (fun f => f.name.value == name) = none := by
  simp [fragmentsExcept]

theorem not_reachedFrom_nil : ¬ ReachedFrom unvisited [] f := by
  intro h
  induction h with
  | first hmem _ => exact List.not_mem_nil hmem
  | next _ _ _ ih => exact ih

/-- A name that leads nowhere can be left out. -/
theorem reachedFrom_cons_of_none (h : unvisited.find? (fun f => f.name.value == name) = none) :
    ReachedFrom unvisited (name :: pending) f ↔ ReachedFrom unvisited pending f := by
  constructor
  · intro hf
    induction hf with
    | first hmem hfind =>
      rcases List.mem_cons.1 hmem with rfl | hmem
      · rw [h] at hfind
        cases hfind
      · exact .first hmem hfind
    | next _ hmem hfind ih => exact .next ih hmem hfind
  · intro hf
    induction hf with
    | first hmem hfind => exact .first (List.mem_cons_of_mem _ hmem) hfind
    | next _ hmem hfind ih => exact .next ih hmem hfind

/-- **A fragment that was found need not be looked for again:** what is reached is this fragment, and what is reached
from its spreads and the other names without it. -/
theorem reachedFrom_cons_of_some (h : unvisited.find? (fun f => f.name.value == name) = some g) :
    ReachedFrom unvisited (name :: pending) f ↔
      f = g ∨ ReachedFrom (fragmentsExcept name unvisited) (g.selectionSet.spreads ++ pending) f := by
  constructor
  · intro hf
    -- By induction on how `f` is reached. At each step the name may be the one that was just dealt with.
    induction hf with
    | @first n f hmem hfind =>
      by_cases hn : n = name
      · subst hn
        exact .inl (Option.some.inj (hfind.symm.trans h))
      · rcases List.mem_cons.1 hmem with rfl | hmem
        · exact absurd rfl hn
        · exact .inr (.first (List.mem_append_right _ hmem) ((find?_fragmentsExcept hn).trans hfind))
    | @next g' n f _ hmem hfind ih =>
      by_cases hn : n = name
      · subst hn
        exact .inl (Option.some.inj (hfind.symm.trans h))
      · have hfind' := (find?_fragmentsExcept hn).trans hfind
        rcases ih with rfl | ih
        · exact .inr (.first (List.mem_append_left _ hmem) hfind')
        · exact .inr (.next ih hmem hfind')
  · -- What is found without the fragments of the name is found with them.
    have hkeep {n : String} {f : Fragment}
        (hfind : (fragmentsExcept name unvisited).find? (fun f => f.name.value == n) = some f) :
        unvisited.find? (fun f => f.name.value == n) = some f := by
      have hn : n ≠ name := by
        rintro rfl
        rw [find?_fragmentsExcept_self] at hfind
        cases hfind
      exact (find?_fragmentsExcept hn).symm.trans hfind
    rintro (rfl | hf)
    · exact .first List.mem_cons_self h
    · induction hf with
      | first hmem hfind =>
        rcases List.mem_append.1 hmem with hmem | hmem
        · exact .next (.first List.mem_cons_self h) hmem (hkeep hfind)
        · exact .first (List.mem_cons_of_mem _ hmem) (hkeep hfind)
      | next _ hmem hfind ih => exact .next ih hmem (hkeep hfind)

/-- **The visit finds what is reached.** -/
theorem mem_reachFrom_iff : f ∈ reachFrom unvisited pending ↔ ReachedFrom unvisited pending f := by
  -- The induction follows the visit: no name is left, one leads nowhere, or one leads to a fragment.
  induction unvisited, pending using reachFrom.induct with
  | case1 unvisited =>
    rw [reachFrom]
    exact ⟨fun h => absurd h List.not_mem_nil, fun h => absurd h not_reachedFrom_nil⟩
  | case2 unvisited name pending hnone ih => rw [reachFrom, hnone, ih, reachedFrom_cons_of_none hnone]
  | case3 unvisited name pending g hsome ih =>
    rw [reachFrom, hsome, List.mem_cons, ih, reachedFrom_cons_of_some hsome]

theorem mem_of_mem_reachFrom (h : f ∈ reachFrom unvisited pending) : f ∈ unvisited := by
  induction mem_reachFrom_iff.1 h with
  | first _ hfind => exact List.mem_of_find?_eq_some hfind
  | next _ _ hfind _ => exact List.mem_of_find?_eq_some hfind

/-- **No two of the visited fragments share a name.** -/
theorem nodup_names_reachFrom : ((reachFrom unvisited pending).map fun f => f.name.value).Nodup := by
  induction unvisited, pending using reachFrom.induct with
  | case1 unvisited =>
    rw [reachFrom]
    exact List.nodup_nil
  | case2 unvisited name pending hnone ih =>
    rw [reachFrom, hnone]
    exact ih
  | case3 unvisited name pending g hsome ih =>
    rw [reachFrom, hsome, List.map_cons, List.nodup_cons]
    refine ⟨fun hmem => ?_, ih⟩
    have hname : g.name.value = name := by
      have hg := List.find?_some hsome
      exact beq_iff_eq.1 hg
    -- What is visited later is not among the fragments of this name.
    obtain ⟨f, hf, heq⟩ := List.mem_map.1 hmem
    have hne := (List.mem_filter.1 (mem_of_mem_reachFrom hf)).2
    rw [bne_iff_ne] at hne
    exact hne (heq.trans hname)

end ReachedFrom

namespace Document

variable {d : Document} {o : Operation} {f : Fragment}

/-- **The fragments that are listed as reached are those that are.** -/
theorem mem_reached_iff : f ∈ d.reached o ↔ d.Reaches o f := by
  rw [reached, mem_reachFrom_iff]
  constructor
  · intro h
    induction h with
    | first hmem hfind => exact .first (SelectionSet.mem_spreads_iff.1 hmem) hfind
    | next _ hmem hfind ih => exact .next ih (SelectionSet.mem_spreads_iff.1 hmem) hfind
  · intro h
    induction h with
    | first hspreads hfind => exact .first (SelectionSet.mem_spreads_iff.2 hspreads) hfind
    | next _ hspreads hfind ih => exact .next ih (SelectionSet.mem_spreads_iff.2 hspreads) hfind

theorem nodup_names_reached : ((d.reached o).map fun f => f.name.value).Nodup := nodup_names_reachFrom

end Document

end QueryAid
