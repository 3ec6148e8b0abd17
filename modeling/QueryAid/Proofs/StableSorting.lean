import Mathlib.Data.List.Pairwise
/-!
# What sorting does not change

`List.mergeSort` is stable: elements that are tied with each other keep their order (`filter_mergeSort_of_tied`). So
whatever holds of the elements in their order before they are sorted decides about tied ones afterwards
(`pairwise_mergeSort_of_pairwise`).
-/

namespace QueryAid

variable {α : Type} {le : α → α → Bool} {l : List α}

/-- **Elements that are all tied with each other keep their order.** -/
theorem filter_mergeSort_of_tied (htrans : ∀ a b c, le a b = true → le b c = true → le a c = true)
    (htotal : ∀ a b, (le a b || le b a) = true) {p : α → Bool}
    (htied : ∀ a b, p a = true → p b = true → le a b = true) : (l.mergeSort le).filter p = l.filter p := by
  have hordered : (l.filter p).Pairwise fun a b => le a b = true :=
    List.pairwise_of_forall_mem_list fun a ha b hb =>
      htied a b (List.mem_filter.1 ha).2 (List.mem_filter.1 hb).2
  have hsub : (l.filter p).Sublist ((l.mergeSort le).filter p) := by
    have hfilter := (List.sublist_mergeSort htrans htotal hordered List.filter_sublist).filter p
    simpa only [List.filter_filter, Bool.and_self] using hfilter
  have hlength := ((l.mergeSort_perm le).filter p).length_eq
  exact (hsub.eq_of_length hlength.symm).symm

/-- **The order before sorting decides about tied elements.** -/
theorem pairwise_mergeSort_of_pairwise (htrans : ∀ a b c, le a b = true → le b c = true → le a c = true)
    (htotal : ∀ a b, (le a b || le b a) = true) {r : α → α → Prop} (h : l.Pairwise r) :
    (l.mergeSort le).Pairwise fun a b => le a b = true ∧ (le b a = true → r a b) := by
  rw [List.pairwise_iff_forall_sublist]
  intro a b hab
  have hle : le a b = true := List.pairwise_iff_forall_sublist.1 (List.pairwise_mergeSort htrans htotal l) hab
  refine ⟨hle, fun hge => ?_⟩
  -- Both elements are tied with the first one, and such elements stand in the sorted list as they stood before.
  let tied (x : α) : Bool := le a x && le x a
  have htied (x y : α) (hx : tied x = true) (hy : tied y = true) : le x y = true :=
    htrans x a y (Bool.and_eq_true_iff.1 hx).2 (Bool.and_eq_true_iff.1 hy).1
  have hself : tied a = true := by
    have ha : le a a = true := htrans a b a hle hge
    rw [Bool.and_eq_true_iff]
    exact ⟨ha, ha⟩
  have hother : tied b = true := Bool.and_eq_true_iff.2 ⟨hle, hge⟩
  have hfilter := hab.filter tied
  rw [filter_mergeSort_of_tied htrans htotal htied, List.filter_cons_of_pos hself, List.filter_cons_of_pos hother,
    List.filter_nil] at hfilter
  exact List.pairwise_iff_forall_sublist.1 h (hfilter.trans List.filter_sublist)

end QueryAid
