import QueryAid.Document.Parser
import QueryAid.Proofs.GuardedFold
import QueryAid.Proofs.Lint.Walk
import QueryAid.Proofs.StableSorting
import QueryAid.Schema.Builder
import Mathlib.Data.List.Destutter
/-!
# The order of errors

The validation sorts the errors that the rules find, and then drops every error that equals the one before it. No
error is lost on the way (`mem_sortErrors_iff`). But equal errors need not be next to each other after the sorting:
errors that start at one place keep the order in which they were found, and another one may have been found between
them. `nodup_sortErrors_iff` says that this is the only way in which an error can come twice.
-/

namespace QueryAid

/-! ### Dropping adjacent duplicates -/

section Dedup

variable {α : Type} {a : α} {l c : List α}

/-- Where no element equals the one before it, something else stands between two equal ones. -/
theorem exists_between_of_isChain (hl : l.IsChain (· ≠ ·)) (h : [a, a].Sublist l) :
    ∃ b, b ≠ a ∧ [a, b, a].Sublist l := by
  induction l with
  | nil => cases h
  | cons x l ih =>
    cases h with
    | cons _ h =>
      obtain ⟨b, hb, hsub⟩ := ih hl.tail h
      exact ⟨b, hb, hsub.cons x⟩
    | cons_cons _ h =>
      cases l with
      | nil => cases h
      | cons y l =>
        have hne : a ≠ y := (List.isChain_cons_cons.1 hl).1
        have hmem : a ∈ l := List.mem_of_ne_of_mem hne (List.singleton_sublist.1 h)
        exact ⟨y, hne.symm, ((List.singleton_sublist.2 hmem).cons_cons y).cons_cons a⟩

variable [DecidableEq α]

theorem dedupAdjacent_eq_destutter (l : List α) : dedupAdjacent l = l.destutter (· ≠ ·) := by
  induction l using dedupAdjacent.induct with
  | case1 => rfl
  | case2 a => rfl
  | case3 b l ih =>
    have hsame : ¬ b ≠ b := not_not.2 rfl
    rw [dedupAdjacent, if_pos rfl, ih, List.destutter_cons', List.destutter_cons',
      List.destutter'_cons_neg (h := hsame)]
  | case4 a b l h ih =>
    rw [dedupAdjacent, if_neg h, ih, List.destutter_cons', List.destutter_cons', List.destutter'_cons_pos (h := h)]

theorem dedupAdjacent_sublist : (dedupAdjacent l).Sublist l := by
  rw [dedupAdjacent_eq_destutter]
  exact List.destutter_sublist _ l

theorem isChain_dedupAdjacent : (dedupAdjacent l).IsChain (· ≠ ·) := by
  rw [dedupAdjacent_eq_destutter]
  exact List.isChain_destutter _ l

/-- A part of a list in which no element equals the one before it survives. -/
theorem sublist_dedupAdjacent (h : c.Sublist l) (hc : c.IsChain (· ≠ ·)) : c.Sublist (dedupAdjacent l) := by
  induction l using dedupAdjacent.induct generalizing c with
  | case1 => exact h
  | case2 a => exact h
  | case3 b l ih =>
    rw [dedupAdjacent, if_pos rfl]
    cases h with
    | cons _ h => exact ih h hc
    | cons_cons _ h =>
      -- The element after `b` in the part is another one, so that it stands behind both.
      cases h with
      | cons _ h => exact ih (h.cons_cons b) hc
      | cons_cons _ h => exact absurd rfl (List.isChain_cons_cons.1 hc).1
  | case4 a b l hne ih =>
    rw [dedupAdjacent, if_neg hne]
    cases h with
    | cons _ h => exact (ih h hc).cons a
    | cons_cons _ h => exact (ih h hc.tail).cons_cons a

theorem mem_dedupAdjacent_iff : a ∈ dedupAdjacent l ↔ a ∈ l := by
  constructor
  · intro h
    exact dedupAdjacent_sublist.subset h
  · intro h
    have hsingle : [a].Sublist (dedupAdjacent l) :=
      sublist_dedupAdjacent (List.singleton_sublist.2 h) (List.isChain_singleton a)
    exact List.singleton_sublist.1 hsingle

end Dedup

/-! ### Sorting -/

section Sorting

variable {errors part : List ValidationError}

/-- Whether an error may stand before another one. -/
def startsNoLater (a b : ValidationError) : Bool := decide (a.order ≤ b.order)

theorem startsNoLater_trans (a b c : ValidationError) (hab : startsNoLater a b = true)
    (hbc : startsNoLater b c = true) : startsNoLater a c = true := by
  rw [startsNoLater, decide_eq_true_iff] at hab hbc ⊢
  exact hab.trans hbc

theorem startsNoLater_total (a b : ValidationError) : (startsNoLater a b || startsNoLater b a) = true := by
  rw [startsNoLater, startsNoLater, Bool.or_eq_true, decide_eq_true_iff, decide_eq_true_iff]
  exact Nat.le_total a.order b.order

theorem pairwise_startsNoLater_iff :
    (part.Pairwise fun a b => startsNoLater a b = true) ↔ part.Pairwise fun a b => a.order ≤ b.order := by
  simp only [startsNoLater, decide_eq_true_iff]

theorem sortErrors_eq : sortErrors errors = dedupAdjacent (errors.mergeSort startsNoLater) := rfl

/-- Errors that are in order are sorted without changing places. -/
theorem sublist_mergeSort_errors (h : part.Sublist errors) (hpart : part.Pairwise fun a b => a.order ≤ b.order) :
    part.Sublist (errors.mergeSort startsNoLater) :=
  List.sublist_mergeSort startsNoLater_trans startsNoLater_total (pairwise_startsNoLater_iff.2 hpart) h

/-- **Errors that start at one place keep the order in which they were found.** -/
theorem filter_mergeSort_errors (k : Nat) :
    (errors.mergeSort startsNoLater).filter (fun e => e.order == k) = errors.filter fun e => e.order == k := by
  refine filter_mergeSort_of_tied startsNoLater_trans startsNoLater_total fun a b ha hb => ?_
  rw [startsNoLater, decide_eq_true_iff, eq_of_beq ha, eq_of_beq hb]

theorem mem_sortErrors_iff {e : ValidationError} : e ∈ sortErrors errors ↔ e ∈ errors := by
  rw [sortErrors_eq, mem_dedupAdjacent_iff, List.mem_mergeSort]

theorem pairwise_sortErrors : (sortErrors errors).Pairwise fun a b => a.order ≤ b.order := by
  have hsorted := List.pairwise_mergeSort startsNoLater_trans startsNoLater_total errors
  exact (pairwise_startsNoLater_iff.1 hsorted).sublist dedupAdjacent_sublist

/-- **An error is found again** after another one that starts at the same place was found. -/
def FoundAgain (errors : List ValidationError) : Prop :=
  ∃ e other, other ≠ e ∧ other.order = e.order ∧ [e, other, e].Sublist errors

/-- **No error comes twice exactly if none is found again** after another one at the same place. -/
theorem nodup_sortErrors_iff : (sortErrors errors).Nodup ↔ ¬ FoundAgain errors := by
  rw [List.nodup_iff_sublist, FoundAgain]
  constructor
  · rintro hnodup ⟨e, other, hne, horder, hsub⟩
    have hpairwise : [e, other, e].Pairwise fun a b => a.order ≤ b.order := by
      simp [horder]
    have hchain : [e, other, e].IsChain (· ≠ ·) := by
      simp [hne, hne.symm]
    have hkept : [e, other, e].Sublist (sortErrors errors) :=
      sublist_dedupAdjacent (sublist_mergeSort_errors hsub hpairwise) hchain
    have htwice : [e, e].Sublist [e, other, e] := (List.sublist_cons_self other [e]).cons_cons e
    exact hnodup e (htwice.trans hkept)
  · intro hagain e htwice
    obtain ⟨other, hne, hsub⟩ := exists_between_of_isChain isChain_dedupAdjacent htwice
    -- What stands between two equal errors starts where they do.
    have hsorted := pairwise_sortErrors.sublist hsub
    have horder : other.order = e.order := by
      simp only [List.pairwise_cons, List.mem_cons, List.not_mem_nil, or_false, forall_eq] at hsorted
      have hle := hsorted.1 other (.inl rfl)
      have hge := hsorted.2.1
      omega
    have hkept : [e, other, e].Sublist (errors.mergeSort startsNoLater) := hsub.trans dedupAdjacent_sublist
    have hfilter := hkept.filter fun a => a.order == e.order
    rw [filter_mergeSort_errors, List.filter_cons_of_pos (by simp), List.filter_cons_of_pos (by simp [horder]),
      List.filter_cons_of_pos (by simp), List.filter_nil] at hfilter
    exact hagain ⟨e, other, hne, horder, hfilter.trans List.filter_sublist⟩

end Sorting

/-! ### Documents -/

/-- **The errors of a document are in the order of their places,** and they are those that the rules find. None comes
twice exactly if none is found again after another one at the same place. -/
theorem validate_sorted (s : Schema) (d : Document) :
    ((validate s d).Pairwise fun e e' =>
      ∃ n n', e.nodes = [n] ∧ e'.nodes = [n'] ∧ n.highlight.start ≤ n'.highlight.start) ∧
    (∀ e, e ∈ validate s d ↔ e ∈ Validation.checkDocument s d) ∧
    ((validate s d).Nodup ↔ ¬ FoundAgain (Validation.checkDocument s d)) := by
  refine ⟨?_, fun e => mem_sortErrors_iff, nodup_sortErrors_iff⟩
  have hsaid : ∀ e ∈ validate s d, ∃ n, e.nodes = [n] := by
    intro e he
    obtain ⟨v, n, rfl, -⟩ := Validation.checkDocument_reports e (mem_sortErrors_iff.1 he)
    exact ⟨n, rfl⟩
  refine List.Pairwise.imp_of_mem (fun {e e'} he he' horder => ?_) pairwise_sortErrors
  obtain ⟨n, hn⟩ := hsaid e he
  obtain ⟨n', hn'⟩ := hsaid e' he'
  have hstart : n.highlight.start + 1 ≤ n'.highlight.start + 1 := by
    simpa only [ValidationError.order, hn, hn'] using horder
  exact ⟨n, n', hn, hn', Nat.le_of_succ_le_succ hstart⟩

/-- Two operations without a name share a fragment, and between them a named operation spreads it as well. What is
said of the variable in the fragment is said twice. -/
theorem not_nodup_of_shared_fragment : ∃ s d,
    Schema.ofSources [(none, "type Query { a(x: Int): Int }")] = .ok s ∧
      Document.parse "{ ...F } query Q { ...F } { ...F } fragment F on Query { a(x: $v) }".toList = .ok d ∧
      ¬ (validate s d).Nodup := by
  set said : Option String → ValidationError := fun operation =>
    (Violation.undefinedVariable "v" operation).on (.reference ⟨62, 64⟩ ⟨63, 64⟩) with hsaid
  have hfound : (do
      let s ← (Schema.ofSources [(none, "type Query { a(x: Int): Int }")]).toOption
      let d ← (Document.parse
        "{ ...F } query Q { ...F } { ...F } fragment F on Query { a(x: $v) }".toList).toOption
      return Validation.checkDocument s d) = some [said none, said (some "Q"), said none] := by
    decide +kernel
  obtain ⟨s, hs, hfound⟩ := Option.bind_eq_some_iff.1 hfound
  obtain ⟨d, hd, hfound⟩ := Option.bind_eq_some_iff.1 hfound
  refine ⟨s, d, eq_ok_of_toOption hs, eq_ok_of_toOption hd, ?_⟩
  rw [validate, Option.some.inj hfound, nodup_sortErrors_iff, not_not]
  exact ⟨said none, said (some "Q"), by decide +kernel, rfl, List.Sublist.refl _⟩

end QueryAid
