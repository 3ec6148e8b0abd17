import QueryAid.Proofs.Editor.CheckedRun
import QueryAid.Proofs.StableSorting
/-!
# Ranking by places

`rankChecked` scores the candidates at their places, sorts the places, and then takes the candidates out of a list, one
after the other. What comes out of this is described without any of these steps by `IsRanking`: the candidates that are
near enough, each with its place, so that equal candidates are told apart, in the order in which each of them precedes
all that follow it. `rankChecked_eq_ok_iff` says that this is what ranking gives.

* `nearInOrder_nearestFirst`: candidates that are sorted with their places are in this order, since sorting keeps the
  order of tied ones.
* `NearInOrder.unique`: there is only one such order.
* `nearestFirst_nearestFirst`: what is in order is left as it is.
-/

namespace QueryAid

variable {α : Type} {text : α → String} {candidates : List α} {typed : String}

/-! ### What it means -/

/-- **A candidate precedes another one,** each of them with its place: it is nearer to what was typed, or as near with a
shorter text, or equal in both and at an earlier place. -/
def Precedes (text : α → String) (typed : String) (x y : α × Nat) : Prop :=
  distanceFrom text typed x.1 < distanceFrom text typed y.1 ∨ distanceFrom text typed x.1 = distanceFrom text typed y.1 ∧
    ((text x.1).length < (text y.1).length ∨ (text x.1).length = (text y.1).length ∧ x.2 < y.2)

/-- **The near candidates in order,** each with its place. -/
structure NearInOrder (text : α → String) (candidates : List α) (typed : String) (placed : List (α × Nat)) : Prop where
  mem_iff : ∀ x, x ∈ placed ↔ candidates[x.2]? = some x.1 ∧ distanceFrom text typed x.1 ≤ proximityLimit
  ordered : placed.Pairwise (Precedes text typed)

/-- **What a ranking of candidates is:** all of them as they are, if nothing was typed that counts or none is near
enough, and otherwise the near ones in order. -/
def IsRanking (text : α → String) (candidates : List α) (typed : String) (ranked : List α) : Prop :=
  if normalizeText typed = [] ∨ ∀ a ∈ candidates, proximityLimit < distanceFrom text typed a then ranked = candidates
  else ∃ placed, NearInOrder text candidates typed placed ∧ ranked = placed.map Prod.fst

/-! ### There is one order -/

theorem Precedes.irrefl (x : α × Nat) : ¬ Precedes text typed x x := by
  unfold Precedes
  omega

theorem Precedes.asymm {x y : α × Nat} (h : Precedes text typed x y) : ¬ Precedes text typed y x := by
  unfold Precedes at h ⊢
  omega

/-- No place comes twice. -/
theorem NearInOrder.nodup {placed : List (α × Nat)} (h : NearInOrder text candidates typed placed) : placed.Nodup := by
  refine List.Pairwise.imp (fun {x y} hprecedes heq => ?_) h.ordered
  exact Precedes.irrefl y (heq ▸ hprecedes)

/-- **There is only one order of the near candidates.** -/
theorem NearInOrder.unique {placed placed' : List (α × Nat)} (h : NearInOrder text candidates typed placed)
    (h' : NearInOrder text candidates typed placed') : placed = placed' := by
  have hperm : placed.Perm placed' :=
    (List.perm_ext_iff_of_nodup h.nodup h'.nodup).2 fun x => (h.mem_iff x).trans (h'.mem_iff x).symm
  exact hperm.eq_of_pairwise (fun x y _ _ hxy hyx => absurd hyx hxy.asymm) h.ordered h'.ordered

theorem IsRanking.unique {ranked ranked' : List α} (h : IsRanking text candidates typed ranked)
    (h' : IsRanking text candidates typed ranked') : ranked = ranked' := by
  unfold IsRanking at h h'
  split_ifs at h h' with hall
  · exact h.trans h'.symm
  · obtain ⟨placed, hplaced, rfl⟩ := h
    obtain ⟨placed', hplaced', rfl⟩ := h'
    rw [hplaced.unique hplaced']

/-! ### Candidates sorted with their places -/

/-- The places of the near candidates are gone through from the first to the last. -/
theorem pairwise_nearCandidates_zipIdx (text : α → String) (candidates : List α) (typed : String) :
    (nearCandidates (text ∘ Prod.fst) candidates.zipIdx typed).Pairwise fun c d => c.item.2 < d.item.2 := by
  have hplaces : candidates.zipIdx.Pairwise fun x y => x.2 < y.2 := by
    refine List.pairwise_map.1 ?_
    rw [List.zipIdx_map_snd]
    exact List.pairwise_lt_range'
  have hscored : (candidates.zipIdx.map (Scored.of (text ∘ Prod.fst) (normalizeText typed))).Pairwise
      fun c d => c.item.2 < d.item.2 := List.pairwise_map.2 hplaces
  exact hscored.filter _

/-- Sorting scored candidates, with their places deciding about tied ones, makes them precede each other. -/
theorem precedes_of_le {x y : α × Nat}
    (hle : (Scored.of (text ∘ Prod.fst) (normalizeText typed) x).le (.of (text ∘ Prod.fst) (normalizeText typed) y) = true)
    (htied : (Scored.of (text ∘ Prod.fst) (normalizeText typed) y).le
      (.of (text ∘ Prod.fst) (normalizeText typed) x) = true → x.2 < y.2) : Precedes text typed x y := by
  have hle_iff (z w : α × Nat) : (Scored.of (text ∘ Prod.fst) (normalizeText typed) z).le
      (.of (text ∘ Prod.fst) (normalizeText typed) w) = true ↔
        distanceFrom text typed z.1 < distanceFrom text typed w.1 ∨
          distanceFrom text typed z.1 = distanceFrom text typed w.1 ∧ (text z.1).length ≤ (text w.1).length :=
    Scored.le_iff
  rw [hle_iff] at hle htied
  unfold Precedes
  omega

/-- **Sorting puts the near candidates in order.** -/
theorem nearInOrder_nearestFirst (text : α → String) (candidates : List α) (typed : String) :
    NearInOrder text candidates typed (nearestFirst (text ∘ Prod.fst) candidates.zipIdx typed) where
  mem_iff x := by
    rw [mem_nearestFirst_iff, List.mem_zipIdx_iff_getElem?]
    rfl
  ordered := by
    have hsorted := pairwise_mergeSort_of_pairwise Scored.trans_le Scored.total_le
      (pairwise_nearCandidates_zipIdx text candidates typed)
    rw [nearestFirst, List.pairwise_map]
    refine hsorted.imp_of_mem fun {c d} hc hd hle => ?_
    obtain ⟨x, -, -, rfl⟩ := mem_nearCandidates_iff.1 (List.mem_mergeSort.1 hc)
    obtain ⟨y, -, -, rfl⟩ := mem_nearCandidates_iff.1 (List.mem_mergeSort.1 hd)
    exact precedes_of_le hle.1 hle.2

/-- Without their places, these are the near candidates, nearest first. -/
theorem map_fst_nearestFirst_zipIdx :
    (nearestFirst (text ∘ Prod.fst) candidates.zipIdx typed).map Prod.fst = nearestFirst text candidates typed := by
  have hplaces : nearCandidates (text ∘ Prod.fst) candidates.zipIdx typed = nearPlaces text candidates typed := rfl
  rw [nearestFirst, nearestFirst, ← Scored.mergeSort_map, hplaces, map_fst_nearPlaces]

/-- **What ranking gives is a ranking.** -/
theorem isRanking_rank (text : α → String) (candidates : List α) (typed : String) :
    IsRanking text candidates typed (rank text candidates typed) := by
  unfold IsRanking
  rcases rank_cases text candidates typed with ⟨hall, hnone⟩ | ⟨hnearest, hne, a, ha, hnear⟩
  · rw [if_pos hnone]
    exact hall
  · have hsome : ¬ (normalizeText typed = [] ∨ ∀ a ∈ candidates, proximityLimit < distanceFrom text typed a) := by
      rintro (hempty | hfar)
      · exact hne hempty
      · exact absurd (hfar a ha) (Int.not_lt.2 hnear)
    rw [if_neg hsome, hnearest, ← map_fst_nearestFirst_zipIdx]
    exact ⟨_, nearInOrder_nearestFirst text candidates typed, rfl⟩

/-! ### Ranking again -/

/-- **What is in order is left as it is.** -/
theorem nearestFirst_nearestFirst :
    nearestFirst text (nearestFirst text candidates typed) typed = nearestFirst text candidates typed := by
  let sorted := (nearCandidates text candidates typed).mergeSort Scored.le
  have hmem : ∀ c ∈ sorted, ∃ a ∈ candidates, distanceFrom text typed a ≤ proximityLimit ∧
      Scored.of text (normalizeText typed) a = c :=
    fun c hc => mem_nearCandidates_iff.1 (List.mem_mergeSort.1 hc)
  -- A distance does not depend on what else is ranked, so that each candidate is scored as before.
  have hscored : (sorted.map Scored.item).map (Scored.of text (normalizeText typed)) = sorted := by
    have hof : ∀ c ∈ sorted, Scored.of text (normalizeText typed) c.item = c := by
      intro c hc
      obtain ⟨a, -, -, rfl⟩ := hmem c hc
      rfl
    rw [List.map_map]
    exact (List.map_congr_left hof).trans (List.map_id' sorted)
  have hnear : nearCandidates text (nearestFirst text candidates typed) typed = sorted := by
    rw [nearCandidates, nearestFirst, hscored, List.filter_eq_self]
    intro c hc
    obtain ⟨a, -, hle, rfl⟩ := hmem c hc
    exact decide_eq_true hle
  have hsorted := List.pairwise_mergeSort Scored.trans_le Scored.total_le (nearCandidates text candidates typed)
  rw [nearestFirst, hnear, List.mergeSort_of_pairwise hsorted]
  rfl

theorem rank_rank (text : α → String) (candidates : List α) (typed : String) :
    rank text (rank text candidates typed) typed = rank text candidates typed := by
  rcases rank_cases text candidates typed with ⟨hall, -⟩ | ⟨hnearest, -⟩
  · rw [hall, hall]
  · rw [hnearest]
    rcases rank_cases text (nearestFirst text candidates typed) typed with ⟨hall, -⟩ | ⟨hagain, -⟩
    · exact hall
    · rw [hagain, nearestFirst_nearestFirst]

/-! ### All together -/

/-- **Ranking gives the one ranking there is.** It does so by sorting places and taking the candidates at them, finds
a candidate at each of these places, and changes nothing when it is done again. -/
theorem rankChecked_eq_ok_iff (text : α → String) (candidates : List α) (typed : String) :
    (∀ ranked, rankChecked text candidates typed = .ok ranked ↔ IsRanking text candidates typed ranked) ∧
    rankChecked text candidates typed = .ok (rank text candidates typed) ∧
    rank text (rank text candidates typed) typed = rank text candidates typed := by
  refine ⟨fun ranked => ?_, rankChecked_eq text candidates typed, rank_rank text candidates typed⟩
  rw [rankChecked_eq, Except.ok.injEq]
  constructor
  · rintro rfl
    exact isRanking_rank text candidates typed
  · exact (isRanking_rank text candidates typed).unique

end QueryAid
