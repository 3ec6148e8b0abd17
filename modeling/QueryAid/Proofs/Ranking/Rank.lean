import QueryAid.Proofs.Ranking.Alignment
import QueryAid.Proofs.Text.LowerCase
import QueryAid.Ranking.Rank
import Mathlib.Data.List.Infix
/-!
# What ranking keeps and what it puts first

Texts are compared character by character: what is left of a character does not depend on its neighbours
(`normalizeText_eq_flatMap`), nor on the case of an ASCII letter (`normalizedChar_toLower`). Something is left of the
characters that are compared and of two more (`normalizedChar_eq_nil_iff`).

A candidate that goes on from what was typed is two halves away at most, since all but one of the characters that it has
more are made up for (`proximity_le_of_isPrefix`). One that is compared as what was typed is not away at all, and every
other one by two halves at least (`two_le_proximity_of_ne`). So the first kind is kept (`mem_rank_of_isPrefix`), and the
second one comes first (`pairwise_rank`).
-/

namespace QueryAid

/-! ### Texts as they are compared -/

/-- What is left of a character when texts are compared. -/
def normalizedChar (c : Char) : List Char := (lowerCaseFrom [] [c]).filter isRanked

/-- **A character is compared alike wherever it stands.** Only a capital sigma is put into lower case by its
neighbours, and neither of its lower cases is compared. -/
theorem filter_lowerCaseFrom (before cs : List Char) :
    (lowerCaseFrom before cs).filter isRanked = cs.flatMap normalizedChar := by
  induction cs generalizing before with
  | nil => rfl
  | cons c rest ih =>
    have hsigma : ∀ final : Bool, [if final then '\u03C2' else '\u03C3'].filter isRanked = [] := by decide
    rw [lowerCaseFrom, List.filter_append, ih, List.flatMap_cons]
    congr 1
    rw [normalizedChar, lowerCaseFrom, lowerCaseFrom, List.append_nil]
    by_cases hdotted : (c == '\u0130') = true
    · rw [if_pos hdotted, if_pos hdotted]
    · rw [if_neg hdotted, if_neg hdotted]
      by_cases hcapital : (c == '\u03A3') = true
      · rw [if_pos hcapital, if_pos hcapital, hsigma, hsigma]
      · rw [if_neg hcapital, if_neg hcapital]

theorem normalizeText_eq_flatMap (s : String) : normalizeText s = s.toList.flatMap normalizedChar :=
  filter_lowerCaseFrom [] s.toList

/-- **The case of an ASCII letter makes no difference.** -/
theorem normalizedChar_toLower (c : Char) : normalizedChar c.toLower = normalizedChar c := by
  by_cases hc : c.toNat < 128
  · exact forall_ascii (p := fun c => normalizedChar c.toLower = normalizedChar c) (by decide +kernel) hc
  · have hlower : c.toLower = c := by
      have hupper : ¬ (c.val ≥ 'A'.val ∧ c.val ≤ 'Z'.val) := by
        rintro ⟨-, hle⟩
        have hle : c.toNat ≤ 'Z'.toNat := hle
        have hZ : 'Z'.toNat = 90 := rfl
        omega
      exact dif_neg hupper
    rw [hlower]

theorem flatMap_normalizedChar_toLower (cs : List Char) :
    (cs.map Char.toLower).flatMap normalizedChar = cs.flatMap normalizedChar := by
  rw [List.flatMap_map]
  simp only [normalizedChar_toLower]

/-- A character that is compared is one of ASCII, where each range of them ends. -/
theorem isRanked_lt {c : Char} (h : isRanked c = true) : c.toNat < 128 := by
  have hbelow (last : Char) (hle : c.val ≤ last.val) (hlast : last.toNat < 128) : c.toNat < 128 :=
    Nat.lt_of_le_of_lt hle hlast
  unfold isRanked Char.isAlphanum Char.isAlpha Char.isUpper Char.isLower Char.isDigit at h
  simp only [Bool.or_eq_true, Bool.and_eq_true, decide_eq_true_eq] at h
  rcases h with ((⟨-, hle⟩ | ⟨-, hle⟩) | ⟨-, hle⟩) | hunderscore
  · exact hbelow 'Z' hle (by decide)
  · exact hbelow 'z' hle (by decide)
  · exact hbelow '9' hle (by decide)
  · rw [eq_of_beq hunderscore]
    decide

/-- Something is left of a letter, a digit and an underscore. -/
theorem normalizedChar_ne_nil {c : Char} (h : isRanked c = true) : normalizedChar c ≠ [] := by
  have hall : ∀ n < 128, isRanked (Char.ofNat n) = true → normalizedChar (Char.ofNat n) ≠ [] := by decide +kernel
  exact forall_ascii (p := fun c => isRanked c = true → normalizedChar c ≠ []) hall (isRanked_lt h) h

/-- The lower case of one character is compared if the character itself is. Of all others only the Kelvin sign has a
lower case that is compared. -/
theorem isRanked_lowerChar {c : Char} (h : isRanked (lowerChar c) = true) : isRanked c = true ∨ c = '\u212A' :=
  lowerChar_cases (p := fun c l => isRanked l = true → isRanked c = true ∨ c = '\u212A') (by decide +kernel)
    (fun _ hr _ _ hin htarget hl => .inr (eq_kelvin_of_target_lt hr hin htarget (isRanked_lt hl)).1)
    (fun _ _ => .inl) c h

/-- **What is left of a character when texts are compared.** Nothing is left of a character that is not compared, but for
the two whose lower case starts with a letter of ASCII: the Kelvin sign and the capital I with a dot above. -/
theorem normalizedChar_eq_nil_iff {c : Char} :
    normalizedChar c = [] ↔ isRanked c = false ∧ c ≠ '\u212A' ∧ c ≠ '\u0130' := by
  have hkelvin : normalizedChar '\u212A' ≠ [] := by decide +kernel
  have hdotted : normalizedChar '\u0130' ≠ [] := by decide +kernel
  constructor
  · intro h
    refine ⟨Bool.eq_false_of_not_eq_true fun hranked => normalizedChar_ne_nil hranked h, ?_, ?_⟩
    · rintro rfl
      exact hkelvin h
    · rintro rfl
      exact hdotted h
  · rintro ⟨hranked, hnotKelvin, hnotDotted⟩
    by_cases hsigma : c = '\u03A3'
    · rw [hsigma]
      decide
    · have hlower : normalizedChar c = [lowerChar c].filter isRanked := by
        rw [normalizedChar, lowerCaseFrom, if_neg (by simpa using hnotDotted), if_neg (by simpa using hsigma)]
        rfl
      have hnot : ¬ isRanked (lowerChar c) = true := fun h =>
        (isRanked_lowerChar h).elim (fun hc => Bool.false_ne_true (hranked.symm.trans hc)) hnotKelvin
      rw [hlower, List.filter_cons_of_neg hnot, List.filter_nil]

/-- White space is not compared. -/
theorem normalizedChar_of_isWhite {c : Char} (h : isWhite c = true) : normalizedChar c = [] := by
  have hall : ∀ r ∈ whiteSpaceRanges, ∀ k < r.2 - r.1 + 1, normalizedChar (Char.ofNat (r.1 + k)) = [] := by
    decide +kernel
  obtain ⟨r, hr, hc⟩ := List.any_eq_true.1 h
  rw [Bool.and_eq_true, decide_eq_true_eq, decide_eq_true_eq] at hc
  have hchar := hall r hr (c.toNat - r.1) (by omega)
  rwa [Nat.add_sub_cancel' hc.1, Char.ofNat_toNat] at hchar

theorem normalizeText_eq_nil_of_isBlank {s : String} (h : isBlank s.toList = true) : normalizeText s = [] := by
  rw [normalizeText_eq_flatMap, List.flatMap_eq_nil_iff]
  intro c hc
  exact normalizedChar_of_isWhite (List.all_eq_true.1 h c hc)

/-! ### How far candidates are -/

section Proximity

variable {suggestion text : List Char}

theorem proximity_self (text : List Char) : proximity text text = 0 := by
  have hdistance := editDistance_add_length_eq_iff.2 (List.Sublist.refl text)
  rw [proximity, if_neg (Nat.lt_irrefl _)]
  omega

/-- **A candidate that is compared as another text is two halves away at least.** -/
theorem two_le_proximity_of_ne (h : suggestion ≠ text) : 2 ≤ proximity suggestion text := by
  have hpos : editDistance text suggestion ≠ 0 := fun hzero => h (eq_of_editDistance_eq_zero hzero).symm
  have hlength := (length_le_editDistance_add text suggestion).2
  unfold proximity
  dsimp only
  split_ifs <;> omega

theorem proximity_eq_zero_iff : proximity suggestion text = 0 ↔ suggestion = text := by
  constructor
  · intro hzero
    by_contra hne
    have htwo := two_le_proximity_of_ne hne
    omega
  · rintro rfl
    exact proximity_self suggestion

/-- **A candidate that goes on from the text is two halves away at most.** -/
theorem proximity_le_of_isPrefix (h : text <+: suggestion) : proximity suggestion text ≤ 2 := by
  have hdistance := editDistance_add_length_eq_iff.2 h.sublist
  unfold proximity
  dsimp only
  rw [if_pos (List.isPrefixOf_iff_prefix.2 h)]
  split_ifs <;> omega

end Proximity

/-! ### The candidates that are kept -/

section Rank

variable {α : Type} {text : α → String} {candidates : List α} {typed : String}

namespace Scored

theorem le_iff {a b : Scored α} : a.le b = true ↔ a.score < b.score ∨ a.score = b.score ∧ a.length ≤ b.length := by
  simp [le]

theorem trans_le (a b c : Scored α) (hab : a.le b = true) (hbc : b.le c = true) : a.le c = true := by
  rw [le_iff] at hab hbc ⊢
  omega

theorem total_le (a b : Scored α) : (a.le b || b.le a) = true := by
  rw [Bool.or_eq_true, le_iff, le_iff]
  omega

end Scored

/-- How far a candidate is from what was typed. -/
def distanceFrom (text : α → String) (typed : String) (a : α) : Int :=
  proximity (normalizeText (text a)) (normalizeText typed)

/-- The candidates that are near enough, with their scores. -/
def nearCandidates (text : α → String) (candidates : List α) (typed : String) : List (Scored α) :=
  (candidates.map (Scored.of text (normalizeText typed))).filter fun c => c.score ≤ proximityLimit

/-- The candidates that are near enough, nearest first. -/
def nearestFirst (text : α → String) (candidates : List α) (typed : String) : List α :=
  ((nearCandidates text candidates typed).mergeSort Scored.le).map Scored.item

theorem mem_nearCandidates_iff {x : Scored α} : x ∈ nearCandidates text candidates typed ↔
    ∃ a ∈ candidates, distanceFrom text typed a ≤ proximityLimit ∧ Scored.of text (normalizeText typed) a = x := by
  rw [nearCandidates, List.mem_filter, List.mem_map, decide_eq_true_eq]
  constructor
  · rintro ⟨⟨a, ha, rfl⟩, hscore⟩
    exact ⟨a, ha, hscore, rfl⟩
  · rintro ⟨a, ha, hscore, rfl⟩
    exact ⟨⟨a, ha, rfl⟩, hscore⟩

theorem mem_nearestFirst_iff {a : α} : a ∈ nearestFirst text candidates typed ↔
    a ∈ candidates ∧ distanceFrom text typed a ≤ proximityLimit := by
  rw [nearestFirst, List.mem_map]
  constructor
  · rintro ⟨y, hy, rfl⟩
    obtain ⟨a, ha, hscore, rfl⟩ := mem_nearCandidates_iff.1 (List.mem_mergeSort.1 hy)
    exact ⟨ha, hscore⟩
  · rintro ⟨ha, hscore⟩
    exact ⟨_, List.mem_mergeSort.2 (mem_nearCandidates_iff.2 ⟨a, ha, hscore, rfl⟩), rfl⟩

theorem pairwise_nearestFirst (text : α → String) (candidates : List α) (typed : String) :
    (nearestFirst text candidates typed).Pairwise fun a b => distanceFrom text typed a ≤ distanceFrom text typed b := by
  have hsorted := List.pairwise_mergeSort Scored.trans_le Scored.total_le (nearCandidates text candidates typed)
  rw [nearestFirst, List.pairwise_map]
  refine hsorted.imp_of_mem fun {y z} hy hz hle => ?_
  obtain ⟨a, -, -, rfl⟩ := mem_nearCandidates_iff.1 (List.mem_mergeSort.1 hy)
  obtain ⟨b, -, -, rfl⟩ := mem_nearCandidates_iff.1 (List.mem_mergeSort.1 hz)
  rcases Scored.le_iff.1 hle with hlt | ⟨heq, -⟩
  · exact le_of_lt hlt
  · exact le_of_eq heq

/-- **What ranking gives:** all candidates as they are, if nothing was typed that counts or none is near enough, and
otherwise those that are near enough, nearest first. -/
theorem rank_cases (text : α → String) (candidates : List α) (typed : String) :
    (rank text candidates typed = candidates ∧
      (normalizeText typed = [] ∨ ∀ a ∈ candidates, proximityLimit < distanceFrom text typed a)) ∨
    rank text candidates typed = nearestFirst text candidates typed ∧
      normalizeText typed ≠ [] ∧ ∃ a ∈ candidates, distanceFrom text typed a ≤ proximityLimit := by
  by_cases hempty : (normalizeText typed).isEmpty = true
  · have hall : rank text candidates typed = candidates := if_pos hempty
    exact .inl ⟨hall, .inl (List.isEmpty_iff.1 hempty)⟩
  · cases hnear : nearCandidates text candidates typed with
    | nil =>
      have hall : rank text candidates typed = candidates := by
        rw [nearCandidates] at hnear
        rw [rank, if_neg hempty, hnear]
      refine .inl ⟨hall, .inr fun a ha => ?_⟩
      by_contra hnot
      have hmem := mem_nearCandidates_iff.2 ⟨a, ha, not_lt.1 hnot, rfl⟩
      rw [hnear] at hmem
      exact List.not_mem_nil hmem
    | cons x rest =>
      have hmem : x ∈ nearCandidates text candidates typed := hnear ▸ List.mem_cons_self
      obtain ⟨a, ha, hscore, -⟩ := mem_nearCandidates_iff.1 hmem
      refine .inr ⟨?_, mt List.isEmpty_iff.2 hempty, a, ha, hscore⟩
      rw [nearestFirst, hnear]
      rw [nearCandidates] at hnear
      rw [rank, if_neg hempty, hnear]

/-- **A candidate that goes on from what was typed is kept.** -/
theorem mem_rank_of_isPrefix {a : α} (ha : a ∈ candidates)
    (hbegins : normalizeText typed <+: normalizeText (text a)) : a ∈ rank text candidates typed := by
  rcases rank_cases text candidates typed with ⟨hall, -⟩ | ⟨hnearest, -⟩
  · rw [hall]
    exact ha
  · have htwo : distanceFrom text typed a ≤ 2 := proximity_le_of_isPrefix hbegins
    have hlimit : (2 : Int) ≤ proximityLimit := by decide
    rw [hnearest]
    exact mem_nearestFirst_iff.2 ⟨ha, htwo.trans hlimit⟩

/-- **Candidates that are compared as what was typed come before all others,** if something is left of each candidate
when texts are compared. -/
theorem pairwise_rank (h : ∀ a ∈ candidates, normalizeText (text a) ≠ []) :
    (rank text candidates typed).Pairwise fun a b =>
      normalizeText (text b) = normalizeText typed → normalizeText (text a) = normalizeText typed := by
  rcases rank_cases text candidates typed with ⟨hall, hnone⟩ | ⟨hnearest, -⟩
  · rw [hall]
    -- No candidate is compared as what was typed: it would be near enough.
    refine List.pairwise_of_forall_mem_list fun a _ b hb hsame => ?_
    rcases hnone with hempty | hfar
    · exact absurd (hsame.trans hempty) (h b hb)
    · have hzero : distanceFrom text typed b = 0 := proximity_eq_zero_iff.2 hsame
      have hlimit : (0 : Int) ≤ proximityLimit := by decide
      have hlt := hfar b hb
      omega
  · rw [hnearest]
    refine (pairwise_nearestFirst text candidates typed).imp fun {a b} hle hsame => ?_
    have hzero : distanceFrom text typed b = 0 := proximity_eq_zero_iff.2 hsame
    by_contra hne
    have htwo : 2 ≤ distanceFrom text typed a := two_le_proximity_of_ne hne
    omega

end Rank

end QueryAid
