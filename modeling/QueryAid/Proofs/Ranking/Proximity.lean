import QueryAid.Proofs.Ranking.Alignment
import QueryAid.Proofs.Ranking.Rank
/-!
# What a proximity says

Proximities are counted in halves. Of a suggestion that is not longer than the text, the proximity is the edit distance.
Of a longer one it tells three kinds apart (`Gauges`): suggestions that the text begins, at two halves, others that the
text is left of when characters are struck out, at three, and the rest, at five or more. So the limit of four halves
keeps the first two kinds of longer candidates and no other ones, however long they are (`distanceFrom_le_iff_sublist`).
-/

namespace QueryAid

variable {suggestion text : List Char}

/-- **What the proximity of a suggestion to a text says,** in halves. -/
structure Gauges (suggestion text : List Char) : Prop where
  /-- The distance that it is calculated from is the least number of edits. -/
  least : IsLeast {n | Aligned text suggestion n} (editDistance text suggestion)
  nonneg : 0 ≤ proximity suggestion text
  /-- Of a suggestion that is not longer, it is the distance. -/
  of_length_le : suggestion.length ≤ text.length →
    proximity suggestion text = 2 * editDistance text suggestion ∧ (proximity suggestion text = 0 ↔ suggestion = text)
  /-- Of a longer suggestion, it says whether the text begins it, or else is left of it, or neither. -/
  of_length_lt : text.length < suggestion.length →
    2 ≤ proximity suggestion text ∧ (proximity suggestion text = 2 ↔ text <+: suggestion) ∧
      (proximity suggestion text = 3 ↔ text.Sublist suggestion ∧ ¬ text <+: suggestion) ∧
      (¬ text.Sublist suggestion → 5 ≤ proximity suggestion text)

/-! ### Suggestions that are not longer -/

theorem proximity_of_length_le (h : suggestion.length ≤ text.length) :
    proximity suggestion text = 2 * editDistance text suggestion :=
  if_neg (Nat.not_lt.2 h)

/-! ### Longer suggestions -/

theorem proximity_of_isPrefix (hlonger : text.length < suggestion.length) (h : text <+: suggestion) :
    proximity suggestion text = 2 := by
  have hdistance := editDistance_add_length_eq_iff.2 h.sublist
  rw [proximity, if_pos hlonger, if_pos (List.isPrefixOf_iff_prefix.2 h)]
  omega

/-- A suggestion that the text does not begin is half a point farther away than its distance says. -/
theorem proximity_of_not_isPrefix (hlonger : text.length < suggestion.length) (h : ¬ text <+: suggestion) :
    proximity suggestion text = 2 * (editDistance text suggestion + text.length - suggestion.length : Int) + 3 := by
  have hnot : ¬ text.isPrefixOf suggestion = true := fun hbegins => h (List.isPrefixOf_iff_prefix.1 hbegins)
  rw [proximity, if_pos hlonger, if_neg hnot]
  omega

theorem proximity_of_sublist (hlonger : text.length < suggestion.length) (h : text.Sublist suggestion)
    (hnot : ¬ text <+: suggestion) : proximity suggestion text = 3 := by
  have hdistance := editDistance_add_length_eq_iff.2 h
  rw [proximity_of_not_isPrefix hlonger hnot]
  omega

example : proximity "article".toList "rtcle".toList = 3 := by decide

/-- **What is not left of a suggestion is five halves away from it at least.** -/
theorem five_le_proximity (hlonger : text.length < suggestion.length) (h : ¬ text.Sublist suggestion) :
    5 ≤ proximity suggestion text := by
  have hdistance : editDistance text suggestion + text.length ≠ suggestion.length :=
    fun heq => h (editDistance_add_length_eq_iff.1 heq)
  have hbound := (length_le_editDistance_add text suggestion).2
  rw [proximity_of_not_isPrefix hlonger fun hbegins => h hbegins.sublist]
  omega

/-! ### All suggestions -/

theorem gauges (suggestion text : List Char) : Gauges suggestion text where
  least := isLeast_editDistance text suggestion
  nonneg := by
    by_cases heq : suggestion = text
    · exact (proximity_eq_zero_iff.2 heq).ge
    · exact (by decide : (0 : Int) ≤ 2).trans (two_le_proximity_of_ne heq)
  of_length_le h := ⟨proximity_of_length_le h, proximity_eq_zero_iff⟩
  of_length_lt h := by
    by_cases hbegins : text <+: suggestion
    · have htwo := proximity_of_isPrefix h hbegins
      have hsub := hbegins.sublist
      simp [htwo, hbegins, hsub]
    · by_cases hsub : text.Sublist suggestion
      · have hthree := proximity_of_sublist h hsub hbegins
        simp [hthree, hbegins, hsub]
      · have hfive := five_le_proximity h hsub
        refine ⟨by omega, ?_, ?_, fun _ => hfive⟩
        · simp only [hbegins, iff_false]
          omega
        · simp only [hsub, false_and, iff_false]
          omega

/-! ### What is kept -/

section Rank

variable {α : Type} {text : α → String} {candidates : List α} {typed : String} {a : α}

/-- **If something is near enough, the candidates that are near enough are kept,** and no others. -/
theorem mem_rank_iff (hne : normalizeText typed ≠ [])
    (hnear : ∃ a ∈ candidates, distanceFrom text typed a ≤ proximityLimit) :
    a ∈ rank text candidates typed ↔ a ∈ candidates ∧ distanceFrom text typed a ≤ proximityLimit := by
  rcases rank_cases text candidates typed with ⟨-, hempty | hfar⟩ | ⟨hnearest, -⟩
  · exact absurd hempty hne
  · obtain ⟨b, hb, hle⟩ := hnear
    exact absurd (hfar b hb) (Int.not_lt.2 hle)
  · rw [hnearest, mem_nearestFirst_iff]

/-- A longer candidate is near enough exactly if the text is left of it. -/
theorem distanceFrom_le_iff_sublist (h : (normalizeText typed).length < (normalizeText (text a)).length) :
    distanceFrom text typed a ≤ proximityLimit ↔ (normalizeText typed).Sublist (normalizeText (text a)) := by
  unfold distanceFrom proximityLimit
  constructor
  · intro hle
    by_contra hnot
    have hfive := five_le_proximity h hnot
    omega
  · intro hsub
    by_cases hbegins : normalizeText typed <+: normalizeText (text a)
    · rw [proximity_of_isPrefix h hbegins]
      decide
    · rw [proximity_of_sublist h hsub hbegins]
      decide

/-- Any other candidate is near enough exactly if it is at most two edits away. -/
theorem distanceFrom_le_iff_editDistance_le (h : (normalizeText (text a)).length ≤ (normalizeText typed).length) :
    distanceFrom text typed a ≤ proximityLimit ↔ editDistance (normalizeText typed) (normalizeText (text a)) ≤ 2 := by
  rw [distanceFrom, proximity_of_length_le h, proximityLimit]
  omega

end Rank

/-- **Proximities tell the kinds of suggestions apart,** and if something is near enough, a longer candidate is kept
exactly if the text is left of it, and any other one exactly if it is at most two edits away. -/
theorem gauges_and_mem_rank_iff : (∀ suggestion text, Gauges suggestion text) ∧
    ∀ {α : Type} (text : α → String) (candidates : List α) (typed : String), normalizeText typed ≠ [] →
      (∃ a ∈ candidates, distanceFrom text typed a ≤ proximityLimit) → ∀ a ∈ candidates,
        ((normalizeText typed).length < (normalizeText (text a)).length →
          (a ∈ rank text candidates typed ↔ (normalizeText typed).Sublist (normalizeText (text a)))) ∧
        ((normalizeText (text a)).length ≤ (normalizeText typed).length →
          (a ∈ rank text candidates typed ↔ editDistance (normalizeText typed) (normalizeText (text a)) ≤ 2)) := by
  refine ⟨gauges, fun text candidates typed hne hnear a ha => ⟨fun hlonger => ?_, fun hle => ?_⟩⟩
  · rw [mem_rank_iff hne hnear, and_iff_right ha, distanceFrom_le_iff_sublist hlonger]
  · rw [mem_rank_iff hne hnear, and_iff_right ha, distanceFrom_le_iff_editDistance_le hle]

/-- Of two longer candidates, one has the letters of what was typed in their order and one has not; a third one has them
exchanged. -/
theorem mem_rank_of_scattered_letters :
    normalizeText "T-es" ≠ [] ∧
    (∃ a ∈ ["title_set", "bodies", "ets"], distanceFrom id "T-es" a ≤ proximityLimit) ∧
    Gauges "title_set".toList "tes".toList ∧ "title_set" ∈ rank id ["title_set", "bodies", "ets"] "T-es" ∧
    "bodies" ∉ rank id ["title_set", "bodies", "ets"] "T-es" ∧ "ets" ∈ rank id ["title_set", "bodies", "ets"] "T-es" := by
  have hne : normalizeText "T-es" ≠ [] := by decide +kernel
  have hnear : ∃ a ∈ ["title_set", "bodies", "ets"], distanceFrom id "T-es" a ≤ proximityLimit :=
    ⟨"ets", by simp, by decide +kernel⟩
  obtain ⟨hgauges, hkept⟩ := gauges_and_mem_rank_iff
  have hkept := hkept id _ "T-es" hne hnear
  have htitle := (hkept "title_set" (by simp)).1 (by decide +kernel)
  have hbodies := (hkept "bodies" (by simp)).1 (by decide +kernel)
  have hets := (hkept "ets" (by simp)).2 (by decide +kernel)
  exact ⟨hne, hnear, hgauges _ _, htitle.2 (by decide +kernel), mt hbodies.1 (by decide +kernel),
    hets.2 (by decide +kernel)⟩

end QueryAid
