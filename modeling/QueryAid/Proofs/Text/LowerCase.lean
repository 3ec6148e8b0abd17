import QueryAid.Proofs.Text.WhiteSpace
import QueryAid.Text.LowerCase
/-!
# What lower case keeps

The lower case of most characters is found in a table, so that what holds of ASCII and of the runs of the table holds of
every character (`lowerChar_cases`). Two characters depend on more, and what they become is written out (`lowerAt`).

A text in lower case stays as it is when it is put into lower case again (`lowerCase_lowerCase`), since none of its
characters is one that changes. White space and points have no case, and nothing else becomes one of them, so that they
stand at the ends of a text in lower case exactly where they stand in the text (`Caseless`).
-/

namespace QueryAid

variable {before cs rest : List Char} {c x : Char} {q : Char → Bool}

/-! ### One character -/

/-- What holds of all ASCII characters holds of a character of the first 128 code points. -/
theorem forall_ascii {p : Char → Prop} (h : ∀ n < 128, p (Char.ofNat n)) {c : Char} (hc : c.toNat < 128) : p c := by
  have hp := h c.toNat hc
  rwa [Char.ofNat_toNat] at hp

/-- Whether a code point is in a run of characters that have a lower case: the first one of them, the last one, the step
from one to the next, and how far their lower cases are away. -/
def InRun (r : Nat × Nat × Nat × Int) (n : Nat) : Prop := r.1 ≤ n ∧ n ≤ r.2.1 ∧ (n - r.1) % r.2.2.1 = 0

instance (r : Nat × Nat × Nat × Int) (n : Nat) : Decidable (InRun r n) := inferInstanceAs (Decidable (_ ∧ _ ∧ _))

/-- The lower case of the first character of a run. -/
def firstTarget (r : Nat × Nat × Nat × Int) : Nat := (r.1 + r.2.2.2).toNat

/-- The lower case of the last character of a run. -/
def lastTarget (r : Nat × Nat × Nat × Int) : Nat := (r.2.1 + r.2.2.2).toNat

/-- **The lower cases of a run are characters.** They are beyond ASCII, unless the run is the Kelvin sign. -/
def LeadsToCharacters (r : Nat × Nat × Nat × Int) : Prop :=
  0 ≤ (r.1 : Int) + r.2.2.2 ∧ (lastTarget r < 0xD800 ∨ 0xDFFF < firstTarget r ∧ lastTarget r < 0x110000) ∧
    (128 ≤ firstTarget r ∨ r = (0x212A, 0x212A, 1, -8383))

instance (r : Nat × Nat × Nat × Int) : Decidable (LeadsToCharacters r) := inferInstanceAs (Decidable (_ ∧ _ ∧ _))

theorem leadsToCharacters_of_mem {r : Nat × Nat × Nat × Int} (hr : r ∈ lowerCaseRuns) : LeadsToCharacters r := by
  have hall : ∀ r ∈ lowerCaseRuns, LeadsToCharacters r := by decide +kernel
  exact hall r hr

/-- Of the characters of the runs, only the Kelvin sign has a lower case in ASCII. -/
theorem eq_kelvin_of_target_lt {r : Nat × Nat × Nat × Int} {c l : Char} (hr : r ∈ lowerCaseRuns)
    (hin : InRun r c.toNat) (htarget : (l.toNat : Int) = c.toNat + r.2.2.2) (hl : l.toNat < 128) :
    c = '\u212A' ∧ l = 'k' := by
  obtain ⟨hfirst, hlast, -⟩ := hin
  obtain ⟨hpos, -, hbeyond | rfl⟩ := leadsToCharacters_of_mem hr
  · unfold firstTarget at hbeyond
    omega
  · simp only at hfirst hlast htarget
    have hc : c.toNat = 0x212A := by omega
    have hk : l.toNat = 107 := by omega
    exact ⟨Char.toNat_inj.1 hc, Char.toNat_inj.1 hk⟩

/-- **A character and its lower case** are both of ASCII, or as far from each other as a run of the table says, or the
same. -/
theorem lowerChar_cases {p : Char → Char → Prop} (hascii : ∀ n < 128, p (Char.ofNat n) (Char.ofNat n).toLower)
    (hruns : ∀ r ∈ lowerCaseRuns, ∀ c l : Char, InRun r c.toNat → (l.toNat : Int) = c.toNat + r.2.2.2 → p c l)
    (hself : ∀ c, lowerChar c = c → p c c) (c : Char) : p c (lowerChar c) := by
  by_cases hc : c.toNat < 128
  · rw [lowerChar, if_pos hc]
    exact forall_ascii (p := fun c => p c c.toLower) hascii hc
  · have hlower := lowerChar.eq_1 c
    rw [if_neg hc] at hlower
    split at hlower
    · next r hr =>
      have hin := List.find?_some hr
      simp only [Bool.and_eq_true, decide_eq_true_eq, beq_iff_eq] at hin
      have hmem : r ∈ lowerCaseRuns := List.mem_of_find?_eq_some hr
      obtain ⟨hpos, hvalid, -⟩ := leadsToCharacters_of_mem hmem
      unfold firstTarget lastTarget at hvalid
      have hchar : ((c.toNat : Int) + r.2.2.2).toNat.isValidChar := by
        unfold Nat.isValidChar
        omega
      refine hruns r hmem c (lowerChar c) ⟨hin.1.1, hin.1.2, hin.2⟩ ?_
      have htarget : (lowerChar c).toNat = ((c.toNat : Int) + r.2.2.2).toNat := by
        rw [hlower, Char.ofNat, dif_pos hchar]; rfl
      omega
    · rw [hlower]
      exact hself c hlower

/-! ### Characters that stay as they are -/

/-- Whether a character is the same in lower case wherever it stands. -/
def StaysLower (c : Char) : Prop := c ≠ '\u0130' ∧ c ≠ '\u03A3' ∧ lowerChar c = c

instance (c : Char) : Decidable (StaysLower c) := inferInstanceAs (Decidable (_ ∧ _ ∧ _))

/-- Whether a run goes past the lower cases of another one: it is before or behind them, or every second character of
both is passed over by the other. -/
def passes (lo hi step : Nat) (r : Nat × Nat × Nat × Int) : Bool :=
  Nat.blt hi r.1 || Nat.blt r.2.1 lo || (step == 2 || lo == hi) && r.2.2.1 == 2 && (lo - r.1) % 2 == 1

theorem not_inRun_of_passes {lo hi step n : Nat} {r : Nat × Nat × Nat × Int} (h : passes lo hi step r = true)
    (hlo : lo ≤ n) (hhi : n ≤ hi) (hstep : (n - lo) % step = 0) : ¬ InRun r n := by
  rintro ⟨hfirst, hlast, hrun⟩
  unfold passes at h
  simp only [Bool.or_eq_true, Bool.and_eq_true, Nat.blt_eq, beq_iff_eq] at h
  rcases h with (hbehind | hbefore) | ⟨⟨hevery, htwo⟩, hodd⟩
  · omega
  · omega
  · rw [htwo] at hrun
    rcases hevery with rfl | rfl
    · omega
    · omega

/-- No lower case has a lower case itself, and none is one of the two characters that are not looked up. -/
theorem passes_of_mem_runs {r r' : Nat × Nat × Nat × Int} (hr : r ∈ lowerCaseRuns)
    (hr' : r' ∈ (0x130, 0x130, 1, 0) :: (0x3A3, 0x3A3, 1, 0) :: lowerCaseRuns) :
    passes (firstTarget r) (lastTarget r) r.2.2.1 r' = true := by
  have hall : (lowerCaseRuns.all fun r =>
      ((0x130, 0x130, 1, 0) :: (0x3A3, 0x3A3, 1, 0) :: lowerCaseRuns).all
        (passes (firstTarget r) (lastTarget r) r.2.2.1)) = true := by decide +kernel
  exact List.all_eq_true.1 (List.all_eq_true.1 hall r hr) r' hr'

/-- What is in no run stays as it is. -/
theorem lowerChar_eq_self (hc : ¬ c.toNat < 128) (h : ∀ r ∈ lowerCaseRuns, ¬ InRun r c.toNat) : lowerChar c = c := by
  have hnone : (lowerCaseRuns.find? fun r =>
      r.1 ≤ c.toNat && c.toNat ≤ r.2.1 && (c.toNat - r.1) % r.2.2.1 == 0) = none := by
    refine List.find?_eq_none.2 fun r hr hin => h r hr ?_
    simp only [Bool.and_eq_true, decide_eq_true_eq, beq_iff_eq] at hin
    exact ⟨hin.1.1, hin.1.2, hin.2⟩
  rw [lowerChar, if_neg hc, hnone]

/-- **What the table gives for a character stays as it is.** -/
theorem staysLower_lowerChar (hdotted : c ≠ '\u0130') (hsigma : c ≠ '\u03A3') : StaysLower (lowerChar c) := by
  refine lowerChar_cases (p := fun c l => c ≠ '\u0130' → c ≠ '\u03A3' → StaysLower l) (by decide +kernel) ?_
    (fun _ hself hdotted hsigma => ⟨hdotted, hsigma, hself⟩) c hdotted hsigma
  intro r hr c l hin htarget _ _
  by_cases hl : l.toNat < 128
  · rw [(eq_kelvin_of_target_lt hr hin htarget hl).2]
    decide +kernel
  · have hpast : ∀ r' ∈ (0x130, 0x130, 1, 0) :: (0x3A3, 0x3A3, 1, 0) :: lowerCaseRuns, ¬ InRun r' l.toNat := by
      intro r' hr'
      obtain ⟨hpos, -⟩ := leadsToCharacters_of_mem hr
      obtain ⟨hfirst, hlast, hstep⟩ := hin
      have hoff : l.toNat - firstTarget r = c.toNat - r.1 := by unfold firstTarget; omega
      refine not_inRun_of_passes (passes_of_mem_runs hr hr') ?_ ?_ (hoff ▸ hstep)
      · unfold firstTarget; omega
      · unfold lastTarget; omega
    refine ⟨?_, ?_, lowerChar_eq_self hl fun r' hr' => hpast r' (by simp [hr'])⟩
    · rintro rfl
      exact hpast (0x130, 0x130, 1, 0) (by simp) (by decide)
    · rintro rfl
      exact hpast (0x3A3, 0x3A3, 1, 0) (by simp) (by decide)

/-! ### A character between others -/

/-- The lower case of a character, with the text before it, nearest character first, and the text behind it. -/
def lowerAt (before : List Char) (c : Char) (rest : List Char) : List Char :=
  if c == '\u0130' then ['i', '\u0307']
  else if c == '\u03A3' then [if startsCased before && !startsCased rest then '\u03C2' else '\u03C3']
  else [lowerChar c]

theorem lowerCaseFrom_cons (before : List Char) (c : Char) (rest : List Char) :
    lowerCaseFrom before (c :: rest) = lowerAt before c rest ++ lowerCaseFrom (c :: before) rest := rfl

theorem lowerAt_ne_nil (before : List Char) (c : Char) (rest : List Char) : lowerAt before c rest ≠ [] := by
  unfold lowerAt
  split
  · nofun
  · split <;> nofun

/-- **What a character becomes** is found in the table, but for the capital I with a dot above and the capital sigma. -/
theorem forall_mem_lowerAt {p : Char → Char → Prop} (hi : p '\u0130' 'i') (hdot : p '\u0130' '\u0307')
    (hfinal : p '\u03A3' '\u03C2') (hinner : p '\u03A3' '\u03C3')
    (htable : ∀ c, c ≠ '\u0130' → c ≠ '\u03A3' → p c (lowerChar c)) (hx : x ∈ lowerAt before c rest) : p c x := by
  unfold lowerAt at hx
  split at hx
  · next hc =>
    rw [eq_of_beq hc]
    rcases List.mem_cons.1 hx with rfl | hx
    · exact hi
    · rwa [List.mem_singleton.1 hx]
  · next hdotted =>
    split at hx
    · next hc =>
      rw [eq_of_beq hc, List.mem_singleton.1 hx]
      split
      · exact hfinal
      · exact hinner
    · next hsigma =>
      rw [List.mem_singleton.1 hx]
      exact htable c (mt beq_of_eq hdotted) (mt beq_of_eq hsigma)

/-! ### Texts in lower case -/

/-- Every character of a text in lower case stays as it is. -/
theorem staysLower_of_mem (hx : x ∈ lowerCaseFrom before cs) : StaysLower x := by
  induction cs generalizing before with
  | nil => cases hx
  | cons c rest ih =>
    rw [lowerCaseFrom_cons, List.mem_append] at hx
    rcases hx with hx | hx
    · exact forall_mem_lowerAt (p := fun _ x => StaysLower x) (by decide +kernel) (by decide +kernel) (by decide +kernel)
        (by decide +kernel) (fun _ => staysLower_lowerChar) hx
    · exact ih hx

theorem lowerCaseFrom_eq_self (h : ∀ c ∈ cs, StaysLower c) : lowerCaseFrom before cs = cs := by
  induction cs generalizing before with
  | nil => rfl
  | cons c rest ih =>
    obtain ⟨hdotted, hsigma, hself⟩ := h c List.mem_cons_self
    have hat : lowerAt before c rest = [c] := by
      rw [lowerAt, if_neg (mt eq_of_beq hdotted), if_neg (mt eq_of_beq hsigma), hself]
    rw [lowerCaseFrom_cons, hat, ih fun x hx => h x (List.mem_cons_of_mem c hx), List.singleton_append]

/-- **A text in lower case is its own lower case.** -/
theorem lowerCase_eq_self_iff {s : String} : lowerCase s = s ↔ ∀ c ∈ s.toList, StaysLower c := by
  constructor
  · intro h c hc
    rw [← h, lowerCase, String.toList_ofList] at hc
    exact staysLower_of_mem hc
  · intro h
    rw [lowerCase, lowerCaseFrom_eq_self h, String.ofList_toList]

theorem lowerCase_lowerCase (s : String) : lowerCase (lowerCase s) = lowerCase s := by
  refine lowerCase_eq_self_iff.2 fun c hc => ?_
  rw [lowerCase, String.toList_ofList] at hc
  exact staysLower_of_mem hc

theorem lowerCaseFrom_eq_nil_iff : lowerCaseFrom before cs = [] ↔ cs = [] := by
  cases cs with
  | nil => exact iff_of_true rfl rfl
  | cons c rest =>
    rw [lowerCaseFrom_cons]
    exact iff_of_false (List.append_ne_nil_of_left_ne_nil (lowerAt_ne_nil before c rest) _) nofun

/-! ### Characters without case -/

/-- **A kind of characters that have no case:** what becomes of a character is of the kind exactly if it is itself. -/
def Caseless (q : Char → Bool) : Prop := ∀ before c rest, ∀ x ∈ lowerAt before c rest, q x = q c

/-- Characters have no case if no run starts at one of them or leads to one, and ASCII agrees. -/
theorem caseless_of_runs (hascii : ∀ n < 128, q (Char.ofNat n).toLower = q (Char.ofNat n))
    (hruns : ∀ r ∈ lowerCaseRuns, ∀ c : Char,
      q c = true → (c.toNat < r.1 ∨ r.2.1 < c.toNat) ∧ (c.toNat < firstTarget r ∨ lastTarget r < c.toNat))
    (hi : q 'i' = false) (hothers : ['\u0130', '\u0307', '\u03A3', '\u03C2', '\u03C3'].any q = false) :
    Caseless q := by
  intro before c rest x hx
  have hother : ∀ c c', q c = false → q c' = false → q c = q c' := fun c c' h h' => h.trans h'.symm
  simp only [List.any_cons, Bool.or_eq_false_iff] at hothers
  obtain ⟨hdotted, hdot, hcapital, hfinal, hinner, -⟩ := hothers
  refine forall_mem_lowerAt (p := fun c x => q x = q c) (hother _ _ hi hdotted) (hother _ _ hdot hdotted)
    (hother _ _ hfinal hcapital) (hother _ _ hinner hcapital) (fun c _ _ => ?_) hx
  refine lowerChar_cases (p := fun c l => q l = q c) hascii (fun r hr c l hin htarget => ?_) (fun _ _ => rfl) c
  obtain ⟨hpos, -⟩ := leadsToCharacters_of_mem hr
  obtain ⟨hfirst, hlast, -⟩ := hin
  refine hother l c (Bool.eq_false_iff.2 fun hl => ?_) (Bool.eq_false_iff.2 fun hc => ?_)
  · have htargets := (hruns r hr l hl).2
    unfold firstTarget lastTarget at htargets
    omega
  · have hsources := (hruns r hr c hc).1
    omega

theorem caseless_isWhite : Caseless isWhite := by
  refine caseless_of_runs (by decide +kernel) (fun r hr c hc => ?_) (by decide) (by decide)
  have hall : ∀ r ∈ lowerCaseRuns, ∀ w ∈ whiteSpaceRanges,
      (w.2 < r.1 ∨ r.2.1 < w.1) ∧ (w.2 < firstTarget r ∨ lastTarget r < w.1) := by decide +kernel
  obtain ⟨w, hw, hin⟩ := List.any_eq_true.1 hc
  rw [Bool.and_eq_true, decide_eq_true_eq, decide_eq_true_eq] at hin
  have hapart := hall r hr w hw
  omega

theorem caseless_point : Caseless (· == '.') := by
  refine caseless_of_runs (by decide +kernel) (fun r hr c hc => ?_) (by decide) (by decide)
  have hall : ∀ r ∈ lowerCaseRuns, (46 < r.1 ∨ r.2.1 < 46) ∧ (46 < firstTarget r ∨ lastTarget r < 46) := by
    decide +kernel
  rw [eq_of_beq hc]
  exact hall r hr

/-- What is without case begins a text exactly if it begins the lower case. -/
theorem Caseless.begins_lowerCaseFrom (h : Caseless q) : begins q (lowerCaseFrom before cs) = begins q cs := by
  cases cs with
  | nil => rfl
  | cons c rest =>
    rw [lowerCaseFrom_cons, begins_append (lowerAt_ne_nil before c rest)]
    cases hat : lowerAt before c rest with
    | nil => exact absurd hat (lowerAt_ne_nil before c rest)
    | cons x xs => exact h before c rest x (hat ▸ List.mem_cons_self)

/-- What is without case ends a text exactly if it ends the lower case. -/
theorem Caseless.ends_lowerCaseFrom (h : Caseless q) : ends q (lowerCaseFrom before cs) = ends q cs := by
  induction cs generalizing before with
  | nil => rfl
  | cons c rest ih =>
    rw [lowerCaseFrom_cons]
    by_cases hrest : rest = []
    · obtain ⟨x, hx⟩ := Option.isSome_iff_exists.1 (List.getLast?_isSome.2 (lowerAt_ne_nil before c rest))
      have hkind := h before c rest x (List.mem_of_getLast? hx)
      rw [hrest] at hx ⊢
      rw [lowerCaseFrom, List.append_nil, ends, hx]
      exact hkind
    · rw [ends_append (mt lowerCaseFrom_eq_nil_iff.1 hrest), ih, ← List.singleton_append, ends_append hrest]

end QueryAid
