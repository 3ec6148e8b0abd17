import QueryAid.Ranking.Distance
import Mathlib.Data.List.Basic
import Mathlib.Order.MinMax
import Mathlib.Tactic.SplitIfs
/-!
# The distance of texts

The rows of the edit distance are put together from the end of both texts. `editDistance_cons_cons` says what this
comes to for two texts of which the first characters are known: the least of what it takes to replace, drop or add a
character, and to exchange two.

* `length_le_editDistance_add`: a text is not longer than another one by more than their distance.
* `eq_of_editDistance_eq_zero`: texts without distance are equal.
-/

namespace QueryAid

variable {a b : Char} {s t : List Char}

/-! ### Rows -/

theorem headD_suffixLengths (t : List Char) : (suffixLengths t).headD 0 = t.length := by
  cases t <;> rfl

/-- **The rows of a shorter text stand behind the first entries of the rows.** -/
theorem tail_distanceRows (b : Char) (t s : List Char) :
    (distanceRows (b :: t) s).1.tail = (distanceRows t s).1 ∧
      (distanceRows (b :: t) s).2.tail = (distanceRows t s).2 := by
  induction s with
  | nil => exact ⟨rfl, rfl⟩
  | cons a s ih =>
    obtain ⟨hrow, hbelow⟩ := ih
    refine ⟨?_, hrow⟩
    have hnext : (distanceRows (b :: t) (a :: s)).1.tail =
        nextRow a s.head? t (distanceRows (b :: t) s).1.tail (distanceRows (b :: t) s).2.tail := rfl
    rw [hnext, hrow, hbelow]
    rfl

theorem headD_tail_distanceRows (b : Char) (t s : List Char) :
    (distanceRows (b :: t) s).1.tail.headD 0 = editDistance s t := by
  rw [(tail_distanceRows b t s).1]
  rfl

/-! ### The distance of texts of which the first characters are known -/

theorem editDistance_nil_left (t : List Char) : editDistance [] t = t.length := headD_suffixLengths t

theorem editDistance_cons_nil (a : Char) (s : List Char) : editDistance (a :: s) [] = editDistance s [] + 1 := rfl

/-- What it takes to replace, drop or add the first character. -/
def singleEdit (a b : Char) (s t : List Char) : Nat :=
  min (editDistance s t + if a = b then 0 else 1)
    (min (editDistance s (b :: t) + 1) (editDistance (a :: s) t + 1))

/-- **The distance of two texts that are not empty:** the first character is replaced, dropped or added, or the first two
are exchanged where this makes them equal. -/
theorem editDistance_cons_cons (a b : Char) (s t : List Char) :
    editDistance (a :: s) (b :: t) =
      if s.head? = some b ∧ t.head? = some a then min (singleEdit a b s t) (editDistance s.tail t.tail + 1)
      else singleEdit a b s t := by
  have hrest : (nextRow a s.head? t (distanceRows (b :: t) s).1.tail (distanceRows (b :: t) s).2.tail).headD 0 =
      editDistance (a :: s) t := by
    rw [(tail_distanceRows b t s).1, (tail_distanceRows b t s).2]
    rfl
  -- The row below is asked for only where both texts go on, and then it is the one of the tails.
  have hbelow : s.head? = some b → t.head? = some a →
      (distanceRows (b :: t) s).2.tail.tail.headD 0 = editDistance s.tail t.tail := by
    intro hs ht
    obtain ⟨s', rfl⟩ := List.head?_eq_some_iff.1 hs
    obtain ⟨t', rfl⟩ := List.head?_eq_some_iff.1 ht
    rw [(tail_distanceRows b (a :: t') (b :: s')).2]
    exact headD_tail_distanceRows a t' s'
  have hdropped : (distanceRows (b :: t) s).1.headD 0 = editDistance s (b :: t) := rfl
  show (nextRow a s.head? (b :: t) (distanceRows (b :: t) s).1 (distanceRows (b :: t) s).2).headD 0 = _
  simp only [nextRow, List.headD_cons, headD_tail_distanceRows, hrest, hdropped, Bool.and_eq_true, beq_iff_eq]
  rw [singleEdit]
  by_cases hexchange : s.head? = some b ∧ t.head? = some a
  · rw [if_pos hexchange, if_pos hexchange, hbelow hexchange.1 hexchange.2]
  · rw [if_neg hexchange, if_neg hexchange]

/-! ### Bounds -/

theorem editDistance_nil_right (s : List Char) : editDistance s [] = s.length := by
  induction s with
  | nil => rfl
  | cons a s ih => rw [editDistance_cons_nil, ih, List.length_cons]

/-- **A text is not longer than another one by more than their distance.** -/
theorem length_le_editDistance_add : ∀ s t : List Char,
    s.length ≤ editDistance s t + t.length ∧ t.length ≤ editDistance s t + s.length
  | [], t => by
    rw [editDistance_nil_left]
    simp
  | a :: s, [] => by
    rw [editDistance_nil_right]
    simp
  | a :: s, b :: t => by
    have hreplaced := length_le_editDistance_add s t
    have hdropped := length_le_editDistance_add s (b :: t)
    have hadded := length_le_editDistance_add (a :: s) t
    have hexchanged := length_le_editDistance_add s.tail t.tail
    rw [List.length_tail, List.length_tail] at hexchanged
    rw [editDistance_cons_cons, singleEdit]
    simp only [List.length_cons] at hdropped hadded ⊢
    split_ifs <;> omega
termination_by s t => s.length + t.length

/-- **Texts without distance are equal.** -/
theorem eq_of_editDistance_eq_zero (h : editDistance s t = 0) : s = t := by
  induction s generalizing t with
  | nil =>
    rw [editDistance_nil_left] at h
    exact (List.length_eq_zero_iff.1 h).symm
  | cons a s ih =>
    cases t with
    | nil =>
      rw [editDistance_cons_nil] at h
      omega
    | cons b t =>
      -- All other ways take an edit at least.
      have hreplaced : editDistance s t = 0 ∧ a = b := by
        rw [editDistance_cons_cons, singleEdit] at h
        by_cases hab : a = b
        · rw [if_pos hab] at h
          refine ⟨?_, hab⟩
          split_ifs at h <;> omega
        · rw [if_neg hab] at h
          split_ifs at h <;> omega
      rw [hreplaced.2, ih hreplaced.1]

theorem editDistance_cons_cons_le (a b : Char) (s t : List Char) :
    editDistance (a :: s) (b :: t) ≤ singleEdit a b s t := by
  rw [editDistance_cons_cons]
  split_ifs
  · exact min_le_left _ _
  · exact le_rfl

theorem editDistance_cons_self_le (a : Char) (s t : List Char) :
    editDistance (a :: s) (a :: t) ≤ editDistance s t := by
  refine (editDistance_cons_cons_le a a s t).trans ?_
  rw [singleEdit, if_pos rfl]
  omega

end QueryAid
