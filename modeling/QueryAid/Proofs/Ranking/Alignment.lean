import QueryAid.Proofs.Ranking.Distance
import Mathlib.Order.Bounds.Defs
/-!
# Alignments

The rows of `editDistance` say how a distance is calculated. What it is the distance of is said by alignments: an
alignment goes through two texts at once, from the left to the right, and counts the edits (`Aligned`). The distance is
the least number of edits of an alignment (`isLeast_editDistance`).

What takes the least number of edits that the lengths allow only adds characters. So two texts are as far apart as their
lengths exactly if the shorter one is left when characters of the longer one are struck out
(`editDistance_add_length_eq_iff`).
-/

namespace QueryAid

/-- **An alignment of two texts,** with the number of its edits. A character is kept, replaced, dropped or added, or two
neighbours are exchanged, and what was gone through is not edited again. -/
inductive Aligned : List Char → List Char → Nat → Prop where
  | nil : Aligned [] [] 0
  | keep {a s t n} (h : Aligned s t n) : Aligned (a :: s) (a :: t) n
  | replace {a b s t n} (h : Aligned s t n) : Aligned (a :: s) (b :: t) (n + 1)
  | drop {a s t n} (h : Aligned s t n) : Aligned (a :: s) t (n + 1)
  | add {b s t n} (h : Aligned s t n) : Aligned s (b :: t) (n + 1)
  | exchange {a b s t n} (h : Aligned s t n) : Aligned (a :: b :: s) (b :: a :: t) (n + 1)

variable {s t : List Char} {n : Nat}

/-! ### No alignment has fewer edits -/

theorem editDistance_replace_le (a b : Char) (s t : List Char) :
    editDistance (a :: s) (b :: t) ≤ editDistance s t + 1 := by
  refine (editDistance_cons_cons_le a b s t).trans ?_
  unfold singleEdit
  split_ifs <;> omega

theorem editDistance_drop_le (a : Char) (s t : List Char) : editDistance (a :: s) t ≤ editDistance s t + 1 := by
  cases t with
  | nil => exact (editDistance_cons_nil a s).le
  | cons b t =>
    refine (editDistance_cons_cons_le a b s t).trans ?_
    unfold singleEdit
    omega

theorem editDistance_add_le (b : Char) (s t : List Char) : editDistance s (b :: t) ≤ editDistance s t + 1 := by
  cases s with
  | nil => rw [editDistance_nil_left, editDistance_nil_left, List.length_cons]
  | cons a s =>
    refine (editDistance_cons_cons_le a b s t).trans ?_
    unfold singleEdit
    omega

theorem editDistance_exchange_le (a b : Char) (s t : List Char) :
    editDistance (a :: b :: s) (b :: a :: t) ≤ editDistance s t + 1 := by
  rw [editDistance_cons_cons, if_pos ⟨rfl, rfl⟩]
  exact min_le_right _ _

/-- **An alignment has at least as many edits as the distance says.** -/
theorem Aligned.editDistance_le (h : Aligned s t n) : editDistance s t ≤ n := by
  induction h with
  | nil => exact le_rfl
  | @keep a s t n _ ih => exact (editDistance_cons_self_le a s t).trans ih
  | @replace a b s t n _ ih => exact (editDistance_replace_le a b s t).trans (Nat.succ_le_succ ih)
  | @drop a s t n _ ih => exact (editDistance_drop_le a s t).trans (Nat.succ_le_succ ih)
  | @add b s t n _ ih => exact (editDistance_add_le b s t).trans (Nat.succ_le_succ ih)
  | @exchange a b s t n _ ih => exact (editDistance_exchange_le a b s t).trans (Nat.succ_le_succ ih)

/-! ### An alignment has as few edits -/

/-- One of the ways in which the first characters can be aligned takes as many edits as the distance says. -/
theorem editDistance_cons_cons_cases (a b : Char) (s t : List Char) :
    (a = b ∧ editDistance (a :: s) (b :: t) = editDistance s t) ∨
    editDistance (a :: s) (b :: t) = editDistance s t + 1 ∨
    editDistance (a :: s) (b :: t) = editDistance s (b :: t) + 1 ∨
    editDistance (a :: s) (b :: t) = editDistance (a :: s) t + 1 ∨
    ∃ s' t', s = b :: s' ∧ t = a :: t' ∧ editDistance (a :: s) (b :: t) = editDistance s' t' + 1 := by
  -- The least of the first three ways comes first, and an exchange, where one is possible, is compared with it.
  have hsingle : (a = b ∧ singleEdit a b s t = editDistance s t) ∨ singleEdit a b s t = editDistance s t + 1 ∨
      singleEdit a b s t = editDistance s (b :: t) + 1 ∨ singleEdit a b s t = editDistance (a :: s) t + 1 := by
    unfold singleEdit
    by_cases hab : a = b
    · rw [if_pos hab, Nat.add_zero, and_iff_right hab]
      omega
    · rw [if_neg hab]
      omega
  have hdistance := editDistance_cons_cons a b s t
  by_cases hexchange : s.head? = some b ∧ t.head? = some a
  · obtain ⟨s', rfl⟩ := List.head?_eq_some_iff.1 hexchange.1
    obtain ⟨t', rfl⟩ := List.head?_eq_some_iff.1 hexchange.2
    rw [if_pos hexchange, List.tail_cons, List.tail_cons] at hdistance
    rcases min_choice (singleEdit a b (b :: s') (a :: t')) (editDistance s' t' + 1) with hmin | hmin
    · rw [hdistance, hmin]
      tauto
    · exact .inr (.inr (.inr (.inr ⟨s', t', rfl, rfl, hdistance.trans hmin⟩)))
  · rw [if_neg hexchange] at hdistance
    rw [hdistance]
    tauto

theorem aligned_nil_left : ∀ t : List Char, Aligned [] t t.length
  | [] => .nil
  | _ :: t => .add (aligned_nil_left t)

theorem aligned_nil_right : ∀ s : List Char, Aligned s [] s.length
  | [] => .nil
  | _ :: s => .drop (aligned_nil_right s)

/-- **An alignment has as many edits as the distance says.** -/
theorem aligned_editDistance : ∀ s t : List Char, Aligned s t (editDistance s t)
  | [], t => editDistance_nil_left t ▸ aligned_nil_left t
  | a :: s, [] => editDistance_nil_right (a :: s) ▸ aligned_nil_right (a :: s)
  | a :: s, b :: t => by
    rcases editDistance_cons_cons_cases a b s t with ⟨rfl, h⟩ | h | h | h | ⟨s', t', rfl, rfl, h⟩
    · rw [h]
      exact .keep (aligned_editDistance s t)
    · rw [h]
      exact .replace (aligned_editDistance s t)
    · rw [h]
      exact .drop (aligned_editDistance s (b :: t))
    · rw [h]
      exact .add (aligned_editDistance (a :: s) t)
    · rw [h]
      exact .exchange (aligned_editDistance s' t')
termination_by s t => s.length + t.length

/-- **The distance is the least number of edits** of an alignment. -/
theorem isLeast_editDistance (s t : List Char) : IsLeast {n | Aligned s t n} (editDistance s t) :=
  ⟨aligned_editDistance s t, fun _ h => h.editDistance_le⟩

/-! ### As few edits as the lengths allow -/

theorem Aligned.length_le (h : Aligned s t n) : t.length ≤ n + s.length := by
  have hbound := (length_le_editDistance_add s t).2
  have hleast := h.editDistance_le
  omega

/-- With no more edits than the lengths call for, characters are only added. -/
theorem Aligned.sublist (h : Aligned s t n) (hlength : t.length = n + s.length) : s.Sublist t := by
  induction h with
  | nil => exact .slnil
  | @keep a s t n _ ih =>
    rw [List.length_cons, List.length_cons] at hlength
    exact (ih (by omega)).cons_cons a
  | @add b s t n _ ih =>
    rw [List.length_cons] at hlength
    exact (ih (by omega)).cons b
  -- Any other edit leaves more characters to be added than there are edits.
  | @replace a b s t n h _ | @drop a s t n h _ | @exchange a b s t n h _ =>
    have hbound := h.length_le
    simp only [List.length_cons] at hlength
    omega

theorem aligned_of_sublist (h : s.Sublist t) : Aligned s t (t.length - s.length) := by
  induction h with
  | slnil => exact .nil
  | @cons s t b hsub ih =>
    have hlength := hsub.length_le
    rw [List.length_cons, Nat.succ_sub hlength]
    exact .add ih
  | @cons_cons s t a _ ih =>
    rw [List.length_cons, List.length_cons, Nat.add_sub_add_right]
    exact .keep ih

/-- **Two texts are as far apart as their lengths exactly if the one is left of the other** when some characters are
struck out. -/
theorem editDistance_add_length_eq_iff : editDistance s t + s.length = t.length ↔ s.Sublist t := by
  constructor
  · intro h
    exact (aligned_editDistance s t).sublist h.symm
  · intro h
    have hle := (aligned_of_sublist h).editDistance_le
    have hbound := (length_le_editDistance_add s t).2
    have hlength := h.length_le
    omega

end QueryAid
