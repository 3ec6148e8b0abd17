import QueryAid.Text.WhiteSpace
import Mathlib.Data.List.TakeWhile
/-!
# Taking white space off a text

A text without its first characters of some kind is what is behind them and does not begin with another one
(`dropWhile_eq_iff`). So a text without the white space at its two ends is the one that stands between white space and has
none at its own ends (`trim_eq_iff`).
-/

namespace QueryAid

variable {p : Char → Bool} {cs ds text core rest : List Char}

/-! ### The ends of a text -/

/-- Whether the first character is of some kind; the empty text has none. -/
def begins (p : Char → Bool) (cs : List Char) : Bool := cs.head?.any p

/-- Whether the last character is of some kind; the empty text has none. -/
def ends (p : Char → Bool) (cs : List Char) : Bool := cs.getLast?.any p

theorem begins_reverse : begins p cs.reverse = ends p cs := by rw [begins, ends, List.head?_reverse]

theorem begins_append (h : cs ≠ []) : begins p (cs ++ ds) = begins p cs := by
  cases cs with
  | nil => exact absurd rfl h
  | cons c cs => rfl

theorem ends_append (h : ds ≠ []) : ends p (cs ++ ds) = ends p ds := by
  rw [← begins_reverse, List.reverse_append, begins_append (mt List.reverse_eq_nil_iff.1 h), begins_reverse]

/-- What a longer text does not begin with, its front does not begin with either. -/
theorem begins_eq_false_of_append (h : begins p (cs ++ ds) = false) : begins p cs = false := by
  cases cs with
  | nil => rfl
  | cons c cs => exact h

theorem dropWhile_eq_self_of_begins (h : begins p cs = false) : cs.dropWhile p = cs := by
  cases cs with
  | nil => rfl
  | cons c cs => exact List.dropWhile_cons_of_neg (Bool.not_eq_true _ ▸ h)

/-- **A text without its first characters of some kind.** -/
theorem dropWhile_eq_iff :
    cs.dropWhile p = rest ↔ ∃ front, cs = front ++ rest ∧ front.all p = true ∧ begins p rest = false := by
  constructor
  · rintro rfl
    refine ⟨cs.takeWhile p, List.takeWhile_append_dropWhile.symm, List.all_takeWhile, ?_⟩
    have hhead := List.head?_dropWhile_not p cs
    unfold begins
    cases hc : (cs.dropWhile p).head? with
    | none => rfl
    | some c => rwa [hc] at hhead
  · rintro ⟨front, rfl, hfront, hrest⟩
    rw [List.dropWhile_append_of_pos (List.all_eq_true.1 hfront), dropWhile_eq_self_of_begins hrest]

/-! ### White space at the ends -/

/-- **What a text is around which there is nothing but white space,** with none at its own ends. -/
def StandsIn (core text : List Char) : Prop :=
  ∃ front back, text = front ++ core ++ back ∧ isBlank front = true ∧ isBlank back = true ∧
    begins isWhite core = false ∧ ends isWhite core = false

theorem trimFront_eq_iff :
    trimFront text = rest ↔ ∃ front, text = front ++ rest ∧ isBlank front = true ∧ begins isWhite rest = false :=
  dropWhile_eq_iff

theorem trimBack_eq_iff :
    trimBack text = core ↔ ∃ back, text = core ++ back ∧ isBlank back = true ∧ ends isWhite core = false := by
  rw [trimBack, List.reverse_eq_iff, trimFront_eq_iff, begins_reverse]
  constructor
  · rintro ⟨back, htext, hback, hcore⟩
    refine ⟨back.reverse, ?_, by rwa [isBlank, List.all_reverse], hcore⟩
    rw [← List.reverse_inj, htext, List.reverse_append, List.reverse_reverse]
  · rintro ⟨back, rfl, hback, hcore⟩
    exact ⟨back.reverse, List.reverse_append, by rwa [isBlank, List.all_reverse], hcore⟩

/-- **A text without the white space at its two ends.** -/
theorem trim_eq_iff : trimBack (trimFront text) = core ↔ StandsIn core text := by
  constructor
  · intro h
    obtain ⟨back, hrest, hback, hends⟩ := trimBack_eq_iff.1 h
    obtain ⟨front, htext, hfront, hbegins⟩ := trimFront_eq_iff.1 (rfl : trimFront text = trimFront text)
    rw [hrest] at htext hbegins
    exact ⟨front, back, by rw [htext, List.append_assoc], hfront, hback, begins_eq_false_of_append hbegins, hends⟩
  · rintro ⟨front, back, rfl, hfront, hback, hbegins, hends⟩
    rw [List.append_assoc]
    cases hcore : core with
    | nil =>
      -- There is nothing but white space.
      have hall : trimFront (front ++ back) = [] := by
        refine trimFront_eq_iff.2 ⟨front ++ back, (List.append_nil _).symm, ?_, rfl⟩
        rw [isBlank, List.all_append, ← isBlank, ← isBlank, hfront, hback, Bool.and_self]
      rw [List.nil_append, hall]
      rfl
    | cons c cs =>
      rw [hcore] at hbegins hends
      have hrest : trimFront (front ++ (c :: cs ++ back)) = c :: cs ++ back :=
        trimFront_eq_iff.2 ⟨front, rfl, hfront, hbegins⟩
      rw [hrest]
      exact trimBack_eq_iff.2 ⟨back, rfl, hback, hends⟩

theorem toList_trim_eq_iff {s : String} : (trim s).toList = core ↔ StandsIn core s.toList := by
  rw [trim, String.toList_ofList, trim_eq_iff]

end QueryAid
