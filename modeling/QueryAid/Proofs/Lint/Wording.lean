import QueryAid.Lint.Violation
import Mathlib.Data.List.Basic
/-!
# How violations are worded

Only the wording of an unknown field starts with the letter C (`head?_message`), and it tells which field of which type
is meant, provided that the name of the type has no quotation mark in it (`eq_of_message_unknownField`). The wording of
an unknown argument tells its name, if it is known to whom it was given (`eq_of_message_unknownArgument`).
-/

namespace QueryAid

theorem append_cons_inj_of_not_mem {α : Type} {x : α} {l l' m m' : List α} (hm : x ∉ m) (hm' : x ∉ m')
    (h : l ++ x :: m = l' ++ x :: m') : l = l' ∧ m = m' := by
  rcases List.append_eq_append_iff.1 h with ⟨k, rfl, hk⟩ | ⟨k, rfl, hk⟩
  · cases k with
    | nil => exact ⟨(List.append_nil l).symm, (List.cons_eq_cons.1 hk).2⟩
    | cons y k =>
      obtain ⟨rfl, rfl⟩ := List.cons_eq_cons.1 hk
      exact absurd (List.mem_append_right k List.mem_cons_self) hm
  · cases k with
    | nil => exact ⟨List.append_nil l', (List.cons_eq_cons.1 hk).2.symm⟩
    | cons y k =>
      obtain ⟨rfl, rfl⟩ := List.cons_eq_cons.1 hk
      exact absurd (List.mem_append_right k List.mem_cons_self) hm'

theorem head?_toList_append {s : String} {c : Char} (h : s.toList.head? = some c) (t : String) :
    (s ++ t).toList.head? = some c := by
  rw [String.toList_append, List.head?_append, h, Option.some_or]

namespace Violation

variable {v : Violation} {name parent name' parent' : String}

/-- The letter that the wording of a violation starts with. -/
def initial : Violation → Char
  | notExecutable _ | repeatedDirective _ => 'T'
  | noRoot _ => 'S'
  | unknownType _ | unknownFragment _ | unknownDirective _ | unknownArgument .. => 'U'
  | nonInputVariable .. | undefinedVariable .. | unusedVariable .. => 'V'
  | nonCompositeCondition .. | selectionsOnLeaf .. | selectionsMissing .. | missingArgument _ _ (.field ..) => 'F'
  | misplacedDirective .. | missingArgument _ _ (.directive _) => 'D'
  | unknownField .. => 'C'

theorem head?_message (v : Violation) : v.message.toList.head? = some v.initial := by
  unfold message
  split
  case h_2 => decide +kernel
  all_goals
    repeat' with_reducible apply head?_toList_append
    simp only [initial]
    decide +kernel

/-- What is worded like an unknown field is one. -/
theorem exists_eq_unknownField (h : v.message = (unknownField name parent).message) :
    ∃ name' parent', v = .unknownField name' parent' := by
  have hinitial : v.initial = 'C' := by
    rw [← Option.some.injEq, ← head?_message, h, head?_message, initial]
  cases v with
  | unknownField name' parent' => exact ⟨name', parent', rfl⟩
  | missingArgument name type owner => cases owner <;> simp [initial] at hinitial
  | _ => simp [initial] at hinitial

theorem toList_message_unknownField (name parent : String) :
    (unknownField name parent).message.toList =
      "Cannot query field \"".toList ++ (name.toList ++ "\" on ".toList ++ '"' :: parent.toList) ++ "\".".toList := by
  have hmessage : (unknownField name parent).message =
    "Cannot query field \"" ++ name ++ "\" on \"" ++ parent ++ "\"." := rfl
  have hsep : "\" on \"".toList = "\" on ".toList ++ ['"'] := by decide +kernel
  rw [hmessage]
  simp only [String.toList_append, hsep, List.append_assoc, List.singleton_append]

/-- The quotation marks in the wording tell where the names are, if there are none in the name of the type. -/
theorem eq_of_message_unknownField (hparent : '"' ∉ parent.toList) (hparent' : '"' ∉ parent'.toList)
    (h : (unknownField name parent).message = (unknownField name' parent').message) :
    name = name' ∧ parent = parent' := by
  have hlists := congrArg String.toList h
  rw [toList_message_unknownField, toList_message_unknownField] at hlists
  have hmiddle := List.append_cancel_left (List.append_cancel_right hlists)
  obtain ⟨hnames, hparents⟩ := append_cons_inj_of_not_mem hparent hparent' hmiddle
  exact ⟨String.toList_inj.1 (List.append_cancel_right hnames), String.toList_inj.1 hparents⟩

/-- What is said of arguments that are missing is worded differently from what is said of unknown ones. -/
theorem message_unknownArgument_ne_missingArgument {type : String} {owner owner' : ArgumentOwner} :
    (unknownArgument name owner).message ≠ (missingArgument name' type owner').message := by
  intro h
  have hinitial : (unknownArgument name owner).initial = (missingArgument name' type owner').initial := by
    rw [← Option.some.injEq, ← head?_message, h, head?_message]
  cases owner' <;> simp [initial] at hinitial

/-- What the wording of an unknown argument says after its name. -/
theorem exists_message_unknownArgument (owner : ArgumentOwner) :
    ∃ rest, ∀ name, (unknownArgument name owner).message = "Unknown argument \"" ++ (name ++ rest) := by
  cases owner with
  | field field type =>
    refine ⟨"\" on field \"" ++ (field ++ ("\" of type \"" ++ (type ++ "\"."))), fun name => ?_⟩
    have hmessage : (unknownArgument name (.field field type)).message =
      "Unknown argument \"" ++ name ++ "\" on field \"" ++ field ++ "\" of type \"" ++ type ++ "\"." := rfl
    simp only [hmessage, String.append_assoc]
  | directive directive =>
    refine ⟨"\" on directive \"@" ++ (directive ++ "\"."), fun name => ?_⟩
    have hmessage : (unknownArgument name (.directive directive)).message =
      "Unknown argument \"" ++ name ++ "\" on directive \"@" ++ directive ++ "\"." := rfl
    simp only [hmessage, String.append_assoc]

/-- The wording of an unknown argument tells its name. -/
theorem eq_of_message_unknownArgument {owner : ArgumentOwner}
    (h : (unknownArgument name owner).message = (unknownArgument name' owner).message) : name = name' := by
  obtain ⟨rest, hrest⟩ := exists_message_unknownArgument owner
  have hlists := congrArg String.toList h
  simp only [hrest, String.toList_append] at hlists
  exact String.toList_inj.1 (List.append_cancel_right (List.append_cancel_left hlists))

end Violation
end QueryAid
