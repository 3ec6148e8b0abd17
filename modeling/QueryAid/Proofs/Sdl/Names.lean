import QueryAid.Proofs.Sdl.Mentions
import Mathlib.Data.List.TakeWhile
/-!
# Names

A name is a letter or an underscore, and then letters, digits and underscores. The tokens of the kind of names are such
names (`isIdentifier_of_mem_tokens`), and the names that a definition mentions are those in its mentions
(`Definition.names_eq`).
-/

namespace QueryAid

/-- **Whether a text is a name:** it starts as names do, and goes on as names do. -/
def isIdentifier (text : String) : Bool :=
  match text.toList with
  | [] => false
  | c :: cs => isNameStart c && cs.all isNameContinue

theorem isNameContinue_of_isNameStart {c : Char} (h : isNameStart c = true) : isNameContinue c = true := by
  unfold isNameStart at h
  unfold isNameContinue Char.isAlphanum
  rcases Bool.or_eq_true_iff.1 h with h | h
  · rw [h, Bool.true_or, Bool.true_or]
  · rw [h, Bool.or_true]

/-- Everything in a name is something that names go on with. -/
theorem isNameContinue_of_mem_of_isIdentifier {text : String} (h : isIdentifier text = true) :
    ∀ c ∈ text.toList, isNameContinue c = true := by
  unfold isIdentifier at h
  cases htext : text.toList with
  | nil => exact nofun
  | cons c cs =>
    rw [htext] at h
    obtain ⟨hstart, hrest⟩ := Bool.and_eq_true_iff.1 h
    exact List.forall_mem_cons.2 ⟨isNameContinue_of_isNameStart hstart, List.all_eq_true.1 hrest⟩

namespace Sdl

/-! ### Tokens -/

/-- A token is a name if it is of that kind. -/
def Token.Proper (t : Token) : Prop := t.isName = true → isIdentifier (String.ofList t.text) = true

theorem take_length_takeWhile {α : Type} (p : α → Bool) (l : List α) :
    l.take (l.takeWhile p).length = l.takeWhile p :=
  (List.prefix_iff_eq_take.1 (List.takeWhile_prefix p)).symm

theorem numberKind_ne_name (cs : List Char) : numberKind cs ≠ .name := by
  unfold numberKind
  split
  · split <;> nofun
  · split <;> nofun

/-- What is cut off as a name starts as names do, and reaches as far as names go on. -/
theorem eq_of_scan_eq_name {c : Char} {rest : List Char} {extra : Nat} (h : scan c rest = (.name, extra)) :
    isNameStart c = true ∧ extra = (rest.takeWhile isNameContinue).length := by
  unfold scan at h
  split at h
  · cases h
  · split at h
    · next hstart =>
      cases h
      exact ⟨hstart, rfl⟩
    · split at h
      · exact absurd (congrArg Prod.fst h) (numberKind_ne_name _)
      · repeat' split at h
        all_goals cases h

theorem isIdentifier_of_scan {c : Char} {rest : List Char} {extra : Nat} (h : scan c rest = (.name, extra)) :
    isIdentifier (String.ofList (c :: rest.take extra)) = true := by
  obtain ⟨hstart, rfl⟩ := eq_of_scan_eq_name h
  rw [take_length_takeWhile]
  simp only [isIdentifier, String.toList_ofList, hstart, Bool.true_and, List.all_takeWhile]

theorem isIdentifier_of_mem_tokensFrom (room : Nat) (place : Place) (cs : List Char) :
    ∀ t ∈ tokensFrom room place cs, t.Proper := by
  fun_induction tokensFrom room place cs with
  | case1 => exact List.forall_mem_singleton.2 nofun
  | case2 => exact List.forall_mem_singleton.2 nofun
  | case3 room place cs blank place' c rest _ kind extra hscan _ text room' ih =>
    refine List.forall_mem_cons.2 ⟨fun hname => ?_, ih⟩
    have hkind : kind = .name := eq_of_beq hname
    exact isIdentifier_of_scan (hkind ▸ hscan)

theorem isIdentifier_of_mem_tokens {source : List Char} : ∀ t ∈ tokens source, t.Proper :=
  isIdentifier_of_mem_tokensFrom _ _ _

/-! ### The names that something mentions -/

/-- The name under all layers of a type. -/
def TypeExpression.namedType : TypeExpression → String
  | named name => name
  | list inner | nonNull inner => inner.namedType

def InputValue.names (v : InputValue) : List String := [v.name, v.type.namedType]

def Field.names (f : Field) : List String :=
  f.name :: f.type.namedType :: f.arguments.flatMap InputValue.names

def TypeBody.names : TypeBody → List String
  | scalar => []
  | object interfaces fields | interface interfaces fields => interfaces ++ fields.flatMap Field.names
  | union members => members
  | enum values => values.map EnumValue.name
  | inputObject fields => fields.flatMap InputValue.names

/-- **The names that a definition defines or mentions,** the directives that are used in it aside. -/
def Definition.names : Definition → List String
  | schema block => block.roots.toList.map Prod.snd
  | type d => d.name :: d.body.names
  | extension e => e.name :: e.body.names
  | directive d => d.name :: d.arguments.flatMap InputValue.names

/-- All of some texts are names. -/
def AreNames (texts : List String) : Prop := ∀ text ∈ texts, isIdentifier text = true

section AreNames

variable {α : Type} {text : String} {texts : List String} {xs : List α}

theorem areNames_cons_iff : AreNames (text :: texts) ↔ isIdentifier text = true ∧ AreNames texts :=
  List.forall_mem_cons

theorem areNames_map {f : α → String} (h : ∀ x ∈ xs, isIdentifier (f x) = true) : AreNames (xs.map f) :=
  List.forall_mem_map.2 h

end AreNames

/-- The name in a mention: that under all layers, if it is a type. -/
def Mention.text : Mention → String
  | name text => text
  | type e => e.namedType

theorem Field.names_eq (f : Field) : f.names = f.mentions.map Mention.text := by
  simp only [names, mentions, List.map_cons, List.map_flatMap]
  rfl

theorem TypeBody.names_eq (body : TypeBody) : body.names = body.mentions.map Mention.text := by
  cases body with
  | scalar => rfl
  | object interfaces fields | interface interfaces fields =>
    simp only [names, mentions, List.map_append, List.map_map, List.map_flatMap]
    have hnames : Field.names = fun f => f.mentions.map Mention.text := funext Field.names_eq
    rw [hnames]
    exact congrArg (· ++ _) (List.map_id interfaces).symm
  | union members => simp [names, mentions, Mention.text, Function.comp_def]
  | enum values => simp [names, mentions, Mention.text, Function.comp_def]
  | inputObject fields =>
    simp only [names, mentions, List.map_flatMap]
    rfl

/-- **The names that a definition mentions are those in its mentions.** -/
theorem Definition.names_eq (d : Definition) : d.names = d.mentions.map Mention.text := by
  cases d with
  | schema block => simp [names, mentions, Mention.text, Function.comp_def]
  | type d | extension d => simp [names, mentions, TypeBody.names_eq, Mention.text]
  | directive d =>
    simp only [names, mentions, List.map_cons, List.map_flatMap]
    rfl

end Sdl

end QueryAid
