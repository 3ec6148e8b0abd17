import QueryAid.Proofs.Sdl.Names
import Mathlib.Data.List.Basic
/-!
# How types are written

A type is written as a name, as a type in brackets, or as a type with an exclamation mark behind, but not with two of
them (`TypeExpression.Written`). The text of a type says which type it is (`Written.unique`).

A type is read off tokens that spell it (`spells_of_type`). Put one behind the other, they are the written type
(`Spelled.written`).
-/

namespace QueryAid

namespace Sdl

/-! ### Texts -/

namespace TypeExpression

/-- Whether a type has no exclamation mark behind. -/
def isPlain : TypeExpression → Bool
  | named _ | list _ => true
  | nonNull _ => false

/-- **How types are written,** one token directly behind the other. -/
inductive Written : TypeExpression → List Char → Prop where
  | named {name : String} (h : isIdentifier name = true) : Written (.named name) name.toList
  | list {inner : TypeExpression} {cs : List Char} (h : Written inner cs) : Written (.list inner) ('[' :: (cs ++ [']']))
  | nonNull {inner : TypeExpression} {cs : List Char} (h : Written inner cs) (hplain : inner.isPlain = true) :
    Written (.nonNull inner) (cs ++ ['!'])

variable {e e' : TypeExpression} {cs : List Char}

/-- A bracket or an exclamation mark is in no name. -/
private theorem not_mem_name {name : String} (h : isIdentifier name = true) {c : Char} (hc : isNameContinue c = false) :
    c ∉ name.toList := by
  intro hmem
  have hcontinue := isNameContinue_of_mem_of_isIdentifier h c hmem
  rw [hc] at hcontinue
  cases hcontinue

/-- **A text is the written form of one type at most,** by what it ends with. -/
theorem Written.unique (h : e.Written cs) (h' : e'.Written cs) : e = e' := by
  have hbracket : isNameContinue ']' = false := by decide
  have hbang : isNameContinue '!' = false := by decide
  -- The last characters of the two forms agree, and so does what stands before them.
  have hlast {l m : List Char} {x y : Char} (heq : l ++ [x] = m ++ [y]) : l = m ∧ x = y := by
    obtain ⟨hfront, hxy⟩ := List.append_inj' heq rfl
    exact ⟨hfront, List.head_eq_of_cons_eq hxy⟩
  induction h generalizing e' with
  | @named name hname =>
    generalize htext : name.toList = text at h'
    cases h' with
    | named hname' => rw [String.toList_inj.1 htext]
    | list => exact absurd (htext ▸ by simp) (not_mem_name hname hbracket)
    | nonNull => exact absurd (htext ▸ by simp) (not_mem_name hname hbang)
  | @list inner text hinner ih =>
    generalize htext : '[' :: (text ++ [']']) = whole at h'
    cases h' with
    | named hname' => exact absurd (htext ▸ by simp) (not_mem_name hname' hbracket)
    | list hinner' =>
      obtain ⟨rfl, -⟩ := hlast (List.tail_eq_of_cons_eq htext)
      rw [ih hinner']
    | nonNull => exact absurd (hlast (l := '[' :: text) htext).2 (by decide)
  | @nonNull inner text hinner _ ih =>
    generalize htext : text ++ ['!'] = whole at h'
    cases h' with
    | named hname' => exact absurd (htext ▸ by simp) (not_mem_name hname' hbang)
    | @list inner' text' => exact absurd (hlast (m := '[' :: text') htext).2 (by decide)
    | nonNull hinner' =>
      obtain ⟨rfl, -⟩ := hlast htext
      rw [ih hinner']

/-- A name is under all layers of a written type. -/
theorem Written.isIdentifier_namedType (h : e.Written cs) : isIdentifier e.namedType = true := by
  induction h with
  | named hname => exact hname
  | list _ ih | nonNull _ _ ih => exact ih

end TypeExpression

/-! ### Tokens -/

/-- A mark has the text of the mark. -/
def Token.IsMarkText (t : Token) : Prop := ∀ c p, mark? c = some p → t.isMark p = true → t.text = [c]

/-- Two characters that are the same mark are the same. -/
theorem eq_of_mark? {c d : Char} {p : Punctuator} (hc : mark? c = some p) (hd : mark? d = some p) : c = d := by
  unfold mark? at hc
  split at hc <;> cases hc <;> (unfold mark? at hd; split at hd <;> cases hd; rfl)

/-- What is cut off as a mark of one character is that character. -/
theorem mark?_of_scan {c : Char} {rest : List Char} {p : Punctuator} {extra : Nat}
    (h : scan c rest = (.punctuator p, extra)) (hp : p ≠ .spread) : mark? c = some p ∧ extra = 0 := by
  unfold scan at h
  split at h
  · next hmark =>
    cases h
    exact ⟨hmark, rfl⟩
  · exfalso
    have hnumber (cs : List Char) : numberKind cs ≠ .punctuator p := by
      unfold numberKind
      split
      · split <;> nofun
      · split <;> nofun
    split at h
    · cases h
    · split at h
      · exact hnumber _ (congrArg Prod.fst h)
      · repeat' split at h
        all_goals cases h
        exact hp rfl

theorem isMarkText_of_mem_tokensFrom (room : Nat) (place : Place) (cs : List Char) :
    ∀ t ∈ tokensFrom room place cs, t.IsMarkText := by
  fun_induction tokensFrom room place cs with
  | case1 | case2 =>
    rw [List.forall_mem_singleton]
    intro d p hd hmark
    cases eq_of_beq hmark
  | case3 room place cs blank place' c rest _ kind extra hscan _ text room' ih =>
    refine List.forall_mem_cons.2 ⟨fun d p hd hmark => ?_, ih⟩
    have hkind : kind = .punctuator p := eq_of_beq hmark
    have hspread : p ≠ .spread := by
      rintro rfl
      unfold mark? at hd
      split at hd <;> cases hd
    obtain ⟨hc, rfl⟩ := mark?_of_scan (hkind ▸ hscan) hspread
    rw [eq_of_mark? hd hc]
    rfl

namespace TypeExpression

/-- **Tokens spell a type.** -/
inductive Spelled : TypeExpression → List Token → Prop where
  | named {t : Token} (h : t.isName = true) : Spelled (.named (String.ofList t.text)) [t]
  | list {inner : TypeExpression} {opening closing : Token} {ts : List Token}
    (hopening : opening.isMark .leftBracket = true) (h : Spelled inner ts)
    (hclosing : closing.isMark .rightBracket = true) : Spelled (.list inner) (opening :: (ts ++ [closing]))
  | nonNull {inner : TypeExpression} {ts : List Token} {bang : Token} (h : Spelled inner ts)
    (hplain : inner.isPlain = true) (hbang : bang.isMark .bang = true) : Spelled (.nonNull inner) (ts ++ [bang])

/-- **The tokens that spell a type are the written type,** when they are put one behind the other. -/
theorem Spelled.written {e : TypeExpression} {ts : List Token} (h : e.Spelled ts)
    (hts : ∀ t ∈ ts, t.Proper ∧ t.IsMarkText) : e.Written (ts.flatMap Token.text) := by
  induction h with
  | @named t hname =>
    have hidentifier := (hts t List.mem_cons_self).1 hname
    have hwritten := Written.named hidentifier
    rw [String.toList_ofList] at hwritten
    simpa using hwritten
  | @list inner opening closing ts hopening _ hclosing ih =>
    rw [List.forall_mem_cons, List.forall_mem_append, List.forall_mem_singleton] at hts
    obtain ⟨⟨-, hopeningText⟩, hinner, ⟨-, hclosingText⟩⟩ := hts
    have hwritten := Written.list (ih hinner)
    rw [List.flatMap_cons, List.flatMap_append, hopeningText '[' _ rfl hopening, List.flatMap_singleton,
      hclosingText ']' _ rfl hclosing]
    exact hwritten
  | @nonNull inner ts bang _ hplain hbang ih =>
    rw [List.forall_mem_append, List.forall_mem_singleton] at hts
    obtain ⟨hinner, ⟨-, hbangText⟩⟩ := hts
    have hwritten := Written.nonNull (ih hinner) hplain
    rw [List.flatMap_append, List.flatMap_singleton, hbangText '!' _ rfl hbang]
    exact hwritten

end TypeExpression

/-! ### What is read -/

namespace Cursor

/-- The tokens that are left to read. -/
def left (c : Cursor) : List Token := c.token :: c.ahead

/-- The last token that is left is none that something is read off: the source ends there, or cannot be read on. -/
def Ends (c : Cursor) : Prop := ∃ t, c.left.getLast? = some t ∧ (t.kind = .endOfInput ∨ t.kind = .unreadable)

/-- A token that something is read off is not the last one. -/
theorem Ends.exists_ahead {c : Cursor} (h : c.Ends) (hkind : c.token.kind ≠ .endOfInput ∧ c.token.kind ≠ .unreadable) :
    ∃ t ts, c.ahead = t :: ts := by
  obtain ⟨last, hlast, hend⟩ := h
  unfold left at hlast
  cases hahead : c.ahead with
  | nil =>
    rw [hahead] at hlast
    obtain rfl := Option.some.inj hlast
    rcases hend with hend | hend
    · exact absurd hend hkind.1
    · exact absurd hend hkind.2
  | cons t ts => exact ⟨t, ts, rfl⟩

theorem Ends.of_suffix {c c' : Cursor} (h : c.Ends) {used : List Token} (hleft : c.left = used ++ c'.left) :
    c'.Ends := by
  obtain ⟨last, hlast, hend⟩ := h
  refine ⟨last, ?_, hend⟩
  rw [hleft, left, List.getLast?_append_of_ne_nil _ (List.cons_ne_nil _ _)] at hlast
  exact hlast

end Cursor

/-- The last token is none that something is read off. -/
theorem getLast?_tokensFrom (room : Nat) (place : Place) (cs : List Char) :
    ∃ t, (tokensFrom room place cs).getLast? = some t ∧ (t.kind = .endOfInput ∨ t.kind = .unreadable) := by
  fun_induction tokensFrom room place cs with
  | case1 => exact ⟨_, rfl, .inl rfl⟩
  | case2 => exact ⟨_, rfl, .inr rfl⟩
  | case3 room place cs blank place' c rest _ kind extra _ _ text room' ih =>
    obtain ⟨t, hlast, hend⟩ := ih
    refine ⟨t, ?_, hend⟩
    rw [List.getLast?_cons, hlast]
    rfl

/-- At the start all tokens of the source are left. -/
theorem Cursor.left_ofSource (source : List Char) : (Cursor.ofSource source).left = tokens source := by
  unfold Cursor.ofSource
  cases htokens : tokens source with
  | nil =>
    obtain ⟨t, hlast, -⟩ := getLast?_tokensFrom bracketLimit ⟨1, 1⟩ source
    have hnone : (tokens source).getLast? = some t := hlast
    rw [htokens] at hnone
    cases hnone
  | cons t ts => rfl

theorem Cursor.ends_ofSource (source : List Char) : (Cursor.ofSource source).Ends := by
  unfold Cursor.Ends
  rw [Cursor.left_ofSource]
  exact getLast?_tokensFrom _ _ _

open SchemaParser Sdl.Cursor

variable {c c' : Cursor} {e t : TypeExpression} {item : SchemaParser TypeExpression}

/-- A name or a mark that is passed is taken off what is left. -/
theorem Cursor.Ends.left_of_advance (h : c.Ends) (hread : c.atName = true ∨ ∃ p, c.atMark p = true)
    (hadvance : advance c = .ok ((), c')) : c.left = c.token :: c'.left := by
  have hkind : c.token.kind ≠ .endOfInput ∧ c.token.kind ≠ .unreadable := by
    rcases hread with hname | ⟨p, hmark⟩
    · have hname : c.token.kind = .name := eq_of_beq hname
      rw [hname]
      exact ⟨nofun, nofun⟩
    · have hmark : c.token.kind = .punctuator p := eq_of_beq hmark
      rw [hmark]
      exact ⟨nofun, nofun⟩
  obtain ⟨next, ahead, hahead⟩ := h.exists_ahead hkind
  unfold advance at hadvance
  rw [hahead] at hadvance
  cases hadvance
  exact congrArg (c.token :: ·) hahead

/-- Where something is left behind the current token, that is where the cursor goes on. -/
theorem advance_of_left {next : Token} (h : c.left = next :: c'.left) : advance c = .ok ((), c') := by
  obtain ⟨-, hahead⟩ := List.cons_eq_cons.1 h
  unfold advance
  rw [hahead]
  rfl

theorem expect_eq_ok_iff {test : Cursor → Bool} :
    expect test c = .ok ((), c') ↔ test c = true ∧ advance c = .ok ((), c') := by
  unfold expect
  cases test c with
  | true => exact (and_iff_right rfl).symm
  | false => exact ⟨nofun, nofun⟩

theorem name_eq_ok_iff {n : String} :
    name c = .ok (n, c') ↔ c.atName = true ∧ advance c = .ok ((), c') ∧ n = String.ofList c.token.text := by
  unfold name
  rw [Parser.bind_eq_ok]
  constructor
  · rintro ⟨_, _, hlook, h⟩
    cases hlook
    obtain ⟨_, c₁, hexpect, h⟩ := Parser.bind_eq_ok.1 h
    obtain ⟨hname, hadvance⟩ := expect_eq_ok_iff.1 hexpect
    cases h
    exact ⟨hname, hadvance, rfl⟩
  · rintro ⟨hname, hadvance, rfl⟩
    exact ⟨_, c, rfl, Parser.bind_eq_ok.2 ⟨(), c', expect_eq_ok_iff.2 ⟨hname, hadvance⟩, rfl⟩⟩

theorem listType_eq_ok_iff : listType item c = .ok (e, c') ↔
    c.atMark .leftBracket = true ∧ ∃ c₁ inner c₂, advance c = .ok ((), c₁) ∧ item c₁ = .ok (inner, c₂) ∧
      c₂.atMark .rightBracket = true ∧ advance c₂ = .ok ((), c') ∧ e = .list inner := by
  unfold listType
  constructor
  · intro h
    obtain ⟨_, c₁, hopening, h⟩ := Parser.bind_eq_ok.1 h
    obtain ⟨inner, c₂, hinner, h⟩ := Parser.bind_eq_ok.1 h
    obtain ⟨_, c₃, hclosing, h⟩ := Parser.bind_eq_ok.1 h
    obtain ⟨hmark, hadvance⟩ := expect_eq_ok_iff.1 hopening
    obtain ⟨hmark', hadvance'⟩ := expect_eq_ok_iff.1 hclosing
    cases h
    exact ⟨hmark, c₁, inner, c₂, hadvance, hinner, hmark', hadvance', rfl⟩
  · rintro ⟨hopening, c₁, inner, c₂, hadvance, hinner, hclosing, hadvance', rfl⟩
    refine Parser.bind_eq_ok.2 ⟨(), c₁, expect_eq_ok_iff.2 ⟨hopening, hadvance⟩, ?_⟩
    refine Parser.bind_eq_ok.2 ⟨inner, c₂, hinner, ?_⟩
    exact Parser.bind_eq_ok.2 ⟨(), c', expect_eq_ok_iff.2 ⟨hclosing, hadvance'⟩, rfl⟩

/-! A type is read in two steps: what stands before an exclamation mark, and that mark, if it is there. -/

/-- Reads a type without an exclamation mark behind, with `item` for the type in brackets. -/
def SchemaParser.plainType (item : SchemaParser TypeExpression) : SchemaParser TypeExpression := fun c =>
  if c.atName then (TypeExpression.named <$> name) c else listType item c

/-- Reads the exclamation mark behind a type, if there is one. -/
def SchemaParser.bangBehind (t : TypeExpression) : SchemaParser TypeExpression := do
  let bang ← Parser.optional (atMark .bang) advance
  return if bang.isSome then .nonNull t else t

theorem typeWith_apply (item : SchemaParser TypeExpression) (c : Cursor) :
    typeWith item c = (plainType item >>= bangBehind) c := by
  have hlook : typeWith item c = (if c.atName then (TypeExpression.named <$> name) >>= bangBehind
      else listType item >>= bangBehind) c := rfl
  rw [hlook]
  simp only [Bind.bind, plainType]
  cases c.atName <;> rfl

theorem bangBehind_eq_ok_iff : bangBehind t c = .ok (e, c') ↔
    (c.atMark .bang = true ∧ advance c = .ok ((), c') ∧ e = .nonNull t) ∨
      (c.atMark .bang = false ∧ c' = c ∧ e = t) := by
  unfold bangBehind
  rw [Parser.bind_eq_ok]
  unfold Parser.optional
  cases hbang : c.atMark .bang with
  | true =>
    rw [if_pos rfl]
    constructor
    · rintro ⟨bang, c₁, hread, h⟩
      split at hread
      · cases hread
      · next u c₁ hadvance =>
        cases hread
        cases h
        exact .inl ⟨rfl, hadvance, rfl⟩
    · rintro (⟨-, hadvance, rfl⟩ | ⟨hnot, -⟩)
      · exact ⟨some (), c', by rw [hadvance], rfl⟩
      · cases hnot
  | false =>
    rw [if_neg Bool.false_ne_true]
    constructor
    · rintro ⟨bang, c₁, hread, h⟩
      cases hread
      cases h
      exact .inr ⟨rfl, rfl, rfl⟩
    · rintro (⟨hnot, -⟩ | ⟨-, rfl, rfl⟩)
      · cases hnot
      · exact ⟨none, c', rfl, rfl⟩

theorem plainType_eq_ok_iff : plainType item c = .ok (e, c') ↔
    (c.atName = true ∧ advance c = .ok ((), c') ∧ e = .named (String.ofList c.token.text)) ∨
      (c.atName = false ∧ listType item c = .ok (e, c')) := by
  unfold plainType
  cases hname : c.atName with
  | true =>
    rw [if_pos rfl]
    constructor
    · intro h
      obtain ⟨n, c₁, hread, h⟩ := Parser.bind_eq_ok.1 h
      obtain ⟨-, hadvance, rfl⟩ := name_eq_ok_iff.1 hread
      cases h
      exact .inl ⟨rfl, hadvance, rfl⟩
    · rintro (⟨-, hadvance, rfl⟩ | ⟨hnot, -⟩)
      · exact Parser.bind_eq_ok.2 ⟨_, c', name_eq_ok_iff.2 ⟨hname, hadvance, rfl⟩, rfl⟩
      · cases hnot
  | false =>
    rw [if_neg Bool.false_ne_true]
    constructor
    · exact fun h => .inr ⟨rfl, h⟩
    · rintro (⟨hnot, -⟩ | ⟨-, h⟩)
      · cases hnot
      · exact h

/-! ### Tokens of a type that is read -/

/-- **Between two cursors, the tokens spell a type.** -/
def Cursor.Spells (c : Cursor) (e : TypeExpression) (c' : Cursor) : Prop :=
  ∃ used, c.left = used ++ c'.left ∧ e.Spelled used

theorem spells_of_plainType (hitem : ∀ {c e c'}, c.Ends → item c = .ok (e, c') → c.Spells e c') (hc : c.Ends)
    (h : plainType item c = .ok (e, c')) : c.Spells e c' ∧ e.isPlain = true := by
  rcases plainType_eq_ok_iff.1 h with ⟨hname, hadvance, rfl⟩ | ⟨-, hlist⟩
  · exact ⟨⟨[c.token], hc.left_of_advance (.inl hname) hadvance, .named hname⟩, rfl⟩
  · obtain ⟨hopening, c₁, inner, c₂, hadvance, hinner, hclosing, hadvance', rfl⟩ := listType_eq_ok_iff.1 hlist
    have hleft : c.left = [c.token] ++ c₁.left := hc.left_of_advance (.inr ⟨_, hopening⟩) hadvance
    have hc₁ := hc.of_suffix hleft
    obtain ⟨used, hused, hspelled⟩ := hitem hc₁ hinner
    have hleft' := (hc₁.of_suffix hused).left_of_advance (.inr ⟨_, hclosing⟩) hadvance'
    refine ⟨⟨c.token :: (used ++ [c₂.token]), ?_, .list hopening hspelled hclosing⟩, rfl⟩
    rw [hleft, hused, hleft']
    simp

theorem spells_of_typeWith (hitem : ∀ {c e c'}, c.Ends → item c = .ok (e, c') → c.Spells e c') (hc : c.Ends)
    (h : typeWith item c = .ok (e, c')) : c.Spells e c' := by
  rw [typeWith_apply] at h
  obtain ⟨t, c₁, hplain, hbehind⟩ := Parser.bind_eq_ok.1 h
  obtain ⟨⟨used, hused, hspelled⟩, ht⟩ := spells_of_plainType hitem hc hplain
  rcases bangBehind_eq_ok_iff.1 hbehind with ⟨hbang, hadvance, rfl⟩ | ⟨-, rfl, rfl⟩
  · have hleft := (hc.of_suffix hused).left_of_advance (.inr ⟨_, hbang⟩) hadvance
    refine ⟨used ++ [c₁.token], ?_, .nonNull hspelled ht hbang⟩
    rw [hused, hleft]
    simp
  · exact ⟨used, hused, hspelled⟩

/-- **A type that is read is spelled by the tokens that it is read off.** -/
theorem spells_of_type {room : Nat} (hc : c.Ends) (h : type room c = .ok (e, c')) : c.Spells e c' := by
  induction room generalizing c e c' with
  | zero => exact spells_of_typeWith (fun _ hfail => by cases hfail) hc h
  | succ room ih => exact spells_of_typeWith (fun hc h => ih hc h) hc h

end Sdl

end QueryAid
