import QueryAid.Proofs.Sdl.Types
import Mathlib.Data.List.TakeWhile
/-!
# Reading written types

A written type is cut into tokens that spell it, whatever comes behind that does not go on a name
(`exists_tokensFrom_of_written`), and tokens that spell a type are read as that type, as long as no exclamation mark
comes behind (`type_of_spelled`). So a written type is read to its end, unless its brackets are nested too deep
(`isReadIn_of_written`).
-/

namespace QueryAid

namespace Sdl

/-- How deep brackets are nested in a type. -/
def TypeExpression.depth : TypeExpression → Nat
  | named _ => 0
  | list inner => inner.depth + 1
  | nonNull inner => inner.depth

variable {e : TypeExpression} {cs rest : List Char} {room : Nat} {place : Place} {c : Char}

/-! ### Cutting -/

/-- A character that something between tokens starts with. -/
def startsBlank (c : Char) : Bool := [' ', ',', '\t', '\n', '\r', '\uFEFF', '#'].contains c

theorem spanBlank_cons (hc : startsBlank c = false) : spanBlank false (c :: cs) = ([], c :: cs) := by
  rw [spanBlank, if_neg Bool.false_ne_true]
  exact if_neg (by rw [show List.contains _ c = false from hc]; exact Bool.false_ne_true)

/-- The first token is cut off where no blank stands. -/
theorem tokensFrom_cons {kind : TokenKind} {extra : Nat} (hc : startsBlank c = false)
    (hscan : scan c rest = (kind, extra)) (hkind : kind ≠ .unreadable) (hroom : opens kind = true → room ≠ 0) :
    tokensFrom room place (c :: rest) = ⟨kind, c :: rest.take extra, place⟩ ::
      tokensFrom (if opens kind then room - 1 else if closes kind then room + 1 else room)
        (placeAfterToken place (c :: rest.take extra)) (rest.drop extra) := by
  have hblank : spanBlank false (c :: rest) = ([], c :: rest) := spanBlank_cons hc
  rw [tokensFrom]
  split
  · next h =>
    rw [hblank] at h
    cases h
  · next c' rest' h =>
    rw [hblank] at h
    obtain ⟨rfl, rfl⟩ := List.cons_eq_cons.1 h
    have hreadable : (kind == .unreadable || (opens kind && room == 0)) = false := by
      rw [Bool.or_eq_false_iff, beq_eq_false_iff_ne, Bool.and_eq_false_imp]
      exact ⟨hkind, fun h => beq_eq_false_iff_ne.2 (hroom h)⟩
    simp only [hscan, hreadable, hblank, placeAfterBlank, Bool.false_eq_true, if_false]

/-- Neither blanks nor marks start names. -/
theorem startsBlank_and_mark?_of_isNameStart (h : isNameStart c = true) : startsBlank c = false ∧ mark? c = none := by
  constructor
  · rw [← Bool.not_eq_true]
    intro hblank
    have hnone : [' ', ',', '\t', '\n', '\r', '\uFEFF', '#'].all (fun d => !isNameStart d) = true := by decide
    have hc := List.all_eq_true.1 hnone c (List.contains_iff_mem.1 hblank)
    rw [h] at hc
    cases hc
  · unfold mark?
    split
    all_goals first | rfl | exact absurd h (by decide)

/-- **A name is cut off whole,** where nothing comes behind that it could go on with. -/
theorem tokensFrom_name {name : String} (h : isIdentifier name = true)
    (hrest : rest.head?.all (fun d => !isNameContinue d) = true) :
    tokensFrom room place (name.toList ++ rest) =
      ⟨.name, name.toList, place⟩ :: tokensFrom room (placeAfterToken place name.toList) rest := by
  unfold isIdentifier at h
  cases hname : name.toList with
  | nil =>
    rw [hname] at h
    cases h
  | cons c cs =>
    rw [hname] at h
    obtain ⟨hstart, hcontinue⟩ := Bool.and_eq_true_iff.1 h
    obtain ⟨hblank, hmark⟩ := startsBlank_and_mark?_of_isNameStart hstart
    have hstops : rest.takeWhile isNameContinue = [] := by
      cases rest with
      | nil => rfl
      | cons d ds => exact List.takeWhile_cons_of_neg (by simpa using hrest)
    have hword : (cs ++ rest).takeWhile isNameContinue = cs := by
      rw [List.takeWhile_append_of_pos (List.all_eq_true.1 hcontinue), hstops, List.append_nil]
    have hscan : scan c (cs ++ rest) = (.name, cs.length) := by
      unfold scan
      rw [hmark, hword, if_pos hstart]
    rw [List.cons_append, tokensFrom_cons hblank hscan nofun nofun, List.take_left, List.drop_left]
    rfl

/-- A mark is cut off by itself. -/
theorem tokensFrom_mark {p : Punctuator} {room' : Nat} (hc : startsBlank c = false) (hmark : mark? c = some p)
    (hroom : opens (.punctuator p) = true → room ≠ 0)
    (hroom' : (if opens (.punctuator p) then room - 1 else if closes (.punctuator p) then room + 1 else room) = room') :
    tokensFrom room place (c :: rest) =
      ⟨.punctuator p, [c], place⟩ :: tokensFrom room' (placeAfterToken place [c]) rest := by
  have hscan : scan c rest = (.punctuator p, 0) := by
    unfold scan
    rw [hmark]
  rw [← hroom']
  exact tokensFrom_cons hc hscan nofun hroom

/-- **A written type is cut into tokens that spell it,** if there is room for its brackets and nothing comes behind that
a name could go on with. -/
theorem exists_tokensFrom_of_written (h : e.Written cs) (hroom : e.depth ≤ room)
    (hrest : rest.head?.all (fun d => !isNameContinue d) = true) :
    ∃ ts place', tokensFrom room place (cs ++ rest) = ts ++ tokensFrom room place' rest ∧ e.Spelled ts := by
  -- The brackets and exclamation marks that come behind a part of a type go on no name.
  have hmark (d : Char) (hd : isNameContinue d = false) (ds : List Char) :
      (d :: ds).head?.all (fun d => !isNameContinue d) = true := by simp [hd]
  -- An opening bracket takes one from the room, and the closing one gives it back.
  induction h generalizing room place rest with
  | @named name hname =>
    have hspelled := @TypeExpression.Spelled.named ⟨.name, name.toList, place⟩ rfl
    rw [String.ofList_toList] at hspelled
    exact ⟨[⟨.name, name.toList, place⟩], _, tokensFrom_name hname hrest, hspelled⟩
  | @list inner cs _ ih =>
    obtain ⟨room, rfl⟩ : ∃ r, room = r + 1 := Nat.exists_eq_succ_of_ne_zero (Nat.ne_zero_of_lt hroom)
    have hinner : inner.depth ≤ room := Nat.le_of_succ_le_succ hroom
    obtain ⟨ts, place', htokens, hspelled⟩ := ih hinner (hmark ']' (by decide) rest)
    have hopening : tokensFrom (room + 1) place ('[' :: (cs ++ ']' :: rest)) =
        ⟨.punctuator .leftBracket, ['['], place⟩ ::
          tokensFrom room (placeAfterToken place ['[']) (cs ++ ']' :: rest) :=
      tokensFrom_mark (by decide) rfl (fun _ => Nat.succ_ne_zero room) rfl
    have hclosing : tokensFrom room place' (']' :: rest) = ⟨.punctuator .rightBracket, [']'], place'⟩ ::
        tokensFrom (room + 1) (placeAfterToken place' [']']) rest :=
      tokensFrom_mark (by decide) rfl nofun rfl
    refine ⟨⟨.punctuator .leftBracket, ['['], place⟩ :: (ts ++ [⟨.punctuator .rightBracket, [']'], place'⟩]),
      placeAfterToken place' [']'], ?_, .list rfl hspelled rfl⟩
    rw [List.cons_append, List.append_assoc, List.singleton_append, hopening, htokens, hclosing, List.cons_append,
      List.append_assoc, List.singleton_append]
  | @nonNull inner cs _ hplain ih =>
    obtain ⟨ts, place', htokens, hspelled⟩ := ih hroom (hmark '!' (by decide) rest)
    have hbang : tokensFrom room place' ('!' :: rest) = ⟨.punctuator .bang, ['!'], place'⟩ ::
        tokensFrom room (placeAfterToken place' ['!']) rest :=
      tokensFrom_mark (by decide) rfl nofun rfl
    refine ⟨ts ++ [⟨.punctuator .bang, ['!'], place'⟩], placeAfterToken place' ['!'], ?_, .nonNull hspelled hplain rfl⟩
    rw [List.append_assoc, List.singleton_append, htokens, hbang, List.append_assoc, List.singleton_append]

/-! ### Reading -/

open SchemaParser Sdl.Cursor

variable {c c' : Cursor} {ts : List Token}

/-- Reads what stands in the brackets of a type, where at most `room` brackets are nested in the type. -/
def SchemaParser.nestedType : Nat → SchemaParser TypeExpression
  | 0 => fail
  | room + 1 => type room

theorem type_eq (room : Nat) (c : Cursor) : type room c = (plainType (nestedType room) >>= bangBehind) c := by
  cases room <;> exact typeWith_apply _ c

/-- What has no exclamation mark behind is read in one step. -/
theorem type_of_plainType (h : plainType (nestedType room) c = .ok (e, c')) (hbang : c'.atMark .bang = false) :
    type room c = .ok (e, c') := by
  rw [type_eq]
  exact Parser.bind_eq_ok.2 ⟨e, c', h, bangBehind_eq_ok_iff.2 (.inr ⟨hbang, rfl, rfl⟩)⟩

theorem Cursor.exists_left_eq (h : ts ≠ []) : ∃ c : Cursor, c.left = ts := by
  cases ts with
  | nil => exact absurd rfl h
  | cons t ts => exact ⟨⟨t, ts⟩, rfl⟩

/-- A mark is no other mark, and no name. -/
theorem Token.isMark_eq_false {t : Token} {p q : Punctuator} (h : t.isMark p = true) (hne : p ≠ q) :
    t.isMark q = false := by
  have hkind : t.kind = .punctuator p := eq_of_beq h
  unfold Token.isMark
  rw [hkind, beq_eq_false_iff_ne]
  exact fun heq => hne (TokenKind.punctuator.inj heq)

theorem Token.isName_eq_false {t : Token} {p : Punctuator} (h : t.isMark p = true) : t.isName = false := by
  have hkind : t.kind = .punctuator p := eq_of_beq h
  unfold Token.isName
  rw [hkind]
  rfl

/-- **Tokens that spell a type are read as that type,** up to the first token behind them. What has no exclamation mark
behind is read whether or not one follows. -/
theorem type_of_spelled (h : e.Spelled ts) (hroom : e.depth ≤ room) (hleft : c.left = ts ++ c'.left) :
    (e.isPlain = true → plainType (nestedType room) c = .ok (e, c')) ∧
      (c'.atMark .bang = false → type room c = .ok (e, c')) := by
  -- A part with a mark right behind it must be known to be read up to the mark, which reading the part as a type of its
  -- own would take with it.
  induction h generalizing room c c' with
  | @named t hname =>
    obtain rfl : c.token = t := (List.cons_eq_cons.1 hleft).1
    have hread : plainType (nestedType room) c = .ok (.named (String.ofList c.token.text), c') :=
      plainType_eq_ok_iff.2 (.inl ⟨hname, advance_of_left hleft, rfl⟩)
    exact ⟨fun _ => hread, type_of_plainType hread⟩
  | @list inner opening closing ts hopening _ hclosing ih =>
    obtain ⟨room, rfl⟩ : ∃ r, room = r + 1 := Nat.exists_eq_succ_of_ne_zero (Nat.ne_zero_of_lt hroom)
    obtain rfl : c.token = opening := (List.cons_eq_cons.1 hleft).1
    obtain ⟨c₁, hc₁⟩ : ∃ c₁ : Cursor, c₁.left = ts ++ Cursor.left ⟨closing, c'.left⟩ :=
      Cursor.exists_left_eq (by simp [left])
    have hnext : c.left = c.token :: c₁.left := by
      rw [hc₁, hleft]
      simp [left]
    have hnot : Cursor.atMark .bang ⟨closing, c'.left⟩ = false := Token.isMark_eq_false hclosing (by decide)
    have hinner := (ih (Nat.le_of_succ_le_succ hroom) hc₁).2 hnot
    have hlist := listType_eq_ok_iff.2
      ⟨hopening, c₁, inner, _, advance_of_left hnext, hinner, hclosing, advance_of_left rfl, rfl⟩
    have hread : plainType (nestedType (room + 1)) c = .ok (.list inner, c') :=
      plainType_eq_ok_iff.2 (.inr ⟨Token.isName_eq_false hopening, hlist⟩)
    exact ⟨fun _ => hread, type_of_plainType hread⟩
  | @nonNull inner ts bang _ hplain hbang ih =>
    refine ⟨fun hnot => absurd hnot Bool.false_ne_true, fun _ => ?_⟩
    have hbefore : c.left = ts ++ Cursor.left ⟨bang, c'.left⟩ := by
      rw [hleft]
      simp [left]
    have hinner := (ih hroom hbefore).1 hplain
    rw [type_eq]
    exact Parser.bind_eq_ok.2 ⟨inner, _, hinner, bangBehind_eq_ok_iff.2 (.inl ⟨hbang, advance_of_left rfl, rfl⟩)⟩

/-- **A text is read as a type,** from its start to its end. -/
def TypeExpression.IsReadIn (e : TypeExpression) (cs : List Char) : Prop :=
  ∃ c, type bracketLimit (Cursor.ofSource cs) = .ok (e, c) ∧ c.atEnd = true

/-- **A written type is read to its end,** if no more brackets are nested in it than are read. -/
theorem isReadIn_of_written (h : e.Written cs) (hdepth : e.depth ≤ bracketLimit) : e.IsReadIn cs := by
  obtain ⟨ts, place, htokens, hspelled⟩ :
      ∃ ts place, tokensFrom bracketLimit ⟨1, 1⟩ (cs ++ []) = ts ++ tokensFrom bracketLimit place [] ∧ e.Spelled ts :=
    exists_tokensFrom_of_written h hdepth rfl
  rw [List.append_nil] at htokens
  have hend : tokensFrom bracketLimit place [] = [⟨.endOfInput, [], place⟩] := by
    rw [tokensFrom]
    rfl
  have hleft : (Cursor.ofSource cs).left = ts ++ Cursor.left ⟨⟨.endOfInput, [], place⟩, []⟩ := by
    rw [Cursor.left_ofSource, left, ← hend]
    exact htokens
  exact ⟨_, (type_of_spelled hspelled hdepth hleft).2 rfl, rfl⟩

end Sdl

end QueryAid
