import QueryAid.Proofs.Document.Placing
import QueryAid.Proofs.Document.Reading
import Mathlib.Data.List.Forall2
/-!
# The same tokens at another place

One cursor is the image of another one (`Cursor.IsImage`) if the same tokens are ahead of both, those of the one at the
places of those of the other. What the grammar reads at the image it reads at the original as well, and what it gives
there is what it gives at the original, at its place (`Reflects`). There is one lemma for each operator and move; the
rules follow in another module.

No commas are known at the original. Where the image has one, a rule can only give up that looks at the token behind.
-/

namespace QueryAid

/-! ### Images -/

/-- **A token is the image of another one:** it says the same, at the place of the other one. The end of an input has
no place of its own to stop at. -/
structure Token.IsImage (σ : Placement) (t u : Token) : Prop where
  symbol : t.symbol = u.symbol
  start : t.span.start = σ.start u.span.start
  stop : t.isEnd = false → t.span.stop = σ.stop u.span.stop
  noComma : u.commaNext = false

/-- **A cursor is the image of another one.** -/
structure Cursor.IsImage (σ : Placement) (c k : Cursor) : Prop where
  sound : c.Sound
  token : c.token.IsImage σ k.token
  ahead : List.Forall₂ (Token.IsImage σ) c.ahead k.ahead
  readTo : c.readTo = σ.stop k.readTo

variable {σ : Placement} {t u : Token} {c k : Cursor}

namespace Token.IsImage

theorem kind (h : t.IsImage σ u) : t.kind = u.kind := (Symbol.mk.inj h.symbol).1

theorem text (h : t.IsImage σ u) : t.text = u.text := (Symbol.mk.inj h.symbol).2

theorem isName (h : t.IsImage σ u) : t.isName = u.isName := by
  rw [Token.isName, Token.isName, h.kind]

theorem isMark (h : t.IsImage σ u) (m : Punctuator) : t.isMark m = u.isMark m := by
  rw [Token.isMark, Token.isMark, h.kind]

theorem isString (h : t.IsImage σ u) : t.isString = u.isString := by
  rw [Token.isString, Token.isString, h.kind]

theorem isInvalid (h : t.IsImage σ u) : t.isInvalid = u.isInvalid := by
  rw [Token.isInvalid, Token.isInvalid, h.kind]

theorem span (h : t.IsImage σ u) (hend : t.isEnd = false) : t.span = σ.span u.span := by
  rw [Placement.span, ← h.start, ← h.stop hend]

end Token.IsImage

/-- The first token that is not invalid is the same. -/
theorem Token.find?_valid_rel {ts us : List Token} (h : List.Forall₂ (Token.IsImage σ) ts us) :
    Option.Rel (Token.IsImage σ) (ts.find? fun t => !t.isInvalid) (us.find? fun u => !u.isInvalid) := by
  induction h with
  | nil => exact .none
  | @cons t u ts us htu _ ih =>
    rw [List.find?_cons, List.find?_cons, htu.isInvalid]
    cases u.isInvalid with
    | false => exact .some htu
    | true => exact ih

namespace Cursor

/-- **A test looks at what the current token says,** and at nothing else. -/
def LooksAtSymbol {α : Type} (test : Cursor → α) : Prop := ∃ f : Symbol → α, ∀ c, test c = f c.token.symbol

section LooksAtSymbol

variable {test test' : Cursor → Bool}

theorem looksAtSymbol_atMark (m : Punctuator) : LooksAtSymbol (atMark m) :=
  ⟨fun s => s.kind == .punctuator m, fun _ => rfl⟩

theorem looksAtSymbol_atName : LooksAtSymbol atName := ⟨fun s => s.kind == .name, fun _ => rfl⟩

theorem looksAtSymbol_atWord (word : String) : LooksAtSymbol (atWord word) :=
  ⟨fun s => s.kind == .name && s.text == word, fun _ => rfl⟩

theorem looksAtSymbol_atString : LooksAtSymbol atString := ⟨fun s => s.kind == .string, fun _ => rfl⟩

theorem looksAtSymbol_atEnd : LooksAtSymbol atEnd := ⟨fun s => s.kind == .endOfInput, fun _ => rfl⟩

theorem looksAtSymbol_text {α : Type} (f : String → α) : LooksAtSymbol fun c => f c.token.text :=
  ⟨fun s => f s.text, fun _ => rfl⟩

theorem looksAtSymbol_const {α : Type} (a : α) : LooksAtSymbol fun _ => a := ⟨fun _ => a, fun _ => rfl⟩

theorem LooksAtSymbol.not (h : LooksAtSymbol test) : LooksAtSymbol fun c => !test c := by
  obtain ⟨f, hf⟩ := h
  exact ⟨fun s => !f s, fun c => congrArg Bool.not (hf c)⟩

theorem LooksAtSymbol.and (h : LooksAtSymbol test) (h' : LooksAtSymbol test') :
    LooksAtSymbol fun c => test c && test' c := by
  obtain ⟨f, hf⟩ := h
  obtain ⟨f', hf'⟩ := h'
  exact ⟨fun s => f s && f' s, fun c => congrArg₂ Bool.and (hf c) (hf' c)⟩

theorem LooksAtSymbol.or (h : LooksAtSymbol test) (h' : LooksAtSymbol test') :
    LooksAtSymbol fun c => test c || test' c := by
  obtain ⟨f, hf⟩ := h
  obtain ⟨f', hf'⟩ := h'
  exact ⟨fun s => f s || f' s, fun c => congrArg₂ Bool.or (hf c) (hf' c)⟩

end LooksAtSymbol

namespace IsImage

variable {α : Type}

theorem test_eq {test : Cursor → α} (h : c.IsImage σ k) (htest : LooksAtSymbol test) : test c = test k := by
  obtain ⟨f, hf⟩ := htest
  rw [hf, hf, h.token.symbol]

theorem unread_eq (h : c.IsImage σ k) : Unread.unread c = Unread.unread k := h.ahead.length_eq

/-- From an image to an image, a span is the place of the span between the originals. -/
theorem span_eq {c' k' : Cursor} (h : c.IsImage σ k) (h' : c'.IsImage σ k') :
    (⟨c.token.span.start, c'.readTo⟩ : Span) = σ.span ⟨k.token.span.start, k'.readTo⟩ := by
  rw [Placement.span, h.token.start, h'.readTo]

/-- At the original there is no comma that hides the token that comes second. -/
theorem second?_original (h : c.IsImage σ k) : k.second? = k.ahead.find? fun u => !u.isInvalid := by
  rw [second?, h.token.noComma, if_neg Bool.false_ne_true]

/-- The token that comes second is the same, unless there is a comma in front of it. -/
theorem second?_rel (h : c.IsImage σ k) : c.second? = none ∨ Option.Rel (Token.IsImage σ) c.second? k.second? := by
  rw [h.second?_original]
  unfold second?
  split
  · exact .inl rfl
  · exact .inr (Token.find?_valid_rel h.ahead)

end IsImage

end Cursor

/-! ### Parsers -/

namespace TokenParser

open Cursor

/-- **What is read at the image of a cursor is read at the cursor as well,** with a related result. -/
def Reflects {α β : Type} (σ : Placement) (r : α → β → Prop) (p : TokenParser α) (q : TokenParser β) : Prop :=
  ∀ ⦃c k a c'⦄, c.IsImage σ k → p c = .ok (a, c') → ∃ b k', q k = .ok (b, k') ∧ r a b ∧ c'.IsImage σ k'

/-- **A parser gives at the image of a cursor what it gives at the cursor,** brought to its place. -/
abbrev ReflectsBy {α : Type} (σ : Placement) (place : α → α) (p : TokenParser α) : Prop :=
  Reflects σ (fun a b => a = place b) p p

/-- A parser gives the same at the image of a cursor as at the cursor. -/
abbrev ReadsAlike {α : Type} (σ : Placement) (p : TokenParser α) : Prop := Reflects σ Eq p p

/-- What is read at the image of a cursor is read at the cursor as well, or the reading gets stuck. -/
def ReflectsUnless {α β : Type} (σ : Placement) (stuck : Cursor → Prop) (r : α → β → Prop) (p : TokenParser α)
    (q : TokenParser β) : Prop :=
  ∀ ⦃c k a c'⦄, c.IsImage σ k → p c = .ok (a, c') →
    (∃ b k', q k = .ok (b, k') ∧ r a b ∧ c'.IsImage σ k') ∨ stuck c'

variable {α α' β β' : Type} {p : TokenParser α} {q : TokenParser β} {r : α → β → Prop} {r' : α' → β' → Prop}
  {f : β → α} {test : Cursor → Bool} {fault : SyntaxFault} {stuck : Cursor → Prop}

theorem Reflects.unless (stuck : Cursor → Prop) (h : Reflects σ r p q) : ReflectsUnless σ stuck r p q :=
  fun _ _ _ _ hc hp => .inl (h hc hp)

/-! ### Operators -/

theorem reflects_pure {a : α} {b : β} (h : r a b) : Reflects σ r (pure a) (pure b) := by
  intro c k a' c' hc hp
  obtain ⟨rfl, rfl⟩ := Parser.pure_eq_ok_iff.1 hp
  exact ⟨b, k, rfl, h, hc⟩

theorem Reflects.bind {g : α → TokenParser α'} {g' : β → TokenParser β'} (h : Reflects σ r p q)
    (hg : ∀ a b, r a b → Reflects σ r' (g a) (g' b)) : Reflects σ r' (p >>= g) (q >>= g') := by
  intro c k a' c' hc hp
  obtain ⟨a, c₁, hpa, hga⟩ := Parser.bind_eq_ok_iff.1 hp
  obtain ⟨b, k₁, hqb, hab, hc₁⟩ := h hc hpa
  obtain ⟨b', k', hgb, hab', hc'⟩ := hg a b hab hc₁ hga
  exact ⟨b', k', Parser.bind_eq_ok_iff.2 ⟨b, k₁, hqb, hgb⟩, hab', hc'⟩

theorem Reflects.bind_unless {g : α → TokenParser α'} {g' : β → TokenParser β'} (h : Reflects σ r p q)
    (hg : ∀ a b, r a b → ReflectsUnless σ stuck r' (g a) (g' b)) : ReflectsUnless σ stuck r' (p >>= g) (q >>= g') := by
  intro c k a' c' hc hp
  obtain ⟨a, c₁, hpa, hga⟩ := Parser.bind_eq_ok_iff.1 hp
  obtain ⟨b, k₁, hqb, hab, hc₁⟩ := h hc hpa
  refine (hg a b hab hc₁ hga).imp_left ?_
  rintro ⟨b', k', hgb, hab', hc'⟩
  exact ⟨b', k', Parser.bind_eq_ok_iff.2 ⟨b, k₁, hqb, hgb⟩, hab', hc'⟩

/-- A rule that ends the items fails where their reading is stuck. -/
theorem ReflectsUnless.bind {g : α → TokenParser α'} {g' : β → TokenParser β'} (h : ReflectsUnless σ stuck r p q)
    (hg : ∀ a b, r a b → Reflects σ r' (g a) (g' b)) (hstuck : ∀ a c b c', stuck c → g a c ≠ .ok (b, c')) :
    Reflects σ r' (p >>= g) (q >>= g') := by
  intro c k a' c' hc hp
  obtain ⟨a, c₁, hpa, hga⟩ := Parser.bind_eq_ok_iff.1 hp
  rcases h hc hpa with ⟨b, k₁, hqb, hab, hc₁⟩ | hc₁
  · obtain ⟨b', k', hgb, hab', hc'⟩ := hg a b hab hc₁ hga
    exact ⟨b', k', Parser.bind_eq_ok_iff.2 ⟨b, k₁, hqb, hgb⟩, hab', hc'⟩
  · exact absurd hga (hstuck a c₁ a' c' hc₁)

theorem reflects_look {test : Cursor → α} (h : LooksAtSymbol test) : ReadsAlike σ (Parser.look test) := by
  intro c k a c' hc hp
  obtain ⟨rfl, rfl⟩ := Parser.look_eq_ok_iff.1 hp
  exact ⟨test k, k, rfl, hc.test_eq h, hc⟩

theorem reflects_token : Reflects σ (Token.IsImage σ) (Parser.look Cursor.token) (Parser.look Cursor.token) := by
  intro c k t c' hc hp
  obtain ⟨rfl, rfl⟩ := Parser.look_eq_ok_iff.1 hp
  exact ⟨k.token, k, rfl, hc.token, hc⟩

theorem reflects_second? : Reflects σ (fun a b => a = none ∨ Option.Rel (Token.IsImage σ) a b)
    (Parser.look Cursor.second?) (Parser.look Cursor.second?) := by
  intro c k a c' hc hp
  obtain ⟨rfl, rfl⟩ := Parser.look_eq_ok_iff.1 hp
  exact ⟨k.second?, k, rfl, hc.second?_rel, hc⟩

theorem reflects_fail : Reflects σ r (fail fault) q := fun _ _ _ _ _ hp => absurd hp fail_ne_ok

theorem Reflects.optional (h : Reflects σ (fun a b => a = f b) p q) (htest : LooksAtSymbol test) :
    Reflects σ (fun a b => a = b.map f) (Parser.optional test p) (Parser.optional test q) := by
  intro c k found c' hc hp
  have hsame := hc.test_eq htest
  rcases Parser.optional_eq_ok_iff.1 hp with ⟨hat, a, hpa, rfl⟩ | ⟨hat, rfl, rfl⟩
  · obtain ⟨b, k', hqb, rfl, hc'⟩ := h hc hpa
    exact ⟨some b, k', Parser.optional_eq_ok_iff.2 (.inl ⟨hsame ▸ hat, b, hqb, rfl⟩), rfl, hc'⟩
  · exact ⟨none, k, Parser.optional_eq_ok_iff.2 (.inr ⟨hsame ▸ hat, rfl, rfl⟩), rfl, hc⟩

/-- **A repetition gets stuck where one of its items does,** if no item can follow there. -/
theorem ReflectsUnless.many (h : ReflectsUnless σ stuck (fun a b => a = f b) p q) (htest : LooksAtSymbol test)
    (hstop : ∀ c, stuck c → test c = false) :
    ReflectsUnless σ stuck (fun as bs => as = bs.map f) (Parser.many test p) (Parser.many test q) := by
  intro c k as c' hc hp
  -- The recursion is on what is left to read, which is as much on both sides.
  induction hleft : Unread.unread c using Nat.strongRecOn generalizing c k as with
  | ind left ih =>
    rw [Parser.many] at hp ⊢
    rw [← hc.test_eq htest]
    split at hp
    · next hat =>
      rw [if_pos hat]
      split at hp
      · cases hp
      · next a c₁ hpa =>
        rcases h hc hpa with ⟨b, k₁, hqb, rfl, hc₁⟩ | hc₁
        · rw [hqb, ← hc.unread_eq]
          dsimp only
          rw [← hc₁.unread_eq]
          split at hp
          · next hless =>
            split at hp
            · cases hp
            · next as' c₂ hrest =>
              cases hp
              rw [if_pos hless]
              rcases ih _ (hleft ▸ hless) hc₁ hrest rfl with ⟨bs, k₂, hbs, rfl, hc₂⟩ | hc₂
              · rw [hbs]
                exact .inl ⟨b :: bs, k₂, rfl, rfl, hc₂⟩
              · exact .inr hc₂
          · next hless =>
            cases hp
            rw [if_neg hless]
            exact .inl ⟨[b], k₁, rfl, rfl, hc₁⟩
        · split at hp
          · rw [Parser.many, hstop _ hc₁] at hp
            cases hp
            exact .inr hc₁
          · cases hp
            exact .inr hc₁
    · next hat =>
      cases hp
      rw [if_neg hat]
      exact .inl ⟨[], k, rfl, rfl, hc⟩

theorem Reflects.many (h : Reflects σ (fun a b => a = f b) p q) (htest : LooksAtSymbol test) :
    Reflects σ (fun as bs => as = bs.map f) (Parser.many test p) (Parser.many test q) := by
  intro c k as c' hc hp
  have hmany := ReflectsUnless.many (h.unless fun _ => False) htest fun _ => False.elim
  exact (hmany hc hp).resolve_right id

/-! ### Moves -/

theorem reflects_require (htest : LooksAtSymbol test) : ReadsAlike σ (require test fault) := by
  intro c k a c' hc hp
  obtain ⟨hat, rfl⟩ := require_eq_ok_iff.1 hp
  exact ⟨(), k, require_eq_ok_iff.2 ⟨hc.test_eq htest ▸ hat, rfl⟩, rfl, hc⟩

/-- **Going on leads from an image to an image.** -/
theorem reflects_advance : ReadsAlike σ advance := by
  intro c k a c' hc hp
  have hsound := hc.sound.of_reaches (advance_readsOn _ _ _ hp)
  have hends := hc.sound.ahead_eq_nil_iff
  have hahead := hc.ahead
  unfold advance at hp ⊢
  split at hp
  · next hnil =>
    cases hp
    rw [hnil, List.forall₂_nil_left_iff] at hahead
    rw [hahead]
    exact ⟨(), k, rfl, rfl, hc⟩
  · next t ts hcons =>
    rw [hcons] at hahead hends
    obtain ⟨u, us, htu, htsus, hk⟩ := List.forall₂_cons_left_iff.1 hahead
    have hnotEnd : c.token.isEnd = false := Bool.eq_false_iff.2 fun hend => List.cons_ne_nil t ts (hends.2 hend)
    cases honto : Cursor.onto c.token.span.stop t ts with
    | error e =>
      rw [honto] at hp
      cases hp
    | ok c₁ =>
      rw [honto] at hp
      cases hp
      obtain ⟨hvalid, rfl⟩ := onto_eq_ok_iff.1 honto
      have hk' : Cursor.onto k.token.span.stop u us = .ok ⟨u, us, k.token.span.stop⟩ :=
        onto_eq_ok_iff.2 ⟨htu.isInvalid ▸ hvalid, rfl⟩
      rw [hk]
      dsimp only
      rw [hk']
      exact ⟨(), _, rfl, rfl, hsound, htu, htsus, hc.token.stop hnotEnd⟩

theorem reflects_expect (htest : LooksAtSymbol test) : ReadsAlike σ (expect test fault) :=
  (reflects_require htest).bind fun _ _ _ => reflects_advance

theorem reflects_close (closer : Closer) : ReadsAlike σ (close closer) :=
  reflects_expect (looksAtSymbol_atMark _)

theorem reflects_skip (htest : LooksAtSymbol test) : ReadsAlike σ (skip test) := by
  intro c k a c' hc hp
  have hsame := hc.test_eq htest
  unfold skip at hp ⊢
  split at hp
  · next hat =>
    rw [if_pos (hsame ▸ hat)]
    exact reflects_advance hc hp
  · next hat =>
    cases hp
    rw [if_neg (hsame ▸ hat)]
    exact ⟨(), k, rfl, rfl, hc⟩

/-- A name is read at its place. -/
theorem reflects_name : ReflectsBy σ (Name.place σ) (name fault) := by
  intro c k n c' hc hp
  obtain ⟨hat, rfl, hadvance⟩ := name_eq_ok hp
  obtain ⟨_, k', hadvance', -, hc'⟩ := reflects_advance hc hadvance
  refine ⟨⟨k.token.text, k.token.span⟩, k', ?_, ?_, hc'⟩
  · rw [name, ← hc.test_eq looksAtSymbol_atName, if_pos hat, hadvance']
  · show (⟨c.token.text, c.token.span⟩ : Name) = ⟨k.token.text, σ.span k.token.span⟩
    rw [hc.token.text, hc.token.span (atEnd_of_atName hat)]

/-- **The span of a construct at the image is the place of its span at the original.** -/
theorem Reflects.spanned {p : TokenParser (Span → α)} {q : TokenParser (Span → β)}
    (h : Reflects σ (fun g g' => ∀ s, r (g (σ.span s)) (g' s)) p q) : Reflects σ r (spanned p) (spanned q) := by
  intro c k a c' hc hp
  obtain ⟨g, hpg, rfl⟩ := spanned_eq_ok_iff.1 hp
  obtain ⟨g', k', hqg, hgg, hc'⟩ := h hc hpg
  rw [hc.span_eq hc']
  exact ⟨_, k', spanned_eq_ok_iff.2 ⟨g', hqg, rfl⟩, hgg _, hc'⟩

end TokenParser

end QueryAid
