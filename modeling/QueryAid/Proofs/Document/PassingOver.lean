import QueryAid.Proofs.Document.Reflecting
/-!
# Passing over what is no token

A reading stops at the first piece of source that is no token. Here it is compared with a reading that passes over such
pieces, as if they were not there. The two agree as long as there is no such piece on the way (`Agree`): then they give
the same, or fail in the same way at a token. Where the first one stops at a piece, whatever the second one comes to
lies behind that piece.

This holds of every parser that goes on by the moves of the grammar (`PassesOver`). There is one lemma for each operator
and move; the rules follow in another module.
-/

namespace QueryAid

namespace Cursor

/-- **One cursor stands where another one does,** in a row of tokens out of which it has not met an invalid one, and has
the same tokens ahead, the invalid ones left out. -/
structure IsWithout (all : List Token) (c k : Cursor) : Prop where
  done : ∃ done, all = done ++ c.rest ∧ ∀ t ∈ done, t.isInvalid = false
  last : ∃ t ∈ all.getLast?, t.isInvalid = false
  valid : c.token.isInvalid = false
  token : k.token = c.token
  ahead : k.ahead = c.ahead.filter fun t => !t.isInvalid
  readTo : k.readTo = c.readTo

/-- **A test sees the same** whether or not there are invalid tokens ahead. -/
def SeesAlike {α : Type} (test : Cursor → α) : Prop := ∀ ⦃all c k⦄, IsWithout all c k → test k = test c

variable {α β : Type} {all : List Token} {c c' k k' : Cursor}

theorem LooksAtSymbol.seesAlike {test : Cursor → α} (h : LooksAtSymbol test) : SeesAlike test := by
  intro all c k hck
  obtain ⟨f, hf⟩ := h
  rw [hf, hf, hck.token]

theorem seesAlike_token : SeesAlike Cursor.token := fun _ _ _ hck => hck.token

/-- The token that comes second is not an invalid one anyway. -/
theorem seesAlike_second? : SeesAlike Cursor.second? := by
  intro all c k hck
  unfold second?
  rw [hck.token, hck.ahead, List.find?_filter]
  simp

theorem SeesAlike.comp {test : Cursor → α} (h : SeesAlike test) (f : α → β) : SeesAlike fun c => f (test c) :=
  fun _ _ _ hck => congrArg f (h hck)

namespace IsWithout

theorem rest_eq (h : IsWithout all c k) : k.rest = c.rest.filter fun t => !t.isInvalid := by
  rw [rest, rest, h.token, h.ahead, List.filter_cons, if_pos (by rw [h.valid]; rfl)]

/-- On both sides as much is read from one place to another one, or as much is left again. -/
theorem unread_lt_iff (h : IsWithout all c k) (h' : IsWithout all c' k') :
    Unread.unread c' < Unread.unread c ↔ Unread.unread k' < Unread.unread k := by
  -- Between two places there are valid tokens only.
  have hbetween : ∀ ⦃c c' k k' : Cursor⦄, IsWithout all c k → IsWithout all c' k' → ∀ ts, c.rest = ts ++ c'.rest →
      (∀ t ∈ ts, t.isInvalid = false) →
      Unread.unread c = ts.length + Unread.unread c' ∧ Unread.unread k = ts.length + Unread.unread k' := by
    intro c c' k k' h h' ts hrest hts
    have hrest' : k.rest = ts ++ k'.rest := by
      have hfilter : ts.filter (fun t => !t.isInvalid) = ts := List.filter_eq_self.2 fun t ht => by rw [hts t ht]; rfl
      rw [h.rest_eq, h'.rest_eq, hrest, List.filter_append, hfilter]
    have hlength := congrArg List.length hrest
    have hlength' := congrArg List.length hrest'
    simp only [rest, List.length_cons, List.length_append] at hlength hlength'
    constructor
    · show c.ahead.length = ts.length + c'.ahead.length
      omega
    · show k.ahead.length = ts.length + k'.ahead.length
      omega
  obtain ⟨done, hall, hdone⟩ := h.done
  obtain ⟨done', hall', hdone'⟩ := h'.done
  rcases List.append_eq_append_iff.1 (hall.symm.trans hall') with ⟨ts, rfl, hrest⟩ | ⟨ts, rfl, hrest⟩
  · have heq := hbetween h h' ts hrest fun t ht => hdone' t (List.mem_append_right done ht)
    omega
  · have heq := hbetween h' h ts hrest fun t ht => hdone t (List.mem_append_right done' ht)
    omega

end IsWithout

end Cursor

/-! ### What readings come to -/

namespace TokenParser

open Cursor

variable {α β : Type} {all : List Token} {good : Token → Prop}

/-- What a reading comes to lies among tokens of some kind: those that are left, or the one at which it fails. -/
def LiesAmong (good : Token → Prop) : Except SyntaxError (α × Cursor) → Prop
  | .ok (_, k) => ∀ t ∈ k.rest, good t
  | .error e => good e.found

/-- **Two readings agree:** they give the same, or fail in the same way at a token that is not invalid, or the first one
stops at an invalid one and the second one comes to something behind it. -/
inductive Agree (all : List Token) : Except SyntaxError (α × Cursor) → Except SyntaxError (α × Cursor) → Prop where
  | ok {a : α} {c k : Cursor} (h : IsWithout all c k) : Agree all (.ok (a, c)) (.ok (a, k))
  | error {e : SyntaxError} {done behind : List Token} (hall : all = done ++ e.found :: behind)
    (hdone : ∀ t ∈ done, t.isInvalid = false) (hvalid : e.found.isInvalid = false) : Agree all (.error e) (.error e)
  | stopped {t : Token} {fault : LexicalFault} {done behind : List Token} {r : Except SyntaxError (α × Cursor)}
    (hall : all = done ++ t :: behind) (hdone : ∀ u ∈ done, u.isInvalid = false) (hkind : t.kind = .invalid fault)
    (hr : LiesAmong (· ∈ behind) r) : Agree all (.error ⟨.lexical fault, t⟩) r

/-- **A parser passes over invalid tokens** if it reads on and agrees with itself where they are left out. -/
structure PassesOver (p : TokenParser α) : Prop where
  liesAmong : ∀ ⦃good : Token → Prop⦄ ⦃k : Cursor⦄, (∀ t ∈ k.rest, good t) → LiesAmong good (p k)
  agree : ∀ ⦃all : List Token⦄ ⦃c k : Cursor⦄, IsWithout all c k → Agree all (p c) (p k)

variable {p : TokenParser α} {f : α → TokenParser β} {test : Cursor → Bool} {fault : SyntaxFault} {c k : Cursor}

/-! ### Operators -/

theorem passesOver_pure (a : α) : PassesOver (pure a) where
  liesAmong _ _ hk := hk
  agree _ _ _ hck := .ok hck

theorem passesOver_look {test : Cursor → α} (h : SeesAlike test) : PassesOver (Parser.look test) where
  liesAmong _ _ hk := hk
  agree all c k hck := by
    unfold Parser.look
    rw [h hck]
    exact .ok hck

/-- A failure at the current token is the same on both sides. -/
theorem agree_error_at (h : IsWithout all c k) (fault : SyntaxFault) :
    Agree all (.error ⟨fault, c.token⟩ : Except SyntaxError (α × Cursor)) (.error ⟨fault, k.token⟩) := by
  obtain ⟨done, hall, hdone⟩ := h.done
  rw [h.token]
  exact .error hall hdone h.valid

theorem passesOver_fail (fault : SyntaxFault) : PassesOver (fail fault : TokenParser α) where
  liesAmong _ k hk := hk k.token List.mem_cons_self
  agree _ _ _ hck := agree_error_at hck fault

theorem liesAmong_bind (h : LiesAmong good (p k)) (hf : ∀ a, PassesOver (f a)) : LiesAmong good ((p >>= f) k) := by
  simp only [Bind.bind]
  cases hp : p k with
  | error e =>
    rw [hp] at h
    exact h
  | ok r =>
    obtain ⟨a, k'⟩ := r
    rw [hp] at h
    exact (hf a).liesAmong h

theorem PassesOver.bind (h : PassesOver p) (hf : ∀ a, PassesOver (f a)) : PassesOver (p >>= f) where
  liesAmong good k hk := liesAmong_bind (h.liesAmong hk) hf
  agree all c k hck := by
    have hagree := h.agree hck
    have hrest : ∀ good, LiesAmong good (p k) → LiesAmong good ((p >>= f) k) := fun _ hgood =>
      liesAmong_bind hgood hf
    simp only [Bind.bind] at hrest ⊢
    generalize p c = rc, p k = rk at hagree hrest
    cases hagree with
    | @ok a c' k' hck' => exact (hf a).agree hck'
    | error hall hdone hvalid => exact .error hall hdone hvalid
    | stopped hall hdone hkind hr => exact .stopped hall hdone hkind (hrest _ hr)

theorem PassesOver.map (h : PassesOver p) (g : α → β) : PassesOver (g <$> p) := h.bind fun a => passesOver_pure (g a)

/-- A choice that is the same on both sides. -/
theorem PassesOver.choose {q : TokenParser α} (hp : PassesOver p) (hq : PassesOver q) (htest : LooksAtSymbol test) :
    PassesOver fun c => if test c then p c else q c where
  liesAmong good k hk := by
    show LiesAmong good (if test k then p k else q k)
    split
    · exact hp.liesAmong hk
    · exact hq.liesAmong hk
  agree all c k hck := by
    show Agree all (if test c then p c else q c) (if test k then p k else q k)
    rw [htest.seesAlike hck]
    split
    · exact hp.agree hck
    · exact hq.agree hck

theorem passesOver_require (htest : LooksAtSymbol test) : PassesOver (require test fault) :=
  (passesOver_pure ()).choose (passesOver_fail fault) htest

theorem PassesOver.optional (h : PassesOver p) (htest : LooksAtSymbol test) : PassesOver (Parser.optional test p) :=
  (h.map some).choose (passesOver_pure none) htest

/-- What an item comes to and the repetitions behind it come to, the repetition that starts with the item comes to. -/
theorem liesAmong_many_step (hmore : test k = true) (hitem : LiesAmong good (p k))
    (hrest : ∀ k', (∀ t ∈ k'.rest, good t) → Unread.unread k' < Unread.unread k →
      LiesAmong good (Parser.many test p k')) :
    LiesAmong good (Parser.many test p k) := by
  rw [Parser.many, if_pos hmore]
  cases hp : p k with
  | error e =>
    rw [hp] at hitem
    exact hitem
  | ok r =>
    obtain ⟨a, k'⟩ := r
    rw [hp] at hitem
    dsimp only
    split
    · next hless =>
      have hmany := hrest k' hitem hless
      generalize Parser.many test p k' = r at hmany
      cases r with
      | error e => exact hmany
      | ok r => exact hmany
    · exact hitem

theorem liesAmong_many (h : PassesOver p) (hk : ∀ t ∈ k.rest, good t) : LiesAmong good (Parser.many test p k) := by
  -- The recursion is on what is left to read.
  induction hleft : Unread.unread k using Nat.strongRecOn generalizing k with
  | ind left ih =>
    by_cases hmore : test k = true
    · exact liesAmong_many_step hmore (h.liesAmong hk) fun k' hk' hless => ih _ (hleft ▸ hless) hk' rfl
    · rw [Parser.many, if_neg hmore]
      exact hk

/-- **A repetition passes over invalid tokens if its items do:** on both sides it ends at the same item. -/
theorem PassesOver.many (h : PassesOver p) (htest : LooksAtSymbol test) : PassesOver (Parser.many test p) where
  liesAmong _ _ hk := liesAmong_many h hk
  agree all c k hck := by
    induction hleft : Unread.unread c using Nat.strongRecOn generalizing c k with
    | ind left ih =>
      have hagree := h.agree hck
      have hsame := htest.seesAlike hck
      by_cases hmore : test k = true
      · have hbehind : ∀ good, LiesAmong good (p k) → LiesAmong good (Parser.many test p k) := fun good hitem =>
          liesAmong_many_step hmore hitem fun k' hk' _ => liesAmong_many h hk'
        rw [Parser.many, if_pos (hsame ▸ hmore)]
        rw [Parser.many, if_pos hmore] at hbehind ⊢
        generalize p c = rc, p k = rk at hagree hbehind
        cases hagree with
        | @ok a c' k' hck' =>
          dsimp only
          -- An item that reads nothing reads nothing on the other side, where it ends the repetition as well.
          by_cases hless : Unread.unread c' < Unread.unread c
          · have hrest := ih _ (hleft ▸ hless) _ _ hck' rfl
            rw [if_pos hless, if_pos ((hck.unread_lt_iff hck').1 hless)]
            generalize Parser.many test p c' = mc, Parser.many test p k' = mk at hrest
            cases hrest with
            | ok hck'' => exact .ok hck''
            | error hall hdone hvalid => exact .error hall hdone hvalid
            | stopped hall hdone hkind hr =>
              refine .stopped hall hdone hkind ?_
              cases mk with
              | error e => exact hr
              | ok r => exact hr
          · rw [if_neg hless, if_neg (mt (hck.unread_lt_iff hck').2 hless)]
            exact .ok hck'
        | error hall hdone hvalid => exact .error hall hdone hvalid
        | stopped hall hdone hkind hr => exact .stopped hall hdone hkind (hbehind _ hr)
      · rw [Parser.many, if_neg (hsame ▸ hmore), Parser.many, if_neg hmore]
        exact .ok hck

/-! ### Moves -/

theorem onto_of_isInvalid {t : Token} (h : t.isInvalid = true) :
    ∃ fault, t.kind = .invalid fault ∧ ∀ readTo ahead, Cursor.onto readTo t ahead = .error ⟨.lexical fault, t⟩ := by
  unfold Token.isInvalid at h
  split at h
  · next fault hkind => exact ⟨fault, hkind, fun readTo ahead => by rw [Cursor.onto, hkind]⟩
  · cases h

/-- Going on leads among the tokens ahead, if there are any. -/
theorem liesAmong_advance (hne : k.ahead ≠ []) (hk : ∀ t ∈ k.ahead, good t) : LiesAmong good (advance k) := by
  unfold advance
  cases hahead : k.ahead with
  | nil => exact absurd hahead hne
  | cons t ts =>
    rw [hahead] at hk
    show LiesAmong good ((Cursor.onto k.token.span.stop t ts).map ((), ·))
    cases hvalid : t.isInvalid with
    | false =>
      rw [onto_eq_ok_iff.2 ⟨hvalid, rfl⟩]
      exact hk
    | true =>
      obtain ⟨fault, -, honto⟩ := onto_of_isInvalid hvalid
      rw [honto]
      exact hk t List.mem_cons_self

/-- **Going on passes over invalid tokens.** Where it stops at one, there is a token behind that one, because the last
of all is not invalid. -/
theorem passesOver_advance : PassesOver advance where
  liesAmong good k hk := by
    by_cases hahead : k.ahead = []
    · rw [advance, hahead]
      exact hk
    · exact liesAmong_advance hahead fun t ht => hk t (List.mem_cons_of_mem _ ht)
  agree all c k hck := by
    obtain ⟨done, hall, hdone⟩ := hck.done
    have hdone' : ∀ t ∈ done ++ [c.token], t.isInvalid = false := by
      rw [List.forall_mem_append, List.forall_mem_singleton]
      exact ⟨hdone, hck.valid⟩
    have hahead := hck.ahead
    rw [rest] at hall
    unfold advance
    cases hc : c.ahead with
    | nil =>
      rw [hc] at hahead
      rw [hahead]
      exact .ok hck
    | cons t ts =>
      rw [hc] at hall hahead
      have hall' : all = (done ++ [c.token]) ++ t :: ts := by rw [hall, List.append_assoc]; rfl
      dsimp only
      cases hvalid : t.isInvalid with
      | false =>
        rw [List.filter_cons, if_pos (by rw [hvalid]; rfl)] at hahead
        rw [hahead]
        dsimp only
        rw [onto_eq_ok_iff.2 ⟨hvalid, rfl⟩, onto_eq_ok_iff.2 ⟨hvalid, rfl⟩]
        exact .ok ⟨⟨_, hall', hdone'⟩, hck.last, hvalid, rfl, rfl, by rw [hck.token]⟩
      | true =>
        obtain ⟨fault, hkind, honto⟩ := onto_of_isInvalid hvalid
        rw [List.filter_cons, if_neg (by rw [hvalid]; exact Bool.false_ne_true)] at hahead
        rw [honto]
        refine .stopped hall' hdone' hkind (liesAmong_advance ?_ ?_)
        · obtain ⟨u, hu, hlast⟩ := hck.last
          rw [hall', List.getLast?_append_cons] at hu
          have hmem : u ∈ ts := by
            refine (List.mem_cons.1 (List.mem_of_getLast? hu)).resolve_left ?_
            rintro rfl
            rw [hvalid] at hlast
            cases hlast
          rw [hahead]
          exact List.ne_nil_of_mem (List.mem_filter.2 ⟨hmem, by rw [hlast]; rfl⟩)
        · rw [hahead]
          exact fun u hu => (List.mem_filter.1 hu).1

theorem passesOver_expect (htest : LooksAtSymbol test) : PassesOver (expect test fault) :=
  (passesOver_require htest).bind fun _ => passesOver_advance

theorem passesOver_close (closer : Closer) : PassesOver (close closer) := passesOver_expect (looksAtSymbol_atMark _)

theorem passesOver_skip (htest : LooksAtSymbol test) : PassesOver (skip test) :=
  passesOver_advance.choose (passesOver_pure ()) htest

/-- A name is what the token says that is gone on from. -/
theorem name_eq (fault : SyntaxFault) :
    name fault = (require atName fault >>= fun _ =>
      Parser.look (fun c => Name.mk c.token.text c.token.span) >>= fun n => advance >>= fun _ => pure n) := by
  funext c
  simp only [name, require, Parser.look, Bind.bind, Pure.pure]
  cases c.atName with
  | false => rfl
  | true =>
    rw [if_pos rfl, if_pos rfl]
    dsimp only
    cases advance c with
    | error e => rfl
    | ok r => rfl

theorem passesOver_name : PassesOver (name fault) := by
  rw [name_eq]
  exact (passesOver_require looksAtSymbol_atName).bind fun _ =>
    (passesOver_look (seesAlike_token.comp fun t => Name.mk t.text t.span)).bind fun n =>
      passesOver_advance.bind fun _ => passesOver_pure n

theorem liesAmong_spanned {p : TokenParser (Span → α)} (h : LiesAmong good (p k)) : LiesAmong good (spanned p k) := by
  unfold spanned
  generalize p k = r at h
  cases r with
  | error e => exact h
  | ok r => exact h

/-- **The span of a construct is the same on both sides.** -/
theorem PassesOver.spanned {p : TokenParser (Span → α)} (h : PassesOver p) : PassesOver (spanned p) where
  liesAmong _ _ hk := liesAmong_spanned (h.liesAmong hk)
  agree all c k hck := by
    have hagree := h.agree hck
    have hbehind : ∀ good, LiesAmong good (p k) → LiesAmong good (TokenParser.spanned p k) := fun _ =>
      liesAmong_spanned
    unfold TokenParser.spanned at hbehind ⊢
    generalize p c = rc, p k = rk at hagree hbehind
    cases hagree with
    | @ok f c' k' hck' =>
      dsimp only
      rw [hck.token, hck'.readTo]
      exact .ok hck'
    | error hall hdone hvalid => exact .error hall hdone hvalid
    | stopped hall hdone hkind hr => exact .stopped hall hdone hkind (hbehind _ hr)

end TokenParser

end QueryAid
