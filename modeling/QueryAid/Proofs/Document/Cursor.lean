import QueryAid.Proofs.Document.Layout
import QueryAid.Proofs.Parsing
/-!
# What is read between two cursors

A parser that succeeds has read the tokens between the cursor it started at and the one it gives (`Cursor.Reads`). If
these tokens are laid out as a row, the row is spelled between the two cursors (`Cursor.Spells`); rows that are spelled
one after the other are spelled together, and from the first to the last token of a row a part of the document is
spelled (`Spells.node`).

The cursors here are sound: the input ends with the token for its end, and nowhere before, and the texts of tokens suit
them.
-/

namespace QueryAid

/-! ### Operators -/

namespace Parser

variable {σ ε α β : Type} {p : Parser σ ε α} {s s' s'' : σ} {test : σ → Bool}

theorem bind_eq_ok_iff {f : α → Parser σ ε β} {b : β} :
    (p >>= f) s = .ok (b, s'') ↔ ∃ a s', p s = .ok (a, s') ∧ f a s' = .ok (b, s'') := by
  simp only [Bind.bind]
  cases p s with
  | error e => simp
  | ok r =>
    obtain ⟨a, s'⟩ := r
    simp

theorem pure_eq_ok_iff {a b : α} : (pure a : Parser σ ε α) s = .ok (b, s') ↔ a = b ∧ s = s' := by
  simp only [Pure.pure, Except.ok.injEq, Prod.mk.injEq]

theorem map_eq_ok_iff {f : α → β} {b : β} : (f <$> p) s = .ok (b, s') ↔ ∃ a, p s = .ok (a, s') ∧ f a = b := by
  have h : (f <$> p) s = .ok (b, s') ↔ ∃ a s₁, p s = .ok (a, s₁) ∧ (pure (f a) : Parser σ ε β) s₁ = .ok (b, s') :=
    bind_eq_ok_iff
  simp only [h, pure_eq_ok_iff]
  constructor
  · rintro ⟨a, s₁, hp, rfl, rfl⟩
    exact ⟨a, hp, rfl⟩
  · rintro ⟨a, hp, rfl⟩
    exact ⟨a, s', hp, rfl, rfl⟩

theorem look_eq_ok_iff {f : σ → α} {a : α} : (look f : Parser σ ε α) s = .ok (a, s') ↔ f s = a ∧ s = s' := by
  simp only [look, Except.ok.injEq, Prod.mk.injEq]

theorem optional_eq_ok_iff {found : Option α} :
    optional test p s = .ok (found, s') ↔
      (test s = true ∧ ∃ a, p s = .ok (a, s') ∧ found = some a) ∨ (test s = false ∧ found = none ∧ s = s') := by
  unfold optional
  cases test s with
  | false => simp [eq_comm]
  | true =>
    cases p s with
    | error e => simp
    | ok r =>
      obtain ⟨a, s₁⟩ := r
      simp [and_comm, eq_comm]

/-- **The run of a repetition:** it stops when the test fails, or behind an item that consumes nothing. -/
inductive ManyRuns [Unread σ] (more : σ → Bool) (item : Parser σ ε α) : σ → List α → σ → Prop where
  | stop {s : σ} (h : more s = false) : ManyRuns more item s [] s
  | last {s s' : σ} {a : α} (h : more s = true) (ha : item s = .ok (a, s'))
    (hstuck : ¬ Unread.unread s' < Unread.unread s) : ManyRuns more item s [a] s'
  | step {s s' s'' : σ} {a : α} {as : List α} (h : more s = true) (ha : item s = .ok (a, s'))
    (hrest : ManyRuns more item s' as s'') : ManyRuns more item s (a :: as) s''

theorem manyRuns_of_eq_ok [Unread σ] {more : σ → Bool} {item : Parser σ ε α} {as : List α}
    (h : many more item s = .ok (as, s')) : ManyRuns more item s as s' := by
  -- The recursion is on what is left to read.
  induction hleft : Unread.unread s using Nat.strongRecOn generalizing s as with
  | ind left ih =>
    rw [many] at h
    split at h
    · next hmore =>
      split at h
      · cases h
      · next a s₁ ha =>
        split at h
        · next hless =>
          split at h
          · cases h
          · next rest s₂ hrest =>
            cases h
            exact .step hmore ha (ih _ (hleft ▸ hless) hrest rfl)
        · next hstuck =>
          cases h
          exact .last hmore ha hstuck
    · next hmore =>
      cases h
      exact .stop (Bool.eq_false_iff.2 hmore)

end Parser

/-! ### Tokens between cursors -/

namespace Cursor

/-- The tokens that are left, the current one first. -/
def rest (c : Cursor) : List Token := c.token :: c.ahead

/-- **What is left of an input:** it ends with the token for its end, and not before, and every token has a text that
suits it. -/
structure Sound (c : Cursor) : Prop where
  ends : ∃ body e, c.rest = body ++ [e] ∧ e.isEnd = true ∧ ∀ t ∈ body, t.isEnd = false
  suits : ∀ t ∈ c.rest, t.kind.Suits t.text.toList

/-- **From one cursor to another one some tokens are read.** -/
structure Reads (c : Cursor) (ts : List Token) (c' : Cursor) : Prop where
  rest : c.rest = ts ++ c'.rest
  readTo : c'.readTo = ts.getLast?.elim c.readTo fun t => t.span.stop

/-- One cursor is reached from another one by reading tokens. -/
def Reaches (c c' : Cursor) : Prop := ∃ ts, c.Reads ts c'

variable {c c' c'' : Cursor} {ts ts' : List Token}

theorem reads_nil (c : Cursor) : c.Reads [] c := ⟨rfl, rfl⟩

theorem Reads.append (h : c.Reads ts c') (h' : c'.Reads ts' c'') : c.Reads (ts ++ ts') c'' := by
  refine ⟨by rw [h.rest, h'.rest, List.append_assoc], ?_⟩
  rw [h'.readTo, h.readTo, List.getLast?_append]
  cases ts'.getLast? with
  | none => rfl
  | some t => rfl

theorem reaches_refl (c : Cursor) : c.Reaches c := ⟨[], reads_nil c⟩

theorem Reaches.trans (h : c.Reaches c') (h' : c'.Reaches c'') : c.Reaches c'' := by
  obtain ⟨ts, hts⟩ := h
  obtain ⟨ts', hts'⟩ := h'
  exact ⟨ts ++ ts', hts.append hts'⟩

theorem Reads.unread_lt (h : c.Reads ts c') (hts : ts ≠ []) : Unread.unread c' < Unread.unread c := by
  have hlength := congrArg List.length h.rest
  have hpos := List.length_pos_iff.2 hts
  simp only [Cursor.rest, List.length_cons, List.length_append] at hlength
  show c'.ahead.length < c.ahead.length
  omega

theorem Reaches.unread_le (h : c.Reaches c') : Unread.unread c' ≤ Unread.unread c := by
  obtain ⟨ts, hts⟩ := h
  have hlength := congrArg List.length hts.rest
  simp only [Cursor.rest, List.length_cons, List.length_append] at hlength
  show c'.ahead.length ≤ c.ahead.length
  omega

theorem Reads.ne_nil_of_unread_lt (h : c.Reads ts c') (hless : Unread.unread c' < Unread.unread c) : ts ≠ [] := by
  rintro rfl
  have hahead : c.ahead = c'.ahead := (List.cons_eq_cons.1 h.rest).2
  exact absurd hless (by rw [show Unread.unread c' = Unread.unread c from congrArg List.length hahead.symm]; omega)

/-- What is read starts with the current token and ends where the reading has come to. -/
theorem Reads.over_eq (h : c.Reads ts c') (hts : ts ≠ []) : (⟨c.token.span.start, c'.readTo⟩ : Span) = .over ts := by
  obtain ⟨t, ts, rfl⟩ := List.exists_cons_of_ne_nil hts
  have htoken : c.token = t := (List.cons_eq_cons.1 h.rest).1
  have hlast := List.getLast?_eq_some_getLast hts
  rw [h.readTo, Span.over, hlast, htoken]
  rfl

/-! ### The end of the input -/

theorem Sound.ahead_eq_nil_iff (h : c.Sound) : c.ahead = [] ↔ c.atEnd = true := by
  obtain ⟨body, e, hrest, he, hbody⟩ := h.ends
  cases body with
  | nil =>
    obtain ⟨rfl, hahead⟩ := List.cons_eq_cons.1 hrest
    exact iff_of_true hahead he
  | cons t body =>
    obtain ⟨rfl, hahead⟩ := List.cons_eq_cons.1 hrest
    have hnot : c.atEnd = false := hbody _ List.mem_cons_self
    refine iff_of_false ?_ (by rw [hnot]; exact Bool.false_ne_true)
    rw [hahead]
    exact List.append_ne_nil_of_right_ne_nil body (List.cons_ne_nil e [])

theorem Sound.of_reaches (h : c.Sound) (hreach : c.Reaches c') : c'.Sound := by
  obtain ⟨ts, hts⟩ := hreach
  obtain ⟨body, e, hrest, he, hbody⟩ := h.ends
  have hrest' := hts.rest
  refine ⟨?_, fun t ht => h.suits t (hrest' ▸ List.mem_append_right ts ht)⟩
  -- The end of the input is the last token on both sides.
  rcases List.eq_nil_or_concat c'.rest with hnil | ⟨body', e', hlast⟩
  · exact absurd hnil (List.cons_ne_nil _ _)
  · rw [hrest, hlast, List.concat_eq_append, ← List.append_assoc] at hrest'
    obtain ⟨rfl, hends⟩ := List.append_inj' hrest' rfl
    obtain rfl : e = e' := List.head_eq_of_cons_eq hends
    exact ⟨body', e, by rw [hlast, List.concat_eq_append], he, fun t ht => hbody t (List.mem_append_right ts ht)⟩

/-- Behind the end of the input nothing is reached. -/
theorem Sound.atEnd_of_reaches (h : c.Sound) (hreach : c.Reaches c') (hend : c'.atEnd = false) : c.atEnd = false := by
  have hahead' : c'.ahead ≠ [] := by
    rw [ne_eq, (h.of_reaches hreach).ahead_eq_nil_iff, hend]
    exact Bool.false_ne_true
  obtain ⟨ts, hts⟩ := hreach
  have hlength := congrArg List.length hts.rest
  have hpos := List.length_pos_iff.2 hahead'
  have hahead : c.ahead ≠ [] := by
    refine List.length_pos_iff.1 ?_
    simp only [Cursor.rest, List.length_cons, List.length_append] at hlength
    omega
  rwa [ne_eq, h.ahead_eq_nil_iff, Bool.not_eq_true] at hahead

/-! ### Texts of tokens -/

theorem Sound.text_of_atMark {m : Punctuator} (h : c.Sound) (hmark : c.atMark m = true) : c.token.text = m.text := by
  have hkind : c.token.kind = .punctuator m := eq_of_beq hmark
  have hsuits := h.suits c.token List.mem_cons_self
  rw [hkind] at hsuits
  exact String.toList_inj.1 hsuits

/-- A name is not a brace. -/
theorem Sound.text_ne_of_atName (h : c.Sound) (hname : c.atName = true) : c.token.text ≠ Punctuator.leftBrace.text := by
  have hkind : c.token.kind = .name := eq_of_beq hname
  have hsuits := h.suits c.token List.mem_cons_self
  rw [hkind] at hsuits
  obtain ⟨d, ds, htext, hd⟩ := hsuits
  intro hbrace
  rw [hbrace] at htext
  obtain rfl : '\x7b' = d := List.head_eq_of_cons_eq htext
  exact absurd hd (by decide)

/-! ### Rows that are spelled -/

/-- **Between two cursors a row is spelled.** -/
def Spells (c : Cursor) (ls : List Layout) (c' : Cursor) : Prop := ∃ ts ∈ Layout.languageOfList ls, c.Reads ts c'

variable {ls ls' : List Layout}

theorem Spells.reaches (h : c.Spells ls c') : c.Reaches c' := by
  obtain ⟨ts, -, hts⟩ := h
  exact ⟨ts, hts⟩

theorem spells_nil (c : Cursor) : c.Spells [] c := ⟨[], Language.nil_mem_one, reads_nil c⟩

theorem Spells.append (h : c.Spells ls c') (h' : c'.Spells ls' c'') : c.Spells (ls ++ ls') c'' := by
  obtain ⟨ts, hts, hreads⟩ := h
  obtain ⟨ts', hts', hreads'⟩ := h'
  exact ⟨ts ++ ts', Layout.append_mem_languageOfList hts hts', hreads.append hreads'⟩

theorem Spells.cons {l : Layout} (h : c.Spells [l] c') (h' : c'.Spells ls c'') : c.Spells (l :: ls) c'' := h.append h'

/-- What is spelled in one way is spelled in another one that allows as much. -/
theorem Spells.mono (h : c.Spells ls c') (hle : Layout.languageOfList ls ≤ Layout.languageOfList ls') :
    c.Spells ls' c' := by
  obtain ⟨ts, hts, hreads⟩ := h
  exact ⟨ts, hle hts, hreads⟩

theorem Spells.unread_lt (h : c.Spells ls c') (hls : ls.any Layout.isSolid = true) :
    Unread.unread c' < Unread.unread c := by
  obtain ⟨ts, hts, hreads⟩ := h
  exact hreads.unread_lt (Layout.ne_nil_of_mem_languageOfList hls hts)

/-- From the first to the last token of a row a part of the document is spelled, if there are any. -/
theorem Reads.spells_node (h : c.Reads ts c') (hts : ts ∈ Layout.languageOfList ls) (hne : ts ≠ []) :
    c.Spells [.node ⟨c.token.span.start, c'.readTo⟩ ls] c' := by
  refine ⟨ts, ?_, h⟩
  rw [Layout.languageOfList_singleton, Layout.language]
  exact ⟨hts, hne, h.over_eq hne⟩

/-- **A row with a layout that always has a token is spelled as a part of the document.** -/
theorem Spells.node (h : c.Spells ls c') (hls : ls.any Layout.isSolid = true) :
    c.Spells [.node ⟨c.token.span.start, c'.readTo⟩ ls] c' := by
  obtain ⟨ts, hts, hreads⟩ := h
  exact hreads.spells_node hts (Layout.ne_nil_of_mem_languageOfList hls hts)

/-- One token is spelled. -/
theorem Reads.spells_symbol {s : Symbol} (h : c.Reads [c.token] c') (hs : c.token.symbol = s) :
    c.Spells [.symbol s] c' := by
  refine ⟨[c.token], ?_, h⟩
  rw [Layout.languageOfList_singleton]
  exact ⟨c.token, rfl, hs⟩

end Cursor

/-! ### Moves of cursors -/

namespace TokenParser

variable {α β : Type} {p : TokenParser α} {a : α} {c c' : Cursor} {test : Cursor → Bool} {fault : SyntaxFault}

theorem fail_ne_ok : (fail fault : TokenParser α) c ≠ .ok (a, c') := nofun

theorem require_eq_ok_iff {u : Unit} : require test fault c = .ok (u, c') ↔ test c = true ∧ c = c' := by
  unfold require
  split
  · next h => simp [h]
  · next h => simp [h]

theorem spanned_eq_ok_iff {p : TokenParser (Span → α)} :
    spanned p c = .ok (a, c') ↔ ∃ f, p c = .ok (f, c') ∧ f ⟨c.token.span.start, c'.readTo⟩ = a := by
  unfold spanned
  cases p c with
  | error e => simp
  | ok r =>
    obtain ⟨f, c₁⟩ := r
    simp only [Except.ok.injEq, Prod.mk.injEq]
    constructor
    · rintro ⟨rfl, rfl⟩
      exact ⟨f, ⟨rfl, rfl⟩, rfl⟩
    · rintro ⟨g, ⟨rfl, rfl⟩, rfl⟩
      exact ⟨rfl, rfl⟩

theorem onto_eq_ok_iff {readTo : Nat} {t : Token} {ahead : List Token} :
    Cursor.onto readTo t ahead = .ok c ↔ t.isInvalid = false ∧ c = ⟨t, ahead, readTo⟩ := by
  unfold Cursor.onto Token.isInvalid
  cases t.kind with
  | invalid f => simp
  | _ => simp [eq_comm]

/-- Going on reads the current token, or nothing at the end. -/
theorem advance_eq_ok {u : Unit} (h : advance c = .ok (u, c')) :
    c.Reads [c.token] c' ∧ c'.token.isInvalid = false ∨ c.ahead = [] ∧ c' = c := by
  unfold advance at h
  split at h
  · next hahead =>
    cases h
    exact .inr ⟨hahead, rfl⟩
  · next t ts hahead =>
    left
    cases honto : Cursor.onto c.token.span.stop t ts with
    | error e =>
      rw [honto] at h
      cases h
    | ok c₁ =>
      rw [honto] at h
      cases h
      obtain ⟨hvalid, rfl⟩ := onto_eq_ok_iff.1 honto
      exact ⟨⟨by rw [Cursor.rest, hahead]; rfl, rfl⟩, hvalid⟩

theorem advance_reads {u : Unit} (hc : c.Sound) (hend : c.atEnd = false) (h : advance c = .ok (u, c')) :
    c.Reads [c.token] c' := by
  rcases advance_eq_ok h with h | h
  · exact h.1
  · rw [hc.ahead_eq_nil_iff, hend] at h
    exact absurd h.1 Bool.false_ne_true

/-- A mark that the cursor stands on is read. -/
theorem advance_spells_mark {m : Punctuator} {u : Unit} (hc : c.Sound) (hmark : c.atMark m = true)
    (h : advance c = .ok (u, c')) : c.Spells [.mark m] c' := by
  have hkind : c.token.kind = .punctuator m := eq_of_beq hmark
  have hend : c.atEnd = false := by
    rw [Cursor.atEnd, Token.isEnd, hkind]
    rfl
  have hsymbol : c.token.symbol = .mark m := by
    rw [Token.symbol, hkind, hc.text_of_atMark hmark]
    rfl
  exact (advance_reads hc hend h).spells_symbol hsymbol

theorem atEnd_of_atName (h : c.atName = true) : c.atEnd = false := by
  have hkind : c.token.kind = .name := eq_of_beq h
  rw [Cursor.atEnd, Token.isEnd, hkind]
  rfl

theorem atEnd_of_atMark {m : Punctuator} (h : c.atMark m = true) : c.atEnd = false := by
  have hkind : c.token.kind = .punctuator m := eq_of_beq h
  rw [Cursor.atEnd, Token.isEnd, hkind]
  rfl

theorem atEnd_of_atString (h : c.atString = true) : c.atEnd = false := by
  have hkind : c.token.kind = .string := eq_of_beq h
  rw [Cursor.atEnd, Token.isEnd, hkind]
  rfl

/-- A name that the cursor stands on is read. -/
theorem advance_spells_word {u : Unit} (hc : c.Sound) (hname : c.atName = true) (h : advance c = .ok (u, c')) :
    c.Spells [.word c.token.text] c' := by
  have hkind : c.token.kind = .name := eq_of_beq hname
  have hsymbol : c.token.symbol = .word c.token.text := by
    rw [Token.symbol, hkind]
    rfl
  exact (advance_reads hc (atEnd_of_atName hname) h).spells_symbol hsymbol

theorem name_eq_ok {n : Name} (h : name fault c = .ok (n, c')) :
    c.atName = true ∧ n = ⟨c.token.text, c.token.span⟩ ∧ advance c = .ok ((), c') := by
  unfold name at h
  split at h
  · next hname =>
    split at h
    · cases h
    · next c₁ hadvance =>
      cases h
      exact ⟨hname, rfl, hadvance⟩
  · cases h

theorem name_spells {n : Name} (hc : c.Sound) (h : name fault c = .ok (n, c')) : c.Spells [.name n] c' := by
  obtain ⟨hname, rfl, hadvance⟩ := name_eq_ok h
  refine ⟨[c.token], ?_, advance_reads hc (atEnd_of_atName hname) hadvance⟩
  rw [Layout.languageOfList_singleton]
  exact ⟨c.token, rfl, eq_of_beq hname, rfl⟩

theorem expect_eq_ok {u : Unit} (h : expect test fault c = .ok (u, c')) : test c = true ∧ advance c = .ok ((), c') := by
  obtain ⟨_, _, hrequire, hadvance⟩ := Parser.bind_eq_ok_iff.1 h
  obtain ⟨htest, rfl⟩ := require_eq_ok_iff.1 hrequire
  exact ⟨htest, hadvance⟩

theorem close_spells {closer : Closer} {u : Unit} (hc : c.Sound) (h : close closer c = .ok (u, c')) :
    c.atEnd = false ∧ c.Spells [.mark closer.mark] c' := by
  obtain ⟨hmark, hadvance⟩ := expect_eq_ok h
  exact ⟨atEnd_of_atMark hmark, advance_spells_mark hc hmark hadvance⟩

/-! ### Parsers that read on -/

/-- **A parser reads on:** it reaches the cursor that it gives. -/
def ReadsOn (p : TokenParser α) : Prop := ∀ c a c', p c = .ok (a, c') → c.Reaches c'

section ReadsOn

variable {q : TokenParser β}

theorem pure_readsOn (a : α) : ReadsOn (pure a : TokenParser α) := by
  intro c b c' h
  obtain ⟨-, rfl⟩ := Parser.pure_eq_ok_iff.1 h
  exact c.reaches_refl

theorem look_readsOn (f : Cursor → α) : ReadsOn (Parser.look f) := by
  intro c b c' h
  obtain ⟨-, rfl⟩ := Parser.look_eq_ok_iff.1 h
  exact c.reaches_refl

theorem fail_readsOn (fault : SyntaxFault) : ReadsOn (fail fault : TokenParser α) :=
  fun _ _ _ h => absurd h fail_ne_ok

theorem ReadsOn.bind {f : α → TokenParser β} (h : p.ReadsOn) (hf : ∀ a, (f a).ReadsOn) : ReadsOn (p >>= f) := by
  intro c b c' hbind
  obtain ⟨a, c₁, hp, hfa⟩ := Parser.bind_eq_ok_iff.1 hbind
  exact (h c a c₁ hp).trans (hf a c₁ b c' hfa)

theorem ReadsOn.optional (h : p.ReadsOn) : ReadsOn (Parser.optional test p) := by
  intro c found c' hp
  rcases Parser.optional_eq_ok_iff.1 hp with ⟨-, a, hp, -⟩ | ⟨-, -, rfl⟩
  · exact h c a c' hp
  · exact c.reaches_refl

theorem ReadsOn.many (h : p.ReadsOn) : ReadsOn (Parser.many test p) := by
  intro c as c' hp
  have hone : Parser.Yields c.Reaches p fun _ => True :=
    fun c₁ a c₂ hc₁ hp => ⟨trivial, hc₁.trans (h c₁ a c₂ hp)⟩
  exact (hone.many c as c' c.reaches_refl hp).2

theorem ReadsOn.spanned {p : TokenParser (Span → α)} (h : p.ReadsOn) : ReadsOn (spanned p) := by
  intro c a c' hp
  obtain ⟨f, hp, -⟩ := spanned_eq_ok_iff.1 hp
  exact h c f c' hp

theorem require_readsOn : ReadsOn (require test fault) := by
  intro c u c' h
  obtain ⟨-, rfl⟩ := require_eq_ok_iff.1 h
  exact c.reaches_refl

theorem advance_readsOn : ReadsOn advance := by
  intro c u c' h
  rcases advance_eq_ok h with h | ⟨-, rfl⟩
  · exact ⟨_, h.1⟩
  · exact Cursor.reaches_refl _

theorem expect_readsOn : ReadsOn (expect test fault) := require_readsOn.bind fun _ => advance_readsOn

theorem close_readsOn (closer : Closer) : ReadsOn (close closer) := expect_readsOn

theorem skip_readsOn : ReadsOn (skip test) := by
  intro c u c' h
  unfold skip at h
  split at h
  · exact advance_readsOn c u c' h
  · cases h
    exact Cursor.reaches_refl _

theorem name_readsOn : ReadsOn (name fault) := by
  intro c n c' h
  exact advance_readsOn c () c' (name_eq_ok h).2.2

end ReadsOn

end TokenParser

end QueryAid
