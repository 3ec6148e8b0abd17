import QueryAid.Proofs.Document.Cursor
/-!
# What the grammar reads

Whatever a rule of the grammar of documents gives, its layout is spelled between the cursor where the rule starts and
the one where it ends; there is one lemma for each rule. Values are special at the end of the input, where a list that
is cut off is given without its closing bracket. So what is said of values, and of parts that may end with one, is said
only where the input goes on behind them.
-/

namespace QueryAid

namespace TokenParser

open Cursor

variable {α β : Type} {c c' : Cursor} {constant : Bool} {room : Nat}

/-! ### Repetitions -/

section Repetition

variable {more : Cursor → Bool} {item : TokenParser α} {layout : α → Layout} {closed : Cursor → Prop} {as : List α}

/-- **Items one after the other are spelled as a row.** What is known of items only where something holds behind them is
known of all, if it holds at the end and is inherited backwards. -/
theorem many_spells (hreads : ∀ c a c', c.Sound → more c = true → item c = .ok (a, c') → c.Reaches c')
    (hclosed : ∀ c c', c.Sound → c.Reaches c' → closed c' → closed c)
    (hitem : ∀ c a c', c.Sound → more c = true → item c = .ok (a, c') → closed c' → c.Spells [layout a] c')
    (hc : c.Sound) (h : Parser.many more item c = .ok (as, c')) (hend : closed c') :
    c.Spells (as.map layout) c' := by
  have hruns := Parser.manyRuns_of_eq_ok h
  clear h
  induction hruns with
  | stop => exact spells_nil _
  | last hmore ha _ => exact hitem _ _ _ hc hmore ha hend
  | @step c₁ c₂ c₃ a as hmore ha hrest ih =>
    have hc₂ : c₂.Sound := hc.of_reaches (hreads _ _ _ hc hmore ha)
    have hspells : c₂.Spells (as.map layout) c₃ := ih hc₂ hend
    exact (hitem _ _ _ hc hmore ha (hclosed _ _ hc₂ hspells.reaches hend)).cons hspells

/-- Items of which each is spelled are spelled as a row. -/
theorem row_spells
    (hitem : ∀ c a c', c.Sound → more c = true → item c = .ok (a, c') → c.Spells [layout a] c')
    (hc : c.Sound) (h : Parser.many more item c = .ok (as, c')) : c.Spells (as.map layout) c' :=
  many_spells (fun c a c' hc hmore ha => (hitem c a c' hc hmore ha).reaches) (fun _ _ _ _ _ => trivial)
    (fun c a c' hc hmore ha (_ : True) => hitem c a c' hc hmore ha) hc h trivial

/-- A repetition of items of which each consumes something stops where none can follow. -/
theorem more_eq_false_of_many
    (hreads : ∀ c a c', c.Sound → more c = true → item c = .ok (a, c') → c.Reaches c')
    (hitem : ∀ c a c', c.Sound → more c = true → item c = .ok (a, c') → closed c' →
      Unread.unread c' < Unread.unread c)
    (hc : c.Sound) (h : Parser.many more item c = .ok (as, c')) (hend : closed c') : more c' = false := by
  have hruns := Parser.manyRuns_of_eq_ok h
  clear h
  induction hruns with
  | stop hmore => exact hmore
  | last hmore ha hstuck => exact absurd (hitem _ _ _ hc hmore ha hend) hstuck
  | step hmore ha hrest ih => exact ih (hc.of_reaches (hreads _ _ _ hc hmore ha)) hend

theorem ne_nil_of_many (hmore : more c = true) (h : Parser.many more item c = .ok (as, c')) : as ≠ [] := by
  cases Parser.manyRuns_of_eq_ok h with
  | stop hstop =>
    rw [hmore] at hstop
    cases hstop
  | last => exact List.cons_ne_nil _ _
  | step => exact List.cons_ne_nil _ _

end Repetition

/-- That the input goes on is inherited backwards. -/
theorem goesOn_of_reaches (c c' : Cursor) (hc : c.Sound) (h : c.Reaches c') (hend : c'.atEnd = false) :
    c.atEnd = false :=
  hc.atEnd_of_reaches h hend

/-! ### Values -/

/-- A dollar sign and a name are spelled together. -/
theorem spells_variableName {fault : SyntaxFault} {u : Unit} {n : Name} {c₁ : Cursor} (hc : c.Sound)
    (hmark : c.atMark .dollar = true) (hadvance : advance c = .ok (u, c₁)) (hname : name fault c₁ = .ok (n, c')) :
    c.Spells [.variableName n ⟨c.token.span.start, c'.readTo⟩] c' := by
  have hspells := (advance_spells_mark hc hmark hadvance).cons
    (name_spells (hc.of_reaches (advance_readsOn _ _ _ hadvance)) hname)
  obtain ⟨ts, hts, hreads⟩ := hspells
  have hspan := hreads.over_eq (Layout.ne_nil_of_mem_languageOfList rfl hts)
  refine ⟨ts, ?_, hreads⟩
  obtain ⟨_, ⟨d, rfl, hd⟩, ts', hts', rfl⟩ := Layout.mem_languageOfList_cons_iff.1 hts
  rw [Layout.languageOfList_singleton] at hts' ⊢
  obtain ⟨t, rfl, ht⟩ := hts'
  exact ⟨d, t, rfl, hd, ht, hspan⟩

section NamedValue

variable {item : TokenParser Value}

/-- A name, and a value after a colon, if there is one. -/
def namedValue (item : TokenParser Value) (mk : Name → Value → Span → β) : TokenParser (Option β) := spanned do
  let n ← name .name
  let v ← Parser.optional (atMark .colon) do
    advance
    item
  return fun span => v.map fun v => mk n v span

theorem namedValue_readsOn (mk : Name → Value → Span → β) (hreads : item.ReadsOn) : ReadsOn (namedValue item mk) :=
  (name_readsOn.bind fun _ => (advance_readsOn.bind fun _ => hreads).optional.bind fun _ => pure_readsOn _).spanned

/-- A name with its value is spelled as such; of a name without a value nothing is kept. -/
theorem namedValue_spells (mk : Name → Value → Span → β) (layout : β → Layout)
    (hlayout : ∀ n v span, layout (mk n v span) = .node span [.name n, .mark .colon, v.layout])
    (hitem : ∀ c v c', c.Sound → item c = .ok (v, c') → c'.atEnd = false → c.Spells [v.layout] c')
    {found : Option β} (hc : c.Sound) (h : namedValue item mk c = .ok (found, c')) (hend : c'.atEnd = false) :
    c.Spells [found.elim (.slack .names) layout] c' := by
  obtain ⟨f, hp, rfl⟩ := spanned_eq_ok_iff.1 h
  obtain ⟨n, c₁, hname, hp⟩ := Parser.bind_eq_ok_iff.1 hp
  obtain ⟨v, c₂, hvalue, hp⟩ := Parser.bind_eq_ok_iff.1 hp
  obtain ⟨rfl, rfl⟩ := Parser.pure_eq_ok_iff.1 hp
  have hspellsName := name_spells hc hname
  have hc₁ := hc.of_reaches hspellsName.reaches
  rcases Parser.optional_eq_ok_iff.1 hvalue with ⟨hcolon, v, hafter, rfl⟩ | ⟨-, rfl, rfl⟩
  · obtain ⟨u, c₃, hadvance, hafter⟩ := Parser.bind_eq_ok_iff.1 hafter
    have hspellsColon := advance_spells_mark hc₁ hcolon hadvance
    have hspellsValue := hitem _ _ _ (hc₁.of_reaches hspellsColon.reaches) hafter hend
    have hspells := (hspellsName.cons (hspellsColon.cons hspellsValue)).node rfl
    show c.Spells [layout (mk n v _)] c₂
    rw [hlayout]
    exact hspells
  · exact hspellsName.mono Layout.name_le_names

end NamedValue

theorem literal_spells {f : Span → Value} {s : Symbol} {v : Value}
    (hf : ∀ span, (f span).layout = .node span [.symbol s]) (hs : c.token.symbol = s) (hc : c.Sound) (hend : c.atEnd = false)
    (h : spanned (advance >>= fun _ => pure f) c = .ok (v, c')) : c.Spells [v.layout] c' := by
  obtain ⟨g, hp, rfl⟩ := spanned_eq_ok_iff.1 h
  obtain ⟨u, c₁, hadvance, hp⟩ := Parser.bind_eq_ok_iff.1 hp
  obtain ⟨rfl, rfl⟩ := Parser.pure_eq_ok_iff.1 hp
  rw [hf]
  exact ((advance_reads hc hend hadvance).spells_symbol hs).node rfl

theorem variable_spells {v : Value} (hc : c.Sound) (hmark : c.atMark .dollar = true)
    (h : spanned (do
      advance
      return Value.var (← name .name)) c = .ok (v, c')) : c.Spells [v.layout] c' := by
  obtain ⟨f, hp, rfl⟩ := spanned_eq_ok_iff.1 h
  obtain ⟨u, c₁, hadvance, hp⟩ := Parser.bind_eq_ok_iff.1 hp
  obtain ⟨n, c₂, hname, hp⟩ := Parser.bind_eq_ok_iff.1 hp
  obtain ⟨rfl, rfl⟩ := Parser.pure_eq_ok_iff.1 hp
  exact spells_variableName hc hmark hadvance hname

theorem layout_valueOfName (text : String) (span : Span) :
    (valueOfName text span).layout = .node span [.word text] := by
  unfold valueOfName
  split <;> rfl

section ValueWith

variable {item : TokenParser Value}

theorem valueWith_readsOn (hreads : item.ReadsOn) : ReadsOn (valueWith constant item) := by
  have hliteral (f : Span → Value) : ReadsOn (spanned (advance >>= fun _ => pure f)) :=
    (advance_readsOn.bind fun _ => pure_readsOn f).spanned
  refine (look_readsOn _).bind fun t => ?_
  split
  · exact require_readsOn.bind fun _ =>
      (advance_readsOn.bind fun _ => name_readsOn.bind fun _ => pure_readsOn _).spanned
  · exact hliteral _
  · exact hliteral _
  · exact hliteral _
  · exact hliteral _
  · exact (advance_readsOn.bind fun _ => hreads.many.bind fun _ => skip_readsOn.bind fun _ => pure_readsOn _).spanned
  · exact (advance_readsOn.bind fun _ => (namedValue_readsOn ObjectField.mk hreads).many.bind fun _ =>
      (close_readsOn _).bind fun _ => pure_readsOn _).spanned
  · exact fail_readsOn _

variable (hreads : item.ReadsOn)
  (hitem : ∀ c v c', c.Sound → item c = .ok (v, c') → c'.atEnd = false → c.Spells [v.layout] c')
include hreads hitem

/-- A list is closed, unless the input ends. -/
theorem list_spells {v : Value} (hc : c.Sound) (hmark : c.atMark .leftBracket = true)
    (h : spanned (do
      advance
      let items ← Parser.many (fun c => !c.atMark .rightBracket && !c.atEnd) item
      skip (atMark .rightBracket)
      return Value.list items) c = .ok (v, c'))
    (hend : c'.atEnd = false) : c.Spells [v.layout] c' := by
  obtain ⟨f, hp, rfl⟩ := spanned_eq_ok_iff.1 h
  obtain ⟨u, c₁, hadvance, hp⟩ := Parser.bind_eq_ok_iff.1 hp
  obtain ⟨items, c₂, hitems, hp⟩ := Parser.bind_eq_ok_iff.1 hp
  obtain ⟨u', c₃, hskip, hp⟩ := Parser.bind_eq_ok_iff.1 hp
  obtain ⟨rfl, rfl⟩ := Parser.pure_eq_ok_iff.1 hp
  have hspellsOpen := advance_spells_mark hc hmark hadvance
  have hc₁ := hc.of_reaches hspellsOpen.reaches
  have hc₂ := hc₁.of_reaches (hreads.many _ _ _ hitems)
  have hend₂ := hc₂.atEnd_of_reaches (skip_readsOn _ _ _ hskip) hend
  have hspellsItems := many_spells (fun c v c' _ _ => hreads c v c') goesOn_of_reaches
    (fun c a c' hc _ => hitem c a c' hc) hc₁ hitems hend₂
  -- The items stop at the bracket, since the input goes on.
  have hbracket : c₂.atMark .rightBracket = true := by
    have hstop := more_eq_false_of_many (fun c v c' _ _ => hreads c v c')
      (fun c a c' hc _ ha hend => (hitem c a c' hc ha hend).unread_lt (by cases a <;> rfl)) hc₁ hitems hend₂
    simpa [hend₂] using hstop
  have hclose : advance c₂ = .ok (u', c₃) := by
    rwa [skip, if_pos hbracket] at hskip
  have hspells := (hspellsOpen.cons (hspellsItems.append (advance_spells_mark hc₂ hbracket hclose))).node rfl
  rw [Value.layout, Value.layoutsOfList_eq]
  exact hspells

theorem object_spells {v : Value} (hc : c.Sound) (hmark : c.atMark .leftBrace = true)
    (h : spanned (do
      advance
      let fields ← Parser.many atName (objectField item)
      close .brace
      return Value.object (fields.filterMap id)) c = .ok (v, c')) : c.Spells [v.layout] c' := by
  obtain ⟨f, hp, rfl⟩ := spanned_eq_ok_iff.1 h
  obtain ⟨u, c₁, hadvance, hp⟩ := Parser.bind_eq_ok_iff.1 hp
  obtain ⟨fields, c₂, hfields, hp⟩ := Parser.bind_eq_ok_iff.1 hp
  obtain ⟨u', c₃, hclose, hp⟩ := Parser.bind_eq_ok_iff.1 hp
  obtain ⟨rfl, rfl⟩ := Parser.pure_eq_ok_iff.1 hp
  have hspellsOpen := advance_spells_mark hc hmark hadvance
  have hc₁ := hc.of_reaches hspellsOpen.reaches
  have hreadsField : ReadsOn (objectField item) := namedValue_readsOn ObjectField.mk hreads
  have hc₂ := hc₁.of_reaches (hreadsField.many _ _ _ hfields)
  obtain ⟨hend₂, hspellsClose⟩ := close_spells hc₂ hclose
  have hspellsFields := many_spells (fun c a c' _ _ => hreadsField c a c') goesOn_of_reaches
    (fun c a c' hc _ => namedValue_spells ObjectField.mk ObjectField.layout (fun _ _ _ => rfl) hitem hc)
    hc₁ hfields hend₂
  have hspells := (hspellsOpen.cons
    ((hspellsFields.mono (Layout.scattered_of_found _)).append hspellsClose)).node rfl
  rw [Value.layout, Value.layoutsOfFields_eq]
  exact hspells

theorem valueWith_spells {v : Value} (hc : c.Sound) (h : valueWith constant item c = .ok (v, c'))
    (hend : c'.atEnd = false) : c.Spells [v.layout] c' := by
  have hend₀ : c.atEnd = false := hc.atEnd_of_reaches (valueWith_readsOn hreads _ _ _ h) hend
  obtain ⟨t, c₁, hlook, hp⟩ := Parser.bind_eq_ok_iff.1 h
  obtain ⟨rfl, rfl⟩ := Parser.look_eq_ok_iff.1 hlook
  cases hkind : c.token.kind with
  | punctuator m =>
    rw [hkind] at hp
    have hmark : c.atMark m = true := beq_iff_eq.2 hkind
    cases m with
    | dollar =>
      obtain ⟨u, c₁, hrequire, hp⟩ := Parser.bind_eq_ok_iff.1 hp
      obtain ⟨-, rfl⟩ := require_eq_ok_iff.1 hrequire
      exact variable_spells hc hmark hp
    | leftBracket => exact list_spells hreads hitem hc hmark hp hend
    | leftBrace => exact object_spells hreads hitem hc hmark hp
    | _ => exact absurd hp fail_ne_ok
  | int =>
    rw [hkind] at hp
    exact literal_spells (fun _ => rfl) (by rw [Token.symbol, hkind]) hc hend₀ hp
  | float =>
    rw [hkind] at hp
    exact literal_spells (fun _ => rfl) (by rw [Token.symbol, hkind]) hc hend₀ hp
  | string =>
    rw [hkind] at hp
    exact literal_spells (fun _ => rfl) (by rw [Token.symbol, hkind]) hc hend₀ hp
  | name =>
    rw [hkind] at hp
    exact literal_spells (layout_valueOfName _) (by rw [Token.symbol, hkind]; rfl) hc hend₀ hp
  | _ =>
    rw [hkind] at hp
    exact absurd hp fail_ne_ok

end ValueWith

theorem value_readsOn : ReadsOn (value constant room) := by
  induction room with
  | zero => exact valueWith_readsOn (fail_readsOn _)
  | succ room ih => exact valueWith_readsOn ih

/-- **A value is spelled where it is read,** unless the input ends behind it. -/
theorem value_spells {v : Value} (hc : c.Sound) (h : value constant room c = .ok (v, c')) (hend : c'.atEnd = false) :
    c.Spells [v.layout] c' := by
  induction room generalizing c v c' with
  | zero => exact valueWith_spells (fail_readsOn _) (fun _ _ _ _ h => absurd h fail_ne_ok) hc h hend
  | succ room ih => exact valueWith_spells value_readsOn (fun _ _ _ hc h hend => ih hc h hend) hc h hend

/-! ### Types -/

section TypeRefWith

variable {fault : SyntaxFault} {item : TokenParser TypeRef}

theorem listType_readsOn (hreads : item.ReadsOn) : ReadsOn (listType item) :=
  (advance_readsOn.bind fun _ => hreads.bind fun _ => (close_readsOn _).bind fun _ => pure_readsOn _).spanned

theorem typeRefWith_readsOn (hreads : item.ReadsOn) : ReadsOn (typeRefWith fault item) := by
  refine ((look_readsOn _).bind fun list => ?_).spanned
  split
  · exact (listType_readsOn hreads).bind fun _ => advance_readsOn.optional.bind fun _ => pure_readsOn _
  · exact (name_readsOn.bind fun _ => pure_readsOn _).bind fun _ =>
      advance_readsOn.optional.bind fun _ => pure_readsOn _

variable (hitem : ∀ c t c', c.Sound → item c = .ok (t, c') → c.Spells [t.layout] c')
include hitem

theorem listType_spells {t : TypeRef} (hc : c.Sound) (hmark : c.atMark .leftBracket = true)
    (h : listType item c = .ok (t, c')) : c.Spells [t.layout] c' := by
  obtain ⟨f, hp, rfl⟩ := spanned_eq_ok_iff.1 h
  obtain ⟨u, c₁, hadvance, hp⟩ := Parser.bind_eq_ok_iff.1 hp
  obtain ⟨inner, c₂, hinner, hp⟩ := Parser.bind_eq_ok_iff.1 hp
  obtain ⟨u', c₃, hclose, hp⟩ := Parser.bind_eq_ok_iff.1 hp
  obtain ⟨rfl, rfl⟩ := Parser.pure_eq_ok_iff.1 hp
  have hspellsOpen := advance_spells_mark hc hmark hadvance
  have hc₁ := hc.of_reaches hspellsOpen.reaches
  have hspellsInner := hitem _ _ _ hc₁ hinner
  have hspellsClose := (close_spells (hc₁.of_reaches hspellsInner.reaches) hclose).2
  exact (hspellsOpen.cons (hspellsInner.cons hspellsClose)).node rfl

theorem typeRefWith_spells {t : TypeRef} (hc : c.Sound) (h : typeRefWith fault item c = .ok (t, c')) :
    c.Spells [t.layout] c' := by
  obtain ⟨f, hp, rfl⟩ := spanned_eq_ok_iff.1 h
  obtain ⟨list, c₁, hlook, hp⟩ := Parser.bind_eq_ok_iff.1 hp
  obtain ⟨rfl, rfl⟩ := Parser.look_eq_ok_iff.1 hlook
  -- A type without its exclamation mark, and what follows it.
  have hinner : ∃ inner c₁, c.Spells [inner.layout] c₁ ∧
      (Parser.optional (atMark .bang) advance >>= fun bang =>
        pure fun span => if bang.isSome then inner.nonNull span else inner) c₁ = .ok (f, c') := by
    split at hp
    · next hmark =>
      obtain ⟨inner, c₁, hinner, hp⟩ := Parser.bind_eq_ok_iff.1 hp
      exact ⟨inner, c₁, listType_spells hitem hc hmark hinner, hp⟩
    · obtain ⟨inner, c₁, hinner, hp⟩ := Parser.bind_eq_ok_iff.1 hp
      obtain ⟨n, hname, rfl⟩ := Parser.map_eq_ok_iff.1 hinner
      exact ⟨.named n, c₁, name_spells hc hname, hp⟩
  obtain ⟨inner, c₁, hspellsInner, hp⟩ := hinner
  obtain ⟨bang, c₂, hbang, hp⟩ := Parser.bind_eq_ok_iff.1 hp
  obtain ⟨rfl, rfl⟩ := Parser.pure_eq_ok_iff.1 hp
  rcases Parser.optional_eq_ok_iff.1 hbang with ⟨hmark, u, hadvance, rfl⟩ | ⟨-, rfl, rfl⟩
  · have hspellsBang := advance_spells_mark (hc.of_reaches hspellsInner.reaches) hmark hadvance
    exact (hspellsInner.cons hspellsBang).node (by cases inner <;> rfl)
  · exact hspellsInner

end TypeRefWith

theorem typeRefAt_readsOn {fault : SyntaxFault} : ReadsOn (typeRefAt fault room) := by
  induction room generalizing fault with
  | zero => exact typeRefWith_readsOn (fail_readsOn _)
  | succ room ih => exact typeRefWith_readsOn ih

theorem typeRefAt_spells {fault : SyntaxFault} {t : TypeRef} (hc : c.Sound) (h : typeRefAt fault room c = .ok (t, c')) :
    c.Spells [t.layout] c' := by
  induction room generalizing fault c t c' with
  | zero => exact typeRefWith_spells (fun _ _ _ _ h => absurd h fail_ne_ok) hc h
  | succ room ih => exact typeRefWith_spells (fun _ _ _ hc h => ih hc h) hc h

theorem typeRef_readsOn : ReadsOn typeRef := require_readsOn.bind fun _ => typeRefAt_readsOn

theorem typeRef_spells {t : TypeRef} (hc : c.Sound) (h : typeRef c = .ok (t, c')) : c.Spells [t.layout] c' := by
  obtain ⟨u, c₁, hrequire, h⟩ := Parser.bind_eq_ok_iff.1 h
  obtain ⟨-, rfl⟩ := require_eq_ok_iff.1 hrequire
  exact typeRefAt_spells hc h

/-! ### Arguments and directives -/

theorem argument_readsOn : ReadsOn (argument constant room) := namedValue_readsOn Argument.mk value_readsOn

theorem arguments_readsOn : ReadsOn (arguments constant room) :=
  ReadsOn.bind (ReadsOn.optional (advance_readsOn.bind fun _ => require_readsOn.bind fun _ =>
    argument_readsOn.many.bind fun _ => (close_readsOn _).bind fun _ => pure_readsOn _)) fun _ => pure_readsOn _

/-- Parentheses with scattered arguments are the layout of these arguments, should there be any. -/
theorem layouts_of_parentheses (as : List Argument) :
    Layout.languageOfList (.mark .leftParen :: Layout.scattered (as.map Argument.layout) ++ [.mark .rightParen]) ≤
      Layout.languageOfList (Argument.layouts as) := by
  cases as with
  | nil => exact Layout.parentheses_le
  | cons a as => exact le_refl _

theorem arguments_spells {as : List Argument} (hc : c.Sound) (h : arguments constant room c = .ok (as, c')) :
    c.Spells (Argument.layouts as) c' := by
  obtain ⟨found, c₁, hfound, hp⟩ := Parser.bind_eq_ok_iff.1 h
  obtain ⟨rfl, rfl⟩ := Parser.pure_eq_ok_iff.1 hp
  rcases Parser.optional_eq_ok_iff.1 hfound with ⟨hmark, as, hlist, rfl⟩ | ⟨-, rfl, rfl⟩
  · obtain ⟨u, c₂, hadvance, hp⟩ := Parser.bind_eq_ok_iff.1 hlist
    obtain ⟨u', c₃, hrequire, hp⟩ := Parser.bind_eq_ok_iff.1 hp
    obtain ⟨-, rfl⟩ := require_eq_ok_iff.1 hrequire
    obtain ⟨items, c₄, hitems, hp⟩ := Parser.bind_eq_ok_iff.1 hp
    obtain ⟨u'', c₅, hclose, hp⟩ := Parser.bind_eq_ok_iff.1 hp
    obtain ⟨rfl, rfl⟩ := Parser.pure_eq_ok_iff.1 hp
    have hspellsOpen := advance_spells_mark hc hmark hadvance
    have hc₂ := hc.of_reaches hspellsOpen.reaches
    obtain ⟨hend, hspellsClose⟩ := close_spells (hc₂.of_reaches (argument_readsOn.many _ _ _ hitems)) hclose
    have hspellsItems := many_spells (fun c a c' _ _ => argument_readsOn c a c') goesOn_of_reaches
      (fun c a c' hc _ => namedValue_spells Argument.mk Argument.layout (fun _ _ _ => rfl)
        (fun _ _ _ => value_spells) hc)
      hc₂ hitems hend
    have hspells := hspellsOpen.cons ((hspellsItems.mono (Layout.scattered_of_found _)).append hspellsClose)
    exact hspells.mono (layouts_of_parentheses _)
  · exact ⟨[], Layout.mem_slack_iff.2 (.inl rfl), reads_nil _⟩

theorem directive_readsOn : ReadsOn (directive constant room) :=
  (advance_readsOn.bind fun _ => name_readsOn.bind fun _ => arguments_readsOn.bind fun _ => pure_readsOn _).spanned

theorem directive_spells {d : DirectiveUse} (hc : c.Sound) (hmark : c.atMark .atSign = true)
    (h : directive constant room c = .ok (d, c')) : c.Spells [d.layout] c' := by
  obtain ⟨f, hp, rfl⟩ := spanned_eq_ok_iff.1 h
  obtain ⟨u, c₁, hadvance, hp⟩ := Parser.bind_eq_ok_iff.1 hp
  obtain ⟨n, c₂, hname, hp⟩ := Parser.bind_eq_ok_iff.1 hp
  obtain ⟨as, c₃, has, hp⟩ := Parser.bind_eq_ok_iff.1 hp
  obtain ⟨rfl, rfl⟩ := Parser.pure_eq_ok_iff.1 hp
  have hspellsAt := advance_spells_mark hc hmark hadvance
  have hc₁ := hc.of_reaches hspellsAt.reaches
  have hspellsName := name_spells hc₁ hname
  have hspellsArguments := arguments_spells (hc₁.of_reaches hspellsName.reaches) has
  exact (hspellsAt.cons (hspellsName.cons hspellsArguments)).node rfl

theorem directives_readsOn : ReadsOn (directives constant room) := directive_readsOn.many

theorem directives_spells {ds : List DirectiveUse} (hc : c.Sound) (h : directives constant room c = .ok (ds, c')) :
    c.Spells (ds.map DirectiveUse.layout) c' :=
  row_spells (fun _ _ _ => directive_spells) hc h

/-! ### Selections -/

theorem typeCondition_spells {n : Name} (hc : c.Sound) (h : typeCondition c = .ok (n, c')) :
    c.Spells (Name.conditionLayouts (some n)) c' := by
  obtain ⟨u, c₁, hexpect, h⟩ := Parser.bind_eq_ok_iff.1 h
  obtain ⟨hword, hadvance⟩ := expect_eq_ok hexpect
  obtain ⟨hname, htext⟩ := Bool.and_eq_true_iff.1 hword
  have hspellsOn := advance_spells_word hc hname hadvance
  rw [beq_iff_eq.1 htext] at hspellsOn
  exact hspellsOn.cons (name_spells (hc.of_reaches hspellsOn.reaches) h)

/-- The first token ahead that is not invalid is the one that the cursor goes on to. -/
theorem token_eq_of_advance {u : Unit} {t : Token} (h : advance c = .ok (u, c'))
    (ht : c.ahead.find? (fun t => !t.isInvalid) = some t) : c'.token = t := by
  rcases advance_eq_ok h with ⟨hreads, hvalid⟩ | ⟨hnil, -⟩
  · have hahead : c.ahead = c'.token :: c'.ahead := (List.cons_eq_cons.1 hreads.rest).2
    rw [hahead, List.find?_cons_of_pos (by rw [hvalid]; rfl)] at ht
    exact Option.some.inj ht
  · rw [hnil] at ht
    cases ht

/-- The token that comes second is the one that the cursor goes on to. -/
theorem second?_eq_some_of_advance {u : Unit} {t : Token} (h : advance c = .ok (u, c')) (ht : c.second? = some t) :
    c'.token = t := by
  unfold Cursor.second? at ht
  split at ht
  · cases ht
  · exact token_eq_of_advance h ht

/-- The name by which a field answers is spelled with the colon behind it. -/
theorem responseName_spells {responseName : Option Name} (hc : c.Sound)
    (h : Parser.optional (fun _ => c.second?.any fun t => t.isMark .colon) (do
      let n ← name .name
      advance
      return n) c = .ok (responseName, c')) :
    c.Spells (responseName.elim [] fun n => [.name n, .mark .colon]) c' := by
  rcases Parser.optional_eq_ok_iff.1 h with ⟨hcolon, r, hr, rfl⟩ | ⟨-, rfl, rfl⟩
  · obtain ⟨n, c₁, hname, hr⟩ := Parser.bind_eq_ok_iff.1 hr
    obtain ⟨u, c₂, hadvance, hr⟩ := Parser.bind_eq_ok_iff.1 hr
    obtain ⟨rfl, rfl⟩ := Parser.pure_eq_ok_iff.1 hr
    have hspellsName := name_spells hc hname
    -- The colon that was looked for is the token behind the name.
    obtain ⟨t, ht, hcolon⟩ := (Option.any_eq_true _ _).1 hcolon
    have hmark : c₁.atMark .colon = true := by
      rw [atMark, second?_eq_some_of_advance (name_eq_ok hname).2.2 ht]
      exact hcolon
    exact hspellsName.cons (advance_spells_mark (hc.of_reaches hspellsName.reaches) hmark hadvance)
  · exact spells_nil _

theorem spread_spells {x : Selection} (hc : c.Sound) (hmark : c.atMark .spread = true)
    (h : spread room c = .ok (x, c')) : c.Spells [x.layout] c' := by
  obtain ⟨f, hp, rfl⟩ := spanned_eq_ok_iff.1 h
  obtain ⟨u, c₁, hadvance, hp⟩ := Parser.bind_eq_ok_iff.1 hp
  obtain ⟨n, c₂, hname, hp⟩ := Parser.bind_eq_ok_iff.1 hp
  obtain ⟨uses, c₃, huses, hp⟩ := Parser.bind_eq_ok_iff.1 hp
  obtain ⟨rfl, rfl⟩ := Parser.pure_eq_ok_iff.1 hp
  have hspellsMark := advance_spells_mark hc hmark hadvance
  have hc₁ := hc.of_reaches hspellsMark.reaches
  have hspellsName := name_spells hc₁ hname
  have hspellsUses := directives_spells (hc₁.of_reaches hspellsName.reaches) huses
  exact (hspellsMark.cons (hspellsName.cons hspellsUses)).node rfl

section Nested

variable {nested : TokenParser SelectionSet}
  (hnested : ∀ c set c', c.Sound → c.atMark .leftBrace = true → nested c = .ok (set, c') → c.Spells [set.layout] c')
include hnested

theorem field_spells {x : Selection} (hc : c.Sound) (h : field room nested c = .ok (x, c')) :
    c.Spells [x.layout] c' := by
  obtain ⟨f, hp, rfl⟩ := spanned_eq_ok_iff.1 h
  obtain ⟨aliased, c₁, hlook, hp⟩ := Parser.bind_eq_ok_iff.1 hp
  obtain ⟨rfl, rfl⟩ := Parser.look_eq_ok_iff.1 hlook
  obtain ⟨responseName, c₂, hresponse, hp⟩ := Parser.bind_eq_ok_iff.1 hp
  obtain ⟨n, c₃, hname, hp⟩ := Parser.bind_eq_ok_iff.1 hp
  obtain ⟨as, c₄, has, hp⟩ := Parser.bind_eq_ok_iff.1 hp
  obtain ⟨uses, c₅, huses, hp⟩ := Parser.bind_eq_ok_iff.1 hp
  obtain ⟨set, c₆, hset, hp⟩ := Parser.bind_eq_ok_iff.1 hp
  obtain ⟨rfl, rfl⟩ := Parser.pure_eq_ok_iff.1 hp
  have hspellsResponse := responseName_spells hc hresponse
  have hc₂ := hc.of_reaches hspellsResponse.reaches
  have hspellsName := name_spells hc₂ hname
  have hc₃ := hc₂.of_reaches hspellsName.reaches
  have hspellsArguments := arguments_spells hc₃ has
  have hc₄ := hc₃.of_reaches hspellsArguments.reaches
  have hspellsUses := directives_spells hc₄ huses
  have hspells := (hspellsResponse.append (hspellsName.cons hspellsArguments)).append hspellsUses
  rcases Parser.optional_eq_ok_iff.1 hset with ⟨hmark, inner, hinner, rfl⟩ | ⟨-, rfl, rfl⟩
  · have hspellsSet := hnested _ _ _ (hc₄.of_reaches hspellsUses.reaches) hmark hinner
    exact (hspells.append hspellsSet).node (by simp [Layout.isSolid])
  · exact hspells.node (by simp [Layout.isSolid])

theorem inlineFragment_spells {x : Selection} (hc : c.Sound) (hmark : c.atMark .spread = true)
    (h : inlineFragment room nested c = .ok (x, c')) : c.Spells [x.layout] c' := by
  obtain ⟨f, hp, rfl⟩ := spanned_eq_ok_iff.1 h
  obtain ⟨u, c₁, hadvance, hp⟩ := Parser.bind_eq_ok_iff.1 hp
  obtain ⟨condition, c₂, hcondition, hp⟩ := Parser.bind_eq_ok_iff.1 hp
  obtain ⟨uses, c₃, huses, hp⟩ := Parser.bind_eq_ok_iff.1 hp
  obtain ⟨u', c₄, hrequire, hp⟩ := Parser.bind_eq_ok_iff.1 hp
  obtain ⟨hbrace, rfl⟩ := require_eq_ok_iff.1 hrequire
  obtain ⟨set, c₅, hset, hp⟩ := Parser.bind_eq_ok_iff.1 hp
  obtain ⟨rfl, rfl⟩ := Parser.pure_eq_ok_iff.1 hp
  have hspellsMark := advance_spells_mark hc hmark hadvance
  have hc₁ := hc.of_reaches hspellsMark.reaches
  have hspellsCondition : c₁.Spells (Name.conditionLayouts condition) c₂ := by
    rcases Parser.optional_eq_ok_iff.1 hcondition with ⟨-, n, hn, rfl⟩ | ⟨-, rfl, rfl⟩
    · exact typeCondition_spells hc₁ hn
    · exact spells_nil _
  have hc₂ := hc₁.of_reaches hspellsCondition.reaches
  have hspellsUses := directives_spells hc₂ huses
  have hspellsSet := hnested _ _ _ (hc₂.of_reaches hspellsUses.reaches) hbrace hset
  exact ((hspellsMark.cons (hspellsCondition.append hspellsUses)).append hspellsSet).node rfl

theorem selection_spells {x : Selection} (hc : c.Sound) (h : selection room nested c = .ok (x, c')) :
    c.Spells [x.layout] c' := by
  obtain ⟨spreading, c₁, hlook, h⟩ := Parser.bind_eq_ok_iff.1 h
  obtain ⟨rfl, rfl⟩ := Parser.look_eq_ok_iff.1 hlook
  split at h
  · next hmark =>
    obtain ⟨next, c₁, hlook, h⟩ := Parser.bind_eq_ok_iff.1 h
    obtain ⟨rfl, rfl⟩ := Parser.look_eq_ok_iff.1 hlook
    cases hsecond : c.second? with
    | none =>
      rw [hsecond] at h
      exact absurd h fail_ne_ok
    | some t =>
      rw [hsecond] at h
      dsimp only at h
      split at h
      · exact spread_spells hc hmark h
      · split at h
        · exact inlineFragment_spells hnested hc hmark h
        · exact absurd h fail_ne_ok
  · exact field_spells hnested hc h

end Nested

theorem selectionSet_spells {set : SelectionSet} (hc : c.Sound) (hmark : c.atMark .leftBrace = true)
    (h : selectionSet room c = .ok (set, c')) : c.Spells [set.layout] c' := by
  induction room generalizing c set c' with
  | zero =>
    obtain ⟨u, c₁, -, h⟩ := Parser.bind_eq_ok_iff.1 h
    exact absurd h fail_ne_ok
  | succ room ih =>
    obtain ⟨f, hp, rfl⟩ := spanned_eq_ok_iff.1 h
    obtain ⟨u, c₁, hadvance, hp⟩ := Parser.bind_eq_ok_iff.1 hp
    obtain ⟨found, c₂, hfound, hp⟩ := Parser.bind_eq_ok_iff.1 hp
    obtain ⟨rfl, rfl⟩ := Parser.pure_eq_ok_iff.1 hp
    obtain ⟨u', c₃, hrequire, hfound⟩ := Parser.bind_eq_ok_iff.1 hfound
    obtain ⟨-, rfl⟩ := require_eq_ok_iff.1 hrequire
    obtain ⟨items, c₄, hitems, hfound⟩ := Parser.bind_eq_ok_iff.1 hfound
    obtain ⟨u'', c₅, hclose, hfound⟩ := Parser.bind_eq_ok_iff.1 hfound
    obtain ⟨rfl, rfl⟩ := Parser.pure_eq_ok_iff.1 hfound
    have hspellsOpen := advance_spells_mark hc hmark hadvance
    have hc₁ := hc.of_reaches hspellsOpen.reaches
    have hspellsItems := row_spells
      (fun _ _ _ hc _ => selection_spells (fun _ _ _ hc hmark h => ih hc hmark h) hc) hc₁ hitems
    have hspellsClose := (close_spells (hc₁.of_reaches hspellsItems.reaches) hclose).2
    have hspells := (hspellsOpen.cons (hspellsItems.append hspellsClose)).node rfl
    rw [SelectionSet.layout, Selection.layoutsOfList_eq]
    exact hspells

/-! ### Definitions -/

theorem default_readsOn : ReadsOn (Parser.optional (atMark .equals) (advance >>= fun _ => value true nestingLimit)) :=
  (advance_readsOn.bind fun _ => value_readsOn).optional

theorem variableDefinition_readsOn : ReadsOn variableDefinition :=
  ((advance_readsOn.bind fun _ => name_readsOn.bind fun _ => pure_readsOn _).spanned.bind fun _ =>
    expect_readsOn.bind fun _ => typeRef_readsOn.bind fun _ => default_readsOn.bind fun _ =>
      directives_readsOn.bind fun _ => pure_readsOn _).spanned

theorem definedVariable_spells {n : Name} {span : Span} (hc : c.Sound) (hmark : c.atMark .dollar = true)
    (h : spanned (do
      advance
      let n ← name .name
      return fun span => (n, span)) c = .ok ((n, span), c')) : c.Spells [.variableName n span] c' := by
  obtain ⟨f, hp, hpair⟩ := spanned_eq_ok_iff.1 h
  obtain ⟨u, c₁, hadvance, hp⟩ := Parser.bind_eq_ok_iff.1 hp
  obtain ⟨m, c₂, hname, hp⟩ := Parser.bind_eq_ok_iff.1 hp
  obtain ⟨rfl, rfl⟩ := Parser.pure_eq_ok_iff.1 hp
  obtain ⟨rfl, rfl⟩ := Prod.mk.inj hpair
  exact spells_variableName hc hmark hadvance hname

/-- A default value is spelled with the mark before it, unless the input ends behind it. -/
theorem default_spells {default : Option Value} (hc : c.Sound)
    (h : Parser.optional (atMark .equals) (do
      advance
      value true nestingLimit) c = .ok (default, c'))
    (hend : c'.atEnd = false) : c.Spells (default.elim [] fun x => [.mark .equals, x.layout]) c' := by
  rcases Parser.optional_eq_ok_iff.1 h with ⟨hequals, x, hx, rfl⟩ | ⟨-, rfl, rfl⟩
  · obtain ⟨u, c₁, hadvance, hx⟩ := Parser.bind_eq_ok_iff.1 hx
    have hspellsEquals := advance_spells_mark hc hequals hadvance
    exact hspellsEquals.cons (value_spells (hc.of_reaches hspellsEquals.reaches) hx hend)
  · exact spells_nil _

theorem variableDefinition_spells {v : VariableDefinition} (hc : c.Sound) (hmark : c.atMark .dollar = true)
    (h : variableDefinition c = .ok (v, c')) (hend : c'.atEnd = false) : c.Spells [v.layout] c' := by
  obtain ⟨f, hp, rfl⟩ := spanned_eq_ok_iff.1 h
  obtain ⟨⟨n, span⟩, c₁, hvariable, hp⟩ := Parser.bind_eq_ok_iff.1 hp
  obtain ⟨u, c₂, hcolon, hp⟩ := Parser.bind_eq_ok_iff.1 hp
  obtain ⟨type, c₃, htype, hp⟩ := Parser.bind_eq_ok_iff.1 hp
  obtain ⟨default, c₄, hdefault, hp⟩ := Parser.bind_eq_ok_iff.1 hp
  obtain ⟨uses, c₅, huses, hp⟩ := Parser.bind_eq_ok_iff.1 hp
  obtain ⟨rfl, rfl⟩ := Parser.pure_eq_ok_iff.1 hp
  have hspellsVariable := definedVariable_spells hc hmark hvariable
  have hc₁ := hc.of_reaches hspellsVariable.reaches
  obtain ⟨hcolonMark, hadvance⟩ := expect_eq_ok hcolon
  have hspellsColon := advance_spells_mark hc₁ hcolonMark hadvance
  have hc₂ := hc₁.of_reaches hspellsColon.reaches
  have hspellsType := typeRef_spells hc₂ htype
  have hc₃ := hc₂.of_reaches hspellsType.reaches
  have hc₄ := hc₃.of_reaches (default_readsOn _ _ _ hdefault)
  have hend₄ := hc₄.atEnd_of_reaches (directives_readsOn _ _ _ huses) hend
  have hspellsDefault := default_spells hc₃ hdefault hend₄
  have hspellsUses := directives_spells hc₄ huses
  exact (hspellsVariable.cons (hspellsColon.cons (hspellsType.cons (hspellsDefault.append hspellsUses)))).node rfl

theorem variableDefinitions_spells {vs : List VariableDefinition} (hc : c.Sound)
    (h : variableDefinitions c = .ok (vs, c')) : c.Spells (VariableDefinition.layouts vs) c' := by
  obtain ⟨found, c₁, hfound, hp⟩ := Parser.bind_eq_ok_iff.1 h
  obtain ⟨rfl, rfl⟩ := Parser.pure_eq_ok_iff.1 hp
  rcases Parser.optional_eq_ok_iff.1 hfound with ⟨hmark, items, hlist, rfl⟩ | ⟨-, rfl, rfl⟩
  · obtain ⟨u, c₂, hadvance, hp⟩ := Parser.bind_eq_ok_iff.1 hlist
    obtain ⟨u', c₃, hrequire, hp⟩ := Parser.bind_eq_ok_iff.1 hp
    obtain ⟨hdollar, rfl⟩ := require_eq_ok_iff.1 hrequire
    obtain ⟨vs, c₄, hitems, hp⟩ := Parser.bind_eq_ok_iff.1 hp
    obtain ⟨u'', c₅, hclose, hp⟩ := Parser.bind_eq_ok_iff.1 hp
    obtain ⟨rfl, rfl⟩ := Parser.pure_eq_ok_iff.1 hp
    have hspellsOpen := advance_spells_mark hc hmark hadvance
    have hc₂ := hc.of_reaches hspellsOpen.reaches
    obtain ⟨hend, hspellsClose⟩ :=
      close_spells (hc₂.of_reaches (variableDefinition_readsOn.many _ _ _ hitems)) hclose
    have hspellsItems := many_spells (fun c v c' _ _ => variableDefinition_readsOn c v c') goesOn_of_reaches
      (fun _ _ _ => variableDefinition_spells) hc₂ hitems hend
    -- There are some, so that the parentheses are part of the layout.
    obtain ⟨v, vs, rfl⟩ := List.exists_cons_of_ne_nil (ne_nil_of_many hdollar hitems)
    exact hspellsOpen.cons (hspellsItems.append hspellsClose)
  · exact spells_nil _

/-- Words that announce operations. -/
theorem operationKind_keyword (kind : OperationKind) : operationKind kind.keyword = kind := by
  cases kind <;> rfl

/-- The keyword of an operation, with all that stands between it and the selections, is its head. -/
theorem headLayouts_le (o : Operation) :
    Layout.languageOfList (.word o.kind.keyword :: (o.name.elim [] fun n => [.name n]) ++
      VariableDefinition.layouts o.variableDefinitions ++ o.directives.map DirectiveUse.layout) ≤
      Layout.languageOfList o.headLayouts := by
  unfold Operation.headLayouts
  split
  · next hshort =>
    obtain ⟨kind, name, defined, uses, set, span⟩ := o
    simp only [Operation.isShort, Bool.and_eq_true, beq_iff_eq, Option.isNone_iff_eq_none, List.isEmpty_iff] at hshort
    obtain ⟨⟨⟨rfl, rfl⟩, rfl⟩, rfl⟩ := hshort
    intro ts hts
    obtain ⟨_, ⟨t, rfl, ht⟩, _, rfl, rfl⟩ := Layout.mem_languageOfList_cons_iff.1 hts
    refine Layout.mem_slack_iff.2 (.inr ?_)
    rw [List.append_nil, List.map_singleton, ht]
    rfl
  · exact le_refl _

theorem operation_spells {o : Operation} (hc : c.Sound)
    (hword : c.atName = true → ∃ kind : OperationKind, c.token.text = kind.keyword)
    (h : operation c = .ok (o, c')) : c.Spells [o.layout] c' := by
  obtain ⟨f, hp, rfl⟩ := spanned_eq_ok_iff.1 h
  obtain ⟨t, c₁, hlook, hp⟩ := Parser.bind_eq_ok_iff.1 hp
  obtain ⟨rfl, rfl⟩ := Parser.look_eq_ok_iff.1 hlook
  split at hp
  · next hname =>
    obtain ⟨kind, hkind⟩ := hword hname
    obtain ⟨u, c₂, hadvance, hp⟩ := Parser.bind_eq_ok_iff.1 hp
    obtain ⟨n, c₃, hn, hp⟩ := Parser.bind_eq_ok_iff.1 hp
    obtain ⟨defined, c₄, hdefined, hp⟩ := Parser.bind_eq_ok_iff.1 hp
    obtain ⟨uses, c₅, huses, hp⟩ := Parser.bind_eq_ok_iff.1 hp
    obtain ⟨u', c₆, hrequire, hp⟩ := Parser.bind_eq_ok_iff.1 hp
    obtain ⟨hbrace, rfl⟩ := require_eq_ok_iff.1 hrequire
    obtain ⟨set, c₇, hset, hp⟩ := Parser.bind_eq_ok_iff.1 hp
    obtain ⟨rfl, rfl⟩ := Parser.pure_eq_ok_iff.1 hp
    have hspellsWord := advance_spells_word hc hname hadvance
    have hc₂ := hc.of_reaches hspellsWord.reaches
    have hspellsName : c₂.Spells (n.elim [] fun n => [.name n]) c₃ := by
      rcases Parser.optional_eq_ok_iff.1 hn with ⟨-, m, hm, rfl⟩ | ⟨-, rfl, rfl⟩
      · exact name_spells hc₂ hm
      · exact spells_nil _
    have hc₃ := hc₂.of_reaches hspellsName.reaches
    have hspellsDefined := variableDefinitions_spells hc₃ hdefined
    have hc₄ := hc₃.of_reaches hspellsDefined.reaches
    have hspellsUses := directives_spells hc₄ huses
    have hspellsSet := selectionSet_spells (hc₄.of_reaches hspellsUses.reaches) hbrace hset
    rw [hkind, operationKind_keyword]
    rw [hkind] at hspellsWord
    have hspellsHead := (((hspellsWord.cons hspellsName).append hspellsDefined).append hspellsUses).mono
      (headLayouts_le ⟨kind, n, defined, uses, set, ⟨c.token.span.start, c₇.readTo⟩⟩)
    exact (hspellsHead.append hspellsSet).node (by simp)
  · obtain ⟨u, c₂, hrequire, hp⟩ := Parser.bind_eq_ok_iff.1 hp
    obtain ⟨hbrace, rfl⟩ := require_eq_ok_iff.1 hrequire
    obtain ⟨set, c₃, hset, hp⟩ := Parser.bind_eq_ok_iff.1 hp
    obtain ⟨rfl, rfl⟩ := Parser.pure_eq_ok_iff.1 hp
    have hspellsNothing : c.Spells [.slack .queryKeyword] c := ⟨[], Layout.mem_slack_iff.2 (.inl rfl), reads_nil c⟩
    have hspells := hspellsNothing.cons (selectionSet_spells hc hbrace hset)
    exact hspells.node (by simp)

/-- A fragment begins with its keyword, or with a string: a description that stands in its place. -/
theorem fragmentKeyword_spells {u : Unit} (hc : c.Sound) (hstart : c.atWord "fragment" = true ∨ c.atString = true)
    (h : advance c = .ok (u, c')) : c.Spells [.slack .fragmentKeyword] c' := by
  rcases hstart with hword | hstring
  · obtain ⟨hatName, htext⟩ := Bool.and_eq_true_iff.1 hword
    refine (advance_spells_word hc hatName h).mono ?_
    rw [beq_iff_eq.1 htext]
    exact Layout.symbol_le_slack (.inl rfl)
  · have hkind : c.token.kind = .string := eq_of_beq hstring
    have hsymbol : c.token.symbol = ⟨.string, c.token.text⟩ := by rw [Token.symbol, hkind]
    refine ((advance_reads hc (atEnd_of_atString hstring) h).spells_symbol hsymbol).mono ?_
    exact Layout.symbol_le_slack (.inr ⟨c.token.text, rfl⟩)

theorem fragment_spells {f : Fragment} (hc : c.Sound) (hstart : c.atWord "fragment" = true ∨ c.atString = true)
    (h : fragment c = .ok (f, c')) : c.Spells [f.layout] c' := by
  obtain ⟨g, hp, rfl⟩ := spanned_eq_ok_iff.1 h
  obtain ⟨u, c₁, hadvance, hp⟩ := Parser.bind_eq_ok_iff.1 hp
  obtain ⟨u', c₂, hrequire, hp⟩ := Parser.bind_eq_ok_iff.1 hp
  obtain ⟨-, rfl⟩ := require_eq_ok_iff.1 hrequire
  obtain ⟨n, c₂, hname, hp⟩ := Parser.bind_eq_ok_iff.1 hp
  obtain ⟨condition, c₃, hcondition, hp⟩ := Parser.bind_eq_ok_iff.1 hp
  obtain ⟨uses, c₄, huses, hp⟩ := Parser.bind_eq_ok_iff.1 hp
  obtain ⟨u'', c₅, hrequire, hp⟩ := Parser.bind_eq_ok_iff.1 hp
  obtain ⟨hbrace, rfl⟩ := require_eq_ok_iff.1 hrequire
  obtain ⟨set, c₅, hset, hp⟩ := Parser.bind_eq_ok_iff.1 hp
  obtain ⟨rfl, rfl⟩ := Parser.pure_eq_ok_iff.1 hp
  have hspellsStart := fragmentKeyword_spells hc hstart hadvance
  have hc₁ := hc.of_reaches hspellsStart.reaches
  have hspellsName := name_spells hc₁ hname
  have hc₂ := hc₁.of_reaches hspellsName.reaches
  have hspellsCondition := typeCondition_spells hc₂ hcondition
  have hc₃ := hc₂.of_reaches hspellsCondition.reaches
  have hspellsUses := directives_spells hc₃ huses
  have hspellsSet := selectionSet_spells (hc₃.of_reaches hspellsUses.reaches) hbrace hset
  exact (((hspellsStart.cons (hspellsName.cons hspellsCondition)).append hspellsUses).append hspellsSet).node rfl

end TokenParser

end QueryAid
