import QueryAid.Proofs.Document.Reading
/-!
# What a source holds

Of a definition that cannot be executed only the name is kept, so all that is said of its rules is that they read on
(`ReadsOn`) and where the name stands (`KeepsName`). With the rules for operations and fragments this makes
`tokens_mem_of_parse`: the tokens of a source that is a document are laid out as its definitions, one behind the other.
-/

namespace QueryAid

namespace TokenParser

open Cursor

variable {α : Type} {c c' : Cursor}

/-! ### Rules that read on -/

theorem constantDirectives_readsOn : ReadsOn constantDirectives :=
  (look_readsOn _).bind fun _ => directives_readsOn.bind fun _ => pure_readsOn _

section Lists

variable {item : TokenParser Unit} {separator : Punctuator} {fault : SyntaxFault}

theorem separated_readsOn (h : item.ReadsOn) : ReadsOn (separated separator item) :=
  skip_readsOn.bind fun _ => h.bind fun _ => (advance_readsOn.bind fun _ => h).many.bind fun _ => pure_readsOn _

theorem items_readsOn (h : item.ReadsOn) : ReadsOn (items fault item) :=
  require_readsOn.bind fun _ => h.many.bind fun _ => pure_readsOn _

theorem body_readsOn (h : item.ReadsOn) : ReadsOn (body fault item) :=
  ReadsOn.bind (ReadsOn.optional (advance_readsOn.bind fun _ => (items_readsOn h).bind fun _ => close_readsOn _))
    fun _ => pure_readsOn _

end Lists

theorem inputValueDefinition_readsOn : ReadsOn inputValueDefinition :=
  skip_readsOn.bind fun _ => name_readsOn.bind fun _ => expect_readsOn.bind fun _ => typeRef_readsOn.bind fun _ =>
    default_readsOn.bind fun _ => constantDirectives_readsOn.bind fun _ => pure_readsOn _

theorem argumentDefinitions_readsOn : ReadsOn argumentDefinitions :=
  ReadsOn.bind (ReadsOn.optional (advance_readsOn.bind fun _ =>
    (items_readsOn inputValueDefinition_readsOn).bind fun _ => close_readsOn _)) fun _ => pure_readsOn _

theorem fieldDefinition_readsOn : ReadsOn fieldDefinition :=
  skip_readsOn.bind fun _ => name_readsOn.bind fun _ => argumentDefinitions_readsOn.bind fun _ =>
    expect_readsOn.bind fun _ => typeRef_readsOn.bind fun _ => constantDirectives_readsOn.bind fun _ => pure_readsOn _

theorem enumValueDefinition_readsOn : ReadsOn enumValueDefinition :=
  skip_readsOn.bind fun _ => require_readsOn.bind fun _ => require_readsOn.bind fun _ => advance_readsOn.bind fun _ =>
    constantDirectives_readsOn.bind fun _ => pure_readsOn _

theorem implementsInterfaces_readsOn : ReadsOn implementsInterfaces :=
  ReadsOn.bind (ReadsOn.optional (advance_readsOn.bind fun _ =>
    separated_readsOn (name_readsOn.bind fun _ => pure_readsOn _))) fun _ => pure_readsOn _

theorem unionMembers_readsOn : ReadsOn unionMembers :=
  ReadsOn.bind (ReadsOn.optional (advance_readsOn.bind fun _ =>
    separated_readsOn (name_readsOn.bind fun _ => pure_readsOn _))) fun _ => pure_readsOn _

theorem rootOperations_readsOn : ReadsOn rootOperations :=
  ReadsOn.bind (ReadsOn.many (require_readsOn.bind fun _ => advance_readsOn.bind fun _ =>
    expect_readsOn.bind fun _ => skip_readsOn)) fun _ => pure_readsOn _

theorem directiveLocation_readsOn : ReadsOn directiveLocation :=
  require_readsOn.bind fun _ => require_readsOn.bind fun _ => advance_readsOn

theorem mapM_readsOn {parts : List (TokenParser α)} (h : ∀ p ∈ parts, ReadsOn p) : ReadsOn (parts.mapM id) := by
  have hloop : ∀ found : List α, ReadsOn (List.mapM.loop id parts found) := by
    induction parts with
    | nil => exact fun _ => pure_readsOn _
    | cons p parts ih =>
      rw [List.forall_mem_cons] at h
      exact fun _ => h.1.bind fun _ => ih h.2 _
  exact hloop []

theorem extensionParts_readsOn {fault : SyntaxFault} {parts : List (TokenParser Bool)} (h : ∀ p ∈ parts, ReadsOn p) :
    ReadsOn (extensionParts fault parts) :=
  (mapM_readsOn h).bind fun _ => require_readsOn

end TokenParser

/-! ### Definitions that cannot be executed -/

/-- What is read between two cursors can be anything. -/
theorem Cursor.Reaches.spells_anything {c c' : Cursor} (h : c.Reaches c') : c.Spells [.slack .anything] c' := by
  obtain ⟨ts, hts⟩ := h
  exact ⟨ts, Layout.mem_slack_iff.2 trivial, hts⟩

namespace TokenParser

open Cursor

variable {α β : Type} {c c' : Cursor}

/-- A parser reads on and gives one result only. -/
def Gives (p : TokenParser α) (a : α) : Prop := ∀ c b c', p c = .ok (b, c') → b = a ∧ c.Reaches c'

theorem gives_pure (a : α) : Gives (pure a) a := by
  intro c b c' h
  obtain ⟨rfl, rfl⟩ := Parser.pure_eq_ok_iff.1 h
  exact ⟨rfl, c.reaches_refl⟩

theorem ReadsOn.gives {p : TokenParser β} {f : β → TokenParser α} {a : α} (hp : p.ReadsOn)
    (hf : ∀ b, Gives (f b) a) : Gives (p >>= f) a := by
  intro c a' c' h
  obtain ⟨b, c₁, hb, h⟩ := Parser.bind_eq_ok_iff.1 h
  obtain ⟨rfl, hreach⟩ := hf b c₁ a' c' h
  exact ⟨rfl, (hp c b c₁ hb).trans hreach⟩

/-- **A rule keeps the name that it reads,** wherever the name stands. -/
def KeepsName (p : TokenParser (Option Name)) : Prop :=
  ∀ c found c', c.Sound → p c = .ok (found, c') →
    ∃ n, found = some n ∧ c.Spells [.slack .anything, .name n, .slack .anything] c'

/-- The name is found behind what is read before it. -/
theorem ReadsOn.keepsName {p : TokenParser β} {f : β → TokenParser (Option Name)} (hp : p.ReadsOn)
    (hf : ∀ b, KeepsName (f b)) : KeepsName (p >>= f) := by
  intro c found c' hc h
  obtain ⟨b, c₁, hb, h⟩ := Parser.bind_eq_ok_iff.1 h
  have hreach := hp c b c₁ hb
  obtain ⟨n, rfl, hspells⟩ := hf b c₁ found c' (hc.of_reaches hreach) h
  exact ⟨n, rfl, (hreach.spells_anything.cons hspells).mono Layout.anything_mul_le⟩

/-- The name is given behind what is read after it. -/
theorem keepsName_of_gives {fault : SyntaxFault} {after : Name → TokenParser (Option Name)}
    (hafter : ∀ n, Gives (after n) (some n)) : KeepsName (name fault >>= after) := by
  intro c found c' hc h
  obtain ⟨n, c₁, hname, h⟩ := Parser.bind_eq_ok_iff.1 h
  obtain ⟨rfl, hreach⟩ := hafter n c₁ found c' h
  exact ⟨n, rfl, c.reaches_refl.spells_anything.cons ((name_spells hc hname).cons hreach.spells_anything)⟩

theorem definitionHead_keepsName {keyword : String} {fault : SyntaxFault} {after : Name → TokenParser (Option Name)}
    (hafter : ∀ n, Gives (after n) (some n)) : KeepsName (definitionHead keyword fault >>= after) := by
  intro c found c' hc h
  obtain ⟨n, c₁, hhead, h⟩ := Parser.bind_eq_ok_iff.1 h
  obtain ⟨u, c₂, hstring, hhead⟩ := Parser.bind_eq_ok_iff.1 hhead
  obtain ⟨u', c₃, hkeyword, hname⟩ := Parser.bind_eq_ok_iff.1 hhead
  have hreach := (skip_readsOn _ _ _ hstring).trans (skip_readsOn _ _ _ hkeyword)
  obtain ⟨m, rfl, hspells⟩ := keepsName_of_gives hafter c₃ found c' (hc.of_reaches hreach)
    (Parser.bind_eq_ok_iff.2 ⟨n, c₁, hname, h⟩)
  exact ⟨m, rfl, (hreach.spells_anything.cons hspells).mono Layout.anything_mul_le⟩

theorem scalarDefinition_keepsName : KeepsName scalarDefinition :=
  definitionHead_keepsName fun _ => constantDirectives_readsOn.gives fun _ => gives_pure _

theorem fieldsDefinition_keepsName {keyword : String} {fault : SyntaxFault} :
    KeepsName (fieldsDefinition keyword fault) :=
  definitionHead_keepsName fun _ => implementsInterfaces_readsOn.gives fun _ =>
    constantDirectives_readsOn.gives fun _ => (body_readsOn fieldDefinition_readsOn).gives fun _ => gives_pure _

theorem unionDefinition_keepsName : KeepsName unionDefinition :=
  definitionHead_keepsName fun _ => constantDirectives_readsOn.gives fun _ =>
    unionMembers_readsOn.gives fun _ => gives_pure _

theorem enumDefinition_keepsName : KeepsName enumDefinition :=
  definitionHead_keepsName fun _ => constantDirectives_readsOn.gives fun _ =>
    (body_readsOn enumValueDefinition_readsOn).gives fun _ => gives_pure _

theorem inputObjectDefinition_keepsName : KeepsName inputObjectDefinition :=
  definitionHead_keepsName fun _ => constantDirectives_readsOn.gives fun _ =>
    (body_readsOn inputValueDefinition_readsOn).gives fun _ => gives_pure _

theorem directiveDefinition_keepsName : KeepsName directiveDefinition :=
  skip_readsOn.keepsName fun _ => skip_readsOn.keepsName fun _ => expect_readsOn.keepsName fun _ =>
    keepsName_of_gives fun _ => argumentDefinitions_readsOn.gives fun _ => skip_readsOn.gives fun _ =>
      expect_readsOn.gives fun _ => require_readsOn.gives fun _ =>
        (separated_readsOn directiveLocation_readsOn).gives fun _ => gives_pure _

theorem typeExtension_keepsName {fault : SyntaxFault} {parts : List (TokenParser Bool)} (h : ∀ p ∈ parts, ReadsOn p) :
    KeepsName (typeExtension fault parts) :=
  keepsName_of_gives fun _ => (extensionParts_readsOn h).gives fun _ => gives_pure _

/-! ### Definitions and their extents -/

/-- **A rule reads a definition that cannot be executed,** and there is something to read. -/
def ReadsDefinition (p : TokenParser (Option Name)) (c : Cursor) : Prop :=
  ∀ found c', p c = .ok (found, c') → c.Spells (NonExecutable.parts found) c' ∧ Unread.unread c' < Unread.unread c

theorem KeepsName.readsDefinition {p : TokenParser (Option Name)} (hp : KeepsName p) (hc : c.Sound) :
    ReadsDefinition p c := by
  intro found c' h
  obtain ⟨n, rfl, hspells⟩ := hp c found c' hc h
  exact ⟨hspells, hspells.unread_lt rfl⟩

theorem typeSystemItem_spells {p : TokenParser (Option Name)} {x : DocumentItem} (hp : ReadsDefinition p c)
    (h : typeSystemItem p c = .ok (x, c')) : c.Spells [x.layout] c' := by
  obtain ⟨f, hrule, rfl⟩ := spanned_eq_ok_iff.1 h
  obtain ⟨found, c₁, hfound, hrule⟩ := Parser.bind_eq_ok_iff.1 hrule
  obtain ⟨rfl, rfl⟩ := Parser.pure_eq_ok_iff.1 hrule
  obtain ⟨⟨ts, hts, hreads⟩, hless⟩ := hp found c₁ hfound
  exact hreads.spells_node hts (hreads.ne_nil_of_unread_lt hless)

theorem advance_unread_lt {u : Unit} (hc : c.Sound) (hend : c.atEnd = false) (h : advance c = .ok (u, c')) :
    Unread.unread c' < Unread.unread c :=
  (advance_reads hc hend h).unread_lt (List.cons_ne_nil _ _)

/-- A schema has no name; its definition begins with a description or its keyword. -/
theorem schemaDefinition_readsDefinition (hc : c.Sound) (hstart : c.atString = true ∨ c.atWord "schema" = true) :
    ReadsDefinition schemaDefinition c := by
  intro found c' h
  obtain ⟨u, c₁, hstring, h⟩ := Parser.bind_eq_ok_iff.1 h
  obtain ⟨u', c₂, hkeyword, h⟩ := Parser.bind_eq_ok_iff.1 h
  have hbody : ReadsOn (Parser.optional (atMark .leftBrace) (do
      advance
      let found ← rootOperations
      require (fun _ => found) .rootOperation
      close .brace)) :=
    ReadsOn.optional (advance_readsOn.bind fun _ => rootOperations_readsOn.bind fun _ =>
      require_readsOn.bind fun _ => close_readsOn _)
  obtain ⟨rfl, hreach⟩ := (constantDirectives_readsOn.gives fun _ => hbody.gives fun _ => gives_pure none) c₂ _ _ h
  have hreach₁ := skip_readsOn _ _ _ hstring
  have hreach₂ := skip_readsOn _ _ _ hkeyword
  refine ⟨((hreach₁.trans hreach₂).trans hreach).spells_anything, ?_⟩
  -- The description is read, or else the keyword.
  by_cases hat : c.atString = true
  · rw [skip, if_pos hat] at hstring
    exact lt_of_le_of_lt (hreach₂.trans hreach).unread_le (advance_unread_lt hc (atEnd_of_atString hat) hstring)
  · have hword := hstart.resolve_left hat
    rw [skip, if_neg hat] at hstring
    cases hstring
    rw [skip, if_pos hword] at hkeyword
    have hend := atEnd_of_atName (Bool.and_eq_true_iff.1 hword).1
    exact lt_of_le_of_lt hreach.unread_le (advance_unread_lt hc hend hkeyword)

theorem schemaExtension_gives : Gives schemaExtension none := by
  have hroots : ReadsOn (Parser.optional (atMark .leftBrace) (do
      advance
      let found ← rootOperations
      close .brace
      return found) >>= fun found => pure (found.getD false)) :=
    ReadsOn.bind (ReadsOn.optional (advance_readsOn.bind fun _ => rootOperations_readsOn.bind fun _ =>
      (close_readsOn _).bind fun _ => pure_readsOn _)) fun _ => pure_readsOn _
  exact (extensionParts_readsOn (List.forall_mem_cons.2
    ⟨constantDirectives_readsOn, List.forall_mem_singleton.2 hroots⟩)).gives fun _ => gives_pure _

/-- What follows the keyword of an extension has a name, except for schemas. -/
theorem extensionOf?_eq_some {keyword : String} {p : TokenParser (Option Name)} (h : extensionOf? keyword = some p) :
    KeepsName p ∨ Gives p none := by
  have hfields : ReadsOn fieldDefinitions := body_readsOn fieldDefinition_readsOn
  have hvalues : ReadsOn enumValueDefinitions := body_readsOn enumValueDefinition_readsOn
  have hinputs : ReadsOn inputFieldDefinitions := body_readsOn inputValueDefinition_readsOn
  have hdirectives := constantDirectives_readsOn
  have hinterfaces := implementsInterfaces_readsOn
  have hmembers := unionMembers_readsOn
  unfold extensionOf? at h
  split at h
  · cases h
    exact .inr schemaExtension_gives
  iterate 6
    · cases h
      exact .inl (typeExtension_keepsName (by simp [*]))
  · cases h

theorem extension_readsDefinition (hc : c.Sound) (hend : c.atEnd = false) : ReadsDefinition extension c := by
  intro found c' h
  obtain ⟨next, c₁, hlook, h⟩ := Parser.bind_eq_ok_iff.1 h
  obtain ⟨rfl, rfl⟩ := Parser.look_eq_ok_iff.1 hlook
  cases hrest : c.second?.bind fun t => extensionOf? t.text with
  | none =>
    rw [hrest] at h
    exact absurd h fail_ne_ok
  | some p =>
    rw [hrest] at h
    obtain ⟨t, -, hp⟩ := Option.bind_eq_some_iff.1 hrest
    obtain ⟨u, c₁, hadvance, h⟩ := Parser.bind_eq_ok_iff.1 h
    obtain ⟨u', c₂, hadvance', h⟩ := Parser.bind_eq_ok_iff.1 h
    have hless := advance_unread_lt hc hend hadvance
    have hreach := (advance_readsOn _ _ _ hadvance).trans (advance_readsOn _ _ _ hadvance')
    have hreach' := advance_readsOn _ _ _ hadvance'
    rcases extensionOf?_eq_some hp with hp | hp
    · obtain ⟨n, rfl, hspells⟩ := hp c₂ found c' (hc.of_reaches hreach) h
      exact ⟨(hreach.spells_anything.cons hspells).mono Layout.anything_mul_le,
        lt_of_le_of_lt (hreach'.trans hspells.reaches).unread_le hless⟩
    · obtain ⟨rfl, hreach''⟩ := hp c₂ found c' h
      exact ⟨(hreach.trans hreach'').spells_anything, lt_of_le_of_lt (hreach'.trans hreach'').unread_le hless⟩

/-! ### Items -/

/-- **A word announces an item:** it is the first of it, or stands behind a string. -/
def Announces (word : String) (c : Cursor) : Prop :=
  c.atString = true ∨ (c.atName = true ∨ c.atMark .leftBrace = true) ∧ c.token.text = word

section Announces

variable {word : String}

theorem Announces.atEnd (h : Announces word c) : c.atEnd = false := by
  rcases h with hstring | ⟨hname | hbrace, -⟩
  · exact atEnd_of_atString hstring
  · exact atEnd_of_atName hname
  · exact atEnd_of_atMark hbrace

theorem Announces.atWord (h : Announces word c) (hc : c.Sound) (hword : word ≠ Punctuator.leftBrace.text) :
    c.atString = true ∨ c.atWord word = true := by
  rcases h with hstring | ⟨hname | hbrace, rfl⟩
  · exact .inl hstring
  · exact .inr (Bool.and_eq_true_iff.2 ⟨hname, beq_self_eq_true _⟩)
  · exact absurd (hc.text_of_atMark hbrace) hword

theorem operationItem_spells {x : DocumentItem} (hc : c.Sound)
    (hword : c.atName = true → ∃ kind : OperationKind, c.token.text = kind.keyword)
    (h : operationItem c = .ok (x, c')) : c.Spells [x.layout] c' := by
  obtain ⟨o, c₁, ho, h⟩ := Parser.bind_eq_ok_iff.1 h
  obtain ⟨rfl, rfl⟩ := Parser.pure_eq_ok_iff.1 h
  exact operation_spells hc hword ho

theorem fragmentItem_spells {x : DocumentItem} (hc : c.Sound)
    (hstart : c.atWord "fragment" = true ∨ c.atString = true) (h : fragmentItem c = .ok (x, c')) :
    c.Spells [x.layout] c' := by
  obtain ⟨f, c₁, hf, h⟩ := Parser.bind_eq_ok_iff.1 h
  obtain ⟨rfl, rfl⟩ := Parser.pure_eq_ok_iff.1 h
  exact fragment_spells hc hstart hf

/-- Where the cursor is on a name, the announcing word is that name. -/
theorem Announces.text_of_atName (h : Announces word c) (hname : c.atName = true) : c.token.text = word := by
  rcases h with hstring | ⟨-, htext⟩
  · have hkind : c.token.kind = .name := eq_of_beq hname
    rw [Cursor.atString, Token.isString, hkind] at hstring
    cases hstring
  · exact htext

/-- **What a word announces is spelled.** -/
theorem itemOf_spells {x : DocumentItem} (hc : c.Sound) (hstart : Announces word c)
    (h : itemOf word c = .ok (x, c')) : c.Spells [x.layout] c' := by
  unfold itemOf at h
  split at h
  · exact operationItem_spells hc (fun hname => ⟨.query, hstart.text_of_atName hname⟩) h
  · exact operationItem_spells hc (fun hname => ⟨.mutation, hstart.text_of_atName hname⟩) h
  · exact operationItem_spells hc (fun hname => ⟨.subscription, hstart.text_of_atName hname⟩) h
  · -- A name is not a brace.
    exact operationItem_spells hc
      (fun hname => absurd (hstart.text_of_atName hname) (hc.text_ne_of_atName hname)) h
  · exact fragmentItem_spells hc (hstart.atWord hc (by decide)).symm h
  · exact typeSystemItem_spells (extension_readsDefinition hc hstart.atEnd) h
  · exact typeSystemItem_spells (schemaDefinition_readsDefinition hc (hstart.atWord hc (by decide))) h
  · exact typeSystemItem_spells (scalarDefinition_keepsName.readsDefinition hc) h
  · exact typeSystemItem_spells (fieldsDefinition_keepsName.readsDefinition hc) h
  · exact typeSystemItem_spells (fieldsDefinition_keepsName.readsDefinition hc) h
  · exact typeSystemItem_spells (unionDefinition_keepsName.readsDefinition hc) h
  · exact typeSystemItem_spells (enumDefinition_keepsName.readsDefinition hc) h
  · exact typeSystemItem_spells (inputObjectDefinition_keepsName.readsDefinition hc) h
  · exact typeSystemItem_spells (directiveDefinition_keepsName.readsDefinition hc) h
  · exact absurd h fail_ne_ok

end Announces

theorem item_spells {x : DocumentItem} (hc : c.Sound) (h : item c = .ok (x, c')) : c.Spells [x.layout] c' := by
  obtain ⟨t, c₁, hlook, h⟩ := Parser.bind_eq_ok_iff.1 h
  obtain ⟨rfl, rfl⟩ := Parser.look_eq_ok_iff.1 hlook
  split at h
  · next hstring =>
    obtain ⟨next, c₁, hlook, h⟩ := Parser.bind_eq_ok_iff.1 h
    obtain ⟨rfl, rfl⟩ := Parser.look_eq_ok_iff.1 hlook
    cases hsecond : c.second? with
    | none =>
      rw [hsecond] at h
      exact absurd h fail_ne_ok
    | some t =>
      rw [hsecond] at h
      exact itemOf_spells hc (.inl hstring) h
  · obtain ⟨u, c₁, hrequire, h⟩ := Parser.bind_eq_ok_iff.1 h
    obtain ⟨hstart, rfl⟩ := require_eq_ok_iff.1 hrequire
    exact itemOf_spells hc (.inr ⟨Bool.or_eq_true_iff.1 hstart, rfl⟩) h

/-! ### Documents -/

/-- A source is read to its end. -/
theorem documentItems_spells {items : List DocumentItem} (hc : c.Sound) (h : documentItems c = .ok (items, c')) :
    c.Spells (items.map DocumentItem.layout) c' ∧ c'.atEnd = true := by
  obtain ⟨u, c₁, hrequire, h⟩ := Parser.bind_eq_ok_iff.1 h
  obtain ⟨-, rfl⟩ := require_eq_ok_iff.1 hrequire
  refine ⟨row_spells (fun _ _ _ hc _ => item_spells hc) hc h, ?_⟩
  have hstop := more_eq_false_of_many (fun _ _ _ hc _ hx => (item_spells hc hx).reaches)
    (fun _ _ _ hc _ hx (_ : True) => (item_spells hc hx).unread_lt (by simp)) hc h trivial
  simpa using hstop

end TokenParser

/-- The cursor at the start of a source has all of it ahead. -/
theorem Cursor.ofSource_eq_ok {source : List Char} {c : Cursor} (h : Cursor.ofSource source = .ok c) :
    c.rest = tokens source ++ [endToken source] := by
  unfold Cursor.ofSource at h
  split at h
  · next hnil =>
    obtain ⟨-, rfl⟩ := TokenParser.onto_eq_ok_iff.1 h
    rw [hnil]
    rfl
  · next t ts hcons =>
    obtain ⟨-, rfl⟩ := TokenParser.onto_eq_ok_iff.1 h
    rw [hcons]
    rfl

theorem Cursor.sound_ofSource {source : List Char} {c : Cursor} (h : Cursor.ofSource source = .ok c) : c.Sound := by
  have hrest := Cursor.ofSource_eq_ok h
  refine ⟨⟨tokens source, endToken source, hrest, rfl, fun t => isEnd_of_mem_tokens⟩, ?_⟩
  rw [hrest, List.forall_mem_append, List.forall_mem_singleton]
  exact ⟨fun t => suits_of_mem_tokens, rfl⟩

/-- A document is formed by the items that are read from its source. -/
theorem Document.exists_items_of_parse {source : List Char} {d : Document} (h : Document.parse source = .ok d) :
    ∃ c items c', Cursor.ofSource source = .ok c ∧ TokenParser.documentItems c = .ok (items, c') ∧
      d = Document.ofItems items := by
  unfold Document.parse at h
  cases hcursor : Cursor.ofSource source with
  | error e =>
    rw [hcursor] at h
    cases h
  | ok c =>
    rw [hcursor] at h
    cases hitems : TokenParser.documentItems c with
    | error e =>
      simp only [bind, Except.bind, hitems] at h
      cases h
    | ok r =>
      obtain ⟨items, c'⟩ := r
      simp only [bind, Except.bind, hitems, pure, Except.pure, Except.ok.injEq] at h
      exact ⟨c, items, c', rfl, hitems, h.symm⟩

/-- **The tokens of a source that is a document are laid out as its items,** one behind the other. -/
theorem Document.tokens_mem_of_parse {source : List Char} {d : Document} (h : Document.parse source = .ok d) :
    ∃ items, d = Document.ofItems items ∧
      tokens source ∈ Layout.languageOfList (items.map DocumentItem.layout) := by
  obtain ⟨c, items, c', hcursor, hitems, rfl⟩ := Document.exists_items_of_parse h
  have hsound := Cursor.sound_ofSource hcursor
  obtain ⟨⟨ts, hts, hreads⟩, hend⟩ := TokenParser.documentItems_spells hsound hitems
  -- Behind the items there is the end of the input only.
  have hahead := ((hsound.of_reaches ⟨ts, hreads⟩).ahead_eq_nil_iff).2 hend
  have hrest := hreads.rest
  rw [Cursor.ofSource_eq_ok hcursor, Cursor.rest, hahead] at hrest
  obtain ⟨rfl, -⟩ := List.append_inj' hrest rfl
  exact ⟨items, rfl, hts⟩

end QueryAid
