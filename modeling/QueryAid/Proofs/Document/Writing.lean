import QueryAid.Proofs.Document.Spans
import QueryAid.Proofs.GuardedFold
/-!
# Writing documents back

A document that is written back gives the tokens of its source again, in order, but not quite all of them
(`Document.exists_writes_of_parse`): names that stand among arguments or fields of objects without a value are passed
over, and with them the parentheses in which there is nothing else, and a string in front of a fragment is taken for its
keyword. A query that consists of selections can be written with its keyword or without.
-/

namespace QueryAid

/-! ### What is written, and what is passed over -/

/-- What a source says at a slack is written, apart from what is passed over. The keyword of a query is written if it is
said; names without a value never are. -/
def Slack.Writes : Slack → List Symbol → List Symbol → Prop
  | queryKeyword, passed, said => passed = [] ∧ (said = [] ∨ said = [.word "query"])
  | fragmentKeyword, passed, said =>
    passed = [] ∧ said = [.word "fragment"] ∨ ∃ text, passed = [⟨.string, text⟩] ∧ said = passed
  | names, passed, said => said = passed ∧ names.Allows said
  | namesInParentheses, passed, said => said = passed ∧ namesInParentheses.Allows said
  | anything, passed, said => said = passed

mutual

/-- **A part is written as what a source says,** apart from what is passed over. -/
def Layout.Writes : Layout → List Symbol → List Symbol → Prop
  | .symbol s, passed, said => passed = [] ∧ said = [s]
  | .slack s, passed, said => s.Writes passed said
  | .name n, passed, said => passed = [] ∧ said = [.word n.value]
  | .variableName n _, passed, said => passed = [] ∧ said = [.mark .dollar, .word n.value]
  | .node _ parts, passed, said => Layout.WritesAll parts passed said

/-- Parts are written one behind the other. -/
def Layout.WritesAll : List Layout → List Symbol → List Symbol → Prop
  | [], passed, said => passed = [] ∧ said = []
  | l :: ls, passed, said =>
    ∃ own rest ownSaid restSaid, passed = own ++ rest ∧ said = ownSaid ++ restSaid ∧ l.Writes own ownSaid ∧
      Layout.WritesAll ls rest restSaid

end

/-- **A document is written as what a source says,** apart from what is passed over. -/
def Document.Writes (d : Document) (passed said : List Symbol) : Prop :=
  Layout.WritesAll (d.definitions.map Definition.layout) passed said

/-- Names, strings and parentheses: the symbols that can be passed over. -/
def Symbol.IsPassable (x : Symbol) : Prop :=
  x.kind = .name ∨ x.kind = .string ∨ x = .mark .leftParen ∨ x = .mark .rightParen

/-! ### Parts that are kept -/

namespace Layout

mutual

/-- Whether a part is kept, other than the definitions that cannot be executed, of which only the names are. -/
def isKept : Layout → Bool
  | symbol _ | name _ | variableName _ _ => true
  | slack s => s != .anything
  | node _ parts => areKept parts

/-- Whether all parts are kept. -/
def areKept : List Layout → Bool
  | [] => true
  | l :: ls => l.isKept && areKept ls

end

theorem areKept_eq (ls : List Layout) : areKept ls = ls.all isKept := by
  induction ls with
  | nil => rfl
  | cons l ls ih => rw [areKept, ih, List.all_cons]

@[simp]
theorem isKept_symbol (s : Symbol) : (symbol s).isKept = true := rfl

@[simp]
theorem isKept_mark (p : Punctuator) : (mark p).isKept = true := rfl

@[simp]
theorem isKept_word (text : String) : (word text).isKept = true := rfl

@[simp]
theorem isKept_name (n : Name) : (name n).isKept = true := rfl

@[simp]
theorem isKept_variableName (n : Name) (span : Span) : (variableName n span).isKept = true := rfl

@[simp]
theorem isKept_slack (s : Slack) : (slack s).isKept = (s != .anything) := rfl

@[simp]
theorem isKept_node (span : Span) (parts : List Layout) : (node span parts).isKept = parts.all isKept := by
  rw [isKept, areKept_eq]

@[simp]
theorem all_isKept_scattered (ls : List Layout) : (scattered ls).all isKept = ls.all isKept := by
  induction ls with
  | nil => rfl
  | cons l ls ih =>
    rw [scattered, List.all_cons, List.all_cons, List.all_cons, ih, isKept_slack]
    rfl

end Layout

mutual

theorem Value.isKept_layout : (v : Value) → v.layout.isKept = true
  | .boolean _ _ | .enum _ _ | .float _ _ | .int _ _ | .null _ | .string _ _ => by simp [Value.layout]
  | .var _ _ => rfl
  | .list items span => by simp [Value.layout, Value.isKept_layoutsOfList items]
  | .object fields span => by simp [Value.layout, Value.isKept_layoutsOfFields fields]

theorem Value.isKept_layoutsOfList : (vs : List Value) → (Value.layoutsOfList vs).all Layout.isKept = true
  | [] => rfl
  | v :: vs => by simp [Value.layoutsOfList, Value.isKept_layout v, Value.isKept_layoutsOfList vs]

theorem Value.isKept_layoutsOfFields : (fs : List ObjectField) → (Value.layoutsOfFields fs).all Layout.isKept = true
  | [] => rfl
  | .mk _ v _ :: fs => by simp [Value.layoutsOfFields, Value.isKept_layout v, Value.isKept_layoutsOfFields fs]

end

theorem TypeRef.isKept_layout (t : TypeRef) : t.layout.isKept = true := by
  induction t with
  | named n => rfl
  | list inner span ih => simp [TypeRef.layout, ih]
  | nonNull inner span ih => simp [TypeRef.layout, ih]

theorem Argument.isKept_layouts (as : List Argument) : (Argument.layouts as).all Layout.isKept = true := by
  cases as with
  | nil => rfl
  | cons a as => simp [Argument.layouts, Argument.layout, Value.isKept_layout]

@[simp]
theorem DirectiveUse.isKept_layout (d : DirectiveUse) : d.layout.isKept = true := by
  simp [DirectiveUse.layout, Argument.isKept_layouts]

theorem Name.isKept_conditionLayouts (n : Option Name) : (Name.conditionLayouts n).all Layout.isKept = true := by
  cases n <;> rfl

theorem FieldHead.isKept_layouts (h : FieldHead) : h.layouts.all Layout.isKept = true := by
  obtain ⟨responseName, name, as, ds, span⟩ := h
  cases responseName <;> simp [FieldHead.layouts, Argument.isKept_layouts]

theorem InlineHead.isKept_layouts (h : InlineHead) : h.layouts.all Layout.isKept = true := by
  simp [InlineHead.layouts, Name.isKept_conditionLayouts]

mutual

theorem Selection.isKept_layout : (x : Selection) → x.layout.isKept = true
  | .field h none => by simp [Selection.layout, FieldHead.isKept_layouts]
  | .field h (some set) => by simp [Selection.layout, FieldHead.isKept_layouts, SelectionSet.isKept_layout set]
  | .spread f => by simp [Selection.layout, FragmentSpread.layout]
  | .inline h set => by simp [Selection.layout, InlineHead.isKept_layouts, SelectionSet.isKept_layout set]

theorem SelectionSet.isKept_layout : (set : SelectionSet) → set.layout.isKept = true
  | .mk selections span => by simp [SelectionSet.layout, Selection.isKept_layoutsOfList selections]

theorem Selection.isKept_layoutsOfList : (xs : List Selection) → (Selection.layoutsOfList xs).all Layout.isKept = true
  | [] => rfl
  | x :: xs => by simp [Selection.layoutsOfList, Selection.isKept_layout x, Selection.isKept_layoutsOfList xs]

end

theorem VariableDefinition.isKept_layouts (vs : List VariableDefinition) :
    (VariableDefinition.layouts vs).all Layout.isKept = true := by
  have hdefault (default : Option Value) :
      (default.elim [] fun x => [.mark .equals, x.layout]).all Layout.isKept = true := by
    cases default with
    | none => rfl
    | some v => simp [Value.isKept_layout]
  have hlayout (v : VariableDefinition) : v.layout.isKept = true := by
    simp [VariableDefinition.layout, TypeRef.isKept_layout, hdefault]
  cases vs with
  | nil => rfl
  | cons v vs => simp [VariableDefinition.layouts, hlayout]

/-- **Nothing that can be executed is lost sight of.** -/
theorem Definition.isKept_layout (x : Definition) : x.layout.isKept = true := by
  cases x with
  | operation o =>
    obtain ⟨kind, name, defined, uses, set, span⟩ := o
    have hname : (name.elim [] fun n => [Layout.name n]).all Layout.isKept = true := by
      cases name <;> rfl
    have hhead : (Operation.headLayouts ⟨kind, name, defined, uses, set, span⟩).all Layout.isKept = true := by
      unfold Operation.headLayouts
      split
      · rfl
      · simp [hname, VariableDefinition.isKept_layouts]
    simp [Definition.layout, Operation.layout, hhead, SelectionSet.isKept_layout]
  | fragment f =>
    simp [Definition.layout, Fragment.layout, Name.isKept_conditionLayouts,
      SelectionSet.isKept_layout]

/-! ### Writing what is laid out -/

theorem Slack.exists_writes {s : Slack} {said : List Symbol} (hs : s ≠ .anything) (h : s.Allows said) :
    ∃ passed, s.Writes passed said ∧ ∀ x ∈ passed, x.IsPassable := by
  cases s with
  | names => exact ⟨said, ⟨rfl, h⟩, fun x hx => .inl (h x hx)⟩
  | namesInParentheses =>
    refine ⟨said, ⟨rfl, h⟩, fun x hx => ?_⟩
    rcases h with rfl | ⟨names, hnames, rfl⟩
    · cases hx
    · simp only [List.cons_append, List.mem_cons, List.mem_append, List.not_mem_nil, or_false] at hx
      rcases hx with rfl | hx | rfl
      · exact .inr (.inr (.inl rfl))
      · exact .inl (hnames x hx)
      · exact .inr (.inr (.inr rfl))
  | queryKeyword => exact ⟨[], ⟨rfl, h⟩, List.forall_mem_nil _⟩
  | fragmentKeyword =>
    rcases h with rfl | ⟨text, rfl⟩
    · exact ⟨[], .inl ⟨rfl, rfl⟩, List.forall_mem_nil _⟩
    · exact ⟨_, .inr ⟨text, rfl, rfl⟩, List.forall_mem_singleton.2 (.inr (.inl rfl))⟩
  | anything => exact absurd rfl hs

namespace Layout

mutual

/-- **The tokens of a part are what the part is written as,** apart from some that can be passed over. -/
theorem exists_writes : (l : Layout) → {ts : List Token} → l.isKept = true → ts ∈ l.language →
    ∃ passed, l.Writes passed (ts.map Token.symbol) ∧ ∀ x ∈ passed, x.IsPassable
  | symbol s, _, _, hts => by
    obtain ⟨t, rfl, rfl⟩ := hts
    exact ⟨[], ⟨rfl, rfl⟩, List.forall_mem_nil _⟩
  | slack s, _, hkept, hts => Slack.exists_writes (bne_iff_ne.1 hkept) hts
  | name n, _, _, hts => by
    obtain ⟨t, rfl, hkind, rfl⟩ := hts
    refine ⟨[], ⟨rfl, ?_⟩, List.forall_mem_nil _⟩
    rw [List.map_singleton, Token.symbol, hkind]
    rfl
  | variableName n span, _, _, hts => by
    obtain ⟨d, t, rfl, hd, ⟨hkind, rfl⟩, -⟩ := hts
    refine ⟨[], ⟨rfl, ?_⟩, List.forall_mem_nil _⟩
    rw [List.map_cons, List.map_singleton, hd, Token.symbol, hkind]
    rfl
  | node span parts, _, hkept, hts => by
    rw [isKept] at hkept
    rw [language] at hts
    exact exists_writesAll parts hkept hts.1

theorem exists_writesAll : (ls : List Layout) → {ts : List Token} → areKept ls = true → ts ∈ languageOfList ls →
    ∃ passed, WritesAll ls passed (ts.map Token.symbol) ∧ ∀ x ∈ passed, x.IsPassable
  | [], _, _, hts => by
    obtain rfl := hts
    exact ⟨[], ⟨rfl, rfl⟩, List.forall_mem_nil _⟩
  | l :: ls, _, hkept, hts => by
    rw [areKept, Bool.and_eq_true] at hkept
    obtain ⟨own, hown, rest, hrest, rfl⟩ := mem_languageOfList_cons_iff.1 hts
    obtain ⟨passed, hwrites, hpassed⟩ := exists_writes l hkept.1 hown
    obtain ⟨passed', hwrites', hpassed'⟩ := exists_writesAll ls hkept.2 hrest
    exact ⟨passed ++ passed', ⟨passed, passed', _, _, rfl, List.map_append, hwrites, hwrites'⟩,
      List.forall_mem_append.2 ⟨hpassed, hpassed'⟩⟩

end

end Layout

/-! ### Documents -/

namespace Document

variable {source : List Char} {d : Document} {items : List DocumentItem}

/-- Without definitions that cannot be executed the items of a document are its definitions. -/
theorem layouts_ofItems (hitems : (ofItems items).nonExecutable = []) :
    items.map DocumentItem.layout = (ofItems items).definitions.map Definition.layout := by
  induction items with
  | nil => rfl
  | cons x items ih =>
    cases x with
    | executable x => exact congrArg (x.layout :: ·) (ih hitems)
    | typeSystem x => cases hitems

/-- **The tokens of a source are what its document is written as,** apart from names, strings and parentheses that are
passed over. -/
theorem exists_writes_of_parse (h : parse source = .ok d) (hexecutable : d.nonExecutable = []) :
    ∃ passed, d.Writes passed ((tokens source).map Token.symbol) ∧ ∀ x ∈ passed, x.IsPassable := by
  obtain ⟨items, rfl, hts⟩ := tokens_mem_of_parse h
  rw [layouts_ofItems hexecutable] at hts
  refine Layout.exists_writesAll _ ?_ hts
  rw [Layout.areKept_eq, List.all_map, List.all_eq_true]
  exact fun x _ => x.isKept_layout

/-- An argument, a field of an object and the keyword of a fragment are passed over. -/
theorem exists_writes_of_missing_values :
    let source := "query { f(a, b: [C {d e: $v}]) } \"text\" fragment on T { g }".toList
    ∃ d passed, parse source = .ok d ∧ d.Writes passed ((tokens source).map Token.symbol) := by
  intro source
  obtain ⟨d, h, hexecutable⟩ := exists_eq_ok_of_any (x := parse source) (p := fun d => d.nonExecutable.isEmpty)
    (by decide +kernel)
  obtain ⟨passed, hwrites, -⟩ := exists_writes_of_parse h (List.isEmpty_iff.1 hexecutable)
  exact ⟨d, passed, h, hwrites⟩

/-- Whether a document is nothing but a query of one field, without arguments and selections. -/
def isQueryOf (name : String) : Document → Bool
  | ⟨[.operation ⟨.query, none, [], [], .mk [.field ⟨none, n, [], [], _⟩ none] _, _⟩], []⟩ => n.value == name
  | _ => false

/-- All that is written of such a document is the keyword, the braces and the name of the field. -/
theorem writes_of_isQueryOf {name : String} (h : d.isQueryOf name = true) : d.nonExecutable = [] ∧
    ∀ said, d.Writes [] said → ∃ keyword, (keyword = [] ∨ keyword = [.word "query"]) ∧
      said = keyword ++ [.mark .leftBrace, .word name, .mark .rightBrace] := by
  unfold isQueryOf at h
  split at h
  · next n _ _ _ =>
    refine ⟨rfl, fun said hwrites => ?_⟩
    simp only [Writes, Definition.layout, Operation.layout, Operation.headLayouts, Operation.isShort,
      SelectionSet.layout, Selection.layoutsOfList, Selection.layout, FieldHead.layouts, Argument.layouts,
      List.map_cons, List.map_nil] at hwrites
    obtain ⟨keyword, rfl, hkeyword, -⟩ : ∃ keyword,
        said = keyword ++ [.mark .leftBrace, .word n.value, .mark .rightBrace] ∧
        (keyword = [] ∨ keyword = [.word "query"]) ∧ Slack.namesInParentheses.Allows [] := by
      simpa [Layout.mark, Layout.Writes, Layout.WritesAll, Slack.Writes] using hwrites
    exact ⟨keyword, hkeyword, by rw [eq_of_beq h]⟩
  · cases h

/-- **Not all of a source is written back:** an argument without a value is gone, and its parentheses with it. -/
theorem not_writes_of_missing_value :
    ∃ d, parse "{ f(a) }".toList = .ok d ∧ d.nonExecutable = [] ∧
      ¬ d.Writes [] ((tokens "{ f(a) }".toList).map Token.symbol) := by
  have hsaid : (tokens "{ f(a) }".toList).map Token.symbol =
      [.mark .leftBrace, .word "f", .mark .leftParen, .word "a", .mark .rightParen, .mark .rightBrace] := by
    decide +kernel
  obtain ⟨d, hd, hquery⟩ := exists_eq_ok_of_any (x := parse "{ f(a) }".toList) (p := isQueryOf "f") (by decide +kernel)
  obtain ⟨hexecutable, hwritten⟩ := writes_of_isQueryOf hquery
  refine ⟨d, hd, hexecutable, fun h => ?_⟩
  rw [hsaid] at h
  obtain ⟨keyword, rfl | rfl, hsaid⟩ := hwritten _ h
  · cases hsaid
  · cases hsaid

end Document

end QueryAid
