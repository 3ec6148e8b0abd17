import QueryAid.Document.Parser
import QueryAid.Proofs.Document.Tokens
import Mathlib.Computability.Language
import Mathlib.Order.CompletePartialOrder
/-!
# How documents are laid out

A part of a document is written as a row of symbols, some of which belong to the parts below it. Its layout is the tree
of these parts with the symbols between them; there is one function for each kind of part, and each of them is the rule
of the grammar for that part, read from the part to its tokens. `Layout.language` says which tokens are laid out in this
way, where the span of a part goes from its first token to its last one.

A document does not keep all that its source says. Where it does not, the layout has a `Slack`: names without a value
among arguments, the keyword of a query that needs none, and a string that stands for the keyword of a fragment.
-/

namespace QueryAid

/-! ### Layouts -/

/-- What a token says, wherever it stands. -/
structure Symbol where
  kind : TokenKind
  text : String
  deriving DecidableEq, Repr

namespace Symbol

/-- The symbol of a mark. -/
def mark (p : Punctuator) : Symbol := ⟨.punctuator p, p.text⟩

/-- The symbol of a name or keyword. -/
def word (text : String) : Symbol := ⟨.name, text⟩

end Symbol

/-- What a token says. -/
def Token.symbol (t : Token) : Symbol := ⟨t.kind, t.text⟩

/-- A token is a name in a document. -/
def Token.Writes (t : Token) (n : Name) : Prop := t.kind = .name ∧ n = ⟨t.text, t.span⟩

/-- **Where a source can say more than the document keeps.** -/
inductive Slack where
  /-- Around arguments and fields of objects: names without a value. -/
  | names
  /-- In place of arguments: names without a value, in parentheses. -/
  | namesInParentheses
  /-- In front of a query that consists of selections: its keyword. -/
  | queryKeyword
  /-- In front of the name of a fragment: its keyword, or a string. -/
  | fragmentKeyword
  /-- In definitions that cannot be executed. -/
  | anything
  deriving DecidableEq, Repr

/-- What a source can say at a slack. -/
def Slack.Allows : Slack → List Symbol → Prop
  | names, said => ∀ x ∈ said, x.kind = .name
  | namesInParentheses, said =>
    said = [] ∨ ∃ names, (∀ x ∈ names, x.kind = .name) ∧ said = .mark .leftParen :: names ++ [.mark .rightParen]
  | queryKeyword, said => said = [] ∨ said = [.word "query"]
  | fragmentKeyword, said => said = [.word "fragment"] ∨ ∃ text, said = [⟨.string, text⟩]
  | anything, _ => True

/-- **How a part of a document is laid out.** -/
inductive Layout where
  | symbol (s : Symbol)
  | slack (s : Slack)
  | name (n : Name)
  /-- A dollar sign and a name. -/
  | variableName (n : Name) (span : Span)
  | node (span : Span) (parts : List Layout)

/-- From the start of the first token to the end of the last one. -/
def Span.over (ts : List Token) : Span :=
  ⟨ts.head?.elim 0 fun t => t.span.start, ts.getLast?.elim 0 fun t => t.span.stop⟩

namespace Layout

/-- A mark. -/
def mark (p : Punctuator) : Layout := symbol (.mark p)

/-- A keyword, or a name that stands for a value. -/
def word (text : String) : Layout := symbol (.word text)

/-- Parts with slack for names around them. -/
def scattered : List Layout → List Layout
  | [] => [slack .names]
  | l :: ls => slack .names :: l :: scattered ls

mutual

/-- **The tokens that are laid out in some way.** -/
def language : Layout → Language Token
  | symbol s => {ts | ∃ t : Token, ts = [t] ∧ t.symbol = s}
  | slack s => {ts | s.Allows (ts.map Token.symbol)}
  | name n => {ts | ∃ t : Token, ts = [t] ∧ t.Writes n}
  | variableName n span =>
    {ts | ∃ d t : Token, ts = [d, t] ∧ d.symbol = .mark .dollar ∧ t.Writes n ∧ span = Span.over ts}
  | node span parts => {ts | ts ∈ languageOfList parts ∧ ts ≠ [] ∧ span = Span.over ts}

/-- The tokens that are laid out as a row. -/
def languageOfList : List Layout → Language Token
  | [] => 1
  | l :: ls => l.language * languageOfList ls

end

end Layout

/-! ### Values and types -/

mutual

/-- The layout of a value. -/
def Value.layout : Value → Layout
  | .boolean b span => .node span [.word (if b then "true" else "false")]
  | .enum text span => .node span [.word text]
  | .float text span => .node span [.symbol ⟨.float, text⟩]
  | .int text span => .node span [.symbol ⟨.int, text⟩]
  | .list items span => .node span (.mark .leftBracket :: Value.layoutsOfList items ++ [.mark .rightBracket])
  | .null span => .node span [.word "null"]
  | .object fields span =>
    .node span (.mark .leftBrace :: Layout.scattered (Value.layoutsOfFields fields) ++ [.mark .rightBrace])
  | .string text span => .node span [.symbol ⟨.string, text⟩]
  | .var n span => .variableName n span

/-- The layouts of the items of a list. -/
def Value.layoutsOfList : List Value → List Layout
  | [] => []
  | v :: vs => v.layout :: Value.layoutsOfList vs

/-- The layouts of the fields of an object. -/
def Value.layoutsOfFields : List ObjectField → List Layout
  | [] => []
  | .mk n v span :: fs => .node span [.name n, .mark .colon, v.layout] :: Value.layoutsOfFields fs

end

/-- The layout of a field of an object. -/
def ObjectField.layout : ObjectField → Layout
  | .mk n v span => .node span [.name n, .mark .colon, v.layout]

theorem Value.layoutsOfList_eq (vs : List Value) : Value.layoutsOfList vs = vs.map Value.layout := by
  induction vs with
  | nil => rfl
  | cons v vs ih => rw [Value.layoutsOfList, ih, List.map_cons]

theorem Value.layoutsOfFields_eq (fs : List ObjectField) : Value.layoutsOfFields fs = fs.map ObjectField.layout := by
  induction fs with
  | nil => rfl
  | cons f fs ih =>
    obtain ⟨n, v, span⟩ := f
    rw [Value.layoutsOfFields, ih, List.map_cons, ObjectField.layout]

/-- The layout of a type. -/
def TypeRef.layout : TypeRef → Layout
  | named n => .name n
  | list inner span => .node span [.mark .leftBracket, inner.layout, .mark .rightBracket]
  | nonNull inner span => .node span [inner.layout, .mark .bang]

/-! ### Arguments and directives -/

/-- The layout of an argument. -/
def Argument.layout (a : Argument) : Layout := .node a.span [.name a.name, .mark .colon, a.value.layout]

/-- The layout of arguments, with their parentheses if there are any. -/
def Argument.layouts : List Argument → List Layout
  | [] => [.slack .namesInParentheses]
  | a :: as =>
    .mark .leftParen :: Layout.scattered ((a :: as).map Argument.layout) ++ [.mark .rightParen]

/-- The layout of a directive. -/
def DirectiveUse.layout (d : DirectiveUse) : Layout :=
  .node d.span (.mark .atSign :: .name d.name :: Argument.layouts d.arguments)

/-! ### Selections -/

/-- The layout of a type condition, which may be missing. -/
def Name.conditionLayouts : Option Name → List Layout
  | none => []
  | some n => [.word "on", .name n]

/-- The layout of a field, without its selections. -/
def FieldHead.layouts (h : FieldHead) : List Layout :=
  (h.responseName.elim [] fun n => [.name n, .mark .colon]) ++ .name h.name :: Argument.layouts h.arguments ++
    h.directives.map DirectiveUse.layout

/-- The layout of a fragment spread. -/
def FragmentSpread.layout (f : FragmentSpread) : Layout :=
  .node f.span (.mark .spread :: .name f.name :: f.directives.map DirectiveUse.layout)

/-- The layout of an inline fragment, without its selections. -/
def InlineHead.layouts (h : InlineHead) : List Layout :=
  .mark .spread :: Name.conditionLayouts h.typeCondition ++ h.directives.map DirectiveUse.layout

mutual

/-- The layout of a selection. -/
def Selection.layout : Selection → Layout
  | .field h none => .node h.span h.layouts
  | .field h (some set) => .node h.span (h.layouts ++ [set.layout])
  | .spread f => f.layout
  | .inline h set => .node h.span (h.layouts ++ [set.layout])

/-- The layout of a selection set. -/
def SelectionSet.layout : SelectionSet → Layout
  | .mk selections span =>
    .node span (.mark .leftBrace :: Selection.layoutsOfList selections ++ [.mark .rightBrace])

/-- The layouts of selections. -/
def Selection.layoutsOfList : List Selection → List Layout
  | [] => []
  | x :: xs => x.layout :: Selection.layoutsOfList xs

end

theorem Selection.layoutsOfList_eq (xs : List Selection) : Selection.layoutsOfList xs = xs.map Selection.layout := by
  induction xs with
  | nil => rfl
  | cons x xs ih => rw [Selection.layoutsOfList, ih, List.map_cons]

/-! ### Definitions -/

/-- The layout of a variable definition. -/
def VariableDefinition.layout (v : VariableDefinition) : Layout :=
  .node v.span (.variableName v.name v.variableSpan :: .mark .colon :: v.type.layout ::
    (v.default.elim [] fun x => [.mark .equals, x.layout]) ++ v.directives.map DirectiveUse.layout)

/-- The layout of variable definitions, with their parentheses if there are any. -/
def VariableDefinition.layouts : List VariableDefinition → List Layout
  | [] => []
  | v :: vs => .mark .leftParen :: (v :: vs).map VariableDefinition.layout ++ [.mark .rightParen]

/-- Whether an operation is a query that consists of selections, so that it needs no keyword. -/
def Operation.isShort (o : Operation) : Bool :=
  o.kind == .query && o.name.isNone && o.variableDefinitions.isEmpty && o.directives.isEmpty

/-- The layout of an operation, without its selections. -/
def Operation.headLayouts (o : Operation) : List Layout :=
  if o.isShort then [.slack .queryKeyword]
  else .word o.kind.keyword :: (o.name.elim [] fun n => [.name n]) ++
    VariableDefinition.layouts o.variableDefinitions ++ o.directives.map DirectiveUse.layout

/-- The layout of an operation. -/
def Operation.layout (o : Operation) : Layout := .node o.span (o.headLayouts ++ [o.selectionSet.layout])

/-- The layout of a fragment definition. -/
def Fragment.layout (f : Fragment) : Layout :=
  .node f.span (.slack .fragmentKeyword :: .name f.name :: Name.conditionLayouts (some f.typeCondition) ++
    f.directives.map DirectiveUse.layout ++ [f.selectionSet.layout])

/-- The layout of a definition that can be executed. -/
def Definition.layout : Definition → Layout
  | operation o => o.layout
  | fragment f => f.layout

/-- The layout of a definition that cannot be executed, of which nothing is kept but the name. -/
def NonExecutable.parts (name : Option Name) : List Layout :=
  .slack .anything :: name.elim [] fun n => [.name n, .slack .anything]

/-- The layout of a definition that cannot be executed. -/
def NonExecutable.layout (x : NonExecutable) : Layout := .node x.span (NonExecutable.parts x.name)

/-- The layout of what a source holds side by side. -/
def DocumentItem.layout : DocumentItem → Layout
  | executable x => x.layout
  | typeSystem x => x.layout

/-! ### Tokens in a row -/

namespace Layout

variable {ts ts' : List Token} {ls ls' : List Layout} {l : Layout}

theorem mem_languageOfList_cons_iff :
    ts ∈ languageOfList (l :: ls) ↔ ∃ own ∈ l.language, ∃ rest ∈ languageOfList ls, own ++ rest = ts := by
  rw [languageOfList, Language.mem_mul]

theorem languageOfList_append (ls ls' : List Layout) :
    languageOfList (ls ++ ls') = languageOfList ls * languageOfList ls' := by
  induction ls with
  | nil => rw [List.nil_append, languageOfList, one_mul]
  | cons l ls ih => rw [List.cons_append, languageOfList, languageOfList, ih, mul_assoc]

theorem append_mem_languageOfList (h : ts ∈ languageOfList ls) (h' : ts' ∈ languageOfList ls') :
    ts ++ ts' ∈ languageOfList (ls ++ ls') := by
  rw [languageOfList_append, Language.mem_mul]
  exact ⟨ts, h, ts', h', rfl⟩

theorem languageOfList_singleton (l : Layout) : languageOfList [l] = l.language := by
  rw [languageOfList, languageOfList, mul_one]

/-- Layouts that always have a token. -/
def isSolid : Layout → Bool
  | slack _ => false
  | symbol _ | name _ | variableName _ _ | node _ _ => true

@[simp]
theorem isSolid_selectionSet (set : SelectionSet) : set.layout.isSolid = true := by
  cases set
  rfl

@[simp]
theorem isSolid_item (x : DocumentItem) : x.layout.isSolid = true := by
  obtain (o | f) | x := x <;> rfl

theorem ne_nil_of_isSolid (hl : l.isSolid = true) (h : ts ∈ l.language) : ts ≠ [] := by
  cases l with
  | slack s => cases hl
  | symbol s =>
    obtain ⟨t, rfl, -⟩ := h
    exact List.cons_ne_nil _ _
  | name n =>
    obtain ⟨t, rfl, -⟩ := h
    exact List.cons_ne_nil _ _
  | variableName n span =>
    obtain ⟨d, t, rfl, -⟩ := h
    exact List.cons_ne_nil _ _
  | node span parts =>
    rw [language] at h
    exact h.2.1

/-- A row with a layout that always has a token is not empty. -/
theorem ne_nil_of_mem_languageOfList (hls : ls.any isSolid = true) (h : ts ∈ languageOfList ls) : ts ≠ [] := by
  induction ls generalizing ts with
  | nil => cases hls
  | cons l ls ih =>
    obtain ⟨own, hown, rest, hrest, rfl⟩ := mem_languageOfList_cons_iff.1 h
    rw [List.any_cons, Bool.or_eq_true] at hls
    rcases hls with hl | hls
    · exact List.append_ne_nil_of_left_ne_nil (ne_nil_of_isSolid hl hown) rest
    · exact List.append_ne_nil_of_right_ne_nil own (ih hls hrest)

/-! ### Slack -/

theorem mem_slack_iff {s : Slack} : ts ∈ languageOfList [slack s] ↔ s.Allows (ts.map Token.symbol) := by
  rw [languageOfList_singleton, language]
  rfl

theorem symbol_le_slack {s : Slack} {x : Symbol} (h : s.Allows [x]) :
    languageOfList [symbol x] ≤ languageOfList [slack s] := by
  intro ts hts
  rw [languageOfList_singleton] at hts
  obtain ⟨t, rfl, rfl⟩ := hts
  exact mem_slack_iff.2 h

theorem name_le_names {n : Name} : languageOfList [name n] ≤ languageOfList [slack .names] := by
  intro ts hts
  rw [languageOfList_singleton] at hts
  obtain ⟨t, rfl, hkind, -⟩ := hts
  exact mem_slack_iff.2 (List.forall_mem_singleton.2 hkind)

/-- Anything behind anything is anything. -/
theorem anything_mul_le :
    languageOfList (slack .anything :: slack .anything :: ls) ≤ languageOfList (slack .anything :: ls) := by
  intro ts hts
  obtain ⟨own, -, ts', hts', rfl⟩ := mem_languageOfList_cons_iff.1 hts
  obtain ⟨own', -, rest, hrest, rfl⟩ := mem_languageOfList_cons_iff.1 hts'
  refine mem_languageOfList_cons_iff.2 ⟨own ++ own', ?_, rest, hrest, List.append_assoc ..⟩
  rw [language]
  trivial

/-- Names can stand in front of scattered parts, since they can stand there anyway. -/
theorem names_mul_scattered_le : languageOfList (slack .names :: scattered ls) ≤ languageOfList (scattered ls) := by
  have hstart : ∃ rest, scattered ls = slack .names :: rest := by
    cases ls with
    | nil => exact ⟨[], rfl⟩
    | cons l ls => exact ⟨l :: scattered ls, rfl⟩
  obtain ⟨rest, hrest⟩ := hstart
  rw [hrest]
  intro ts hts
  obtain ⟨names, hnames, ts', hts', rfl⟩ := mem_languageOfList_cons_iff.1 hts
  obtain ⟨names', hnames', ts'', hts'', rfl⟩ := mem_languageOfList_cons_iff.1 hts'
  refine mem_languageOfList_cons_iff.2 ⟨names ++ names', ?_, ts'', hts'', List.append_assoc ..⟩
  rw [← languageOfList_singleton, mem_slack_iff] at hnames hnames' ⊢
  rw [List.map_append]
  exact List.forall_mem_append.2 ⟨hnames, hnames'⟩

/-- **Parts and names without a value, in any order, are the parts with slack for names around them.** -/
theorem scattered_of_found {α : Type} {layout : α → Layout} (found : List (Option α)) :
    languageOfList (found.map fun x => x.elim (slack .names) layout) ≤
      languageOfList (scattered ((found.filterMap id).map layout)) := by
  have hnil : [] ∈ languageOfList [slack .names] := mem_slack_iff.2 nofun
  induction found with
  | nil =>
    rintro ts rfl
    exact hnil
  | cons x found ih =>
    intro ts hts
    obtain ⟨own, hown, rest, hrest, rfl⟩ := mem_languageOfList_cons_iff.1 hts
    cases x with
    | none => exact names_mul_scattered_le (mem_languageOfList_cons_iff.2 ⟨own, hown, rest, ih hrest, rfl⟩)
    | some a =>
      rw [languageOfList_singleton] at hnil
      exact mem_languageOfList_cons_iff.2 ⟨[], hnil, own ++ rest,
        mem_languageOfList_cons_iff.2 ⟨own, hown, rest, ih hrest, rfl⟩, rfl⟩

/-- Parentheses with names without a value in them stand in place of arguments. -/
theorem parentheses_le :
    languageOfList [mark .leftParen, slack .names, mark .rightParen] ≤ languageOfList [slack .namesInParentheses] := by
  intro ts hts
  obtain ⟨_, ⟨t, rfl, ht⟩, ts', hts', rfl⟩ := mem_languageOfList_cons_iff.1 hts
  obtain ⟨names, hnames, ts'', hts'', rfl⟩ := mem_languageOfList_cons_iff.1 hts'
  rw [languageOfList_singleton] at hts''
  obtain ⟨t', rfl, ht'⟩ := hts''
  refine mem_slack_iff.2 (.inr ⟨names.map Token.symbol, hnames, ?_⟩)
  rw [List.map_append, List.map_append, List.map_singleton, List.map_singleton, ht, ht']
  rfl

end Layout

end QueryAid
