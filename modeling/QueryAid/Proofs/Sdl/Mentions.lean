import QueryAid.Proofs.Parsing
import QueryAid.Sdl.Parser
/-!
# What definitions mention

A definition mentions names and types, which the rules of the grammar read off the tokens of the source one by one. So
whatever holds of each name and of each type that is read holds of all that the definitions in a source mention
(`mentions_of_parse`). It may depend on the tokens that are left to read, by a property of cursors that is kept when the
cursor goes on (`Traces`).
-/

namespace QueryAid

namespace Sdl

/-! ### Mentions -/

/-- **A name or a type,** as it is read off a source. -/
inductive Mention where
  | name (text : String)
  | type (e : TypeExpression)
  deriving DecidableEq

def InputValue.mentions (v : InputValue) : List Mention := [.name v.name, .type v.type]

def Field.mentions (f : Field) : List Mention :=
  .name f.name :: .type f.type :: f.arguments.flatMap InputValue.mentions

def TypeBody.mentions : TypeBody → List Mention
  | scalar => []
  | object interfaces fields | interface interfaces fields =>
    interfaces.map .name ++ fields.flatMap Field.mentions
  | union members => members.map .name
  | enum values => values.map fun v => .name v.name
  | inputObject fields => fields.flatMap InputValue.mentions

/-- **What a definition defines or mentions,** the directives that are used in it aside. -/
def Definition.mentions : Definition → List Mention
  | schema block => block.roots.toList.map fun r => .name r.2
  | type d => .name d.name :: d.body.mentions
  | extension e => .name e.name :: e.body.mentions
  | directive d => .name d.name :: d.arguments.flatMap InputValue.mentions

/-! ### Rules that mention nothing -/

open SchemaParser Sdl.Cursor

variable {α : Type} {inv : Cursor → Prop} {good : α → Prop} {p : SchemaParser α} {test : Cursor → Bool}

/-- What a rule of the grammar gives, when it reads on from cursors with a property. -/
abbrev Gives (inv : Cursor → Prop) (p : SchemaParser α) (good : α → Prop) : Prop := Parser.Yields inv p good

/-- A rule of which it only matters that it keeps a property of cursors. -/
abbrev Passes (inv : Cursor → Prop) (p : SchemaParser α) : Prop := Parser.Yields inv p fun _ => True

theorem Gives.passes (h : Gives inv p good) : Passes inv p := h.mono fun _ _ => trivial

theorem Passes.many (h : Passes inv p) : Passes inv (Parser.many test p) := Gives.passes (Parser.Yields.many h)

theorem pure_passes {a : α} : Passes inv (pure a : SchemaParser α) := Parser.yields_pure trivial

theorem fail_gives : Gives inv (fail : SchemaParser α) good := Parser.yields_failAt

theorem look_passes {f : Cursor → α} : Passes inv (Parser.look f) := Parser.yields_look fun _ _ => trivial

theorem place_passes : Passes inv place := look_passes

/-- **A property of cursors persists** if it is kept when the cursor goes on to the next token. -/
def Persists (inv : Cursor → Prop) : Prop := Passes inv advance

namespace Persists

theorem expect (h : Persists inv) : Passes inv (expect test) := by
  intro c u c' hc hexpect
  unfold SchemaParser.expect at hexpect
  split at hexpect
  · exact h c u c' hc hexpect
  · cases hexpect

theorem skip (h : Persists inv) : Passes inv (skip test) := by
  intro c u c' hc hskip
  unfold SchemaParser.skip at hskip
  split at hskip
  · exact h c u c' hc hskip
  · cases hskip
    exact ⟨trivial, hc⟩

theorem name (h : Persists inv) : Passes inv name :=
  look_passes.bind fun _ _ => h.expect.bind fun _ _ => pure_passes

theorem string (h : Persists inv) : Passes inv string := by
  refine look_passes.bind fun t _ => ?_
  split
  · exact fail_gives
  · exact Parser.Yields.bind h fun _ _ => pure_passes

theorem description (h : Persists inv) : Passes inv description := Gives.passes h.string.optional

theorem named (h : Persists inv) {item : SchemaParser Value} (hitem : Passes inv item) : Passes inv (named item) :=
  h.name.bind fun _ _ => h.expect.bind fun _ _ => hitem.bind fun _ _ => pure_passes

theorem valueWith (h : Persists inv) {constant : Bool} {item : SchemaParser Value} (hitem : Passes inv item) :
    Passes inv (valueWith constant item) := by
  have hadvance : Passes inv advance := h
  refine look_passes.bind fun t _ => ?_
  split
  · split
    · exact fail_gives
    · exact hadvance.bind fun _ _ => h.name.bind fun _ _ => pure_passes
  · split
    · exact fail_gives
    · exact hadvance.bind fun _ _ => pure_passes
  · split
    · exact fail_gives
    · exact hadvance.bind fun _ _ => pure_passes
  · exact h.string.bind fun _ _ => pure_passes
  · exact h.string.bind fun _ _ => pure_passes
  · exact hadvance.bind fun _ _ => pure_passes
  · exact hadvance.bind fun _ _ => hitem.many.bind fun _ _ => h.expect.bind fun _ _ => pure_passes
  · exact hadvance.bind fun _ _ => (h.named hitem).many.bind fun _ _ => h.expect.bind fun _ _ => pure_passes
  · exact fail_gives

theorem value (h : Persists inv) (constant : Bool) (room : Nat) : Passes inv (value constant room) := by
  induction room with
  | zero => exact h.valueWith fail_gives
  | succ room ih => exact h.valueWith ih

theorem directives (h : Persists inv) : Passes inv directives := by
  have hadvance : Passes inv advance := h
  have harguments : Passes inv (do
      advance
      let found ← Parser.many1 atName (SchemaParser.named (SchemaParser.value false bracketLimit))
      SchemaParser.expect (atMark .rightParen)
      return found) :=
    hadvance.bind fun _ _ => (h.named (h.value _ _)).many1.bind fun _ _ => h.expect.bind fun _ _ => pure_passes
  refine Passes.many ?_
  exact hadvance.bind fun _ _ => h.name.bind fun _ _ => harguments.optional.bind fun _ _ => pure_passes

theorem directiveLocation (h : Persists inv) : Passes inv directiveLocation := by
  refine look_passes.bind fun t _ => ?_
  split
  · exact fail_gives
  · exact h.expect.bind fun _ _ => pure_passes

theorem enclosed (h : Persists inv) {opening closing : Punctuator} (hitem : Gives inv p good) :
    Gives inv (enclosed opening closing p) fun found => ∀ xs ∈ found, ∀ x ∈ xs, good x := by
  have hadvance : Passes inv advance := h
  exact (hadvance.bind fun _ _ => hitem.many1.bind fun _ hxs => h.expect.bind fun _ _ =>
    Parser.yields_pure hxs).optional

theorem separated (h : Persists inv) {separator : Punctuator} (hitem : Gives inv p good) :
    Gives inv (separated separator p) fun xs => ∀ x ∈ xs, good x := by
  have hadvance : Passes inv advance := h
  exact h.skip.bind fun _ _ => hitem.bind fun _ hfirst => (hadvance.bind fun _ _ => hitem).many.bind fun _ hrest =>
    Parser.yields_pure (List.forall_mem_cons.2 ⟨hfirst, hrest⟩)

end Persists

/-! ### Rules that mention something -/

/-- **Every name and every type that is read has a property,** if the cursor has one, which persists. -/
structure Traces (inv : Cursor → Prop) (good : Mention → Prop) : Prop where
  persists : Persists inv
  name : Gives inv name fun n => good (.name n)
  type : ∀ room, Gives inv (type room) fun e => good (.type e)

/-- All of some mentions have a property. -/
abbrev All (good : Mention → Prop) (mentions : List Mention) : Prop := ∀ m ∈ mentions, good m

theorem all_map {α : Type} {good : Mention → Prop} {f : α → Mention} {xs : List α} (h : ∀ x ∈ xs, good (f x)) :
    All good (xs.map f) :=
  List.forall_mem_map.2 h

theorem all_flatMap {α : Type} {good : Mention → Prop} {f : α → List Mention} {xs : List α}
    (h : ∀ x ∈ xs, All good (f x)) : All good (xs.flatMap f) := by
  intro m hm
  obtain ⟨x, hx, hm⟩ := List.mem_flatMap.1 hm
  exact h x hx m hm

/-- What is passed over if it is not there leaves nothing. -/
theorem forall_mem_getD {found : Option (List α)} (h : ∀ xs ∈ found, ∀ x ∈ xs, good x) :
    ∀ x ∈ found.getD [], good x := by
  cases found with
  | none => exact List.forall_mem_nil good
  | some xs => exact h xs rfl

namespace Traces

variable {good : Mention → Prop}

theorem advance (h : Traces inv good) : Passes inv advance := h.persists

theorem inputValue (h : Traces inv good) : Gives inv inputValue fun v => All good v.mentions := by
  refine place_passes.bind fun _ _ => h.persists.description.bind fun _ _ => h.name.bind fun n hn => ?_
  refine h.persists.expect.bind fun _ _ => (h.type _).bind fun t ht => ?_
  have hdefault : Passes inv (do SchemaParser.advance; SchemaParser.value true bracketLimit) :=
    h.advance.bind fun _ _ => h.persists.value _ _
  refine hdefault.optional.bind fun _ _ => h.persists.directives.bind fun _ _ => Parser.yields_pure ?_
  exact List.forall_mem_cons.2 ⟨hn, List.forall_mem_singleton.2 ht⟩

theorem inputValues (h : Traces inv good) : Gives inv inputValues fun vs => ∀ v ∈ vs, All good v.mentions :=
  (h.persists.enclosed h.inputValue).bind fun _ hfound => Parser.yields_pure (forall_mem_getD hfound)

theorem field (h : Traces inv good) : Gives inv field fun f => All good f.mentions := by
  refine place_passes.bind fun _ _ => h.persists.description.bind fun _ _ => h.name.bind fun n hn => ?_
  refine h.inputValues.bind fun args hargs => h.persists.expect.bind fun _ _ => (h.type _).bind fun t ht => ?_
  refine h.persists.directives.bind fun _ _ => Parser.yields_pure ?_
  exact List.forall_mem_cons.2 ⟨hn, List.forall_mem_cons.2 ⟨ht, all_flatMap hargs⟩⟩

theorem enumValue (h : Traces inv good) : Gives inv enumValue fun v => good (.name v.name) :=
  place_passes.bind fun _ _ => h.persists.description.bind fun _ _ => h.name.bind fun _ hn =>
    h.persists.directives.bind fun _ _ => Parser.yields_pure hn

theorem interfaces (h : Traces inv good) : Gives inv interfaces fun names => ∀ n ∈ names, good (.name n) := by
  have hnames : Gives inv (do SchemaParser.advance; SchemaParser.separated .amp SchemaParser.name)
      fun names => ∀ n ∈ names, good (.name n) :=
    h.advance.bind fun _ _ => h.persists.separated h.name
  exact hnames.optional.bind fun _ hfound => Parser.yields_pure (forall_mem_getD hfound)

/-- What follows a keyword has the property throughout. -/
def Parts (good : Mention → Prop) (parts : TypeParts) : Prop :=
  good (.name parts.name) ∧ All good parts.body.mentions

theorem fieldsParts (h : Traces inv good) {counts : Bool} {body : List String → List Field → TypeBody}
    (hbody : ∀ interfaces fields, (body interfaces fields).mentions =
      interfaces.map .name ++ fields.flatMap Field.mentions) :
    Gives inv (fieldsParts counts body) (Parts good) := by
  refine h.name.bind fun n hn => h.interfaces.bind fun implemented himplemented => ?_
  refine h.persists.directives.bind fun _ _ => (h.persists.enclosed h.field).bind fun found hfound => ?_
  refine Parser.yields_pure ⟨hn, ?_⟩
  rw [hbody]
  exact List.forall_mem_append.2 ⟨all_map himplemented, all_flatMap (forall_mem_getD hfound)⟩

theorem typeParts (h : Traces inv good) (keyword : String) : Gives inv (typeParts keyword) (Parts good) := by
  unfold SchemaParser.typeParts
  split
  · exact h.name.bind fun n hn => h.persists.directives.bind fun _ _ =>
      Parser.yields_pure ⟨hn, List.forall_mem_nil good⟩
  · exact h.fieldsParts fun _ _ => rfl
  · exact h.fieldsParts fun _ _ => rfl
  · have hmembers : Gives inv (do SchemaParser.advance; SchemaParser.separated .pipe SchemaParser.name)
        fun names => ∀ n ∈ names, good (.name n) :=
      h.advance.bind fun _ _ => h.persists.separated h.name
    exact h.name.bind fun _ hn => h.persists.directives.bind fun _ _ => hmembers.optional.bind fun _ hfound =>
      Parser.yields_pure ⟨hn, all_map (forall_mem_getD hfound)⟩
  · exact h.name.bind fun _ hn => h.persists.directives.bind fun _ _ => (h.persists.enclosed h.enumValue).bind
      fun _ hfound => Parser.yields_pure ⟨hn, all_map (forall_mem_getD hfound)⟩
  · exact h.name.bind fun _ hn => h.persists.directives.bind fun _ _ => (h.persists.enclosed h.inputValue).bind
      fun _ hfound => Parser.yields_pure ⟨hn, all_flatMap (forall_mem_getD hfound)⟩
  · exact fail_gives

theorem keywordAndParts (h : Traces inv good) : Gives inv keywordAndParts (Parts good) := by
  refine look_passes.bind fun t _ => ?_
  dsimp only
  split
  · exact h.advance.bind fun _ _ => h.typeParts _
  · exact fail_gives

theorem typeDefinition (h : Traces inv good) (about : Option String) :
    Gives inv (typeDefinition about) fun d => All good d.mentions :=
  place_passes.bind fun _ _ => h.keywordAndParts.bind fun _ hparts =>
    Parser.yields_pure (List.forall_mem_cons.2 hparts)

theorem typeExtension (h : Traces inv good) : Gives inv typeExtension fun d => All good d.mentions := by
  refine h.advance.bind fun _ _ => place_passes.bind fun _ _ => h.keywordAndParts.bind fun parts hparts => ?_
  split
  · exact Parser.yields_pure (List.forall_mem_cons.2 hparts)
  · exact Parser.yields_failAt

theorem directiveDefinition (h : Traces inv good) (about : Option String) :
    Gives inv (directiveDefinition about) fun d => All good d.mentions := by
  refine place_passes.bind fun _ _ => h.advance.bind fun _ _ => h.persists.expect.bind fun _ _ => ?_
  refine h.name.bind fun n hn => h.inputValues.bind fun args hargs => ?_
  refine h.advance.optional.bind fun _ _ => h.persists.expect.bind fun _ _ => ?_
  refine (h.persists.separated h.persists.directiveLocation).optional.bind fun _ _ => Parser.yields_pure ?_
  exact List.forall_mem_cons.2 ⟨hn, all_flatMap hargs⟩

theorem root (h : Traces inv good) : Gives inv root fun r => good (.name r.2) :=
  h.persists.name.bind fun _ _ => h.persists.expect.bind fun _ _ => h.name.bind fun _ hn => Parser.yields_pure hn

/-- A root that is found is one of those that were read. -/
theorem of_rootOf? {roots : List (String × String)} {operation name : String} (hroots : ∀ r ∈ roots, good (.name r.2))
    (h : rootOf? roots operation = some name) : good (.name name) := by
  obtain ⟨r, hr, rfl⟩ := Option.map_eq_some_iff.1 h
  exact hroots r (List.mem_of_find?_eq_some hr)

theorem schemaBlock (h : Traces inv good) : Gives inv schemaBlock fun d => All good d.mentions := by
  refine place_passes.bind fun start _ => h.advance.bind fun _ _ => h.persists.directives.bind fun _ _ => ?_
  refine h.persists.expect.bind fun _ _ => h.root.many.bind fun roots hroots => h.persists.expect.bind fun _ _ => ?_
  dsimp only
  split
  · refine Parser.yields_pure (all_map fun r hr => ?_)
    obtain ⟨k, -, hk⟩ := List.mem_filterMap.1 hr
    obtain ⟨name, hname, rfl⟩ := Option.map_eq_some_iff.1 hk
    cases k <;> exact of_rootOf? hroots hname
  · exact Parser.yields_failAt

theorem definition (h : Traces inv good) : Gives inv definition fun d => All good d.mentions := by
  refine look_passes.bind fun t _ => ?_
  split
  · exact h.schemaBlock
  · split
    · exact h.typeExtension
    · refine h.persists.description.bind fun about _ => look_passes.bind fun directive _ => ?_
      split
      · exact h.directiveDefinition about
      · exact h.typeDefinition about

end Traces

/-- **What is true of every name and every type that is read is true of all that a source mentions.** -/
theorem mentions_of_parse {good : Mention → Prop} (h : Traces inv good) {source : List Char}
    (hstart : inv (.ofSource source)) {ds : List Definition} (hparse : parse source = .ok ds) : ∀ d ∈ ds, All good d.mentions := by
  unfold parse at hparse
  cases hds : definitions (Cursor.ofSource source) with
  | error place =>
    rw [hds] at hparse
    cases hparse
  | ok result =>
    obtain ⟨ds', c⟩ := result
    rw [hds] at hparse
    cases hparse
    exact (h.definition.many1 _ ds' c hstart hds).1

end Sdl

end QueryAid
