import QueryAid.Proofs.Editor.Selections
import QueryAid.Proofs.Ranking.Rank
import QueryAid.Proofs.Schema.PossibleTypes
/-!
# Completions keep what is being typed

Candidates are ranked by how near they are to the token under the cursor, and far ones are left out. A candidate is not
left out while its name is being typed, and comes first when it has been typed (`exists_complete_keepsTyped`).

Ranking compares texts without regard to case and marks, so that a token in front of which a mark stands is compared as
a beginning of the name (`isPrefix_of_begins`). That nothing else comes first takes a look at the candidates: they bear
names of the language, of which something is left when they are compared (`isIdentifier_of_mem_candidatesAt`).
-/

namespace QueryAid

open Sdl (AreNames)

/-! ### What it means -/

/-- Whether a character is a punctuation mark of ASCII. -/
def isPunctuation (c : Char) : Bool := inRanges [(0x21, 0x2F), (0x3A, 0x40), (0x5B, 0x60), (0x7B, 0x7E)] c.toNat

/-- **A token is the beginning of a text,** of at least one character and whatever the case of ASCII letters. A
punctuation mark other than an underscore may stand in front of it. -/
def CursorToken.Begins (token : CursorToken) (text : String) : Prop :=
  ∃ (mark : Option Char) (typed : List Char), token.text.toList = mark.toList ++ typed ∧ typed ≠ [] ∧
    typed.map Char.toLower <+: text.toList.map Char.toLower ∧ ∀ c ∈ mark, isPunctuation c = true ∧ c ≠ '_'

/-- **What is being typed is not hidden:** the candidates that a token begins are offered, and those that are compared as
the token are offered before all others. -/
structure Completions.KeepsTyped (token : CursorToken) (candidates : List Candidate) (completions : Completions) :
    Prop where
  begun : ∀ c ∈ candidates, token.Begins c.text → c ∈ completions.candidates
  exact : ∀ c ∈ candidates, normalizeText c.text = normalizeText token.text → c ∈ completions.candidates
  exactFirst : completions.candidates.Pairwise fun a b =>
    normalizeText b.text = normalizeText token.text → normalizeText a.text = normalizeText token.text

/-! ### Tokens -/

namespace CursorToken

variable {token : CursorToken} {text : String}

/-- It makes no difference that a blank token counts as an empty one. -/
theorem normalizeText_partialText (token : CursorToken) :
    normalizeText token.partialText = normalizeText token.text := by
  unfold partialText isWhiteSpace
  split
  · next hblank => exact (normalizeText_eq_nil_of_isBlank hblank).symm
  · rfl

/-- A punctuation mark is not compared, unless it is an underscore. -/
theorem normalizedChar_of_isPunctuation {c : Char} (h : isPunctuation c = true) (hne : c ≠ '_') :
    normalizedChar c = [] := by
  have hall : ∀ n < 128, isPunctuation (Char.ofNat n) = true → Char.ofNat n ≠ '_' →
      normalizedChar (Char.ofNat n) = [] := by
    decide +kernel
  have hascii : c.toNat < 128 := by
    simp only [isPunctuation, inRanges, List.any_cons, List.any_nil, Bool.or_eq_true, Bool.and_eq_true,
      decide_eq_true_eq, Bool.false_eq_true, or_false] at h
    omega
  exact forall_ascii (p := fun c => isPunctuation c = true → c ≠ '_' → normalizedChar c = []) hall hascii h hne

/-- **A token that begins a text is compared as a beginning of it.** -/
theorem isPrefix_of_begins (h : token.Begins text) : normalizeText token.text <+: normalizeText text := by
  obtain ⟨mark, typed, htoken, -, ⟨rest, hrest⟩, hmark⟩ := h
  have hnone : mark.toList.flatMap normalizedChar = [] := by
    refine List.flatMap_eq_nil_iff.2 fun c hc => ?_
    obtain ⟨hpunctuation, hne⟩ := hmark c (Option.mem_toList.1 hc)
    exact normalizedChar_of_isPunctuation hpunctuation hne
  have htyped : normalizeText token.text = (typed.map Char.toLower).flatMap normalizedChar := by
    rw [normalizeText_eq_flatMap, htoken, List.flatMap_append, hnone, List.nil_append,
      flatMap_normalizedChar_toLower]
  have htext : normalizeText text = (text.toList.map Char.toLower).flatMap normalizedChar := by
    rw [normalizeText_eq_flatMap, flatMap_normalizedChar_toLower]
  rw [htyped, htext, ← hrest, List.flatMap_append]
  exact List.prefix_append _ _

end CursorToken

/-- Something is left of a name when texts are compared. -/
theorem normalizeText_ne_nil_of_isIdentifier {name : String} (h : isIdentifier name = true) :
    normalizeText name ≠ [] := by
  have hranked := isNameContinue_of_mem_of_isIdentifier h
  rw [normalizeText_eq_flatMap]
  cases hname : name.toList with
  | nil =>
    rw [isIdentifier, hname] at h
    cases h
  | cons c rest =>
    rw [hname] at hranked
    have hfirst : normalizedChar c ≠ [] := normalizedChar_ne_nil (hranked c List.mem_cons_self)
    rw [List.flatMap_cons]
    exact List.append_ne_nil_of_left_ne_nil hfirst _

/-! ### What is known at the cursor -/

namespace Schema

variable {sources : List (Option String × String)} {s : Schema} {t : TypeDef}

/-- What can be selected from a type bears a name, and so do its arguments. -/
theorem areNames_of_mem_selectable (h : ofSources sources = .ok s) (ht : t ∈ s.types.entries) {f : FieldDef}
    (hf : f ∈ s.selectable t) : AreNames (f.name :: f.arguments.names) := by
  have hadded : ∀ f ∈ [typenameMetaField, schemaMetaField, typeMetaField], ∀ name ∈ f.name :: f.arguments.names,
      isIdentifier name = true := by
    decide +kernel
  rcases List.mem_append.1 hf with hf | hf
  · exact areNames_of_mem_members h ht (TypeDef.mem_ownFields_iff.1 hf)
  · exact hadded f (addedFields_sublist.subset hf)

theorem areNames_of_resolveField (h : ofSources sources = .ok s) (ht : t ∈ s.types.entries) {name : String}
    {f : FieldDef} (hf : s.resolveField t name = some f) : AreNames (f.name :: f.arguments.names) := by
  have hown : ∀ f ∈ t.ownFields, isReserved f.name = false :=
    fun f hf => not_isReserved_of_mem_ownFields h ht hf
  exact areNames_of_mem_selectable h ht ((resolveField_eq_some_iff hown).1 hf).1

theorem areNames_of_inputFields? (h : ofSources sources = .ok s) (ht : t ∈ s.types.entries)
    {fields : Table InputValueDef} (hfields : t.inputFields? = some fields) : AreNames fields.names := by
  refine Sdl.areNames_map fun f hf => ?_
  have hmember : .inputField f ∈ t.contents.members := by
    unfold TypeDef.inputFields? at hfields
    cases hcontents : t.contents with
    | inputObject fields' =>
      obtain rfl : fields' = fields := by simpa [hcontents] using hfields
      exact List.mem_map_of_mem hf
    | _ => simp [hcontents] at hfields
  exact (Sdl.areNames_cons_iff.1 (areNames_of_mem_members h ht hmember)).1

end Schema

namespace TypeContext

variable {sources : List (Option String × String)} {s : Schema} {c : TypeContext} {f : StateFrame}
  {k : Option StateKind}

/-- The arguments and input fields that are known bear names. A value has no type but by an annotation. -/
structure BearsNames (c : TypeContext) : Prop where
  fieldDef : ∀ f, c.fieldDef = some f → AreNames f.arguments.names
  directiveDef : ∀ d, c.directiveDef = some d → AreNames d.arguments.names
  argumentDefs : ∀ t, c.argumentDefs = some t → AreNames t.names
  inputType : ∀ t, c.inputType ≠ some (.named t)
  objectFieldDefs : ∀ t, c.objectFieldDefs = some t → AreNames t.names

theorem BearsNames.argumentsAfter (hc : c.BearsNames) {t : Table InputValueDef} (ht : c.argumentsAfter k = some t) :
    AreNames t.names := by
  unfold TypeContext.argumentsAfter at ht
  split at ht
  · obtain ⟨field, hfield, rfl⟩ := Option.map_eq_some_iff.1 ht
    exact hc.fieldDef field hfield
  · obtain ⟨d, hd, rfl⟩ := Option.map_eq_some_iff.1 ht
    exact hc.directiveDef d hd
  · cases ht

/-- What is known of arguments and values comes from the schema. -/
theorem BearsNames.step (h : Schema.ofSources sources = .ok s) (hwithin : c.Within s) (hc : c.BearsNames) :
    (step s k c f).BearsNames := by
  have hannotated (v : Option InputValueDef) (t : TypeDef) :
      (v.map fun x => ContextType.annotated x.type) ≠ some (.named t) := by
    cases v <;> nofun
  unfold TypeContext.step
  cases f.kind with
  | field =>
    refine ⟨fun field hfield => ?_, hc.directiveDef, hc.argumentDefs, hc.inputType, hc.objectFieldDefs⟩
    obtain ⟨-, -, hfield⟩ := Option.bind_eq_some_iff.1 hfield
    obtain ⟨parent, hparent, hfield⟩ := Option.bind_eq_some_iff.1 hfield
    obtain ⟨name, -, hresolve⟩ := Option.bind_eq_some_iff.1 hfield
    have hnames := Schema.areNames_of_resolveField h (hwithin.parentType parent hparent) hresolve
    exact (Sdl.areNames_cons_iff.1 hnames).2
  | directive =>
    refine ⟨hc.fieldDef, fun d hd => ?_, hc.argumentDefs, hc.inputType, hc.objectFieldDefs⟩
    obtain ⟨name, -, hfind⟩ := Option.bind_eq_some_iff.1 hd
    have hnames := Schema.areNames_of_mem_directives h (Table.find?_eq_some_iff.1 hfind).1
    exact (Sdl.areNames_cons_iff.1 hnames).2
  | arguments =>
    exact ⟨hc.fieldDef, hc.directiveDef, fun _ => hc.argumentsAfter, hc.inputType, hc.objectFieldDefs⟩
  | argument | objectField =>
    exact ⟨hc.fieldDef, hc.directiveDef, hc.argumentDefs, hannotated _, hc.objectFieldDefs⟩
  | listValue =>
    refine ⟨hc.fieldDef, hc.directiveDef, hc.argumentDefs, fun t ht => ?_, hc.objectFieldDefs⟩
    obtain ⟨type, -, helement⟩ := Option.bind_eq_some_iff.1 ht
    cases type with
    | annotated a =>
      obtain ⟨_, -, heq⟩ := Option.map_eq_some_iff.1 helement
      cases heq
    | named u => cases helement
  | objectValue =>
    refine ⟨hc.fieldDef, hc.directiveDef, hc.argumentDefs, hc.inputType, fun fields hfields => ?_⟩
    obtain ⟨t, ht, hfields⟩ := Option.bind_eq_some_iff.1 hfields
    obtain ⟨type, htype, hnamed⟩ := Option.bind_eq_some_iff.1 ht
    cases type with
    | annotated a => exact Schema.areNames_of_inputFields? h (Schema.mem_types_of_type? hnamed) hfields
    | named u => exact absurd htype (hc.inputType u)
  -- The other kinds of parts settle nothing about arguments and values.
  | _ => exact ⟨hc.fieldDef, hc.directiveDef, hc.argumentDefs, hc.inputType, hc.objectFieldDefs⟩

theorem bearsNames_ofState (h : Schema.ofSources sources = .ok s) (state : ParserState) :
    (ofState s state).BearsNames := by
  have hempty : BearsNames empty := ⟨nofun, nofun, nofun, nofun, nofun⟩
  induction state with
  | root f => exact hempty.step h ⟨nofun, nofun⟩
  | within f e ih => exact ih.step h (within_ofState e)

end TypeContext

/-! ### Candidates -/

namespace Candidate

variable {sources : List (Option String × String)} {s : Schema} {state : ParserState} {t : TypeDef} {c : Candidate}

theorem isIdentifier_of_mem_inputValues {fields : Table InputValueDef} (h : AreNames fields.names)
    (hc : c ∈ inputValues fields) : isIdentifier c.text = true := by
  obtain ⟨f, hf, rfl⟩ := List.mem_map.1 hc
  exact h f.name (Table.mem_names.2 ⟨f, hf, rfl⟩)

theorem isIdentifier_of_mem_values (h : Schema.ofSources sources = .ok s) (ht : t ∈ s.types.entries)
    {candidates : List Candidate} (hvalues : values? t = some candidates) (hc : c ∈ candidates) :
    isIdentifier c.text = true := by
  unfold values? at hvalues
  split at hvalues
  · next values hcontents =>
    cases hvalues
    obtain ⟨v, hv, rfl⟩ := List.mem_map.1 hc
    have hmember : .enumValue v ∈ t.contents.members := by
      rw [hcontents]
      exact List.mem_map_of_mem hv
    exact (Sdl.areNames_cons_iff.1 (Schema.areNames_of_mem_members h ht hmember)).1
  · cases hvalues
    rcases List.mem_pair.1 hc with rfl | rfl
    · show isIdentifier "true" = true
      decide
    · show isIdentifier "false" = true
      decide
  · cases hvalues

theorem isIdentifier_of_mem_typeConditions (h : Schema.ofSources sources = .ok s) {parent : Option TypeDef}
    (hparent : ∀ t, parent = some t → t ∈ s.types.entries) (hc : c ∈ typeConditions s parent) :
    isIdentifier c.text = true := by
  cases parent with
  | none =>
    obtain ⟨t, ht, rfl⟩ := List.mem_map.1 hc
    exact Schema.isIdentifier_of_mem_types h (List.mem_of_mem_filter ht)
  | some parent =>
    have ht := hparent parent rfl
    obtain ⟨u, hu, rfl⟩ := List.mem_map.1 hc
    split at hu
    · exact Schema.isIdentifier_of_mem_types h (Schema.mem_types_of_mem_possibleTypes ht hu)
    · exact Schema.isIdentifier_of_mem_types h (List.mem_singleton.1 hu ▸ ht)

/-- **Whatever could stand where the cursor is bears a name of the language.** -/
theorem isIdentifier_of_mem_candidatesAt (h : Schema.ofSources sources = .ok s) {candidates : List Candidate}
    (hcandidates : candidatesAt? s state = some candidates) (hc : c ∈ candidates) : isIdentifier c.text = true := by
  have hwithin := TypeContext.within_ofState (s := s) state
  have hnames := TypeContext.bearsNames_ofState h state
  obtain ⟨position, -, hat⟩ := Option.bind_eq_some_iff.1 hcandidates
  cases position with
  | selection =>
    obtain ⟨parent, hparent, rfl⟩ := Option.map_eq_some_iff.1 hat
    have ht := hwithin.parentType parent hparent
    rw [selections_eq fun f hf => Schema.not_isReserved_of_mem_ownFields h ht hf] at hc
    obtain ⟨f, hf, rfl⟩ := List.mem_map.1 hc
    exact (Sdl.areNames_cons_iff.1 (Schema.areNames_of_mem_selectable h ht (List.mem_of_mem_filter hf))).1
  | argumentName =>
    obtain ⟨fields, hfields, rfl⟩ := Option.map_eq_some_iff.1 hat
    exact isIdentifier_of_mem_inputValues (hnames.argumentDefs fields hfields) hc
  | inputObjectField =>
    obtain ⟨fields, hfields, rfl⟩ := Option.map_eq_some_iff.1 hat
    exact isIdentifier_of_mem_inputValues (hnames.objectFieldDefs fields hfields) hc
  | inputValue =>
    obtain ⟨t, ht, hvalues⟩ := Option.bind_eq_some_iff.1 hat
    obtain ⟨type, htype, hnamed⟩ := Option.bind_eq_some_iff.1 ht
    cases type with
    | annotated a => exact isIdentifier_of_mem_values h (Schema.mem_types_of_type? hnamed) hvalues hc
    | named u => exact absurd htype (hnames.inputType u)
  | typeCondition =>
    cases hat
    exact isIdentifier_of_mem_typeConditions h hwithin.parentType hc
  | inputType =>
    cases hat
    obtain ⟨t, ht, rfl⟩ := List.mem_map.1 hc
    exact Schema.isIdentifier_of_mem_types h (List.mem_of_mem_filter ht)
  | directiveName =>
    cases hat
    obtain ⟨d, hd, rfl⟩ := List.mem_map.1 hc
    exact (Sdl.areNames_cons_iff.1 (Schema.areNames_of_mem_directives h (List.mem_of_mem_filter hd))).1

end Candidate

/-! ### Completions -/

variable {sources : List (Option String × String)} {s : Schema} {state : ParserState}

/-- **Wherever something can be completed, completions are offered that keep what is being typed.** -/
theorem exists_complete_keepsTyped (h : Schema.ofSources sources = .ok s) {candidates : List Candidate}
    (hcandidates : candidatesAt? s state = some candidates) (token : CursorToken) :
    ∃ completions, complete (some s) token state = some completions ∧ completions.KeepsTyped token candidates := by
  have hcomplete : complete (some s) token state =
      some ⟨rank Candidate.text candidates token.partialText, token.replaceFrom, token.stop⟩ := by
    unfold complete
    rw [Option.bind_eq_bind, Option.bind_some, hcandidates]
    rfl
  have htoken := token.normalizeText_partialText
  refine ⟨_, hcomplete, fun c hc hbegins => ?_, fun c hc hexact => ?_, ?_⟩
  · refine mem_rank_of_isPrefix hc ?_
    rw [htoken]
    exact CursorToken.isPrefix_of_begins hbegins
  · refine mem_rank_of_isPrefix hc ?_
    rw [htoken, hexact]
  · rw [← htoken]
    exact pairwise_rank fun c hc =>
      normalizeText_ne_nil_of_isIdentifier (Candidate.isIdentifier_of_mem_candidatesAt h hcandidates hc)

/-- The name of a directive is typed in capitals, after its mark. -/
theorem keepsTyped_of_capital_directive : ∃ s candidates completions,
    Schema.ofSources [(none, "type Query { a: Int } directive @skipped on FIELD | QUERY")] = .ok s ∧
      candidatesAt? s (.enter (.new .field) [.new .directive]) = some candidates ∧
      candidates.map Candidate.text = ["skipped", "include", "skip"] ∧
      complete (some s) ⟨"@SK", 4, 7⟩ (.enter (.new .field) [.new .directive]) = some completions ∧
      completions.KeepsTyped ⟨"@SK", 4, 7⟩ candidates ∧ CursorToken.Begins ⟨"@SK", 4, 7⟩ "skip" ∧
      "skip" ∈ completions.candidates.map Candidate.text := by
  have htexts : (do
      let s ← (Schema.ofSources [(none, "type Query { a: Int } directive @skipped on FIELD | QUERY")]).toOption
      let candidates ← candidatesAt? s (.enter (.new .field) [.new .directive])
      return candidates.map Candidate.text) = some ["skipped", "include", "skip"] := by
    decide +kernel
  obtain ⟨s, hs, htexts⟩ := Option.bind_eq_some_iff.1 htexts
  obtain ⟨candidates, hcandidates, htexts⟩ := Option.bind_eq_some_iff.1 htexts
  have htexts : candidates.map Candidate.text = ["skipped", "include", "skip"] := Option.some.inj htexts
  obtain ⟨completions, hcomplete, hkeeps⟩ :=
    exists_complete_keepsTyped (eq_ok_of_toOption hs) hcandidates ⟨"@SK", 4, 7⟩
  have hbegins : CursorToken.Begins ⟨"@SK", 4, 7⟩ "skip" :=
    ⟨some '@', ['S', 'K'], by decide, by decide, by decide, fun c hc => by cases hc; decide⟩
  obtain ⟨c, hc, hname⟩ := List.mem_map.1 (show "skip" ∈ candidates.map Candidate.text by simp [htexts])
  have hoffered : c ∈ completions.candidates := hkeeps.begun c hc (hname ▸ hbegins)
  exact ⟨s, candidates, completions, eq_ok_of_toOption hs, hcandidates, htexts, hcomplete, hkeeps, hbegins,
    List.mem_map.2 ⟨c, hoffered, hname⟩⟩

end QueryAid
