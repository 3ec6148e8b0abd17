import QueryAid.Proofs.Editor.Completion
import QueryAid.Proofs.Lint.Rules
/-!
# What is offered is accepted

The editor gathers what could stand at a place from the tables of the schema, and the validation has rules of its own
for what may stand there. `agreesAt_of_ofSources` says that the two agree at every place (`Schema.AgreesAt`).

* `ParserState.InArgumentsOf`: the part that the arguments around a place belong to. Whatever lies between, it is the
  definition of this part that the arguments are offered from (`argumentDefs_of_inArgumentsOf`).
* `unknownArgument_mem_checkArguments_iff`: of which arguments the validation says that they are unknown.
* `nodup_texts_of_candidatesAt`: no text is offered twice.
-/

namespace QueryAid

/-! ### What it means -/

/-- **A place lies in the arguments of a part:** the innermost arguments around it are those of the part. -/
inductive ParserState.InArgumentsOf : ParserState → ParserState → Prop where
  | list {f : StateFrame} {owner : ParserState} (hf : f.kind = .arguments) : InArgumentsOf (.within f owner) owner
  | inside {f : StateFrame} {e owner : ParserState} (h : InArgumentsOf e owner) (hf : f.kind ≠ .arguments) :
    InArgumentsOf (.within f e) owner

/-- The location of directives that stand behind a part, if the part is a selection, a fragment or an operation that is
announced by a keyword. -/
def StateKind.directiveLocation? : StateKind → Option DirectiveLocation
  | field => some .field
  | fragmentSpread => some .fragmentSpread
  | inlineFragment => some .inlineFragment
  | fragmentDefinition => some .fragmentDefinition
  | query => some .query
  | mutation => some .mutation
  | subscription => some .subscription
  | _ => none

open Candidate Validation

/-- **Candidates are the known arguments:** whatever arguments are given, the validation calls those unknown that are
not among the candidates, and no others. -/
def Candidate.AreKnownArguments (candidates : List Candidate) (parameters : Table InputValueDef)
    (owner : ArgumentOwner) : Prop :=
  ∀ node args, ∀ a ∈ args, a.name.value ∈ candidates.map text ↔
    (Violation.unknownArgument a.name.value owner).on (Validation.namedNode a.span a.name) ∉
      Validation.checkArguments parameters owner node args

/-- **What is offered at a place is what the validation accepts there.** -/
structure Schema.AgreesAt (s : Schema) (state : ParserState) : Prop where
  /-- No text is offered twice. -/
  nodup : ∀ candidates, candidatesAt? s state = some candidates → (candidates.map text).Nodup
  /-- In the arguments of a field, those are offered that the field has where the validation finds it. -/
  fieldArguments : GrammarPosition.ofState? state = some .argumentName → ∀ owner, state.InArgumentsOf owner →
    owner.kind = .field → ∀ f, (TypeContext.ofState s owner).fieldDef = some f →
    ∃ parent name candidates, (TypeContext.ofState s owner).parentType = some parent ∧
      owner.frame.name = some name ∧ fieldDef? s (some parent) name = some f ∧
      candidatesAt? s state = some candidates ∧ AreKnownArguments candidates f.arguments (.field name parent.name)
  directiveArguments : GrammarPosition.ofState? state = some .argumentName → ∀ owner, state.InArgumentsOf owner →
    owner.kind = .directive → ∀ d, (TypeContext.ofState s owner).directiveDef = some d →
    ∃ name candidates, owner.frame.name = some name ∧ s.directive? name = some d ∧
      candidatesAt? s state = some candidates ∧ AreKnownArguments candidates d.arguments (.directive name)
  /-- Where a variable gets its type, only its directives can be wrong if an offered type is given, and the type is
  wrong if another one is. -/
  variableTypes : GrammarPosition.ofState? state = some .inputType →
    ∃ candidates, candidatesAt? s state = some candidates ∧ ∀ v : VariableDefinition,
      v.type.innermostName.value ∈ candidates.map text ↔
        checkVariableDefinition s v = checkDirectives s .variableDefinition v.directives
  /-- The conditions that are offered in a type which things can be selected from are accepted. -/
  narrowerConditions : GrammarPosition.ofState? state = some .typeCondition →
    ∀ parent, (TypeContext.ofState s state).parentType = some parent → parent.isComposite = true →
    ∃ candidates, candidatesAt? s state = some candidates ∧ ∀ fragment condition,
      condition.value ∈ candidates.map text → checkTypeCondition s fragment condition = []
  allConditions : GrammarPosition.ofState? state = some .typeCondition →
    (TypeContext.ofState s state).parentType = none →
    ∃ candidates, candidatesAt? s state = some candidates ∧ ∀ fragment condition,
      condition.value ∈ candidates.map text ↔ checkTypeCondition s fragment condition = []
  fieldDirectives : GrammarPosition.ofState? state = some .directiveName → state.enclosingKind? = some .field →
    ∃ candidates, candidatesAt? s state = some candidates ∧ ∀ name,
      name ∈ candidates.map text ↔ ∃ d, s.directive? name = some d ∧ d.allows .field = true
  /-- Behind other parts, all directives are offered that may stand there. -/
  directives : GrammarPosition.ofState? state = some .directiveName → ∀ kind location,
    state.enclosingKind? = some kind → kind.directiveLocation? = some location →
    ∃ candidates, candidatesAt? s state = some candidates ∧ ∀ name d,
      s.directive? name = some d → d.allows location = true → name ∈ candidates.map text

/-! ### Arguments -/

namespace Validation

/-- **An argument is called unknown exactly if no parameter has its name.** -/
theorem unknownArgument_mem_checkArguments_iff {parameters : Table InputValueDef} {owner : ArgumentOwner}
    {node : SourceNode} {args : List Argument} {a : Argument} (ha : a ∈ args) :
    (Violation.unknownArgument a.name.value owner).on (namedNode a.span a.name) ∈
      checkArguments parameters owner node args ↔ a.name.value ∉ parameters.names := by
  rw [checkArguments, List.mem_append]
  constructor
  · rintro (h | h)
    · obtain ⟨b, hb, heq⟩ := List.mem_map.1 h
      have hname : b.name.value = a.name.value :=
        Violation.eq_of_message_unknownArgument (congrArg ValidationError.message heq)
      have hunknown := (List.mem_filter.1 hb).2
      rw [hname, Bool.not_eq_true', ← Bool.not_eq_true, Table.contains_iff] at hunknown
      exact hunknown
    · -- What is said of missing arguments is worded differently.
      obtain ⟨p, -, heq⟩ := List.mem_map.1 h
      exact absurd (congrArg ValidationError.message heq).symm Violation.message_unknownArgument_ne_missingArgument
  · intro hnot
    refine .inl (List.mem_map.2 ⟨a, List.mem_filter.2 ⟨ha, ?_⟩, rfl⟩)
    rwa [Bool.not_eq_true', ← Bool.not_eq_true, Table.contains_iff]

end Validation

namespace TypeContext

variable {s : Schema} {state owner : ParserState}

theorem step_argumentDefs {k : Option StateKind} {c : TypeContext} {f : StateFrame} (h : f.kind ≠ .arguments) :
    (step s k c f).argumentDefs = c.argumentDefs := by
  unfold step
  split <;> first | rfl | contradiction

/-- **The arguments around a place are those of the part that they belong to.** -/
theorem argumentDefs_of_inArgumentsOf (h : state.InArgumentsOf owner) :
    (ofState s state).argumentDefs = (ofState s owner).argumentsAfter (some owner.kind) := by
  induction h with
  | list hf => simp only [ofState, step, hf]
  | inside _ hf ih => exact (step_argumentDefs hf).trans ih

/-- The field of a part is the one that its name selects from the parent type. -/
theorem exists_of_fieldDef (hkind : owner.kind = .field) {f : FieldDef} (h : (ofState s owner).fieldDef = some f) :
    ∃ parent name, (ofState s owner).parentType = some parent ∧ owner.frame.name = some name ∧
      s.resolveField parent name = some f := by
  have hstep {k : Option StateKind} {c : TypeContext} {frame : StateFrame} (hframe : frame.kind = .field)
      (hf : (step s k c frame).fieldDef = some f) : ∃ parent name, (step s k c frame).parentType = some parent ∧
        frame.name = some name ∧ s.resolveField parent name = some f := by
    simp only [step, hframe] at hf ⊢
    obtain ⟨-, -, hf⟩ := Option.bind_eq_some_iff.1 hf
    obtain ⟨parent, hparent, hf⟩ := Option.bind_eq_some_iff.1 hf
    obtain ⟨name, hname, hf⟩ := Option.bind_eq_some_iff.1 hf
    exact ⟨parent, name, hparent, hname, hf⟩
  cases owner with
  | root frame => exact hstep hkind h
  | within frame e => exact hstep hkind h

/-- The directive of a part is the one of its name. -/
theorem exists_of_directiveDef (hkind : owner.kind = .directive) {d : DirectiveDef}
    (h : (ofState s owner).directiveDef = some d) :
    ∃ name, owner.frame.name = some name ∧ s.directive? name = some d := by
  have hstep {k : Option StateKind} {c : TypeContext} {frame : StateFrame} (hframe : frame.kind = .directive)
      (hd : (step s k c frame).directiveDef = some d) : ∃ name, frame.name = some name ∧ s.directive? name = some d := by
    simp only [step, hframe] at hd
    exact Option.bind_eq_some_iff.1 hd
  cases owner with
  | root frame => exact hstep hkind h
  | within frame e => exact hstep hkind h

end TypeContext

/-! ### Texts -/

/-- The entries of a table that pass a test bear distinct names. -/
theorem Table.nodup_names_filter {α : Type} [Named α] (t : Table α) (p : α → Bool) :
    ((t.entries.filter p).map Named.name).Nodup :=
  t.nodup.sublist (List.filter_sublist.map _)

namespace Candidate

variable {sources : List (Option String × String)} {s : Schema} {state : ParserState} {t : TypeDef}
  {parent : Option TypeDef} {name : String}

theorem map_text_inputValues (parameters : Table InputValueDef) :
    (inputValues parameters).map text = parameters.names :=
  List.map_map

/-- The names of the arguments are the ones of which the validation does not say that they are unknown. -/
theorem areKnownArguments_inputValues (parameters : Table InputValueDef) (owner : ArgumentOwner) :
    AreKnownArguments (inputValues parameters) parameters owner := by
  intro node args a ha
  rw [map_text_inputValues, Validation.unknownArgument_mem_checkArguments_iff ha, not_not]

theorem mem_texts_of_types_iff {p : TypeDef → Bool} :
    name ∈ ((s.types.entries.filter p).map ofType).map text ↔ ∃ t, s.type? name = some t ∧ p t = true := by
  simp only [List.map_map, List.mem_map, List.mem_filter, Schema.type?, Table.find?_eq_some_iff]
  exact exists_congr fun t => and_right_comm

theorem mem_texts_inputTypes_iff : name ∈ (inputTypes s).map text ↔ s.IsInputName name := mem_texts_of_types_iff

theorem mem_texts_typeConditions_none_iff : name ∈ (typeConditions s none).map text ↔ s.IsCompositeName name :=
  mem_texts_of_types_iff

theorem mem_texts_directives_iff {enclosing : Option StateKind} :
    name ∈ (directives s enclosing).map text ↔
      ∃ d, s.directive? name = some d ∧ applies enclosing d = true := by
  simp only [directives, List.map_map, List.mem_map, List.mem_filter, Schema.directive?, Table.find?_eq_some_iff]
  exact exists_congr fun d => and_right_comm

/-- A directive that is allowed behind a part is offered there. -/
theorem applies_of_allows {kind : StateKind} {location : DirectiveLocation} {d : DirectiveDef}
    (hkind : kind.directiveLocation? = some location) (h : d.allows location = true) :
    applies (some kind) d = true := by
  cases kind <;> cases hkind <;>
    simp [applies, StateKind.isFragment, StateKind.isOperation, DirectiveDef.onField, DirectiveDef.onFragment,
      DirectiveDef.onOperation, h]

/-! ### Conditions of types -/

/-- The conditions that are offered in a type name types which things can be selected from. -/
theorem isCompositeName_of_mem_texts_typeConditions (h : Schema.ofSources sources = .ok s)
    (ht : t ∈ s.types.entries) (hcomposite : t.isComposite = true)
    (hname : name ∈ (typeConditions s (some t)).map text) : s.IsCompositeName name := by
  rw [typeConditions, List.map_map] at hname
  obtain ⟨u, hu, rfl⟩ := List.mem_map.1 hname
  split at hu
  · have hmem := Schema.mem_types_of_mem_possibleTypes ht hu
    have hobject := Schema.isObject_of_mem_possibleTypes h ht hu
    exact ⟨u, Table.find?_eq_some_iff.2 ⟨hmem, rfl⟩, TypeDef.isComposite_of_isObject hobject⟩
  · obtain rfl := List.mem_singleton.1 hu
    exact ⟨u, Table.find?_eq_some_iff.2 ⟨ht, rfl⟩, hcomposite⟩

/-! ### Nothing comes twice -/

theorem nodup_texts_values {candidates : List Candidate} (h : values? t = some candidates) :
    (candidates.map text).Nodup := by
  unfold values? at h
  split at h
  · next values _ =>
    cases h
    rw [List.map_map]
    exact values.nodup
  · cases h
    exact List.nodup_cons.2 ⟨by simp, List.nodup_singleton _⟩
  · cases h

theorem nodup_texts_typeConditions (h : Schema.ofSources sources = .ok s)
    (hparent : ∀ t, parent = some t → t ∈ s.types.entries) : ((typeConditions s parent).map text).Nodup := by
  cases parent with
  | none =>
    rw [typeConditions, List.map_map]
    exact s.types.nodup_names_filter _
  | some t =>
    rw [typeConditions, List.map_map]
    split
    · exact Schema.nodup_names_possibleTypes h (hparent t rfl)
    · exact List.nodup_singleton _

/-- **No text is offered twice,** wherever the cursor is. -/
theorem nodup_texts_of_candidatesAt (h : Schema.ofSources sources = .ok s) {candidates : List Candidate}
    (hcandidates : candidatesAt? s state = some candidates) : (candidates.map text).Nodup := by
  have hwithin := TypeContext.within_ofState (s := s) state
  obtain ⟨position, -, hat⟩ := Option.bind_eq_some_iff.1 hcandidates
  cases position with
  | selection =>
    obtain ⟨parent, hparent, rfl⟩ := Option.map_eq_some_iff.1 hat
    exact (offersSelections_selections h (hwithin.parentType parent hparent)).nodup
  | argumentName | inputObjectField =>
    obtain ⟨fields, -, rfl⟩ := Option.map_eq_some_iff.1 hat
    rw [map_text_inputValues]
    exact fields.nodup
  | inputValue =>
    obtain ⟨t, -, hvalues⟩ := Option.bind_eq_some_iff.1 hat
    exact nodup_texts_values hvalues
  | typeCondition =>
    cases hat
    exact nodup_texts_typeConditions h hwithin.parentType
  | inputType =>
    cases hat
    rw [inputTypes, List.map_map]
    exact s.types.nodup_names_filter _
  | directiveName =>
    cases hat
    rw [directives, List.map_map]
    exact s.directives.nodup_names_filter _

end Candidate

/-! ### All places -/

namespace Schema

variable {sources : List (Option String × String)} {s : Schema} {state owner : ParserState}

/-- What could stand at a place, by its position. -/
theorem candidatesAt?_eq {position : GrammarPosition} (h : GrammarPosition.ofState? state = some position) :
    candidatesAt? s state = Candidate.at? s (TypeContext.ofState s state) state.enclosingKind? position := by
  rw [candidatesAt?, h, Option.bind_eq_bind, Option.bind_some]

/-- In arguments, those are offered that can be given there. -/
theorem candidatesAt?_of_inArgumentsOf (hposition : GrammarPosition.ofState? state = some .argumentName)
    (h : state.InArgumentsOf owner) {parameters : Table InputValueDef}
    (hparameters : (TypeContext.ofState s owner).argumentsAfter (some owner.kind) = some parameters) :
    candidatesAt? s state = some (inputValues parameters) := by
  rw [candidatesAt?_eq hposition, Candidate.at?, TypeContext.argumentDefs_of_inArgumentsOf h, hparameters,
    Option.map_some]

/-- Only the directives of a variable are wrong exactly if its type is one that variables can have. -/
theorem checkVariableDefinition_eq_checkDirectives_iff {v : VariableDefinition} :
    checkVariableDefinition s v = checkDirectives s .variableDefinition v.directives ↔
      s.IsInputName v.type.innermostName.value := by
  rw [checkVariableDefinition, List.append_right_eq_self]
  unfold Schema.IsInputName
  cases s.type? v.type.innermostName.value with
  | none => simp
  | some t => cases h : t.isInput <;> simp [h]

/-- **What is offered is what the validation accepts,** at every place in every document. -/
theorem agreesAt_of_ofSources (h : ofSources sources = .ok s) (state : ParserState) : s.AgreesAt state where
  nodup _ hcandidates := nodup_texts_of_candidatesAt h hcandidates
  fieldArguments hposition owner howner hkind f hf := by
    obtain ⟨parent, name, hparent, hname, hresolve⟩ := TypeContext.exists_of_fieldDef hkind hf
    have harguments : (TypeContext.ofState s owner).argumentsAfter (some owner.kind) = some f.arguments := by
      rw [hkind, TypeContext.argumentsAfter, hf, Option.map_some]
    exact ⟨parent, name, _, hparent, hname, hresolve, candidatesAt?_of_inArgumentsOf hposition howner harguments,
      areKnownArguments_inputValues _ _⟩
  directiveArguments hposition owner howner hkind d hd := by
    obtain ⟨name, hname, hfind⟩ := TypeContext.exists_of_directiveDef hkind hd
    have harguments : (TypeContext.ofState s owner).argumentsAfter (some owner.kind) = some d.arguments := by
      rw [hkind, TypeContext.argumentsAfter, hd, Option.map_some]
    exact ⟨name, _, hname, hfind, candidatesAt?_of_inArgumentsOf hposition howner harguments,
      areKnownArguments_inputValues _ _⟩
  variableTypes hposition := by
    refine ⟨_, candidatesAt?_eq hposition, fun v => ?_⟩
    rw [mem_texts_inputTypes_iff, checkVariableDefinition_eq_checkDirectives_iff]
  narrowerConditions hposition parent hparent hcomposite := by
    have hmem := TypeContext.mem_types_of_parentType hparent
    refine ⟨_, candidatesAt?_eq hposition, fun fragment condition hcondition => ?_⟩
    rw [hparent] at hcondition
    exact checkTypeCondition_eq_nil_iff.2 (isCompositeName_of_mem_texts_typeConditions h hmem hcomposite hcondition)
  allConditions hposition hparent := by
    refine ⟨_, candidatesAt?_eq hposition, fun fragment condition => ?_⟩
    rw [hparent, mem_texts_typeConditions_none_iff, checkTypeCondition_eq_nil_iff]
  fieldDirectives hposition hkind := by
    refine ⟨_, candidatesAt?_eq hposition, fun name => ?_⟩
    rw [mem_texts_directives_iff, hkind]
    rfl
  directives hposition kind location hkind hlocation := by
    refine ⟨_, candidatesAt?_eq hposition, fun name d hfind hallows => ?_⟩
    rw [mem_texts_directives_iff, hkind]
    exact ⟨d, hfind, applies_of_allows hlocation hallows⟩

/-- Places in the arguments of a field and of its directive, in a fragment in an interface, and behind a field. -/
theorem agreesAt_of_interface_and_directive : ∃ s,
    ofSources [(none, "type Query { a(x: Int!): I } interface I { b: Int } type T implements I { b: Int }"),
        (none, "type U implements I { b: Int } directive @d(y: Int) on FIELD | FRAGMENT_SPREAD")] = .ok s ∧
      (let a := ParserState.enter (.new .query) [.new .selectionSet, ⟨.field, some "a", 0, none⟩]
      [a.enter [.new .arguments], a.enter [⟨.directive, some "d", 1, none⟩, .new .arguments, .new .argument],
        a.enter [.new .selectionSet, ⟨.inlineFragment, none, 2, none⟩], a.enter [.new .directive]].map
          fun state => (candidatesAt? s state).map (List.map text)) =
        [some ["x"], some ["y"], some ["T", "U"], some ["d", "include", "skip"]] ∧
      ∀ state, s.AgreesAt state := by
  have htexts : (do
      let s ← (ofSources
        [(none, "type Query { a(x: Int!): I } interface I { b: Int } type T implements I { b: Int }"),
          (none, "type U implements I { b: Int } directive @d(y: Int) on FIELD | FRAGMENT_SPREAD")]).toOption
      let a := ParserState.enter (.new .query) [.new .selectionSet, ⟨.field, some "a", 0, none⟩]
      return [a.enter [.new .arguments], a.enter [⟨.directive, some "d", 1, none⟩, .new .arguments, .new .argument],
        a.enter [.new .selectionSet, ⟨.inlineFragment, none, 2, none⟩], a.enter [.new .directive]].map
          fun state => (candidatesAt? s state).map (List.map text)) =
      some [some ["x"], some ["y"], some ["T", "U"], some ["d", "include", "skip"]] := by
    decide +kernel
  obtain ⟨s, hs, htexts⟩ := Option.bind_eq_some_iff.1 htexts
  have hs := eq_ok_of_toOption hs
  exact ⟨s, hs, Option.some.inj htexts, agreesAt_of_ofSources hs⟩

end Schema

end QueryAid
