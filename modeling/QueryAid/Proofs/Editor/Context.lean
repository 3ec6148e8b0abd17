import QueryAid.Editor.TypeContext
import QueryAid.Proofs.GuardedFold
import QueryAid.Proofs.Lint.Walk
import QueryAid.Schema.Builder
/-!
# What the editor and the validation know about a selection set

The validation goes down into a document and takes the type that selections are made from along with it. An editor only
has the names of the parts that the cursor is in, and goes through these from the outermost one inwards. Where the
validation knows the type, the editor finds the same one (`parentType_eq_of_enters`).

* `foldl_essential`: parts that settle nothing can be left out.
* `Spells`: the parts that say what the steps of a path are.
* `Knows`: the editor knows the type if the validation does. This holds at the start, and each step of a path keeps it.
-/

namespace QueryAid

/-! ### Parts that settle nothing -/

/-- Whether parts of a kind are there only for how a document is read. -/
def StateKind.isInert : StateKind → Bool
  | document | definition | selection | aliasedField => true
  | _ => false

/-- Whether parts of a kind settle nothing about types: they are there for how a document is read, or are names, types
and values that nothing lies in. -/
def StateKind.settlesNothing : StateKind → Bool
  | document | definition | variableDefinitions | variableDefinition | variableName | defaultValue | selection
  | aliasedField | fragmentSpread | typeCondition | value | numberValue | stringValue | booleanValue | enumValue
  | type | listType | namedType => true
  | _ => false

theorem StateKind.settlesNothing_of_isInert {k : StateKind} (h : k.isInert = true) : k.settlesNothing = true := by
  cases k <;> first | rfl | cases h

/-- The parts that the cursor is in, but for those that are there only for how a document is read. -/
def ParserState.essential (state : ParserState) : List StateFrame :=
  state.frames.filter fun f => !f.kind.isInert

namespace TypeContext

variable {s : Schema} {c : TypeContext} {f : StateFrame} {state : ParserState}

theorem step_of_settlesNothing (h : f.kind.settlesNothing = true) (k : Option StateKind) : step s k c f = c := by
  unfold step
  split <;> first | rfl | (rename_i hkind; rw [hkind] at h; cases h)

theorem step_of_isInert (h : f.kind.isInert = true) (k : Option StateKind) : step s k c f = c :=
  step_of_settlesNothing (StateKind.settlesNothing_of_isInert h) k

/-- Only arguments depend on what they belong to. -/
theorem step_eq_of_kind_ne (h : f.kind ≠ .arguments) (k k' : Option StateKind) : step s k c f = step s k' c f := by
  unfold step
  split <;> first | rfl | contradiction

theorem ofState_eq_foldl (h : ∀ f ∈ state.frames, f.kind ≠ .arguments) :
    ofState s state = state.frames.foldl (step s none) empty := by
  induction state with
  | root f => rfl
  | within f e ih =>
    obtain ⟨he, hf⟩ := List.forall_mem_append.1 h
    rw [ParserState.frames, List.foldl_append, ← ih he]
    exact step_eq_of_kind_ne (hf f (List.mem_singleton.2 rfl)) _ _

/-- Parts that change nothing can be left out. -/
theorem foldl_filter_step {p : StateFrame → Bool} {frames : List StateFrame}
    (h : ∀ f c, p f = false → step s none c f = c) :
    (frames.filter p).foldl (step s none) c = frames.foldl (step s none) c := by
  rw [List.foldl_filter]
  congr 1
  funext c f
  split
  · rfl
  · next hp => rw [h f c (by simpa using hp)]

theorem foldl_essential :
    state.essential.foldl (step s none) c = state.frames.foldl (step s none) c :=
  foldl_filter_step fun _ _ hf => step_of_isInert (by simpa using hf) none

/-- Where there are no arguments, the context is found from the parts that settle something. -/
theorem ofState_eq_foldl_essential (h : ∀ f ∈ state.essential, f.kind ≠ .arguments) :
    ofState s state = state.essential.foldl (step s none) empty := by
  rw [foldl_essential, ofState_eq_foldl]
  intro f hf
  cases hinert : f.kind.isInert with
  | false => exact h f (List.mem_filter.2 ⟨hf, by simp [hinert]⟩)
  | true =>
    intro hkind
    rw [hkind] at hinert
    cases hinert

end TypeContext

/-! ### Parts that spell a path -/

/-- A part announces a definition: it is of its kind, and has the type condition of a fragment. -/
def StateFrame.Announces (f : StateFrame) : Definition → Prop
  | .operation o =>
    match o.kind with
    | .query => f.kind = .query ∨ f.kind = .shortQuery
    | .mutation => f.kind = .mutation
    | .subscription => f.kind = .subscription
  | .fragment x => f.kind = .fragmentDefinition ∧ f.typeName = some x.typeCondition.value

/-- A part announces a step down: it has the name of the field, or the type condition of the inline fragment. -/
def StateFrame.Leads (f : StateFrame) : Descent → Prop
  | .field head => f.kind = .field ∧ f.name = some head.name.value
  | .inline head => f.kind = .inlineFragment ∧ f.typeName = head.typeCondition.map Name.value

/-- **Parts spell a path** below a definition: the definition and each step are announced, and a selection set follows
each time. -/
inductive Definition.Spells (x : Definition) : List Descent → List StateFrame → Prop where
  | root {f set : StateFrame} (hf : f.Announces x) (hset : set.kind = .selectionSet) : Spells x [] [f, set]
  | step {path : List Descent} {frames : List StateFrame} {down : Descent} {f set : StateFrame}
    (h : Spells x path frames) (hf : f.Leads down) (hset : set.kind = .selectionSet) :
    Spells x (path ++ [down]) (frames ++ [f, set])

namespace Definition.Spells

variable {x : Definition} {path : List Descent} {frames : List StateFrame} {down : Descent}

theorem exists_of_nil (h : x.Spells [] frames) :
    ∃ f set, frames = [f, set] ∧ f.Announces x ∧ set.kind = .selectionSet := by
  generalize hpath : ([] : List Descent) = path at h
  cases h with
  | root hf hset => exact ⟨_, _, rfl, hf, hset⟩
  | step => exact absurd hpath (List.append_ne_nil_of_right_ne_nil _ (List.cons_ne_nil _ _)).symm

theorem exists_of_append (h : x.Spells (path ++ [down]) frames) :
    ∃ before f set, frames = before ++ [f, set] ∧ x.Spells path before ∧ f.Leads down ∧ set.kind = .selectionSet := by
  generalize hwhole : path ++ [down] = whole at h
  cases h with
  | root => exact absurd hwhole (List.append_ne_nil_of_right_ne_nil _ (List.cons_ne_nil _ _))
  | step h hf hset =>
    obtain ⟨rfl, hdown⟩ := List.append_inj' hwhole rfl
    obtain rfl := List.singleton_inj.1 hdown
    exact ⟨_, _, _, rfl, h, hf, hset⟩

/-- No arguments lie on a path. -/
theorem kind_ne_arguments (h : x.Spells path frames) : ∀ f ∈ frames, f.kind ≠ .arguments := by
  induction h with
  | @root f set hf hset =>
    have hkind : f.kind ≠ .arguments := by
      intro hkind
      cases x with
      | operation o =>
        simp only [StateFrame.Announces, hkind] at hf
        split at hf <;> simp at hf
      | fragment y => simp [StateFrame.Announces, hkind] at hf
    simp [hkind, hset]
  | @step path frames down f set _ hf hset ih =>
    have hkind : f.kind ≠ .arguments := by
      intro hkind
      cases down <;> simp [StateFrame.Leads, hkind] at hf
    exact List.forall_mem_append.2 ⟨ih, by simp [hkind, hset]⟩

end Definition.Spells

/-! ### The types agree -/

namespace TypeContext

open Validation

variable {s : Schema} {c : TypeContext} {f set : StateFrame} {parent : Option TypeDef} {t : TypeDef}

/-- **The editor knows the type** that selections are made from, if the validation does. -/
def Knows (c : TypeContext) (parent : Option TypeDef) : Prop :=
  ∀ t, parent = some t → c.parentType = some t ∧ c.type.isSome

/-- A selection set has its parent type from the part that it belongs to. -/
theorem knows_of_selectionSet (hset : set.kind = .selectionSet)
    (h : ∀ t, parent = some t → ∃ type, c.type = some type ∧ type.namedType? s = some t) :
    Knows (step s none c set) parent := by
  intro t ht
  obtain ⟨type, htype, hnamed⟩ := h t ht
  simp only [step, hset, htype, Option.bind_some, hnamed, Option.isSome_some, and_self]

theorem type_of_condition {condition : Name} (hkind : f.kind = .fragmentDefinition ∨ f.kind = .inlineFragment)
    (hname : f.typeName = some condition.value) (ht : conditionType? s condition = some t) :
    (step s none c f).type = some (.named t) := by
  have hfind : s.type? condition.value = some t := (Option.filter_eq_some_iff.1 ht).1
  rcases hkind with hkind | hkind <;> simp [step, hkind, hname, hfind]

/-- Nothing needs to be known before a definition. -/
theorem knows_of_announces {x : Definition} (hf : f.Announces x) (hset : set.kind = .selectionSet) :
    Knows ([f, set].foldl (step s none) c) (rootType? s x) := by
  refine knows_of_selectionSet hset fun t ht => ⟨.named t, ?_, rfl⟩
  cases x with
  | operation o =>
    have hroot : s.root? o.kind = some t := ht
    have htype : (step s none c f).type = (s.root? o.kind).map .named := by
      cases hkind : o.kind with
      | query =>
        simp only [StateFrame.Announces, hkind] at hf
        rcases hf with hf | hf <;> simp [step, hf]
      | mutation | subscription =>
        simp only [StateFrame.Announces, hkind] at hf
        simp [step, hf]
    rw [htype, hroot, Option.map_some]
  | fragment y => exact type_of_condition (.inl hf.1) hf.2 ht

/-- What is known of a field follows from what is known of the type that it is selected from. -/
theorem Knows.field {head : FieldHead} (h : Knows c parent) (hf : f.Leads (.field head))
    (hset : set.kind = .selectionSet) : Knows ([f, set].foldl (step s none) c) (fieldType? s parent head) := by
  refine knows_of_selectionSet hset fun t ht => ?_
  obtain ⟨definition, hdefinition, hnamed⟩ := Option.bind_eq_some_iff.1 (Option.filter_eq_some_iff.1 ht).1
  obtain ⟨p, hp, hresolve⟩ := Option.bind_eq_some_iff.1 hdefinition
  obtain ⟨hparent, htype⟩ := h p hp
  obtain ⟨type, htype⟩ := Option.isSome_iff_exists.1 htype
  have hfield : c.field? s f.name = some definition := by
    simp only [field?, htype, hparent, hf.2, Option.bind_eq_bind, Option.bind_some, hresolve]
  refine ⟨.annotated definition.type, ?_, hnamed⟩
  simp only [step, hf.1, hfield, Option.map_some]

/-- Nothing needs to be known before an inline fragment that has a type condition. -/
theorem knows_of_inline {head : InlineHead} {condition : Name} (hcondition : head.typeCondition = some condition)
    (hf : f.Leads (.inline head)) (hset : set.kind = .selectionSet) :
    Knows ([f, set].foldl (step s none) c) (inlineType? s parent head) := by
  refine knows_of_selectionSet hset fun t ht => ⟨.named t, ?_, rfl⟩
  have hname : f.typeName = some condition.value := by rw [hf.2, hcondition, Option.map_some]
  simp only [inlineType?, hcondition] at ht
  exact type_of_condition (.inr hf.1) hname ht

theorem knows_of_enters {x : Definition} {path : List Descent} {selections : SelectionSet}
    {frames : List StateFrame} (h : Enters s x path parent selections)
    (hinline : ∀ head, .inline head ∈ path → head.typeCondition.isSome) (hspells : x.Spells path frames) :
    Knows (frames.foldl (step s none) empty) parent := by
  induction h generalizing frames with
  | root =>
    obtain ⟨f, set, rfl, hf, hset⟩ := hspells.exists_of_nil
    exact knows_of_announces hf hset
  | @field path parent selections inner head _ _ ih =>
    obtain ⟨before, f, set, rfl, hbefore, hf, hset⟩ := hspells.exists_of_append
    rw [List.foldl_append]
    exact (ih (fun head hhead => hinline head (List.mem_append_left _ hhead)) hbefore).field hf hset
  | @inline path parent selections inner head _ _ _ =>
    obtain ⟨before, f, set, rfl, -, hf, hset⟩ := hspells.exists_of_append
    obtain ⟨condition, hcondition⟩ := Option.isSome_iff_exists.1
      (hinline head (List.mem_append_right _ (List.mem_singleton.2 rfl)))
    rw [List.foldl_append]
    exact knows_of_inline hcondition hf hset

/-- **The editor and the validation agree on types.** If the validation enters a selection set with a known type, on a
path whose inline fragments have type conditions, then this is the parent type in every state that spells the path,
whatever other parts lie between. -/
theorem parentType_eq_of_enters {x : Definition} {path : List Descent} {selections : SelectionSet}
    {state : ParserState} (h : Enters s x path (some t) selections)
    (hinline : ∀ head, .inline head ∈ path → head.typeCondition.isSome) (hspells : x.Spells path state.essential) :
    (ofState s state).parentType = some t := by
  rw [ofState_eq_foldl_essential hspells.kind_ne_arguments]
  exact (knows_of_enters h hinline hspells t rfl).1

/-- In `{ x { ... on T { b } } }` the field `x` does not exist, but below it the type is known again. -/
theorem parentType_below_unknown_field : ∃ s t,
    Schema.ofSources [(none, "type Query { a: Int } type T { b: T }")] = .ok s ∧ s.type? "T" = some t ∧
      (ofState s (ParserState.enter (.new .document) [.new .shortQuery, .new .selectionSet, .new .selection,
        ⟨.field, some "x", 0, none⟩, .new .selectionSet, ⟨.inlineFragment, none, 2, some "T"⟩,
        .new .selectionSet, .new .aliasedField])).parentType = some t := by
  let anywhere : Span := ⟨0, 0⟩
  let bottom : SelectionSet := .mk [.field ⟨none, ⟨"b", anywhere⟩, [], [], anywhere⟩ none] anywhere
  let onT : InlineHead := ⟨some ⟨"T", anywhere⟩, [], anywhere⟩
  let x : FieldHead := ⟨none, ⟨"x", anywhere⟩, [], [], anywhere⟩
  let query : Definition := .operation
    ⟨.query, none, [], [], .mk [.field x (some (.mk [.inline onT bottom] anywhere))] anywhere, anywhere⟩
  have hcondition : (do
      let s ← (Schema.ofSources [(none, "type Query { a: Int } type T { b: T }")]).toOption
      return (s.type? "T").any TypeDef.isComposite) = some true := by
    decide +kernel
  obtain ⟨s, hs, hcondition⟩ := Option.bind_eq_some_iff.1 hcondition
  obtain ⟨t, ht, hcomposite⟩ := (Option.any_eq_true _ _).1 (Option.some.inj hcondition)
  have htype : inlineType? s (fieldType? s (rootType? s query) x) onT = some t :=
    Option.filter_eq_some_iff.2 ⟨ht, hcomposite⟩
  have hroot : Enters s query [] (rootType? s query) query.selectionSet := .root
  have hfield := hroot.field (List.mem_singleton.2 rfl)
  have hbottom := hfield.inline (List.mem_singleton.2 rfl)
  refine ⟨s, t, eq_ok_of_toOption hs, ht, parentType_eq_of_enters (htype ▸ hbottom) ?_ ?_⟩
  · intro head hhead
    simp only [List.nil_append, List.singleton_append, List.mem_cons, reduceCtorEq, List.not_mem_nil,
      false_or, or_false, Descent.inline.injEq] at hhead
    rw [hhead]
    rfl
  · have hquery : StateFrame.Announces (.new .shortQuery) query := .inr rfl
    have hx : StateFrame.Leads ⟨.field, some "x", 0, none⟩ (.field x) := ⟨rfl, rfl⟩
    have honT : StateFrame.Leads ⟨.inlineFragment, none, 2, some "T"⟩ (.inline onT) := ⟨rfl, rfl⟩
    have hset : (StateFrame.new .selectionSet).kind = .selectionSet := rfl
    exact ((Definition.Spells.root hquery hset).step hx hset).step honT hset

end TypeContext

end QueryAid
