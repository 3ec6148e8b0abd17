import QueryAid.Proofs.Editor.Agreement
import QueryAid.Proofs.Editor.Frames
/-!
# Scopes

An operation or a fragment opens a scope: from its selection set on, what is around it does not matter any more. The
context keeps whatever was known outside until a part settles it anew, so this is a statement about two places at the
ends of the same parts, in different surroundings (`agreesWithin_of_opensScope`).

What is known alike at two places grows with the parts that are entered, and entering the same part of any kind keeps it:

* `SameScope`: the types that selections are made from, and the arguments that may follow. A selection set settles these.
* `SameArguments`: the arguments that can be given. A list of arguments settles these.
* `SameValue`, `SameObject`: the type of a value, and the fields of an object. An argument settles the first one, and an
  object the second one. A field of an object takes its type from the fields, so that only places with the same fields
  agree on it.
-/

namespace QueryAid

/-! ### What it means -/

/-- Whether parts of a kind have a type of their own to select from: operations and fragments. -/
def StateKind.opensScope : StateKind → Bool
  | query | shortQuery | mutation | subscription | fragmentDefinition | inlineFragment => true
  | _ => false

/-- **Parts open a scope:** the first one is an operation or a fragment, and a selection set comes before any field. The
inner parts are those behind the selection set. -/
def OpensScope (frames inner : List StateFrame) : Prop :=
  ∃ first before set, frames = first :: (before ++ set :: inner) ∧ first.kind.opensScope = true ∧
    (∀ f ∈ before, f.kind ≠ .field) ∧ set.kind = .selectionSet

/-- Parts enter an argument, in a list of arguments that is entered before, and go on from it. -/
def EntersArgument (frames after : List StateFrame) : Prop :=
  ∃ before list between argument, frames = before ++ list :: (between ++ argument :: after) ∧
    list.kind = .arguments ∧ argument.kind = .argument

/-- An object is entered before any field of an object. -/
def FieldsInObjects (frames : List StateFrame) : Prop :=
  ∀ before f after, frames = before ++ f :: after → f.kind = .objectField → ∃ o ∈ before, o.kind = .objectValue

open TypeContext (ofState)

/-- **Two places agree on what was settled by the inner parts.** -/
structure AgreesWithin (s : Schema) (inner : List StateFrame) (x y : ParserState) : Prop where
  type : (ofState s x).type = (ofState s y).type
  parentType : (ofState s x).parentType = (ofState s y).parentType
  argumentDefs : (∃ f ∈ inner, f.kind = .arguments) → (ofState s x).argumentDefs = (ofState s y).argumentDefs
  argumentDef : ∀ after, EntersArgument inner after → (ofState s x).argumentDef = (ofState s y).argumentDef
  inputType : ∀ after, EntersArgument inner after → FieldsInObjects after →
    (ofState s x).inputType = (ofState s y).inputType
  /-- Where something is selected at the one place, it is selected at the other, and the same is offered. -/
  complete : GrammarPosition.ofState? x = some .selection → GrammarPosition.ofState? y = some .selection ∧
    ∀ token, complete (some s) token x = complete (some s) token y

/-! ### One part entered in two contexts -/

namespace TypeContext

variable {s : Schema} {k k' : Option StateKind} {c c' : TypeContext} {f : StateFrame}

theorem step_type_congr (htype : c.type = c'.type) (hparent : c.parentType = c'.parentType) :
    (step s k c f).type = (step s k' c' f).type := by
  have hfield : c.field? s f.name = c'.field? s f.name := by
    unfold field?
    rw [htype, hparent]
  cases hkind : f.kind <;> simp only [step, hkind, htype, hfield]

theorem step_parentType_congr (htype : c.type = c'.type) (hparent : c.parentType = c'.parentType) :
    (step s k c f).parentType = (step s k' c' f).parentType := by
  cases hkind : f.kind <;> simp only [step, hkind, htype, hparent]

/-- The arguments that may follow a part depend on the types that selections are made from, and on the part. -/
theorem argumentsAfter_step_congr (htype : c.type = c'.type) (hparent : c.parentType = c'.parentType) :
    (step s k c f).argumentsAfter (some f.kind) = (step s k' c' f).argumentsAfter (some f.kind) := by
  have hfield : c.field? s f.name = c'.field? s f.name := by
    unfold field?
    rw [htype, hparent]
  cases hkind : f.kind <;> simp only [argumentsAfter, step, hkind, hfield]

theorem step_argumentDefs_congr (hafter : c.argumentsAfter k = c'.argumentsAfter k')
    (h : f.kind = .arguments ∨ c.argumentDefs = c'.argumentDefs) :
    (step s k c f).argumentDefs = (step s k' c' f).argumentDefs := by
  cases hkind : f.kind <;> simp_all [step]

theorem step_argumentDef_congr (hdefs : c.argumentDefs = c'.argumentDefs)
    (h : f.kind = .argument ∨ c.argumentDef = c'.argumentDef) :
    (step s k c f).argumentDef = (step s k' c' f).argumentDef := by
  cases hkind : f.kind <;> simp_all [step]

/-- A field of an object takes its type from the fields that are known. -/
theorem step_inputType_congr (hdefs : c.argumentDefs = c'.argumentDefs)
    (h : f.kind = .argument ∨ c.inputType = c'.inputType)
    (hfields : f.kind = .objectField → c.objectFieldDefs = c'.objectFieldDefs) :
    (step s k c f).inputType = (step s k' c' f).inputType := by
  cases hkind : f.kind <;> simp_all [step]

theorem step_objectFieldDefs_congr (hinput : c.inputType = c'.inputType)
    (h : f.kind = .objectValue ∨ c.objectFieldDefs = c'.objectFieldDefs) :
    (step s k c f).objectFieldDefs = (step s k' c' f).objectFieldDefs := by
  cases hkind : f.kind <;> simp_all [step]

/-- What opens a scope settles its type without regard to what was known. -/
theorem step_type_of_opensScope (h : f.kind.opensScope = true) : (step s k c f).type = (step s k' c' f).type := by
  cases hkind : f.kind <;> simp_all [step, StateKind.opensScope]

theorem step_type_congr_of_ne (hne : f.kind ≠ .field) (htype : c.type = c'.type) :
    (step s k c f).type = (step s k' c' f).type := by
  cases hkind : f.kind <;> simp_all [step]

end TypeContext

/-! ### The same parts entered at two places -/

/-- What is kept by entering one part is kept by entering several. -/
theorem ParserState.enter_related {r : ParserState → ParserState → Prop} {frames : List StateFrame}
    {x y : ParserState} (hstep : ∀ f ∈ frames, ∀ x y, r x y → r (.within f x) (.within f y)) (h : r x y) :
    r (x.enter frames) (y.enter frames) := by
  induction frames generalizing x y with
  | nil => exact h
  | cons f frames ih =>
    obtain ⟨hf, hframes⟩ := List.forall_mem_cons.1 hstep
    exact ih hframes (hf x y h)

open TypeContext

/-- **Two places have the same types to select from,** and the same arguments may follow. -/
structure SameScope (s : Schema) (x y : ParserState) : Prop where
  type : (ofState s x).type = (ofState s y).type
  parentType : (ofState s x).parentType = (ofState s y).parentType
  next : (ofState s x).argumentsAfter (some x.kind) = (ofState s y).argumentsAfter (some y.kind)

/-- Two places have the same arguments. -/
structure SameArguments (s : Schema) (x y : ParserState) : Prop extends SameScope s x y where
  argumentDefs : (ofState s x).argumentDefs = (ofState s y).argumentDefs

/-- Two places are in the same argument. -/
structure SameArgument (s : Schema) (x y : ParserState) : Prop extends SameArguments s x y where
  argumentDef : (ofState s x).argumentDef = (ofState s y).argumentDef

/-- Two places want values of the same type. -/
structure SameValue (s : Schema) (x y : ParserState) : Prop extends SameArgument s x y where
  inputType : (ofState s x).inputType = (ofState s y).inputType

/-- Two places are in objects of the same fields. -/
structure SameObject (s : Schema) (x y : ParserState) : Prop extends SameValue s x y where
  objectFieldDefs : (ofState s x).objectFieldDefs = (ofState s y).objectFieldDefs

variable {s : Schema} {x y : ParserState} {f : StateFrame} {frames inner after : List StateFrame}

theorem SameScope.within (h : SameScope s x y) (f : StateFrame) : SameScope s (.within f x) (.within f y) where
  type := step_type_congr h.type h.parentType
  parentType := step_parentType_congr h.type h.parentType
  next := argumentsAfter_step_congr h.type h.parentType

theorem SameArguments.within (h : SameArguments s x y) (f : StateFrame) :
    SameArguments s (.within f x) (.within f y) where
  toSameScope := h.toSameScope.within f
  argumentDefs := step_argumentDefs_congr h.next (.inr h.argumentDefs)

theorem SameArgument.within (h : SameArgument s x y) (f : StateFrame) :
    SameArgument s (.within f x) (.within f y) where
  toSameArguments := h.toSameArguments.within f
  argumentDef := step_argumentDef_congr h.argumentDefs (.inr h.argumentDef)

theorem SameValue.within (h : SameValue s x y) (hne : f.kind ≠ .objectField) :
    SameValue s (.within f x) (.within f y) where
  toSameArgument := h.toSameArgument.within f
  inputType := by
    apply step_inputType_congr h.argumentDefs (.inr h.inputType)
    intro hkind
    exact absurd hkind hne

theorem SameObject.within (h : SameObject s x y) (f : StateFrame) : SameObject s (.within f x) (.within f y) where
  toSameArgument := h.toSameArgument.within f
  inputType := step_inputType_congr h.argumentDefs (.inr h.inputType) fun _ => h.objectFieldDefs
  objectFieldDefs := step_objectFieldDefs_congr h.inputType (.inr h.objectFieldDefs)

/-! ### What parts settle -/

/-- A selection set takes its type from the part that it belongs to. -/
theorem sameScope_of_selectionSet (hset : f.kind = .selectionSet) (h : (ofState s x).type = (ofState s y).type) :
    SameScope s (.within f x) (.within f y) := by
  refine ⟨?_, ?_, ?_⟩
  · simp only [ofState, step, hset, h]
  · simp only [ofState, step, hset, h]
  · simp only [ParserState.kind, ParserState.frame, hset, argumentsAfter]

theorem SameScope.list (h : SameScope s x y) (hlist : f.kind = .arguments) :
    SameArguments s (.within f x) (.within f y) where
  toSameScope := h.within f
  argumentDefs := step_argumentDefs_congr h.next (.inl hlist)

theorem SameArguments.argument (h : SameArguments s x y) (hargument : f.kind = .argument) :
    SameValue s (.within f x) (.within f y) where
  toSameArguments := h.within f
  argumentDef := step_argumentDef_congr h.argumentDefs (.inl hargument)
  inputType := by
    apply step_inputType_congr h.argumentDefs (.inl hargument)
    intro hkind
    rw [hargument] at hkind
    cases hkind

theorem SameValue.object (h : SameValue s x y) (hobject : f.kind = .objectValue) :
    SameObject s (.within f x) (.within f y) where
  toSameValue := by
    apply h.within
    rw [hobject]
    simp
  objectFieldDefs := step_objectFieldDefs_congr h.inputType (.inl hobject)

/-! ### What several parts settle -/

theorem SameScope.enter (h : SameScope s x y) : SameScope s (x.enter frames) (y.enter frames) :=
  ParserState.enter_related (fun f _ _ _ h => h.within f) h

theorem SameArguments.enter (h : SameArguments s x y) : SameArguments s (x.enter frames) (y.enter frames) :=
  ParserState.enter_related (fun f _ _ _ h => h.within f) h

theorem SameArgument.enter (h : SameArgument s x y) : SameArgument s (x.enter frames) (y.enter frames) :=
  ParserState.enter_related (fun f _ _ _ h => h.within f) h

theorem SameObject.enter (h : SameObject s x y) : SameObject s (x.enter frames) (y.enter frames) :=
  ParserState.enter_related (fun f _ _ _ h => h.within f) h

theorem SameScope.enter_list (h : SameScope s x y) (hlist : ∃ f ∈ inner, f.kind = .arguments) :
    SameArguments s (x.enter inner) (y.enter inner) := by
  obtain ⟨list, hmem, hlist⟩ := hlist
  obtain ⟨before, rest, rfl⟩ := List.append_of_mem hmem
  rw [ParserState.enter_append, ParserState.enter_append]
  exact (h.enter.list hlist).enter

/-- **An argument is settled by the parts that enter it.** -/
theorem SameScope.exists_sameValue (h : SameScope s x y) (hargument : EntersArgument inner after) :
    ∃ x' y', x.enter inner = x'.enter after ∧ y.enter inner = y'.enter after ∧ SameValue s x' y' := by
  obtain ⟨before, list, between, argument, rfl, hlist, hargument⟩ := hargument
  have henter (z : ParserState) : z.enter (before ++ list :: (between ++ argument :: after)) =
      (ParserState.within argument ((z.enter (before ++ list :: between)))).enter after := by
    rw [ParserState.enter_append, ParserState.enter_append]
    exact ParserState.enter_append (.within list (z.enter before)) between (argument :: after)
  have harguments : SameArguments s (x.enter (before ++ list :: between)) (y.enter (before ++ list :: between)) :=
    h.enter_list ⟨list, List.mem_append_right _ List.mem_cons_self, hlist⟩
  exact ⟨_, _, henter x, henter y, harguments.argument hargument⟩

/-- **The type of a value is known alike further in,** as long as no field comes before an object. -/
theorem SameValue.enter (h : SameValue s x y) (hfields : FieldsInObjects after) :
    SameValue s (x.enter after) (y.enter after) := by
  induction after generalizing x y with
  | nil => exact h
  | cons f after ih =>
    -- From the first object on, fields agree as well. Up to it, the parts cannot be fields of an object.
    by_cases hobject : f.kind = .objectValue
    · have hsame : SameObject s ((ParserState.within f x).enter after) ((ParserState.within f y).enter after) :=
        (h.object hobject).enter
      exact hsame.toSameValue
    · have hne : f.kind ≠ .objectField := by
        intro hkind
        obtain ⟨o, ho, -⟩ := hfields [] f after rfl hkind
        cases ho
      refine ih (h.within hne) fun before g rest hsplit hkind => ?_
      obtain ⟨o, ho, hkind⟩ := hfields (f :: before) g rest (by rw [hsplit]; rfl) hkind
      rcases List.mem_cons.1 ho with rfl | ho
      · exact absurd hkind hobject
      · exact ⟨o, ho, hkind⟩

/-! ### Places at the ends of the same parts -/

/-- Something is selected in a selection set, and where a field is written. -/
theorem GrammarPosition.ofState?_eq_selection_iff : ofState? x = some .selection ↔
    x.kind = .selectionSet ∨ x.kind = .field ∨ x.kind = .aliasedField := by
  have hnamed (k : Option StateKind) : ofNamedType k ≠ some .selection := by
    unfold ofNamedType
    split <;> nofun
  unfold ofState?
  split <;> simp_all

/-- **What is offered to select depends on the type that selections are made from.** -/
theorem complete_congr (hx : GrammarPosition.ofState? x = some .selection)
    (hy : GrammarPosition.ofState? y = some .selection) (h : (ofState s x).parentType = (ofState s y).parentType)
    (token : CursorToken) : complete (some s) token x = complete (some s) token y := by
  have hcandidates : candidatesAt? s x = candidatesAt? s y := by
    rw [Schema.candidatesAt?_eq hx, Schema.candidatesAt?_eq hy, Candidate.at?, Candidate.at?, h]
  simp only [complete, Option.bind_eq_bind, Option.bind_some, hcandidates]

theorem SameScope.agreesWithin (h : SameScope s x y) (hkind : x.kind = y.kind) (inner : List StateFrame) :
    AgreesWithin s inner (x.enter inner) (y.enter inner) where
  type := h.enter.type
  parentType := h.enter.parentType
  argumentDefs hlist := (h.enter_list hlist).argumentDefs
  argumentDef after hargument := by
    obtain ⟨x', y', hx, hy, hvalue⟩ := h.exists_sameValue hargument
    rw [hx, hy]
    exact hvalue.toSameArgument.enter.argumentDef
  inputType after hargument hfields := by
    obtain ⟨x', y', hx, hy, hvalue⟩ := h.exists_sameValue hargument
    rw [hx, hy]
    exact (hvalue.enter hfields).inputType
  complete hposition := by
    have hinnermost : (x.enter inner).kind = (y.enter inner).kind :=
      ParserState.enter_related (r := fun x y => x.kind = y.kind) (fun _ _ _ _ _ => rfl) hkind
    have hposition' := GrammarPosition.ofState?_eq_selection_iff.1 hposition
    rw [hinnermost, ← GrammarPosition.ofState?_eq_selection_iff] at hposition'
    exact ⟨hposition', complete_congr hposition hposition' h.enter.parentType⟩

/-- The state of some parts is a state of the first of them, in which the others are entered. -/
theorem ParserState.exists_ofFrames?_append (outer : List StateFrame) (f : StateFrame) (frames : List StateFrame) :
    ∃ x : ParserState, ofFrames? (outer ++ f :: frames) = some (x.enter frames) ∧ x.frame = f := by
  cases outer with
  | nil => exact ⟨.root f, rfl, rfl⟩
  | cons g outer =>
    refine ⟨.within f ((root g).enter outer), ?_, rfl⟩
    exact congrArg some (ParserState.enter_append (.root g) outer (f :: frames))

/-- **A part that opens a scope has the same type wherever it stands.** -/
theorem type_ofState_of_opensScope (h : f.kind.opensScope = true) (hx : x.frame = f) (hy : y.frame = f) :
    (ofState s x).type = (ofState s y).type := by
  have hstep (z : ParserState) : ∃ k c, ofState s z = step s k c z.frame := by
    cases z with
    | root f => exact ⟨none, empty, rfl⟩
    | within f e => exact ⟨some e.kind, ofState s e, rfl⟩
  obtain ⟨k, c, hx'⟩ := hstep x
  obtain ⟨k', c', hy'⟩ := hstep y
  rw [hx', hy', hx, hy]
  exact step_type_of_opensScope h

/-- **What is around a scope does not matter in it:** two places at the ends of the same parts, of which the first ones
open a scope, agree on what was settled by the inner ones, whatever lies around. -/
theorem agreesWithin_of_opensScope (s : Schema) (outer outer' : List StateFrame) {frames inner : List StateFrame}
    (h : OpensScope frames inner) : ∃ x y, ParserState.ofFrames? (outer ++ frames) = some x ∧
      ParserState.ofFrames? (outer' ++ frames) = some y ∧ AgreesWithin s inner x y := by
  obtain ⟨first, before, set, rfl, hfirst, hbefore, hset⟩ := h
  obtain ⟨x, hx, hframe⟩ := ParserState.exists_ofFrames?_append outer first (before ++ set :: inner)
  obtain ⟨y, hy, hframe'⟩ := ParserState.exists_ofFrames?_append outer' first (before ++ set :: inner)
  -- Before the selection set, the places need to agree on no more than their type: only a field looks at more for it.
  have hopened : (ofState s x).type = (ofState s y).type :=
    type_ofState_of_opensScope hfirst hframe hframe'
  have htype : (ofState s (x.enter before)).type = (ofState s (y.enter before)).type :=
    ParserState.enter_related (r := fun x y => (ofState s x).type = (ofState s y).type)
      (fun f hf _ _ htype => step_type_congr_of_ne (hbefore f hf) htype) hopened
  have hscope : SameScope s (.within set (x.enter before)) (.within set (y.enter before)) :=
    sameScope_of_selectionSet hset htype
  refine ⟨_, _, hx, hy, ?_⟩
  rw [ParserState.enter_append, ParserState.enter_append]
  exact hscope.agreesWithin rfl inner

/-- A fragment with a directive, once in an object value of an unfinished argument and once by itself; in the fragment, an
argument of a field with an object. -/
theorem agreesWithin_of_unfinished_object : ∃ s x y,
    let inner : List StateFrame := [⟨.field, some "b", 0, none⟩, .new .arguments, ⟨.argument, some "y", 2, none⟩,
      .new .objectValue, ⟨.objectField, some "c", 2, none⟩]
    let frames : List StateFrame := ⟨.inlineFragment, none, 2, some "T"⟩ :: .new .directive :: .new .selectionSet :: inner
    Schema.ofSources [(none, "type Query { t(x: Out): T } type T { b(y: In): T }"),
        (none, "input In { c: Boolean } input Out { c: Int }")] = .ok s ∧
      ParserState.ofFrames? ([.new .query, .new .selectionSet, ⟨.field, some "t", 0, none⟩, .new .arguments,
        ⟨.argument, some "x", 2, none⟩, .new .objectValue] ++ frames) = some x ∧
      ParserState.ofFrames? ([] ++ frames) = some y ∧ OpensScope frames inner ∧ AgreesWithin s inner x y ∧
      (ofState s x).inputType = some (.annotated (.named "Boolean" true)) ∧
      (ofState s y).inputType = some (.annotated (.named "Boolean" true)) := by
  let inner : List StateFrame := [⟨.field, some "b", 0, none⟩, .new .arguments, ⟨.argument, some "y", 2, none⟩,
    .new .objectValue, ⟨.objectField, some "c", 2, none⟩]
  let frames : List StateFrame := ⟨.inlineFragment, none, 2, some "T"⟩ :: .new .directive :: .new .selectionSet :: inner
  have hopens : OpensScope frames inner :=
    ⟨⟨.inlineFragment, none, 2, some "T"⟩, [.new .directive], .new .selectionSet, rfl, rfl, by decide, rfl⟩
  have hargument : EntersArgument inner [.new .objectValue, ⟨.objectField, some "c", 2, none⟩] :=
    ⟨[⟨.field, some "b", 0, none⟩], .new .arguments, [], ⟨.argument, some "y", 2, none⟩, rfl, rfl, rfl⟩
  have hfields : FieldsInObjects [.new .objectValue, ⟨.objectField, some "c", 2, none⟩] := by
    intro before f after hsplit hkind
    cases before with
    | nil =>
      cases hsplit
      cases hkind
    | cons o before =>
      obtain ⟨rfl, -⟩ := List.cons.inj hsplit
      exact ⟨_, List.mem_cons_self, rfl⟩
  have htype : (do
      let s ← (Schema.ofSources [(none, "type Query { t(x: Out): T } type T { b(y: In): T }"),
        (none, "input In { c: Boolean } input Out { c: Int }")]).toOption
      let y ← ParserState.ofFrames? ([] ++ frames)
      return (ofState s y).inputType) = some (some (.annotated (.named "Boolean" true))) := by
    decide +kernel
  obtain ⟨s, hs, htype⟩ := Option.bind_eq_some_iff.1 htype
  obtain ⟨x, y, hx, hy, hagrees⟩ := agreesWithin_of_opensScope s [.new .query, .new .selectionSet,
    ⟨.field, some "t", 0, none⟩, .new .arguments, ⟨.argument, some "x", 2, none⟩, .new .objectValue] [] hopens
  rw [hy] at htype
  have htype : (ofState s y).inputType = some (.annotated (.named "Boolean" true)) := Option.some.inj htype
  exact ⟨s, x, y, eq_ok_of_toOption hs, hx, hy, hopens, hagrees, (hagrees.inputType _ hargument hfields).trans htype, htype⟩

end QueryAid
