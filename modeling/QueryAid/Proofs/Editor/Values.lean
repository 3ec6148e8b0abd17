import QueryAid.Proofs.Editor.Context
/-!
# The types of values

What type a value must have is found from the outside inwards, and the context keeps no more than the type of the
innermost value and the fields of the innermost object. That this is enough is said by a typing that looks at one value
at a time (`typeWithin`): wherever a value lies in an argument, the type known at it is the type that its way down from
the argument leads to, and none if the way leads nowhere (`inputType_of_spells`).

* `ofState_enter`, `foldl_settling`: the context of a place, from the parts on the way that settle something.
* `inputType_foldl_step`: each step of the way does to the known type what the typing says. Whatever fields were known
  before, an object settles them anew.
-/

namespace QueryAid

/-! ### What it means -/

/-- **A step from a value down to a value in it:** to an item of a list, or to a field of an object. -/
inductive ValueStep where
  | item
  | field (name : String)
  deriving DecidableEq

/-- **Parts spell a way down into a value:** a list for each step to an item, and an object and one of its fields for
each step to a field. -/
inductive ValueStep.Spells : List ValueStep → List StateFrame → Prop where
  | done : Spells [] []
  | item {f : StateFrame} {path : List ValueStep} {frames : List StateFrame} (hf : f.kind = .listValue)
    (h : Spells path frames) : Spells (.item :: path) (f :: frames)
  | field {object f : StateFrame} {name : String} {path : List ValueStep} {frames : List StateFrame}
    (hobject : object.kind = .objectValue) (hf : f.kind = .objectField) (hname : f.name = some name)
    (h : Spells path frames) : Spells (.field name :: path) (object :: f :: frames)

theorem ValueStep.Spells.kind_ne_arguments {path : List ValueStep} {frames : List StateFrame}
    (h : ValueStep.Spells path frames) : ∀ f ∈ frames, f.kind ≠ .arguments := by
  induction h with
  | done => nofun
  | item hf _ ih => simpa [hf] using ih
  | field hobject hf _ _ ih => simpa [hobject, hf] using ih

/-- **The type of a value within a value of a known type,** by the way down to it. Items are what lists consist of,
whether or not the list may be null, and fields are those of the input object under all layers. -/
def typeWithin (s : Schema) : TypeAnnotation → List ValueStep → Option TypeAnnotation
  | a, [] => some a
  | .list inner _, .item :: path => typeWithin s inner path
  | .named .., .item :: _ => none
  | a, .field name :: path =>
    match (s.type? a.namedType).map TypeDef.contents with
    | some (.inputObject fields) => (fields.find? name).bind fun f => typeWithin s f.type path
    | _ => none

namespace TypeContext

/-- **The arguments of a part** that is a field or a directive. -/
inductive HasArguments (s : Schema) (owner : ParserState) : Table InputValueDef → Prop where
  | field {f : FieldDef} (hkind : owner.kind = .field) (hf : (ofState s owner).fieldDef = some f) :
    HasArguments s owner f.arguments
  | directive {d : DirectiveDef} (hkind : owner.kind = .directive) (hd : (ofState s owner).directiveDef = some d) :
    HasArguments s owner d.arguments

variable {s : Schema} {c : TypeContext} {f : StateFrame} {state owner : ParserState} {frames : List StateFrame}
  {path : List ValueStep} {parameters : Table InputValueDef}

/-! ### The context of a place further in -/

/-- Parts that settle nothing can be left out. -/
theorem foldl_settling : (frames.filter fun f => !f.kind.settlesNothing).foldl (step s none) c =
    frames.foldl (step s none) c :=
  foldl_filter_step fun _ _ hf => step_of_settlesNothing (by simpa using hf) none

/-- The context further in, where no arguments are entered, follows from the one around it. -/
theorem ofState_enter (h : ∀ f ∈ frames, f.kind ≠ .arguments) :
    ofState s (state.enter frames) = frames.foldl (step s none) (ofState s state) := by
  induction frames generalizing state with
  | nil => rfl
  | cons f frames ih =>
    obtain ⟨hf, hframes⟩ := List.forall_mem_cons.1 h
    have henter : ofState s (.within f state) = step s none (ofState s state) f := step_eq_of_kind_ne hf _ _
    rw [List.foldl_cons, ← henter]
    exact ih hframes

/-! ### Steps down -/

theorem typeWithin_item (a : TypeAnnotation) :
    typeWithin s a (.item :: path) = a.element?.bind fun inner => typeWithin s inner path := by
  cases a <;> rfl

theorem typeWithin_field (a : TypeAnnotation) (name : String) : typeWithin s a (.field name :: path) =
    (member? ((s.namedType? a).bind TypeDef.inputFields?) (some name)).bind fun f => typeWithin s f.type path := by
  rw [typeWithin, Schema.namedType?]
  cases s.type? a.namedType with
  | none => rfl
  | some t =>
    rw [Option.map_some, Option.bind_some, TypeDef.inputFields?]
    cases t.contents <;> rfl

/-- **Every way down leads to the type that the typing says,** and nowhere from where no type is known. -/
theorem inputType_foldl_step (h : ValueStep.Spells path frames) {known : Option TypeAnnotation}
    (hknown : c.inputType = known.map .annotated) : (frames.foldl (step s none) c).inputType =
      (known.bind fun a => typeWithin s a path).map .annotated := by
  -- By induction on the way. Of the context, only the known type is spoken of: fields that were known before may be any.
  induction h generalizing c known with
  | done => cases known <;> exact hknown
  | @item f path frames hf _ ih =>
    have hstep : (step s none c f).inputType = (known.bind TypeAnnotation.element?).map .annotated := by
      simp only [step, hf, hknown]
      cases known <;> rfl
    rw [List.foldl_cons, ih hstep, Option.bind_assoc]
    simp only [typeWithin_item]
  | @field object f name path frames hobject hf hname _ ih =>
    have hstep : (step s none (step s none c object) f).inputType =
        (known.bind fun a => (member? ((s.namedType? a).bind TypeDef.inputFields?) (some name)).map
          InputValueDef.type).map .annotated := by
      simp only [step, hobject, hf, hname, hknown]
      cases known with
      | none => rfl
      | some a => rw [Option.bind_some, Option.map_map]; rfl
    rw [List.foldl_cons, List.foldl_cons, ih hstep, Option.bind_assoc]
    simp only [typeWithin_field, Option.bind_map]
    rfl

/-! ### Values in arguments -/

theorem HasArguments.argumentsAfter (h : HasArguments s owner parameters) :
    (ofState s owner).argumentsAfter (some owner.kind) = some parameters := by
  cases h with
  | field hkind hf => rw [hkind, TypeContext.argumentsAfter, hf, Option.map_some]
  | directive hkind hd => rw [hkind, TypeContext.argumentsAfter, hd, Option.map_some]

/-- The type known at an argument is the one that it is defined with. -/
theorem inputType_argument (howner : HasArguments s owner parameters) {a : InputValueDef}
    (ha : a ∈ parameters.entries) {list argument : StateFrame} (hlist : list.kind = .arguments)
    (hargument : argument.kind = .argument) (hname : argument.name = some a.name) (k : Option StateKind) :
    (step s k (ofState s (.within list owner)) argument).inputType = some (.annotated a.type) := by
  have hdefs : (ofState s (.within list owner)).argumentDefs = some parameters := by
    rw [← howner.argumentsAfter]
    simp only [ofState, step, hlist]
  have hfind : member? (some parameters) (some a.name) = some a := Table.find?_eq_some_iff.2 ⟨ha, rfl⟩
  simp only [step, hargument, hname, hdefs, hfind, Option.map_some]

/-- **The type known at a value is the one that its way down from the argument leads to,** whatever parts that settle
nothing lie between. -/
theorem inputType_of_spells (howner : HasArguments s owner parameters) {a : InputValueDef}
    (ha : a ∈ parameters.entries) {list argument : StateFrame} {way : List StateFrame} (hlist : list.kind = .arguments)
    (hargument : argument.kind = .argument) (hname : argument.name = some a.name)
    (hframes : (frames.filter fun f => !f.kind.settlesNothing) = argument :: way)
    (hspells : ValueStep.Spells path way) :
    (ofState s (owner.enter (list :: frames))).inputType = (typeWithin s a.type path).map .annotated := by
  -- A list of arguments settles something, so that it would have to be on the way.
  have hkinds : ∀ f ∈ frames, f.kind ≠ .arguments := by
    intro f hf hkind
    have hmem : f ∈ argument :: way := by
      rw [← hframes]
      exact List.mem_filter.2 ⟨hf, by rw [hkind]; rfl⟩
    rcases List.mem_cons.1 hmem with rfl | hmem
    · rw [hkind] at hargument
      cases hargument
    · exact hspells.kind_ne_arguments f hmem hkind
  have hknown : (step s none (ofState s (.within list owner)) argument).inputType = (some a.type).map .annotated :=
    inputType_argument howner ha hlist hargument hname none
  have henter : owner.enter (list :: frames) = (ParserState.within list owner).enter frames := rfl
  rw [henter, ofState_enter hkinds, ← foldl_settling, hframes, List.foldl_cons]
  exact inputType_foldl_step hspells hknown

/-- In `{ f(x: [[{ many: [{ self: … }] }]]) }`, through an input object that refers to itself, and in a field of it in
which nothing lies. -/
theorem inputType_in_nested_objects : ∃ s owner f a,
    Schema.ofSources [(none, "type Query { f(x: [[In!]]!): Int } input In { self: In, many: [In!]!, n: Int }")] = .ok s ∧
      owner = ParserState.enter (.new .query) [.new .selectionSet, .new .selection, ⟨.field, some "f", 0, none⟩] ∧
      (ofState s owner).fieldDef = some f ∧ a ∈ f.arguments.entries ∧ a.name = "x" ∧
      (ofState s (owner.enter (.new .arguments :: [⟨.argument, some "x", 2, none⟩, .new .value, .new .listValue,
        .new .listValue, .new .objectValue, .new .value, ⟨.objectField, some "many", 2, none⟩, .new .listValue,
        .new .objectValue, ⟨.objectField, some "self", 2, none⟩, .new .value]))).inputType =
          some (.annotated (.named "In" true)) ∧
      (ofState s (owner.enter (.new .arguments :: [⟨.argument, some "x", 2, none⟩, .new .listValue, .new .listValue,
        .new .objectValue, ⟨.objectField, some "n", 2, none⟩, .new .objectValue,
        ⟨.objectField, some "self", 2, none⟩]))).inputType = none := by
  let owner : ParserState :=
    .enter (.new .query) [.new .selectionSet, .new .selection, ⟨.field, some "f", 0, none⟩]
  have htypes : (do
      let s ← (Schema.ofSources
        [(none, "type Query { f(x: [[In!]]!): Int } input In { self: In, many: [In!]!, n: Int }")]).toOption
      let f ← (ofState s owner).fieldDef
      let a ← f.arguments.find? "x"
      return (typeWithin s a.type [.item, .item, .field "many", .item, .field "self"],
        typeWithin s a.type [.item, .item, .field "n", .field "self"])) = some (some (.named "In" true), none) := by
    decide +kernel
  obtain ⟨s, hs, htypes⟩ := Option.bind_eq_some_iff.1 htypes
  obtain ⟨f, hf, htypes⟩ := Option.bind_eq_some_iff.1 htypes
  obtain ⟨a, ha, htypes⟩ := Option.bind_eq_some_iff.1 htypes
  obtain ⟨hnested, hnowhere⟩ := Prod.mk.inj (Option.some.inj htypes)
  obtain ⟨ha, hname⟩ := Table.find?_eq_some_iff.1 ha
  have howner : HasArguments s owner f.arguments := .field rfl hf
  have hargument : some "x" = some a.name := congrArg some hname.symm
  refine ⟨s, owner, f, a, eq_ok_of_toOption hs, rfl, hf, ha, hname, ?_, ?_⟩
  · have hspells : ValueStep.Spells [.item, .item, .field "many", .item, .field "self"] [.new .listValue, .new .listValue,
        .new .objectValue, ⟨.objectField, some "many", 2, none⟩, .new .listValue, .new .objectValue,
        ⟨.objectField, some "self", 2, none⟩] :=
      .item rfl (.item rfl (.field rfl rfl rfl (.item rfl (.field rfl rfl rfl .done))))
    rw [inputType_of_spells howner ha rfl rfl hargument rfl hspells, hnested]
    rfl
  · have hspells : ValueStep.Spells [.item, .item, .field "n", .field "self"] [.new .listValue, .new .listValue,
        .new .objectValue, ⟨.objectField, some "n", 2, none⟩, .new .objectValue,
        ⟨.objectField, some "self", 2, none⟩] :=
      .item rfl (.item rfl (.field rfl rfl rfl (.field rfl rfl rfl .done)))
    rw [inputType_of_spells howner ha rfl rfl hargument rfl hspells, hnowhere]
    rfl

end TypeContext

end QueryAid
