import QueryAid.Editor.Completion
import QueryAid.Proofs.Lint.Order
import QueryAid.Proofs.Lint.Wording
import QueryAid.Proofs.Schema.Contents
import QueryAid.Proofs.Schema.Names
/-!
# The fields that an editor offers

What can be selected from a type is decided in three places: a field is looked up by its name, an editor lists fields,
and the validation refuses those that do not exist. `offersSelections_of_ofSources` says that the three agree.

* `selectable`: the fields of a type together with those that the language adds to it, in one list. No two of them have
  one name, since a source cannot take a name of the language (`nodup_selectable`).
* `resolveField_eq_some_iff` and `selections_eq`: looking up finds the fields of this list, and the editor lists them.
* `mem_types_of_parentType`: the types that an editor knows are types of the schema.
-/

namespace QueryAid

/-! ### The fields that can be selected -/

namespace Schema

variable {s : Schema} {t : TypeDef} {f : FieldDef} {name : String}

/-- The fields that the language adds to a type. -/
def addedFields (s : Schema) (t : TypeDef) : List FieldDef :=
  (if t.isComposite then [typenameMetaField] else []) ++
    (if s.isQueryRoot t then [schemaMetaField, typeMetaField] else [])

/-- **The fields that can be selected from a type:** its own, and those that the language adds to it. -/
def selectable (s : Schema) (t : TypeDef) : List FieldDef := t.ownFields ++ s.addedFields t

theorem addedFields_sublist : (s.addedFields t).Sublist [typenameMetaField, schemaMetaField, typeMetaField] := by
  have htypename : (if t.isComposite then [typenameMetaField] else []).Sublist [typenameMetaField] := by
    split
    · exact List.Sublist.refl _
    · exact List.nil_sublist _
  have hroot : (if s.isQueryRoot t then [schemaMetaField, typeMetaField] else []).Sublist
      [schemaMetaField, typeMetaField] := by
    split
    · exact List.Sublist.refl _
    · exact List.nil_sublist _
  exact htypename.append hroot

/-- The fields that the language adds have names that belong to it. -/
theorem isReserved_of_mem_addedFields (hf : f ∈ s.addedFields t) : isReserved f.name = true := by
  have hall : ∀ f ∈ [typenameMetaField, schemaMetaField, typeMetaField], isReserved f.name = true := by
    decide +kernel
  exact hall f (addedFields_sublist.subset hf)

theorem mem_addedFields_iff : f ∈ s.addedFields t ↔
    t.isComposite = true ∧ f = typenameMetaField ∨
      s.isQueryRoot t = true ∧ (f = schemaMetaField ∨ f = typeMetaField) := by
  unfold addedFields
  rw [List.mem_append]
  refine or_congr ?_ ?_
  · split <;> simp_all
  · split <;> simp_all

/-- **No two fields that can be selected have one name,** if no own one has a name of the language. -/
theorem nodup_selectable (hown : ∀ f ∈ t.ownFields, isReserved f.name = false) :
    ((s.selectable t).map FieldDef.name).Nodup := by
  have hadded : ((s.addedFields t).map FieldDef.name).Nodup :=
    (addedFields_sublist.map FieldDef.name).nodup (by decide +kernel)
  rw [selectable, List.map_append]
  refine List.Nodup.append TypeDef.nodup_ownFields hadded fun name hname hname' => ?_
  obtain ⟨f, hf, rfl⟩ := List.mem_map.1 hname
  obtain ⟨added, hadded, heq⟩ := List.mem_map.1 hname'
  exact ne_of_isReserved (hown f hf) (isReserved_of_mem_addedFields hadded) heq.symm

/-- **Looking up a name finds the field of that name** among those that can be selected. -/
theorem resolveField_eq_some_iff (hown : ∀ f ∈ t.ownFields, isReserved f.name = false) :
    s.resolveField t name = some f ↔ f ∈ s.selectable t ∧ f.name = name := by
  have hne : ∀ f ∈ t.ownFields, ∀ reserved, isReserved reserved = true → (f.name == reserved) = false := by
    intro f hf reserved hreserved
    exact beq_eq_false_iff_ne.2 (ne_of_isReserved (hown f hf) hreserved)
  unfold resolveField
  rw [selectable, List.mem_append]
  constructor
  · -- Each branch gives a field of the name that is asked for.
    intro h
    split at h
    · next hname =>
      obtain ⟨hname, hroot⟩ := Bool.and_eq_true_iff.1 hname
      obtain rfl := Option.some.inj h
      exact ⟨.inr (mem_addedFields_iff.2 (.inr ⟨hroot, .inl rfl⟩)), (eq_of_beq hname).symm⟩
    · split at h
      · next hname =>
        obtain ⟨hname, hroot⟩ := Bool.and_eq_true_iff.1 hname
        obtain rfl := Option.some.inj h
        exact ⟨.inr (mem_addedFields_iff.2 (.inr ⟨hroot, .inr rfl⟩)), (eq_of_beq hname).symm⟩
      · split at h
        · next hname =>
          obtain ⟨hname, hcomposite⟩ := Bool.and_eq_true_iff.1 hname
          obtain rfl := Option.some.inj h
          exact ⟨.inr (mem_addedFields_iff.2 (.inl ⟨hcomposite, rfl⟩)), (eq_of_beq hname).symm⟩
        · obtain ⟨hf, hname⟩ := TypeDef.ownField_eq_some_iff.1 h
          exact ⟨.inl hf, hname⟩
  · -- The name of an own field is none of the three that are looked at first.
    rintro ⟨hf | hf, rfl⟩
    · simp only [hne f hf "__schema" (by decide +kernel), hne f hf "__type" (by decide +kernel),
        hne f hf "__typename" (by decide +kernel), Bool.false_and, Bool.false_eq_true, if_false]
      exact TypeDef.ownField_eq_some_iff.2 ⟨hf, rfl⟩
    · rcases mem_addedFields_iff.1 hf with ⟨hcomposite, rfl⟩ | ⟨hroot, rfl | rfl⟩
      · simp [typenameMetaField, hcomposite]
      · simp [schemaMetaField, hroot]
      · simp [typeMetaField, hroot]

/-- The own fields of a type of a schema have no names of the language. -/
theorem not_isReserved_of_mem_ownFields {sources : List (Option String × String)} (h : ofSources sources = .ok s)
    (ht : t ∈ s.types.entries) (hf : f ∈ t.ownFields) : isReserved f.name = false := by
  refine not_isReserved_of_mem_guardedNames h ht ?_
  unfold TypeDef.ownFields TypeDef.fields? at hf
  unfold TypeContents.guardedNames
  split at hf
  · next hcontents =>
    rw [hcontents]
    exact List.mem_flatMap.2 ⟨f, hf, List.mem_cons_self⟩
  · next hcontents =>
    rw [hcontents]
    exact List.mem_flatMap.2 ⟨f, hf, List.mem_cons_self⟩
  · cases hf

end Schema

/-! ### What the editor lists -/

namespace Candidate

variable {s : Schema} {t : TypeDef}

/-- **The editor lists the fields that can be selected,** except for the name of the type if this is an object. -/
theorem selections_eq (hown : ∀ f ∈ t.ownFields, isReserved f.name = false) :
    selections s t =
      ((s.selectable t).filter fun f => !(t.isObject && f.name == "__typename")).map ofField := by
  have hownFields : t.ownFields.filter (fun f => !(t.isObject && f.name == "__typename")) = t.ownFields := by
    refine List.filter_eq_self.2 fun f hf => ?_
    have hname : f.name ≠ "__typename" := ne_of_isReserved (hown f hf) (by decide +kernel)
    rw [beq_eq_false_iff_ne.2 hname, Bool.and_false, Bool.not_false]
  have htypename : (if t.isComposite then [typenameMetaField] else []).filter
      (fun f => !(t.isObject && f.name == "__typename")) = if t.isAbstract then [typenameMetaField] else [] := by
    have hkinds : t.isAbstract = true → t.isObject = false := by
      intro habstract
      rcases Bool.or_eq_true_iff.1 habstract with hkind | hkind
      · rw [TypeDef.isObject, eq_of_beq hkind]
        rfl
      · rw [TypeDef.isObject, eq_of_beq hkind]
        rfl
    cases habstract : t.isAbstract with
    | true => simp [TypeDef.isComposite, habstract, hkinds habstract]
    | false => cases hobject : t.isObject <;> simp [TypeDef.isComposite, habstract, hobject, typenameMetaField]
  have hroot : (if s.isQueryRoot t then [schemaMetaField, typeMetaField] else []).filter
      (fun f => !(t.isObject && f.name == "__typename")) =
        if s.isQueryRoot t then [schemaMetaField, typeMetaField] else [] := by
    split <;> simp [schemaMetaField, typeMetaField]
  rw [Schema.selectable, Schema.addedFields, List.filter_append, List.filter_append, hownFields, htypename, hroot,
    ← List.append_assoc]
  rfl

end Candidate

/-! ### The types that the editor knows -/

namespace TypeContext

variable {s : Schema} {c : TypeContext} {f : StateFrame} {k : Option StateKind} {t : TypeDef}

/-- What is known by itself and what selections are made from are types of the schema. -/
structure Within (s : Schema) (c : TypeContext) : Prop where
  type : ∀ t, c.type = some (.named t) → t ∈ s.types.entries
  parentType : ∀ t, c.parentType = some t → t ∈ s.types.entries

/-- A part of a document settles types that are found in the schema, or keeps what is known. -/
theorem Within.step (h : c.Within s) : (step s k c f).Within s := by
  have hroot : ∀ k t, (s.root? k).map ContextType.named = some (.named t) → t ∈ s.types.entries := by
    intro k t ht
    obtain ⟨u, hu, hut⟩ := Option.map_eq_some_iff.1 ht
    exact ContextType.named.inj hut ▸ Schema.mem_types_of_root? hu
  have hcondition : ∀ t, (f.typeName.bind s.type?).map ContextType.named = some (.named t) → t ∈ s.types.entries := by
    intro t ht
    obtain ⟨u, hu, hut⟩ := Option.map_eq_some_iff.1 ht
    obtain ⟨name, -, hfind⟩ := Option.bind_eq_some_iff.1 hu
    exact ContextType.named.inj hut ▸ Schema.mem_types_of_type? hfind
  have hnamed : ∀ t, c.type.bind (ContextType.namedType? s) = some t → t ∈ s.types.entries := by
    intro t ht
    obtain ⟨type, htype, htypeNamed⟩ := Option.bind_eq_some_iff.1 ht
    cases type with
    | annotated a => exact Schema.mem_types_of_type? htypeNamed
    | named u =>
      obtain rfl := Option.some.inj htypeNamed
      exact h.type u htype
  unfold TypeContext.step
  split
  · exact ⟨hroot .query, h.parentType⟩
  · exact ⟨hroot .query, h.parentType⟩
  · exact ⟨hroot .mutation, h.parentType⟩
  · exact ⟨hroot .subscription, h.parentType⟩
  · exact ⟨hcondition, h.parentType⟩
  · exact ⟨hcondition, h.parentType⟩
  · refine ⟨fun t ht => ?_, h.parentType⟩
    obtain ⟨field, -, hfield⟩ := Option.map_eq_some_iff.1 ht
    cases hfield
  · exact ⟨h.type, hnamed⟩
  all_goals exact ⟨h.type, h.parentType⟩

theorem within_ofState (state : ParserState) : (ofState s state).Within s := by
  induction state with
  | root f => exact Within.step ⟨nofun, nofun⟩
  | within f e ih => exact ih.step

/-- **The type that selections are made from is a type of the schema.** -/
theorem mem_types_of_parentType {state : ParserState} (h : (ofState s state).parentType = some t) :
    t ∈ s.types.entries :=
  (within_ofState state).parentType t h

end TypeContext

/-! ### The validation agrees -/

namespace Schema

variable {sources : List (Option String × String)} {s : Schema} {t : TypeDef}

/-- There are no quotation marks in the names of types. -/
theorem quote_not_mem_of_mem_types (h : ofSources sources = .ok s) (ht : t ∈ s.types.entries) :
    '"' ∉ t.name.toList := by
  intro hmem
  have hcontinue := isNameContinue_of_mem_of_isIdentifier (isIdentifier_of_mem_types h ht) _ hmem
  exact absurd hcontinue (by decide)

/-- **A field that exists is never said to be unknown.** -/
theorem message_ne_unknownField (h : ofSources sources = .ok s) (ht : t ∈ s.types.entries) {name : String}
    (hname : (s.resolveField t name).isSome) {d : Document} {e : ValidationError} (he : e ∈ validate s d) :
    e.message ≠ (Violation.unknownField name t.name).message := by
  intro hmessage
  obtain ⟨v, n, rfl, hmissing⟩ := Validation.checkDocument_reports e (mem_sortErrors_iff.1 he)
  obtain ⟨name', parent, rfl⟩ := Violation.exists_eq_unknownField hmessage
  obtain ⟨u, hu, rfl, hnone⟩ := hmissing
  obtain ⟨rfl, hparent⟩ := Violation.eq_of_message_unknownField (quote_not_mem_of_mem_types h hu)
    (quote_not_mem_of_mem_types h ht) hmessage
  have hut : u = t := List.inj_on_of_nodup_map s.types.nodup hu ht hparent
  rw [← hut, hnone] at hname
  cases hname

end Schema

/-! ### All three together -/

namespace Candidate

/-- **What is offered where something is selected** are the fields that exist, each once and as it is defined, and none
of which the validation says that it does not exist. The name of an object's type is not offered. -/
structure OffersSelections (s : Schema) (parent : TypeDef) (candidates : List Candidate) : Prop where
  nodup : (candidates.map text).Nodup
  offered_iff : ∀ name, name ∈ candidates.map text ↔
    (s.resolveField parent name).isSome ∧ ¬ (parent.isObject = true ∧ name = "__typename")
  described : ∀ c ∈ candidates, ∃ f, s.resolveField parent c.text = some f ∧
    c.type = some (.annotated f.type) ∧ c.description = f.description
  accepted : ∀ d, ∀ e ∈ validate s d, ∀ c ∈ candidates,
    e.message ≠ (Violation.unknownField c.text parent.name).message

variable {sources : List (Option String × String)} {s : Schema} {parent : TypeDef}

theorem offersSelections_selections (h : Schema.ofSources sources = .ok s) (hparent : parent ∈ s.types.entries) :
    OffersSelections s parent (selections s parent) := by
  have hown : ∀ f ∈ parent.ownFields, isReserved f.name = false :=
    fun f hf => Schema.not_isReserved_of_mem_ownFields h hparent hf
  have hresolve : ∀ {name f}, s.resolveField parent name = some f ↔ f ∈ s.selectable parent ∧ f.name = name :=
    Schema.resolveField_eq_some_iff hown
  have hdescribed : ∀ c ∈ selections s parent, ∃ f, s.resolveField parent c.text = some f ∧
      c.type = some (.annotated f.type) ∧ c.description = f.description := by
    intro c hc
    rw [selections_eq hown] at hc
    obtain ⟨f, hf, rfl⟩ := List.mem_map.1 hc
    exact ⟨f, hresolve.2 ⟨(List.mem_filter.1 hf).1, rfl⟩, rfl, rfl⟩
  refine ⟨?_, fun name => ?_, hdescribed, fun d e he c hc => ?_⟩
  · rw [selections_eq hown, List.map_map]
    exact (Schema.nodup_selectable hown).sublist (List.filter_sublist.map _)
  · rw [selections_eq hown, List.map_map, List.mem_map]
    constructor
    · rintro ⟨f, hf, rfl⟩
      obtain ⟨hf, hkept⟩ := List.mem_filter.1 hf
      refine ⟨Option.isSome_iff_exists.2 ⟨f, hresolve.2 ⟨hf, rfl⟩⟩, ?_⟩
      rintro ⟨hobject, hname⟩
      have hname : f.name = "__typename" := hname
      rw [hobject, hname] at hkept
      exact absurd hkept (by decide +kernel)
    · rintro ⟨hsome, hnot⟩
      obtain ⟨f, hfield⟩ := Option.isSome_iff_exists.1 hsome
      obtain ⟨hf, hname⟩ := hresolve.1 hfield
      refine ⟨f, List.mem_filter.2 ⟨hf, ?_⟩, hname⟩
      rw [← hname] at hnot
      simpa [← Bool.not_eq_true, imp_iff_not_or] using hnot
  · obtain ⟨f, hf, -⟩ := hdescribed c hc
    exact Schema.message_ne_unknownField h hparent (Option.isSome_iff_exists.2 ⟨f, hf⟩) he

/-- **Where something is selected from a type that is known, the fields that exist are offered.** -/
theorem offersSelections_of_ofSources {state : ParserState} (h : Schema.ofSources sources = .ok s)
    (hposition : GrammarPosition.ofState? state = some .selection)
    (hparent : (TypeContext.ofState s state).parentType = some parent) :
    ∃ candidates, candidatesAt? s state = some candidates ∧ OffersSelections s parent candidates := by
  have hcandidates : candidatesAt? s state = some (selections s parent) := by
    rw [candidatesAt?, hposition, Option.bind_eq_bind, Option.bind_some, at?, hparent, Option.map_some]
  exact ⟨_, hcandidates, offersSelections_selections h (TypeContext.mem_types_of_parentType hparent)⟩

/-- The root of queries is called `R`, and an interface is selected from below it. -/
theorem offersSelections_below_renamed_root : ∃ s parent candidates state,
    Schema.ofSources [(none, "schema { query: R } type R { a: I } interface I { b: R }")] = .ok s ∧
      state = ParserState.enter (.new .query) [.new .selectionSet, ⟨.field, some "a", 0, none⟩, .new .selectionSet] ∧
      (TypeContext.ofState s state).parentType = some parent ∧ candidatesAt? s state = some candidates ∧
      OffersSelections s parent candidates ∧ candidates.map text = ["b", "__typename"] := by
  let state : ParserState :=
    ParserState.enter (.new .query) [.new .selectionSet, ⟨.field, some "a", 0, none⟩, .new .selectionSet]
  have htexts : (do
      let s ← (Schema.ofSources [(none, "schema { query: R } type R { a: I } interface I { b: R }")]).toOption
      let parent ← (TypeContext.ofState s state).parentType
      return (candidatesAt? s state).map (List.map text)) = some (some ["b", "__typename"]) := by
    decide +kernel
  obtain ⟨s, hs, htexts⟩ := Option.bind_eq_some_iff.1 htexts
  obtain ⟨parent, hparent, htexts⟩ := Option.bind_eq_some_iff.1 htexts
  obtain ⟨candidates, hcandidates, hoffers⟩ := offersSelections_of_ofSources (eq_ok_of_toOption hs) rfl hparent
  rw [hcandidates] at htexts
  have htexts : candidates.map text = ["b", "__typename"] := Option.some.inj (Option.some.inj htexts)
  exact ⟨s, parent, candidates, state, eq_ok_of_toOption hs, rfl, hparent, hcandidates, hoffers, htexts⟩

end Candidate

end QueryAid
