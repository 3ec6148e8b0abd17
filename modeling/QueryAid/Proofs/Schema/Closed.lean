import QueryAid.Proofs.Schema.Building
/-!
# Schemas are closed

Whatever the sources, everything that a schema mentions is in it, and of a kind that is allowed there
(`closed_of_ofSources`). The types are not only those of the sources: the fields that the language adds refer to
types that must be there as well, which is why the proof looks at how a schema came about.
-/

namespace QueryAid

/-! ### What it means -/

/-- **A table is keyed by names:** no two entries share one, and a name finds the entry that bears it. -/
structure Table.Keyed {α : Type} [Named α] (t : Table α) : Prop where
  nodup : t.names.Nodup
  find : ∀ name a, t.find? name = some a ↔ a ∈ t.entries ∧ Named.name a = name

namespace Schema

/-- An annotation leads to a type that fields can have. -/
def IsOutputType (s : Schema) (a : TypeAnnotation) : Prop :=
  ∃ t, s.namedType? a = some t ∧ t.isInputObject = false

/-- An annotation leads to a type that arguments and input fields can have. -/
def IsInputType (s : Schema) (a : TypeAnnotation) : Prop := ∃ t, s.namedType? a = some t ∧ t.isInput = true

/-- The arguments of a field or directive are found under their names, and have types. -/
structure ClosedArguments (s : Schema) (arguments : Table InputValueDef) : Prop where
  keyed : arguments.Keyed
  types : ∀ a ∈ arguments.entries, s.IsInputType a.type

/-- A field has a type, and its arguments are in order. -/
structure ClosedField (s : Schema) (f : FieldDef) : Prop where
  type : s.IsOutputType f.type
  arguments : s.ClosedArguments f.arguments

/-- **Everything that a schema mentions is in it,** and of a kind that is allowed there. -/
structure Closed (s : Schema) : Prop where
  types : s.types.Keyed
  directives : s.directives.Keyed
  fieldNames : ∀ t ∈ s.types.entries, ∀ fields ∈ t.fields?, fields.Keyed
  inputFieldNames : ∀ t ∈ s.types.entries, ∀ fields ∈ t.inputFields?, fields.Keyed
  enumValueNames : ∀ t ∈ s.types.entries, ∀ values ∈ t.enumValues?, values.Keyed
  fields : ∀ t ∈ s.types.entries, ∀ fields ∈ t.fields?, ∀ f ∈ fields.entries, s.ClosedField f
  inputFields : ∀ t ∈ s.types.entries, ∀ fields ∈ t.inputFields?, ∀ f ∈ fields.entries, s.IsInputType f.type
  interfaces : ∀ t ∈ s.types.entries, ∀ interfaces ∈ t.interfaces?, ∀ i ∈ interfaces,
    ∃ u, s.type? i = some u ∧ u.isInterface = true
  members : ∀ t ∈ s.types.entries, ∀ members ∈ t.members?, ∀ m ∈ members,
    ∃ u, s.type? m = some u ∧ u.isObject = true
  directiveArguments : ∀ d ∈ s.directives.entries, s.ClosedArguments d.arguments
  roots : ∀ k name, s.rootName? k = some name →
    ∃ t, s.root? k = some t ∧ t.name = name ∧ t.isObject = true
  queryRoot : (s.root? .query).isSome = true
  metaFields : ∀ f ∈ [schemaMetaField, typeMetaField, typenameMetaField], s.ClosedField f

/-! ### References -/

section References

variable {s : Schema} {a : TypeAnnotation}

theorem isOutputType_iff : s.IsOutputType a ↔ Reference.InOrder s.types (a.namedType, .output) := by
  unfold IsOutputType Reference.InOrder Requirement.Allows
  simp only [← Bool.not_eq_true, TypeDef.isInputObject_iff]
  rfl

theorem isInputType_iff : s.IsInputType a ↔ Reference.InOrder s.types (a.namedType, .input) := by
  unfold IsInputType Reference.InOrder Requirement.Allows
  simp only [TypeDef.isInput_iff]
  rfl

theorem keyed {α : Type} [Named α] (t : Table α) : t.Keyed := ⟨t.nodup, fun _ _ => Table.find?_eq_some_iff⟩

theorem closedArguments_of_references {arguments : Table InputValueDef}
    (h : ∀ r ∈ arguments.entries.map InputValueDef.reference, Reference.InOrder s.types r) :
    s.ClosedArguments arguments :=
  ⟨keyed arguments, fun _ ha => isInputType_iff.2 (h _ (List.mem_map_of_mem ha))⟩

theorem closedField_of_references {f : FieldDef} (h : ∀ r ∈ f.references, Reference.InOrder s.types r) :
    s.ClosedField f := by
  rw [FieldDef.references, List.forall_mem_cons] at h
  exact ⟨isOutputType_iff.2 h.1, closedArguments_of_references h.2⟩

end References

end Schema

/-! ### Where the references of a type are -/

namespace TypeDef

variable {t : TypeDef}

theorem references_of_fields {fields : Table FieldDef} {f : FieldDef} {r : Reference}
    (h : fields ∈ t.fields?) (hf : f ∈ fields.entries) (hr : r ∈ f.references) : r ∈ t.contents.references := by
  have hmem : ∀ interfaces : List String, r ∈ interfaces.map (·, Requirement.interface) ++
      fields.entries.flatMap FieldDef.references :=
    fun _ => List.mem_append_right _ (List.mem_flatMap.2 ⟨f, hf, hr⟩)
  unfold fields? at h
  cases hc : t.contents with
  | object interfaces fields' | interface interfaces fields' =>
    obtain rfl : fields' = fields := by simpa [hc] using h
    exact hmem interfaces
  | _ => simp [hc] at h

theorem references_of_interfaces {interfaces : List String} {i : String}
    (h : interfaces ∈ t.interfaces?) (hi : i ∈ interfaces) :
    (i, Requirement.interface) ∈ t.contents.references := by
  unfold interfaces? at h
  cases hc : t.contents with
  | object interfaces' fields | interface interfaces' fields =>
    obtain rfl : interfaces' = interfaces := by simpa [hc] using h
    exact List.mem_append_left _ (List.mem_map_of_mem hi)
  | _ => simp [hc] at h

theorem references_of_inputFields {fields : Table InputValueDef} {f : InputValueDef}
    (h : fields ∈ t.inputFields?) (hf : f ∈ fields.entries) : f.reference ∈ t.contents.references := by
  unfold inputFields? at h
  cases hc : t.contents with
  | inputObject fields' =>
    obtain rfl : fields' = fields := by simpa [hc] using h
    exact List.mem_map_of_mem hf
  | _ => simp [hc] at h

theorem references_of_members {members : List String} {m : String}
    (h : members ∈ t.members?) (hm : m ∈ members) : (m, Requirement.object) ∈ t.contents.references := by
  unfold members? at h
  cases hc : t.contents with
  | union members' =>
    obtain rfl : members' = members := by simpa [hc] using h
    exact List.mem_map_of_mem hm
  | _ => simp [hc] at h

end TypeDef

/-! ### Schemas of sources -/

namespace Schema

variable {sources : List (Option String × String)} {s : Schema}

/-- A schema of sources was built from the definitions in them. -/
theorem exists_builds_of_ofSources (h : ofSources sources = .ok s) :
    ∃ S b, S.map Prod.snd = sources.flatMap (fun x => Sources.definitionsIn x.2) ∧
      SchemaBuilder.Loads S .new b ∧ b.Builds s := by
  obtain ⟨b, hload, hbuild⟩ := bind_eq_ok_iff.1 h
  obtain ⟨S, hdefinitions, hS⟩ := SchemaBuilder.exists_loads_of_foldlM_load hload
  exact ⟨S, b, hdefinitions, hS, SchemaBuilder.build_eq_ok_iff.1 hbuild⟩

/-- The references of types and directives are in order. -/
theorem references_inOrder (h : ofSources sources = .ok s) :
    (∀ t ∈ s.types.entries, ∀ r ∈ t.contents.references, r.InOrder s.types) ∧
    ∀ d ∈ s.directives.entries, ∀ r ∈ d.references, r.InOrder s.types := by
  obtain ⟨S, b, -, -, hbuilds⟩ := exists_builds_of_ofSources h
  exact checkReferences_eq_nil_iff.1 hbuilds.references

/-- References to what every schema has are in order. -/
theorem inOrder_of_isStandard (h : ofSources sources = .ok s) {r : Reference} (hr : r.IsStandard) :
    r.InOrder s.types := by
  obtain ⟨t, ht, hname, hallows⟩ := hr
  obtain ⟨S, b, -, hloads, hbuilds⟩ := exists_builds_of_ofSources h
  have hunextended : t ∈ S.unextendedTypes := by
    rcases List.mem_append.1 ht with ht | ht
    · exact List.mem_append_left _ (List.mem_append_left _ ht)
    · exact List.mem_append_right _ ht
  have hmem : t.extendedByAll S.extensions ∈ s.types.entries := by
    rw [(hloads.extended hbuilds.types).2]
    exact List.mem_map_of_mem hunextended
  -- An extension may have added to the type, but its name and kind are what they were.
  refine ⟨t.extendedByAll S.extensions, Table.find?_eq_some_iff.2 ⟨hmem, hname⟩, ?_⟩
  rw [TypeDef.kind_extendedByAll]
  exact hallows

/-- The references of the fields that the language adds are to what every schema has. -/
theorem closedField_of_mem_metaFields (h : ofSources sources = .ok s) {f : FieldDef}
    (hf : f ∈ [schemaMetaField, typeMetaField, typenameMetaField]) : s.ClosedField f := by
  have hstandard : ∀ f ∈ [schemaMetaField, typeMetaField, typenameMetaField], ∀ r ∈ f.references,
      r.IsStandard := by
    decide +kernel
  exact closedField_of_references fun r hr => inOrder_of_isStandard h (hstandard f hf r hr)

theorem closedField_of_mem_fields (h : ofSources sources = .ok s) {t : TypeDef} (ht : t ∈ s.types.entries)
    {fields : Table FieldDef} (hfields : fields ∈ t.fields?) {f : FieldDef} (hf : f ∈ fields.entries) :
    s.ClosedField f :=
  closedField_of_references fun r hr =>
    (references_inOrder h).1 t ht r (TypeDef.references_of_fields hfields hf hr)

/-- **Whatever a name selects from a type is in order,** be it a field of the type or one that the language adds. -/
theorem closedField_of_resolveField (h : ofSources sources = .ok s) {t : TypeDef} (ht : t ∈ s.types.entries)
    {name : String} {f : FieldDef} (hf : s.resolveField t name = some f) : s.ClosedField f := by
  have hmeta := @closedField_of_mem_metaFields sources s h
  unfold resolveField at hf
  split at hf
  · cases hf
    exact hmeta (by simp)
  · split at hf
    · cases hf
      exact hmeta (by simp)
    · split at hf
      · cases hf
        exact hmeta (by simp)
      · obtain ⟨fields, hfields, hfind⟩ := Option.bind_eq_some_iff.1 hf
        exact closedField_of_mem_fields h ht hfields (Table.find?_eq_some_iff.1 hfind).1

/-- A root that is named is an object type of that name. -/
theorem exists_root_of_rootName? (h : ofSources sources = .ok s) {k : OperationKind} {name : String}
    (hk : s.rootName? k = some name) : ∃ t, s.root? k = some t ∧ t.name = name ∧ t.isObject = true := by
  obtain ⟨S, b, -, -, hbuilds⟩ := exists_builds_of_ofSources h
  have hroot := (SchemaBuilder.resolveRoot_eq_ok_iff.1 (hbuilds.roots k)).2 name
  obtain ⟨-, t, hfind, hkind⟩ := hroot.1 hk
  refine ⟨t, ?_, (Table.find?_eq_some_iff.1 hfind).2, TypeDef.isObject_iff.2 hkind⟩
  rw [root?, hk]
  exact hfind

/-- **A schema that was built from sources is closed.** -/
theorem closed_of_ofSources (h : ofSources sources = .ok s) : s.Closed where
  types := keyed _
  directives := keyed _
  fieldNames _ _ fields _ := keyed fields
  inputFieldNames _ _ fields _ := keyed fields
  enumValueNames _ _ values _ := keyed values
  fields _ ht _ hfields _ hf := closedField_of_mem_fields h ht hfields hf
  inputFields t ht _ hfields _ hf :=
    isInputType_iff.2 ((references_inOrder h).1 t ht _ (TypeDef.references_of_inputFields hfields hf))
  interfaces t ht _ hinterfaces i hi := by
    obtain ⟨u, hfind, hkind⟩ :=
      (references_inOrder h).1 t ht _ (TypeDef.references_of_interfaces hinterfaces hi)
    exact ⟨u, hfind, TypeDef.isInterface_iff.2 hkind⟩
  members t ht _ hmembers m hm := by
    obtain ⟨u, hfind, hkind⟩ := (references_inOrder h).1 t ht _ (TypeDef.references_of_members hmembers hm)
    exact ⟨u, hfind, TypeDef.isObject_iff.2 hkind⟩
  directiveArguments d hd := closedArguments_of_references ((references_inOrder h).2 d hd)
  roots _ _ hk := exists_root_of_rootName? h hk
  queryRoot := by
    obtain ⟨t, ht, -⟩ := exists_root_of_rootName? (k := .query) h rfl
    rw [ht]
    rfl
  metaFields _ hf := closedField_of_mem_metaFields h hf

/-- A schema of which the root of queries is extended before it is defined is closed. -/
theorem closed_of_early_extension :
    ∃ s, ofSources [(none, "extend type Query { f(x: In, y: [Int] = [1]): U }"),
        (some "b", "union U = Query input In { y: Boolean } type Query { a: [Int!]! @deprecated }")] = .ok s ∧
      s.Closed := by
  obtain ⟨s, hs⟩ := exists_eq_ok_of_isOk (x := ofSources
    [(none, "extend type Query { f(x: In, y: [Int] = [1]): U }"),
      (some "b", "union U = Query input In { y: Boolean } type Query { a: [Int!]! @deprecated }")])
    (by decide +kernel)
  exact ⟨s, hs, closed_of_ofSources hs⟩

end Schema

end QueryAid
