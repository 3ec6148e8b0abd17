import QueryAid.Proofs.Schema.Assembled
import QueryAid.Proofs.Schema.Contents
import Mathlib.Data.List.Forall2
/-!
# Repeated names

A schema cannot be built if two things of one sort bear the same name: types, directives, interfaces and members of a
type, even if these come from several sources. Arguments are the exception. They are put into a table as they are, in
which an argument takes the place of an earlier one of its name. So the arguments of a field or directive are those that
are declared exactly if their names are distinct, and nothing in the builder sees to that
(`refusesRepetition_of_ofSources`, `exists_repeated_argument`).
-/

namespace QueryAid

/-! ### Arguments that are kept -/

/-- **All declared arguments are kept,** in order. -/
def KeepsArguments (arguments : Table InputValueDef) (file : String) (declared : List Sdl.InputValue) : Prop :=
  List.Forall₂ (fun a v => a.Declares file v) arguments.entries declared

section KeepsArguments

variable {arguments : Table InputValueDef} {file : String} {declared : List Sdl.InputValue}

theorem KeepsArguments.names_eq (h : KeepsArguments arguments file declared) :
    arguments.names = declared.map Sdl.InputValue.name := by
  have hnames : List.Forall₂ (fun a v => Named.name a = Sdl.InputValue.name v) arguments.entries declared :=
    h.imp fun _ _ hdeclares => hdeclares.name
  rw [Table.names, ← List.forall₂_eq_eq_eq, List.forall₂_map_left_iff, List.forall₂_map_right_iff]
  exact hnames

/-- **Declared arguments are all kept exactly if no two of them share a name.** -/
theorem keepsArguments_ofList_iff :
    KeepsArguments (.ofList (declared.map (InputValueDef.ofSource file))) file declared ↔
      (declared.map Sdl.InputValue.name).Nodup := by
  constructor
  · intro h
    rw [← h.names_eq]
    exact Table.nodup _
  · intro h
    have hnames : (declared.map (InputValueDef.ofSource file)).map Named.name = declared.map Sdl.InputValue.name :=
      Table.map_name_map fun _ => rfl
    rw [KeepsArguments, Table.entries_ofList_of_nodup (hnames ▸ h), List.forall₂_map_left_iff, List.forall₂_same]
    exact fun v _ => InputValueDef.declares_ofSource file v

end KeepsArguments

/-! ### What it means -/

/-- The names of the directives among definitions, in order. -/
def Sdl.directiveNames (definitions : List Definition) : List String :=
  definitions.filterMap fun
    | .directive d => some d.name
    | _ => none

/-- **Nothing is declared twice, apart from arguments,** when these are the definitions in the sources. A field or
directive has all of its declared arguments exactly if their names are distinct. -/
structure Schema.RefusesRepetition (s : Schema) (definitions : List Sdl.Definition) : Prop where
  types : ∀ name, (Sdl.definitionBodies definitions name).length ≤ 1
  directives : (Sdl.directiveNames definitions).Nodup
  interfaces : ∀ name, ((Sdl.writtenBodies definitions name).flatMap Sdl.TypeBody.interfaceNames).Nodup
  members : ∀ name, ((Sdl.writtenBodies definitions name).flatMap Sdl.TypeBody.memberNames).Nodup
  fieldArguments : ∀ name, ∀ body ∈ Sdl.writtenBodies definitions name, ∀ f ∈ body.fields,
    ∃ t file, ∃ d ∈ t.ownFields, s.type? name = some t ∧ d.Declares file f ∧
      (KeepsArguments d.arguments file f.arguments ↔ (f.arguments.map Sdl.InputValue.name).Nodup)
  directiveArguments : ∀ v, .directive v ∈ definitions →
    ∃ d file, s.directive? v.name = some d ∧ d.Declares file v ∧
      (KeepsArguments d.arguments file v.arguments ↔ (v.arguments.map Sdl.InputValue.name).Nodup)

/-! ### Where it comes from -/

namespace Sources

variable {S : Sources}

/-- The names of the directives, their files aside. -/
theorem directiveNames_map_snd (S : Sources) :
    Sdl.directiveNames (S.map Prod.snd) = S.directives.map fun x => x.2.name := by
  rw [Sdl.directiveNames, List.filterMap_map, directives, List.map_filterMap]
  refine List.filterMap_congr fun x _ => ?_
  obtain ⟨file, d⟩ := x
  cases d <;> rfl

end Sources

namespace TypeDef.Assembled

variable {t : TypeDef} {base : TypeContents} {bodies : List (String × Sdl.TypeBody)}

/-- No interface is taken in twice. -/
theorem nodup_interfaceNames (h : t.Assembled base bodies) :
    ((bodies.map Prod.snd).flatMap Sdl.TypeBody.interfaceNames).Nodup := by
  rw [List.flatMap_map]
  exact (TypeContents.mergeable_iff.1 h.mergeable).2.1.1

/-- No member is taken in twice. -/
theorem nodup_memberNames (h : t.Assembled base bodies) :
    ((bodies.map Prod.snd).flatMap Sdl.TypeBody.memberNames).Nodup := by
  rw [List.flatMap_map]
  exact (TypeContents.mergeable_iff.1 h.mergeable).2.2.1

/-- A field of a body is a field of the type. -/
theorem ofSource_mem_ownFields (h : t.Assembled base bodies) {b : String × Sdl.TypeBody} (hb : b ∈ bodies)
    {f : Sdl.Field} (hf : f ∈ b.2.fields) : FieldDef.ofSource b.1 f ∈ t.ownFields := by
  have hmember : Sdl.Member.field f ∈ b.2.members := by
    unfold Sdl.TypeBody.fields at hf
    cases hbody : b.2 with
    | object | interface =>
      rw [hbody] at hf
      exact List.mem_map_of_mem hf
    | _ => simp [hbody] at hf
  rw [TypeDef.mem_ownFields_iff, h.contents, TypeContents.members_plusAll h.mergeable]
  exact List.mem_append_right _ (List.mem_flatMap.2 ⟨b, hb, List.mem_map_of_mem hmember⟩)

end TypeDef.Assembled

namespace Schema

variable {sources : List (Option String × String)} {s : Schema}

/-- What is written for a name is written for a type of the schema. -/
theorem exists_type?_of_mem_writtenBodies (h : ofSources sources = .ok s) {name : String} {body : Sdl.TypeBody}
    (hbody : body ∈ Sdl.writtenBodies (sources.flatMap fun x => Sources.definitionsIn x.2) name) :
    ∃ t, s.type? name = some t := by
  obtain ⟨S, b, hdefinitions, hloads, hbuilds⟩ := exists_builds_of_ofSources h
  have htypes : ∀ u ∈ S.unextendedTypes, ∃ t, s.type? u.name = some t := by
    intro u hu
    refine ⟨u.extendedByAll S.extensions, Table.find?_eq_some_iff.2 ⟨?_, rfl⟩⟩
    rw [(hloads.extended hbuilds.types).2]
    exact List.mem_map_of_mem hu
  rw [← hdefinitions, Sdl.writtenBodies, List.mem_append] at hbody
  rcases hbody with hdefined | hextended
  · rw [S.definitionBodies_map_snd] at hdefined
    obtain ⟨x, hx, -⟩ := List.mem_map.1 hdefined
    obtain ⟨hmem, hname⟩ := List.mem_filter.1 hx
    rw [← eq_of_beq hname]
    exact htypes _ (Sources.mem_unextendedTypes_iff.2 (.inr (.inl ⟨x, hmem, rfl⟩)))
  · rw [← S.map_snd_bodiesFor] at hextended
    obtain ⟨x, hx, -⟩ := List.mem_map.1 hextended
    obtain ⟨p, hp, rfl, -⟩ := mem_bodiesFor_iff.1 hx
    -- An extension can only be applied if there is a type of its name.
    have happlied := (SchemaBuilder.foldlM_applyExtension_eq_ok_iff.1 hbuilds.types).1
    obtain ⟨u, hu, hname⟩ := Table.mem_names.1 (happlied p (hloads.extensions ▸ hp))
    rw [hloads.entries_unextended] at hu
    rw [← hname]
    exact htypes u hu

/-- **What is written for a name is what a type of the schema is put together from.** -/
theorem exists_assembled_of_mem_writtenBodies (h : ofSources sources = .ok s) {name : String} {body : Sdl.TypeBody}
    (hbody : body ∈ Sdl.writtenBodies (sources.flatMap fun x => Sources.definitionsIn x.2) name) :
    ∃ t base bodies, s.type? name = some t ∧ t.Assembled base bodies ∧
      bodies.map Prod.snd = Sdl.writtenBodies (sources.flatMap fun x => Sources.definitionsIn x.2) name := by
  obtain ⟨t, hfind⟩ := exists_type?_of_mem_writtenBodies h hbody
  obtain ⟨ht, rfl⟩ := Table.find?_eq_some_iff.1 hfind
  obtain ⟨base, bodies, hassembled, hbodies⟩ := exists_assembled_of_mem_types h ht
  exact ⟨t, base, bodies, hfind, hassembled, hbodies⟩

/-- Names that the bodies of each type bring without repetition are not repeated in what is written for a name. -/
theorem nodup_flatMap_writtenBodies (h : ofSources sources = .ok s) {names : Sdl.TypeBody → List String}
    (hnodup : ∀ {t : TypeDef} {base : TypeContents} {bodies : List (String × Sdl.TypeBody)}, t.Assembled base bodies →
      ((bodies.map Prod.snd).flatMap names).Nodup) (name : String) :
    ((Sdl.writtenBodies (sources.flatMap fun x => Sources.definitionsIn x.2) name).flatMap names).Nodup := by
  cases hwritten : Sdl.writtenBodies (sources.flatMap fun x => Sources.definitionsIn x.2) name with
  | nil => exact List.nodup_nil
  | cons body rest =>
    have hbody : body ∈ Sdl.writtenBodies (sources.flatMap fun x => Sources.definitionsIn x.2) name :=
      hwritten ▸ List.mem_cons_self
    obtain ⟨t, base, bodies, -, hassembled, hbodies⟩ := exists_assembled_of_mem_writtenBodies h hbody
    rw [← hwritten, ← hbodies]
    exact hnodup hassembled

/-- **In a schema of sources nothing is declared twice but arguments,** and these are kept exactly if they are declared
once each. -/
theorem refusesRepetition_of_ofSources (h : ofSources sources = .ok s) :
    s.RefusesRepetition (sources.flatMap fun x => Sources.definitionsIn x.2) where
  types name := by
    obtain ⟨S, b, hdefinitions, hloads, -⟩ := exists_builds_of_ofSources h
    obtain ⟨hload, -⟩ := SchemaBuilder.loads_new_iff.1 hloads
    rw [← hdefinitions]
    by_cases hdefined : ∃ x ∈ S.types, x.2.name = name
    · obtain ⟨x, hx, rfl⟩ := hdefined
      rw [Sources.definitionBodies_eq_singleton hload hx]
      exact Nat.le_refl 1
    · rw [Sources.definitionBodies_eq_nil fun x hx hname => hdefined ⟨x, hx, hname⟩]
      exact Nat.zero_le 1
  directives := by
    obtain ⟨S, b, hdefinitions, hloads, -⟩ := exists_builds_of_ofSources h
    obtain ⟨hload, -⟩ := SchemaBuilder.loads_new_iff.1 hloads
    rw [← hdefinitions, S.directiveNames_map_snd]
    exact hload.directiveNames
  interfaces := nodup_flatMap_writtenBodies h TypeDef.Assembled.nodup_interfaceNames
  members := nodup_flatMap_writtenBodies h TypeDef.Assembled.nodup_memberNames
  fieldArguments name body hbody f hf := by
    obtain ⟨t, base, bodies, hfind, hassembled, hbodies⟩ := exists_assembled_of_mem_writtenBodies h hbody
    rw [← hbodies] at hbody
    obtain ⟨b, hb, rfl⟩ := List.mem_map.1 hbody
    exact ⟨t, b.1, .ofSource b.1 f, hassembled.ofSource_mem_ownFields hb hf, hfind, FieldDef.declares_ofSource b.1 f,
      keepsArguments_ofList_iff⟩
  directiveArguments v hv := by
    obtain ⟨S, b, hdefinitions, hloads, hbuilds⟩ := exists_builds_of_ofSources h
    rw [← hdefinitions] at hv
    obtain ⟨⟨file, -⟩, hmem, rfl⟩ := List.mem_map.1 hv
    have hentry : DirectiveDef.ofSource file v ∈ s.directives.entries := by
      rw [hbuilds.directives, Sources.entries_insertAll_builtInDirectives hloads]
      exact List.mem_append_left _ (List.mem_map.2 ⟨(file, v), Sources.mem_directives_iff.2 hmem, rfl⟩)
    exact ⟨.ofSource file v, file, Table.find?_eq_some_iff.2 ⟨hentry, rfl⟩, DirectiveDef.declares_ofSource file v,
      keepsArguments_ofList_iff⟩

/-- A field of an extension and a directive have repeated arguments, and a field of a definition has distinct ones. -/
theorem refusesRepetition_of_repeated_arguments : ∃ s,
    ofSources [(some "a", "type Query { f(a: Int, b: ID): Int } directive @d(x: Int, y: ID, x: ID) on FIELD"),
        (none, "extend type Query { g(c: Int, c: Int!): Int }")] = .ok s ∧
      s.RefusesRepetition ([(some "a",
          "type Query { f(a: Int, b: ID): Int } directive @d(x: Int, y: ID, x: ID) on FIELD"),
        (none, "extend type Query { g(c: Int, c: Int!): Int }")].flatMap fun x => Sources.definitionsIn x.2) := by
  obtain ⟨s, hs⟩ := exists_eq_ok_of_isOk (x := ofSources
    [(some "a", "type Query { f(a: Int, b: ID): Int } directive @d(x: Int, y: ID, x: ID) on FIELD"),
      (none, "extend type Query { g(c: Int, c: Int!): Int }")])
    (by decide +kernel)
  exact ⟨s, hs, refusesRepetition_of_ofSources hs⟩

/-- **A schema can be built although two arguments of a field share a name.** The first of them is not in the schema. -/
theorem exists_repeated_argument : ∃ s query,
    ofSources [(some "a.graphql", "type Query { f(a: Int, a: String): Int }")] = .ok s ∧
      (¬ ∀ body ∈ Sdl.writtenBodies ([(some "a.graphql", "type Query { f(a: Int, a: String): Int }")].flatMap
          fun x : Option String × String => Sources.definitionsIn x.2) "Query",
        ∀ f ∈ body.fields, (f.arguments.map Sdl.InputValue.name).Nodup) ∧
      s.type? "Query" = some query ∧
      (query.ownFields.map fun f => f.arguments.entries.map fun a => (a.name, a.type.text)) = [[("a", "String")]] := by
  have hfields : (do
      let s ← (ofSources [(some "a.graphql", "type Query { f(a: Int, a: String): Int }")]).toOption
      let query ← s.type? "Query"
      return query.ownFields.map fun f => f.arguments.entries.map fun a => (a.name, a.type.text)) =
        some [[("a", "String")]] := by
    decide +kernel
  obtain ⟨s, hs, hfields⟩ := Option.bind_eq_some_iff.1 hfields
  obtain ⟨query, hquery, hfields⟩ := Option.bind_eq_some_iff.1 hfields
  exact ⟨s, query, eq_ok_of_toOption hs, by decide +kernel, hquery, Option.some.inj hfields⟩

end Schema

end QueryAid
