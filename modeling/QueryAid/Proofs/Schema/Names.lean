import QueryAid.Proofs.Schema.Closed
import QueryAid.Proofs.Sdl.ReadOff
/-!
# The names in schemas

What a schema is made of has proper names. The types have names of the language, since every source was read as one
(`isIdentifier_of_mem_types`). Fields, their arguments and input fields have none of the names that belong to the
language, although the types that describe a schema may be extended (`not_isReserved_of_mem_guardedNames`).
-/

namespace QueryAid

/-! ### Names that must not be reserved -/

theorem ne_of_isReserved {name reserved : String} (h : isReserved name = false) (h' : isReserved reserved = true) :
    name ≠ reserved := by
  rintro rfl
  rw [h] at h'
  cases h'

namespace TypeContents

variable {file owner : String} {c : TypeContents} {body : Sdl.TypeBody} {name : String}

/-- **The names of fields, their arguments and input fields,** which sources must not take from the language. -/
def guardedNames : TypeContents → List String
  | object _ fields | interface _ fields => fields.entries.flatMap fun f => f.name :: f.arguments.names
  | inputObject fields => fields.names
  | builtIn _ | enum _ | scalar | union _ => []

/-- A field that is read off an allowed one has no reserved name, nor has an argument of it. -/
private theorem not_isReserved_of_ofSource {f : Sdl.Field} (hf : isReserved f.name = false)
    (harguments : ∀ a ∈ f.arguments, isReserved a.name = false)
    (h : name ∈ (FieldDef.ofSource file f).name :: (FieldDef.ofSource file f).arguments.names) :
    isReserved name = false := by
  rcases List.mem_cons.1 h with rfl | h
  · exact hf
  · obtain ⟨a, ha, rfl⟩ := Table.mem_names.1 h
    exact not_isReserved_arguments_iff.2 harguments a ha

private theorem mem_guardedNames_insertAll {fields : Table FieldDef} {more : List Sdl.Field}
    (hfields : ∀ f ∈ more, isReserved f.name = false)
    (harguments : ∀ f ∈ more, ∀ a ∈ f.arguments, isReserved a.name = false)
    (h : name ∈ (fields.insertAll (more.map (FieldDef.ofSource file))).entries.flatMap fun f =>
      f.name :: f.arguments.names) :
    (name ∈ fields.entries.flatMap fun f => f.name :: f.arguments.names) ∨ isReserved name = false := by
  obtain ⟨f, hf, hname⟩ := List.mem_flatMap.1 h
  rcases Table.mem_or_mem_of_mem_insertAll hf with hf | hf
  · exact .inl (List.mem_flatMap.2 ⟨f, hf, hname⟩)
  · obtain ⟨source, hsource, rfl⟩ := List.mem_map.1 hf
    exact .inr (not_isReserved_of_ofSource (hfields source hsource) (harguments source hsource) hname)

/-- A body that is allowed brings no reserved name. -/
theorem mem_guardedNames_plus (hbody : body.NamesAllowed) (h : name ∈ (c.plus file body).guardedNames) :
    name ∈ c.guardedNames ∨ isReserved name = false := by
  have hfields := hbody.fields
  have harguments := hbody.arguments
  cases c with
  | builtIn | scalar | enum | union => cases body <;> exact .inl h
  | inputObject fields =>
    cases body with
    | inputObject more =>
      rcases (Table.mem_names_insertAll_map_iff fun _ => rfl).1 h with h | h
      · exact .inl h
      · obtain ⟨f, hf, rfl⟩ := List.mem_map.1 h
        exact .inr (hbody.inputFields f hf)
    | _ => exact .inl h
  | interface interfaces fields =>
    cases body with
    | interface moreInterfaces more => exact mem_guardedNames_insertAll hfields harguments h
    | _ => exact .inl h
  | object interfaces fields =>
    cases body with
    | object moreInterfaces more => exact mem_guardedNames_insertAll hfields harguments h
    | _ => exact .inl h

theorem mem_guardedNames_plusAll {bodies : List (String × Sdl.TypeBody)} (hbodies : c.Mergeable owner bodies)
    (h : name ∈ (c.plusAll bodies).guardedNames) : name ∈ c.guardedNames ∨ isReserved name = false := by
  induction bodies generalizing c with
  | nil => exact .inl h
  | cons b bodies ih =>
    obtain ⟨haccepts, hrest⟩ := hbodies
    rcases ih hrest h with h | h
    · exact mem_guardedNames_plus haccepts.names h
    · exact .inr h

end TypeContents

/-- The types before the extensions have no fields, arguments or input fields with reserved names. -/
theorem Sources.not_isReserved_of_mem_unextendedTypes {S : Sources} (hload : S.Loadable) {t : TypeDef}
    (ht : t ∈ S.unextendedTypes) {name : String} (h : name ∈ t.contents.guardedNames) : isReserved name = false := by
  have hstandard : ∀ t ∈ builtInScalars ++ introspectionTypes, ∀ name ∈ t.contents.guardedNames,
      isReserved name = false := by
    decide +kernel
  rw [unextendedTypes, List.mem_append, List.mem_append, List.mem_map] at ht
  rcases ht with (ht | ⟨x, hx, rfl⟩) | ht
  · exact hstandard t (List.mem_append_left _ ht) name h
  · rcases TypeContents.mem_guardedNames_plus (hload.types x hx).body.names h with h | h
    · unfold TypeContents.emptyFor at h
      split at h <;> cases h
    · exact h
  · exact hstandard t (List.mem_append_right _ ht) name h

namespace Schema

variable {sources : List (Option String × String)} {s : Schema} {t : TypeDef}

/-- Each type is a type that every schema has or one of the sources, with the extensions that name it. -/
theorem exists_unextended_of_mem_types (h : ofSources sources = .ok s) (ht : t ∈ s.types.entries) :
    ∃ S b, S.map Prod.snd = sources.flatMap (fun x => Sources.definitionsIn x.2) ∧
      SchemaBuilder.Loads S .new b ∧ ∃ u ∈ S.unextendedTypes, t = u.extendedByAll S.extensions ∧
        u.contents.Mergeable u.name (bodiesFor S.extensions u.name) := by
  obtain ⟨S, b, hdefinitions, hloads, hbuilds⟩ := exists_builds_of_ofSources h
  obtain ⟨hmerge, hentries⟩ := hloads.extended hbuilds.types
  rw [hentries] at ht
  obtain ⟨u, hu, rfl⟩ := List.mem_map.1 ht
  exact ⟨S, b, hdefinitions, hloads, u, hu, rfl, hmerge u hu⟩

/-- **No field, argument of a field or input field has a name that belongs to the language.** -/
theorem not_isReserved_of_mem_guardedNames (h : ofSources sources = .ok s) (ht : t ∈ s.types.entries)
    {name : String} (hname : name ∈ t.contents.guardedNames) : isReserved name = false := by
  obtain ⟨S, b, -, hloads, u, hu, rfl, hmerge⟩ := exists_unextended_of_mem_types h ht
  obtain ⟨hload, -⟩ := SchemaBuilder.loads_new_iff.1 hloads
  rcases TypeContents.mem_guardedNames_plusAll hmerge hname with hname | hname
  · exact Sources.not_isReserved_of_mem_unextendedTypes hload hu hname
  · exact hname

/-- What is defined in a source bears names. -/
theorem areNames_of_mem_definitionsIn {text : String} {d : Sdl.Definition} (hd : d ∈ Sources.definitionsIn text) :
    Sdl.AreNames d.names := by
  unfold Sources.definitionsIn at hd
  cases hparse : Sdl.parse text.toList with
  | error place =>
    rw [hparse] at hd
    cases hd
  | ok ds =>
    rw [hparse] at hd
    exact Sdl.areNames_of_parse hparse d hd

/-- Whatever is loaded from sources bears names. -/
theorem areNames_of_mem_sources {S : Sources}
    (hdefinitions : S.map Prod.snd = sources.flatMap fun x => Sources.definitionsIn x.2)
    {x : String × Sdl.Definition} (hx : x ∈ S) : Sdl.AreNames x.2.names := by
  have hmem : x.2 ∈ S.map Prod.snd := List.mem_map_of_mem hx
  rw [hdefinitions] at hmem
  obtain ⟨source, -, hd⟩ := List.mem_flatMap.1 hmem
  exact areNames_of_mem_definitionsIn hd

/-- **The types have names of the language.** -/
theorem isIdentifier_of_mem_types (h : ofSources sources = .ok s) (ht : t ∈ s.types.entries) :
    isIdentifier t.name = true := by
  have hstandard : ∀ t ∈ builtInScalars ++ introspectionTypes, isIdentifier t.name = true := by decide +kernel
  obtain ⟨S, b, hdefinitions, -, u, hu, rfl, -⟩ := exists_unextended_of_mem_types h ht
  rw [Sources.unextendedTypes, List.mem_append, List.mem_append, List.mem_map] at hu
  rcases hu with (hu | ⟨x, hx, rfl⟩) | hu
  · exact hstandard u (List.mem_append_left _ hu)
  · have hnames := areNames_of_mem_sources hdefinitions (Sources.mem_types_iff.1 hx)
    exact (Sdl.areNames_cons_iff.1 hnames).1
  · exact hstandard u (List.mem_append_right _ hu)

end Schema

end QueryAid
