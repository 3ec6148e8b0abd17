import QueryAid.Proofs.Schema.Closed
import QueryAid.Proofs.Schema.Contents
import QueryAid.Proofs.Schema.WellFormed
/-!
# Growing schemas

A schema grows when more sources are loaded behind the ones that it was made of. Types keep their kinds and members,
and get new members behind them; directives stay as they are; roots stay as long as no schema block is among the new
sources (`growsInto_of_ofSources`). So whatever a name led to, it leads there still, and what is selected from a type
can be selected from the grown one (`GrowsInto.resolveField`).
-/

namespace QueryAid

/-! ### What it means -/

/-- **A type grows into another one:** it keeps its name, kind and members. -/
structure TypeDef.GrowsInto (t t' : TypeDef) : Prop where
  name : t'.name = t.name
  kind : t'.kind = t.kind
  members : t.contents.members ⊆ t'.contents.members

/-- **A schema grows into another one:** its types grow, and its directives and roots stay. -/
structure Schema.GrowsInto (s s' : Schema) : Prop where
  types : ∀ name t, s.type? name = some t → ∃ t', s'.type? name = some t' ∧ t.GrowsInto t'
  directives : ∀ name d, s.directive? name = some d → s'.directive? name = some d
  roots : ∀ k name, s.rootName? k = some name → s'.rootName? k = some name

/-! ### Fields -/

namespace TypeDef

variable {t t' : TypeDef}

theorem GrowsInto.isComposite (h : t.GrowsInto t') : t'.isComposite = t.isComposite := by
  rw [Bool.eq_iff_iff, isComposite_iff, isComposite_iff, h.kind]

theorem GrowsInto.isInput (h : t.GrowsInto t') : t'.isInput = t.isInput := by
  rw [TypeDef.isInput, TypeDef.isInput, h.isComposite]

end TypeDef

namespace Schema

variable {s s' : Schema} {t t' : TypeDef}

theorem GrowsInto.isQueryRoot (h : s.GrowsInto s') (ht : t.GrowsInto t') : s'.isQueryRoot t' = s.isQueryRoot t := by
  have hquery : s'.queryType = s.queryType := Option.some.inj (h.roots .query s.queryType rfl)
  rw [Schema.isQueryRoot, Schema.isQueryRoot, ht.name, hquery]

theorem GrowsInto.root? (h : s.GrowsInto s') {k : OperationKind} (hroot : s.root? k = some t) :
    ∃ t', s'.root? k = some t' ∧ t.GrowsInto t' := by
  obtain ⟨name, hname, ht⟩ := Option.bind_eq_some_iff.1 hroot
  obtain ⟨t', ht', hgrows⟩ := h.types name t ht
  exact ⟨t', Option.bind_eq_some_iff.2 ⟨name, h.roots k name hname, ht'⟩, hgrows⟩

/-- **What can be selected from a type can be selected from the type that it grows into.** -/
theorem GrowsInto.resolveField (h : s.GrowsInto s') (ht : t.GrowsInto t') {name : String} {f : FieldDef}
    (hf : s.resolveField t name = some f) : s'.resolveField t' name = some f := by
  unfold Schema.resolveField at hf ⊢
  rw [h.isQueryRoot ht, ht.isComposite]
  -- The fields that the language adds do not depend on members.
  by_cases hschema : (name == "__schema" && s.isQueryRoot t) = true
  · rw [if_pos hschema] at hf ⊢
    exact hf
  rw [if_neg hschema] at hf ⊢
  by_cases htype : (name == "__type" && s.isQueryRoot t) = true
  · rw [if_pos htype] at hf ⊢
    exact hf
  rw [if_neg htype] at hf ⊢
  by_cases htypename : (name == "__typename" && t.isComposite) = true
  · rw [if_pos htypename] at hf ⊢
    exact hf
  rw [if_neg htypename] at hf ⊢
  obtain ⟨hfield, hname⟩ := TypeDef.ownField_eq_some_iff.1 hf
  have hmember := ht.members (TypeDef.mem_ownFields_iff.1 hfield)
  exact TypeDef.ownField_eq_some_iff.2 ⟨TypeDef.mem_ownFields_iff.2 hmember, hname⟩

end Schema

/-! ### More sources -/

section MoreSources

variable {S T : Sources} {b b' : SchemaBuilder} {s s' : Schema}

/-- A type grows when there are more extensions. -/
theorem TypeDef.growsInto_extendedByAll {t : TypeDef} {extensions more : List PendingExtension}
    (h : t.contents.Mergeable t.name (bodiesFor extensions t.name))
    (h' : t.contents.Mergeable t.name (bodiesFor (extensions ++ more) t.name)) :
    (t.extendedByAll extensions).GrowsInto (t.extendedByAll (extensions ++ more)) where
  name := rfl
  kind := by rw [kind_extendedByAll, kind_extendedByAll]
  members := by
    have hmembers := TypeContents.members_plusAll h
    have hmembers' := TypeContents.members_plusAll h'
    rw [bodiesFor_append, List.flatMap_append, ← List.append_assoc, ← hmembers, ← bodiesFor_append] at hmembers'
    rw [extendedByAll, extendedByAll, hmembers']
    exact List.subset_append_left _ _

theorem Sources.mem_unextendedTypes_append {t : TypeDef} (ht : t ∈ S.unextendedTypes) :
    t ∈ Sources.unextendedTypes (S ++ T) := by
  rcases mem_unextendedTypes_iff.1 ht with hscalar | ⟨x, hx, rfl⟩ | hintrospection
  · exact mem_unextendedTypes_iff.2 (.inl hscalar)
  · have hmem : x ∈ Sources.types (S ++ T) := mem_types_iff.2 (List.mem_append_left _ (mem_types_iff.1 hx))
    exact mem_unextendedTypes_iff.2 (.inr (.inl ⟨x, hmem, rfl⟩))
  · exact mem_unextendedTypes_iff.2 (.inr (.inr hintrospection))

namespace Schema

/-- Every type grows when more sources are loaded. -/
theorem exists_grown_type (hloads : SchemaBuilder.Loads S .new b) (hbuilds : b.Builds s)
    (hloads' : SchemaBuilder.Loads (S ++ T) .new b') (hbuilds' : b'.Builds s') (name : String) (t : TypeDef)
    (ht : s.type? name = some t) : ∃ t', s'.type? name = some t' ∧ t.GrowsInto t' := by
  obtain ⟨hmerge, hentries⟩ := hloads.extended hbuilds.types
  obtain ⟨hmerge', hentries'⟩ := hloads'.extended hbuilds'.types
  obtain ⟨hmem, hname⟩ := Table.find?_eq_some_iff.1 ht
  rw [hentries] at hmem
  obtain ⟨u, hu, rfl⟩ := List.mem_map.1 hmem
  have hu' : u ∈ Sources.unextendedTypes (S ++ T) := Sources.mem_unextendedTypes_append hu
  have hextensions : Sources.extensions (S ++ T) = S.extensions ++ T.extensions := List.filterMap_append
  have hmem' : u.extendedByAll (Sources.extensions (S ++ T)) ∈ s'.types.entries :=
    hentries' ▸ List.mem_map_of_mem hu'
  have hextended := hmerge' u hu'
  rw [hextensions] at hmem' hextended
  exact ⟨_, Table.find?_eq_some_iff.2 ⟨hmem', hname⟩, TypeDef.growsInto_extendedByAll (hmerge u hu) hextended⟩

/-- Every directive stays when more sources are loaded. -/
theorem directive?_of_more_sources (hloads : SchemaBuilder.Loads S .new b) (hbuilds : b.Builds s)
    (hloads' : SchemaBuilder.Loads (S ++ T) .new b') (hbuilds' : b'.Builds s') (name : String) (d : DirectiveDef)
    (hd : s.directive? name = some d) : s'.directive? name = some d := by
  obtain ⟨hmem, hname⟩ := Table.find?_eq_some_iff.1 hd
  refine Table.find?_eq_some_iff.2 ⟨?_, hname⟩
  rw [hbuilds.directives, Sources.entries_insertAll_builtInDirectives hloads, List.mem_append] at hmem
  rw [hbuilds'.directives, Sources.entries_insertAll_builtInDirectives hloads', List.mem_append]
  refine hmem.imp_left fun hd => ?_
  obtain ⟨x, hx, rfl⟩ := List.mem_map.1 hd
  have hx' : x ∈ Sources.directives (S ++ T) :=
    Sources.mem_directives_iff.2 (List.mem_append_left _ (Sources.mem_directives_iff.1 hx))
  exact List.mem_map_of_mem hx'

/-- **A schema grows when more sources without schema blocks are loaded.** -/
theorem growsInto_of_loads (hloads : SchemaBuilder.Loads S .new b) (hbuilds : b.Builds s)
    (hmore : SchemaBuilder.Loads T b b') (hblocks : T.blocks = []) (hbuilds' : b'.Builds s') : s.GrowsInto s' where
  types := exists_grown_type hloads hbuilds (hloads.append hmore) hbuilds'
  directives := directive?_of_more_sources hloads hbuilds (hloads.append hmore) hbuilds'
  roots k name hroot := by
    have hroots : b'.roots = b.roots := by
      have hfold := hmore.roots
      rw [hblocks] at hfold
      exact (Except.ok.inj hfold).symm
    have hmeant : b'.meantRoot k = b.meantRoot k := by
      rw [SchemaBuilder.meantRoot, SchemaBuilder.meantRoot, hroots]
    -- The root is an object, and an object stays one.
    obtain ⟨hname, t, ht, hobject⟩ := ((SchemaBuilder.resolveRoot_eq_ok_iff.1 (hbuilds.roots k)).2 name).1 hroot
    obtain ⟨t', ht', hgrows⟩ := exists_grown_type hloads hbuilds (hloads.append hmore) hbuilds' name t ht
    refine ((SchemaBuilder.resolveRoot_eq_ok_iff.1 (hbuilds'.roots k)).2 name).2 ⟨hname.trans hmeant.symm, t', ht', ?_⟩
    exact hgrows.kind ▸ hobject

theorem growsInto_of_ofSources {sources more : List (Option String × String)} (h : ofSources sources = .ok s)
    (h' : ofSources (sources ++ more) = .ok s')
    (hblocks : ∀ x ∈ more, ∀ block, .schema block ∉ Sources.definitionsIn x.2) : s.GrowsInto s' := by
  obtain ⟨b, hload, hbuild⟩ := bind_eq_ok_iff.1 h
  obtain ⟨b', happend, hbuild'⟩ := bind_eq_ok_iff.1 h'
  obtain ⟨m, hload', hmore⟩ := foldlM_append_eq_ok_iff.1 happend
  -- The sources lead to the same builder, whether or not more of them follow.
  obtain rfl : b = m := Except.ok.inj (hload.symm.trans hload')
  obtain ⟨S, -, hS⟩ := SchemaBuilder.exists_loads_of_foldlM_load hload
  obtain ⟨T, hdefinitions, hT⟩ := SchemaBuilder.exists_loads_of_foldlM_load hmore
  have hnone : T.blocks = [] := by
    refine List.eq_nil_iff_forall_not_mem.2 fun x hx => ?_
    have hmem : Sdl.Definition.schema x.2 ∈ T.map Prod.snd := List.mem_map_of_mem (Sources.mem_blocks_iff.1 hx)
    rw [hdefinitions] at hmem
    obtain ⟨source, hsource, hblock⟩ := List.mem_flatMap.1 hmem
    exact hblocks source hsource x.2 hblock
  exact growsInto_of_loads hS (SchemaBuilder.build_eq_ok_iff.1 hbuild) hT hnone
    (SchemaBuilder.build_eq_ok_iff.1 hbuild')

end Schema

end MoreSources

end QueryAid
