import QueryAid.Proofs.Schema.Reserved
/-!
# What types are put together from

A type of a schema is put together from what is written for its name: the body of its definition, and those of its
extensions in order, wherever they stand (`Sdl.writtenBodies`). `exists_assembled_of_mem_types` says so of all types at
once. Types that belong to the language start out with what the language gives them, which are neither interfaces nor
members of unions; the others start out with nothing. So the interfaces and the union members of a type are those that
are written for its name, one behind the other (`interfaceNames_of_mem_types`, `unionMembers_of_mem_types`).
-/

namespace QueryAid

/-! ### What is written for a name -/

namespace Sdl

/-- The bodies of the definitions of a type among definitions, in order. -/
def definitionBodies (definitions : List Definition) (name : String) : List TypeBody :=
  definitions.filterMap fun
    | .type d => if d.name = name then some d.body else none
    | _ => none

/-- **What is written for the name of a type,** in definitions and then in extensions. -/
def writtenBodies (definitions : List Definition) (name : String) : List TypeBody :=
  definitionBodies definitions name ++ extensionBodies definitions name

end Sdl

namespace Sources

variable {S : Sources} {name : String}

/-- The definitions of a name, their files aside. -/
theorem definitionBodies_map_snd (S : Sources) (name : String) : Sdl.definitionBodies (S.map Prod.snd) name =
    (S.types.filter fun x => x.2.name == name).map fun x => x.2.body := by
  induction S with
  | nil => rfl
  | cons x S ih =>
    obtain ⟨file, d⟩ := x
    cases d with
    | type d =>
      have htypes : types ((file, .type d) :: S) = (file, d) :: types S := rfl
      have hdefinitions : Sdl.definitionBodies (.type d :: S.map Prod.snd) name =
          (if d.name = name then [d.body] else []) ++ Sdl.definitionBodies (S.map Prod.snd) name := by
        by_cases h : d.name = name <;> simp [Sdl.definitionBodies, h]
      rw [htypes, List.map_cons, hdefinitions, ih]
      by_cases h : d.name = name <;> simp [h]
    | extension | directive | schema => exact ih

/-- A name that no source defines has no definition. -/
theorem definitionBodies_eq_nil (h : ∀ x ∈ S.types, x.2.name ≠ name) :
    Sdl.definitionBodies (S.map Prod.snd) name = [] := by
  have hnone : S.types.filter (fun x => x.2.name == name) = [] :=
    List.filter_eq_nil_iff.2 fun x hx => mt beq_iff_eq.1 (h x hx)
  rw [definitionBodies_map_snd, hnone]
  rfl

/-- A name that is defined has one definition, since no two definitions share a name. -/
theorem definitionBodies_eq_singleton (hload : S.Loadable) {x : String × Sdl.TypeDefinition} (hx : x ∈ S.types) :
    Sdl.definitionBodies (S.map Prod.snd) x.2.name = [x.2.body] := by
  obtain ⟨before, after, hsplit⟩ := List.append_of_mem hx
  have hnodup := hload.typeNames.1
  rw [hsplit, List.map_append, List.map_cons, List.nodup_middle, List.nodup_cons, List.mem_append] at hnodup
  have hothers (l : List (String × Sdl.TypeDefinition)) (hl : x.2.name ∉ l.map fun y => y.2.name) :
      l.filter (fun y => y.2.name == x.2.name) = [] :=
    List.filter_eq_nil_iff.2 fun y hy heq => hl (List.mem_map.2 ⟨y, hy, eq_of_beq heq⟩)
  have hself : (x.2.name == x.2.name) = true := beq_self_eq_true _
  rw [definitionBodies_map_snd, hsplit, List.filter_append, List.filter_cons, if_pos hself,
    hothers before fun h => hnodup.1 (.inl h), hothers after fun h => hnodup.1 (.inr h)]
  rfl

end Sources

/-! ### What it means -/

/-- **A type is put together from bodies,** each in a file: they are taken in one after the other, and before the first
of them there are no interfaces and no union members. -/
structure TypeDef.Assembled (t : TypeDef) (base : TypeContents) (bodies : List (String × Sdl.TypeBody)) : Prop where
  mergeable : base.Mergeable t.name bodies
  contents : t.contents = base.plusAll bodies
  noInterfaces : base.interfaceNames = []
  noUnionMembers : base.unionMembers = []

namespace TypeDef.Assembled

variable {t : TypeDef} {base : TypeContents} {bodies : List (String × Sdl.TypeBody)}

theorem kinds (h : t.Assembled base bodies) : ∀ b ∈ bodies, base.kind = b.2.kind :=
  fun b hb => ((TypeContents.mergeable_iff.1 h.mergeable).1 b hb).1

theorem interfaceNames (h : t.Assembled base bodies) :
    t.contents.interfaceNames = (bodies.map Prod.snd).flatMap Sdl.TypeBody.interfaceNames := by
  rw [h.contents, TypeContents.interfaceNames_plusAll h.kinds, h.noInterfaces, List.nil_append, List.flatMap_map]

theorem unionMembers (h : t.Assembled base bodies) :
    t.contents.unionMembers = (bodies.map Prod.snd).flatMap Sdl.TypeBody.unionMembers := by
  rw [h.contents, TypeContents.unionMembers_plusAll h.kinds, h.noUnionMembers, List.nil_append, List.flatMap_map]

end TypeDef.Assembled

namespace Schema

variable {sources : List (Option String × String)} {s : Schema} {t : TypeDef}

/-- **Every type is put together from what is written for its name.** -/
theorem exists_assembled_of_mem_types (h : ofSources sources = .ok s) (ht : t ∈ s.types.entries) :
    ∃ base bodies, t.Assembled base bodies ∧
      bodies.map Prod.snd = Sdl.writtenBodies (sources.flatMap fun x => Sources.definitionsIn x.2) t.name := by
  have hstandard : ∀ u ∈ builtInScalars ++ introspectionTypes,
      u.contents.interfaceNames = [] ∧ u.contents.unionMembers = [] := by
    decide +kernel
  have hreserved : ∀ u ∈ introspectionTypes, isReserved u.name = true := by decide +kernel
  obtain ⟨S, b, hdefinitions, hloads, u, hu, rfl, hmerge⟩ := exists_unextended_of_mem_types h ht
  obtain ⟨hload, -⟩ := SchemaBuilder.loads_new_iff.1 hloads
  rw [← hdefinitions]
  -- What belongs to the language has no definition in a source.
  have hbuiltIn (hmem : u ∈ builtInScalars ++ introspectionTypes) (hother : ∀ x ∈ S.types, x.2.name ≠ u.name) :
      ∃ base bodies, (u.extendedByAll S.extensions).Assembled base bodies ∧
        bodies.map Prod.snd = Sdl.writtenBodies (S.map Prod.snd) u.name := by
    obtain ⟨hinterfaces, hmembers⟩ := hstandard u hmem
    refine ⟨u.contents, bodiesFor S.extensions u.name, ⟨hmerge, rfl, hinterfaces, hmembers⟩, ?_⟩
    rw [Sdl.writtenBodies, Sources.definitionBodies_eq_nil hother, List.nil_append, S.map_snd_bodiesFor]
  rcases Sources.mem_unextendedTypes_iff.1 hu with hscalar | ⟨x, hx, rfl⟩ | hintrospection
  · refine hbuiltIn (List.mem_append_left _ hscalar) fun x hx heq => ?_
    exact hload.typeNames.2 _ (List.mem_map_of_mem hx) (heq ▸ List.mem_map_of_mem hscalar)
  · have hempty : (TypeContents.emptyFor x.2.body).interfaceNames = [] ∧
        (TypeContents.emptyFor x.2.body).unionMembers = [] := by
      cases x.2.body <;> exact ⟨rfl, rfl⟩
    refine ⟨.emptyFor x.2.body, S.bodiesOf x, ⟨⟨(hload.types x hx).body, hmerge⟩, rfl, hempty.1, hempty.2⟩, ?_⟩
    show x.2.body :: (bodiesFor S.extensions x.2.name).map Prod.snd = Sdl.writtenBodies (S.map Prod.snd) x.2.name
    rw [Sdl.writtenBodies, Sources.definitionBodies_eq_singleton hload hx, S.map_snd_bodiesFor]
    rfl
  · refine hbuiltIn (List.mem_append_right _ hintrospection) fun x hx heq => ?_
    exact ne_of_isReserved (hload.types x hx).name (hreserved u hintrospection) heq

/-- The interfaces of a type are those that are written for its name. -/
theorem interfaceNames_of_mem_types (h : ofSources sources = .ok s) (ht : t ∈ s.types.entries) :
    t.contents.interfaceNames = (Sdl.writtenBodies (sources.flatMap fun x => Sources.definitionsIn x.2)
      t.name).flatMap Sdl.TypeBody.interfaceNames := by
  obtain ⟨base, bodies, hassembled, hbodies⟩ := exists_assembled_of_mem_types h ht
  rw [hassembled.interfaceNames, hbodies]

/-- The members of a union are those that are written for its name. -/
theorem unionMembers_of_mem_types (h : ofSources sources = .ok s) (ht : t ∈ s.types.entries) :
    t.contents.unionMembers = (Sdl.writtenBodies (sources.flatMap fun x => Sources.definitionsIn x.2)
      t.name).flatMap Sdl.TypeBody.unionMembers := by
  obtain ⟨base, bodies, hassembled, hbodies⟩ := exists_assembled_of_mem_types h ht
  rw [hassembled.unionMembers, hbodies]

end Schema

end QueryAid
