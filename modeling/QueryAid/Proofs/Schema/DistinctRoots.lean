import QueryAid.Proofs.Schema.Closed
/-!
# When roots are different types

Schema blocks must not declare one type for two kinds of operation. But a kind for which nothing is declared starts
at the object type of its usual name, if there is one, and that type may have been declared for another kind.
`roots_distinct_iff` says that roots are different types exactly if this does not happen.
-/

namespace QueryAid

/-- **A schema block in one of the sources declares** the type that operations of a kind start at. -/
def DeclaresRoot (sources : List (Option String × String)) (k : OperationKind) (name : String) : Prop :=
  ∃ x ∈ sources, ∃ block, .schema block ∈ Sources.definitionsIn x.2 ∧ block.roots.get k = some name

theorem OperationKind.title_injective : Function.Injective title := by
  intro k k' h
  cases k <;> cases k' <;> first | rfl | exact absurd h (by decide)

theorem Sdl.SchemaBlock.mem_declarations_iff {file : String} {block : Sdl.SchemaBlock} {k : OperationKind}
    {r : RootDeclaration} : (k, r) ∈ block.declarations file ↔
      block.roots.get k = some r.typeName ∧ r.location = .file file block.place := by
  simp only [declarations, List.mem_map, Prod.exists, PerOperation.mem_toList_iff, Prod.mk.injEq]
  constructor
  · rintro ⟨_, name, hname, rfl, rfl⟩
    exact ⟨hname, rfl⟩
  · rintro ⟨hname, hlocation⟩
    exact ⟨k, r.typeName, hname, rfl, by rw [← hlocation]⟩

namespace Sources

variable {S : Sources} {k : OperationKind} {name : String}

/-- The roots in sources are what their schema blocks declare, whatever the files are called. -/
theorem exists_mem_roots_iff :
    (∃ r, (k, r) ∈ S.roots ∧ r.typeName = name) ↔
      ∃ block, .schema block ∈ S.map Prod.snd ∧ block.roots.get k = some name := by
  simp only [roots, List.mem_flatMap, mem_blocks_iff, Sdl.SchemaBlock.mem_declarations_iff]
  constructor
  · rintro ⟨r, ⟨x, hx, hget, -⟩, rfl⟩
    exact ⟨x.2, List.mem_map_of_mem hx, hget⟩
  · rintro ⟨block, hblock, hget⟩
    obtain ⟨⟨file, d⟩, hd, rfl⟩ := List.mem_map.1 hblock
    exact ⟨⟨name, .file file block.place⟩, ⟨(file, block), hd, hget, rfl⟩, rfl⟩

end Sources

namespace Schema

variable {sources : List (Option String × String)} {s : Schema} {k : OperationKind} {name : String}

/-- The builder of a schema holds the declarations in the sources, no two of them of one type. -/
theorem exists_builds_with_roots (h : ofSources sources = .ok s) :
    ∃ b : SchemaBuilder, b.Builds s ∧
      (∀ k name, (∃ r, b.roots.get k = some r ∧ r.typeName = name) ↔ DeclaresRoot sources k name) ∧
      ∀ k k' r r', b.roots.get k = some r → b.roots.get k' = some r' → r.typeName = r'.typeName → k = k' := by
  obtain ⟨S, b, hdefinitions, hloads, hbuilds⟩ := exists_builds_of_ofSources h
  obtain ⟨hload, -⟩ := SchemaBuilder.loads_new_iff.1 hloads
  refine ⟨b, hbuilds, fun k name => ?_, fun k k' r r' hr hr' hname => ?_⟩
  · simp only [hloads.get_roots_iff, Sources.exists_mem_roots_iff, hdefinitions, List.mem_flatMap, DeclaresRoot]
    constructor
    · rintro ⟨block, ⟨x, hx, hblock⟩, hget⟩
      exact ⟨x, hx, block, hblock, hget⟩
    · rintro ⟨x, hx, block, hblock, hget⟩
      exact ⟨block, ⟨x, hx, hblock⟩, hget⟩
  · have heq := List.inj_on_of_nodup_map hload.rootNames (hloads.get_roots_iff.1 hr) (hloads.get_roots_iff.1 hr') hname
    exact congrArg Prod.fst heq

/-- A root is the object type that is declared, or else the one of the usual name. -/
theorem rootName?_eq_some_iff (h : ofSources sources = .ok s) :
    s.rootName? k = some name ↔
      (DeclaresRoot sources k name ∨ (∀ n, ¬ DeclaresRoot sources k n) ∧ name = k.title) ∧
        Reference.InOrder s.types (name, .object) := by
  obtain ⟨b, hbuilds, hdeclares, -⟩ := exists_builds_with_roots h
  have hroot := (SchemaBuilder.resolveRoot_eq_ok_iff.1 (hbuilds.roots k)).2 name
  rw [hroot]
  refine and_congr_left fun _ => ?_
  simp only [← hdeclares, SchemaBuilder.meantRoot]
  cases b.roots.get k with
  | some r => simp [eq_comm]
  | none => simp

/-- What is declared is a root. -/
theorem rootName?_of_declaresRoot (h : ofSources sources = .ok s) (hk : DeclaresRoot sources k name) :
    s.rootName? k = some name := by
  obtain ⟨b, hbuilds, hdeclares, -⟩ := exists_builds_with_roots h
  obtain ⟨r, hr, rfl⟩ := (hdeclares k name).2 hk
  have hobject := (SchemaBuilder.resolveRoot_eq_ok_iff.1 (hbuilds.roots k)).1 r hr
  exact (rootName?_eq_some_iff h).2 ⟨.inl hk, hobject⟩

theorem root?_eq_some_iff {t : TypeDef} :
    s.root? k = some t ↔ s.rootName? k = some t.name ∧ s.type? t.name = some t := by
  rw [root?, Option.bind_eq_some_iff]
  constructor
  · rintro ⟨name, hname, ht⟩
    obtain rfl : t.name = name := (Table.find?_eq_some_iff.1 ht).2
    exact ⟨hname, ht⟩
  · rintro ⟨hname, ht⟩
    exact ⟨_, hname, ht⟩

/-- **Roots are different types exactly if the usual name of a kind for which nothing is declared is declared for no
other kind.** -/
theorem roots_distinct_iff (h : ofSources sources = .ok s) :
    (∀ k k' t, s.root? k = some t → s.root? k' = some t → k = k') ↔
      ∀ k k', (∀ name, ¬ DeclaresRoot sources k name) → ¬ DeclaresRoot sources k' k.title := by
  constructor
  · intro hdistinct k k' hnone hdeclared
    -- The declared type is an object, so that it is found under the usual name as well.
    have hroot' := rootName?_of_declaresRoot h hdeclared
    have hobject := ((rootName?_eq_some_iff h).1 hroot').2
    have hroot : s.rootName? k = some k.title := (rootName?_eq_some_iff h).2 ⟨.inr ⟨hnone, rfl⟩, hobject⟩
    obtain ⟨t, ht, -⟩ := hobject
    have hname : t.name = k.title := (Table.find?_eq_some_iff.1 ht).2
    have hkinds : k = k' := hdistinct k k' t (root?_eq_some_iff.2 ⟨hname ▸ hroot, hname ▸ ht⟩)
      (root?_eq_some_iff.2 ⟨hname ▸ hroot', hname ▸ ht⟩)
    exact hnone k.title (hkinds ▸ hdeclared)
  · intro hfree k k' t ht ht'
    obtain ⟨b, -, hdeclares, hdistinct⟩ := exists_builds_with_roots h
    have hmeant := ((rootName?_eq_some_iff h).1 (root?_eq_some_iff.1 ht).1).1
    have hmeant' := ((rootName?_eq_some_iff h).1 (root?_eq_some_iff.1 ht').1).1
    rcases hmeant with hdeclared | ⟨hnone, htitle⟩
    · rcases hmeant' with hdeclared' | ⟨hnone', htitle'⟩
      · obtain ⟨r, hr, hname⟩ := (hdeclares k t.name).2 hdeclared
        obtain ⟨r', hr', hname'⟩ := (hdeclares k' t.name).2 hdeclared'
        exact hdistinct k k' r r' hr hr' (hname.trans hname'.symm)
      · exact absurd (htitle' ▸ hdeclared) (hfree k' k hnone')
    · rcases hmeant' with hdeclared' | ⟨-, htitle'⟩
      · exact absurd (htitle ▸ hdeclared') (hfree k k' hnone)
      · exact OperationKind.title_injective (htitle.symm.trans htitle')

/-- The query type is declared, mutations start at the type of the usual name. -/
theorem roots_distinct_of_usual_mutation : ∃ s,
    ofSources [(none, "schema { query: Q } type Q { a: Int } type Mutation { b: Q }")] = .ok s ∧
      ∀ k k' t, s.root? k = some t → s.root? k' = some t → k = k' := by
  obtain ⟨s, hs⟩ := exists_eq_ok_of_isOk (x := ofSources
    [(none, "schema { query: Q } type Q { a: Int } type Mutation { b: Q }")]) (by decide +kernel)
  refine ⟨s, hs, (roots_distinct_iff hs).2 ?_⟩
  rintro k k' hnone ⟨x, hx, block, hblock, hget⟩
  obtain rfl := List.mem_singleton.1 hx
  have hblocks : (Sources.blocks ((Sources.definitionsIn
      "schema { query: Q } type Q { a: Int } type Mutation { b: Q }").map ("", ·))).map (fun x => x.2.roots) =
        [⟨some "Q", none, none⟩] := by
    decide +kernel
  have hmem : ("", block) ∈ Sources.blocks ((Sources.definitionsIn
      "schema { query: Q } type Q { a: Int } type Mutation { b: Q }").map ("", ·)) :=
    Sources.mem_blocks_iff.2 (List.mem_map_of_mem hblock)
  have hroots : block.roots = ⟨some "Q", none, none⟩ :=
    List.mem_singleton.1 (hblocks ▸ List.mem_map_of_mem hmem)
  rw [hroots] at hget
  cases k <;> cases k' <;> exact absurd hget (by decide)

/-- The type declared for queries has the usual name of the root of mutations. -/
theorem exists_shared_root_of_usual_name : ∃ s t,
    ofSources [(none, "schema { query: Mutation } type Mutation { a: Int }")] = .ok s ∧
      s.root? .query = some t ∧ s.root? .mutation = some t := by
  have hshared : (do
      let s ← (ofSources [(none, "schema { query: Mutation } type Mutation { a: Int }")]).toOption
      return ((s.root? .query).isSome && s.rootName? .query == s.rootName? .mutation)) = some true := by
    decide +kernel
  obtain ⟨s, hs, hshared⟩ := Option.bind_eq_some_iff.1 hshared
  obtain ⟨hquery, hnames⟩ := Bool.and_eq_true_iff.1 (Option.some.inj hshared)
  obtain ⟨t, ht⟩ := Option.isSome_iff_exists.1 hquery
  have hmutation : s.root? .mutation = s.root? .query := by
    rw [root?, root?, eq_of_beq hnames]
  exact ⟨s, t, eq_ok_of_toOption hs, ht, hmutation.trans ht⟩

end Schema

end QueryAid
