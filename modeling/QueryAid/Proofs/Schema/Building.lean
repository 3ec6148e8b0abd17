import QueryAid.Proofs.Schema.Extending
import QueryAid.Proofs.Schema.References
/-!
# What it takes to build a schema

`build_eq_ok_iff` takes the building of a schema apart: the types after all extensions, the directives, the roots
and the check of references. The types that are there before the extensions are described by
`mem_entries_unextended_iff`.
-/

namespace QueryAid

namespace SchemaBuilder

variable {b : SchemaBuilder} {types : Table TypeDef} {k : OperationKind}

/-! ### Roots -/

theorem any_isObject_iff {name : String} :
    (types.find? name).any TypeDef.isObject = true ↔ Reference.InOrder types (name, .object) := by
  simp only [Option.any_eq_true, TypeDef.isObject_iff]
  rfl

/-- The type that operations of a kind are to start at: the declared one, or else the usual one. -/
def meantRoot (b : SchemaBuilder) (k : OperationKind) : String :=
  match b.roots.get k with
  | some r => r.typeName
  | none => k.title

/-- The root that is found, when `meant` is the type that operations are to start at. -/
private theorem root_spec_iff {root : Option String} {meant : String} :
    (∀ name, root = some name ↔ name = meant ∧ Reference.InOrder types (name, .object)) ↔
      root = if (types.find? meant).any TypeDef.isObject then some meant else none := by
  by_cases h : Reference.InOrder types (meant, .object)
  · rw [if_pos (any_isObject_iff.2 h)]
    constructor
    · intro hn
      exact (hn meant).2 ⟨rfl, h⟩
    · rintro rfl name
      rw [Option.some.injEq]
      exact ⟨fun e => ⟨e.symm, e ▸ h⟩, fun e => e.1.symm⟩
  · rw [if_neg (fun hany => h (any_isObject_iff.1 hany))]
    constructor
    · intro hn
      refine Option.eq_none_iff_forall_ne_some.2 fun name e => h ?_
      obtain ⟨rfl, hobject⟩ := (hn name).1 e
      exact hobject
    · rintro rfl name
      exact ⟨nofun, fun e => absurd (e.1 ▸ e.2) h⟩

/-- **A root is found exactly if it is an object or is not declared,** and then it is the one that is meant, should
it be an object. -/
theorem resolveRoot_eq_ok_iff {root : Option String} :
    b.resolveRoot types k = .ok root ↔
      (∀ r, b.roots.get k = some r → Reference.InOrder types (r.typeName, .object)) ∧
      ∀ name, root = some name ↔ name = b.meantRoot k ∧ Reference.InOrder types (name, .object) := by
  rw [root_spec_iff]
  unfold resolveRoot meantRoot
  cases b.roots.get k with
  | none => simp only [reduceCtorEq, false_imp_iff, implies_true, true_and, Except.ok.injEq, eq_comm]
  | some r =>
    simp only [Option.some.injEq, forall_eq']
    by_cases h : (types.find? r.typeName).any TypeDef.isObject = true
    · simp [h, eq_comm, any_isObject_iff.1 h]
    · have hnot : ¬ Reference.InOrder types (r.typeName, .object) := fun h' => h (any_isObject_iff.2 h')
      simp [h, hnot]

theorem exists_resolveRoot_iff :
    (∃ root, b.resolveRoot types k = .ok root) ↔
      ∀ r, b.roots.get k = some r → Reference.InOrder types (r.typeName, .object) := by
  constructor
  · rintro ⟨root, h⟩
    exact (resolveRoot_eq_ok_iff.1 h).1
  · exact fun h => ⟨_, resolveRoot_eq_ok_iff.2 ⟨h, root_spec_iff.2 rfl⟩⟩

/-! ### Building -/

/-- The types before the extensions: those that were loaded, and those that describe a schema. -/
def unextended (b : SchemaBuilder) : Table TypeDef := b.types.insertAll introspectionTypes

/-- **What it takes for a builder to build a schema.** -/
structure Builds (b : SchemaBuilder) (s : Schema) : Prop where
  directives : s.directives = b.directives.insertAll builtInDirectives
  types : b.extensions.foldlM applyExtension b.unextended = .ok s.types
  roots : ∀ k, b.resolveRoot s.types k = .ok (s.rootName? k)
  references : checkReferences s.types s.directives = []

theorem build_eq_ok_iff {s : Schema} : b.build = .ok s ↔ b.Builds s := by
  unfold build
  -- The tables are large terms, and nothing here depends on what is in them.
  generalize hdirectives : b.directives.insertAll builtInDirectives = directives
  have hunextended : b.types.insertAll introspectionTypes = b.unextended := rfl
  rw [hunextended]
  constructor
  · intro h
    obtain ⟨types, htypes, h⟩ := bind_eq_ok_iff.1 h
    obtain ⟨root, hquery, h⟩ := bind_eq_ok_iff.1 h
    cases root with
    | none => cases h
    | some query =>
      obtain ⟨mutation, hmutation, h⟩ := bind_eq_ok_iff.1 h
      obtain ⟨subscription, hsubscription, h⟩ := bind_eq_ok_iff.1 h
      split at h
      · next hreferences =>
        cases h
        refine ⟨hdirectives.symm, htypes, fun k => ?_, hreferences⟩
        cases k with
        | query => exact hquery
        | mutation => exact hmutation
        | subscription => exact hsubscription
      · cases h
  · intro h
    obtain ⟨types, directives', query, mutation, subscription⟩ := s
    obtain rfl : directives' = directives := h.directives.trans hdirectives
    have hreferences : checkReferences types directives' = [] := h.references
    refine bind_eq_ok_iff.2 ⟨types, h.types, bind_eq_ok_iff.2 ⟨some query, h.roots .query, ?_⟩⟩
    refine bind_eq_ok_iff.2 ⟨mutation, h.roots .mutation, ?_⟩
    refine bind_eq_ok_iff.2 ⟨subscription, h.roots .subscription, ?_⟩
    rw [hreferences]
    rfl

/-- **A schema can be built exactly if the extensions can be applied, declared roots are objects, there is a root
for queries, and all references are in order.** -/
theorem exists_builds_iff :
    (∃ s, b.Builds s) ↔ ∃ types, b.extensions.foldlM applyExtension b.unextended = .ok types ∧
      (∀ k r, b.roots.get k = some r → Reference.InOrder types (r.typeName, .object)) ∧
      Reference.InOrder types (b.meantRoot .query, .object) ∧
      checkReferences types (b.directives.insertAll builtInDirectives) = [] := by
  generalize hdirectives : b.directives.insertAll builtInDirectives = directives
  constructor
  · rintro ⟨s, h⟩
    have hquery := (resolveRoot_eq_ok_iff.1 (h.roots .query)).2 s.queryType
    obtain ⟨hmeant, hobject⟩ := hquery.1 rfl
    have hreferences : checkReferences s.types directives = [] := by
      rw [← hdirectives, ← h.directives]
      exact h.references
    exact ⟨s.types, h.types, fun k => (resolveRoot_eq_ok_iff.1 (h.roots k)).1, hmeant ▸ hobject, hreferences⟩
  · rintro ⟨types, htypes, hroots, hquery, hreferences⟩
    obtain ⟨query, hqueryRoot⟩ := exists_resolveRoot_iff.2 (hroots .query)
    obtain ⟨mutation, hmutation⟩ := exists_resolveRoot_iff.2 (hroots .mutation)
    obtain ⟨subscription, hsubscription⟩ := exists_resolveRoot_iff.2 (hroots .subscription)
    obtain rfl : query = some (b.meantRoot .query) :=
      ((resolveRoot_eq_ok_iff.1 hqueryRoot).2 _).2 ⟨rfl, hquery⟩
    refine ⟨⟨types, directives, b.meantRoot .query, mutation, subscription⟩, hdirectives.symm, htypes,
      fun k => ?_, hreferences⟩
    cases k with
    | query => exact hqueryRoot
    | mutation => exact hmutation
    | subscription => exact hsubscription

end SchemaBuilder

/-! ### The types of a schema -/

/-- A reference is to something that every schema has, and of a kind that is allowed. -/
def Reference.IsStandard (r : Reference) : Prop :=
  ∃ t ∈ builtInScalars ++ introspectionTypes, t.name = r.1 ∧ r.2.Allows t.kind

instance (r : Reference) : Decidable r.IsStandard :=
  inferInstanceAs (Decidable (∃ t ∈ builtInScalars ++ introspectionTypes, t.name = r.1 ∧ r.2.Allows t.kind))

/-- The types before the extensions: the built-in scalars, those of the sources, and those that describe a
schema. -/
def Sources.unextendedTypes (S : Sources) : List TypeDef :=
  builtInScalars ++ S.types.map (fun x => .declared x.1 x.2) ++ introspectionTypes

namespace SchemaBuilder

variable {S : Sources} {b : SchemaBuilder} {types : Table TypeDef}

/-- The types that describe a schema go behind those that were loaded, since no source may define one. -/
theorem Loads.entries_unextended (h : Loads S new b) : b.unextended.entries = S.unextendedTypes := by
  obtain ⟨hload, hentries, -⟩ := loads_new_iff.1 h
  have hreserved : ∀ n ∈ introspectionTypes.map Named.name, isReserved n = true := by decide +kernel
  have hscalars : ∀ t ∈ builtInScalars, isReserved (Named.name t) = false := by decide +kernel
  have hnew : Fresh (· ∈ b.types.names) (introspectionTypes.map Named.name) := by
    refine ⟨by decide +kernel, fun n hn hmem => ?_⟩
    obtain ⟨t, ht, rfl⟩ := Table.mem_names.1 hmem
    have hnot : isReserved (Named.name t) = false := by
      rw [hentries, List.mem_append, List.mem_map] at ht
      rcases ht with ht | ⟨x, hx, rfl⟩
      · exact hscalars t ht
      · exact (hload.types x hx).name
    exact absurd (hreserved _ hn) (hnot ▸ Bool.false_ne_true)
  rw [unextended, Table.entries_insertAll_of_fresh hnew, hentries, Sources.unextendedTypes]

/-- **After the extensions, the types are those before them, each with the extensions that name it.** -/
theorem Loads.extended (h : Loads S new b)
    (hfold : b.extensions.foldlM applyExtension b.unextended = .ok types) :
    (∀ t ∈ S.unextendedTypes, t.contents.Mergeable t.name (bodiesFor S.extensions t.name)) ∧
      types.entries = S.unextendedTypes.map (TypeDef.extendedByAll S.extensions) := by
  have hextensions : b.extensions = S.extensions := h.extensions
  rw [← h.entries_unextended, ← hextensions]
  exact (foldlM_applyExtension_eq_ok_iff.1 hfold).2

end SchemaBuilder

/-! ### Schemas of named texts -/

/-- **Named texts are a schema exactly if all of them can be read,** their definitions can be loaded, and what was
loaded is that schema. -/
theorem Schema.ofSources_texts_eq_ok_iff {texts : List (String × String)} {s : Schema} :
    ofSources (texts.map fun t => (some t.1, t.2)) = .ok s ↔
      (∀ t ∈ texts, ∃ ds, Sdl.parse t.2.toList = .ok ds) ∧
      ∃ b, (SchemaBuilder.Loads (.ofTexts texts) .new b ∧ b.unnamed = SchemaBuilder.new.unnamed) ∧ b.Builds s := by
  unfold ofSources
  rw [bind_eq_ok_iff]
  constructor
  · rintro ⟨b, hload, hbuild⟩
    have hparse := List.forall_mem_map.1 (SchemaBuilder.exists_parse_of_foldlM_load hload)
    exact ⟨hparse, b, (SchemaBuilder.foldlM_load_eq_ok_iff hparse).1 hload, SchemaBuilder.build_eq_ok_iff.1 hbuild⟩
  · rintro ⟨hparse, b, hloads, hbuilds⟩
    exact ⟨b, (SchemaBuilder.foldlM_load_eq_ok_iff hparse).2 hloads, SchemaBuilder.build_eq_ok_iff.2 hbuilds⟩

end QueryAid
