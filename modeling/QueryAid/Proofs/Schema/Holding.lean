import QueryAid.Proofs.Schema.Contents
import QueryAid.Proofs.Schema.WellFormed
import Mathlib.Data.List.Forall2
/-!
# What schemas hold

A schema holds what its sources say, in order, and nothing else but what belongs to the language
(`Schema.Holds`). Types and directives stand in the order in which they were loaded. A type has the members of its
definition and behind them those of its extensions, wherever these stand, since extensions are applied when everything
is loaded.
-/

namespace QueryAid

/-! ### What it means -/

/-- **The members that sources bring to a type,** with their files: those of its definition, and then those of its
extensions. -/
def Sources.membersOf (S : Sources) (x : String × Sdl.TypeDefinition) : List (String × Sdl.Member) :=
  (S.bodiesOf x).flatMap fun b => b.2.members.map (b.1, ·)

/-- **A type is what a definition and its extensions say.** -/
structure Sources.Assembles (S : Sources) (x : String × Sdl.TypeDefinition) (t : TypeDef) : Prop where
  name : t.name = x.2.name
  description : t.description = x.2.description
  location : t.location = .file x.1 x.2.place
  kind : t.kind = x.2.body.kind
  interfaces : t.contents.interfaceNames = (S.bodiesOf x).flatMap fun b => b.2.interfaceNames
  members : List.Forall₂ (fun source m => m.Declares source.1 source.2) (S.membersOf x) t.contents.members

/-- **A schema holds what sources say,** in order, and what belongs to the language. -/
structure Schema.Holds (s : Schema) (S : Sources) : Prop where
  /-- The types are the built-in scalars, those that are defined, and those that describe schemas. -/
  types : ∃ defined, s.types.entries = builtInScalars ++ defined ++ introspectionTypes ∧
    List.Forall₂ S.Assembles S.types defined
  /-- The directives are those that are defined, and those that are built in. -/
  directives : ∃ defined, s.directives.entries = defined ++ builtInDirectives ∧
    List.Forall₂ (fun x d => d.Declares x.1 x.2) S.directives defined
  /-- A root is the type that is declared, or else the object type of the usual name. -/
  roots : ∀ k name, s.rootName? k = some name ↔
    (∃ r, (k, r) ∈ S.roots ∧ r.typeName = name) ∨
      k ∉ S.roots.map Prod.fst ∧ name = k.title ∧ S.HasKind name .object

/-! ### Types -/

namespace Sources

variable {S : Sources} {x : String × Sdl.TypeDefinition}

/-- **A definition with its extensions is what it says.** -/
theorem assembles_declared (h : (TypeContents.emptyFor x.2.body).Mergeable x.2.name (S.bodiesOf x)) :
    S.Assembles x ((TypeDef.declared x.1 x.2).extendedByAll S.extensions) where
  name := rfl
  description := rfl
  location := rfl
  kind := by rw [TypeDef.kind_extendedByAll, kind_declared]
  interfaces := by
    have hkinds := fun b hb => ((mergeable_emptyFor_iff.1 h).1 b hb).1
    have hkind : (TypeContents.emptyFor x.2.body).kind = x.2.body.kind := by cases x.2.body <;> rfl
    have hnone : (TypeContents.emptyFor x.2.body).interfaceNames = [] := by cases x.2.body <;> rfl
    refine (TypeContents.interfaceNames_plusAll fun b hb => hkind.trans (hkinds b hb)).trans ?_
    rw [hnone, List.nil_append]
  members := by
    have hmembers : ((TypeDef.declared x.1 x.2).extendedByAll S.extensions).contents.members =
        (S.membersOf x).map fun source => Member.ofSource source.1 source.2 := by
      refine (TypeContents.members_plusAll h).trans ?_
      rw [TypeContents.members_emptyFor, List.nil_append, membersOf, List.map_flatMap]
      simp only [List.map_map]
      rfl
    rw [hmembers, List.forall₂_map_right_iff, List.forall₂_same]
    exact fun source _ => Member.declares_ofSource source.1 source.2

/-- What belongs to the language stays as it is, unless types that describe schemas are extended. -/
theorem map_extendedByAll_unextendedTypes
    (hmerge : ∀ t ∈ S.unextendedTypes, t.contents.Mergeable t.name (bodiesFor S.extensions t.name))
    (hreserved : ∀ p ∈ S.extensions, isReserved p.extension.name = false) :
    S.unextendedTypes.map (TypeDef.extendedByAll S.extensions) = builtInScalars ++
      S.types.map (fun x => (TypeDef.declared x.1 x.2).extendedByAll S.extensions) ++ introspectionTypes := by
  have hself : ∀ t : TypeDef, bodiesFor S.extensions t.name = [] → t.extendedByAll S.extensions = t := by
    intro t hnone
    rw [TypeDef.extendedByAll, hnone]
    rfl
  have hscalars : builtInScalars.map (TypeDef.extendedByAll S.extensions) = builtInScalars := by
    refine (List.map_congr_left fun t ht => hself t ?_).trans (List.map_id _)
    exact bodies_eq_nil_of_mergeable_builtIn ht (hmerge t (mem_unextendedTypes_iff.2 (.inl ht)))
  have hintrospection : introspectionTypes.map (TypeDef.extendedByAll S.extensions) = introspectionTypes :=
    (List.map_congr_left fun t ht => hself t (bodiesFor_introspection hreserved ht)).trans (List.map_id _)
  rw [unextendedTypes, List.map_append, List.map_append, hscalars, hintrospection, List.map_map]
  rfl

end Sources

/-! ### Schemas -/

namespace Schema

variable {S : Sources} {b : SchemaBuilder} {s : Schema}

/-- A root is the one that is declared, which is an object, or else the usual one. -/
theorem rootName?_eq_some_iff_of_builds (hloads : SchemaBuilder.Loads S .new b) (hbuilds : b.Builds s)
    (k : OperationKind) (name : String) : s.rootName? k = some name ↔
      (∃ r, (k, r) ∈ S.roots ∧ r.typeName = name) ∨
        k ∉ S.roots.map Prod.fst ∧ name = k.title ∧ S.HasKind name .object := by
  have hentries := (hloads.extended hbuilds.types).2
  obtain ⟨hobject, hname⟩ := SchemaBuilder.resolveRoot_eq_ok_iff.1 (hbuilds.roots k)
  have hdeclared : ∀ r, b.roots.get k = some r ↔ (k, r) ∈ S.roots := fun _ => hloads.get_roots_iff
  have hkinds : k ∈ S.roots.map Prod.fst ↔ ∃ r, b.roots.get k = some r := by
    simp [hdeclared]
  rw [hname name, hkinds, Sources.inOrder_iff_leads hentries, Sources.leads_object_iff]
  simp only [← hdeclared, SchemaBuilder.meantRoot]
  cases hroot : b.roots.get k with
  | none => simp
  | some r =>
    have hleads : S.HasKind r.typeName .object := by
      rw [← Sources.leads_object_iff, ← Sources.inOrder_iff_leads hentries]
      exact hobject r hroot
    simp only [Option.some.injEq, exists_eq_left', exists_eq', not_true_eq_false, false_and, or_false]
    constructor
    · rintro ⟨rfl, -⟩
      rfl
    · rintro rfl
      exact ⟨rfl, hleads⟩

/-- What was built from sources holds what they say, if they do not extend types with reserved names. -/
theorem holds_of_builds (hloads : SchemaBuilder.Loads S .new b) (hbuilds : b.Builds s)
    (hreserved : ∀ p ∈ S.extensions, isReserved p.extension.name = false) : s.Holds S := by
  obtain ⟨hload, -⟩ := SchemaBuilder.loads_new_iff.1 hloads
  obtain ⟨hmerge, hentries⟩ := hloads.extended hbuilds.types
  have htypes := hentries.trans (Sources.map_extendedByAll_unextendedTypes hmerge hreserved)
  have hassembles : List.Forall₂ S.Assembles S.types
      (S.types.map fun x => (TypeDef.declared x.1 x.2).extendedByAll S.extensions) := by
    rw [List.forall₂_map_right_iff, List.forall₂_same]
    intro x hx
    have hextensions := hmerge _ (Sources.mem_unextendedTypes_iff.2 (.inr (.inl ⟨x, hx, rfl⟩)))
    exact Sources.assembles_declared ⟨(hload.types x hx).body, hextensions⟩
  have hdirectives : s.directives.entries = S.directives.map (fun x => .ofSource x.1 x.2) ++ builtInDirectives := by
    rw [hbuilds.directives, Sources.entries_insertAll_builtInDirectives hloads]
  have hdeclares : List.Forall₂ (fun x (d : DirectiveDef) => d.Declares x.1 x.2) S.directives
      (S.directives.map fun x => .ofSource x.1 x.2) := by
    rw [List.forall₂_map_right_iff, List.forall₂_same]
    exact fun x _ => DirectiveDef.declares_ofSource x.1 x.2
  exact ⟨⟨_, htypes, hassembles⟩, ⟨_, hdirectives, hdeclares⟩, rootName?_eq_some_iff_of_builds hloads hbuilds⟩

/-- **The schema of named texts holds what they say,** if they do not extend types with reserved names. -/
theorem holds_of_ofSources {texts : List (String × String)}
    (h : ofSources (texts.map fun t => (some t.1, t.2)) = .ok s)
    (hreserved : ∀ p ∈ (Sources.ofTexts texts).extensions, isReserved p.extension.name = false) :
    s.Holds (.ofTexts texts) := by
  obtain ⟨-, b, ⟨hloads, -⟩, hbuilds⟩ := ofSources_texts_eq_ok_iff.1 h
  exact holds_of_builds hloads hbuilds hreserved

/-- A type is extended before it is defined and after it, in three files, and an argument of a field is repeated. -/
theorem holds_of_scattered_extensions : ∃ s,
    ofSources [(some "a", "extend type Query implements I { b(x: Int, y: ID, x: Float = 2): [U!]! @deprecated }"),
        (some "b", "\"the root\" type Query { a: Int } union U = Query interface I { c: E } directive @d on FIELD"),
        (some "c", "enum E { F } extend type Query { c: E } extend enum E { G @deprecated }")] = .ok s ∧
      s.Holds (.ofTexts
        [("a", "extend type Query implements I { b(x: Int, y: ID, x: Float = 2): [U!]! @deprecated }"),
          ("b", "\"the root\" type Query { a: Int } union U = Query interface I { c: E } directive @d on FIELD"),
          ("c", "enum E { F } extend type Query { c: E } extend enum E { G @deprecated }")]) := by
  obtain ⟨s, hs⟩ := exists_eq_ok_of_isOk (x := ofSources
    [(some "a", "extend type Query implements I { b(x: Int, y: ID, x: Float = 2): [U!]! @deprecated }"),
      (some "b", "\"the root\" type Query { a: Int } union U = Query interface I { c: E } directive @d on FIELD"),
      (some "c", "enum E { F } extend type Query { c: E } extend enum E { G @deprecated }")])
    (by decide +kernel)
  exact ⟨s, hs, holds_of_ofSources hs (by decide +kernel)⟩

end Schema

end QueryAid
