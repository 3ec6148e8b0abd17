import QueryAid.Proofs.Schema.Holding
/-!
# The order of sources

Sources are loaded one after the other, and the first thing that is wrong ends it. Which one that is depends on the
order, but whether there is one does not: names are distinct in any order, extensions wait until everything is loaded,
and references are checked last (`exists_builds_of_perm`). Nor does the schema depend on it, but for the order of what
different texts bring (`Schema.AgreesInOrder`).
-/

namespace QueryAid

/-! ### Names, bodies and extensions -/

/-- New keys are new in any order. -/
theorem fresh_perm_iff {κ : Type} {used : κ → Prop} {xs ys : List κ} (h : xs.Perm ys) :
    Fresh used xs ↔ Fresh used ys := by
  unfold Fresh
  simp only [h.nodup_iff, h.mem_iff]

theorem bodiesFor_perm {extensions extensions' : List PendingExtension} (h : extensions.Perm extensions')
    (name : String) : (bodiesFor extensions name).Perm (bodiesFor extensions' name) :=
  (h.filter _).map _

/-- Bodies that can be added one after the other can be added in any order. -/
theorem TypeContents.mergeable_perm_iff {owner : String} {c : TypeContents}
    {bodies bodies' : List (String × Sdl.TypeBody)} (h : bodies.Perm bodies') :
    c.Mergeable owner bodies ↔ c.Mergeable owner bodies' := by
  have hinterfaces : Fresh (· ∈ c.interfaceNames) (bodies.flatMap fun b => b.2.interfaceNames) ↔
      Fresh (· ∈ c.interfaceNames) (bodies'.flatMap fun b => b.2.interfaceNames) :=
    fresh_perm_iff (h.flatMap_right _)
  have hmembers : Fresh (· ∈ c.memberNames) (bodies.flatMap fun b => b.2.memberNames) ↔
      Fresh (· ∈ c.memberNames) (bodies'.flatMap fun b => b.2.memberNames) :=
    fresh_perm_iff (h.flatMap_right _)
  rw [mergeable_iff, mergeable_iff, hinterfaces, hmembers]
  simp only [h.mem_iff]

namespace Sources

variable {S S' : Sources}

theorem types_perm (h : S.Perm S') : S.types.Perm S'.types := h.filterMap _

theorem directives_perm (h : S.Perm S') : S.directives.Perm S'.directives := h.filterMap _

theorem extensions_perm (h : S.Perm S') : S.extensions.Perm S'.extensions := h.filterMap _

theorem roots_perm (h : S.Perm S') : S.roots.Perm S'.roots := (h.filterMap _).flatMap_right _

theorem unextendedTypes_perm (h : S.Perm S') : S.unextendedTypes.Perm S'.unextendedTypes :=
  (((types_perm h).map _).append_left builtInScalars).append_right introspectionTypes

/-- What can be loaded can be loaded in any order. -/
theorem Loadable.perm (hload : S.Loadable) (h : S.Perm S') : S'.Loadable where
  types x hx := hload.types x ((types_perm h).mem_iff.2 hx)
  typeNames := (fresh_perm_iff ((types_perm h).map _)).1 hload.typeNames
  directives x hx := hload.directives x ((directives_perm h).mem_iff.2 hx)
  directiveNames := ((directives_perm h).map _).nodup_iff.1 hload.directiveNames
  operations := ((roots_perm h).map _).nodup_iff.1 hload.operations
  rootNames := ((roots_perm h).map _).nodup_iff.1 hload.rootNames

theorem hasKind_perm_iff (h : S.Perm S') {name : String} {k : TypeKind} : S.HasKind name k ↔ S'.HasKind name k := by
  constructor
  · intro hkind
    cases hkind with
    | standard ht => exact .standard ht
    | defined hx => exact .defined ((types_perm h).mem_iff.1 hx)
  · intro hkind
    cases hkind with
    | standard ht => exact .standard ht
    | defined hx => exact .defined ((types_perm h).mem_iff.2 hx)

theorem leads_perm_iff (h : S.Perm S') {r : Reference} : S.Leads r ↔ S'.Leads r :=
  exists_congr fun _ => and_congr_left fun _ => hasKind_perm_iff h

/-- A type refers to the same types, whatever the order of its extensions. -/
theorem mem_references_perm_iff (h : S.Perm S') {t : TypeDef} {r : Reference}
    (hmerge : t.contents.Mergeable t.name (bodiesFor S.extensions t.name)) :
    r ∈ (t.extendedByAll S.extensions).contents.references ↔
      r ∈ (t.extendedByAll S'.extensions).contents.references := by
  have hbodies := bodiesFor_perm (extensions_perm h) t.name
  have hmerge' := (TypeContents.mergeable_perm_iff hbodies).1 hmerge
  refine (TypeContents.mem_references_plusAll_iff hmerge).trans ?_
  refine Iff.trans ?_ (TypeContents.mem_references_plusAll_iff hmerge').symm
  simp only [hbodies.mem_iff]

end Sources

/-! ### Whether there is a schema -/

namespace SchemaBuilder

variable {S S' : Sources} {b b' : SchemaBuilder} {s s' : Schema}

theorem get_roots_of_perm (h : S.Perm S') (hloads : Loads S new b) (hloads' : Loads S' new b') (k : OperationKind) :
    b'.roots.get k = b.roots.get k :=
  Option.ext fun r => by
    rw [hloads'.get_roots_iff, hloads.get_roots_iff, (Sources.roots_perm h).mem_iff]

theorem directives_perm_of_loads (h : S.Perm S') (hloads : Loads S new b) (hloads' : Loads S' new b') :
    (b.directives.insertAll builtInDirectives).entries.Perm (b'.directives.insertAll builtInDirectives).entries := by
  rw [Sources.entries_insertAll_builtInDirectives hloads, Sources.entries_insertAll_builtInDirectives hloads']
  exact ((Sources.directives_perm h).map _).append_right _

/-- Extensions that can be applied can be applied in another order of the sources. -/
theorem exists_extended_of_perm (h : S.Perm S') (hloads : Loads S new b) (hloads' : Loads S' new b')
    {types : Table TypeDef} (hfold : b.extensions.foldlM applyExtension b.unextended = .ok types) :
    ∃ types', b'.extensions.foldlM applyExtension b'.unextended = .ok types' := by
  have hextensions : b.extensions = S.extensions := hloads.extensions
  have hextensions' : b'.extensions = S'.extensions := hloads'.extensions
  have hunextended := Sources.unextendedTypes_perm h
  rw [hextensions] at hfold
  obtain ⟨hnames, hmerge, -⟩ := foldlM_applyExtension_eq_ok_iff.1 hfold
  simp only [Table.mem_names, hloads.entries_unextended] at hnames
  rw [hloads.entries_unextended] at hmerge
  rw [hextensions']
  refine ⟨b'.unextended.mapEntries (TypeDef.extendedByAll S'.extensions) (TypeDef.name_extendedByAll _),
    foldlM_applyExtension_eq_ok_iff.2 ⟨fun p hp => ?_, fun t ht => ?_, Table.entries_mapEntries⟩⟩
  · obtain ⟨t, ht, hname⟩ := hnames p ((Sources.extensions_perm h).mem_iff.2 hp)
    rw [Table.mem_names, hloads'.entries_unextended]
    exact ⟨t, hunextended.mem_iff.1 ht, hname⟩
  · rw [hloads'.entries_unextended] at ht
    have hbodies := bodiesFor_perm (Sources.extensions_perm h) t.name
    exact (TypeContents.mergeable_perm_iff hbodies).1 (hmerge t (hunextended.mem_iff.2 ht))

/-- **What can be built can be built in any order of the sources.** -/
theorem exists_builds_of_perm (h : S.Perm S') (hloads : Loads S new b) (hbuilds : b.Builds s) :
    ∃ b' s', (Loads S' new b' ∧ b'.unnamed = new.unnamed) ∧ b'.Builds s' := by
  obtain ⟨hload, -⟩ := loads_new_iff.1 hloads
  obtain ⟨b', hloads'⟩ := exists_loads_iff.2 (hload.perm h)
  obtain ⟨types, hfold, hroots, hquery, hreferences⟩ := exists_builds_iff.1 ⟨s, hbuilds⟩
  obtain ⟨types', hfold'⟩ := exists_extended_of_perm h hloads hloads'.1 hfold
  obtain ⟨hmerge, hentries⟩ := hloads.extended hfold
  obtain ⟨-, hentries'⟩ := hloads'.1.extended hfold'
  have hget := get_roots_of_perm h hloads hloads'.1
  have hinOrder (r : Reference) : r.InOrder types' ↔ r.InOrder types := by
    rw [Sources.inOrder_iff_leads hentries', Sources.inOrder_iff_leads hentries, Sources.leads_perm_iff h]
  have hmeant : b'.meantRoot .query = b.meantRoot .query := by
    rw [meantRoot, meantRoot, hget]
  obtain ⟨htypes, hdirectives⟩ := checkReferences_eq_nil_iff.1 hreferences
  refine ⟨b', (exists_builds_iff.2 ⟨types', hfold', fun k r hr => ?_, ?_, ?_⟩).imp fun _ hs => ⟨hloads', hs⟩⟩
  · rw [hinOrder]
    exact hroots k r (hget k ▸ hr)
  · rw [hmeant, hinOrder]
    exact hquery
  · rw [checkReferences_eq_nil_iff]
    refine ⟨fun t ht r hr => ?_, fun d hd r hr => ?_⟩
    · rw [hentries'] at ht
      obtain ⟨u, hu, rfl⟩ := List.mem_map.1 ht
      have hu := (Sources.unextendedTypes_perm h).mem_iff.2 hu
      have hextended : u.extendedByAll S.extensions ∈ types.entries := hentries ▸ List.mem_map_of_mem hu
      rw [hinOrder]
      exact htypes _ hextended r ((Sources.mem_references_perm_iff h (hmerge u hu)).2 hr)
    · rw [hinOrder]
      exact hdirectives d ((directives_perm_of_loads h hloads hloads'.1).mem_iff.2 hd) r hr

end SchemaBuilder

/-! ### What the schema is -/

namespace Sources

variable {texts texts' : List (String × String)}

/-- The bodies, with their files, of the extensions of a type in one text. -/
def extensionsIn (name : String) (text : String × String) : List (String × Sdl.TypeBody) :=
  bodiesFor (ofTexts [text]).extensions name

/-- The interfaces that one text adds to a type. -/
def interfacesIn (name : String) (text : String × String) : List String :=
  (extensionsIn name text).flatMap fun b => b.2.interfaceNames

/-- The members that one text adds to a type. -/
def membersIn (name : String) (text : String × String) : List Member :=
  (extensionsIn name text).flatMap fun b => b.2.members.map (Member.ofSource b.1)

/-- The extensions of a type are those in the first text, then those in the second, and so on. -/
theorem bodiesFor_ofTexts (texts : List (String × String)) (name : String) :
    bodiesFor (ofTexts texts).extensions name = texts.flatMap (extensionsIn name) := by
  induction texts with
  | nil => rfl
  | cons text texts ih =>
    have hsplit : ofTexts (text :: texts) = ofTexts [text] ++ ofTexts texts := by
      rw [ofTexts, ofTexts, ofTexts, List.flatMap_cons, List.flatMap_cons, List.flatMap_nil, List.append_nil]
    rw [List.flatMap_cons, ← ih, hsplit, extensions, List.filterMap_append, bodiesFor_append]
    rfl

theorem ofTexts_perm (h : texts.Perm texts') : (ofTexts texts).Perm (ofTexts texts') := h.flatMap_right _

end Sources

/-- **Two types differ in nothing but the order of what different texts bring.** What they have of their own comes
first in both of them, and behind it comes what the extensions in each text bring, text by text. -/
structure TypeDef.AgreesInOrder (texts texts' : List (String × String)) (t t' : TypeDef) : Prop where
  kind : t'.kind = t.kind
  description : t'.description = t.description
  location : t'.location = t.location
  interfaces : t'.contents.interfaceNames.Perm t.contents.interfaceNames
  members : t'.contents.members.Perm t.contents.members
  interfaceOrder : ∃ own,
    t.contents.interfaceNames = own ++ texts.flatMap (Sources.interfacesIn t.name) ∧
    t'.contents.interfaceNames = own ++ texts'.flatMap (Sources.interfacesIn t.name)
  memberOrder : ∃ own,
    t.contents.members = own ++ texts.flatMap (Sources.membersIn t.name) ∧
    t'.contents.members = own ++ texts'.flatMap (Sources.membersIn t.name)

/-- **Two schemas differ in nothing but the order of entries,** and of what different texts bring to a type. -/
structure Schema.AgreesInOrder (texts texts' : List (String × String)) (s s' : Schema) : Prop where
  roots : ∀ k, s'.rootName? k = s.rootName? k
  typeNames : s'.types.names.Perm s.types.names
  types : ∀ name t t', s.type? name = some t → s'.type? name = some t' → t.AgreesInOrder texts texts' t'
  /-- The directives are the same, with all that is in them. -/
  directives : s'.directives.entries.Perm s.directives.entries

namespace TypeDef

variable {texts texts' : List (String × String)} {t : TypeDef}

/-- What a type consists of after texts were loaded: what it had, and then what each text adds. -/
theorem contents_extendedByAll_ofTexts
    (hmerge : t.contents.Mergeable t.name (bodiesFor (Sources.ofTexts texts).extensions t.name)) :
    (t.extendedByAll (Sources.ofTexts texts).extensions).contents.interfaceNames =
      t.contents.interfaceNames ++ texts.flatMap (Sources.interfacesIn t.name) ∧
    (t.extendedByAll (Sources.ofTexts texts).extensions).contents.members =
      t.contents.members ++ texts.flatMap (Sources.membersIn t.name) := by
  have hkinds := (TypeContents.mergeable_iff.1 hmerge).1
  have hinterfaces := TypeContents.interfaceNames_plusAll fun b hb => (hkinds b hb).1
  have hmembers := TypeContents.members_plusAll hmerge
  rw [Sources.bodiesFor_ofTexts, List.flatMap_assoc] at hinterfaces hmembers
  rw [extendedByAll, Sources.bodiesFor_ofTexts]
  exact ⟨hinterfaces, hmembers⟩

theorem agreesInOrder_extendedByAll (h : texts.Perm texts')
    (hmerge : t.contents.Mergeable t.name (bodiesFor (Sources.ofTexts texts).extensions t.name)) :
    (t.extendedByAll (Sources.ofTexts texts).extensions).AgreesInOrder texts texts'
      (t.extendedByAll (Sources.ofTexts texts').extensions) := by
  have hbodies := bodiesFor_perm (Sources.extensions_perm (Sources.ofTexts_perm h)) t.name
  have hmerge' := (TypeContents.mergeable_perm_iff hbodies).1 hmerge
  obtain ⟨hinterfaces, hmembers⟩ := contents_extendedByAll_ofTexts hmerge
  obtain ⟨hinterfaces', hmembers'⟩ := contents_extendedByAll_ofTexts hmerge'
  refine ⟨?_, rfl, rfl, ?_, ?_, ⟨_, hinterfaces, hinterfaces'⟩, ⟨_, hmembers, hmembers'⟩⟩
  · rw [kind_extendedByAll, kind_extendedByAll]
  · rw [hinterfaces, hinterfaces']
    exact (h.symm.flatMap_right _).append_left _
  · rw [hmembers, hmembers']
    exact (h.symm.flatMap_right _).append_left _

end TypeDef

namespace Schema

variable {texts texts' : List (String × String)} {s s' : Schema}

/-- What is built from texts in two orders agrees. -/
theorem agreesInOrder_of_builds {b b' : SchemaBuilder} (h : texts.Perm texts')
    (hloads : SchemaBuilder.Loads (.ofTexts texts) .new b) (hbuilds : b.Builds s)
    (hloads' : SchemaBuilder.Loads (.ofTexts texts') .new b') (hbuilds' : b'.Builds s') :
    s.AgreesInOrder texts texts' s' := by
  have hsources := Sources.ofTexts_perm h
  have hunextended := Sources.unextendedTypes_perm hsources
  obtain ⟨hmerge, hentries⟩ := hloads.extended hbuilds.types
  obtain ⟨-, hentries'⟩ := hloads'.extended hbuilds'.types
  -- Extensions change no names, so that types are told apart by them before the extensions as well.
  have hnames : s.types.names = (Sources.ofTexts texts).unextendedTypes.map TypeDef.name := by
    rw [Table.names, hentries, List.map_map]
    rfl
  have hnames' : s'.types.names = (Sources.ofTexts texts').unextendedTypes.map TypeDef.name := by
    rw [Table.names, hentries', List.map_map]
    rfl
  have hnodup : ((Sources.ofTexts texts).unextendedTypes.map TypeDef.name).Nodup := hnames ▸ s.types.nodup
  refine ⟨fun k => Option.ext fun name => ?_, ?_, fun name t t' ht ht' => ?_, ?_⟩
  · rw [rootName?_eq_some_iff_of_builds hloads' hbuilds', rootName?_eq_some_iff_of_builds hloads hbuilds,
      Sources.hasKind_perm_iff hsources]
    simp only [(Sources.roots_perm hsources).mem_iff, ((Sources.roots_perm hsources).map Prod.fst).mem_iff]
  · rw [hnames, hnames']
    exact (hunextended.map TypeDef.name).symm
  · obtain ⟨hmem, hname⟩ := Table.find?_eq_some_iff.1 ht
    obtain ⟨hmem', hname'⟩ := Table.find?_eq_some_iff.1 ht'
    rw [hentries] at hmem
    rw [hentries'] at hmem'
    obtain ⟨u, hu, rfl⟩ := List.mem_map.1 hmem
    obtain ⟨u', hu', rfl⟩ := List.mem_map.1 hmem'
    obtain rfl : u = u' :=
      List.inj_on_of_nodup_map hnodup hu (hunextended.mem_iff.2 hu') (hname.trans hname'.symm)
    exact TypeDef.agreesInOrder_extendedByAll h (hmerge u hu)
  · rw [hbuilds.directives, hbuilds'.directives]
    exact (SchemaBuilder.directives_perm_of_loads hsources hloads hloads').symm

/-- Texts that are a schema are one in any order. -/
theorem exists_ofSources_of_perm (h : texts.Perm texts') (hs : ofSources (texts.map fun t => (some t.1, t.2)) = .ok s) :
    ∃ s', ofSources (texts'.map fun t => (some t.1, t.2)) = .ok s' := by
  obtain ⟨hparse, b, ⟨hloads, -⟩, hbuilds⟩ := ofSources_texts_eq_ok_iff.1 hs
  obtain ⟨b', s', hloads', hbuilds'⟩ := SchemaBuilder.exists_builds_of_perm (Sources.ofTexts_perm h) hloads hbuilds
  exact ⟨s', ofSources_texts_eq_ok_iff.2 ⟨fun t ht => hparse t (h.mem_iff.2 ht), b', hloads', hbuilds'⟩⟩

/-- **The order of texts does not matter:** whether they are a schema does not depend on it, nor does the schema, but
for the order of what different texts bring. -/
theorem agreesInOrder_of_perm (h : texts.Perm texts') :
    ((∃ s, ofSources (texts.map fun t => (some t.1, t.2)) = .ok s) ↔
      ∃ s', ofSources (texts'.map fun t => (some t.1, t.2)) = .ok s') ∧
    ∀ s s', ofSources (texts.map fun t => (some t.1, t.2)) = .ok s →
      ofSources (texts'.map fun t => (some t.1, t.2)) = .ok s' → s.AgreesInOrder texts texts' s' := by
  refine ⟨⟨?_, ?_⟩, fun s s' hs hs' => ?_⟩
  · rintro ⟨s, hs⟩
    exact exists_ofSources_of_perm h hs
  · rintro ⟨s', hs'⟩
    exact exists_ofSources_of_perm h.symm hs'
  · obtain ⟨-, b, ⟨hloads, -⟩, hbuilds⟩ := ofSources_texts_eq_ok_iff.1 hs
    obtain ⟨-, b', ⟨hloads', -⟩, hbuilds'⟩ := ofSources_texts_eq_ok_iff.1 hs'
    exact agreesInOrder_of_builds h hloads hbuilds hloads' hbuilds'

/-- Both texts extend the type of queries, and each refers to a type of the other one. -/
theorem agreesInOrder_of_swapped_texts : ∃ s s',
    ofSources [(some "a", "type Query { a: E } extend type Query { b: Int }"),
        (some "b", "schema { query: Query } enum E { F } extend type Query { c: Query }")] = .ok s ∧
      ofSources [(some "b", "schema { query: Query } enum E { F } extend type Query { c: Query }"),
        (some "a", "type Query { a: E } extend type Query { b: Int }")] = .ok s' ∧
      s.AgreesInOrder
        [("a", "type Query { a: E } extend type Query { b: Int }"),
          ("b", "schema { query: Query } enum E { F } extend type Query { c: Query }")]
        [("b", "schema { query: Query } enum E { F } extend type Query { c: Query }"),
          ("a", "type Query { a: E } extend type Query { b: Int }")] s' := by
  obtain ⟨s, hs⟩ := exists_eq_ok_of_isOk (x := ofSources
    [(some "a", "type Query { a: E } extend type Query { b: Int }"),
      (some "b", "schema { query: Query } enum E { F } extend type Query { c: Query }")])
    (by decide +kernel)
  obtain ⟨hsucceeds, hagrees⟩ := agreesInOrder_of_perm (.swap
    ("b", "schema { query: Query } enum E { F } extend type Query { c: Query }")
    ("a", "type Query { a: E } extend type Query { b: Int }") [])
  obtain ⟨s', hs'⟩ := hsucceeds.1 ⟨s, hs⟩
  exact ⟨s, s', hs, hs', hagrees s s' hs hs'⟩

end Schema

end QueryAid
