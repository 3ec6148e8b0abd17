import QueryAid.Proofs.Schema.Written
/-!
# When sources are a schema

Loading and building check sources piece by piece, at two times, and stop at the first thing that is wrong.
`exists_ofSources_iff` says in terms of the sources as a whole when nothing is wrong: the names are in order
(`Sources.NamesInOrder`), and so are the references (`Sources.ReferencesInOrder`).

Whether repeated arguments are counted makes a difference. Members of a type must not share a name, but arguments
may, and then the last one replaces the others before its type is looked at. So a schema can be built although one
of its sources refers to a type that nobody defines.
-/

namespace QueryAid

/-! ### What it means -/

namespace Sources

/-- **There is a type of this name and kind:** one that every schema has, or one that a source defines. -/
inductive HasKind (S : Sources) : String → TypeKind → Prop where
  | standard {t : TypeDef} (h : t ∈ builtInScalars ++ introspectionTypes) : S.HasKind t.name t.kind
  | defined {x : String × Sdl.TypeDefinition} (h : x ∈ S.types) : S.HasKind x.2.name x.2.body.kind

/-- A reference leads to a type of a kind that is allowed. -/
def Leads (S : Sources) (r : Reference) : Prop := ∃ k, S.HasKind r.1 k ∧ r.2.Allows k

/-- The body of a definition and those of its extensions, in order. -/
def bodiesOf (S : Sources) (x : String × Sdl.TypeDefinition) : List (String × Sdl.TypeBody) :=
  (x.1, x.2.body) :: bodiesFor S.extensions x.2.name

/-- **The names in the sources are in order.** -/
structure NamesInOrder (S : Sources) : Prop where
  types : (S.types.map fun x => x.2.name).Nodup
  typesNotBuiltIn : ∀ x ∈ S.types, x.2.name ∉ builtInScalars.map TypeDef.name
  typesNotReserved : ∀ x ∈ S.types, isReserved x.2.name = false
  directives : (S.directives.map fun x => x.2.name).Nodup
  directivesNotBuiltIn : ∀ x ∈ S.directives, x.2.name ∉ builtInDirectives.map DirectiveDef.name
  directivesNotReserved : ∀ x ∈ S.directives, isReserved x.2.name = false
  directiveArguments : ∀ x ∈ S.directives, ∀ a ∈ x.2.arguments, isReserved a.name = false
  /-- Every extension is of a type that a source defines, and of its kind. -/
  extensions : ∀ p ∈ S.extensions, ∃ x ∈ S.types, x.2.name = p.extension.name ∧
    x.2.body.kind = p.extension.body.kind
  interfaces : ∀ x ∈ S.types, ((S.bodiesOf x).flatMap fun b => b.2.interfaceNames).Nodup
  members : ∀ x ∈ S.types, ((S.bodiesOf x).flatMap fun b => b.2.memberNames).Nodup
  notItself : ∀ x ∈ S.types, ∀ b ∈ S.bodiesOf x, x.2.name ∉ b.2.interfaceNames
  /-- No field, input field or argument has a reserved name. -/
  membersNotReserved : ∀ x ∈ S.types, ∀ b ∈ S.bodiesOf x, b.2.NamesAllowed
  operations : (S.roots.map Prod.fst).Nodup
  rootTypes : (S.roots.map fun r => r.2.typeName).Nodup
  rootObjects : ∀ r ∈ S.roots, S.HasKind r.2.typeName .object
  queryRoot : .query ∉ S.roots.map Prod.fst → S.HasKind "Query" .object

/-- **All references lead to types of kinds that are allowed,** when `counted` picks the arguments that count. -/
structure ReferencesInOrder (counted : List Sdl.InputValue → List Sdl.InputValue) (S : Sources) : Prop where
  types : ∀ x ∈ S.types, ∀ b ∈ S.bodiesOf x, ∀ r ∈ b.2.references counted, S.Leads r
  directives : ∀ x ∈ S.directives, ∀ r ∈ x.2.references counted, S.Leads r

variable {S : Sources}

/-! ### Extensions -/

/-- A type can be put together exactly if the bodies are of one kind and their names are in order. -/
theorem mergeable_emptyFor_iff {owner : String} {body : Sdl.TypeBody} {bodies : List (String × Sdl.TypeBody)} :
    (TypeContents.emptyFor body).Mergeable owner bodies ↔
      (∀ b ∈ bodies, body.kind = b.2.kind ∧ owner ∉ b.2.interfaceNames ∧ b.2.NamesAllowed) ∧
      (bodies.flatMap fun b => b.2.interfaceNames).Nodup ∧
      (bodies.flatMap fun b => b.2.memberNames).Nodup := by
  have hkind : (TypeContents.emptyFor body).kind = body.kind := by cases body <;> rfl
  have hinterfaces : (TypeContents.emptyFor body).interfaceNames = [] := by cases body <;> rfl
  have hmembers : (TypeContents.emptyFor body).memberNames = [] := by cases body <;> rfl
  rw [TypeContents.mergeable_iff, hkind, hinterfaces, hmembers, fresh_mem_iff_nodup_append List.nodup_nil,
    fresh_mem_iff_nodup_append List.nodup_nil, List.nil_append, List.nil_append]

/-- No body can be added to a scalar that is built in. -/
theorem bodies_eq_nil_of_mergeable_builtIn {t : TypeDef} (ht : t ∈ builtInScalars)
    {bodies : List (String × Sdl.TypeBody)} (h : t.contents.Mergeable t.name bodies) : bodies = [] := by
  have hbuiltIn : ∀ t ∈ builtInScalars, ∀ body : Sdl.TypeBody, t.contents.kind ≠ body.kind := by
    simp only [builtInScalars, List.forall_mem_cons]
    refine ⟨?_, ?_, ?_, ?_, ?_, nofun⟩ <;> exact fun body => by cases body <;> nofun
  cases bodies with
  | nil => rfl
  | cons b bodies => exact absurd h.1.kind (hbuiltIn t ht b.2)

/-- What is defined before the extensions is built in, or defined by a source, or describes schemas. -/
theorem mem_unextendedTypes_iff {t : TypeDef} : t ∈ S.unextendedTypes ↔
    t ∈ builtInScalars ∨ (∃ x ∈ S.types, .declared x.1 x.2 = t) ∨ t ∈ introspectionTypes := by
  rw [unextendedTypes, List.mem_append, List.mem_append, List.mem_map, or_assoc]

variable {b : SchemaBuilder} {types : Table TypeDef}

/-- Types that describe schemas are not extended if no extension is of a type with a reserved name. -/
theorem bodiesFor_introspection (hreserved : ∀ p ∈ S.extensions, isReserved p.extension.name = false)
    {t : TypeDef} (ht : t ∈ introspectionTypes) : bodiesFor S.extensions t.name = [] := by
  have hnames : ∀ t ∈ introspectionTypes, isReserved t.name = true := by decide +kernel
  refine List.eq_nil_iff_forall_not_mem.2 fun body hbody => ?_
  obtain ⟨p, hp, hname, -⟩ := mem_bodiesFor_iff.1 hbody
  exact absurd (hnames t ht) (hname ▸ (hreserved p hp) ▸ Bool.false_ne_true)

/-- **Extensions can be applied exactly if each is of a type that a source defines,** and each of these types can
be put together. -/
theorem exists_extended_iff (hloads : SchemaBuilder.Loads S .new b)
    (hreserved : ∀ p ∈ S.extensions, isReserved p.extension.name = false) :
    (∃ types, b.extensions.foldlM SchemaBuilder.applyExtension b.unextended = .ok types) ↔
      (∀ p ∈ S.extensions, ∃ x ∈ S.types, x.2.name = p.extension.name) ∧
      ∀ x ∈ S.types, (TypeContents.emptyFor x.2.body).Mergeable x.2.name (S.bodiesOf x) := by
  obtain ⟨hload, -⟩ := SchemaBuilder.loads_new_iff.1 hloads
  have hextensions : b.extensions = S.extensions := hloads.extensions
  simp only [hextensions, SchemaBuilder.foldlM_applyExtension_eq_ok_iff, Table.mem_names,
    hloads.entries_unextended]
  constructor
  · rintro ⟨_, hnames, hmerge, -⟩
    refine ⟨fun p hp => ?_, fun x hx => ?_⟩
    -- The type that an extension names is in the table. It is neither built in nor one that describes schemas.
    · obtain ⟨t, ht, hname⟩ := hnames p hp
      rcases mem_unextendedTypes_iff.1 ht with hscalar | ⟨x, hx, rfl⟩ | hintrospection
      · have hnil := bodies_eq_nil_of_mergeable_builtIn hscalar (hmerge t ht)
        exact absurd (mem_bodiesFor_iff.2 ⟨p, hp, hname.symm, rfl⟩) (hnil ▸ List.not_mem_nil)
      · exact ⟨x, hx, hname⟩
      · have hnil := bodiesFor_introspection hreserved hintrospection
        exact absurd (mem_bodiesFor_iff.2 ⟨p, hp, hname.symm, rfl⟩) (hnil ▸ List.not_mem_nil)
    · exact ⟨(hload.types x hx).body, hmerge _ (mem_unextendedTypes_iff.2 (.inr (.inl ⟨x, hx, rfl⟩)))⟩
  · rintro ⟨hnames, hmerge⟩
    refine ⟨b.unextended.mapEntries (TypeDef.extendedByAll S.extensions) (TypeDef.name_extendedByAll _),
      fun p hp => ?_, fun t ht => ?_, by rw [Table.entries_mapEntries, hloads.entries_unextended]⟩
    · obtain ⟨x, hx, hname⟩ := hnames p hp
      exact ⟨_, mem_unextendedTypes_iff.2 (.inr (.inl ⟨x, hx, rfl⟩)), hname⟩
    · rcases mem_unextendedTypes_iff.1 ht with hscalar | ⟨x, hx, rfl⟩ | hintrospection
      · -- An extension of the scalar would be of a type that a source defines, which has another name.
        have hnil : bodiesFor S.extensions t.name = [] := by
          refine List.eq_nil_iff_forall_not_mem.2 fun body hbody => ?_
          obtain ⟨p, hp, hname, -⟩ := mem_bodiesFor_iff.1 hbody
          obtain ⟨x, hx, hx'⟩ := hnames p hp
          exact hload.typeNames.2 _ (List.mem_map_of_mem hx)
            (List.mem_map.2 ⟨t, hscalar, (hx'.trans hname).symm⟩)
        rw [hnil]
        trivial
      · exact (hmerge x hx).2
      · rw [bodiesFor_introspection hreserved hintrospection]
        trivial

/-! ### Roots -/

theorem kind_declared (file : String) (d : Sdl.TypeDefinition) :
    (TypeDef.declared file d).kind = d.body.kind := by
  obtain ⟨_, _, _, body⟩ := d
  cases body <;> rfl

/-- A reference is in order exactly if it leads to a type of the sources or one that every schema has. -/
theorem inOrder_iff_leads (h : types.entries = S.unextendedTypes.map (TypeDef.extendedByAll S.extensions))
    {r : Reference} : r.InOrder types ↔ S.Leads r := by
  unfold Reference.InOrder Leads
  simp only [Table.find?_eq_some_iff, h, List.mem_map]
  constructor
  · rintro ⟨_, ⟨⟨t, ht, rfl⟩, hname⟩, hallows⟩
    rw [TypeDef.kind_extendedByAll] at hallows
    refine ⟨t.kind, ?_, hallows⟩
    rw [← hname]
    rcases mem_unextendedTypes_iff.1 ht with hscalar | ⟨x, hx, rfl⟩ | hintrospection
    · exact .standard (List.mem_append_left _ hscalar)
    · rw [kind_declared]
      exact .defined hx
    · exact .standard (List.mem_append_right _ hintrospection)
  · rintro ⟨k, hkind, hallows⟩
    have hmem : ∃ t ∈ S.unextendedTypes, t.name = r.1 ∧ t.kind = k := by
      generalize r.1 = name at hkind
      cases hkind with
      | standard ht =>
        refine ⟨_, mem_unextendedTypes_iff.2 ?_, rfl, rfl⟩
        rcases List.mem_append.1 ht with hscalar | hintrospection
        · exact .inl hscalar
        · exact .inr (.inr hintrospection)
      | defined hx =>
        exact ⟨_, mem_unextendedTypes_iff.2 (.inr (.inl ⟨_, hx, rfl⟩)), rfl, kind_declared _ _⟩
    obtain ⟨t, ht, hname, rfl⟩ := hmem
    refine ⟨t.extendedByAll S.extensions, ⟨⟨t, ht, rfl⟩, hname⟩, ?_⟩
    rw [TypeDef.kind_extendedByAll]
    exact hallows

theorem leads_object_iff {name : String} : S.Leads (name, .object) ↔ S.HasKind name .object := by
  unfold Leads Requirement.Allows
  exact ⟨fun ⟨_, hkind, hobject⟩ => hobject ▸ hkind, fun hkind => ⟨.object, hkind, rfl⟩⟩

/-- **There are roots exactly if those that are declared are objects,** and `Query` is one if none is declared for
queries. -/
theorem roots_inOrder_iff (hloads : SchemaBuilder.Loads S .new b)
    (h : types.entries = S.unextendedTypes.map (TypeDef.extendedByAll S.extensions)) :
    ((∀ k r, b.roots.get k = some r → Reference.InOrder types (r.typeName, .object)) ∧
      Reference.InOrder types (b.meantRoot .query, .object)) ↔
      (∀ r ∈ S.roots, S.HasKind r.2.typeName .object) ∧
      (.query ∉ S.roots.map Prod.fst → S.HasKind "Query" .object) := by
  have hget : ∀ k r, b.roots.get k = some r ↔ (k, r) ∈ S.roots := fun _ _ => hloads.get_roots_iff
  simp only [inOrder_iff_leads h, leads_object_iff, hget, Prod.forall]
  refine and_congr_right fun hobjects => ?_
  unfold SchemaBuilder.meantRoot
  cases hquery : b.roots.get .query with
  | some r =>
    have hmem : (OperationKind.query, r) ∈ S.roots := (hget _ _).1 hquery
    have hdeclared : OperationKind.query ∈ S.roots.map Prod.fst := List.mem_map_of_mem hmem
    exact iff_of_true (hobjects _ _ hmem) fun hnot => absurd hdeclared hnot
  | none =>
    have hnot : OperationKind.query ∉ S.roots.map Prod.fst := by
      intro hmem
      obtain ⟨⟨k, r⟩, hr, rfl⟩ := List.mem_map.1 hmem
      rw [← hget, hquery] at hr
      cases hr
    exact ⟨fun hkind _ => hkind, fun hkind => hkind hnot⟩

/-! ### References -/

theorem leads_of_isStandard {r : Reference} (h : r.IsStandard) : S.Leads r := by
  obtain ⟨t, ht, hname, hallows⟩ := h
  exact ⟨t.kind, hname ▸ .standard ht, hallows⟩

/-- The references of a type that was put together are those of its bodies. -/
theorem mem_references_declared_iff {x : String × Sdl.TypeDefinition} {r : Reference}
    (h : (TypeContents.emptyFor x.2.body).Mergeable x.2.name (S.bodiesOf x)) :
    r ∈ ((TypeDef.declared x.1 x.2).extendedByAll S.extensions).contents.references ↔
      ∃ b ∈ S.bodiesOf x, r ∈ b.2.references Sdl.lastOfEachName := by
  have hempty : (TypeContents.emptyFor x.2.body).references = [] := by
    cases x.2.body <;> rfl
  have hreferences := TypeContents.mem_references_plusAll_iff (r := r) h
  rw [hempty] at hreferences
  exact hreferences.trans (or_iff_right List.not_mem_nil)

/-- The built-in directives go behind those that were loaded, since no source may define one. -/
theorem entries_insertAll_builtInDirectives (hloads : SchemaBuilder.Loads S .new b) :
    (b.directives.insertAll builtInDirectives).entries =
      S.directives.map (fun x => .ofSource x.1 x.2) ++ builtInDirectives := by
  obtain ⟨hload, -, hdirectives, -⟩ := SchemaBuilder.loads_new_iff.1 hloads
  have hnew : Fresh (· ∈ b.directives.names) (builtInDirectives.map Named.name) := by
    refine ⟨by decide +kernel, fun name hname hmem => ?_⟩
    obtain ⟨d, hd, rfl⟩ := Table.mem_names.1 hmem
    rw [hdirectives] at hd
    obtain ⟨x, hx, rfl⟩ := List.mem_map.1 hd
    exact (hload.directives x hx).notBuiltIn hname
  rw [Table.entries_insertAll_of_fresh hnew, hdirectives]

/-- **Nothing is wrong with the references of a schema exactly if nothing is wrong with those in its sources.** -/
theorem checkReferences_eq_nil_iff_inOrder (hloads : SchemaBuilder.Loads S .new b)
    (hreserved : ∀ p ∈ S.extensions, isReserved p.extension.name = false)
    (hmerge : ∀ t ∈ S.unextendedTypes, t.contents.Mergeable t.name (bodiesFor S.extensions t.name))
    (h : types.entries = S.unextendedTypes.map (TypeDef.extendedByAll S.extensions)) :
    checkReferences types (b.directives.insertAll builtInDirectives) = [] ↔
      S.ReferencesInOrder Sdl.lastOfEachName := by
  obtain ⟨hload, -⟩ := SchemaBuilder.loads_new_iff.1 hloads
  have hbodies : ∀ x ∈ S.types, (TypeContents.emptyFor x.2.body).Mergeable x.2.name (S.bodiesOf x) :=
    fun x hx => ⟨(hload.types x hx).body, hmerge _ (mem_unextendedTypes_iff.2 (.inr (.inl ⟨x, hx, rfl⟩)))⟩
  rw [checkReferences_eq_nil_iff, h, entries_insertAll_builtInDirectives hloads]
  simp only [inOrder_iff_leads h, List.forall_mem_map, List.forall_mem_append]
  constructor
  · rintro ⟨htypes, hdirectives, -⟩
    refine ⟨fun x hx body hbody r hr => ?_, fun x hx r hr => ?_⟩
    · refine htypes _ (mem_unextendedTypes_iff.2 (.inr (.inl ⟨x, hx, rfl⟩))) r ?_
      exact (mem_references_declared_iff (hbodies x hx)).2 ⟨body, hbody, hr⟩
    · exact hdirectives x hx r (mem_directive_references_iff.2 hr)
  · intro hinOrder
    -- What every schema has refers to nothing else.
    have htypes : ∀ t ∈ introspectionTypes, ∀ r ∈ t.contents.references, r.IsStandard := by decide +kernel
    have hdirectives : ∀ d ∈ builtInDirectives, ∀ r ∈ d.references, r.IsStandard := by decide +kernel
    refine ⟨fun t ht r hr => ?_, fun x hx r hr => ?_,
      fun d hd r hr => leads_of_isStandard (hdirectives d hd r hr)⟩
    · rcases mem_unextendedTypes_iff.1 ht with hscalar | ⟨x, hx, rfl⟩ | hintrospection
      · have hnone : ∀ t ∈ builtInScalars, t.contents.references = [] := by decide +kernel
        rw [TypeDef.extendedByAll, bodies_eq_nil_of_mergeable_builtIn hscalar (hmerge t ht)] at hr
        exact absurd hr ((hnone t hscalar).symm ▸ List.not_mem_nil)
      · obtain ⟨body, hbody, hr⟩ := (mem_references_declared_iff (hbodies x hx)).1 hr
        exact hinOrder.types x hx body hbody r hr
      · rw [TypeDef.extendedByAll, bodiesFor_introspection hreserved hintrospection] at hr
        exact leads_of_isStandard (htypes t hintrospection r hr)
    · exact hinOrder.directives x hx r (mem_directive_references_iff.1 hr)

/-! ### All of it -/

/-- **The names are in order exactly if everything can be loaded, the extensions can be applied, and there are
roots.** -/
theorem namesInOrder_iff : S.NamesInOrder ↔ S.Loadable ∧
    ((∀ p ∈ S.extensions, ∃ x ∈ S.types, x.2.name = p.extension.name) ∧
      ∀ x ∈ S.types, (TypeContents.emptyFor x.2.body).Mergeable x.2.name (S.bodiesOf x)) ∧
    (∀ r ∈ S.roots, S.HasKind r.2.typeName .object) ∧
    (.query ∉ S.roots.map Prod.fst → S.HasKind "Query" .object) := by
  -- An extension that names a type is among the bodies of that type.
  have hbody {p : PendingExtension} (hp : p ∈ S.extensions) {x : String × Sdl.TypeDefinition}
      (hname : x.2.name = p.extension.name) : (p.file, p.extension.body) ∈ S.bodiesOf x :=
    List.mem_cons_of_mem _ (mem_bodiesFor_iff.2 ⟨p, hp, hname.symm, rfl⟩)
  constructor
  · intro h
    have hmerge : ∀ x ∈ S.types, (TypeContents.emptyFor x.2.body).Mergeable x.2.name (S.bodiesOf x) := by
      intro x hx
      refine mergeable_emptyFor_iff.2 ⟨fun body hb => ?_, h.interfaces x hx, h.members x hx⟩
      refine ⟨?_, h.notItself x hx body hb, h.membersNotReserved x hx body hb⟩
      rcases List.mem_cons.1 hb with rfl | hb
      · rfl
      · -- The extension is of a type of its kind, and there is only one type of that name.
        obtain ⟨p, hp, hname, rfl⟩ := mem_bodiesFor_iff.1 hb
        obtain ⟨y, hy, hname', hkind⟩ := h.extensions p hp
        obtain rfl : y = x := List.inj_on_of_nodup_map h.types hy hx (hname'.trans hname)
        exact hkind
    refine ⟨⟨fun x hx => ⟨(hmerge x hx).1, h.typesNotReserved x hx⟩, ⟨h.types, ?_⟩, fun x hx => ?_, h.directives,
      h.operations, h.rootTypes⟩, ⟨fun p hp => ?_, hmerge⟩, h.rootObjects, h.queryRoot⟩
    · exact List.forall_mem_map.2 h.typesNotBuiltIn
    · exact ⟨h.directivesNotBuiltIn x hx, h.directivesNotReserved x hx, h.directiveArguments x hx⟩
    · obtain ⟨x, hx, hname, -⟩ := h.extensions p hp
      exact ⟨x, hx, hname⟩
  · rintro ⟨hload, ⟨hextensions, hmerge⟩, hobjects, hquery⟩
    have hbodies := fun x hx => mergeable_emptyFor_iff.1 (hmerge x hx)
    exact
      { types := hload.typeNames.1
        typesNotBuiltIn := fun x hx => hload.typeNames.2 _ (List.mem_map_of_mem hx)
        typesNotReserved := fun x hx => (hload.types x hx).name
        directives := hload.directiveNames
        directivesNotBuiltIn := fun x hx => (hload.directives x hx).notBuiltIn
        directivesNotReserved := fun x hx => (hload.directives x hx).name
        directiveArguments := fun x hx => (hload.directives x hx).arguments
        extensions := fun p hp => by
          obtain ⟨x, hx, hname⟩ := hextensions p hp
          exact ⟨x, hx, hname, ((hbodies x hx).1 _ (hbody hp hname)).1⟩
        interfaces := fun x hx => (hbodies x hx).2.1
        members := fun x hx => (hbodies x hx).2.2
        notItself := fun x hx body hb => ((hbodies x hx).1 body hb).2.1
        membersNotReserved := fun x hx body hb => ((hbodies x hx).1 body hb).2.2
        operations := hload.operations
        rootTypes := hload.rootNames
        rootObjects := hobjects
        queryRoot := hquery }

/-- **Texts that can be read are a schema exactly if the names and the references in them are in order,** where of
the arguments of one name only the last one counts. Extensions of the types that describe schemas are left aside. -/
theorem exists_ofSources_iff {texts : List (String × String)}
    (hparse : ∀ t ∈ texts, ∃ ds, Sdl.parse t.2.toList = .ok ds)
    (hreserved : ∀ p ∈ (ofTexts texts).extensions, isReserved p.extension.name = false) :
    (∃ s, Schema.ofSources (texts.map fun t => (some t.1, t.2)) = .ok s) ↔
      (ofTexts texts).NamesInOrder ∧ (ofTexts texts).ReferencesInOrder Sdl.lastOfEachName := by
  have hbuild : (∃ s, Schema.ofSources (texts.map fun t => (some t.1, t.2)) = .ok s) ↔
      ∃ b, (SchemaBuilder.Loads (ofTexts texts) .new b ∧ b.unnamed = SchemaBuilder.new.unnamed) ∧
        ∃ s, b.Builds s := by
    unfold Schema.ofSources
    simp only [bind_eq_ok_iff, SchemaBuilder.foldlM_load_eq_ok_iff hparse, SchemaBuilder.build_eq_ok_iff]
    exact ⟨fun ⟨s, b, h, hs⟩ => ⟨b, h, s, hs⟩, fun ⟨b, h, s, hs⟩ => ⟨s, b, h, hs⟩⟩
  rw [hbuild, namesInOrder_iff]
  simp only [SchemaBuilder.exists_builds_iff]
  constructor
  · rintro ⟨b, hloads, types, hfold, hroots, hquery, hreferences⟩
    obtain ⟨hmerge, hentries⟩ := hloads.1.extended hfold
    exact ⟨⟨SchemaBuilder.exists_loads_iff.1 ⟨b, hloads⟩,
        (exists_extended_iff hloads.1 hreserved).1 ⟨types, hfold⟩,
        (roots_inOrder_iff hloads.1 hentries).1 ⟨hroots, hquery⟩⟩,
      (checkReferences_eq_nil_iff_inOrder hloads.1 hreserved hmerge hentries).1 hreferences⟩
  · rintro ⟨⟨hload, hextended, hroots⟩, hreferences⟩
    obtain ⟨b, hloads⟩ := SchemaBuilder.exists_loads_iff.2 hload
    obtain ⟨types, hfold⟩ := (exists_extended_iff hloads.1 hreserved).2 hextended
    obtain ⟨hmerge, hentries⟩ := hloads.1.extended hfold
    obtain ⟨hobjects, hquery⟩ := (roots_inOrder_iff hloads.1 hentries).2 hroots
    exact ⟨b, hloads, types, hfold, hobjects, hquery,
      (checkReferences_eq_nil_iff_inOrder hloads.1 hreserved hmerge hentries).2 hreferences⟩

/-- Sources are in order although one of them gives two arguments one name, and the first of them a type that does
not exist. -/
theorem inOrder_of_replaced_argument :
    (ofTexts [("a.graphql", "type Query { f(a: Missing, a: Int): Int }"),
        ("b.graphql", "extend type Query { b: B } type B { c: ID }")]).NamesInOrder ∧
      (ofTexts [("a.graphql", "type Query { f(a: Missing, a: Int): Int }"),
        ("b.graphql", "extend type Query { b: B } type B { c: ID }")]).ReferencesInOrder
        Sdl.lastOfEachName := by
  refine (exists_ofSources_iff ?_ (by decide +kernel)).1 (exists_eq_ok_of_isOk (by decide +kernel))
  simp only [List.forall_mem_cons]
  exact ⟨exists_eq_ok_of_isOk (by decide +kernel), exists_eq_ok_of_isOk (by decide +kernel), nofun⟩

/-- If all arguments count, sources that are a schema may refer to a type that does not exist. -/
theorem not_inOrder_of_replaced_argument :
    ¬ ((∃ s, Schema.ofSources [(some "a.graphql", "type Query { f(a: Missing, a: Int): Int }")] = .ok s) ↔
      (ofTexts [("a.graphql", "type Query { f(a: Missing, a: Int): Int }")]).NamesInOrder ∧
      (ofTexts [("a.graphql", "type Query { f(a: Missing, a: Int): Int }")]).ReferencesInOrder id) := by
  intro h
  obtain ⟨-, hreferences⟩ := h.1 (exists_eq_ok_of_isOk (by decide +kernel))
  have hmissing : ∃ x ∈ (ofTexts [("a.graphql", "type Query { f(a: Missing, a: Int): Int }")]).types,
      ∃ b ∈ (ofTexts [("a.graphql", "type Query { f(a: Missing, a: Int): Int }")]).bodiesOf x,
        ("Missing", Requirement.input) ∈ b.2.references id := by
    decide +kernel
  obtain ⟨x, hx, b, hb, hr⟩ := hmissing
  obtain ⟨k, hkind, -⟩ := hreferences.types x hx b hb _ hr
  have hstandard : ∀ t ∈ builtInScalars ++ introspectionTypes, t.name ≠ "Missing" := by decide +kernel
  have hdefined : ∀ x ∈ (ofTexts [("a.graphql", "type Query { f(a: Missing, a: Int): Int }")]).types,
      x.2.name ≠ "Missing" := by
    decide +kernel
  generalize hname : ("Missing", Requirement.input).1 = name at hkind
  cases hkind with
  | standard ht => exact hstandard _ ht hname.symm
  | defined hx => exact hdefined _ hx hname.symm

end Sources

end QueryAid
