import QueryAid.Proofs.Schema.Roots
/-!
# When sources can be loaded

Loading takes in definitions one by one, and each of them changes one component of the builder. So a run of it
is one run for each component (`foldlM_addDefinition_eq_ok_iff`). `loads_new_iff` says exactly when all of them
succeed (`Sources.Loadable`), and what the builder holds then.
-/

namespace QueryAid

namespace SchemaBuilder

/-! ### One component at a time -/

/-- **Loading the sources leads from one builder to another,** the number of sources without a name aside. -/
structure Loads (S : Sources) (b b' : SchemaBuilder) : Prop where
  types : S.types.foldlM (fun t x => addType x.1 t x.2) b.types = .ok b'.types
  directives : S.directives.foldlM (fun t x => addDirective x.1 t x.2) b.directives = .ok b'.directives
  roots : S.blocks.foldlM (fun r x => addSchemaBlock x.1 r x.2) b.roots = .ok b'.roots
  extensions : b'.extensions = b.extensions ++ S.extensions

/-- **Definitions are taken in exactly if those of each sort are,** and the sorts do not interfere. -/
theorem foldlM_addDefinition_eq_ok_iff {S : Sources} {b b' : SchemaBuilder} :
    S.foldlM (fun b x => addDefinition x.1 b x.2) b = .ok b' ↔ Loads S b b' ∧ b'.unnamed = b.unnamed := by
  induction S generalizing b with
  | nil =>
    constructor
    · intro h
      cases h
      exact ⟨⟨rfl, rfl, rfl, (List.append_nil _).symm⟩, rfl⟩
    · rintro ⟨⟨ht, hd, hr, he⟩, hu⟩
      have he' : b'.extensions = b.extensions := he.trans (List.append_nil _)
      obtain ⟨types, directives, extensions, roots, unnamed⟩ := b
      obtain ⟨types', directives', extensions', roots', unnamed'⟩ := b'
      obtain rfl : types = types' := Except.ok.inj ht
      obtain rfl : directives = directives' := Except.ok.inj hd
      obtain rfl : roots = roots' := Except.ok.inj hr
      obtain rfl : extensions' = extensions := he'
      obtain rfl : unnamed' = unnamed := hu
      rfl
  | cons x S ih =>
    obtain ⟨file, d⟩ := x
    rw [List.foldlM_cons, bind_eq_ok_iff]
    simp only [ih]
    -- In each case the definition is the first one of its sort, and no other sort has it.
    cases d with
    | type d =>
      constructor
      · rintro ⟨m, hm, h, hu⟩
        obtain ⟨t, ht, hm⟩ := bind_eq_ok_iff.1 hm
        cases hm
        exact ⟨⟨bind_eq_ok_iff.2 ⟨t, ht, h.types⟩, h.directives, h.roots, h.extensions⟩, hu⟩
      · rintro ⟨h, hu⟩
        obtain ⟨t, ht, hrest⟩ := bind_eq_ok_iff.1 h.types
        exact ⟨{ b with types := t }, bind_eq_ok_iff.2 ⟨t, ht, rfl⟩,
          ⟨hrest, h.directives, h.roots, h.extensions⟩, hu⟩
    | directive d =>
      constructor
      · rintro ⟨m, hm, h, hu⟩
        obtain ⟨t, ht, hm⟩ := bind_eq_ok_iff.1 hm
        cases hm
        exact ⟨⟨h.types, bind_eq_ok_iff.2 ⟨t, ht, h.directives⟩, h.roots, h.extensions⟩, hu⟩
      · rintro ⟨h, hu⟩
        obtain ⟨t, ht, hrest⟩ := bind_eq_ok_iff.1 h.directives
        exact ⟨{ b with directives := t }, bind_eq_ok_iff.2 ⟨t, ht, rfl⟩,
          ⟨h.types, hrest, h.roots, h.extensions⟩, hu⟩
    | schema s =>
      constructor
      · rintro ⟨m, hm, h, hu⟩
        obtain ⟨r, hr, hm⟩ := bind_eq_ok_iff.1 hm
        cases hm
        exact ⟨⟨h.types, h.directives, bind_eq_ok_iff.2 ⟨r, hr, h.roots⟩, h.extensions⟩, hu⟩
      · rintro ⟨h, hu⟩
        obtain ⟨r, hr, hrest⟩ := bind_eq_ok_iff.1 h.roots
        exact ⟨{ b with roots := r }, bind_eq_ok_iff.2 ⟨r, hr, rfl⟩,
          ⟨h.types, h.directives, hrest, h.extensions⟩, hu⟩
    | extension e =>
      have happend : b.extensions ++ Sources.extensions ((file, .extension e) :: S) =
          (b.extensions ++ [⟨file, e⟩]) ++ Sources.extensions S := by
        rw [List.append_assoc]
        rfl
      constructor
      · rintro ⟨m, hm, h, hu⟩
        cases hm
        exact ⟨⟨h.types, h.directives, h.roots, h.extensions.trans happend.symm⟩, hu⟩
      · rintro ⟨h, hu⟩
        exact ⟨{ b with extensions := b.extensions ++ [⟨file, e⟩] }, rfl,
          ⟨h.types, h.directives, h.roots, h.extensions.trans happend⟩, hu⟩

theorem Loads.append {S S' : Sources} {b m b' : SchemaBuilder} (h : Loads S b m) (h' : Loads S' m b') :
    Loads (S ++ S') b b' where
  types := by
    rw [Sources.types, List.filterMap_append, foldlM_append_eq_ok_iff]
    exact ⟨m.types, h.types, h'.types⟩
  directives := by
    rw [Sources.directives, List.filterMap_append, foldlM_append_eq_ok_iff]
    exact ⟨m.directives, h.directives, h'.directives⟩
  roots := by
    rw [Sources.blocks, List.filterMap_append, foldlM_append_eq_ok_iff]
    exact ⟨m.roots, h.roots, h'.roots⟩
  extensions := by
    rw [h'.extensions, h.extensions, List.append_assoc, Sources.extensions, Sources.extensions,
      Sources.extensions, List.filterMap_append]

/-! ### Texts -/

theorem loadSource_of_parse {b : SchemaBuilder} {file text : String} {ds : List Sdl.Definition}
    (h : Sdl.parse text.toList = .ok ds) :
    b.loadSource file text = (ds.map (file, ·)).foldlM (fun b x => addDefinition x.1 b x.2) b := by
  rw [loadSource, h, List.foldlM_map]

/-- A source that is loaded adds the definitions in it, whatever its name. -/
theorem exists_loads_of_load {b b' : SchemaBuilder} {file : Option String} {text : String}
    (h : b.load file text = .ok b') : ∃ S, S.map Prod.snd = Sources.definitionsIn text ∧ Loads S b b' := by
  have hsource : ∀ (b : SchemaBuilder) (file : String), b.loadSource file text = .ok b' →
      ∃ S, S.map Prod.snd = Sources.definitionsIn text ∧ Loads S b b' := by
    intro b file h
    cases hp : Sdl.parse text.toList with
    | error place => simp [loadSource, hp] at h
    | ok ds =>
      rw [loadSource_of_parse hp, foldlM_addDefinition_eq_ok_iff] at h
      refine ⟨ds.map (file, ·), ?_, h.1⟩
      rw [List.map_map, Sources.definitionsIn, hp]
      exact List.map_id ds
  cases file with
  | some file => exact hsource b file h
  | none =>
    obtain ⟨S, hdefinitions, hS⟩ := hsource _ _ h
    -- The number of unnamed sources is not among the components.
    exact ⟨S, hdefinitions, hS.types, hS.directives, hS.roots, hS.extensions⟩

/-- **Whatever sources were loaded, the definitions in them were.** -/
theorem exists_loads_of_foldlM_load {sources : List (Option String × String)} {b b' : SchemaBuilder}
    (h : sources.foldlM (fun b s => b.load s.1 s.2) b = .ok b') :
    ∃ S, S.map Prod.snd = sources.flatMap (fun s => Sources.definitionsIn s.2) ∧ Loads S b b' := by
  induction sources generalizing b with
  | nil =>
    cases h
    exact ⟨[], rfl, rfl, rfl, rfl, (List.append_nil _).symm⟩
  | cons s sources ih =>
    rw [List.foldlM_cons, bind_eq_ok_iff] at h
    obtain ⟨m, hm, hrest⟩ := h
    obtain ⟨S, hdefinitions, hS⟩ := exists_loads_of_load hm
    obtain ⟨S', hdefinitions', hS'⟩ := ih hrest
    refine ⟨S ++ S', ?_, hS.append hS'⟩
    rw [List.map_append, hdefinitions, hdefinitions', List.flatMap_cons]

/-- **Named texts that can be read are loaded exactly if their definitions are.** -/
theorem foldlM_load_eq_ok_iff {texts : List (String × String)} {b b' : SchemaBuilder}
    (h : ∀ t ∈ texts, ∃ ds, Sdl.parse t.2.toList = .ok ds) :
    (texts.map fun t => (some t.1, t.2)).foldlM (fun b s => b.load s.1 s.2) b = .ok b' ↔
      Loads (Sources.ofTexts texts) b b' ∧ b'.unnamed = b.unnamed := by
  rw [← foldlM_addDefinition_eq_ok_iff]
  induction texts generalizing b with
  | nil => exact Iff.rfl
  | cons t texts ih =>
    rw [List.forall_mem_cons] at h
    obtain ⟨⟨ds, hds⟩, hrest⟩ := h
    have hfirst : b.load (some t.1) t.2 = ((Sources.definitionsIn t.2).map (t.1, ·)).foldlM
        (fun b x => addDefinition x.1 b x.2) b := by
      rw [Sources.definitionsIn, hds]
      exact loadSource_of_parse hds
    rw [List.map_cons, List.foldlM_cons, bind_eq_ok_iff, hfirst, Sources.ofTexts, List.flatMap_cons,
      foldlM_append_eq_ok_iff]
    exact exists_congr fun m => and_congr_right fun _ => ih hrest

/-- A source that is loaded can be read. -/
theorem exists_parse_of_load {b b' : SchemaBuilder} {file : Option String} {text : String}
    (h : b.load file text = .ok b') : ∃ ds, Sdl.parse text.toList = .ok ds := by
  cases hp : Sdl.parse text.toList with
  | ok ds => exact ⟨ds, rfl⟩
  | error place => cases file <;> simp [load, loadSource, hp] at h

theorem exists_parse_of_foldlM_load {sources : List (Option String × String)} {b b' : SchemaBuilder}
    (h : sources.foldlM (fun b s => b.load s.1 s.2) b = .ok b') :
    ∀ s ∈ sources, ∃ ds, Sdl.parse s.2.toList = .ok ds := by
  induction sources generalizing b with
  | nil => exact nofun
  | cons s sources ih =>
    rw [List.foldlM_cons, bind_eq_ok_iff] at h
    obtain ⟨m, hm, hrest⟩ := h
    exact List.forall_mem_cons.2 ⟨exists_parse_of_load hm, ih hrest⟩

end SchemaBuilder

/-! ### Types and directives -/

/-- The type that a definition in a file defines, extensions aside. -/
def TypeDef.declared (file : String) (d : Sdl.TypeDefinition) : TypeDef :=
  ⟨d.name, d.description, .file file d.place, (TypeContents.emptyFor d.body).plus file d.body⟩

/-- What a type definition must satisfy by itself. -/
structure Sdl.TypeDefinition.Allowed (d : Sdl.TypeDefinition) : Prop where
  body : (TypeContents.emptyFor d.body).Accepts d.name d.body
  name : isReserved d.name = false

/-- What a directive definition must satisfy by itself. -/
structure Sdl.DirectiveDefinition.Allowed (d : Sdl.DirectiveDefinition) : Prop where
  notBuiltIn : d.name ∉ builtInDirectives.map DirectiveDef.name
  name : isReserved d.name = false
  arguments : ∀ a ∈ d.arguments, isReserved a.name = false

namespace SchemaBuilder

theorem ofSource_eq_ok_iff {file : String} {d : Sdl.TypeDefinition} {t : TypeDef} :
    TypeDef.ofSource file d = .ok t ↔
      (TypeContents.emptyFor d.body).Accepts d.name d.body ∧ t = .declared file d := by
  unfold TypeDef.ofSource
  simp only [bind_eq_ok_iff, TypeContents.add_eq_ok_iff, pure, Except.pure, Except.ok.injEq]
  constructor
  · rintro ⟨_, ⟨h, rfl⟩, rfl⟩
    exact ⟨h, rfl⟩
  · rintro ⟨h, rfl⟩
    exact ⟨_, ⟨h, rfl⟩, rfl⟩

theorem addType_takesNew :
    TakesNew (fun t (x : String × Sdl.TypeDefinition) => addType x.1 t x.2)
      (fun t x => t.insert (.declared x.1 x.2)) (fun x => x.2.Allowed) (fun x => x.2.name)
      fun t n => n ∈ t.names where
  ok_iff t x t' := by
    unfold addType
    simp only [bind_eq_ok_iff, ofSource_eq_ok_iff, ite_throw_eq_ok_iff, Bool.not_eq_true]
    -- A definition that is taken in defines `declared`, whose name is that of the definition.
    have hfind (h : x.2.name ∉ t.names) : t.find? (TypeDef.declared x.1 x.2).name = none :=
      Table.find?_eq_none_iff.2 h
    constructor
    · rintro ⟨_, ⟨hbody, rfl⟩, hname, h⟩
      split at h
      · cases h
      · next hnone => exact ⟨⟨⟨hbody, hname⟩, Table.find?_eq_none_iff.1 hnone⟩, (Except.ok.inj h).symm⟩
    · rintro ⟨⟨⟨hbody, hname⟩, hnew⟩, rfl⟩
      exact ⟨_, ⟨hbody, rfl⟩, hname, by rw [hfind hnew]; rfl⟩
  used_next _ _ _ _ := Table.mem_names_insert_iff

theorem addDirective_takesNew :
    TakesNew (fun t (x : String × Sdl.DirectiveDefinition) => addDirective x.1 t x.2)
      (fun t x => t.insert (.ofSource x.1 x.2)) (fun x => x.2.Allowed) (fun x => x.2.name)
      fun t n => n ∈ t.names where
  ok_iff t x t' := by
    have hbuiltIn : ((builtInDirectives.any fun b => b.name == (DirectiveDef.ofSource x.1 x.2).name) = true) ↔
        x.2.name ∈ builtInDirectives.map DirectiveDef.name := by
      rw [List.any_eq_true, List.mem_map]
      simp only [beq_iff_eq]
      rfl
    have hfind (h : x.2.name ∉ t.names) : t.find? (DirectiveDef.ofSource x.1 x.2).name = none :=
      Table.find?_eq_none_iff.2 h
    unfold addDirective
    simp only [ite_throw_eq_ok_iff, Bool.not_eq_true, hbuiltIn]
    constructor
    · rintro ⟨hbuiltIn, hname, h⟩
      split at h
      · cases h
      · next hnone =>
        obtain ⟨harguments, h⟩ := check_bind_eq_ok_iff.1 h
        exact ⟨⟨⟨hbuiltIn, hname, refuseReservedParameters_eq_ok_iff.1 harguments⟩,
          Table.find?_eq_none_iff.1 (Option.eq_none_iff_forall_ne_some.2 hnone)⟩, (Except.ok.inj h).symm⟩
    · rintro ⟨⟨⟨hbuiltIn, hname, harguments⟩, hnew⟩, rfl⟩
      refine ⟨hbuiltIn, hname, ?_⟩
      rw [hfind hnew]
      exact check_bind_eq_ok_iff.2 ⟨refuseReservedParameters_eq_ok_iff.2 harguments, rfl⟩
  used_next _ _ _ _ := Table.mem_names_insert_iff

end SchemaBuilder

/-! ### All of it -/

/-- **When sources can be loaded:** every type and directive is allowed by itself, and names, operations and
roots are declared once. -/
structure Sources.Loadable (S : Sources) : Prop where
  types : ∀ x ∈ S.types, x.2.Allowed
  typeNames : Fresh (· ∈ builtInScalars.map TypeDef.name) (S.types.map fun x => x.2.name)
  directives : ∀ x ∈ S.directives, x.2.Allowed
  directiveNames : (S.directives.map fun x => x.2.name).Nodup
  operations : (S.roots.map Prod.fst).Nodup
  rootNames : (S.roots.map fun r => r.2.typeName).Nodup

namespace SchemaBuilder

theorem nodup_names_builtInScalars : (builtInScalars.map Named.name).Nodup := by decide +kernel

theorem entries_ofList_builtInScalars : (Table.ofList builtInScalars).entries = builtInScalars :=
  Table.entries_ofList_of_nodup nodup_names_builtInScalars

/-- Types of new names are taken in exactly if each is allowed, and go behind the built-in scalars. -/
private theorem foldlM_addType_new_iff {xs : List (String × Sdl.TypeDefinition)} {t : Table TypeDef} :
    xs.foldlM (fun t x => addType x.1 t x.2) new.types = .ok t ↔
      ((∀ x ∈ xs, x.2.Allowed) ∧ Fresh (· ∈ builtInScalars.map TypeDef.name) (xs.map fun x => x.2.name)) ∧
      t.entries = builtInScalars ++ xs.map fun x => .declared x.1 x.2 := by
  have hentries : new.types.entries = builtInScalars := entries_ofList_builtInScalars
  have hnames : new.types.names = builtInScalars.map TypeDef.name := congrArg (List.map Named.name) hentries
  rw [Table.foldlM_insert_eq_ok_iff addType_takesNew fun _ => rfl, hnames, hentries]

/-- Directives of new names are taken in exactly if each is allowed. -/
private theorem foldlM_addDirective_new_iff {xs : List (String × Sdl.DirectiveDefinition)}
    {t : Table DirectiveDef} :
    xs.foldlM (fun t x => addDirective x.1 t x.2) new.directives = .ok t ↔
      ((∀ x ∈ xs, x.2.Allowed) ∧ (xs.map fun x => x.2.name).Nodup) ∧
      t.entries = xs.map fun x => .ofSource x.1 x.2 := by
  have hfresh : Fresh (· ∈ new.directives.names) (xs.map fun x => x.2.name) ↔
      (xs.map fun x => x.2.name).Nodup :=
    fresh_mem_iff_nodup_append List.nodup_nil
  rw [Table.foldlM_insert_eq_ok_iff addDirective_takesNew fun _ => rfl, hfresh]
  rfl

/-- **Sources lead from the empty builder to another exactly if they can be loaded and it holds what they
declare:** the built-in scalars and the types, the directives, the roots and the extensions. -/
theorem loads_new_iff {S : Sources} {b : SchemaBuilder} :
    Loads S new b ↔ S.Loadable ∧
      b.types.entries = builtInScalars ++ S.types.map (fun x => .declared x.1 x.2) ∧
      b.directives.entries = S.directives.map (fun x => .ofSource x.1 x.2) ∧
      b.roots = PerOperation.none.declare S.roots ∧ b.extensions = S.extensions := by
  have hroots := @foldlM_addSchemaBlock_eq_ok_iff new.roots b.roots S.blocks List.nodup_nil
  have hoperations : Fresh (fun k => (new.roots.get k).isSome) (S.roots.map Prod.fst) ↔
      (S.roots.map Prod.fst).Nodup := by
    simp [Fresh, new]
  constructor
  · rintro ⟨ht, hd, hr, he⟩
    obtain ⟨⟨htypes, htypeNames⟩, hte⟩ := foldlM_addType_new_iff.1 ht
    obtain ⟨⟨hdirectives, hdirectiveNames⟩, hde⟩ := foldlM_addDirective_new_iff.1 hd
    obtain ⟨⟨hops, hrootNames⟩, hre⟩ := hroots.1 hr
    exact ⟨⟨htypes, htypeNames, hdirectives, hdirectiveNames, hoperations.1 hops, hrootNames⟩, hte, hde, hre, he⟩
  · rintro ⟨h, hte, hde, hre, he⟩
    exact ⟨foldlM_addType_new_iff.2 ⟨⟨h.types, h.typeNames⟩, hte⟩,
      foldlM_addDirective_new_iff.2 ⟨⟨h.directives, h.directiveNames⟩, hde⟩,
      hroots.2 ⟨⟨hoperations.2 h.operations, h.rootNames⟩, hre⟩, he⟩

/-- The roots that a builder holds are those that the schema blocks declare. -/
theorem Loads.get_roots_iff {S : Sources} {b : SchemaBuilder} (h : Loads S new b) {k : OperationKind}
    {r : RootDeclaration} : b.roots.get k = some r ↔ (k, r) ∈ S.roots := by
  obtain ⟨hload, -, -, hroots, -⟩ := loads_new_iff.1 h
  have hfresh : Fresh (fun k => ((PerOperation.none : PerOperation RootDeclaration).get k).isSome)
      (S.roots.map Prod.fst) := ⟨hload.operations, by simp⟩
  rw [hroots, PerOperation.get_declare_iff hfresh]
  simp

/-- **Sources lead from the empty builder to some other exactly if they can be loaded.** -/
theorem exists_loads_iff {S : Sources} : (∃ b, Loads S new b ∧ b.unnamed = new.unnamed) ↔ S.Loadable := by
  constructor
  · rintro ⟨b, h, -⟩
    exact (loads_new_iff.1 h).1
  · intro h
    have htypes : ((builtInScalars ++ S.types.map fun x => TypeDef.declared x.1 x.2).map Named.name).Nodup := by
      rw [List.map_append, List.map_map, ← fresh_mem_iff_nodup_append nodup_names_builtInScalars]
      exact h.typeNames
    have hdirectives : ((S.directives.map fun x => DirectiveDef.ofSource x.1 x.2).map Named.name).Nodup := by
      rw [List.map_map]
      exact h.directiveNames
    exact ⟨⟨⟨_, htypes⟩, ⟨_, hdirectives⟩, S.extensions, PerOperation.none.declare S.roots, new.unnamed⟩,
      loads_new_iff.2 ⟨h, rfl, rfl, rfl, rfl⟩, rfl⟩

end SchemaBuilder

end QueryAid
