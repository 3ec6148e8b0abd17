import QueryAid.Proofs.Schema.Loading
/-!
# When extensions can be applied

Extensions are applied one by one to the types they name. `foldlM_applyExtension_eq_ok_iff` says when all of
them can be: each names a type of the table, and every type can take in the bodies meant for it one after the
other. Then each type is what it was with these bodies put behind it, in its old place.
-/

namespace QueryAid

/-! ### One extension -/

/-- A type after an extension: as it was, unless the extension names it. -/
def TypeDef.extendedBy (p : PendingExtension) (t : TypeDef) : TypeDef :=
  if t.name = p.extension.name then { t with contents := t.contents.plus p.file p.extension.body } else t

theorem TypeDef.name_extendedBy (p : PendingExtension) (t : TypeDef) :
    Named.name (t.extendedBy p) = Named.name t := by
  unfold extendedBy
  split
  · rfl
  · rfl

namespace SchemaBuilder

theorem extend_eq_ok_iff {file : String} {t t' : TypeDef} {e : Sdl.TypeExtension} :
    t.extend file e = .ok t' ↔
      t.contents.Accepts t.name e.body ∧ t' = { t with contents := t.contents.plus file e.body } := by
  unfold TypeDef.extend
  simp only [bind_eq_ok_iff, TypeContents.add_eq_ok_iff, pure, Except.pure, Except.ok.injEq]
  constructor
  · rintro ⟨_, ⟨h, rfl⟩, rfl⟩
    exact ⟨h, rfl⟩
  · rintro ⟨h, rfl⟩
    exact ⟨_, ⟨h, rfl⟩, rfl⟩

/-- **An extension can be applied exactly if a type of its name accepts it,** and changes nothing else. -/
theorem applyExtension_eq_ok_iff {types types' : Table TypeDef} {p : PendingExtension} :
    applyExtension types p = .ok types' ↔
      (∃ t ∈ types.entries, t.name = p.extension.name ∧ t.contents.Accepts t.name p.extension.body) ∧
      types' = types.mapEntries (TypeDef.extendedBy p) (TypeDef.name_extendedBy p) := by
  -- The extended type in its place is the table with `extendedBy` applied throughout.
  have hinsert {t : TypeDef} (ht : t ∈ types.entries) (hname : t.name = p.extension.name) :
      types.insert { t with contents := t.contents.plus p.file p.extension.body } =
        types.mapEntries (TypeDef.extendedBy p) (TypeDef.name_extendedBy p) :=
    Table.insert_eq_mapEntries ht rfl (if_pos hname) fun u hu => if_neg fun h => hu (h.trans hname.symm)
  unfold applyExtension
  constructor
  · intro h
    split at h
    · cases h
    · next t hfind =>
      obtain ⟨ht, hname⟩ := Table.find?_eq_some_iff.1 hfind
      obtain ⟨t', ht', h⟩ := bind_eq_ok_iff.1 h
      obtain ⟨haccepts, rfl⟩ := extend_eq_ok_iff.1 ht'
      exact ⟨⟨t, ht, hname, haccepts⟩, (Except.ok.inj h).symm.trans (hinsert ht hname)⟩
  · rintro ⟨⟨t, ht, hname, haccepts⟩, rfl⟩
    have hfind : types.find? p.extension.name = some t := Table.find?_eq_some_iff.2 ⟨ht, hname⟩
    rw [hfind, ← hinsert ht hname]
    exact bind_eq_ok_iff.2 ⟨_, extend_eq_ok_iff.2 ⟨haccepts, rfl⟩, rfl⟩

end SchemaBuilder

/-! ### All extensions -/

/-- The bodies, with their files, of the extensions of a name. -/
def bodiesFor (extensions : List PendingExtension) (name : String) : List (String × Sdl.TypeBody) :=
  (extensions.filter fun p => p.extension.name == name).map fun p => (p.file, p.extension.body)

section BodiesFor

variable {p : PendingExtension} {extensions : List PendingExtension} {name : String}

theorem bodiesFor_cons_of_eq (h : name = p.extension.name) :
    bodiesFor (p :: extensions) name = (p.file, p.extension.body) :: bodiesFor extensions name := by
  simp [bodiesFor, h]

theorem bodiesFor_cons_of_ne (h : name ≠ p.extension.name) :
    bodiesFor (p :: extensions) name = bodiesFor extensions name := by
  simp [bodiesFor, Ne.symm h]

theorem bodiesFor_append {more : List PendingExtension} :
    bodiesFor (extensions ++ more) name = bodiesFor extensions name ++ bodiesFor more name := by
  rw [bodiesFor, List.filter_append, List.map_append]
  rfl

theorem mem_bodiesFor_iff {b : String × Sdl.TypeBody} :
    b ∈ bodiesFor extensions name ↔
      ∃ p ∈ extensions, p.extension.name = name ∧ (p.file, p.extension.body) = b := by
  simp [bodiesFor, and_assoc]

end BodiesFor

/-- A type with all extensions that name it. -/
def TypeDef.extendedByAll (extensions : List PendingExtension) (t : TypeDef) : TypeDef :=
  { t with contents := t.contents.plusAll (bodiesFor extensions t.name) }

theorem TypeDef.name_extendedByAll (extensions : List PendingExtension) (t : TypeDef) :
    Named.name (t.extendedByAll extensions) = Named.name t := rfl

theorem TypeDef.extendedByAll_cons (p : PendingExtension) (extensions : List PendingExtension) (t : TypeDef) :
    t.extendedByAll (p :: extensions) = (t.extendedBy p).extendedByAll extensions := by
  unfold extendedByAll extendedBy
  by_cases h : t.name = p.extension.name
  · rw [if_pos h, bodiesFor_cons_of_eq h]
    rfl
  · rw [if_neg h, bodiesFor_cons_of_ne h]

@[simp]
theorem TypeDef.kind_extendedByAll (extensions : List PendingExtension) (t : TypeDef) :
    (t.extendedByAll extensions).kind = t.kind := by
  unfold extendedByAll kind
  exact TypeContents.kind_plusAll

/-- A type can take in its bodies exactly if it can take in the first one, should it be meant for it, and then
the others. -/
theorem TypeDef.mergeable_cons_iff {p : PendingExtension} {extensions : List PendingExtension} {t : TypeDef} :
    t.contents.Mergeable t.name (bodiesFor (p :: extensions) t.name) ↔
      (t.name = p.extension.name → t.contents.Accepts t.name p.extension.body) ∧
      (t.extendedBy p).contents.Mergeable (t.extendedBy p).name
        (bodiesFor extensions (t.extendedBy p).name) := by
  unfold extendedBy
  by_cases h : t.name = p.extension.name
  · rw [if_pos h, bodiesFor_cons_of_eq h, TypeContents.Mergeable]
    simp only [h, forall_const]
  · rw [if_neg h, bodiesFor_cons_of_ne h]
    simp only [h, false_imp_iff, true_and]

namespace SchemaBuilder

/-- **Extensions can be applied one after the other exactly if each of them names a type, and every type can take
in the bodies meant for it.** -/
theorem foldlM_applyExtension_eq_ok_iff {extensions : List PendingExtension} {types types' : Table TypeDef} :
    extensions.foldlM applyExtension types = .ok types' ↔
      (∀ p ∈ extensions, p.extension.name ∈ types.names) ∧
      (∀ t ∈ types.entries, t.contents.Mergeable t.name (bodiesFor extensions t.name)) ∧
      types'.entries = types.entries.map (TypeDef.extendedByAll extensions) := by
  induction extensions generalizing types with
  | nil =>
    have hmap : types.entries.map (TypeDef.extendedByAll []) = types.entries :=
      (List.map_congr_left fun t _ => rfl).trans (List.map_id _)
    rw [hmap]
    constructor
    · intro h
      cases h
      exact ⟨nofun, fun _ _ => trivial, rfl⟩
    · rintro ⟨-, -, h⟩
      rw [Table.ext h]
      rfl
  | cons p extensions ih =>
    rw [List.foldlM_cons, bind_eq_ok_iff, List.forall_mem_cons]
    simp only [applyExtension_eq_ok_iff, ih]
    set next := types.mapEntries (TypeDef.extendedBy p) (TypeDef.name_extendedBy p)
    have hmap : next.entries.map (TypeDef.extendedByAll extensions) =
        types.entries.map (TypeDef.extendedByAll (p :: extensions)) := by
      rw [Table.entries_mapEntries, List.map_map]
      exact List.map_congr_left fun t _ => (TypeDef.extendedByAll_cons p extensions t).symm
    have hnames : next.names = types.names := Table.names_mapEntries
    have hforall : (∀ t ∈ next.entries, t.contents.Mergeable t.name (bodiesFor extensions t.name)) ↔
        ∀ t ∈ types.entries, (t.extendedBy p).contents.Mergeable (t.extendedBy p).name
          (bodiesFor extensions (t.extendedBy p).name) :=
      List.forall_mem_map
    constructor
    · rintro ⟨_, ⟨⟨t, ht, hname, haccepts⟩, rfl⟩, hall, hmerge, hentries⟩
      refine ⟨⟨Table.mem_names.2 ⟨t, ht, hname⟩, hnames ▸ hall⟩, fun u hu => ?_, hentries.trans hmap⟩
      refine TypeDef.mergeable_cons_iff.2 ⟨fun h => ?_, hforall.1 hmerge u hu⟩
      have heq : u = t := List.inj_on_of_nodup_map types.nodup hu ht (h.trans hname.symm)
      exact heq ▸ haccepts
    · rintro ⟨⟨hp, hall⟩, hmerge, hentries⟩
      obtain ⟨t, ht, hname⟩ := Table.mem_names.1 hp
      refine ⟨next, ⟨⟨t, ht, hname, (TypeDef.mergeable_cons_iff.1 (hmerge t ht)).1 hname⟩, rfl⟩,
        hnames.symm ▸ hall, hforall.2 fun u hu => (TypeDef.mergeable_cons_iff.1 (hmerge u hu)).2,
        hentries.trans hmap.symm⟩

end SchemaBuilder

end QueryAid
