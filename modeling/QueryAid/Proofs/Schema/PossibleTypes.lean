import QueryAid.Proofs.Schema.Assembled
import QueryAid.Proofs.Schema.MemberNames
/-!
# The object types of a type

An object stands for itself, an interface for the objects that implement it, a union for its members, and no other type
for anything. `listsPossibleTypes_of_ofSources` says so in terms of what is written in the sources, in definitions as
well as in extensions: which objects implement an interface is looked up in the table of all types, and the members of a
union by their names. That none of them is lost on the way, or comes twice, is due to the checks of the builder: each
member is an object type of the schema (`references_inOrder`), and no two members of a type share a name
(`nodup_memberNames_of_mem_types`).
-/

namespace QueryAid

/-! ### Kinds and contents -/

namespace TypeDef

variable {t : TypeDef}

/-- The interfaces of an object or interface are those of its contents. -/
theorem interfaces?_getD : t.interfaces?.getD [] = t.contents.interfaceNames := by
  unfold interfaces? TypeContents.interfaceNames
  cases t.contents <;> rfl

theorem isComposite_of_isObject (h : t.isObject = true) : t.isComposite = true := by
  rw [isComposite, h, Bool.or_true]

end TypeDef

namespace Schema

variable {sources : List (Option String × String)} {s : Schema} {t o : TypeDef}

theorem possibleTypes_of_isObject (h : t.isObject = true) : s.possibleTypes t = [t] := by
  unfold possibleTypes
  rw [TypeDef.isObject_iff, TypeDef.kind] at h
  cases hcontents : t.contents with
  | object => rfl
  | _ => simp [hcontents, TypeContents.kind] at h

theorem possibleTypes_of_isInterface (h : t.isInterface = true) : s.possibleTypes t =
    s.types.entries.filter fun o => o.isObject && o.contents.interfaceNames.contains t.name := by
  unfold possibleTypes
  rw [TypeDef.isInterface_iff, TypeDef.kind] at h
  cases hcontents : t.contents with
  | interface => simp only [TypeDef.interfaces?_getD]
  | _ => simp [hcontents, TypeContents.kind] at h

theorem possibleTypes_of_union (h : t.kind = .union) :
    s.possibleTypes t = t.contents.unionMembers.filterMap s.type? := by
  unfold possibleTypes
  rw [TypeDef.kind] at h
  cases hcontents : t.contents with
  | union => rfl
  | _ => simp [hcontents, TypeContents.kind] at h

theorem possibleTypes_of_not_isComposite (h : t.isComposite = false) : s.possibleTypes t = [] := by
  unfold possibleTypes
  rw [← Bool.not_eq_true, TypeDef.isComposite_iff, TypeDef.kind] at h
  cases hcontents : t.contents with
  | interface | object | union => simp [hcontents, TypeContents.kind] at h
  | _ => rfl

/-- The four ways to list the object types of a type. -/
theorem isObject_or_isInterface_or_union (t : TypeDef) :
    t.isObject = true ∨ t.isInterface = true ∨ t.kind = .union ∨ t.isComposite = false := by
  rw [TypeDef.isObject_iff, TypeDef.isInterface_iff, ← Bool.not_eq_true, TypeDef.isComposite_iff]
  tauto

/-- An object type is one of an interface exactly if it implements it. -/
theorem mem_possibleTypes_of_isInterface_iff (h : t.isInterface = true) :
    o ∈ s.possibleTypes t ↔ o ∈ s.types.entries ∧ o.isObject = true ∧ t.name ∈ o.contents.interfaceNames := by
  rw [possibleTypes_of_isInterface h, List.mem_filter, Bool.and_eq_true, List.contains_iff_mem]

/-! ### Object types of the schema -/

/-- The members of a union are object types of the schema, under their names. -/
theorem exists_type?_of_mem_unionMembers (h : ofSources sources = .ok s) (ht : t ∈ s.types.entries) {name : String}
    (hname : name ∈ t.contents.unionMembers) : ∃ o, s.type? name = some o ∧ o.isObject = true := by
  have hreference : (name, Requirement.object) ∈ t.contents.references := by
    unfold TypeContents.unionMembers at hname
    cases hcontents : t.contents with
    | union members =>
      rw [hcontents] at hname
      exact List.mem_map_of_mem hname
    | _ => simp [hcontents] at hname
  obtain ⟨o, hfind, hkind⟩ := (references_inOrder h).1 t ht _ hreference
  exact ⟨o, hfind, TypeDef.isObject_iff.2 hkind⟩

/-- **What a type stands for is in the schema.** -/
theorem mem_types_of_mem_possibleTypes (ht : t ∈ s.types.entries) (ho : o ∈ s.possibleTypes t) :
    o ∈ s.types.entries := by
  rcases isObject_or_isInterface_or_union t with hobject | hinterface | hunion | hother
  · rw [possibleTypes_of_isObject hobject, List.mem_singleton] at ho
    exact ho ▸ ht
  · exact ((mem_possibleTypes_of_isInterface_iff hinterface).1 ho).1
  · rw [possibleTypes_of_union hunion] at ho
    obtain ⟨name, -, hfind⟩ := List.mem_filterMap.1 ho
    exact (Table.find?_eq_some_iff.1 hfind).1
  · rw [possibleTypes_of_not_isComposite hother] at ho
    cases ho

/-- **What a type stands for are objects.** -/
theorem isObject_of_mem_possibleTypes (h : ofSources sources = .ok s) (ht : t ∈ s.types.entries)
    (ho : o ∈ s.possibleTypes t) : o.isObject = true := by
  rcases isObject_or_isInterface_or_union t with hobject | hinterface | hunion | hother
  · rw [possibleTypes_of_isObject hobject, List.mem_singleton] at ho
    exact ho ▸ hobject
  · exact ((mem_possibleTypes_of_isInterface_iff hinterface).1 ho).2.1
  · rw [possibleTypes_of_union hunion] at ho
    obtain ⟨name, hname, hfind⟩ := List.mem_filterMap.1 ho
    obtain ⟨member, hmember, hobject⟩ := exists_type?_of_mem_unionMembers h ht hname
    obtain rfl : member = o := Option.some.inj (hmember.symm.trans hfind)
    exact hobject
  · rw [possibleTypes_of_not_isComposite hother] at ho
    cases ho

/-- Names that are all found lead to types of these names, one for each. -/
theorem map_name_filterMap_type? {names : List String} (h : ∀ name ∈ names, ∃ o, s.type? name = some o) :
    (names.filterMap s.type?).map TypeDef.name = names := by
  induction names with
  | nil => rfl
  | cons name names ih =>
    rw [List.forall_mem_cons] at h
    obtain ⟨⟨o, hfind⟩, hrest⟩ := h
    have hname : o.name = name := (Table.find?_eq_some_iff.1 hfind).2
    rw [List.filterMap_cons_some hfind, List.map_cons, hname, ih hrest]

/-- **A union stands for all of its members,** in their order. -/
theorem map_name_possibleTypes_of_union (h : ofSources sources = .ok s) (ht : t ∈ s.types.entries)
    (hunion : t.kind = .union) : (s.possibleTypes t).map TypeDef.name = t.contents.unionMembers := by
  rw [possibleTypes_of_union hunion]
  refine map_name_filterMap_type? fun name hname => ?_
  obtain ⟨o, hfind, -⟩ := exists_type?_of_mem_unionMembers h ht hname
  exact ⟨o, hfind⟩

/-- **No type is listed twice.** -/
theorem nodup_names_possibleTypes (h : ofSources sources = .ok s) (ht : t ∈ s.types.entries) :
    ((s.possibleTypes t).map TypeDef.name).Nodup := by
  rcases isObject_or_isInterface_or_union t with hobject | hinterface | hunion | hother
  · rw [possibleTypes_of_isObject hobject]
    exact List.nodup_singleton _
  · rw [possibleTypes_of_isInterface hinterface]
    exact s.types.nodup.sublist (List.filter_sublist.map _)
  · have hmembers : t.contents.unionMembers = t.contents.memberNames := by
      rw [TypeDef.kind] at hunion
      cases hcontents : t.contents with
      | union => rfl
      | _ => simp [hcontents, TypeContents.kind] at hunion
    rw [map_name_possibleTypes_of_union h ht hunion, hmembers]
    exact nodup_memberNames_of_mem_types h ht
  · rw [possibleTypes_of_not_isComposite hother]
    exact List.nodup_nil

/-! ### What is written in the sources -/

/-- **The object types of a type are listed as the sources have it,** when these are the definitions in them. -/
structure ListsPossibleTypes (s : Schema) (definitions : List Sdl.Definition) (t : TypeDef) : Prop where
  objects : ∀ o ∈ s.possibleTypes t, o ∈ s.types.entries ∧ o.isObject = true
  distinct : ((s.possibleTypes t).map TypeDef.name).Nodup
  ofObject : t.isObject = true → s.possibleTypes t = [t]
  /-- The objects whose definition or an extension of which names the interface, in the order of all types. -/
  ofInterface : t.isInterface = true → (s.possibleTypes t).Sublist s.types.entries ∧
    ∀ o ∈ s.types.entries, o ∈ s.possibleTypes t ↔
      o.isObject = true ∧ ∃ body ∈ Sdl.writtenBodies definitions o.name, t.name ∈ body.interfaceNames
  /-- The members that the definition and the extensions name, in order. -/
  ofUnion : t.kind = .union → (s.possibleTypes t).map TypeDef.name =
    (Sdl.writtenBodies definitions t.name).flatMap Sdl.TypeBody.unionMembers
  ofOther : t.isComposite = false → s.possibleTypes t = []
  /-- An interface stands for an object exactly if the object says that it implements the interface. -/
  implementing : t.isInterface = true → ∀ o ∈ s.types.entries, o.isObject = true →
    (o ∈ s.possibleTypes t ↔ t.name ∈ o.interfaces?.getD [])

/-- **Whatever the sources, every type stands for the objects that they make it stand for.** -/
theorem listsPossibleTypes_of_ofSources (h : ofSources sources = .ok s) (ht : t ∈ s.types.entries) :
    s.ListsPossibleTypes (sources.flatMap fun x => Sources.definitionsIn x.2) t where
  objects _ ho := ⟨mem_types_of_mem_possibleTypes ht ho, isObject_of_mem_possibleTypes h ht ho⟩
  distinct := nodup_names_possibleTypes h ht
  ofObject := possibleTypes_of_isObject
  ofInterface hinterface := by
    refine ⟨?_, fun o ho => ?_⟩
    · rw [possibleTypes_of_isInterface hinterface]
      exact List.filter_sublist
    · rw [mem_possibleTypes_of_isInterface_iff hinterface, interfaceNames_of_mem_types h ho, List.mem_flatMap]
      exact and_iff_right ho
  ofUnion hunion := by rw [map_name_possibleTypes_of_union h ht hunion, unionMembers_of_mem_types h ht]
  ofOther := possibleTypes_of_not_isComposite
  implementing hinterface o ho hobject := by
    rw [mem_possibleTypes_of_isInterface_iff hinterface, TypeDef.interfaces?_getD]
    exact ⟨fun hmem => hmem.2.2, fun hname => ⟨ho, hobject, hname⟩⟩

/-- An interface and a union, for both of which an extension in another source counts. -/
theorem listsPossibleTypes_of_extended_union : ∃ s node pet,
    ofSources [(none, "extend type Dog implements Node extend union Pet = Dog"),
        (some "a", "interface Node { id: ID } union Pet = Cat type Query { pet: Pet }
          type Dog { id: ID } type Cat implements Node { id: ID }")] = .ok s ∧
      s.type? "Node" = some node ∧ s.type? "Pet" = some pet ∧
      (s.possibleTypes node).map TypeDef.name = ["Dog", "Cat"] ∧
      (s.possibleTypes pet).map TypeDef.name = ["Cat", "Dog"] ∧
      s.ListsPossibleTypes ([(none, "extend type Dog implements Node extend union Pet = Dog"),
        (some "a", "interface Node { id: ID } union Pet = Cat type Query { pet: Pet }
          type Dog { id: ID } type Cat implements Node { id: ID }")].flatMap fun x : Option String × String =>
            Sources.definitionsIn x.2) node := by
  have hlists : (do
      let s ← (ofSources [(none, "extend type Dog implements Node extend union Pet = Dog"),
        (some "a", "interface Node { id: ID } union Pet = Cat type Query { pet: Pet }
          type Dog { id: ID } type Cat implements Node { id: ID }")]).toOption
      let node ← s.type? "Node"
      let pet ← s.type? "Pet"
      return ((s.possibleTypes node).map TypeDef.name, (s.possibleTypes pet).map TypeDef.name)) =
        some (["Dog", "Cat"], ["Cat", "Dog"]) := by
    decide +kernel
  obtain ⟨s, hs, hlists⟩ := Option.bind_eq_some_iff.1 hlists
  obtain ⟨node, hnode, hlists⟩ := Option.bind_eq_some_iff.1 hlists
  obtain ⟨pet, hpet, hlists⟩ := Option.bind_eq_some_iff.1 hlists
  obtain ⟨hinterface, hunion⟩ := Prod.mk.inj (Option.some.inj hlists)
  have hs := eq_ok_of_toOption hs
  have hmem : node ∈ s.types.entries := (Table.find?_eq_some_iff.1 hnode).1
  exact ⟨s, node, pet, hs, hnode, hpet, hinterface, hunion, listsPossibleTypes_of_ofSources hs hmem⟩

end Schema

end QueryAid
