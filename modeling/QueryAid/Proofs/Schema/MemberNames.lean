import QueryAid.Proofs.Schema.Contents
import QueryAid.Proofs.Schema.Names
import QueryAid.Proofs.Schema.WellFormed
/-!
# The names of members and directives

Not only types have names of the language, but also fields, input fields, enum values, directives and arguments
(`areNames_of_mem_members`, `areNames_of_mem_directives`). The names in a source do, and a schema takes its names from
there, or they belong to the language. No two members of a type share a name (`nodup_memberNames_of_mem_types`), also
if they come from several sources.
-/

namespace QueryAid

open Sdl (AreNames)

/-! ### From the source -/

/-- The names in a member: its own, and those of its arguments. -/
def Member.names : Member → List String
  | field f => f.name :: f.arguments.names
  | inputField f => [f.name]
  | enumValue v => [v.name]
  | unionMember name => [name]

theorem names_arguments_subset (file : String) (args : List Sdl.InputValue) :
    (Table.ofList (args.map (InputValueDef.ofSource file))).names ⊆ args.flatMap Sdl.InputValue.names := by
  intro name hname
  obtain ⟨a, ha, rfl⟩ := List.mem_map.1 ((Table.mem_names_ofList_map_iff fun _ => rfl).1 hname)
  exact List.mem_flatMap.2 ⟨a, ha, List.mem_cons_self⟩

/-- The names in a member are among those of the body that brings it. -/
theorem Member.names_ofSource_subset (file : String) {body : Sdl.TypeBody} {m : Sdl.Member}
    (hm : m ∈ body.members) : (ofSource file m).names ⊆ body.names := by
  cases body with
  | scalar => cases hm
  | object interfaces fields | interface interfaces fields =>
    obtain ⟨f, hf, rfl⟩ := List.mem_map.1 hm
    have harguments : (ofSource file (.field f)).names ⊆ f.names :=
      List.cons_subset_cons _ (List.subset_cons_of_subset _ (names_arguments_subset file f.arguments))
    have hfields : f.names ⊆ fields.flatMap Sdl.Field.names :=
      fun name hname => List.mem_flatMap.2 ⟨f, hf, hname⟩
    exact List.Subset.trans harguments (List.Subset.trans hfields (List.subset_append_right _ _))
  | union members =>
    obtain ⟨name, hname, rfl⟩ := List.mem_map.1 hm
    exact List.cons_subset.2 ⟨hname, List.nil_subset _⟩
  | enum values =>
    obtain ⟨v, hv, rfl⟩ := List.mem_map.1 hm
    exact List.cons_subset.2 ⟨List.mem_map_of_mem hv, List.nil_subset _⟩
  | inputObject fields =>
    obtain ⟨f, hf, rfl⟩ := List.mem_map.1 hm
    exact List.cons_subset.2 ⟨List.mem_flatMap.2 ⟨f, hf, List.mem_cons_self⟩, List.nil_subset _⟩

/-! ### Distinct members -/

namespace TypeContents

variable {file owner : String} {c : TypeContents} {body : Sdl.TypeBody}

/-- Members that are taken in are new. -/
theorem nodup_memberNames_plus (hbody : c.Accepts owner body) (h : c.memberNames.Nodup) :
    (c.plus file body).memberNames.Nodup := by
  cases c with
  | builtIn | scalar => cases body <;> exact List.nodup_nil
  | enum values | inputObject fields | interface _ fields | object _ fields => cases body <;> exact Table.nodup _
  | union members =>
    cases body with
    | union more => exact (fresh_mem_iff_nodup_append h).1 hbody.members
    | _ => exact h

theorem nodup_memberNames_plusAll {bodies : List (String × Sdl.TypeBody)} (hbodies : c.Mergeable owner bodies)
    (h : c.memberNames.Nodup) : (c.plusAll bodies).memberNames.Nodup := by
  induction bodies generalizing c with
  | nil => exact h
  | cons b bodies ih => exact ih hbodies.2 (nodup_memberNames_plus hbodies.1 h)

end TypeContents

/-! ### In schemas -/

namespace Schema

variable {sources : List (Option String × String)} {s : Schema}

/-- **The members of a type and their arguments have names of the language.** -/
theorem areNames_of_mem_members (h : ofSources sources = .ok s) {t : TypeDef} (ht : t ∈ s.types.entries) {m : Member}
    (hm : m ∈ t.contents.members) : AreNames m.names := by
  have hstandard : ∀ t ∈ builtInScalars ++ introspectionTypes, ∀ m ∈ t.contents.members, ∀ name ∈ m.names,
      isIdentifier name = true := by
    decide +kernel
  obtain ⟨S, b, hdefinitions, hloads, u, hu, rfl, hmerge⟩ := exists_unextended_of_mem_types h ht
  have hbody {file : String} {body : Sdl.TypeBody} (hnames : AreNames body.names)
      (hm : m ∈ body.members.map (Member.ofSource file)) : AreNames m.names := by
    obtain ⟨source, hsource, rfl⟩ := List.mem_map.1 hm
    exact fun name hname => hnames name (Member.names_ofSource_subset file hsource hname)
  have hmembers := TypeContents.members_plusAll hmerge
  rw [TypeDef.extendedByAll, hmembers, List.mem_append] at hm
  rcases hm with hm | hm
  · rcases Sources.mem_unextendedTypes_iff.1 hu with hscalar | ⟨x, hx, rfl⟩ | hintrospection
    · exact hstandard u (List.mem_append_left _ hscalar) m hm
    · obtain ⟨hload, -⟩ := SchemaBuilder.loads_new_iff.1 hloads
      have hdeclared : (TypeDef.declared x.1 x.2).contents.members = x.2.body.members.map (Member.ofSource x.1) := by
        refine (TypeContents.members_plus (hload.types x hx).body).trans ?_
        rw [TypeContents.members_emptyFor, List.nil_append]
      have hnames := areNames_of_mem_sources hdefinitions (Sources.mem_types_iff.1 hx)
      exact hbody (Sdl.areNames_cons_iff.1 hnames).2 (hdeclared ▸ hm)
    · exact hstandard u (List.mem_append_right _ hintrospection) m hm
  · obtain ⟨b, hb, hm⟩ := List.mem_flatMap.1 hm
    obtain ⟨p, hp, -, rfl⟩ := mem_bodiesFor_iff.1 hb
    have hnames := areNames_of_mem_sources hdefinitions (Sources.mem_extensions_iff.1 hp)
    exact hbody (Sdl.areNames_cons_iff.1 hnames).2 hm

/-- **No two members of a type share a name.** -/
theorem nodup_memberNames_of_mem_types (h : ofSources sources = .ok s) {t : TypeDef} (ht : t ∈ s.types.entries) :
    t.contents.memberNames.Nodup := by
  have hstandard : ∀ t ∈ builtInScalars ++ introspectionTypes, t.contents.memberNames.Nodup := by decide +kernel
  obtain ⟨S, b, -, hloads, u, hu, rfl, hmerge⟩ := exists_unextended_of_mem_types h ht
  obtain ⟨hload, -⟩ := SchemaBuilder.loads_new_iff.1 hloads
  refine TypeContents.nodup_memberNames_plusAll hmerge ?_
  rcases Sources.mem_unextendedTypes_iff.1 hu with hscalar | ⟨x, hx, rfl⟩ | hintrospection
  · exact hstandard u (List.mem_append_left _ hscalar)
  · refine TypeContents.nodup_memberNames_plus (hload.types x hx).body ?_
    unfold TypeContents.emptyFor
    split <;> exact List.nodup_nil
  · exact hstandard u (List.mem_append_right _ hintrospection)

/-- **Directives and their arguments have names of the language.** -/
theorem areNames_of_mem_directives (h : ofSources sources = .ok s) {d : DirectiveDef}
    (hd : d ∈ s.directives.entries) : AreNames (d.name :: d.arguments.names) := by
  have hbuiltIn : ∀ d ∈ builtInDirectives, ∀ name ∈ d.name :: d.arguments.names, isIdentifier name = true := by
    decide +kernel
  obtain ⟨S, b, hdefinitions, hloads, hbuilds⟩ := exists_builds_of_ofSources h
  rw [hbuilds.directives, Sources.entries_insertAll_builtInDirectives hloads, List.mem_append, List.mem_map] at hd
  rcases hd with ⟨x, hx, rfl⟩ | hd
  · have hnames := areNames_of_mem_sources hdefinitions (Sources.mem_directives_iff.1 hx)
    obtain ⟨hname, harguments⟩ := Sdl.areNames_cons_iff.1 hnames
    exact Sdl.areNames_cons_iff.2 ⟨hname, fun name hmem =>
      harguments name (names_arguments_subset x.1 x.2.arguments hmem)⟩
  · exact hbuiltIn d hd

end Schema

end QueryAid
