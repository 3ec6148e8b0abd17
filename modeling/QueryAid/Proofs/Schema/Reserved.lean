import QueryAid.Proofs.Schema.Names
import QueryAid.Proofs.Schema.WellFormed
/-!
# What belongs to the language

A schema has scalars, directives and types that no source defines, and names that start with two underscores are
kept for them. Definitions are refused when they are loaded if they take such a name or one that is built in, so that
what the language has is put behind them unharmed. Extensions are another matter: they are applied after that, to
whatever type they name. They leave the scalars alone, which take no extension, but put more behind what a type that
describes schemas has (`keepsLanguage_of_ofSources`). So such a type is the language's own exactly if its extensions
bring nothing.
-/

namespace QueryAid

/-! ### Bodies that bring nothing -/

namespace Sdl

/-- A body brings neither interfaces nor members, as that of an extension which only applies directives. -/
def TypeBody.BringsNothing (body : TypeBody) : Prop := body.interfaceNames = [] ∧ body.memberNames = []

instance (body : TypeBody) : Decidable body.BringsNothing :=
  inferInstanceAs (Decidable (body.interfaceNames = [] ∧ body.memberNames = []))

/-- The bodies of the extensions of a type among definitions, in order. -/
def extensionBodies (definitions : List Definition) (name : String) : List TypeBody :=
  definitions.filterMap fun
    | .extension e => if e.name = name then some e.body else none
    | _ => none

end Sdl

/-- The bodies for a type, their files aside, are those of its extensions. -/
theorem Sources.map_snd_bodiesFor (S : Sources) (name : String) :
    (bodiesFor S.extensions name).map Prod.snd = Sdl.extensionBodies (S.map Prod.snd) name := by
  induction S with
  | nil => rfl
  | cons x S ih =>
    obtain ⟨file, d⟩ := x
    cases d with
    | extension e =>
      have hextensions : extensions ((file, .extension e) :: S) = ⟨file, e⟩ :: extensions S := rfl
      rw [hextensions, List.map_cons]
      by_cases h : e.name = name
      · rw [bodiesFor_cons_of_eq h.symm, List.map_cons, ih]
        simp [Sdl.extensionBodies, h]
      · rw [bodiesFor_cons_of_ne (Ne.symm h), ih]
        simp [Sdl.extensionBodies, h]
    | type | directive | schema => exact ih

namespace TypeContents

variable {file owner : String} {c : TypeContents} {body : Sdl.TypeBody} {bodies : List (String × Sdl.TypeBody)}

theorem plus_eq_self (h : body.BringsNothing) : c.plus file body = c := by
  obtain ⟨hinterfaces, hmembers⟩ := h
  cases c with
  | builtIn | scalar => cases body <;> rfl
  | enum values =>
    cases body with
    | enum more =>
      obtain rfl : more = [] := List.map_eq_nil_iff.1 hmembers
      rfl
    | _ => rfl
  | inputObject fields =>
    cases body with
    | inputObject more =>
      obtain rfl : more = [] := List.map_eq_nil_iff.1 hmembers
      rfl
    | _ => rfl
  | union members =>
    cases body with
    | union more =>
      obtain rfl : more = [] := hmembers
      exact congrArg union (List.append_nil members)
    | _ => rfl
  | interface interfaces fields =>
    cases body with
    | interface moreInterfaces more =>
      obtain rfl : moreInterfaces = [] := hinterfaces
      obtain rfl : more = [] := List.map_eq_nil_iff.1 hmembers
      exact congrArg (interface · fields) (List.append_nil interfaces)
    | _ => rfl
  | object interfaces fields =>
    cases body with
    | object moreInterfaces more =>
      obtain rfl : moreInterfaces = [] := hinterfaces
      obtain rfl : more = [] := List.map_eq_nil_iff.1 hmembers
      exact congrArg (object · fields) (List.append_nil interfaces)
    | _ => rfl

theorem plusAll_eq_self (h : ∀ b ∈ bodies, b.2.BringsNothing) : c.plusAll bodies = c := by
  induction bodies with
  | nil => rfl
  | cons b bodies ih =>
    rw [List.forall_mem_cons] at h
    have hfirst : c.plusAll (b :: bodies) = (c.plus b.1 b.2).plusAll bodies := rfl
    rw [hfirst, plus_eq_self h.1, ih h.2]

/-- **Bodies that can be added change nothing exactly if they bring nothing,** since what they bring is new. -/
theorem plusAll_eq_self_iff (h : c.Mergeable owner bodies) :
    c.plusAll bodies = c ↔ ∀ b ∈ bodies, b.2.BringsNothing := by
  refine ⟨fun heq => ?_, plusAll_eq_self⟩
  obtain ⟨hbodies, -, hmembers⟩ := mergeable_iff.1 h
  have hkinds : ∀ b ∈ bodies, c.kind = b.2.kind := fun b hb => (hbodies b hb).1
  have hinterfaceNames : bodies.flatMap (fun b => b.2.interfaceNames) = [] := by
    have hnames := interfaceNames_plusAll hkinds
    rw [heq] at hnames
    exact List.self_eq_append_right.1 hnames
  have hmemberNames : bodies.flatMap (fun b => b.2.memberNames) = [] := by
    refine List.eq_nil_iff_forall_not_mem.2 fun name hname => hmembers.2 name hname ?_
    rw [← heq]
    exact (mem_memberNames_plusAll_iff hkinds).2 (.inr hname)
  exact fun b hb => ⟨List.flatMap_eq_nil_iff.1 hinterfaceNames b hb, List.flatMap_eq_nil_iff.1 hmemberNames b hb⟩

end TypeContents

namespace Schema

/-! ### What it means -/

/-- **What belongs to the language is in a schema as the language has it,** when these are the definitions in the
sources; of the types that describe schemas it says how far. -/
structure KeepsLanguage (s : Schema) (definitions : List Sdl.Definition) : Prop where
  scalars : ∀ t ∈ builtInScalars, s.type? t.name = some t
  directives : ∀ d ∈ builtInDirectives, s.directive? d.name = some d
  /-- What extensions bring to a type that describes schemas is new to it, and goes behind what the language has. -/
  introspection : ∀ t ∈ introspectionTypes, ∃ bodies, bodies.map Prod.snd = Sdl.extensionBodies definitions t.name ∧
    t.contents.Mergeable t.name bodies ∧
    s.type? t.name = some { t with contents := t.contents.plusAll bodies }
  /-- A type that describes schemas is the language's own exactly if its extensions bring nothing. -/
  introspectionKept : ∀ t ∈ introspectionTypes,
    (s.type? t.name = some t ↔ ∀ body ∈ Sdl.extensionBodies definitions t.name, body.BringsNothing)
  typeNames : ∀ t ∈ s.types.entries, t.name ∉ introspectionTypes.map TypeDef.name → isReserved t.name = false
  directiveNames : ∀ d ∈ s.directives.entries, isReserved d.name = false
  /-- No field, argument of a field or input field has a reserved name. -/
  memberNames : ∀ t ∈ s.types.entries, ∀ name ∈ t.contents.guardedNames, isReserved name = false
  directiveArguments : ∀ d ∈ s.directives.entries, ∀ a ∈ d.arguments.entries, isReserved a.name = false

/-! ### Where it comes from -/

variable {sources : List (Option String × String)} {s : Schema}

/-- What every schema has before the extensions is found under its name, with the extensions that name it. -/
theorem exists_extended_standard (h : ofSources sources = .ok s) :
    ∃ S : Sources, S.map Prod.snd = sources.flatMap (fun x => Sources.definitionsIn x.2) ∧
      ∀ t ∈ builtInScalars ++ introspectionTypes, t.contents.Mergeable t.name (bodiesFor S.extensions t.name) ∧
        s.type? t.name = some (t.extendedByAll S.extensions) := by
  obtain ⟨S, b, hdefinitions, hloads, hbuilds⟩ := exists_builds_of_ofSources h
  obtain ⟨hmerge, hentries⟩ := hloads.extended hbuilds.types
  refine ⟨S, hdefinitions, fun t ht => ?_⟩
  have hunextended : t ∈ S.unextendedTypes :=
    Sources.mem_unextendedTypes_iff.2 ((List.mem_append.1 ht).imp_right .inr)
  refine ⟨hmerge t hunextended, Table.find?_eq_some_iff.2 ⟨?_, rfl⟩⟩
  rw [hentries]
  exact List.mem_map_of_mem hunextended

/-- The directives are those of the sources, each allowed, and then the language's own. -/
theorem exists_entries_directives (h : ofSources sources = .ok s) :
    ∃ S : Sources, (∀ x ∈ S.directives, x.2.Allowed) ∧
      s.directives.entries = S.directives.map (fun x => .ofSource x.1 x.2) ++ builtInDirectives := by
  obtain ⟨S, b, -, hloads, hbuilds⟩ := exists_builds_of_ofSources h
  obtain ⟨hload, -⟩ := SchemaBuilder.loads_new_iff.1 hloads
  exact ⟨S, hload.directives, hbuilds.directives ▸ Sources.entries_insertAll_builtInDirectives hloads⟩

/-- A built-in scalar is as it was, since it takes no extension. -/
theorem type?_of_mem_builtInScalars (h : ofSources sources = .ok s) {t : TypeDef} (ht : t ∈ builtInScalars) :
    s.type? t.name = some t := by
  obtain ⟨S, -, hstandard⟩ := exists_extended_standard h
  obtain ⟨hmerge, hfind⟩ := hstandard t (List.mem_append_left _ ht)
  rw [hfind, TypeDef.extendedByAll, Sources.bodies_eq_nil_of_mergeable_builtIn ht hmerge]
  rfl

/-- A type that describes schemas has what its extensions bring behind what the language gave it. -/
theorem exists_bodies_of_mem_introspectionTypes (h : ofSources sources = .ok s) {t : TypeDef}
    (ht : t ∈ introspectionTypes) : ∃ bodies,
      bodies.map Prod.snd = Sdl.extensionBodies (sources.flatMap fun x => Sources.definitionsIn x.2) t.name ∧
      t.contents.Mergeable t.name bodies ∧
      s.type? t.name = some { t with contents := t.contents.plusAll bodies } := by
  obtain ⟨S, hdefinitions, hstandard⟩ := exists_extended_standard h
  obtain ⟨hmerge, hfind⟩ := hstandard t (List.mem_append_right _ ht)
  exact ⟨_, hdefinitions ▸ S.map_snd_bodiesFor t.name, hmerge, hfind⟩

theorem type?_eq_self_iff_bringsNothing (h : ofSources sources = .ok s) {t : TypeDef} (ht : t ∈ introspectionTypes) :
    s.type? t.name = some t ↔
      ∀ body ∈ Sdl.extensionBodies (sources.flatMap fun x => Sources.definitionsIn x.2) t.name,
        body.BringsNothing := by
  obtain ⟨bodies, hbodies, hmerge, hfind⟩ := exists_bodies_of_mem_introspectionTypes h ht
  have hself : { t with contents := t.contents.plusAll bodies } = t ↔ t.contents.plusAll bodies = t.contents :=
    ⟨fun heq => congrArg TypeDef.contents heq, fun heq => by rw [heq]⟩
  rw [hfind, Option.some.injEq, hself, TypeContents.plusAll_eq_self_iff hmerge, ← hbodies, List.forall_mem_map]

/-- A type that does not describe schemas has no reserved name. -/
theorem not_isReserved_of_mem_types (h : ofSources sources = .ok s) {t : TypeDef} (ht : t ∈ s.types.entries)
    (hother : t.name ∉ introspectionTypes.map TypeDef.name) : isReserved t.name = false := by
  have hscalars : ∀ t ∈ builtInScalars, isReserved t.name = false := by decide +kernel
  obtain ⟨S, b, -, hloads, u, hu, rfl, -⟩ := exists_unextended_of_mem_types h ht
  obtain ⟨hload, -⟩ := SchemaBuilder.loads_new_iff.1 hloads
  rcases Sources.mem_unextendedTypes_iff.1 hu with hu | ⟨x, hx, rfl⟩ | hu
  · exact hscalars u hu
  · exact (hload.types x hx).name
  · exact absurd (List.mem_map_of_mem hu) hother

theorem directive?_of_mem_builtInDirectives (h : ofSources sources = .ok s) {d : DirectiveDef}
    (hd : d ∈ builtInDirectives) : s.directive? d.name = some d := by
  obtain ⟨S, -, hentries⟩ := exists_entries_directives h
  refine Table.find?_eq_some_iff.2 ⟨?_, rfl⟩
  rw [hentries]
  exact List.mem_append_right _ hd

/-- No directive has a reserved name, nor has an argument of one. -/
theorem not_isReserved_of_mem_directives (h : ofSources sources = .ok s) {d : DirectiveDef}
    (hd : d ∈ s.directives.entries) :
    isReserved d.name = false ∧ ∀ a ∈ d.arguments.entries, isReserved a.name = false := by
  have hbuiltIn : ∀ d ∈ builtInDirectives,
      isReserved d.name = false ∧ ∀ a ∈ d.arguments.entries, isReserved a.name = false := by
    decide +kernel
  obtain ⟨S, hallowed, hentries⟩ := exists_entries_directives h
  rw [hentries, List.mem_append, List.mem_map] at hd
  rcases hd with ⟨x, hx, rfl⟩ | hd
  · exact ⟨(hallowed x hx).name, not_isReserved_arguments_iff.2 (hallowed x hx).arguments⟩
  · exact hbuiltIn d hd

/-- **Whatever the sources, a schema keeps what belongs to the language:** only extensions of the types that describe
schemas make a difference, and only by what they bring. -/
theorem keepsLanguage_of_ofSources (h : ofSources sources = .ok s) :
    s.KeepsLanguage (sources.flatMap fun x => Sources.definitionsIn x.2) where
  scalars _ ht := type?_of_mem_builtInScalars h ht
  directives _ hd := directive?_of_mem_builtInDirectives h hd
  introspection _ ht := exists_bodies_of_mem_introspectionTypes h ht
  introspectionKept _ ht := type?_eq_self_iff_bringsNothing h ht
  typeNames _ ht hother := not_isReserved_of_mem_types h ht hother
  directiveNames _ hd := (not_isReserved_of_mem_directives h hd).1
  memberNames _ ht _ hname := not_isReserved_of_mem_guardedNames h ht hname
  directiveArguments _ hd := (not_isReserved_of_mem_directives h hd).2

/-- Two of the types that describe schemas are extended, one of them by nothing but a directive. -/
theorem keepsLanguage_of_extended_kinds : ∃ s,
    ofSources [(some "a", "extend enum __TypeKind { OTHER }"),
        (none, "type Query { a(b: Int): ID } directive @c(d: Int) on FIELD extend type __Schema @c")] = .ok s ∧
      s.KeepsLanguage ([(some "a", "extend enum __TypeKind { OTHER }"),
        (none, "type Query { a(b: Int): ID } directive @c(d: Int) on FIELD extend type __Schema @c")].flatMap
          fun x => Sources.definitionsIn x.2) := by
  obtain ⟨s, hs⟩ := exists_eq_ok_of_isOk (x := ofSources
    [(some "a", "extend enum __TypeKind { OTHER }"),
      (none, "type Query { a(b: Int): ID } directive @c(d: Int) on FIELD extend type __Schema @c")])
    (by decide +kernel)
  exact ⟨s, hs, keepsLanguage_of_ofSources hs⟩

/-- A source gives the type of types one more field. -/
theorem exists_altered_introspection : ∃ s,
    ofSources [(some "a.graphql", "type Query { a: Int } extend type __Type { extra: Int }")] = .ok s ∧
      ¬ ∀ t ∈ introspectionTypes, s.type? t.name = some t := by
  have haltered : (do
      let s ← (ofSources
        [(some "a.graphql", "type Query { a: Int } extend type __Type { extra: Int }")]).toOption
      return decide (∀ t ∈ introspectionTypes, s.type? t.name = some t)) = some false := by
    decide +kernel
  obtain ⟨s, hs, hfalse⟩ := Option.bind_eq_some_iff.1 haltered
  exact ⟨s, eq_ok_of_toOption hs, of_decide_eq_false (Option.some.inj hfalse)⟩

end Schema

end QueryAid
