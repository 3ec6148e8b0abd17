import QueryAid.Proofs.Schema.Members
import QueryAid.Schema.Builder
/-!
# What sources say

The definitions of several files side by side, and from them the types, directives, extensions and roots of
operations that they declare. Loading is about these four lists and nothing else.
-/

namespace QueryAid

/-- The roots that a schema block in a file declares. -/
def Sdl.SchemaBlock.declarations (file : String) (s : Sdl.SchemaBlock) : List (OperationKind × RootDeclaration) :=
  s.roots.toList.map fun r => (r.1, ⟨r.2, .file file s.place⟩)

/-- **What is written in several files,** in order: every definition with the file it stands in. -/
abbrev Sources : Type := List (String × Sdl.Definition)

namespace Sources

/-- The definitions in a text; none if it is wrong. -/
def definitionsIn (text : String) : List Sdl.Definition := (Sdl.parse text.toList).toOption.getD []

/-- The definitions in texts that bear names. -/
def ofTexts (texts : List (String × String)) : Sources :=
  texts.flatMap fun t => (definitionsIn t.2).map (t.1, ·)

/-- The definitions of types, with their files. -/
def types (S : Sources) : List (String × Sdl.TypeDefinition) :=
  S.filterMap fun
    | (file, .type d) => some (file, d)
    | _ => none

/-- The definitions of directives, with their files. -/
def directives (S : Sources) : List (String × Sdl.DirectiveDefinition) :=
  S.filterMap fun
    | (file, .directive d) => some (file, d)
    | _ => none

/-- The extensions, with their files. -/
def extensions (S : Sources) : List PendingExtension :=
  S.filterMap fun
    | (file, .extension e) => some ⟨file, e⟩
    | _ => none

/-- The schema blocks, with their files. -/
def blocks (S : Sources) : List (String × Sdl.SchemaBlock) :=
  S.filterMap fun
    | (file, .schema s) => some (file, s)
    | _ => none

/-- The roots of operations that the schema blocks declare. -/
def roots (S : Sources) : List (OperationKind × RootDeclaration) :=
  S.blocks.flatMap fun x => x.2.declarations x.1

/-! ### Where the four come from -/

variable {S : Sources}

theorem mem_types_iff {x : String × Sdl.TypeDefinition} : x ∈ S.types ↔ (x.1, .type x.2) ∈ S := by
  rw [types, List.mem_filterMap]
  constructor
  · rintro ⟨⟨file, d⟩, hd, hx⟩
    cases d with
    | type d =>
      cases hx
      exact hd
    | schema _ | extension _ | directive _ => cases hx
  · intro hx
    exact ⟨_, hx, rfl⟩

theorem mem_directives_iff {x : String × Sdl.DirectiveDefinition} :
    x ∈ S.directives ↔ (x.1, .directive x.2) ∈ S := by
  rw [directives, List.mem_filterMap]
  constructor
  · rintro ⟨⟨file, d⟩, hd, hx⟩
    cases d with
    | directive d =>
      cases hx
      exact hd
    | schema _ | extension _ | type _ => cases hx
  · intro hx
    exact ⟨_, hx, rfl⟩

theorem mem_extensions_iff {p : PendingExtension} : p ∈ S.extensions ↔ (p.file, .extension p.extension) ∈ S := by
  rw [extensions, List.mem_filterMap]
  constructor
  · rintro ⟨⟨file, d⟩, hd, hp⟩
    cases d with
    | extension e =>
      cases hp
      exact hd
    | schema _ | type _ | directive _ => cases hp
  · intro hp
    exact ⟨_, hp, rfl⟩

theorem mem_blocks_iff {x : String × Sdl.SchemaBlock} : x ∈ S.blocks ↔ (x.1, .schema x.2) ∈ S := by
  rw [blocks, List.mem_filterMap]
  constructor
  · rintro ⟨⟨file, d⟩, hd, hx⟩
    cases d with
    | schema block =>
      cases hx
      exact hd
    | type _ | extension _ | directive _ => cases hx
  · intro hx
    exact ⟨_, hx, rfl⟩

end Sources

end QueryAid
