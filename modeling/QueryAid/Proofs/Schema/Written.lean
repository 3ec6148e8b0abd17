import QueryAid.Proofs.Schema.Building
import QueryAid.Proofs.Sdl.Names
/-!
# References as they are written

What the fields, arguments, interfaces and members in a source refer to, and that the types of a schema refer to
exactly this (`mem_references_plusAll_iff`). Arguments are the exception: of those that share a name only the last
one is kept, so that the types of the others are nobody's concern (`lastOfEachName`).
-/

namespace QueryAid

/-! ### The references -/

namespace Sdl

/-- The reference of an argument or input field. -/
def InputValue.reference (v : InputValue) : Reference := (v.type.namedType, .input)

/-- Of arguments that share a name, only the last one. -/
def lastOfEachName : List InputValue → List InputValue
  | [] => []
  | a :: as => if a.name ∈ as.map InputValue.name then lastOfEachName as else a :: lastOfEachName as

variable (counted : List InputValue → List InputValue)

/-- The references of a field: that of its type, and those of the arguments that count. -/
def Field.references (f : Field) : List Reference :=
  (f.type.namedType, .output) :: (counted f.arguments).map InputValue.reference

/-- The references in a body. -/
def TypeBody.references : TypeBody → List Reference
  | object interfaces fields | interface interfaces fields =>
    interfaces.map (·, .interface) ++ fields.flatMap (Field.references counted)
  | inputObject fields => fields.map InputValue.reference
  | union members => members.map (·, .object)
  | enum _ | scalar => []

/-- The references of a directive: those of the arguments that count. -/
def DirectiveDefinition.references (d : DirectiveDefinition) : List Reference :=
  (counted d.arguments).map InputValue.reference

end Sdl

/-! ### Arguments -/

/-- An argument counts exactly if no later one bears its name. -/
theorem Sdl.mem_lastOfEachName_iff {a : InputValue} {as : List InputValue} :
    a ∈ lastOfEachName as ↔ ∃ p q, as = p ++ a :: q ∧ ∀ b ∈ q, b.name ≠ a.name := by
  induction as with
  | nil => simp [lastOfEachName]
  | cons c as ih =>
    have hcons : a ∈ lastOfEachName (c :: as) ↔
        (a = c ∧ ∀ b ∈ as, b.name ≠ a.name) ∨ a ∈ lastOfEachName as := by
      have hnew : c.name ∉ as.map InputValue.name ↔ ∀ b ∈ as, b.name ≠ c.name := by simp
      rw [lastOfEachName]
      split
      -- Either a later argument has the name of the first one, or the first one counts.
      · next h =>
        refine (or_iff_right ?_).symm
        rintro ⟨rfl, hne⟩
        exact hnew.2 hne h
      · next h =>
        rw [List.mem_cons]
        refine or_congr_left (and_iff_left_of_imp ?_).symm
        rintro rfl
        exact hnew.1 h
    rw [hcons, ih]
    constructor
    · rintro (⟨rfl, hne⟩ | ⟨p, q, rfl, hne⟩)
      · exact ⟨[], as, rfl, hne⟩
      · exact ⟨c :: p, q, rfl, hne⟩
    · rintro ⟨p, q, h, hne⟩
      rcases List.cons_eq_append_iff.1 h with ⟨rfl, h⟩ | ⟨p', rfl, rfl⟩
      · obtain ⟨rfl, rfl⟩ := List.cons_eq_cons.1 h
        exact .inl ⟨rfl, hne⟩
      · exact .inr ⟨p', q, rfl, hne⟩

theorem TypeAnnotation.namedType_nonNull (a : TypeAnnotation) : a.nonNull.namedType = a.namedType := by
  cases a <;> rfl

theorem TypeAnnotation.namedType_ofExpression (e : Sdl.TypeExpression) :
    (ofExpression e).namedType = e.namedType := by
  induction e with
  | named => rfl
  | list _ ih => exact ih
  | nonNull _ ih => rw [ofExpression, namedType_nonNull, ih, Sdl.TypeExpression.namedType]

theorem InputValueDef.reference_ofSource (file : String) (v : Sdl.InputValue) :
    (ofSource file v).reference = v.reference := by
  have hname : (ofSource file v).type.namedType = v.type.namedType :=
    TypeAnnotation.namedType_ofExpression v.type
  rw [reference, hname, Sdl.InputValue.reference]

/-- **The arguments that are kept refer to what those refer to that count.** -/
theorem mem_arguments_references_iff {file : String} {args : List Sdl.InputValue} {r : Reference} :
    r ∈ (Table.ofList (args.map (InputValueDef.ofSource file))).entries.map InputValueDef.reference ↔
      r ∈ (Sdl.lastOfEachName args).map Sdl.InputValue.reference := by
  simp only [List.mem_map, Table.mem_entries_ofList_iff, Sdl.mem_lastOfEachName_iff]
  constructor
  · rintro ⟨_, ⟨p, q, h, hne⟩, rfl⟩
    obtain ⟨p', rest, rfl, rfl, hrest⟩ := List.map_eq_append_iff.1 h
    obtain ⟨a, q', rfl, rfl, rfl⟩ := List.map_eq_cons_iff.1 hrest
    rw [List.forall_mem_map] at hne
    exact ⟨a, ⟨p', q', rfl, hne⟩, (InputValueDef.reference_ofSource file a).symm⟩
  · rintro ⟨a, ⟨p, q, rfl, hne⟩, rfl⟩
    refine ⟨InputValueDef.ofSource file a, ⟨_, _, List.map_append.trans (congrArg _ List.map_cons), ?_⟩,
      InputValueDef.reference_ofSource file a⟩
    rw [List.forall_mem_map]
    exact hne

/-! ### Fields, bodies and directives -/

theorem mem_references_ofSource_iff {file : String} {f : Sdl.Field} {r : Reference} :
    r ∈ (FieldDef.ofSource file f).references ↔ r ∈ f.references Sdl.lastOfEachName := by
  have htype : (FieldDef.ofSource file f).type.namedType = f.type.namedType :=
    TypeAnnotation.namedType_ofExpression f.type
  rw [FieldDef.references, Sdl.Field.references, List.mem_cons, List.mem_cons, htype]
  exact or_congr_right mem_arguments_references_iff

theorem mem_directive_references_iff {file : String} {d : Sdl.DirectiveDefinition} {r : Reference} :
    r ∈ (DirectiveDef.ofSource file d).references ↔ r ∈ d.references Sdl.lastOfEachName :=
  mem_arguments_references_iff

namespace TypeContents

variable {file owner : String} {c : TypeContents} {body : Sdl.TypeBody} {r : Reference}

/-- Fields of new names bring their references, and nothing else changes. -/
private theorem mem_fields_references_iff {fields : Table FieldDef} {more : List Sdl.Field}
    (h : Fresh (· ∈ fields.names) (more.map Sdl.Field.name)) :
    r ∈ (fields.insertAll (more.map (FieldDef.ofSource file))).entries.flatMap FieldDef.references ↔
      r ∈ fields.entries.flatMap FieldDef.references ∨
      r ∈ more.flatMap (Sdl.Field.references Sdl.lastOfEachName) := by
  rw [Table.entries_insertAll_map_of_fresh (fun _ => rfl) h, List.flatMap_append, List.mem_append]
  refine or_congr_right ?_
  rw [List.flatMap_map]
  simp only [List.mem_flatMap, mem_references_ofSource_iff]

/-- **A body that is accepted brings its references, and nothing else changes.** -/
theorem mem_references_plus_iff (h : c.Accepts owner body) :
    r ∈ (c.plus file body).references ↔ r ∈ c.references ∨ r ∈ body.references Sdl.lastOfEachName := by
  have hkind := h.kind
  have hmembers := h.members
  cases c with
  | builtIn => cases body <;> cases hkind
  | scalar => cases body <;> cases hkind; simp [plus, references, Sdl.TypeBody.references]
  | enum => cases body <;> cases hkind; simp [plus, references, Sdl.TypeBody.references]
  | union members =>
    cases body <;> cases hkind
    rw [plus, references, references, Sdl.TypeBody.references, List.map_append, List.mem_append]
  | inputObject fields =>
    cases body <;> cases hkind
    next more =>
    have hnew : Fresh (· ∈ fields.names) (more.map Sdl.InputValue.name) := hmembers
    have hreferences : (more.map (InputValueDef.ofSource file)).map InputValueDef.reference =
        more.map Sdl.InputValue.reference := by
      rw [List.map_map]
      exact List.map_congr_left fun v _ => InputValueDef.reference_ofSource file v
    rw [plus, references, references, Sdl.TypeBody.references,
      Table.entries_insertAll_map_of_fresh (fun _ => rfl) hnew, List.map_append, List.mem_append, hreferences]
  | interface interfaces fields | object interfaces fields =>
    cases body <;> cases hkind
    next moreInterfaces more =>
    rw [plus, references, references, Sdl.TypeBody.references, List.mem_append, List.mem_append, List.mem_append,
      List.map_append, List.mem_append, mem_fields_references_iff hmembers, or_or_or_comm]

/-- **Bodies that can be added bring their references.** -/
theorem mem_references_plusAll_iff {bodies : List (String × Sdl.TypeBody)} (h : c.Mergeable owner bodies) :
    r ∈ (c.plusAll bodies).references ↔
      r ∈ c.references ∨ ∃ b ∈ bodies, r ∈ b.2.references Sdl.lastOfEachName := by
  induction bodies generalizing c with
  | nil => simp [plusAll]
  | cons b bodies ih =>
    obtain ⟨haccepts, hrest⟩ := h
    refine (ih hrest).trans ?_
    rw [mem_references_plus_iff haccepts, List.exists_mem_cons_iff, or_assoc]

end TypeContents

end QueryAid
