import QueryAid.Proofs.Schema.Members
/-!
# What types consist of

The members of a type are fields, input fields, enum values or the names of union members. `TypeContents.members` is
one list for all kinds of types, and `Sdl.TypeBody.members` is its counterpart in a source. A body that is accepted
puts its members behind those that are there (`members_plusAll`).

A member is made from the one in the source, and says what that one says (`Member.declares_ofSource`). Arguments are
made from several in the source at once: of those of one name the last one counts, but it stands where the first one
does (`DeclaresArguments`).
-/

namespace QueryAid

/-! ### Members -/

/-- **A member of a type in a source.** -/
inductive Sdl.Member where
  | field (f : Field)
  | inputField (f : InputValue)
  | enumValue (v : EnumValue)
  | unionMember (name : String)

/-- **A member of a type.** -/
inductive Member where
  | field (f : FieldDef)
  | inputField (f : InputValueDef)
  | enumValue (v : EnumValueDef)
  | unionMember (name : String)
  deriving DecidableEq

/-- The members that a body brings, in order. -/
def Sdl.TypeBody.members : TypeBody → List Member
  | object _ fields | interface _ fields => fields.map .field
  | inputObject fields => fields.map .inputField
  | enum values => values.map .enumValue
  | union members => members.map .unionMember
  | scalar => []

/-- A member of a file. -/
def Member.ofSource (file : String) : Sdl.Member → Member
  | .field f => field (.ofSource file f)
  | .inputField f => inputField (.ofSource file f)
  | .enumValue v => enumValue (.ofSource file v)
  | .unionMember name => unionMember name

/-- **The members of a type,** in order. -/
def TypeContents.members : TypeContents → List Member
  | object _ fields | interface _ fields => fields.entries.map .field
  | inputObject fields => fields.entries.map .inputField
  | enum values => values.entries.map .enumValue
  | union members => members.map .unionMember
  | builtIn _ | scalar => []

namespace TypeDef

variable {t : TypeDef} {f : FieldDef} {name : String}

/-- The fields of an object or interface. -/
def ownFields (t : TypeDef) : List FieldDef := (t.fields?.map Table.entries).getD []

theorem ownField_eq_some_iff :
    (t.fields?.bind fun fields => fields.find? name) = some f ↔ f ∈ t.ownFields ∧ f.name = name := by
  unfold ownFields
  cases t.fields? with
  | none => simp
  | some fields => exact Table.find?_eq_some_iff

theorem nodup_ownFields : (t.ownFields.map FieldDef.name).Nodup := by
  unfold ownFields
  cases t.fields? with
  | none => exact List.nodup_nil
  | some fields => exact fields.nodup

theorem mem_ownFields_iff : f ∈ t.ownFields ↔ .field f ∈ t.contents.members := by
  unfold ownFields fields? TypeContents.members
  cases t.contents <;> simp

end TypeDef

/-! ### What bodies bring -/

namespace TypeContents

variable {file owner : String} {c : TypeContents} {body : Sdl.TypeBody}

/-- Entries of new names become the members that they are in the source. -/
private theorem members_insertAll {α β : Type} [Named α] {t : Table α} {more : List β} {conv : β → α}
    {key : β → String} {mk : α → Member} {mkSource : β → Sdl.Member} (hname : ∀ x, Named.name (conv x) = key x)
    (hmk : ∀ x, mk (conv x) = .ofSource file (mkSource x)) (hnew : Fresh (· ∈ t.names) (more.map key)) :
    (t.insertAll (more.map conv)).entries.map mk =
      t.entries.map mk ++ (more.map mkSource).map (Member.ofSource file) := by
  rw [Table.entries_insertAll_map_of_fresh hname hnew, List.map_append, List.map_map, List.map_map]
  exact congrArg _ (List.map_congr_left fun x _ => hmk x)

/-- A type has no members before its body is read. -/
theorem members_emptyFor (body : Sdl.TypeBody) : (emptyFor body).members = [] := by cases body <;> rfl

/-- **A body that is accepted puts its members behind those that are there.** -/
theorem members_plus (h : c.Accepts owner body) :
    (c.plus file body).members = c.members ++ body.members.map (Member.ofSource file) := by
  have hkind := h.kind
  have hnew := h.members
  cases c with
  | builtIn => cases body <;> cases hkind
  | scalar => cases body <;> cases hkind; rfl
  | enum | inputObject | interface | object =>
    cases body <;> cases hkind
    exact members_insertAll (fun _ => rfl) (fun _ => rfl) hnew
  | union names =>
    cases body <;> cases hkind
    next more =>
    rw [plus, members, List.map_append, members, Sdl.TypeBody.members, List.map_map]
    rfl

/-- **Bodies that can be added put their members behind each other.** -/
theorem members_plusAll {bodies : List (String × Sdl.TypeBody)} (h : c.Mergeable owner bodies) :
    (c.plusAll bodies).members =
      c.members ++ bodies.flatMap fun b => b.2.members.map (Member.ofSource b.1) := by
  induction bodies generalizing c with
  | nil => exact (List.append_nil _).symm
  | cons b bodies ih =>
    obtain ⟨haccepts, hrest⟩ := h
    rw [List.flatMap_cons, ← List.append_assoc, ← members_plus haccepts]
    exact ih hrest

end TypeContents

/-! ### What members say -/

/-- **An argument or input field says what is declared.** -/
structure InputValueDef.Declares (d : InputValueDef) (file : String) (v : Sdl.InputValue) : Prop where
  name : d.name = v.name
  description : d.description = v.description
  type : d.type = .ofExpression v.type
  default : d.default = v.default.map Sdl.Value.text
  deprecated : d.deprecated = deprecationReason? v.directives
  location : d.location = .file file v.place

/-- **Arguments are those that are declared,** in order. A repeated name keeps the place of the first argument that
bears it, and the definition of the last one. -/
structure DeclaresArguments (arguments : Table InputValueDef) (file : String) (declared : List Sdl.InputValue) :
    Prop where
  places : arguments.names = (declared.map Sdl.InputValue.name).eraseDups
  definitions : ∀ a ∈ arguments.entries, ∃ before v after, declared = before ++ v :: after ∧
    (∀ w ∈ after, w.name ≠ v.name) ∧ a.Declares file v

/-- **A field says what is declared.** -/
structure FieldDef.Declares (d : FieldDef) (file : String) (f : Sdl.Field) : Prop where
  name : d.name = f.name
  description : d.description = f.description
  type : d.type = .ofExpression f.type
  arguments : DeclaresArguments d.arguments file f.arguments
  deprecated : d.deprecated = deprecationReason? f.directives
  location : d.location = .file file f.place

/-- **An enum value says what is declared.** -/
structure EnumValueDef.Declares (d : EnumValueDef) (file : String) (v : Sdl.EnumValue) : Prop where
  name : d.name = v.name
  description : d.description = v.description
  deprecated : d.deprecated = deprecationReason? v.directives
  location : d.location = .file file v.place

/-- **A directive says what is declared.** -/
structure DirectiveDef.Declares (d : DirectiveDef) (file : String) (v : Sdl.DirectiveDefinition) : Prop where
  name : d.name = v.name
  description : d.description = v.description
  arguments : DeclaresArguments d.arguments file v.arguments
  repeatable : d.repeatable = v.repeatable
  locations : d.locations = v.locations
  location : d.location = .file file v.place

/-- **A member says what is declared,** and is of the same sort. -/
inductive Member.Declares (file : String) : Member → Sdl.Member → Prop where
  | field {d : FieldDef} {f : Sdl.Field} (h : d.Declares file f) : Declares file (.field d) (.field f)
  | inputField {d : InputValueDef} {f : Sdl.InputValue} (h : d.Declares file f) :
    Declares file (.inputField d) (.inputField f)
  | enumValue {d : EnumValueDef} {v : Sdl.EnumValue} (h : d.Declares file v) :
    Declares file (.enumValue d) (.enumValue v)
  | unionMember (name : String) : Declares file (.unionMember name) (.unionMember name)

section Declares

variable (file : String)

theorem InputValueDef.declares_ofSource (v : Sdl.InputValue) : (ofSource file v).Declares file v :=
  ⟨rfl, rfl, rfl, rfl, rfl, rfl⟩

/-- The table of arguments has the declared names where they come first, and under each of them what comes last. -/
theorem declaresArguments_ofList (declared : List Sdl.InputValue) :
    DeclaresArguments (.ofList (declared.map (InputValueDef.ofSource file))) file declared where
  places := by
    have hnames : (declared.map (InputValueDef.ofSource file)).map Named.name = declared.map Sdl.InputValue.name :=
      Table.map_name_map fun _ => rfl
    rw [Table.names_ofList, hnames]
  definitions a ha := by
    obtain ⟨p, q, hsplit, hlast⟩ := Table.mem_entries_ofList_iff.1 ha
    obtain ⟨before, rest, rfl, rfl, hrest⟩ := List.map_eq_append_iff.1 hsplit
    obtain ⟨v, after, rfl, rfl, rfl⟩ := List.map_eq_cons_iff.1 hrest
    rw [List.forall_mem_map] at hlast
    exact ⟨before, v, after, rfl, hlast, InputValueDef.declares_ofSource file v⟩

theorem FieldDef.declares_ofSource (f : Sdl.Field) : (ofSource file f).Declares file f :=
  ⟨rfl, rfl, rfl, declaresArguments_ofList file f.arguments, rfl, rfl⟩

theorem DirectiveDef.declares_ofSource (d : Sdl.DirectiveDefinition) : (ofSource file d).Declares file d :=
  ⟨rfl, rfl, declaresArguments_ofList file d.arguments, rfl, rfl, rfl⟩

/-- **A member that is made from one in a source says what that one says.** -/
theorem Member.declares_ofSource (m : Sdl.Member) : Declares file (ofSource file m) m := by
  cases m with
  | field f => exact .field (FieldDef.declares_ofSource file f)
  | inputField f => exact .inputField (InputValueDef.declares_ofSource file f)
  | enumValue v => exact .enumValue ⟨rfl, rfl, rfl, rfl⟩
  | unionMember name => exact .unionMember name

end Declares

end QueryAid
