import QueryAid.Proofs.Schema.Members
import QueryAid.Schema.References
/-!
# References that lead somewhere

Every reference to a type is a name together with what is required of the type (`Requirement`). The check of all
references finds nothing exactly if each of them leads to a type of a kind that its requirement allows
(`checkReferences_eq_nil_iff`).
-/

namespace QueryAid

/-! ### Requirements -/

/-- **What the type must be that a reference leads to.** -/
inductive Requirement where
  | interface | object | output | input
  deriving DecidableEq, Repr

/-- The kinds of types that satisfy a requirement. -/
def Requirement.Allows : Requirement → TypeKind → Prop
  | interface, k => k = .interface
  | object, k => k = .object
  | output, k => k ≠ .inputObject
  | input, k => k ≠ .interface ∧ k ≠ .union ∧ k ≠ .object

instance (r : Requirement) (k : TypeKind) : Decidable (r.Allows k) := by
  cases r <;> unfold Requirement.Allows <;> infer_instance

/-- A name of a type, and what is required of the type. -/
abbrev Reference : Type := String × Requirement

/-- **A reference is in order** if there is a type of that name, and of a kind that is allowed. -/
def Reference.InOrder (types : Table TypeDef) (r : Reference) : Prop :=
  ∃ t, types.find? r.1 = some t ∧ r.2.Allows t.kind

namespace TypeDef

variable {t : TypeDef}

theorem isObject_iff : t.isObject = true ↔ t.kind = .object := beq_iff_eq

theorem isInterface_iff : t.isInterface = true ↔ t.kind = .interface := beq_iff_eq

theorem isInputObject_iff : t.isInputObject = true ↔ t.kind = .inputObject := beq_iff_eq

theorem isComposite_iff : t.isComposite = true ↔ t.kind = .interface ∨ t.kind = .union ∨ t.kind = .object := by
  simp only [isComposite, isAbstract, isObject, Bool.or_eq_true, beq_iff_eq, or_assoc]

theorem isInput_iff : t.isInput = true ↔ t.kind ≠ .interface ∧ t.kind ≠ .union ∧ t.kind ≠ .object := by
  rw [isInput, Bool.not_eq_true', ← Bool.not_eq_true, isComposite_iff, not_or, not_or]

end TypeDef

/-! ### What refers to types -/

/-- The reference of an argument or input field. -/
def InputValueDef.reference (v : InputValueDef) : Reference := (v.type.namedType, .input)

/-- The references of a field: that of its type, and those of its arguments. -/
def FieldDef.references (f : FieldDef) : List Reference :=
  (f.type.namedType, .output) :: f.arguments.entries.map InputValueDef.reference

/-- **The references of a type.** -/
def TypeContents.references : TypeContents → List Reference
  | object interfaces fields | interface interfaces fields =>
    interfaces.map (·, .interface) ++ fields.entries.flatMap FieldDef.references
  | inputObject fields => fields.entries.map InputValueDef.reference
  | union members => members.map (·, .object)
  | builtIn _ | enum _ | scalar => []

/-- The references of a directive. -/
def DirectiveDef.references (d : DirectiveDef) : List Reference :=
  d.arguments.entries.map InputValueDef.reference

/-! ### The checks -/

section Checks

variable {types : Table TypeDef} {owner name : String}

/-- A reference passes if it leads to a type that has nothing wrong with it. -/
theorem checkReference_eq_nil_iff {location : Location} {check : TypeDef → Option ReferenceError}
    {requirement : Requirement} (h : ∀ t, check t = none ↔ requirement.Allows t.kind) :
    checkReference types name location check = [] ↔ Reference.InOrder types (name, requirement) := by
  unfold checkReference Reference.InOrder
  cases hfind : types.find? name with
  | none => simp
  | some t => simp [← h t]

theorem checkParameter_eq_nil_iff {v : InputValueDef} :
    checkParameter types owner v = [] ↔ v.reference.InOrder types :=
  checkReference_eq_nil_iff fun t => by
    rw [Requirement.Allows, ← TypeDef.isInput_iff]
    cases t.isInput <;> simp

theorem checkInputField_eq_nil_iff {v : InputValueDef} :
    checkInputField types owner v = [] ↔ v.reference.InOrder types :=
  checkReference_eq_nil_iff fun t => by
    rw [Requirement.Allows, ← TypeDef.isInput_iff]
    cases t.isInput <;> simp

theorem checkInterface_eq_nil_iff {t : TypeDef} :
    checkInterface types t name = [] ↔ Reference.InOrder types (name, .interface) :=
  checkReference_eq_nil_iff fun t => by
    rw [Requirement.Allows, ← TypeDef.isInterface_iff]
    cases t.isInterface <;> simp

theorem checkMember_eq_nil_iff {t : TypeDef} :
    checkMember types t name = [] ↔ Reference.InOrder types (name, .object) :=
  checkReference_eq_nil_iff fun t => by
    rw [Requirement.Allows, ← TypeDef.isObject_iff]
    cases t.isObject <;> simp

theorem checkField_eq_nil_iff {f : FieldDef} :
    checkField types owner f = [] ↔ ∀ r ∈ f.references, r.InOrder types := by
  rw [checkField, List.append_eq_nil_iff, FieldDef.references, List.forall_mem_cons, List.forall_mem_map,
    List.flatMap_eq_nil_iff]
  refine and_congr ?_ (forall₂_congr fun a _ => checkParameter_eq_nil_iff)
  refine checkReference_eq_nil_iff fun t => ?_
  rw [Requirement.Allows, ne_eq, ← TypeDef.isInputObject_iff]
  cases t.isInputObject <;> simp

theorem checkType_eq_nil_iff {t : TypeDef} :
    checkType types t = [] ↔ ∀ r ∈ t.contents.references, r.InOrder types := by
  unfold checkType
  cases t.contents with
  | builtIn | enum | scalar => simp [TypeContents.references]
  | inputObject fields =>
    simp only [TypeContents.references, List.flatMap_eq_nil_iff, checkInputField_eq_nil_iff, List.forall_mem_map]
  | union members =>
    simp only [TypeContents.references, List.flatMap_eq_nil_iff, checkMember_eq_nil_iff, List.forall_mem_map]
  | interface interfaces fields | object interfaces fields =>
    simp only [TypeContents.references, List.append_eq_nil_iff, List.flatMap_eq_nil_iff,
      checkInterface_eq_nil_iff, checkField_eq_nil_iff, List.forall_mem_append, List.forall_mem_map,
      List.forall_mem_flatMap]

theorem checkDirective_eq_nil_iff {d : DirectiveDef} :
    checkDirective types d = [] ↔ ∀ r ∈ d.references, r.InOrder types := by
  simp only [checkDirective, DirectiveDef.references, List.flatMap_eq_nil_iff, checkParameter_eq_nil_iff,
    List.forall_mem_map]

/-- **Nothing is found exactly if all references of types and directives are in order.** -/
theorem checkReferences_eq_nil_iff {directives : Table DirectiveDef} :
    checkReferences types directives = [] ↔
      (∀ t ∈ types.entries, ∀ r ∈ t.contents.references, r.InOrder types) ∧
      ∀ d ∈ directives.entries, ∀ r ∈ d.references, r.InOrder types := by
  simp only [checkReferences, List.append_eq_nil_iff, List.flatMap_eq_nil_iff, checkType_eq_nil_iff,
    checkDirective_eq_nil_iff]

end Checks

end QueryAid
