import QueryAid.Proofs.Schema.Building
/-!
# The references that are reported

A type is referred to from an `implements` list, a union, a field, an argument or an input field (`ReferenceSite`).
`referenceSites` lists all of these places as a reader of the schema meets them: type by type, interfaces before
fields, each field before its arguments, and the directives last.

An error describes a place (`Describes`) if it says what is wrong there, and where that is written. Checking finds one
such error for each place whose reference is not in order, in the order of the places, and nothing else
(`checkReferences_reports`). So building does not stop at the first of them (`build_of_reaches`).
-/

namespace QueryAid

/-! ### Places that refer -/

/-- **A place at which a type is referred to,** with the definitions it lies in. -/
inductive ReferenceSite where
  | interface (owner : TypeDef) (name : String)
  | member (owner : TypeDef) (name : String)
  | field (owner : TypeDef) (field : FieldDef)
  | argument (owner : TypeDef) (field : FieldDef) (argument : InputValueDef)
  | inputField (owner : TypeDef) (field : InputValueDef)
  | directiveArgument (owner : DirectiveDef) (argument : InputValueDef)

namespace ReferenceSite

/-- The reference that stands at a place: the name under all layers of an annotation, and what must be there. -/
def reference : ReferenceSite → Reference
  | interface _ name => (name, .interface)
  | member _ name => (name, .object)
  | field _ f => (f.type.namedType, .output)
  | argument _ _ v | inputField _ v | directiveArgument _ v => v.reference

/-- Where the definition or member that refers is written. Interfaces and members of a union have no place of their
own, so theirs is that of the type. -/
def location : ReferenceSite → Location
  | interface t _ | member t _ => t.location
  | field _ f => f.location
  | argument _ _ v | inputField _ v | directiveArgument _ v => v.location

/-- The error that tells of a type of a kind that is not allowed at a place. -/
def kindError (kind : TypeKind) : ReferenceSite → ReferenceError
  | interface t name => .implementsNonInterface t.name name t.location
  | member t name => .nonObjectMember t.name name kind t.location
  | field t f => .outputFieldOfInputType t.name f.name f.type.namedType f.location
  | argument t f v => .parameterOfOutputType (t.name ++ "." ++ f.name) v.name v.type.namedType v.location
  | inputField t v => .inputFieldOfOutputType t.name v.name v.type.namedType v.location
  | directiveArgument d v => .parameterOfOutputType ("@" ++ d.name) v.name v.type.namedType v.location

end ReferenceSite

/-- The places in a field: its own type, and then its arguments. -/
def FieldDef.sites (owner : TypeDef) (f : FieldDef) : List ReferenceSite :=
  .field owner f :: f.arguments.entries.map (.argument owner f)

/-- The places in a type: its interfaces, and then its fields. -/
def TypeDef.sites (t : TypeDef) : List ReferenceSite :=
  match t.contents with
  | .object interfaces fields | .interface interfaces fields =>
    interfaces.map (.interface t) ++ fields.entries.flatMap (FieldDef.sites t)
  | .inputObject fields => fields.entries.map (.inputField t)
  | .union members => members.map (.member t)
  | .builtIn _ | .enum _ | .scalar => []

/-- The places in a directive. -/
def DirectiveDef.sites (d : DirectiveDef) : List ReferenceSite := d.arguments.entries.map (.directiveArgument d)

/-- **All places at which types are referred to,** those in types before those in directives. -/
def referenceSites (types : Table TypeDef) (directives : Table DirectiveDef) : List ReferenceSite :=
  types.entries.flatMap TypeDef.sites ++ directives.entries.flatMap DirectiveDef.sites

/-! ### Errors -/

instance (types : Table TypeDef) (r : Reference) : Decidable (r.InOrder types) :=
  decidable_of_iff ((types.find? r.1).any fun t => r.2.Allows t.kind) (by
    simp only [Option.any_eq_true, decide_eq_true_eq, Reference.InOrder])

/-- **An error describes a place:** no type has the name that stands there, or one that has it is of a kind that is
not allowed there. -/
inductive Describes (types : Table TypeDef) (site : ReferenceSite) : ReferenceError → Prop where
  | undefined (h : site.reference.1 ∉ types.names) : Describes types site (.undefined site.reference.1 site.location)
  | kind {t : TypeDef} (h : types.find? site.reference.1 = some t) (hkind : ¬ site.reference.2.Allows t.kind) :
    Describes types site (site.kindError t.kind)

/-- Two errors that describe one place are the same. -/
theorem describes_unique {types : Table TypeDef} {site : ReferenceSite} {e e' : ReferenceError}
    (h : Describes types site e) (h' : Describes types site e') : e = e' := by
  have hdefined {t : TypeDef} (hfind : types.find? site.reference.1 = some t) : site.reference.1 ∈ types.names :=
    Table.mem_names.2 ⟨t, Table.find?_eq_some_iff.1 hfind⟩
  cases h with
  | undefined hnone =>
    cases h' with
    | undefined => rfl
    | kind hfind => exact absurd (hdefined hfind) hnone
  | kind hfind =>
    cases h' with
    | undefined hnone => exact absurd (hdefined hfind) hnone
    | kind hfind' => rw [Option.some.inj (hfind.symm.trans hfind')]

/-- **Errors report places:** there is one for each of those whose reference is not in order, and it describes that
place. Errors and places are in the same order. -/
def Reports (types : Table TypeDef) (sites : List ReferenceSite) (errors : List ReferenceError) : Prop :=
  List.Forall₂ (Describes types) (sites.filter fun site => ¬ site.reference.InOrder types) errors

variable {types : Table TypeDef}

namespace Reports

theorem append {sites sites' : List ReferenceSite} {errors errors' : List ReferenceError}
    (h : Reports types sites errors) (h' : Reports types sites' errors') :
    Reports types (sites ++ sites') (errors ++ errors') := by
  unfold Reports
  rw [List.filter_append]
  exact List.rel_append h h'

/-- Things that are reported one by one are reported together. -/
theorem flatMap {α : Type} {sites : α → List ReferenceSite} {errors : α → List ReferenceError}
    (h : ∀ a, Reports types (sites a) (errors a)) (l : List α) :
    Reports types (l.flatMap sites) (l.flatMap errors) := by
  induction l with
  | nil => exact .nil
  | cons a l ih => exact (h a).append ih

/-- Places that are reported one by one are reported together. -/
theorem map {α : Type} {site : α → ReferenceSite} {errors : α → List ReferenceError}
    (h : ∀ a, Reports types [site a] (errors a)) (l : List α) :
    Reports types (l.map site) (l.flatMap errors) := by
  rw [List.map_eq_flatMap]
  exact flatMap h l

/-- **There is one way to report places.** -/
theorem unique {sites : List ReferenceSite} {errors errors' : List ReferenceError} (h : Reports types sites errors)
    (h' : Reports types sites errors') : errors = errors' := by
  have hunique : Relator.RightUnique (Describes types) := fun _ _ _ => describes_unique
  exact List.right_unique_forall₂' hunique h h'

end Reports

/-! ### The checks -/

/-- **A reference is reported** if types of the name that stands there pass exactly when their kind is allowed. -/
theorem checkReference_reports (site : ReferenceSite) {check : TypeDef → Option ReferenceError}
    (h : ∀ t, t.name = site.reference.1 →
      check t = if site.reference.2.Allows t.kind then none else some (site.kindError t.kind)) :
    Reports types [site] (checkReference types site.reference.1 site.location check) := by
  have hreports : ¬ site.reference.InOrder types → ∀ e, Describes types site e → Reports types [site] [e] := by
    intro hnot e he
    rw [Reports, List.filter_cons_of_pos (by simpa using hnot)]
    exact .cons he .nil
  unfold checkReference
  cases hfind : types.find? site.reference.1 with
  | none =>
    have hnot : ¬ site.reference.InOrder types := fun ⟨t, ht, _⟩ => nomatch hfind.symm.trans ht
    exact hreports hnot _ (.undefined (Table.find?_eq_none_iff.1 hfind))
  | some t =>
    have hinOrder : site.reference.InOrder types ↔ site.reference.2.Allows t.kind := by
      simp only [Reference.InOrder, hfind, Option.some.injEq, exists_eq_left']
    dsimp only
    rw [h t (Table.find?_eq_some_iff.1 hfind).2]
    by_cases hallows : site.reference.2.Allows t.kind
    · rw [if_pos hallows, Reports, List.filter_cons_of_neg (by simpa [hinOrder] using hallows)]
      exact .nil
    · rw [if_neg hallows]
      exact hreports (mt hinOrder.1 hallows) _ (.kind hfind hallows)

/-- What `isInput` tells of a type is whether it is allowed where values are given. -/
theorem allows_input_iff {t : TypeDef} : Requirement.input.Allows t.kind ↔ t.isInput = true :=
  TypeDef.isInput_iff.symm

section Checks

variable {owner : TypeDef}

theorem checkInterface_reports (name : String) :
    Reports types [.interface owner name] (checkInterface types owner name) :=
  checkReference_reports (.interface owner name) fun t _ => by
    simp only [ReferenceSite.reference, Requirement.Allows, ← TypeDef.isInterface_iff]
    rfl

theorem checkMember_reports (name : String) : Reports types [.member owner name] (checkMember types owner name) :=
  checkReference_reports (.member owner name) fun t _ => by
    simp only [ReferenceSite.reference, Requirement.Allows, ← TypeDef.isObject_iff]
    rfl

theorem checkInputField_reports (v : InputValueDef) :
    Reports types [.inputField owner v] (checkInputField types owner.name v) :=
  checkReference_reports (.inputField owner v) fun t hname => by
    simp only [ReferenceSite.reference, InputValueDef.reference, allows_input_iff, hname]
    rfl

/-- An argument is reported wherever it stands, with the text that names its owner. -/
theorem checkParameter_reports {site : ReferenceSite} {text : String} {v : InputValueDef}
    (hreference : site.reference = v.reference)
    (herror : ∀ k, site.kindError k = .parameterOfOutputType text v.name v.type.namedType v.location)
    (hlocation : site.location = v.location) : Reports types [site] (checkParameter types text v) := by
  have hcheck := @checkReference_reports types site fun t =>
    if t.isInput then none else some (.parameterOfOutputType text v.name t.name v.location)
  rw [hreference, hlocation] at hcheck
  refine hcheck fun t hname => ?_
  simp only [InputValueDef.reference, allows_input_iff, herror] at hname ⊢
  rw [hname]

theorem checkField_reports (f : FieldDef) : Reports types (f.sites owner) (checkField types owner.name f) := by
  refine .append (checkReference_reports (.field owner f) fun t hname => ?_)
    (.map (fun _ => checkParameter_reports rfl (fun _ => rfl) rfl) _)
  simp only [ReferenceSite.reference, Requirement.Allows, ne_eq, ← TypeDef.isInputObject_iff] at hname ⊢
  rw [hname]
  cases t.isInputObject <;> rfl

theorem checkType_reports (t : TypeDef) : Reports types t.sites (checkType types t) := by
  unfold TypeDef.sites checkType
  cases t.contents with
  | builtIn | enum | scalar => exact .nil
  | inputObject fields => exact .map checkInputField_reports _
  | union members => exact .map checkMember_reports _
  | interface interfaces fields | object interfaces fields =>
    exact .append (.map checkInterface_reports _) (.flatMap checkField_reports _)

theorem checkDirective_reports (d : DirectiveDef) : Reports types d.sites (checkDirective types d) :=
  .map (fun _ => checkParameter_reports rfl (fun _ => rfl) rfl) _

/-- **The check of all references reports all places at which types are referred to.** -/
theorem checkReferences_reports (directives : Table DirectiveDef) :
    Reports types (referenceSites types directives) (checkReferences types directives) :=
  .append (.flatMap checkType_reports _) (.flatMap checkDirective_reports _)

end Checks

/-! ### Building -/

namespace SchemaBuilder

variable {b : SchemaBuilder} {directives : Table DirectiveDef}

/-- **Building gets to the references** of some types and directives: the extensions can be applied, roots that are
declared are objects, and there is a root for queries. -/
structure Reaches (b : SchemaBuilder) (types : Table TypeDef) (directives : Table DirectiveDef) : Prop where
  builtIn : directives = b.directives.insertAll builtInDirectives
  extended : b.extensions.foldlM applyExtension b.unextended = .ok types
  roots : ∀ k r, b.roots.get k = some r → Reference.InOrder types (r.typeName, .object)
  query : Reference.InOrder types (b.meantRoot .query, .object)

/-- What building comes to once it gets to the references. -/
theorem Reaches.build_eq (h : b.Reaches types directives) :
    (checkReferences types directives = [] ∧ ∃ s, b.build = .ok s) ∨
      checkReferences types directives ≠ [] ∧ b.build = .error (.references (checkReferences types directives)) := by
  obtain ⟨hdirectives, htypes, hroots, hquery⟩ := h
  obtain ⟨query, hqueryRoot⟩ := exists_resolveRoot_iff.2 (hroots .query)
  obtain ⟨mutation, hmutation⟩ := exists_resolveRoot_iff.2 (hroots .mutation)
  obtain ⟨subscription, hsubscription⟩ := exists_resolveRoot_iff.2 (hroots .subscription)
  obtain rfl : query = some (b.meantRoot .query) := ((resolveRoot_eq_ok_iff.1 hqueryRoot).2 _).2 ⟨rfl, hquery⟩
  have hunextended : b.types.insertAll introspectionTypes = b.unextended := rfl
  unfold build
  rw [← hdirectives, hunextended, htypes]
  simp only [bind, Except.bind, hqueryRoot, hmutation, hsubscription]
  split
  · next hnil => exact .inl ⟨hnil, _, rfl⟩
  · next errors hne => exact .inr ⟨hne, rfl⟩

/-- **Building reports all references that are not in order at once.** Once it gets to the references, there is one list
of errors that reports them. If the list is empty, there is a schema; otherwise building fails with the whole list. -/
theorem build_of_reaches (h : b.Reaches types directives) :
    ∃ errors, (∀ es, Reports types (referenceSites types directives) es ↔ es = errors) ∧
      (errors = [] → ∃ s, b.build = .ok s) ∧ (errors ≠ [] → b.build = .error (.references errors)) := by
  have hreports := @checkReferences_reports types directives
  refine ⟨checkReferences types directives, fun es => ⟨fun hes => hes.unique hreports, fun hes => hes ▸ hreports⟩, ?_⟩
  rcases h.build_eq with ⟨hnil, hok⟩ | ⟨hne, herror⟩
  · exact ⟨fun _ => hok, fun hne => absurd hnil hne⟩
  · exact ⟨fun hnil => absurd hnil hne, fun _ => herror⟩

/-- Two sources in which places of each sort refer to types that nobody defines, and to types of a kind that is not
allowed there. What an extension adds to a union is reported where the union is. -/
theorem build_of_reaches_scattered_errors : ∃ b,
    [(some "a.graphql", "interface Node { id: ID } type Query implements Node & In & Gone " ++
        "{ id: ID a(x: [Query!], y: Lost): [In!] b: Missing }"),
      (some "b.graphql", "extend union U = Node input In { q: Query m: [Absent] } union U = Query | In | Nowhere " ++
        "directive @d(n: [Node]!, o: Nil) on FIELD")].foldlM (fun b s => b.load s.1 s.2) new = .ok b ∧
    ∃ types directives errors, b.Reaches types directives ∧
      Reports types (referenceSites types directives) errors ∧ b.build = .error (.references errors) ∧
      errors = [.implementsNonInterface "Query" "In" (.file "a.graphql" ⟨1, 27⟩),
        .undefined "Gone" (.file "a.graphql" ⟨1, 27⟩),
        .outputFieldOfInputType "Query" "a" "In" (.file "a.graphql" ⟨1, 75⟩),
        .parameterOfOutputType "Query.a" "x" "Query" (.file "a.graphql" ⟨1, 77⟩),
        .undefined "Lost" (.file "a.graphql" ⟨1, 90⟩),
        .undefined "Missing" (.file "a.graphql" ⟨1, 106⟩),
        .inputFieldOfOutputType "In" "q" "Query" (.file "b.graphql" ⟨1, 34⟩),
        .undefined "Absent" (.file "b.graphql" ⟨1, 43⟩),
        .nonObjectMember "U" "In" .inputObject (.file "b.graphql" ⟨1, 57⟩),
        .undefined "Nowhere" (.file "b.graphql" ⟨1, 57⟩),
        .nonObjectMember "U" "Node" .interface (.file "b.graphql" ⟨1, 57⟩),
        .parameterOfOutputType "@d" "n" "Node" (.file "b.graphql" ⟨1, 101⟩),
        .undefined "Nil" (.file "b.graphql" ⟨1, 113⟩)] := by
  -- The sources declare no roots, so that the query root is the type `Query`.
  refine (exists_eq_ok_of_any (p := fun b : SchemaBuilder => b.roots == .none && !b.build.isOk &&
    (b.extensions.foldlM applyExtension b.unextended).toOption.any fun types =>
      Reference.InOrder types (b.meantRoot .query, .object)) ?_).imp fun b ⟨hload, hb⟩ => ⟨hload, ?_⟩
  · decide +kernel
  rw [Bool.and_eq_true, Bool.and_eq_true, beq_iff_eq, Bool.not_eq_true'] at hb
  obtain ⟨types, htypes, hquery⟩ := exists_eq_ok_of_any hb.2
  have hroots : ∀ k r, b.roots.get k = some r → Reference.InOrder types (r.typeName, .object) := by
    rw [hb.1.1]
    intro k r hr
    cases k <;> cases hr
  have hreaches : b.Reaches types _ := ⟨rfl, htypes, hroots, of_decide_eq_true hquery⟩
  obtain ⟨errors, hreports, hok, herror⟩ := build_of_reaches hreaches
  have hne : errors ≠ [] := by
    intro hnil
    obtain ⟨s, hs⟩ := hok hnil
    rw [hs] at hb
    exact Bool.false_ne_true hb.1.2.symm
  have hbuild := congrArg (· >>= build) hload
  refine ⟨types, _, errors, hreaches, (hreports errors).2 rfl, herror hne, ?_⟩
  refine BuildError.references.inj (Except.error.inj ((herror hne).symm.trans (hbuild.symm.trans ?_)))
  decide +kernel

end SchemaBuilder

end QueryAid
