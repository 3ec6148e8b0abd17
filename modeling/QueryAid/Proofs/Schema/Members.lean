import QueryAid.Proofs.Insertion
import QueryAid.Schema.Merge
/-!
# When members can be added to a type

A definition or extension brings interfaces and members to a type. `TypeContents.add_eq_ok_iff` says exactly
when they are taken in (`TypeContents.Accepts`), for every kind of type at once, and what the type consists of
afterwards (`TypeContents.plus`). Several bodies one after the other are taken in exactly if each is of the
type's kind and the names are distinct when all of them are put together (`mergeable_iff`).
-/

namespace QueryAid

/-! ### What a body brings -/

namespace Sdl.TypeBody

/-- The kind of type that a body belongs to. -/
def kind : TypeBody → TypeKind
  | scalar => .scalar
  | object .. => .object
  | interface .. => .interface
  | union _ => .union
  | enum _ => .enum
  | inputObject _ => .inputObject

/-- The interfaces that a body implements. -/
def interfaceNames : TypeBody → List String
  | object interfaces _ | interface interfaces _ => interfaces
  | scalar | union _ | enum _ | inputObject _ => []

/-- The fields that a body brings to an object or interface. -/
def fields : TypeBody → List Field
  | object _ fields | interface _ fields => fields
  | scalar | union _ | enum _ | inputObject _ => []

/-- The fields that a body brings to an input object. -/
def inputFields : TypeBody → List InputValue
  | inputObject fields => fields
  | scalar | object .. | interface .. | union _ | enum _ => []

/-- The members that a body brings to a union. -/
def unionMembers : TypeBody → List String
  | union members => members
  | scalar | object .. | interface .. | enum _ | inputObject _ => []

/-- The names of the fields, input fields, enum values or union members of a body: a body has one of these. -/
def memberNames : TypeBody → List String
  | object _ fields | interface _ fields => fields.map Field.name
  | inputObject fields => fields.map InputValue.name
  | enum values => values.map EnumValue.name
  | union members => members
  | scalar => []

/-- No field, input field or argument of a body has a name that is reserved. -/
structure NamesAllowed (body : TypeBody) : Prop where
  fields : ∀ f ∈ body.fields, isReserved f.name = false
  arguments : ∀ f ∈ body.fields, ∀ a ∈ f.arguments, isReserved a.name = false
  inputFields : ∀ f ∈ body.inputFields, isReserved f.name = false

end Sdl.TypeBody

namespace TypeContents

/-- The interfaces of a type. -/
def interfaceNames : TypeContents → List String
  | object interfaces _ | interface interfaces _ => interfaces
  | builtIn _ | enum _ | inputObject _ | scalar | union _ => []

/-- The members of a union. -/
def unionMembers : TypeContents → List String
  | union members => members
  | builtIn _ | enum _ | inputObject _ | interface .. | object .. | scalar => []

/-- The names of the fields, input fields, enum values or union members of a type. -/
def memberNames : TypeContents → List String
  | object _ fields | interface _ fields => fields.names
  | inputObject fields => fields.names
  | enum values => values.names
  | union members => members
  | builtIn _ | scalar => []

/-- **A type's contents with what a body in a file brings,** put behind what is there. -/
def plus (file : String) : TypeContents → Sdl.TypeBody → TypeContents
  | .enum values, .enum more => .enum (values.insertAll (more.map (EnumValueDef.ofSource file)))
  | .inputObject fields, .inputObject more =>
    .inputObject (fields.insertAll (more.map (InputValueDef.ofSource file)))
  | .interface interfaces fields, .interface moreInterfaces more =>
    .interface (interfaces ++ moreInterfaces) (fields.insertAll (more.map (FieldDef.ofSource file)))
  | .object interfaces fields, .object moreInterfaces more =>
    .object (interfaces ++ moreInterfaces) (fields.insertAll (more.map (FieldDef.ofSource file)))
  | .union members, .union more => .union (members ++ more)
  | contents, _ => contents

/-- **What a body must satisfy to be added to the contents of the type `owner`.** -/
structure Accepts (owner : String) (contents : TypeContents) (body : Sdl.TypeBody) : Prop where
  kind : contents.kind = body.kind
  interfaces : Fresh (· ∈ contents.interfaceNames) body.interfaceNames
  notItself : owner ∉ body.interfaceNames
  members : Fresh (· ∈ contents.memberNames) body.memberNames
  names : body.NamesAllowed

end TypeContents

/-! ### One member more -/

section Step

variable {file : String} {owner : Owner}

/-- Arguments that are read off a source have no reserved names exactly if those in the source have none. -/
theorem not_isReserved_arguments_iff {args : List Sdl.InputValue} :
    (∀ p ∈ (Table.ofList (args.map (InputValueDef.ofSource file))).entries, isReserved p.name = false) ↔
      ∀ a ∈ args, isReserved a.name = false := by
  have h : ∀ n, n ∈ (Table.ofList (args.map (InputValueDef.ofSource file))).names ↔
      n ∈ args.map Sdl.InputValue.name :=
    fun n => Table.mem_names_ofList_map_iff fun _ => rfl
  constructor
  · intro hp a ha
    obtain ⟨p, hmem, hname⟩ := Table.mem_names.1 ((h a.name).2 (List.mem_map_of_mem ha))
    exact hname ▸ hp p hmem
  · intro ha p hp
    obtain ⟨a, hmem, hname⟩ := List.mem_map.1 ((h p.name).1 (Table.mem_names.2 ⟨p, hp, rfl⟩))
    exact hname ▸ ha a hmem

/-- Arguments pass exactly if none of them has a reserved name. -/
theorem refuseReservedParameters_eq_ok_iff {name : String} {args : List Sdl.InputValue} :
    refuseReservedParameters name (.ofList (args.map (InputValueDef.ofSource file))) = .ok () ↔
      ∀ a ∈ args, isReserved a.name = false := by
  rw [← not_isReserved_arguments_iff]
  unfold refuseReservedParameters
  cases h : (Table.ofList (args.map (InputValueDef.ofSource file))).entries.find?
      fun p => isReserved p.name with
  | none => simpa using h
  | some p =>
    have hp := List.find?_some h
    have hmem := List.mem_of_find?_eq_some h
    simp only [reduceCtorEq, false_iff, not_forall]
    exact ⟨p, hmem, by simpa using hp⟩

theorem addEnumValue_takesNew :
    TakesNew (addEnumValue file owner) (fun t v => t.insert (EnumValueDef.ofSource file v)) (fun _ => True)
      Sdl.EnumValue.name fun t n => n ∈ t.names where
  ok_iff t v t' := by
    unfold addEnumValue
    dsimp only
    split
    · next first h =>
      have hmem : v.name ∈ t.names := Table.exists_find?_iff.1 ⟨first, h⟩
      simp [hmem]
    · next h =>
      have hnew : v.name ∉ t.names := Table.find?_eq_none_iff.1 h
      simp [hnew, eq_comm]
  used_next _ _ _ _ := Table.mem_names_insert_iff

theorem addField_takesNew :
    TakesNew (addField file owner) (fun t f => t.insert (FieldDef.ofSource file f))
      (fun f => isReserved f.name = false ∧ ∀ a ∈ f.arguments, isReserved a.name = false)
      Sdl.Field.name fun t n => n ∈ t.names where
  ok_iff t f t' := by
    unfold addField
    simp only [ite_throw_eq_ok_iff, check_bind_eq_ok_iff, Bool.not_eq_true]
    rw [and_assoc, and_assoc]
    refine and_congr Iff.rfl (and_congr refuseReservedParameters_eq_ok_iff ?_)
    split
    · next first h =>
      have hmem : f.name ∈ t.names := Table.exists_find?_iff.1 ⟨first, h⟩
      simp [hmem, throw, throwThe, MonadExceptOf.throw]
    · next h =>
      have hnew : f.name ∉ t.names := Table.find?_eq_none_iff.1 h
      simp [hnew, eq_comm, pure, Except.pure]
  used_next _ _ _ _ := Table.mem_names_insert_iff

theorem addInputField_takesNew :
    TakesNew (addInputField file owner) (fun t f => t.insert (InputValueDef.ofSource file f))
      (fun f => isReserved f.name = false) Sdl.InputValue.name fun t n => n ∈ t.names where
  ok_iff t f t' := by
    unfold addInputField
    simp only [ite_throw_eq_ok_iff, Bool.not_eq_true]
    rw [and_assoc]
    refine and_congr Iff.rfl ?_
    split
    · next first h =>
      have hmem : f.name ∈ t.names := Table.exists_find?_iff.1 ⟨first, h⟩
      simp [hmem, throw, throwThe, MonadExceptOf.throw]
    · next h =>
      have hnew : f.name ∉ t.names := Table.find?_eq_none_iff.1 h
      simp [hnew, eq_comm, pure, Except.pure]
  used_next _ _ _ _ := Table.mem_names_insert_iff

theorem addMember_takesNew :
    TakesNew (addMember owner) (fun members m => members ++ [m]) (fun _ => True) id
      fun members m => m ∈ members where
  ok_iff members m members' := by
    unfold addMember
    by_cases h : m ∈ members
    · simp [h]
    · simp [h, eq_comm]
  used_next _ _ _ _ := by simp

theorem addInterface_takesNew :
    TakesNew (addInterface owner) (fun interfaces i => interfaces ++ [i]) (fun i => i ≠ owner.name) id
      fun interfaces i => i ∈ interfaces where
  ok_iff interfaces i interfaces' := by
    unfold addInterface
    by_cases h : i ∈ interfaces
    · simp [h]
    · by_cases hi : i = owner.name
      · subst hi
        simp [h]
      · simp only [List.contains_eq_mem, h, decide_false, hi, beq_iff_eq, Bool.false_eq_true, ite_false]
        exact ⟨fun e => ⟨⟨hi, h⟩, (Except.ok.inj e).symm⟩, fun e => congrArg _ e.2.symm⟩
  used_next _ _ _ _ := by simp

end Step

/-! ### A body -/

namespace TypeContents

variable {file : String} {owner : Owner} {location : Location} {c c' : TypeContents} {body : Sdl.TypeBody}

/-- Members put behind each other one by one. -/
private theorem foldl_append_singleton (xs ys : List String) :
    ys.foldl (fun l y => l ++ [y]) xs = xs ++ ys := by
  induction ys generalizing xs with
  | nil => simp
  | cons y ys ih => rw [List.foldl_cons, ih, List.append_assoc, List.singleton_append]

/-- What is of another kind is refused. -/
theorem add_of_kind_ne (h : c.kind ≠ body.kind) :
    c.add file owner location body = .error (.extendedKind owner.name c.kind location) := by
  cases c <;> cases body <;> first | rfl | exact absurd rfl h

/-- Interfaces and then fields are taken in exactly if their names are new and allowed, and no interface is the
type itself. -/
private theorem addImplementing_eq_ok_iff {interfaces moreInterfaces : List String} {fields : Table FieldDef}
    {more : List Sdl.Field} {mk : List String → Table FieldDef → TypeContents} :
    (do
      let interfaces ← moreInterfaces.foldlM (addInterface owner) interfaces
      return mk interfaces (← more.foldlM (addField file owner) fields) : Except BuildError _) = .ok c' ↔
      (Fresh (· ∈ interfaces) moreInterfaces ∧ owner.name ∉ moreInterfaces ∧
        Fresh (· ∈ fields.names) (more.map Sdl.Field.name) ∧
        ∀ f ∈ more, isReserved f.name = false ∧ ∀ a ∈ f.arguments, isReserved a.name = false) ∧
      c' = mk (interfaces ++ moreInterfaces) (fields.insertAll (more.map (FieldDef.ofSource file))) := by
  have hother : (∀ i ∈ moreInterfaces, i ≠ owner.name) ↔ owner.name ∉ moreInterfaces :=
    ⟨fun h hm => h _ hm rfl, fun h i hi e => h (e ▸ hi)⟩
  simp only [bind_eq_ok_iff, addInterface_takesNew.foldlM_eq_ok_iff, addField_takesNew.foldlM_eq_ok_iff,
    List.map_id, foldl_append_singleton, hother, pure, Except.pure, Except.ok.injEq, Table.insertAll,
    List.foldl_map]
  constructor
  · rintro ⟨_, ⟨⟨hnot, his⟩, rfl⟩, _, ⟨⟨hnames, hfs⟩, rfl⟩, rfl⟩
    exact ⟨⟨his, hnot, hfs, hnames⟩, rfl⟩
  · rintro ⟨⟨his, hnot, hfs, hnames⟩, rfl⟩
    exact ⟨_, ⟨⟨hnot, his⟩, rfl⟩, _, ⟨⟨hnames, hfs⟩, rfl⟩, rfl⟩

/-- What it takes to accept a body of an object or interface. -/
private theorem accepts_iff_of_fields {name : String} (hkind : c.kind = body.kind)
    (hmembers : body.memberNames = body.fields.map Sdl.Field.name) (hinput : body.inputFields = []) :
    c.Accepts name body ↔
      Fresh (· ∈ c.interfaceNames) body.interfaceNames ∧ name ∉ body.interfaceNames ∧
      Fresh (· ∈ c.memberNames) (body.fields.map Sdl.Field.name) ∧
      ∀ f ∈ body.fields, isReserved f.name = false ∧ ∀ a ∈ f.arguments, isReserved a.name = false := by
  rw [← hmembers]
  constructor
  · intro h
    exact ⟨h.interfaces, h.notItself, h.members, fun f hf => ⟨h.names.fields f hf, h.names.arguments f hf⟩⟩
  · rintro ⟨his, hnot, hfs, hnames⟩
    refine ⟨hkind, his, hnot, hfs, fun f hf => (hnames f hf).1, fun f hf => (hnames f hf).2, ?_⟩
    rw [hinput]
    exact nofun

/-- **A body is added exactly if it is acceptable, and then its interfaces and members go behind those that are
there.** -/
theorem add_eq_ok_iff :
    c.add file owner location body = .ok c' ↔ c.Accepts owner.name body ∧ c' = c.plus file body := by
  by_cases hk : c.kind = body.kind
  swap
  · rw [add_of_kind_ne hk]
    exact ⟨fun h => (nomatch h), fun h => absurd h.1.kind hk⟩
  -- The kinds agree, so that only the six pairs of one kind remain.
  cases c with
  | builtIn scalar => cases body <;> cases hk
  | scalar =>
    cases body <;> cases hk
    have haccepts : Accepts owner.name .scalar .scalar :=
      ⟨rfl, fresh_nil, List.not_mem_nil, fresh_nil, ⟨nofun, nofun, nofun⟩⟩
    simp [add, plus, haccepts, eq_comm]
  | enum values =>
    cases body <;> cases hk
    next more =>
    simp only [add, bind_eq_ok_iff, addEnumValue_takesNew.foldlM_eq_ok_iff, pure, Except.pure,
      Except.ok.injEq, plus, Table.insertAll, List.foldl_map]
    constructor
    · rintro ⟨_, ⟨⟨-, hnew⟩, rfl⟩, rfl⟩
      exact ⟨⟨rfl, fresh_nil, List.not_mem_nil, hnew, ⟨nofun, nofun, nofun⟩⟩, rfl⟩
    · rintro ⟨h, rfl⟩
      exact ⟨_, ⟨⟨fun _ _ => trivial, h.members⟩, rfl⟩, rfl⟩
  | inputObject fields =>
    cases body <;> cases hk
    next more =>
    simp only [add, bind_eq_ok_iff, addInputField_takesNew.foldlM_eq_ok_iff, pure, Except.pure,
      Except.ok.injEq, plus, Table.insertAll, List.foldl_map]
    constructor
    · rintro ⟨_, ⟨⟨hnames, hnew⟩, rfl⟩, rfl⟩
      exact ⟨⟨rfl, fresh_nil, List.not_mem_nil, hnew, ⟨nofun, nofun, hnames⟩⟩, rfl⟩
    · rintro ⟨h, rfl⟩
      exact ⟨_, ⟨⟨h.names.inputFields, h.members⟩, rfl⟩, rfl⟩
  | union members =>
    cases body <;> cases hk
    next more =>
    simp only [add, bind_eq_ok_iff, addMember_takesNew.foldlM_eq_ok_iff, pure, Except.pure,
      Except.ok.injEq, plus, List.map_id, foldl_append_singleton]
    constructor
    · rintro ⟨_, ⟨⟨-, hnew⟩, rfl⟩, rfl⟩
      exact ⟨⟨rfl, fresh_nil, List.not_mem_nil, hnew, ⟨nofun, nofun, nofun⟩⟩, rfl⟩
    · rintro ⟨h, rfl⟩
      exact ⟨_, ⟨⟨fun _ _ => trivial, h.members⟩, rfl⟩, rfl⟩
  | interface interfaces fields =>
    cases body <;> cases hk
    next moreInterfaces more =>
    rw [add, addImplementing_eq_ok_iff, accepts_iff_of_fields rfl rfl rfl]
    rfl
  | object interfaces fields =>
    cases body <;> cases hk
    next moreInterfaces more =>
    rw [add, addImplementing_eq_ok_iff, accepts_iff_of_fields rfl rfl rfl]
    rfl

/-! ### Several bodies -/

@[simp]
theorem kind_plus : (c.plus file body).kind = c.kind := by
  cases c <;> cases body <;> rfl

theorem interfaceNames_plus (h : c.kind = body.kind) :
    (c.plus file body).interfaceNames = c.interfaceNames ++ body.interfaceNames := by
  cases c <;> cases body <;> first | rfl | cases h

theorem unionMembers_plus (h : c.kind = body.kind) :
    (c.plus file body).unionMembers = c.unionMembers ++ body.unionMembers := by
  cases c <;> cases body <;> first | rfl | cases h

/-- The names of the members after a body was added. -/
theorem mem_memberNames_plus_iff (h : c.kind = body.kind) {name : String} :
    name ∈ (c.plus file body).memberNames ↔ name ∈ c.memberNames ∨ name ∈ body.memberNames := by
  cases c with
  | builtIn scalar => cases body <;> cases h
  | scalar => cases body <;> cases h; simp [plus, memberNames, Sdl.TypeBody.memberNames]
  | enum values => cases body <;> cases h; exact Table.mem_names_insertAll_map_iff fun _ => rfl
  | inputObject fields => cases body <;> cases h; exact Table.mem_names_insertAll_map_iff fun _ => rfl
  | interface _ fields => cases body <;> cases h; exact Table.mem_names_insertAll_map_iff fun _ => rfl
  | object _ fields => cases body <;> cases h; exact Table.mem_names_insertAll_map_iff fun _ => rfl
  | union members => cases body <;> cases h; exact List.mem_append

/-- A type's contents with several bodies, each with its file, put behind each other. -/
def plusAll (c : TypeContents) (bodies : List (String × Sdl.TypeBody)) : TypeContents :=
  bodies.foldl (fun c b => c.plus b.1 b.2) c

@[simp]
theorem kind_plusAll {bodies : List (String × Sdl.TypeBody)} : (c.plusAll bodies).kind = c.kind := by
  induction bodies generalizing c with
  | nil => rfl
  | cons b bs ih => exact ih.trans kind_plus

/-- What each body puts behind what is there, several of them put there one behind the other. -/
private theorem eq_append_flatMap_of_plus {α : Type} {ofContents : TypeContents → List α}
    {ofBody : Sdl.TypeBody → List α}
    (hplus : ∀ {c : TypeContents} {file : String} {body : Sdl.TypeBody}, c.kind = body.kind →
      ofContents (c.plus file body) = ofContents c ++ ofBody body)
    {bodies : List (String × Sdl.TypeBody)} (h : ∀ b ∈ bodies, c.kind = b.2.kind) :
    ofContents (c.plusAll bodies) = ofContents c ++ bodies.flatMap fun b => ofBody b.2 := by
  induction bodies generalizing c with
  | nil => exact (List.append_nil _).symm
  | cons b bodies ih =>
    rw [List.forall_mem_cons] at h
    have hrest : ∀ b' ∈ bodies, (c.plus b.1 b.2).kind = b'.2.kind := fun b' hb' => kind_plus.trans (h.2 b' hb')
    rw [List.flatMap_cons, ← List.append_assoc, ← hplus h.1]
    exact ih hrest

theorem interfaceNames_plusAll {bodies : List (String × Sdl.TypeBody)}
    (h : ∀ b ∈ bodies, c.kind = b.2.kind) :
    (c.plusAll bodies).interfaceNames = c.interfaceNames ++ bodies.flatMap fun b => b.2.interfaceNames :=
  eq_append_flatMap_of_plus interfaceNames_plus h

theorem unionMembers_plusAll {bodies : List (String × Sdl.TypeBody)} (h : ∀ b ∈ bodies, c.kind = b.2.kind) :
    (c.plusAll bodies).unionMembers = c.unionMembers ++ bodies.flatMap fun b => b.2.unionMembers :=
  eq_append_flatMap_of_plus unionMembers_plus h

theorem mem_memberNames_plusAll_iff {bodies : List (String × Sdl.TypeBody)}
    (h : ∀ b ∈ bodies, c.kind = b.2.kind) {name : String} :
    name ∈ (c.plusAll bodies).memberNames ↔
      name ∈ c.memberNames ∨ name ∈ bodies.flatMap fun b => b.2.memberNames := by
  induction bodies generalizing c with
  | nil => exact (or_iff_left List.not_mem_nil).symm
  | cons b bodies ih =>
    rw [List.forall_mem_cons] at h
    have hrest : ∀ b' ∈ bodies, (c.plus b.1 b.2).kind = b'.2.kind := fun b' hb' => kind_plus.trans (h.2 b' hb')
    rw [List.flatMap_cons, List.mem_append, ← or_assoc, ← mem_memberNames_plus_iff h.1]
    exact ih hrest

/-- Several bodies can be added to the contents of the type `owner`, one after the other. -/
def Mergeable (owner : String) : TypeContents → List (String × Sdl.TypeBody) → Prop
  | _, [] => True
  | c, b :: bs => c.Accepts owner b.2 ∧ Mergeable owner (c.plus b.1 b.2) bs

/-- **Bodies can be added one after the other exactly if all are of the type's kind, none implements the type
itself, and their interfaces and members are new and distinct when they are put together.** -/
theorem mergeable_iff {owner : String} {bodies : List (String × Sdl.TypeBody)} :
    Mergeable owner c bodies ↔
      (∀ b ∈ bodies, c.kind = b.2.kind ∧ owner ∉ b.2.interfaceNames ∧ b.2.NamesAllowed) ∧
      Fresh (· ∈ c.interfaceNames) (bodies.flatMap fun b => b.2.interfaceNames) ∧
      Fresh (· ∈ c.memberNames) (bodies.flatMap fun b => b.2.memberNames) := by
  induction bodies generalizing c with
  | nil => simp [Mergeable, fresh_nil]
  | cons b bs ih =>
    rw [Mergeable, ih, List.forall_mem_cons, List.flatMap_cons, List.flatMap_cons, fresh_append_iff,
      fresh_append_iff, kind_plus]
    -- What was used after the first body is what was used before it, and its own names.
    have hinterfaces (hk : c.kind = b.2.kind) (xs : List String) :
        Fresh (· ∈ (c.plus b.1 b.2).interfaceNames) xs ↔
          Fresh (fun n => n ∈ c.interfaceNames ∨ n ∈ b.2.interfaceNames) xs :=
      fresh_congr fun n => by rw [interfaceNames_plus hk, List.mem_append]
    have hmembers (hk : c.kind = b.2.kind) (xs : List String) :
        Fresh (· ∈ (c.plus b.1 b.2).memberNames) xs ↔
          Fresh (fun n => n ∈ c.memberNames ∨ n ∈ b.2.memberNames) xs :=
      fresh_congr fun n => mem_memberNames_plus_iff hk
    constructor
    · rintro ⟨⟨hk, hi, hself, hm, hnames⟩, hall, his, hms⟩
      exact ⟨⟨⟨hk, hself, hnames⟩, hall⟩, ⟨hi, (hinterfaces hk _).1 his⟩, hm, (hmembers hk _).1 hms⟩
    · rintro ⟨⟨⟨hk, hself, hnames⟩, hall⟩, ⟨hi, his⟩, hm, hms⟩
      exact ⟨⟨hk, hi, hself, hm, hnames⟩, hall, (hinterfaces hk _).2 his, (hmembers hk _).2 hms⟩

end TypeContents

end QueryAid
