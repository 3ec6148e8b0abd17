import QueryAid.Proofs.Document.Rereading
/-!
# The same definitions are read in the same way

What is left of the grammar of documents: definitions that cannot be executed, of which only the name is kept, and the
definitions of a source one behind the other. At the image of a cursor they are read as at the cursor
(`reflects_documentItems`).
-/

namespace QueryAid

namespace TokenParser

open Cursor

variable {σ : Placement} {α β : Type}

/-! ### Parts of definitions -/

theorem reflects_constantDirectives : ReadsAlike σ constantDirectives :=
  (reflects_look (looksAtSymbol_atMark _)).bind fun _ _ hfound => reflects_directives.bind fun _ _ _ =>
    reflects_pure hfound

theorem looksAtSymbol_startsItem : LooksAtSymbol startsItem := looksAtSymbol_atName.or looksAtSymbol_atString

section Lists

variable {item : TokenParser Unit} {separator : Punctuator} {fault : SyntaxFault} (hitem : ReadsAlike σ item)
include hitem

theorem reflects_separated : ReadsAlike σ (separated separator item) :=
  (reflects_skip (looksAtSymbol_atMark _)).bind fun _ _ _ => hitem.bind fun _ _ _ =>
    ((reflects_advance.bind fun _ _ _ => hitem).many (looksAtSymbol_atMark _)).bind fun _ _ _ => reflects_pure rfl

theorem reflects_items : ReadsAlike σ (items fault item) :=
  (reflects_require looksAtSymbol_startsItem).bind fun _ _ _ =>
    (hitem.many looksAtSymbol_startsItem).bind fun _ _ _ => reflects_pure rfl

theorem reflects_body : ReadsAlike σ (body fault item) := by
  refine Reflects.bind (Reflects.optional (reflects_advance.bind fun _ _ _ => (reflects_items hitem).bind
    fun _ _ _ => reflects_close _) (looksAtSymbol_atMark _)) fun _ found hfound => reflects_pure ?_
  rw [hfound, Option.isSome_map]

end Lists

theorem reflects_inputValueDefinition : ReadsAlike σ inputValueDefinition :=
  (reflects_skip looksAtSymbol_atString).bind fun _ _ _ => reflects_name.bind fun _ _ _ =>
    (reflects_expect (looksAtSymbol_atMark _)).bind fun _ _ _ => reflects_typeRef.bind fun _ _ _ =>
      reflects_default.bind fun _ _ _ => reflects_constantDirectives.bind fun _ _ _ => reflects_pure rfl

theorem reflects_argumentDefinitions : ReadsAlike σ argumentDefinitions :=
  Reflects.bind (Reflects.optional (reflects_advance.bind fun _ _ _ =>
    (reflects_items reflects_inputValueDefinition).bind fun _ _ _ => reflects_close _) (looksAtSymbol_atMark _))
    fun _ _ _ => reflects_pure rfl

theorem reflects_fieldDefinition : ReadsAlike σ fieldDefinition :=
  (reflects_skip looksAtSymbol_atString).bind fun _ _ _ => reflects_name.bind fun _ _ _ =>
    reflects_argumentDefinitions.bind fun _ _ _ => (reflects_expect (looksAtSymbol_atMark _)).bind fun _ _ _ =>
      reflects_typeRef.bind fun _ _ _ => reflects_constantDirectives.bind fun _ _ _ => reflects_pure rfl

theorem reflects_enumValueDefinition : ReadsAlike σ enumValueDefinition :=
  (reflects_skip looksAtSymbol_atString).bind fun _ _ _ => (reflects_require looksAtSymbol_atName).bind fun _ _ _ =>
    (reflects_require (looksAtSymbol_text fun text => !(["true", "false", "null"].contains text))).bind fun _ _ _ =>
      reflects_advance.bind fun _ _ _ => reflects_constantDirectives.bind fun _ _ _ => reflects_pure rfl

theorem reflects_implementsInterfaces : ReadsAlike σ implementsInterfaces := by
  refine Reflects.bind (Reflects.optional (reflects_advance.bind fun _ _ _ =>
    reflects_separated (reflects_name.bind fun _ _ _ => reflects_pure rfl)) (looksAtSymbol_atWord _))
    fun _ found hfound => reflects_pure ?_
  rw [hfound, Option.isSome_map]

theorem reflects_unionMembers : ReadsAlike σ unionMembers := by
  refine Reflects.bind (Reflects.optional (reflects_advance.bind fun _ _ _ =>
    reflects_separated (reflects_name.bind fun _ _ _ => reflects_pure rfl)) (looksAtSymbol_atMark _))
    fun _ found hfound => reflects_pure ?_
  rw [hfound, Option.isSome_map]

theorem reflects_rootOperations : ReadsAlike σ rootOperations := by
  refine Reflects.bind (Reflects.many ((reflects_require
    (looksAtSymbol_text fun text => ["query", "mutation", "subscription"].contains text)).bind fun _ _ _ =>
      reflects_advance.bind fun _ _ _ => (reflects_expect (looksAtSymbol_atMark _)).bind fun _ _ _ =>
        reflects_skip looksAtSymbol_atName) looksAtSymbol_atName) fun _ found hfound => reflects_pure ?_
  rw [hfound, List.isEmpty_map]

theorem reflects_directiveLocation : ReadsAlike σ directiveLocation :=
  (reflects_require looksAtSymbol_atName).bind fun _ _ _ =>
    (reflects_require (looksAtSymbol_text fun text => (DirectiveLocation.ofText? text).isSome)).bind fun _ _ _ =>
      reflects_advance

/-! ### Definitions that cannot be executed -/

theorem reflects_definitionHead {keyword : String} {fault : SyntaxFault} :
    ReflectsBy σ (Name.place σ) (definitionHead keyword fault) :=
  (reflects_skip looksAtSymbol_atString).bind fun _ _ _ => (reflects_skip (looksAtSymbol_atWord _)).bind fun _ _ _ =>
    reflects_name

/-- The name of a definition stands at its place, if there is one. -/
abbrev KeepsPlace (σ : Placement) (p : TokenParser (Option Name)) : Prop := ReflectsBy σ (Option.map (Name.place σ)) p

/-- A name that is kept stands at its place. -/
theorem keepsPlace_some {n m : Name} (h : n = m.place σ) :
    Reflects σ (fun a b => a = Option.map (Name.place σ) b) (pure (some n)) (pure (some m)) :=
  reflects_pure (congrArg some h)

theorem schemaDefinition_keepsPlace : KeepsPlace σ schemaDefinition := by
  have hroots : ReadsAlike σ
      (rootOperations >>= fun found => require (fun _ => found) .rootOperation >>= fun _ => close .brace) := by
    refine reflects_rootOperations.bind fun _ found hfound => ?_
    rw [hfound]
    exact (reflects_require (looksAtSymbol_const _)).bind fun _ _ _ => reflects_close _
  exact (reflects_skip looksAtSymbol_atString).bind fun _ _ _ => (reflects_skip (looksAtSymbol_atWord _)).bind
    fun _ _ _ => reflects_constantDirectives.bind fun _ _ _ => Reflects.bind (Reflects.optional
      (reflects_advance.bind fun _ _ _ => hroots) (looksAtSymbol_atMark _)) fun _ _ _ => reflects_pure rfl

theorem scalarDefinition_keepsPlace : KeepsPlace σ scalarDefinition :=
  reflects_definitionHead.bind fun _ _ hn => reflects_constantDirectives.bind fun _ _ _ => keepsPlace_some hn

theorem fieldsDefinition_keepsPlace {keyword : String} {fault : SyntaxFault} :
    KeepsPlace σ (fieldsDefinition keyword fault) :=
  reflects_definitionHead.bind fun _ _ hn => reflects_implementsInterfaces.bind fun _ _ _ =>
    reflects_constantDirectives.bind fun _ _ _ => (reflects_body reflects_fieldDefinition).bind fun _ _ _ =>
      keepsPlace_some hn

theorem unionDefinition_keepsPlace : KeepsPlace σ unionDefinition :=
  reflects_definitionHead.bind fun _ _ hn => reflects_constantDirectives.bind fun _ _ _ =>
    reflects_unionMembers.bind fun _ _ _ => keepsPlace_some hn

theorem enumDefinition_keepsPlace : KeepsPlace σ enumDefinition :=
  reflects_definitionHead.bind fun _ _ hn => reflects_constantDirectives.bind fun _ _ _ =>
    (reflects_body reflects_enumValueDefinition).bind fun _ _ _ => keepsPlace_some hn

theorem inputObjectDefinition_keepsPlace : KeepsPlace σ inputObjectDefinition :=
  reflects_definitionHead.bind fun _ _ hn => reflects_constantDirectives.bind fun _ _ _ =>
    (reflects_body reflects_inputValueDefinition).bind fun _ _ _ => keepsPlace_some hn

theorem directiveDefinition_keepsPlace : KeepsPlace σ directiveDefinition :=
  (reflects_skip looksAtSymbol_atString).bind fun _ _ _ => (reflects_skip (looksAtSymbol_atWord _)).bind fun _ _ _ =>
    (reflects_expect (looksAtSymbol_atMark _)).bind fun _ _ _ => reflects_name.bind fun _ _ hn =>
      reflects_argumentDefinitions.bind fun _ _ _ => (reflects_skip (looksAtSymbol_atWord _)).bind fun _ _ _ =>
        (reflects_expect (looksAtSymbol_atWord _)).bind fun _ _ _ =>
          (reflects_require (looksAtSymbol_atName.or (looksAtSymbol_atMark _))).bind fun _ _ _ =>
            (reflects_separated reflects_directiveLocation).bind fun _ _ _ => keepsPlace_some hn

/-! ### Extensions -/

theorem reflects_mapM {parts : List (TokenParser α)} (h : ∀ p ∈ parts, ReadsAlike σ p) :
    ReadsAlike σ (parts.mapM id) := by
  have hloop : ∀ found : List α, ReadsAlike σ (List.mapM.loop id parts found) := by
    induction parts with
    | nil => exact fun _ => reflects_pure rfl
    | cons p parts ih =>
      rw [List.forall_mem_cons] at h
      refine fun found => h.1.bind fun a b hab => ?_
      rw [hab]
      exact ih h.2 _
  exact hloop []

theorem reflects_extensionParts {fault : SyntaxFault} {parts : List (TokenParser Bool)}
    (h : ∀ p ∈ parts, ReadsAlike σ p) : ReadsAlike σ (extensionParts fault parts) := by
  refine (reflects_mapM h).bind fun _ found hfound => ?_
  rw [hfound]
  exact reflects_require (looksAtSymbol_const _)

theorem typeExtension_keepsPlace {fault : SyntaxFault} {parts : List (TokenParser Bool)}
    (h : ∀ p ∈ parts, ReadsAlike σ p) : KeepsPlace σ (typeExtension fault parts) :=
  reflects_name.bind fun _ _ hn => (reflects_extensionParts h).bind fun _ _ _ => keepsPlace_some hn

theorem schemaExtension_keepsPlace : KeepsPlace σ schemaExtension := by
  have hroots : ReadsAlike σ (rootOperations >>= fun found => close .brace >>= fun _ => pure found) :=
    reflects_rootOperations.bind fun _ _ hfound => (reflects_close _).bind fun _ _ _ => reflects_pure hfound
  have hbody : ReadsAlike σ
      (Parser.optional (atMark .leftBrace) (advance >>= fun _ => rootOperations >>= fun found =>
        close .brace >>= fun _ => pure found) >>= fun found => pure (found.getD false)) := by
    refine Reflects.bind (Reflects.optional (reflects_advance.bind fun _ _ _ => hroots) (looksAtSymbol_atMark _))
      fun _ found hfound => reflects_pure ?_
    rw [hfound]
    cases found <;> rfl
  exact (reflects_extensionParts (List.forall_mem_cons.2
    ⟨reflects_constantDirectives, List.forall_mem_singleton.2 hbody⟩)).bind fun _ _ _ => reflects_pure rfl

theorem keepsPlace_of_extensionOf? {keyword : String} {p : TokenParser (Option Name)}
    (h : extensionOf? keyword = some p) : KeepsPlace σ p := by
  have hfields : ReadsAlike σ fieldDefinitions := reflects_body reflects_fieldDefinition
  have hvalues : ReadsAlike σ enumValueDefinitions := reflects_body reflects_enumValueDefinition
  have hinputs : ReadsAlike σ inputFieldDefinitions :=
    reflects_body reflects_inputValueDefinition
  have hdirectives : ReadsAlike σ constantDirectives := reflects_constantDirectives
  have hinterfaces : ReadsAlike σ implementsInterfaces := reflects_implementsInterfaces
  have hmembers : ReadsAlike σ unionMembers := reflects_unionMembers
  unfold extensionOf? at h
  split at h
  · cases h
    exact schemaExtension_keepsPlace
  iterate 6
    · cases h
      exact typeExtension_keepsPlace (by simp [*])
  · cases h

/-- An extension is read by the word behind its keyword, which no comma can hide. -/
theorem extension_keepsPlace : KeepsPlace σ extension := by
  refine reflects_second?.bind fun a b hab => ?_
  rcases hab with rfl | hab
  · exact reflects_fail
  have hsame : (a.bind fun t => extensionOf? t.text) = b.bind fun t => extensionOf? t.text := by
    cases hab with
    | none => rfl
    | some htu => exact congrArg extensionOf? htu.text
  rw [hsame]
  cases hrest : b.bind fun t => extensionOf? t.text with
  | none => exact reflects_fail
  | some p =>
    obtain ⟨t, -, hp⟩ := Option.bind_eq_some_iff.1 hrest
    exact reflects_advance.bind fun _ _ _ => reflects_advance.bind fun _ _ _ => keepsPlace_of_extensionOf? hp

/-! ### Items -/

theorem reflects_typeSystemItem {p : TokenParser (Option Name)} (h : KeepsPlace σ p) :
    ReflectsBy σ (DocumentItem.place σ) (typeSystemItem p) := by
  refine (h.bind fun _ n hn => reflects_pure fun s => ?_).spanned
  rw [hn]
  rfl

theorem reflects_operationItem : ReflectsBy σ (DocumentItem.place σ) operationItem := by
  refine reflects_operation.bind fun _ o ho => reflects_pure ?_
  rw [ho]
  rfl

theorem reflects_fragmentItem : ReflectsBy σ (DocumentItem.place σ) fragmentItem := by
  refine reflects_fragment.bind fun _ f hf => reflects_pure ?_
  rw [hf]
  rfl

theorem reflects_itemOf (word : String) : ReflectsBy σ (DocumentItem.place σ) (itemOf word) := by
  unfold itemOf
  split
  iterate 4
    · exact reflects_operationItem
  · exact reflects_fragmentItem
  · exact reflects_typeSystemItem extension_keepsPlace
  · exact reflects_typeSystemItem schemaDefinition_keepsPlace
  · exact reflects_typeSystemItem scalarDefinition_keepsPlace
  · exact reflects_typeSystemItem fieldsDefinition_keepsPlace
  · exact reflects_typeSystemItem fieldsDefinition_keepsPlace
  · exact reflects_typeSystemItem unionDefinition_keepsPlace
  · exact reflects_typeSystemItem enumDefinition_keepsPlace
  · exact reflects_typeSystemItem inputObjectDefinition_keepsPlace
  · exact reflects_typeSystemItem directiveDefinition_keepsPlace
  · exact reflects_fail

theorem reflects_item : ReflectsBy σ (DocumentItem.place σ) item := by
  refine reflects_token.bind fun t u htu => ?_
  rw [htu.isString, htu.text]
  cases u.isString with
  | true =>
    refine reflects_second?.bind fun a b hab => ?_
    rcases hab with rfl | hab
    · exact reflects_fail
    cases hab with
    | none => exact reflects_fail
    | @some t u htu =>
      dsimp only
      rw [htu.text]
      exact reflects_itemOf _
  | false =>
    exact (reflects_require (looksAtSymbol_atName.or (looksAtSymbol_atMark _))).bind fun _ _ _ => reflects_itemOf _

/-- **What a source holds is read at its place.** -/
theorem reflects_documentItems : ReflectsBy σ (List.map (DocumentItem.place σ)) documentItems :=
  (reflects_require looksAtSymbol_atEnd.not).bind fun _ _ _ => reflects_item.many looksAtSymbol_atEnd.not

end TokenParser

end QueryAid
