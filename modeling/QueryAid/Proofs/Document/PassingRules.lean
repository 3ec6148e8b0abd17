import QueryAid.Proofs.Document.PassingOver
import QueryAid.Proofs.Document.RereadingItems
/-!
# The grammar passes over what is no token

Every rule of the grammar of documents passes over invalid tokens (`PassesOver`); there is one lemma for each rule. No
rule looks at an invalid token: it looks at the current token, or at the first one behind it that is not invalid.
-/

namespace QueryAid

namespace TokenParser

open Cursor

variable {α β : Type} {constant : Bool} {room : Nat} {fault : SyntaxFault}

/-! ### Values and types -/

section Values

variable {item : TokenParser Value} (hitem : PassesOver item)
include hitem

theorem passesOver_namedValue (mk : Name → Value → Span → β) : PassesOver (namedValue item mk) :=
  (passesOver_name.bind fun _ => ((passesOver_advance.bind fun _ => hitem).optional (looksAtSymbol_atMark _)).bind
    fun _ => passesOver_pure _).spanned

theorem passesOver_valueWith : PassesOver (valueWith constant item) := by
  have hliteral : ∀ f : Span → Value, PassesOver (spanned (advance >>= fun _ => pure f)) := fun f =>
    (passesOver_advance.bind fun _ => passesOver_pure f).spanned
  have hfield : PassesOver (objectField item) := passesOver_namedValue hitem ObjectField.mk
  refine (passesOver_look seesAlike_token).bind fun t => ?_
  split
  · exact (passesOver_require (looksAtSymbol_const _)).bind fun _ => (passesOver_advance.bind fun _ =>
      passesOver_name.bind fun _ => passesOver_pure _).spanned
  · exact hliteral _
  · exact hliteral _
  · exact hliteral _
  · exact hliteral _
  · exact (passesOver_advance.bind fun _ =>
      (hitem.many ((looksAtSymbol_atMark .rightBracket).not.and looksAtSymbol_atEnd.not)).bind fun _ =>
        (passesOver_skip (looksAtSymbol_atMark _)).bind fun _ => passesOver_pure _).spanned
  · exact (passesOver_advance.bind fun _ => (hfield.many looksAtSymbol_atName).bind fun _ =>
      (passesOver_close _).bind fun _ => passesOver_pure _).spanned
  · exact passesOver_fail _

end Values

theorem passesOver_value : PassesOver (value constant room) := by
  induction room with
  | zero => exact passesOver_valueWith (passesOver_fail .nesting)
  | succ room ih => exact passesOver_valueWith ih

section Types

variable {item : TokenParser TypeRef} (hitem : PassesOver item)
include hitem

theorem passesOver_typeRefWith : PassesOver (typeRefWith fault item) := by
  have hlist : PassesOver (listType item) := (passesOver_advance.bind fun _ => hitem.bind fun _ =>
    (passesOver_close _).bind fun _ => passesOver_pure _).spanned
  have hbang : ∀ t : TypeRef, PassesOver (Parser.optional (atMark .bang) advance >>= fun bang =>
      pure fun span => if bang.isSome then t.nonNull span else t) := fun t =>
    (passesOver_advance.optional (looksAtSymbol_atMark _)).bind fun _ => passesOver_pure _
  refine ((passesOver_look (looksAtSymbol_atMark _).seesAlike).bind fun list => ?_).spanned
  cases list with
  | true => exact hlist.bind hbang
  | false => exact (passesOver_name.map TypeRef.named).bind hbang

end Types

theorem passesOver_typeRefAt : PassesOver (typeRefAt fault room) := by
  induction room generalizing fault with
  | zero => exact passesOver_typeRefWith (passesOver_fail .nesting)
  | succ room ih => exact passesOver_typeRefWith ih

theorem passesOver_typeRef : PassesOver typeRef :=
  (passesOver_require (looksAtSymbol_atName.or (looksAtSymbol_atMark _))).bind fun _ => passesOver_typeRefAt

theorem passesOver_default :
    PassesOver (Parser.optional (atMark .equals) (advance >>= fun _ => value true nestingLimit)) :=
  (passesOver_advance.bind fun _ => passesOver_value).optional (looksAtSymbol_atMark _)

/-! ### Arguments and directives -/

theorem passesOver_arguments : PassesOver (arguments constant room) := by
  have hargument : PassesOver (argument constant room) := passesOver_namedValue passesOver_value Argument.mk
  exact ((passesOver_advance.bind fun _ => (passesOver_require looksAtSymbol_atName).bind fun _ =>
    (hargument.many looksAtSymbol_atName).bind fun _ => (passesOver_close _).bind fun _ =>
      passesOver_pure _).optional (looksAtSymbol_atMark _)).bind fun _ => passesOver_pure _

theorem passesOver_directives : PassesOver (directives constant room) := by
  have hdirective : PassesOver (directive constant room) := (passesOver_advance.bind fun _ =>
    passesOver_name.bind fun _ => passesOver_arguments.bind fun _ => passesOver_pure _).spanned
  exact hdirective.many (looksAtSymbol_atMark _)

/-! ### Selections -/

theorem passesOver_typeCondition : PassesOver typeCondition :=
  (passesOver_expect (looksAtSymbol_atWord _)).bind fun _ => passesOver_name

theorem passesOver_spread : PassesOver (spread room) :=
  (passesOver_advance.bind fun _ => passesOver_name.bind fun _ => passesOver_directives.bind fun _ =>
    passesOver_pure _).spanned

section Nested

variable {nested : TokenParser SelectionSet} (hnested : PassesOver nested)
include hnested

theorem passesOver_inlineFragment : PassesOver (inlineFragment room nested) :=
  (passesOver_advance.bind fun _ => (passesOver_typeCondition.optional looksAtSymbol_atName).bind fun _ =>
    passesOver_directives.bind fun _ => (passesOver_require (looksAtSymbol_atMark _)).bind fun _ =>
      hnested.bind fun _ => passesOver_pure _).spanned

/-- A field looks for a colon behind its name. -/
theorem passesOver_field : PassesOver (field room nested) := by
  have hresponse : PassesOver (name .name >>= fun n => advance >>= fun _ => pure n) :=
    passesOver_name.bind fun _ => passesOver_advance.bind fun _ => passesOver_pure _
  have hcolon : SeesAlike colonSecond := by
    intro all c k hck
    rw [colonSecond, colonSecond, seesAlike_second? hck]
  exact ((passesOver_look hcolon).bind fun aliased =>
    (hresponse.optional (looksAtSymbol_const aliased)).bind fun _ => passesOver_name.bind fun _ =>
      passesOver_arguments.bind fun _ => passesOver_directives.bind fun _ =>
        (hnested.optional (looksAtSymbol_atMark _)).bind fun _ => passesOver_pure _).spanned

theorem passesOver_selection : PassesOver (selection room nested) := by
  refine (passesOver_look (looksAtSymbol_atMark _).seesAlike).bind fun spreading => ?_
  cases spreading with
  | false => exact passesOver_field hnested
  | true =>
    refine (passesOver_look seesAlike_second?).bind fun next => ?_
    cases next with
    | none => exact passesOver_fail _
    | some t =>
      dsimp only
      cases t.isName && t.text != "on" with
      | true => exact passesOver_spread
      | false =>
        cases t.isName || t.isMark .atSign || t.isMark .leftBrace with
        | true => exact passesOver_inlineFragment hnested
        | false => exact passesOver_fail _

theorem passesOver_selections : PassesOver (selections room nested) := by
  have hstarts : LooksAtSymbol startsSelection := (looksAtSymbol_atMark _).or looksAtSymbol_atName
  exact (passesOver_require hstarts).bind fun _ => ((passesOver_selection hnested).many hstarts).bind fun _ =>
    (passesOver_close _).bind fun _ => passesOver_pure _

end Nested

theorem passesOver_selectionSet : PassesOver (selectionSet room) := by
  induction room with
  | zero => exact passesOver_advance.bind fun _ => passesOver_fail .nesting
  | succ room ih =>
    exact (passesOver_advance.bind fun _ => (passesOver_selections ih).bind fun _ => passesOver_pure _).spanned

/-! ### Operations and fragments -/

theorem passesOver_variableDefinition : PassesOver variableDefinition := by
  have hvariable : PassesOver (spanned (advance >>= fun _ => name .name >>= fun n => pure fun span => (n, span))) :=
    (passesOver_advance.bind fun _ => passesOver_name.bind fun _ => passesOver_pure _).spanned
  exact (hvariable.bind fun _ => (passesOver_expect (looksAtSymbol_atMark _)).bind fun _ =>
    passesOver_typeRef.bind fun _ => passesOver_default.bind fun _ => passesOver_directives.bind fun _ =>
      passesOver_pure _).spanned

theorem passesOver_variableDefinitions : PassesOver variableDefinitions :=
  ((passesOver_advance.bind fun _ => (passesOver_require (looksAtSymbol_atMark _)).bind fun _ =>
    (passesOver_variableDefinition.many (looksAtSymbol_atMark _)).bind fun _ => (passesOver_close _).bind fun _ =>
      passesOver_pure _).optional (looksAtSymbol_atMark _)).bind fun _ => passesOver_pure _

theorem passesOver_operation : PassesOver operation := by
  have hset : ∀ f : SelectionSet → Span → Operation,
      PassesOver (selectionSet nestingLimit >>= fun set => pure (f set)) := fun f =>
    PassesOver.bind passesOver_selectionSet fun set => passesOver_pure (f set)
  refine ((passesOver_look seesAlike_token).bind fun t => ?_).spanned
  cases t.isName with
  | true =>
    exact passesOver_advance.bind fun _ => (passesOver_name.optional looksAtSymbol_atName).bind fun _ =>
      passesOver_variableDefinitions.bind fun _ => passesOver_directives.bind fun _ =>
        (passesOver_require (looksAtSymbol_atMark _)).bind fun _ => hset _
  | false => exact (passesOver_require (looksAtSymbol_atMark _)).bind fun _ => hset _

theorem passesOver_fragment : PassesOver fragment :=
  (passesOver_advance.bind fun _ => (passesOver_require (looksAtSymbol_atWord _).not).bind fun _ =>
    passesOver_name.bind fun _ => passesOver_typeCondition.bind fun _ => passesOver_directives.bind fun _ =>
      (passesOver_require (looksAtSymbol_atMark _)).bind fun _ => PassesOver.bind passesOver_selectionSet fun _ =>
        passesOver_pure _).spanned

/-! ### Parts of definitions that cannot be executed -/

theorem passesOver_constantDirectives : PassesOver constantDirectives :=
  (passesOver_look (looksAtSymbol_atMark _).seesAlike).bind fun _ => passesOver_directives.bind fun _ =>
    passesOver_pure _

section Lists

variable {item : TokenParser Unit} {separator : Punctuator} (hitem : PassesOver item)
include hitem

theorem passesOver_separated : PassesOver (separated separator item) :=
  (passesOver_skip (looksAtSymbol_atMark _)).bind fun _ => hitem.bind fun _ =>
    ((passesOver_advance.bind fun _ => hitem).many (looksAtSymbol_atMark _)).bind fun _ => passesOver_pure _

theorem passesOver_items : PassesOver (items fault item) :=
  (passesOver_require looksAtSymbol_startsItem).bind fun _ => (hitem.many looksAtSymbol_startsItem).bind fun _ =>
    passesOver_pure _

theorem passesOver_body : PassesOver (body fault item) :=
  ((passesOver_advance.bind fun _ => (passesOver_items hitem).bind fun _ => passesOver_close _).optional
    (looksAtSymbol_atMark _)).bind fun _ => passesOver_pure _

end Lists

theorem passesOver_inputValueDefinition : PassesOver inputValueDefinition :=
  (passesOver_skip looksAtSymbol_atString).bind fun _ => passesOver_name.bind fun _ =>
    (passesOver_expect (looksAtSymbol_atMark _)).bind fun _ => passesOver_typeRef.bind fun _ =>
      passesOver_default.bind fun _ => passesOver_constantDirectives.bind fun _ => passesOver_pure _

theorem passesOver_argumentDefinitions : PassesOver argumentDefinitions :=
  ((passesOver_advance.bind fun _ => (passesOver_items passesOver_inputValueDefinition).bind fun _ =>
    passesOver_close _).optional (looksAtSymbol_atMark _)).bind fun _ => passesOver_pure _

theorem passesOver_fieldDefinition : PassesOver fieldDefinition :=
  (passesOver_skip looksAtSymbol_atString).bind fun _ => passesOver_name.bind fun _ =>
    passesOver_argumentDefinitions.bind fun _ => (passesOver_expect (looksAtSymbol_atMark _)).bind fun _ =>
      passesOver_typeRef.bind fun _ => passesOver_constantDirectives.bind fun _ => passesOver_pure _

theorem passesOver_enumValueDefinition : PassesOver enumValueDefinition :=
  (passesOver_skip looksAtSymbol_atString).bind fun _ => (passesOver_require looksAtSymbol_atName).bind fun _ =>
    (passesOver_require (looksAtSymbol_text fun text => !(["true", "false", "null"].contains text))).bind fun _ =>
      passesOver_advance.bind fun _ => passesOver_constantDirectives.bind fun _ => passesOver_pure _

theorem passesOver_implementsInterfaces : PassesOver implementsInterfaces :=
  ((passesOver_advance.bind fun _ => passesOver_separated (passesOver_name.bind fun _ => passesOver_pure _)).optional
    (looksAtSymbol_atWord _)).bind fun _ => passesOver_pure _

theorem passesOver_unionMembers : PassesOver unionMembers :=
  ((passesOver_advance.bind fun _ => passesOver_separated (passesOver_name.bind fun _ => passesOver_pure _)).optional
    (looksAtSymbol_atMark _)).bind fun _ => passesOver_pure _

theorem passesOver_rootOperations : PassesOver rootOperations :=
  (((passesOver_require (looksAtSymbol_text fun text => ["query", "mutation", "subscription"].contains text)).bind
    fun _ => passesOver_advance.bind fun _ => (passesOver_expect (looksAtSymbol_atMark _)).bind fun _ =>
      passesOver_skip looksAtSymbol_atName).many looksAtSymbol_atName).bind fun _ => passesOver_pure _

theorem passesOver_directiveLocation : PassesOver directiveLocation :=
  (passesOver_require looksAtSymbol_atName).bind fun _ =>
    (passesOver_require (looksAtSymbol_text fun text => (DirectiveLocation.ofText? text).isSome)).bind fun _ =>
      passesOver_advance

/-! ### Definitions that cannot be executed -/

theorem passesOver_definitionHead {keyword : String} : PassesOver (definitionHead keyword fault) :=
  (passesOver_skip looksAtSymbol_atString).bind fun _ => (passesOver_skip (looksAtSymbol_atWord _)).bind fun _ =>
    passesOver_name

theorem passesOver_schemaDefinition : PassesOver schemaDefinition :=
  (passesOver_skip looksAtSymbol_atString).bind fun _ => (passesOver_skip (looksAtSymbol_atWord _)).bind fun _ =>
    passesOver_constantDirectives.bind fun _ => ((passesOver_advance.bind fun _ =>
      passesOver_rootOperations.bind fun _ => (passesOver_require (looksAtSymbol_const _)).bind fun _ =>
        passesOver_close _).optional (looksAtSymbol_atMark _)).bind fun _ => passesOver_pure _

theorem passesOver_scalarDefinition : PassesOver scalarDefinition :=
  passesOver_definitionHead.bind fun _ => passesOver_constantDirectives.bind fun _ => passesOver_pure _

theorem passesOver_fieldsDefinition {keyword : String} : PassesOver (fieldsDefinition keyword fault) :=
  passesOver_definitionHead.bind fun _ => passesOver_implementsInterfaces.bind fun _ =>
    passesOver_constantDirectives.bind fun _ => (passesOver_body passesOver_fieldDefinition).bind fun _ =>
      passesOver_pure _

theorem passesOver_unionDefinition : PassesOver unionDefinition :=
  passesOver_definitionHead.bind fun _ => passesOver_constantDirectives.bind fun _ =>
    passesOver_unionMembers.bind fun _ => passesOver_pure _

theorem passesOver_enumDefinition : PassesOver enumDefinition :=
  passesOver_definitionHead.bind fun _ => passesOver_constantDirectives.bind fun _ =>
    (passesOver_body passesOver_enumValueDefinition).bind fun _ => passesOver_pure _

theorem passesOver_inputObjectDefinition : PassesOver inputObjectDefinition :=
  passesOver_definitionHead.bind fun _ => passesOver_constantDirectives.bind fun _ =>
    (passesOver_body passesOver_inputValueDefinition).bind fun _ => passesOver_pure _

theorem passesOver_directiveDefinition : PassesOver directiveDefinition :=
  (passesOver_skip looksAtSymbol_atString).bind fun _ => (passesOver_skip (looksAtSymbol_atWord _)).bind fun _ =>
    (passesOver_expect (looksAtSymbol_atMark _)).bind fun _ => passesOver_name.bind fun _ =>
      passesOver_argumentDefinitions.bind fun _ => (passesOver_skip (looksAtSymbol_atWord _)).bind fun _ =>
        (passesOver_expect (looksAtSymbol_atWord _)).bind fun _ =>
          (passesOver_require (looksAtSymbol_atName.or (looksAtSymbol_atMark _))).bind fun _ =>
            (passesOver_separated passesOver_directiveLocation).bind fun _ => passesOver_pure _

/-! ### Extensions -/

theorem passesOver_mapM {parts : List (TokenParser α)} (h : ∀ p ∈ parts, PassesOver p) :
    PassesOver (parts.mapM id) := by
  have hloop : ∀ found : List α, PassesOver (List.mapM.loop id parts found) := by
    induction parts with
    | nil => exact fun _ => passesOver_pure _
    | cons p parts ih =>
      rw [List.forall_mem_cons] at h
      exact fun found => h.1.bind fun a => ih h.2 (a :: found)
  exact hloop []

section Extensions

variable {parts : List (TokenParser Bool)} (h : ∀ p ∈ parts, PassesOver p)
include h

theorem passesOver_extensionParts : PassesOver (extensionParts fault parts) :=
  (passesOver_mapM h).bind fun _ => passesOver_require (looksAtSymbol_const _)

theorem passesOver_typeExtension : PassesOver (typeExtension fault parts) :=
  passesOver_name.bind fun _ => (passesOver_extensionParts h).bind fun _ => passesOver_pure _

end Extensions

theorem passesOver_schemaExtension : PassesOver schemaExtension := by
  have hbody : PassesOver
      (Parser.optional (atMark .leftBrace) (advance >>= fun _ => rootOperations >>= fun found =>
        close .brace >>= fun _ => pure found) >>= fun found => pure (found.getD false)) :=
    ((passesOver_advance.bind fun _ => passesOver_rootOperations.bind fun _ => (passesOver_close _).bind fun _ =>
      passesOver_pure _).optional (looksAtSymbol_atMark _)).bind fun _ => passesOver_pure _
  exact (passesOver_extensionParts (List.forall_mem_cons.2
    ⟨passesOver_constantDirectives, List.forall_mem_singleton.2 hbody⟩)).bind fun _ => passesOver_pure _

theorem passesOver_of_extensionOf? {keyword : String} {p : TokenParser (Option Name)}
    (h : extensionOf? keyword = some p) : PassesOver p := by
  have hfields : PassesOver fieldDefinitions := passesOver_body passesOver_fieldDefinition
  have hvalues : PassesOver enumValueDefinitions := passesOver_body passesOver_enumValueDefinition
  have hinputs : PassesOver inputFieldDefinitions := passesOver_body passesOver_inputValueDefinition
  have hdirectives := passesOver_constantDirectives
  have hinterfaces := passesOver_implementsInterfaces
  have hmembers := passesOver_unionMembers
  unfold extensionOf? at h
  split at h
  · cases h
    exact passesOver_schemaExtension
  iterate 6
    · cases h
      exact passesOver_typeExtension (by simp [*])
  · cases h

/-- An extension looks for the word behind its keyword. -/
theorem passesOver_extension : PassesOver extension := by
  refine (passesOver_look seesAlike_second?).bind fun next => ?_
  cases hrest : next.bind fun t => extensionOf? t.text with
  | none => exact passesOver_fail _
  | some p =>
    obtain ⟨t, -, hp⟩ := Option.bind_eq_some_iff.1 hrest
    exact passesOver_advance.bind fun _ => passesOver_advance.bind fun _ => passesOver_of_extensionOf? hp

/-! ### Documents -/

theorem passesOver_typeSystemItem {p : TokenParser (Option Name)} (h : PassesOver p) : PassesOver (typeSystemItem p) :=
  (h.bind fun _ => passesOver_pure _).spanned

theorem passesOver_itemOf (word : String) : PassesOver (itemOf word) := by
  have hoperation : PassesOver operationItem := passesOver_operation.bind fun _ => passesOver_pure _
  unfold itemOf
  split
  iterate 4
    · exact hoperation
  · exact passesOver_fragment.bind fun _ => passesOver_pure _
  · exact passesOver_typeSystemItem passesOver_extension
  · exact passesOver_typeSystemItem passesOver_schemaDefinition
  · exact passesOver_typeSystemItem passesOver_scalarDefinition
  · exact passesOver_typeSystemItem passesOver_fieldsDefinition
  · exact passesOver_typeSystemItem passesOver_fieldsDefinition
  · exact passesOver_typeSystemItem passesOver_unionDefinition
  · exact passesOver_typeSystemItem passesOver_enumDefinition
  · exact passesOver_typeSystemItem passesOver_inputObjectDefinition
  · exact passesOver_typeSystemItem passesOver_directiveDefinition
  · exact passesOver_fail _

theorem passesOver_item : PassesOver item := by
  refine (passesOver_look seesAlike_token).bind fun t => ?_
  cases t.isString with
  | true =>
    refine (passesOver_look seesAlike_second?).bind fun next => ?_
    cases next with
    | none => exact passesOver_fail _
    | some t => exact passesOver_itemOf _
  | false =>
    exact (passesOver_require (looksAtSymbol_atName.or (looksAtSymbol_atMark _))).bind fun _ => passesOver_itemOf _

/-- **The grammar of documents passes over invalid tokens.** -/
theorem passesOver_documentItems : PassesOver documentItems :=
  (passesOver_require looksAtSymbol_atEnd.not).bind fun _ => passesOver_item.many looksAtSymbol_atEnd.not

end TokenParser

end QueryAid
