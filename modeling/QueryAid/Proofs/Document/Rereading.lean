import QueryAid.Proofs.Document.Items
import QueryAid.Proofs.Document.Reflecting
/-!
# The same tokens are read in the same way

Every rule of the grammar of documents reads at the image of a cursor what it reads at the cursor, at its place
(`Reflects`); there is one lemma for each rule. Only a field needs more care: it looks for the colon behind a name, and
does not see it behind a comma. Such a field ends in front of the colon, where no selection set can go on.
-/

namespace QueryAid

/-- Whether a colon is seen behind the current token. -/
def Cursor.colonSecond (c : Cursor) : Bool := c.second?.any fun t => t.isMark .colon

/-- A colon behind the current token is seen on both sides, unless a comma hides it at the image. -/
theorem Cursor.IsImage.colonSecond {σ : Placement} {c k : Cursor} (h : c.IsImage σ k) :
    c.colonSecond = k.colonSecond ∨
      c.colonSecond = false ∧ ∃ t, c.ahead.find? (fun t => !t.isInvalid) = some t ∧ t.isMark .colon = true := by
  rcases h.second?_rel with hnone | hrel
  · have hnotSeen : c.colonSecond = false := by rw [Cursor.colonSecond, hnone, Option.any_none]
    cases hseen : k.colonSecond with
    | false => exact .inl hnotSeen
    | true =>
      obtain ⟨u, hu, hcolon⟩ := (Option.any_eq_true _ _).1 hseen
      have hahead := Token.find?_valid_rel h.ahead
      rw [← h.second?_original, hu] at hahead
      generalize c.ahead.find? (fun t => !t.isInvalid) = found at hahead ⊢
      cases hahead with
      | @some t _ htu => exact .inr ⟨hnotSeen, t, rfl, htu.isMark .colon ▸ hcolon⟩
  · left
    unfold Cursor.colonSecond
    generalize c.second? = found, k.second? = found' at hrel
    cases hrel with
    | none => rfl
    | some htu => exact htu.isMark .colon

namespace TokenParser

open Cursor

variable {σ : Placement} {α β : Type} {constant : Bool} {room : Nat} {fault : SyntaxFault}

/-! ### Values -/

theorem filterMap_id_map (f : β → α) (found : List (Option β)) :
    (found.map (Option.map f)).filterMap id = (found.filterMap id).map f := by
  rw [List.filterMap_map, List.map_filterMap]
  rfl

theorem reflects_namedValue {item : TokenParser Value} (mk : Name → Value → Span → β) (place : β → β)
    (hplace : ∀ n v s, mk (n.place σ) (v.place σ) (σ.span s) = place (mk n v s))
    (hitem : ReflectsBy σ (Value.place σ) item) : ReflectsBy σ (Option.map place) (namedValue item mk) := by
  have hvalue := (reflects_advance.bind fun _ _ _ => hitem).optional (looksAtSymbol_atMark .colon)
  refine (reflects_name.bind fun _ n hn => hvalue.bind fun _ v hv => reflects_pure fun s => ?_).spanned
  subst hn hv
  cases v with
  | none => rfl
  | some v => exact congrArg some (hplace n v s)

theorem valueOfName_place (text : String) (s : Span) : valueOfName text (σ.span s) = (valueOfName text s).place σ := by
  unfold valueOfName
  split <;> rfl

section ValueWith

variable {item : TokenParser Value} (hitem : ReflectsBy σ (Value.place σ) item)

theorem reflects_literal {f : Span → Value} (hf : ∀ s, f (σ.span s) = (f s).place σ) :
    ReflectsBy σ (Value.place σ) (spanned (advance >>= fun _ => pure f)) :=
  (reflects_advance.bind fun _ _ _ => reflects_pure hf).spanned

include hitem

theorem reflects_valueWith : ReflectsBy σ (Value.place σ) (valueWith constant item) := by
  have hlist := hitem.many ((looksAtSymbol_atMark .rightBracket).not.and looksAtSymbol_atEnd.not)
  have hfield : ReflectsBy σ (Option.map (ObjectField.place σ)) (objectField item) :=
    reflects_namedValue ObjectField.mk (ObjectField.place σ) (fun _ _ _ => rfl) hitem
  have hfields := hfield.many looksAtSymbol_atName
  refine reflects_token.bind fun t u htu => ?_
  rw [htu.kind, htu.text]
  split
  · refine (reflects_require (looksAtSymbol_const _)).bind fun _ _ _ => (reflects_advance.bind fun _ _ _ =>
      reflects_name.bind fun _ n hn => reflects_pure fun s => ?_).spanned
    rw [hn]
    rfl
  · exact reflects_literal fun _ => rfl
  · exact reflects_literal fun _ => rfl
  · exact reflects_literal fun _ => rfl
  · exact reflects_literal (valueOfName_place _)
  · refine (reflects_advance.bind fun _ _ _ => hlist.bind fun _ items hitems =>
      (reflects_skip (looksAtSymbol_atMark _)).bind fun _ _ _ => reflects_pure fun s => ?_).spanned
    rw [hitems, Value.place, Value.placeList_eq_map]
  · refine (reflects_advance.bind fun _ _ _ => hfields.bind fun _ fields hfields =>
      (reflects_close _).bind fun _ _ _ => reflects_pure fun s => ?_).spanned
    rw [hfields, filterMap_id_map, Value.place, Value.placeFields_eq_map]
  · exact reflects_fail

end ValueWith

theorem reflects_value : ReflectsBy σ (Value.place σ) (value constant room) := by
  induction room with
  | zero => exact reflects_valueWith reflects_fail
  | succ room ih => exact reflects_valueWith ih

theorem reflects_default : ReflectsBy σ (Option.map (Value.place σ))
    (Parser.optional (atMark .equals) (advance >>= fun _ => value true nestingLimit)) :=
  (reflects_advance.bind fun _ _ _ => reflects_value).optional (looksAtSymbol_atMark _)

/-! ### Types -/

section TypeRefWith

variable {item : TokenParser TypeRef} (hitem : ReflectsBy σ (TypeRef.place σ) item)
include hitem

theorem reflects_listType : ReflectsBy σ (TypeRef.place σ) (listType item) := by
  refine (reflects_advance.bind fun _ _ _ => hitem.bind fun _ inner hinner =>
    (reflects_close _).bind fun _ _ _ => reflects_pure fun s => ?_).spanned
  rw [hinner]
  rfl

theorem reflects_typeRefWith : ReflectsBy σ (TypeRef.place σ) (typeRefWith fault item) := by
  -- What follows a type without its exclamation mark.
  have hbang (t u : TypeRef) (htu : t = u.place σ) : Reflects σ (fun g g' => ∀ s, g (σ.span s) = (g' s).place σ)
      (Parser.optional (atMark .bang) advance >>= fun bang =>
        pure fun s => if bang.isSome then t.nonNull s else t)
      (Parser.optional (atMark .bang) advance >>= fun bang =>
        pure fun s => if bang.isSome then u.nonNull s else u) := by
    refine (reflects_advance.optional (looksAtSymbol_atMark _)).bind fun _ found hfound => reflects_pure fun s => ?_
    subst htu hfound
    cases found <;> rfl
  refine ((reflects_look (looksAtSymbol_atMark _)).bind fun _ list hlist => ?_).spanned
  rw [hlist]
  cases list with
  | true => exact (reflects_listType hitem).bind hbang
  | false =>
    refine Reflects.bind (reflects_name.bind fun _ n hn => reflects_pure ?_) hbang
    rw [hn]
    rfl

end TypeRefWith

theorem reflects_typeRefAt : ReflectsBy σ (TypeRef.place σ) (typeRefAt fault room) := by
  induction room generalizing fault with
  | zero => exact reflects_typeRefWith reflects_fail
  | succ room ih => exact reflects_typeRefWith ih

theorem reflects_typeRef : ReflectsBy σ (TypeRef.place σ) typeRef :=
  (reflects_require (looksAtSymbol_atName.or (looksAtSymbol_atMark _))).bind fun _ _ _ => reflects_typeRefAt

/-! ### Arguments and directives -/

theorem reflects_arguments : ReflectsBy σ (List.map (Argument.place σ)) (arguments constant room) := by
  have hargument : ReflectsBy σ (Option.map (Argument.place σ)) (argument constant room) :=
    reflects_namedValue Argument.mk (Argument.place σ) (fun _ _ _ => rfl) reflects_value
  have hargs : ReflectsBy σ (List.map (Argument.place σ)) (Parser.many atName (argument constant room) >>=
      fun found => close .parenthesis >>= fun _ => pure (found.filterMap id)) := by
    refine (hargument.many looksAtSymbol_atName).bind fun _ found hfound =>
      (reflects_close _).bind fun _ _ _ => reflects_pure ?_
    rw [hfound, filterMap_id_map]
  refine Reflects.bind (Reflects.optional (reflects_advance.bind fun _ _ _ =>
    (reflects_require looksAtSymbol_atName).bind fun _ _ _ => hargs) (looksAtSymbol_atMark _))
    fun _ found hfound => reflects_pure ?_
  rw [hfound]
  cases found <;> rfl

theorem reflects_directive : ReflectsBy σ (DirectiveUse.place σ) (directive constant room) := by
  refine (reflects_advance.bind fun _ _ _ => reflects_name.bind fun _ n hn =>
    reflects_arguments.bind fun _ args hargs => reflects_pure fun s => ?_).spanned
  rw [hn, hargs]
  rfl

theorem reflects_directives : ReflectsBy σ (List.map (DirectiveUse.place σ)) (directives constant room) :=
  reflects_directive.many (looksAtSymbol_atMark _)

/-! ### Selections -/

theorem reflects_typeCondition : ReflectsBy σ (Name.place σ) typeCondition :=
  (reflects_expect (looksAtSymbol_atWord _)).bind fun _ _ _ => reflects_name

theorem reflects_spread : ReflectsBy σ (Selection.place σ) (spread room) := by
  refine (reflects_advance.bind fun _ _ _ => reflects_name.bind fun _ n hn =>
    reflects_directives.bind fun _ uses huses => reflects_pure fun s => ?_).spanned
  rw [hn, huses]
  rfl

section Nested

variable {nested : TokenParser SelectionSet}

/-- The rest of a field, when it is known whether it has a name of its own to answer under. -/
def fieldAfter (room : Nat) (nested : TokenParser SelectionSet) (aliased : Bool) :
    TokenParser (Span → Selection) := do
  let responseName ← Parser.optional (fun _ => aliased) do
    let n ← name .name
    advance
    return n
  let n ← name .name
  let args ← arguments false room
  let uses ← directives false room
  let set ← Parser.optional (atMark .leftBrace) nested
  return fun span => .field ⟨responseName, n, args, uses, span⟩ set

/-- Where a colon comes behind the name, a field without a name of its own ends in front of it. -/
theorem atMark_of_fieldAfter {c c' : Cursor} {g : Span → Selection} {t : Token}
    (ht : c.ahead.find? (fun t => !t.isInvalid) = some t) (hcolon : t.isMark .colon = true)
    (h : fieldAfter room nested false c = .ok (g, c')) : c'.atMark .colon = true := by
  obtain ⟨r, c₁, hresponse, h⟩ := Parser.bind_eq_ok_iff.1 h
  obtain ⟨n, c₂, hname, h⟩ := Parser.bind_eq_ok_iff.1 h
  obtain ⟨args, c₃, hargs, h⟩ := Parser.bind_eq_ok_iff.1 h
  obtain ⟨uses, c₄, huses, h⟩ := Parser.bind_eq_ok_iff.1 h
  obtain ⟨set, c₅, hset, h⟩ := Parser.bind_eq_ok_iff.1 h
  obtain ⟨-, rfl⟩ := Parser.pure_eq_ok_iff.1 h
  obtain ⟨-, rfl⟩ : none = r ∧ c = c₁ := Parser.pure_eq_ok_iff.1 hresponse
  have hmark : c₂.atMark .colon = true := by
    rw [atMark, token_eq_of_advance (name_eq_ok hname).2.2 ht]
    exact hcolon
  -- Nothing that can follow starts with a colon.
  have hother (m : Punctuator) (hm : m ≠ .colon) (hat : c₂.atMark m = true) : False := by
    have hkind : c₂.token.kind = .punctuator .colon := eq_of_beq hmark
    have hkind' : c₂.token.kind = .punctuator m := eq_of_beq hat
    exact hm (TokenKind.punctuator.inj (hkind'.symm.trans hkind))
  obtain rfl : c₂ = c₃ := by
    obtain ⟨found, c, hfound, hargs⟩ := Parser.bind_eq_ok_iff.1 hargs
    obtain ⟨-, rfl⟩ := Parser.pure_eq_ok_iff.1 hargs
    rcases Parser.optional_eq_ok_iff.1 hfound with ⟨hat, -⟩ | ⟨-, -, rfl⟩
    · exact (hother .leftParen (by decide) hat).elim
    · rfl
  obtain rfl : c₂ = c₄ := by
    cases Parser.manyRuns_of_eq_ok huses with
    | stop => rfl
    | last hat => exact (hother .atSign (by decide) hat).elim
    | step hat => exact (hother .atSign (by decide) hat).elim
  rcases Parser.optional_eq_ok_iff.1 hset with ⟨hat, -⟩ | ⟨-, -, rfl⟩
  · exact (hother .leftBrace (by decide) hat).elim
  · exact hmark

variable (hnested : ReflectsBy σ (SelectionSet.place σ) nested)
include hnested

theorem reflects_inlineFragment : ReflectsBy σ (Selection.place σ) (inlineFragment room nested) := by
  refine (reflects_advance.bind fun _ _ _ =>
    (reflects_typeCondition.optional looksAtSymbol_atName).bind fun _ condition hcondition =>
      reflects_directives.bind fun _ uses huses => (reflects_require (looksAtSymbol_atMark _)).bind fun _ _ _ =>
        hnested.bind fun _ set hset => reflects_pure fun s => ?_).spanned
  rw [hcondition, huses, hset]
  rfl

theorem reflects_fieldAfter {aliased : Bool} : Reflects σ (fun g g' => ∀ s, g (σ.span s) = (g' s).place σ)
    (fieldAfter room nested aliased) (fieldAfter room nested aliased) := by
  have hresponse : ReflectsBy σ (Name.place σ) (name .name >>= fun n => advance >>= fun _ => pure n) :=
    reflects_name.bind fun _ _ hn => reflects_advance.bind fun _ _ _ => reflects_pure hn
  refine (hresponse.optional (looksAtSymbol_const aliased)).bind fun _ r hr => reflects_name.bind fun _ n hn =>
    reflects_arguments.bind fun _ args hargs => reflects_directives.bind fun _ uses huses =>
      (hnested.optional (looksAtSymbol_atMark _)).bind fun _ set hset => reflects_pure fun s => ?_
  rw [hr, hn, hargs, huses, hset]
  cases set <;> rfl

/-- **A field is read at its place,** unless it gets stuck in front of a colon that it does not see behind a comma. -/
theorem reflectsUnless_field : ReflectsUnless σ (fun c => c.atMark .colon = true) (fun x y => x = y.place σ)
    (field room nested) (field room nested) := by
  intro c k x c' hc h
  obtain ⟨g, hg, rfl⟩ := spanned_eq_ok_iff.1 h
  obtain ⟨aliased, c₁, hlook, hafter⟩ := Parser.bind_eq_ok_iff.1 hg
  obtain ⟨rfl, rfl⟩ := Parser.look_eq_ok_iff.1 hlook
  change fieldAfter room nested c.colonSecond c = .ok (g, c') at hafter
  rcases hc.colonSecond with hsame | ⟨hnotSeen, t, ht, hcolon⟩
  · left
    rw [hsame] at hafter
    obtain ⟨g', k', hg', hgg, hc'⟩ := reflects_fieldAfter hnested hc hafter
    have hfield : (Parser.look colonSecond >>= fieldAfter room nested) k = .ok (g', k') :=
      Parser.bind_eq_ok_iff.2 ⟨_, k, rfl, hg'⟩
    rw [hc.span_eq hc']
    exact ⟨_, k', spanned_eq_ok_iff.2 ⟨g', hfield, rfl⟩, hgg _, hc'⟩
  · right
    rw [hnotSeen] at hafter
    exact atMark_of_fieldAfter ht hcolon hafter

/-- A selection is read at its place, unless it gets stuck. -/
theorem reflectsUnless_selection : ReflectsUnless σ (fun c => c.atMark .colon = true) (fun x y => x = y.place σ)
    (selection room nested) (selection room nested) := by
  refine (reflects_look (looksAtSymbol_atMark _)).bind_unless fun _ spreading hspreading => ?_
  rw [hspreading]
  cases spreading with
  | false => exact reflectsUnless_field hnested
  | true =>
    refine Reflects.unless _ (reflects_second?.bind fun a b hab => ?_)
    rcases hab with rfl | hab
    · exact reflects_fail
    cases hab with
    | none => exact reflects_fail
    | @some t u htu =>
      dsimp only
      rw [htu.isName, htu.isMark, htu.isMark, htu.text]
      cases u.isName && u.text != "on" with
      | true => exact reflects_spread
      | false =>
        cases u.isName || u.isMark .atSign || u.isMark .leftBrace with
        | true => exact reflects_inlineFragment hnested
        | false => exact reflects_fail

/-- **Selections in braces never get stuck,** because no brace closes them in front of a colon. -/
theorem reflects_selections : ReflectsBy σ (List.map (Selection.place σ)) (selections room nested) := by
  have hstarts : LooksAtSymbol startsSelection := (looksAtSymbol_atMark _).or looksAtSymbol_atName
  have hstop (c : Cursor) (hc : c.atMark .colon = true) : c.token.kind = .punctuator .colon := eq_of_beq hc
  refine (reflects_require hstarts).bind fun _ _ _ => ((reflectsUnless_selection hnested).many hstarts ?_).bind
    (fun _ _ hfound => (reflects_close _).bind fun _ _ _ => reflects_pure hfound) ?_
  · intro c hc
    rw [startsSelection, atMark, atName, Token.isMark, Token.isName, hstop c hc]
    rfl
  · intro found c x c' hc h
    obtain ⟨u, c₁, hclose, h⟩ := Parser.bind_eq_ok_iff.1 h
    have hmark := (expect_eq_ok hclose).1
    rw [atMark, Token.isMark, hstop c hc] at hmark
    cases hmark

end Nested

/-- **A selection set is read at its place.** -/
theorem reflects_selectionSet : ReflectsBy σ (SelectionSet.place σ) (selectionSet room) := by
  induction room with
  | zero => exact Reflects.bind reflects_advance fun _ _ _ => reflects_fail
  | succ room ih =>
    refine Reflects.spanned (reflects_advance.bind fun _ _ _ => (reflects_selections ih).bind fun _ found hfound =>
      reflects_pure fun s => ?_)
    rw [hfound, SelectionSet.place, Selection.placeList_eq_map]

/-! ### Definitions -/

theorem reflects_variableDefinition : ReflectsBy σ (VariableDefinition.place σ) variableDefinition := by
  have hvariable : ReflectsBy σ (fun b => (b.1.place σ, σ.span b.2))
      (spanned (advance >>= fun _ => name .name >>= fun n => pure fun span => (n, span))) := by
    refine (reflects_advance.bind fun _ _ _ => reflects_name.bind fun _ n hn => reflects_pure fun s => ?_).spanned
    rw [hn]
  refine (hvariable.bind fun _ b hb => (reflects_expect (looksAtSymbol_atMark _)).bind fun _ _ _ =>
    reflects_typeRef.bind fun _ type htype => reflects_default.bind fun _ default hdefault =>
      reflects_directives.bind fun _ uses huses => reflects_pure fun s => ?_).spanned
  rw [hb, htype, hdefault, huses]
  rfl

theorem reflects_variableDefinitions : ReflectsBy σ (List.map (VariableDefinition.place σ)) variableDefinitions := by
  have hdefined : ReflectsBy σ (List.map (VariableDefinition.place σ))
      (Parser.many (atMark .dollar) variableDefinition >>= fun found => close .parenthesis >>= fun _ => pure found) :=
    (reflects_variableDefinition.many (looksAtSymbol_atMark _)).bind fun _ _ hfound =>
      (reflects_close _).bind fun _ _ _ => reflects_pure hfound
  refine Reflects.bind (Reflects.optional (reflects_advance.bind fun _ _ _ =>
    (reflects_require (looksAtSymbol_atMark _)).bind fun _ _ _ => hdefined) (looksAtSymbol_atMark _))
    fun _ found hfound => reflects_pure ?_
  rw [hfound]
  cases found <;> rfl

theorem reflects_operation : ReflectsBy σ (Operation.place σ) operation := by
  refine (reflects_token.bind fun t u htu => ?_).spanned
  rw [htu.isName, htu.text]
  cases u.isName with
  | true =>
    refine reflects_advance.bind fun _ _ _ => (reflects_name.optional looksAtSymbol_atName).bind fun _ n hn =>
      reflects_variableDefinitions.bind fun _ defined hdefined => reflects_directives.bind fun _ uses huses =>
        (reflects_require (looksAtSymbol_atMark _)).bind fun _ _ _ => Reflects.bind reflects_selectionSet
          fun _ set hset => reflects_pure fun s => ?_
    rw [hn, hdefined, huses, hset]
    rfl
  | false =>
    refine (reflects_require (looksAtSymbol_atMark _)).bind fun _ _ _ => Reflects.bind reflects_selectionSet
      fun _ set hset => reflects_pure fun s => ?_
    rw [hset]
    rfl

theorem reflects_fragment : ReflectsBy σ (Fragment.place σ) fragment := by
  refine (reflects_advance.bind fun _ _ _ => (reflects_require (looksAtSymbol_atWord _).not).bind fun _ _ _ =>
    reflects_name.bind fun _ n hn => reflects_typeCondition.bind fun _ condition hcondition =>
      reflects_directives.bind fun _ uses huses => (reflects_require (looksAtSymbol_atMark _)).bind fun _ _ _ =>
        Reflects.bind reflects_selectionSet fun _ set hset => reflects_pure fun s => ?_).spanned
  rw [hn, hcondition, huses, hset]
  rfl

end TokenParser

end QueryAid
