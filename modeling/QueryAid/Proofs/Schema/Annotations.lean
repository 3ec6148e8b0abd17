import QueryAid.Proofs.GuardedFold
import QueryAid.Proofs.Sdl.ReadOff
import QueryAid.Proofs.Sdl.WrittenTypes
import QueryAid.Schema.TypeAnnotation
/-!
# Annotations and written types

An annotation keeps one flag for each layer, and a written type has exclamation marks behind the layers instead.
`TypeAnnotation.expression` is the type that stands for an annotation, and `TypeAnnotation.ofExpression` leads back from
it (`ofExpression_expression`). The text of an annotation is that type as it is written (`written_expression`), and
whatever type is written, the text of its annotation is what was written (`toList_text_ofExpression`). Together these
say that writing an annotation and reading a type are inverse (`text_ofExpression_inverse`).
-/

namespace QueryAid

namespace TypeAnnotation

variable {a b : TypeAnnotation} {e : Sdl.TypeExpression} {cs : List Char}

/-! ### The type that stands for an annotation -/

/-- **The type that stands for an annotation:** a layer without null has an exclamation mark behind. -/
def expression : TypeAnnotation → Sdl.TypeExpression
  | named name n => if n then .named name else .nonNull (.named name)
  | list inner n => if n then .list inner.expression else .nonNull (.list inner.expression)

/-- The flag of the outermost layer is gone with the mark behind it, and those of the layers inside are kept. -/
theorem ofExpression_expression (a : TypeAnnotation) : ofExpression a.expression = a := by
  induction a with
  | named name n => cases n <;> rfl
  | list inner n ih =>
    have hlist : ofExpression (.list inner.expression) = list inner true := by rw [ofExpression, ih]
    cases n with
    | true => exact hlist
    | false =>
      show (ofExpression (.list inner.expression)).nonNull = list inner false
      rw [hlist]
      rfl

/-! ### Texts -/

theorem toList_text_named (name : String) (n : Bool) :
    (named name n).text.toList = name.toList ++ if n then [] else ['!'] := by
  cases n <;> simp [text]

theorem toList_text_list (inner : TypeAnnotation) (n : Bool) :
    (list inner n).text.toList = '[' :: (inner.text.toList ++ [']']) ++ if n then [] else ['!'] := by
  cases n <;> simp [text]

/-- **The text of an annotation is the type that stands for it,** as it is written. -/
theorem written_expression (h : isIdentifier a.namedType = true) : a.expression.Written a.text.toList := by
  induction a with
  | named name n =>
    have hnamed : (Sdl.TypeExpression.named name).Written name.toList := .named h
    rw [toList_text_named]
    cases n with
    | true =>
      show (Sdl.TypeExpression.named name).Written (name.toList ++ [])
      rw [List.append_nil]
      exact hnamed
    | false => exact hnamed.nonNull rfl
  | list inner n ih =>
    have hlist := (ih h).list
    rw [toList_text_list]
    cases n with
    | true =>
      show (Sdl.TypeExpression.list inner.expression).Written ('[' :: (inner.text.toList ++ [']']) ++ [])
      rw [List.append_nil]
      exact hlist
    | false => exact hlist.nonNull rfl

/-- The outermost layer of a type has null among its values unless there is an exclamation mark behind it. -/
theorem nullable_ofExpression (e : Sdl.TypeExpression) : (ofExpression e).nullable = e.isPlain := by
  cases e with
  | named | list => rfl
  | nonNull inner =>
    show (ofExpression inner).nonNull.nullable = false
    cases ofExpression inner <;> rfl

theorem toList_text_nonNull (h : a.nullable = true) : a.nonNull.text.toList = a.text.toList ++ ['!'] := by
  cases a with
  | named name n =>
    obtain rfl : n = true := h
    simp [nonNull, text]
  | list inner n =>
    obtain rfl : n = true := h
    simp [nonNull, text]

/-- **The annotation of a written type has what is written as its text.** -/
theorem toList_text_ofExpression (h : e.Written cs) : (ofExpression e).text.toList = cs := by
  induction h with
  | named => simp [ofExpression, text]
  | list _ ih => simp [ofExpression, text, ih]
  | @nonNull inner cs _ hplain ih =>
    -- A second mark would be lost in the flag, but there is none in a written type.
    rw [ofExpression, toList_text_nonNull ((nullable_ofExpression inner).trans hplain), ih]

/-- A text is the text of one annotation of a name at most. -/
theorem eq_of_text_eq (ha : isIdentifier a.namedType = true) (hb : isIdentifier b.namedType = true)
    (h : a.text = b.text) : a = b := by
  have hwritten := written_expression hb
  rw [← h] at hwritten
  rw [← ofExpression_expression a, (written_expression ha).unique hwritten, ofExpression_expression]

/-! ### Main result -/

/-- **Writing an annotation and reading a type are inverse.** The text of an annotation of a name is the written form of
exactly one type, which is what is read there unless its brackets are nested too deep, and the annotation of that type
is the annotation itself. Each type in the definitions of a source is spelled by consecutive tokens of the source, and
the text of its annotation is those tokens, with nothing between them. So two annotations do not have the same text. -/
theorem text_ofExpression_inverse :
    (∀ a : TypeAnnotation, isIdentifier a.namedType = true → ∃ e : Sdl.TypeExpression,
      (∀ e' : Sdl.TypeExpression, e'.Written a.text.toList ↔ e' = e) ∧ ofExpression e = a ∧
        (e.depth ≤ Sdl.bracketLimit → e.IsReadIn a.text.toList)) ∧
    (∀ (source : List Char) (ds : List Sdl.Definition), Sdl.parse source = .ok ds →
      ∀ d ∈ ds, ∀ e : Sdl.TypeExpression, .type e ∈ d.mentions → ∃ used, used <:+: Sdl.tokens source ∧
        e.Spelled used ∧ (ofExpression e).text.toList = used.flatMap Sdl.Token.text) ∧
    ∀ a b : TypeAnnotation, isIdentifier a.namedType = true → isIdentifier b.namedType = true → a.text = b.text →
      a = b := by
  refine ⟨fun a ha => ?_, fun source ds hparse d hd e he => ?_, fun a b ha hb h => eq_of_text_eq ha hb h⟩
  · have hwritten := written_expression ha
    refine ⟨a.expression, fun e' => ⟨fun he' => he'.unique hwritten, ?_⟩, ofExpression_expression a,
      Sdl.isReadIn_of_written hwritten⟩
    rintro rfl
    exact hwritten
  · obtain ⟨used, hused, hspelled⟩ := Sdl.readOff_of_parse hparse hd (.type e) he
    exact ⟨used, hused, hspelled, toList_text_ofExpression (Sdl.written_of_spelled hused hspelled)⟩

/-- A list of lists, with marks behind the name and behind the outer list but not between them. -/
theorem text_ofExpression_inverse_of_nested_list :
    (∃ e : Sdl.TypeExpression, e.Written "[[String!]]!".toList ∧
      ofExpression e = list (list (named "String" false) true) false ∧
      e.IsReadIn "[[String!]]!".toList) ∧
    (∃ used, used <:+: Sdl.tokens "type T { f(a: Int): [ [String ! ], ] ! }".toList ∧
      "[[String!]]!".toList = used.flatMap Sdl.Token.text) ∧
    (list (named "String" false) true).text ≠ (list (named "String" true) false).text := by
  obtain ⟨hwrite, hread, hdistinct⟩ := text_ofExpression_inverse
  refine ⟨?_, ?_, ?_⟩
  · obtain ⟨e, hunique, hannotation, hdepth⟩ :=
      hwrite (list (list (named "String" false) true) false) (by decide +kernel)
    have hwritten : e.Written "[[String!]]!".toList := (hunique e).2 rfl
    have he := (hunique _).1 (written_expression (by decide +kernel))
    exact ⟨e, hwritten, hannotation, hdepth (by rw [← he]; decide)⟩
  · have hfound : ((Sdl.parse "type T { f(a: Int): [ [String ! ], ] ! }".toList).toOption.any fun ds =>
        ds.any fun d => d.mentions.contains (.type (.nonNull (.list (.list (.nonNull (.named "String"))))))) = true := by
      decide +kernel
    obtain ⟨ds, hparse, hfound⟩ := (Option.any_eq_true _ _).1 hfound
    obtain ⟨d, hd, hfound⟩ := List.any_eq_true.1 hfound
    obtain ⟨used, hused, -, htext⟩ :=
      hread _ ds (eq_ok_of_toOption hparse) d hd _ (List.contains_iff_mem.1 hfound)
    exact ⟨used, hused, htext⟩
  · exact fun h => absurd (hdistinct _ _ (by decide +kernel) (by decide +kernel) h) (by decide)

end TypeAnnotation

end QueryAid
