import QueryAid.Proofs.Lint.Validity
import QueryAid.Proofs.Schema.Growing
/-!
# Growing schemas and valid documents

A document that is valid for a schema stays valid when the schema grows (`Document.Valid.grows`). Each rule asks for
something that is there, and what is there stays. It is the types of the selection sets that need a second look: with
more fields and types around, a selection set could be made from other types than before. It is not, since the
document was valid, so that each of them was known already (`exists_typed_of_grown`).
-/

namespace QueryAid

/-! ### What is asked for -/

namespace Schema.GrowsInto

variable {s s' : Schema} (h : s.GrowsInto s')

include h

theorem allowsDirectives {location : DirectiveLocation} {uses : List DirectiveUse}
    (huses : s.AllowsDirectives location uses) : s'.AllowsDirectives location uses where
  each use huse := by
    obtain ⟨definition, hfind, hallows⟩ := huses.each use huse
    exact ⟨definition, h.directives _ _ hfind, hallows⟩
  repeated := huses.repeated.imp fun hrepeated hname => by
    obtain ⟨definition, hfind, hrepeatable⟩ := hrepeated hname
    exact ⟨definition, h.directives _ _ hfind, hrepeatable⟩

theorem isCompositeName {name : String} (hname : s.IsCompositeName name) : s'.IsCompositeName name := by
  obtain ⟨t, ht, hcomposite⟩ := hname
  obtain ⟨t', ht', hgrows⟩ := h.types name t ht
  exact ⟨t', ht', hgrows.isComposite.trans hcomposite⟩

theorem isInputName {name : String} (hname : s.IsInputName name) : s'.IsInputName name := by
  obtain ⟨t, ht, hinput⟩ := hname
  obtain ⟨t', ht', hgrows⟩ := h.types name t ht
  exact ⟨t', ht', hgrows.isInput.trans hinput⟩

/-- A field is the same one, and its type is composite if it was. -/
theorem allowsField {t t' : TypeDef} (ht : t.GrowsInto t') {head : FieldHead} {hasSelections : Bool}
    (hallows : s.AllowsField t head hasSelections) : s'.AllowsField t' head hasSelections := by
  obtain ⟨f, u, hf, harguments, hu, hcomposite⟩ := hallows
  obtain ⟨u', hu', hgrows⟩ := h.types _ u hu
  exact ⟨f, u', h.resolveField ht hf, harguments, hu', hcomposite.trans hgrows.isComposite.symm⟩

end Schema.GrowsInto

/-! ### Documents -/

namespace Document

variable {s s' : Schema} {d : Document} {set : SelectionSet}

/-- **A type of a selection set was grown from one,** if the document was valid before. -/
theorem exists_typed_of_grown (h : s.GrowsInto s') (hd : d.Valid s) {t' : TypeDef} (htyped : d.Typed s' set t') :
    ∃ t, d.Typed s set t ∧ t.GrowsInto t' := by
  induction htyped with
  | @operation o t' ho hroot' =>
    obtain ⟨t, hroot⟩ := hd.roots o ho
    obtain ⟨u, hu, hgrows⟩ := h.root? hroot
    obtain rfl : u = t' := Option.some.inj (hu.symm.trans hroot')
    exact ⟨t, .operation ho hroot, hgrows⟩
  | @fragment f t' hf hcondition' =>
    obtain ⟨t, hcondition, -⟩ := hd.fragmentConditions f hf
    obtain ⟨u, hu, hgrows⟩ := h.types _ t hcondition
    obtain rfl : u = t' := Option.some.inj (hu.symm.trans hcondition')
    exact ⟨t, .fragment hf hcondition, hgrows⟩
  | inherited _ hx hnone ih =>
    obtain ⟨t, ht, hgrows⟩ := ih
    exact ⟨t, .inherited ht hx hnone, hgrows⟩
  | @condition set inner head condition t' hset hx hsome hcondition' =>
    obtain ⟨t, hcondition, -⟩ := hd.inlineConditions set hset head inner hx condition hsome
    obtain ⟨u, hu, hgrows⟩ := h.types _ t hcondition
    obtain rfl : u = t' := Option.some.inj (hu.symm.trans hcondition')
    exact ⟨t, .condition hset hx hsome hcondition, hgrows⟩
  | @field set inner head t' u' f' _ hx hf' hu' ih =>
    obtain ⟨t, ht, hgrows⟩ := ih
    -- The field was there before, and is the same one.
    obtain ⟨f, u, hf, -, hu, -⟩ := hd.fields set t ht head (some inner) hx
    obtain rfl : f = f' := Option.some.inj ((h.resolveField hgrows hf).symm.trans hf')
    obtain ⟨v, hv, hgrown⟩ := h.types _ u hu
    obtain rfl : v = u' := Option.some.inj (hv.symm.trans hu')
    exact ⟨u, .field ht hx hf hu, hgrown⟩

/-- **A selection set keeps its type,** which may have grown. -/
theorem Typed.grows (h : s.GrowsInto s') {t : TypeDef} (htyped : d.Typed s set t) :
    ∃ t', d.Typed s' set t' ∧ t.GrowsInto t' := by
  induction htyped with
  | operation ho hroot =>
    obtain ⟨t', hroot', hgrows⟩ := h.root? hroot
    exact ⟨t', .operation ho hroot', hgrows⟩
  | fragment hf hcondition =>
    obtain ⟨t', hcondition', hgrows⟩ := h.types _ _ hcondition
    exact ⟨t', .fragment hf hcondition', hgrows⟩
  | inherited _ hx hnone ih =>
    obtain ⟨t', ht', hgrows⟩ := ih
    exact ⟨t', .inherited ht' hx hnone, hgrows⟩
  | condition hset hx hsome hcondition =>
    obtain ⟨t', hcondition', hgrows⟩ := h.types _ _ hcondition
    exact ⟨t', .condition hset hx hsome hcondition', hgrows⟩
  | field _ hx hf hu ih =>
    obtain ⟨t', ht', hgrows⟩ := ih
    obtain ⟨u', hu', hgrown⟩ := h.types _ _ hu
    exact ⟨u', .field ht' hx (h.resolveField hgrows hf) hu', hgrown⟩

/-- **A valid document stays valid when the schema grows.** -/
theorem Valid.grows (h : s.GrowsInto s') (hd : d.Valid s) : d.Valid s' where
  executable := hd.executable
  roots o ho := by
    obtain ⟨t, hroot⟩ := hd.roots o ho
    exact (h.root? hroot).imp fun _ => And.left
  operationDirectives o ho := h.allowsDirectives (hd.operationDirectives o ho)
  variableDirectives o ho v hv := h.allowsDirectives (hd.variableDirectives o ho v hv)
  fragmentDirectives f hf := h.allowsDirectives (hd.fragmentDirectives f hf)
  selectionDirectives set hset x hx := h.allowsDirectives (hd.selectionDirectives set hset x hx)
  variableTypes o ho v hv := h.isInputName (hd.variableTypes o ho v hv)
  fragmentConditions f hf := h.isCompositeName (hd.fragmentConditions f hf)
  inlineConditions set hset head inner hx condition hsome :=
    h.isCompositeName (hd.inlineConditions set hset head inner hx condition hsome)
  typed set hset := by
    obtain ⟨t, ht⟩ := hd.typed set hset
    exact (ht.grows h).imp fun _ => And.left
  fields set t' htyped head inner hx := by
    obtain ⟨t, ht, hgrows⟩ := exists_typed_of_grown h hd htyped
    exact h.allowsField hgrows (hd.fields set t ht head inner hx)
  spreads := hd.spreads
  variablesDefined := hd.variablesDefined
  variablesUsed := hd.variablesUsed

end Document

/-- **More sources bring no error to a document without errors,** if there is no schema block in them. -/
theorem validate_of_more_sources {sources more : List (Option String × String)} {s s' : Schema} {d : Document}
    (h : Schema.ofSources sources = .ok s) (h' : Schema.ofSources (sources ++ more) = .ok s')
    (hblocks : ∀ x ∈ more, ∀ block, .schema block ∉ Sources.definitionsIn x.2) (hd : validate s d = []) :
    validate s' d = [] := by
  rw [validate, sortErrors_eq_nil_iff] at hd ⊢
  have hvalid : d.Valid s := Validation.valid_of_checkDocument (Schema.fieldsHaveTypes h) hd
  have hgrows : s.GrowsInto s' := Schema.growsInto_of_ofSources h h' hblocks
  exact Validation.checkDocument_of_valid (Schema.fieldsHaveTypes h') (hvalid.grows hgrows)

/-- New fields of the root, a new root and a new directive do not harm a document that uses what was there. -/
theorem validate_of_extended_root : ∃ s s' d,
    Schema.ofSources [(none, "type Query { a(x: Int!): B } interface B { c: ID }")] = .ok s ∧
      Schema.ofSources ([(none, "type Query { a(x: Int!): B } interface B { c: ID }")] ++
        [(none, "extend type Query { d(x: I): Int } input I { e: Int } type Mutation { f: B } directive @g on FIELD"),
          (some "b", "extend interface B { h: Query }")]) = .ok s' ∧
      Document.parse "query($v: Int!) { ...F } fragment F on Query { a(x: $v) { c @skip(if: true) } }".toList = .ok d ∧
      validate s' d = [] := by
  have hvalidate : (do
      let s ← (Schema.ofSources [(none, "type Query { a(x: Int!): B } interface B { c: ID }")]).toOption
      let s' ← (Schema.ofSources ([(none, "type Query { a(x: Int!): B } interface B { c: ID }")] ++
        [(none, "extend type Query { d(x: I): Int } input I { e: Int } type Mutation { f: B } directive @g on FIELD"),
          (some "b", "extend interface B { h: Query }")])).toOption
      let d ← (Document.parse
        "query($v: Int!) { ...F } fragment F on Query { a(x: $v) { c @skip(if: true) } }".toList).toOption
      return validate s d) = some [] := by
    decide +kernel
  obtain ⟨s, hs, hvalidate⟩ := Option.bind_eq_some_iff.1 hvalidate
  obtain ⟨s', hs', hvalidate⟩ := Option.bind_eq_some_iff.1 hvalidate
  obtain ⟨d, hd, hvalidate⟩ := Option.bind_eq_some_iff.1 hvalidate
  have hnone : Sources.blocks (((Sources.definitionsIn
        "extend type Query { d(x: I): Int } input I { e: Int } type Mutation { f: B } directive @g on FIELD") ++
      Sources.definitionsIn "extend interface B { h: Query }").map ("", ·)) = [] := by
    decide +kernel
  refine ⟨s, s', d, eq_ok_of_toOption hs, eq_ok_of_toOption hs', eq_ok_of_toOption hd,
    validate_of_more_sources (eq_ok_of_toOption hs) (eq_ok_of_toOption hs') (fun x hx block hblock => ?_)
      (Option.some.inj hvalidate)⟩
  have hmem : ("", block) ∈ Sources.blocks (((Sources.definitionsIn
        "extend type Query { d(x: I): Int } input I { e: Int } type Mutation { f: B } directive @g on FIELD") ++
      Sources.definitionsIn "extend interface B { h: Query }").map ("", ·)) := by
    refine Sources.mem_blocks_iff.2 (List.mem_map_of_mem (List.mem_append.2 ?_))
    rcases List.mem_pair.1 hx with rfl | rfl
    · exact .inl hblock
    · exact .inr hblock
  rw [hnone] at hmem
  cases hmem

end QueryAid
