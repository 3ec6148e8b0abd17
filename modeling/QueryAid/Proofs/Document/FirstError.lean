import QueryAid.Proofs.Document.PassingRules
import Mathlib.Data.List.MinMax
/-!
# The first of all errors

Reading stops at the first error. A parser that does not stop has a report of errors at its end: of pieces of the source
that are no tokens, of what the grammar refuses, and of what else it makes of the rest (`IsReport`). Of these errors the
one with the least index is the one that reading stops with, and where nothing is reported, the source is a document
(`Document.firstError_of_report`). The error shows at the first token that ends behind its index
(`SyntaxError.ShowsAt`).

The grammar of such a parser does not see invalid tokens; that this makes no difference in front of the first error is
what the modules before this one say.
-/

namespace QueryAid

/-! ### Reports -/

/-- **An error in the report of a parser:** what is wrong, and at which byte offset. -/
structure ParserError where
  reason : String
  index : Nat
  deriving DecidableEq

/-- The error that an invalid token is. -/
def Token.lexicalError? (t : Token) : Option ParserError :=
  match t.kind with
  | .invalid fault => some ⟨fault.message, t.span.start⟩
  | _ => none

/-- The errors of the lexer: one for each piece of the source that is no token. -/
def lexicalErrors (source : List Char) : List ParserError := (tokens source).filterMap Token.lexicalError?

/-- The cursor at the start of a source of which the invalid pieces are left out. -/
def Cursor.ofValid (source : List Char) : Cursor :=
  match (tokens source).filter fun t => !t.isInvalid with
  | [] => ⟨endToken source, [], 0⟩
  | t :: ts => ⟨t, ts ++ [endToken source], 0⟩

/-- The first error of the grammar, which does not see invalid pieces. -/
def grammarError? (source : List Char) : Option ParserError :=
  match TokenParser.documentItems (Cursor.ofValid source) with
  | .ok _ => none
  | .error e => some ⟨e.reason, e.found.span.start⟩

/-- **The report of a parser that reads on behind errors.** As it reads from left to right, it has met what is no token
in front of the first error of the grammar, and what it reports after that error does not lie in front of it. -/
structure IsReport (source : List Char) (errors : List ParserError) : Prop where
  lexical : ∀ x ∈ lexicalErrors source, (∀ g ∈ grammarError? source, x.index < g.index) → x ∈ errors
  order : ∃ before behind, errors = before ++ (grammarError? source).toList ++ behind ∧
    (∀ x ∈ before, x ∈ lexicalErrors source) ∧
    ∀ x ∈ behind, x ∈ lexicalErrors source ∨ ∃ g ∈ grammarError? source, g.index ≤ x.index

/-- **A description quotes a text** behind a word for what it is. A string brings quotes of its own. -/
def Quotes (description text : String) : Prop :=
  description = "String " ++ text ∨
    ∃ label ∈ ["", "Float ", "Int ", "Name "], description = label ++ "\"" ++ text ++ "\""

/-- **An error shows at the first token that ends behind an offset,** and describes it by its text; where there is no
such token, it shows at the end of the source. -/
structure SyntaxError.ShowsAt (e : SyntaxError) (source : List Char) (offset : Nat) : Prop where
  start_le_stop : e.span.start ≤ e.span.stop
  stop_le_byteLength : e.span.stop ≤ byteLength source
  isBoundary_start : isBoundary source e.span.start = true
  isBoundary_stop : isBoundary source e.span.stop = true
  found : match (tokens source).find? fun t => offset < t.span.stop with
    | some t => e.span = t.span ∧ e.unexpected = t.description ∧
        ∃ text, e.span.text? source = some text ∧ Quotes e.unexpected (String.ofList text)
    | none => e.span = Span.emptyAt (byteLength source) ∧ e.unexpected = "<EOF>"

variable {source : List Char} {errors : List ParserError} {x : ParserError} {t : Token} {e : SyntaxError}

theorem Token.description_quotes (h : t.isEnd = false) : Quotes t.description t.text := by
  unfold description
  split
  · next hkind =>
    rw [isEnd, hkind] at h
    cases h
  · exact .inr ⟨"Float ", by simp, by simp [toString]⟩
  · exact .inr ⟨"Int ", by simp, by simp [toString]⟩
  · exact .inr ⟨"Name ", by simp, by simp [toString]⟩
  · exact .inl (by simp [toString])
  · exact .inr ⟨"", by simp, by simp [toString]⟩
  · exact .inr ⟨"", by simp, by simp [toString]⟩

theorem Token.isInvalid_of_kind {fault : LexicalFault} (h : t.kind = .invalid fault) : t.isInvalid = true := by
  rw [isInvalid, h]

theorem mem_lexicalErrors_iff :
    x ∈ lexicalErrors source ↔
      ∃ t ∈ tokens source, ∃ fault, t.kind = .invalid fault ∧ x = ⟨fault.message, t.span.start⟩ := by
  rw [lexicalErrors, List.mem_filterMap]
  refine exists_congr fun t => and_congr_right fun _ => ?_
  unfold Token.lexicalError?
  split
  · next fault hkind => simp [hkind, eq_comm]
  · next hkind => simpa using fun fault h => (hkind fault h).elim

/-! ### Where errors show -/

/-- All tokens of a source, the end among them, stand one behind the other, and only the end takes no place. -/
theorem pairwise_tokens_end (source : List Char) :
    (tokens source ++ [endToken source]).Pairwise fun t u =>
      t.span.start < t.span.stop ∧ t.span.stop ≤ u.span.start := by
  have hplace : ∀ t ∈ tokens source, t.span.start < t.span.stop := fun t ht =>
    (covers_of_mem_tokens ht).1.start_lt_stop (covers_of_mem_tokens ht).2
  refine List.pairwise_append.2 ⟨?_, List.pairwise_singleton _ _, fun t ht u hu => ?_⟩
  · exact (pairwise_tokens source).imp_of_mem fun ht _ hle => ⟨hplace _ ht, hle⟩
  · rw [List.mem_singleton.1 hu]
    exact ⟨hplace t ht, (covers_of_mem_tokens ht).1.stop_le_byteLength⟩

theorem start_lt_of_behind {done behind : List Token} {u : Token}
    (hall : tokens source ++ [endToken source] = done ++ t :: behind) (hu : u ∈ behind) :
    t.span.start < u.span.start := by
  have hpairs := pairwise_tokens_end source
  rw [hall, List.pairwise_append, List.pairwise_cons] at hpairs
  exact (hpairs.2.1.1 u hu).1.trans_le (hpairs.2.1.1 u hu).2

/-- **An error shows at the token where it was found,** wherever that is. -/
theorem SyntaxError.showsAt_found {done behind : List Token}
    (hall : tokens source ++ [endToken source] = done ++ e.found :: behind) : e.ShowsAt source e.found.span.start := by
  have hpairs := pairwise_tokens_end source
  rw [hall, List.pairwise_append] at hpairs
  -- Nothing in front of the token ends behind its start.
  have hdone : ∀ t ∈ done, ¬ e.found.span.start < t.span.stop := fun t ht =>
    Nat.not_lt.2 (hpairs.2.2 t ht e.found List.mem_cons_self).2
  rcases List.eq_nil_or_concat behind with rfl | ⟨behind, last, rfl⟩
  · obtain ⟨htokens, hend⟩ := List.append_inj' hall rfl
    have hfound : e.found = endToken source := (List.head_eq_of_cons_eq hend).symm
    have hspan : e.span = Span.emptyAt (byteLength source) := by rw [span, hfound]; rfl
    have hnone : (tokens source).find? (fun t => e.found.span.start < t.span.stop) = none :=
      List.find?_eq_none.2 fun t ht => by simpa using hdone t (htokens ▸ ht)
    have hcovers : e.span.Covers source [] := by
      rw [hspan]
      exact ⟨source, [], (List.append_nil source).symm, rfl, rfl⟩
    refine ⟨hcovers.start_le_stop, hcovers.stop_le_byteLength, hcovers.isBoundary_start, hcovers.isBoundary_stop, ?_⟩
    rw [hnone]
    exact ⟨hspan, by rw [unexpected, hfound]; rfl⟩
  · -- The last of all is the end of the source, so that the token is another one.
    have hsplit : tokens source ++ [endToken source] = (done ++ e.found :: behind) ++ [last] := by
      rw [hall]
      simp
    have htokens : tokens source = done ++ e.found :: behind := (List.append_inj' hsplit rfl).1
    have hmem : e.found ∈ tokens source := by
      rw [htokens]
      exact List.mem_append_right done List.mem_cons_self
    obtain ⟨hcovers, hne⟩ := covers_of_mem_tokens hmem
    have hsome : (tokens source).find? (fun t => e.found.span.start < t.span.stop) = some e.found := by
      refine List.find?_eq_some_iff_append.2 ⟨decide_eq_true (hcovers.start_lt_stop hne), done, behind, htokens, ?_⟩
      intro t ht
      simpa using hdone t ht
    refine ⟨hcovers.start_le_stop, hcovers.stop_le_byteLength, hcovers.isBoundary_start, hcovers.isBoundary_stop, ?_⟩
    rw [hsome]
    refine ⟨rfl, rfl, e.found.text.toList, Span.text?_eq_some_iff.2 hcovers, ?_⟩
    rw [String.ofList_toList]
    exact Token.description_quotes (isEnd_of_mem_tokens hmem)

/-! ### Where reading stops -/

theorem Cursor.rest_ofValid (source : List Char) :
    (Cursor.ofValid source).rest = (tokens source ++ [endToken source]).filter fun t => !t.isInvalid := by
  have hend : [endToken source].filter (fun t => !t.isInvalid) = [endToken source] := rfl
  unfold Cursor.ofValid
  rw [List.filter_append, hend]
  split
  · next hnil =>
    rw [hnil]
    rfl
  · next t ts hcons =>
    rw [hcons]
    rfl

/-- At the start of a source that begins with a token, invalid pieces can be left out. -/
theorem Cursor.isWithout_ofValid {c : Cursor} (h : Cursor.ofSource source = .ok c) :
    Cursor.IsWithout (tokens source ++ [endToken source]) c (Cursor.ofValid source) := by
  have hrest := Cursor.ofSource_eq_ok h
  have hstart : c.token.isInvalid = false ∧ c.readTo = 0 := by
    unfold Cursor.ofSource at h
    split at h <;>
    · obtain ⟨hvalid, rfl⟩ := TokenParser.onto_eq_ok_iff.1 h
      exact ⟨hvalid, rfl⟩
  have hreadTo : (Cursor.ofValid source).readTo = 0 := by
    unfold Cursor.ofValid
    split <;> rfl
  have hwithout : (Cursor.ofValid source).rest = c.token :: c.ahead.filter fun t => !t.isInvalid := by
    rw [Cursor.rest_ofValid, ← hrest, Cursor.rest, List.filter_cons, if_pos (by rw [hstart.1]; rfl)]
  exact {
    done := ⟨[], hrest.symm, nofun⟩
    last := ⟨endToken source, by simp, rfl⟩
    valid := hstart.1
    token := List.head_eq_of_cons_eq hwithout
    ahead := List.tail_eq_of_cons_eq hwithout
    readTo := hreadTo.trans hstart.2.symm }

theorem Cursor.ofSource_eq_error (h : Cursor.ofSource source = .error e) :
    ∃ behind fault, tokens source ++ [endToken source] = e.found :: behind ∧ e.found.kind = .invalid fault ∧
      e.reason = fault.message := by
  have honto : ∀ t ahead, Cursor.onto 0 t ahead = .error e →
      e.found = t ∧ ∃ fault, t.kind = .invalid fault ∧ e.reason = fault.message := by
    intro t ahead h
    unfold Cursor.onto at h
    split at h
    · next fault hkind =>
      cases h
      exact ⟨rfl, fault, hkind, rfl⟩
    · cases h
  unfold Cursor.ofSource at h
  split at h
  · next hnil =>
    obtain ⟨hfound, fault, hkind, hreason⟩ := honto _ _ h
    exact ⟨[], fault, by rw [hnil, hfound]; rfl, hfound ▸ hkind, hreason⟩
  · next t ts hcons =>
    obtain ⟨hfound, fault, hkind, hreason⟩ := honto _ _ h
    exact ⟨ts ++ [endToken source], fault, by rw [hcons, hfound]; rfl, hfound ▸ hkind, hreason⟩

theorem index_of_grammarError {good : Token → Prop}
    (h : TokenParser.LiesAmong good (TokenParser.documentItems (Cursor.ofValid source))) :
    ∀ g ∈ grammarError? source, ∃ t, good t ∧ g.index = t.span.start := by
  intro g hg
  unfold grammarError? at hg
  split at hg
  · cases hg
  · next e hread =>
    cases hg
    rw [hread] at h
    exact ⟨e.found, h, rfl⟩

/-- **Where reading stops, nothing invalid lies in front.** There is either the first error of the grammar, or an
invalid token, behind which the grammar has its first error, if it has one. -/
theorem Document.stops_of_parse (h : Document.parse source = .error e) :
    ∃ done behind, tokens source ++ [endToken source] = done ++ e.found :: behind ∧
      (∀ t ∈ done, t.isInvalid = false) ∧
      (e.found.isInvalid = false ∧ grammarError? source = some ⟨e.reason, e.found.span.start⟩ ∨
        (∃ fault, e.found.kind = .invalid fault ∧ e.reason = fault.message) ∧
          ∀ g ∈ grammarError? source, ∃ t ∈ behind, g.index = t.span.start) := by
  have hpasses := TokenParser.passesOver_documentItems
  unfold Document.parse at h
  cases hcursor : Cursor.ofSource source with
  | error e' =>
    rw [hcursor] at h
    cases h
    obtain ⟨behind, fault, hall, hkind, hreason⟩ := Cursor.ofSource_eq_error hcursor
    refine ⟨[], behind, hall, nofun, .inr ⟨⟨fault, hkind, hreason⟩, index_of_grammarError (hpasses.liesAmong ?_)⟩⟩
    have hinvalid := Token.isInvalid_of_kind hkind
    rw [Cursor.rest_ofValid, hall, List.filter_cons, if_neg (by rw [hinvalid]; exact Bool.false_ne_true)]
    exact fun t ht => (List.mem_filter.1 ht).1
  | ok c =>
    have hagree := hpasses.agree (Cursor.isWithout_ofValid hcursor)
    rw [hcursor] at h
    cases hitems : TokenParser.documentItems c with
    | ok r =>
      simp only [bind, Except.bind, hitems] at h
      cases h
    | error e' =>
      simp only [bind, Except.bind, hitems] at h
      cases h
      rw [hitems] at hagree
      generalize hread : TokenParser.documentItems (Cursor.ofValid source) = r at hagree
      cases hagree with
      | error hall hdone hvalid =>
        have hgrammar : grammarError? source = some ⟨e.reason, e.found.span.start⟩ := by rw [grammarError?, hread]
        exact ⟨_, _, hall, hdone, .inl ⟨hvalid, hgrammar⟩⟩
      | @stopped t fault done behind r hall hdone hkind hr =>
        exact ⟨done, behind, hall, hdone, .inr ⟨⟨fault, hkind, rfl⟩, index_of_grammarError (hread ▸ hr)⟩⟩

/-- **Where reading does not stop,** nothing is invalid and the grammar has no error. -/
theorem Document.no_errors_of_parse {d : Document} (h : Document.parse source = .ok d) :
    lexicalErrors source = [] ∧ grammarError? source = none := by
  obtain ⟨c, items, c', hcursor, hitems, -⟩ := Document.exists_items_of_parse h
  have hsound := Cursor.sound_ofSource hcursor
  have hreaches := (TokenParser.documentItems_spells hsound hitems).1.reaches
  have hahead := ((hsound.of_reaches hreaches).ahead_eq_nil_iff).2 (TokenParser.documentItems_spells hsound hitems).2
  have hagree := TokenParser.passesOver_documentItems.agree (Cursor.isWithout_ofValid hcursor)
  rw [hitems] at hagree
  generalize hread : TokenParser.documentItems (Cursor.ofValid source) = r at hagree
  cases hagree with
  | @ok _ _ k' hck' =>
    obtain ⟨done, hall, hdone⟩ := hck'.done
    rw [Cursor.rest, hahead] at hall
    -- The valid tokens that are read are all but the last one, on which the cursor stands.
    obtain ⟨rfl, -⟩ := List.append_inj' hall rfl
    constructor
    · refine List.eq_nil_iff_forall_not_mem.2 fun x hx => ?_
      obtain ⟨t, ht, fault, hkind, -⟩ := mem_lexicalErrors_iff.1 hx
      exact Bool.false_ne_true ((hdone t ht).symm.trans (Token.isInvalid_of_kind hkind))
    · rw [grammarError?, hread]

/-! ### The least index -/

theorem argmin_append_cons {before behind : List ParserError} (hbefore : ∀ y ∈ before, x.index < y.index)
    (hbehind : ∀ y ∈ behind, x.index ≤ y.index) : (before ++ x :: behind).argmin ParserError.index = some x := by
  have hnotBefore : ∀ y, y.index ≤ x.index → y ∉ before := fun y hle hy => absurd (hbefore y hy) (Nat.not_lt.2 hle)
  refine List.argmin_eq_some_iff.2 ⟨List.mem_append_right before List.mem_cons_self, ?_, ?_⟩
  · intro y hy
    rcases List.mem_append.1 hy with hy | hy
    · exact (hbefore y hy).le
    · rcases List.mem_cons.1 hy with rfl | hy
      · exact le_rfl
      · exact hbehind y hy
  · intro y _ hle
    rw [List.idxOf_append_of_notMem (hnotBefore x le_rfl), List.idxOf_append_of_notMem (hnotBefore y hle),
      List.idxOf_cons_self]
    omega

/-- An error that is in front of all others has the least index. -/
theorem argmin_of_lt (hmem : x ∈ errors) (h : ∀ y ∈ errors, y = x ∨ x.index < y.index) :
    errors.argmin ParserError.index = some x := by
  obtain ⟨before, behind, rfl, hnot⟩ := List.eq_append_cons_of_mem hmem
  refine argmin_append_cons (fun y hy => ?_) fun y hy => ?_
  · refine (h y (List.mem_append_left _ hy)).resolve_left ?_
    rintro rfl
    exact hnot hy
  · rcases h y (List.mem_append_right _ (List.mem_cons_of_mem _ hy)) with rfl | hlt
    · exact le_rfl
    · exact hlt.le

/-- **Where nothing invalid lies in front of a token,** the errors of the lexer are the token itself and what lies
behind it. -/
theorem eq_or_lt_of_mem_lexicalErrors {done behind : List Token}
    (hall : tokens source ++ [endToken source] = done ++ t :: behind) (hdone : ∀ u ∈ done, u.isInvalid = false)
    (hx : x ∈ lexicalErrors source) :
    (∃ fault, t.kind = .invalid fault ∧ x = ⟨fault.message, t.span.start⟩) ∨ t.span.start < x.index := by
  obtain ⟨u, hu, fault, hkind, rfl⟩ := mem_lexicalErrors_iff.1 hx
  have hmem : u ∈ done ++ t :: behind := hall ▸ List.mem_append_left _ hu
  rcases List.mem_append.1 hmem with hmem | hmem
  · exact absurd ((hdone u hmem).symm.trans (Token.isInvalid_of_kind hkind)) Bool.false_ne_true
  · rcases List.mem_cons.1 hmem with rfl | hmem
    · exact .inl ⟨fault, hkind, rfl⟩
    · exact .inr (start_lt_of_behind hall hmem)

/-- Each source has a report: of all that is no token, and of the first error of the grammar. -/
theorem isReport_lexicalErrors (source : List Char) :
    IsReport source (lexicalErrors source ++ (grammarError? source).toList) where
  lexical _ hx _ := List.mem_append_left _ hx
  order := ⟨lexicalErrors source, [], (List.append_nil _).symm, fun _ hx => hx, nofun⟩

namespace IsReport

variable (h : IsReport source errors)
include h

theorem eq_nil (hlexical : lexicalErrors source = []) (hgrammar : grammarError? source = none) : errors = [] := by
  obtain ⟨before, behind, rfl, hbefore, hbehind⟩ := h.order
  rw [hlexical] at hbefore hbehind
  rw [hgrammar] at hbehind ⊢
  obtain rfl : before = [] := List.eq_nil_iff_forall_not_mem.2 fun x hx => List.not_mem_nil (hbefore x hx)
  obtain rfl : behind = [] := List.eq_nil_iff_forall_not_mem.2 fun x hx =>
    (hbehind x hx).elim List.not_mem_nil fun ⟨g, hg, _⟩ => nomatch hg
  rfl

/-- The first error of the grammar is the first one in the report if no error of the lexer lies in front of it. -/
theorem argmin_of_grammar (hgrammar : grammarError? source = some x)
    (hlexical : ∀ y ∈ lexicalErrors source, x.index < y.index) : errors.argmin ParserError.index = some x := by
  obtain ⟨before, behind, rfl, hbefore, hbehind⟩ := h.order
  rw [hgrammar] at hbehind ⊢
  show (before ++ [x] ++ behind).argmin ParserError.index = some x
  rw [List.append_assoc]
  refine argmin_append_cons (fun y hy => hlexical y (hbefore y hy)) fun y hy => ?_
  rcases hbehind y hy with hy | ⟨g, hg, hle⟩
  · exact (hlexical y hy).le
  · exact Option.some.inj hg ▸ hle

/-- An error of the lexer is the first one in the report if it is the first one of the lexer, and the grammar has none
in front of it. -/
theorem argmin_of_lexical (hmem : x ∈ lexicalErrors source) (hgrammar : ∀ g ∈ grammarError? source, x.index < g.index)
    (hlexical : ∀ y ∈ lexicalErrors source, y = x ∨ x.index < y.index) : errors.argmin ParserError.index = some x := by
  refine argmin_of_lt (h.lexical x hmem hgrammar) ?_
  obtain ⟨before, behind, rfl, hbefore, hbehind⟩ := h.order
  simp only [List.forall_mem_append, Option.mem_toList]
  refine ⟨⟨fun y hy => hlexical y (hbefore y hy), fun y hy => .inr (hgrammar y hy)⟩, fun y hy => ?_⟩
  rcases hbehind y hy with hy | ⟨g, hg, hle⟩
  · exact hlexical y hy
  · exact .inr ((hgrammar g hg).trans_le hle)

end IsReport

/-- **Reading stops with the first error.** Where a parser that reads on has nothing to report, the source is a
document. Else reading stops with the error of the least index in the report, the first one of them if there are
several, and shows it at the first token that ends behind that index. -/
theorem Document.firstError_of_report (hreport : IsReport source errors) :
    match Document.parse source with
    | .ok _ => errors = []
    | .error e => ∃ first, errors.argmin ParserError.index = some first ∧ e.reason = first.reason ∧
        e.ShowsAt source first.index := by
  split
  · next d h =>
    obtain ⟨hlexical, hgrammar⟩ := Document.no_errors_of_parse h
    exact hreport.eq_nil hlexical hgrammar
  · next e h =>
    obtain ⟨done, behind, hall, hdone, hstop⟩ := Document.stops_of_parse h
    refine ⟨⟨e.reason, e.found.span.start⟩, ?_, rfl, SyntaxError.showsAt_found hall⟩
    rcases hstop with ⟨hvalid, hgrammar⟩ | ⟨⟨fault, hkind, hreason⟩, hgrammar⟩
    · -- Where the grammar fails, the errors of the lexer lie behind.
      refine hreport.argmin_of_grammar hgrammar fun y hy => ?_
      refine (eq_or_lt_of_mem_lexicalErrors hall hdone hy).resolve_left ?_
      rintro ⟨fault, hkind, -⟩
      exact Bool.false_ne_true (hvalid.symm.trans (Token.isInvalid_of_kind hkind))
    · -- An invalid token is the first error of the lexer, and the grammar fails behind it, if it does.
      rw [hreason]
      have hmem : e.found ∈ tokens source ++ [endToken source] := hall ▸ List.mem_append_right done List.mem_cons_self
      have hfound : e.found ∈ tokens source := by
        refine (List.mem_append.1 hmem).resolve_right fun hend => ?_
        rw [List.mem_singleton.1 hend] at hkind
        cases hkind
      refine hreport.argmin_of_lexical (mem_lexicalErrors_iff.2 ⟨_, hfound, fault, hkind, rfl⟩) ?_ ?_
      · intro g hg
        obtain ⟨t, ht, hindex⟩ := hgrammar g hg
        exact hindex ▸ start_lt_of_behind hall ht
      · intro y hy
        refine (eq_or_lt_of_mem_lexicalErrors hall hdone hy).imp_left ?_
        rintro ⟨fault', hkind', rfl⟩
        rw [TokenKind.invalid.inj (hkind.symm.trans hkind')]

/-- A misspelled keyword, and later a character that no token starts with. -/
theorem Document.firstError_of_misspelled_keyword :
    let source := "qeury { a } ?".toList
    let errors : List ParserError := [⟨"expected definition", 0⟩, ⟨"Unexpected character \"?\"", 12⟩]
    IsReport source errors ∧
      match Document.parse source with
      | .ok _ => errors = []
      | .error e => ∃ first, errors.argmin ParserError.index = some first ∧ e.reason = first.reason ∧
          e.ShowsAt source first.index := by
  intro source errors
  have hlexical : lexicalErrors source = [⟨"Unexpected character \"?\"", 12⟩] := by decide +kernel
  have hgrammar : grammarError? source = some ⟨"expected definition", 0⟩ := by decide +kernel
  have hreport : IsReport source errors := by
    constructor
    · rw [hlexical]
      simp [errors]
    · refine ⟨[], [⟨"Unexpected character \"?\"", 12⟩], ?_, nofun, ?_⟩
      · rw [hgrammar]
        rfl
      · rw [hlexical]
        exact fun x hx => .inl hx
  exact ⟨hreport, Document.firstError_of_report hreport⟩

end QueryAid
