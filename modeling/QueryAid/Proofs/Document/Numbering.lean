import QueryAid.Proofs.Document.RereadingItems
import QueryAid.Proofs.Document.Spans
/-!
# Documents in token numbers

Where the tokens of a source stand depends on the white space, the commas and the comments between them. What they say
does not: a document can be read from this alone (`Document.ofSymbols`), and then its spans count tokens, so that a part
that goes from the token of number `i` to the one of number `j` has the span from `i` to `j + 1`. In a source the
numbers stand where its tokens start and stop (`Placement.ofSource`), and the document of a source is the document in
token numbers at its place (`Document.exists_ofSymbols_of_parse`).
-/

namespace QueryAid

/-! ### Where tokens start and stop -/

section Places

variable {source : List Char} {i : Nat} {t : Token}

/-- Where the token of a number starts. The end of the input comes behind the last token, and then one place behind the
other. -/
def tokenStart (source : List Char) (i : Nat) : Nat :=
  (tokens source)[i]?.elim (byteLength source + (i - (tokens source).length)) fun t => t.span.start

/-- Where the token in front of a number stops. -/
def tokenStop (source : List Char) : Nat → Nat
  | 0 => 0
  | i + 1 => (tokens source)[i]?.elim (byteLength source + (i + 1 - (tokens source).length)) fun t => t.span.stop

theorem tokenStart_eq (h : (tokens source)[i]? = some t) : tokenStart source i = t.span.start := by
  rw [tokenStart, h]
  rfl

theorem tokenStop_succ_eq (h : (tokens source)[i]? = some t) : tokenStop source (i + 1) = t.span.stop := by
  rw [tokenStop, h]
  rfl

theorem tokenStart_of_le (h : (tokens source).length ≤ i) :
    tokenStart source i = byteLength source + (i - (tokens source).length) := by
  rw [tokenStart, List.getElem?_eq_none h]
  rfl

theorem tokenStop_succ_of_le (h : (tokens source).length ≤ i) :
    tokenStop source (i + 1) = byteLength source + (i + 1 - (tokens source).length) := by
  rw [tokenStop, List.getElem?_eq_none h]
  rfl

/-- A token stands in its source and in front of the next one. -/
theorem span_of_getElem? (h : (tokens source)[i]? = some t) :
    t.span.start < t.span.stop ∧ t.span.stop ≤ byteLength source ∧
      ∀ u, (tokens source)[i + 1]? = some u → t.span.stop ≤ u.span.start := by
  have hmem := List.mem_of_getElem? h
  refine ⟨start_lt_stop_of_mem_tokens hmem, (covers_of_mem_tokens hmem).1.stop_le_byteLength, fun u hu => ?_⟩
  obtain ⟨hi, rfl⟩ := List.getElem?_eq_some_iff.1 h
  obtain ⟨hi', rfl⟩ := List.getElem?_eq_some_iff.1 hu
  exact List.pairwise_iff_getElem.1 (pairwise_tokens source) i (i + 1) hi hi' (Nat.lt_succ_self i)

theorem strictMono_tokenStart (source : List Char) : StrictMono (tokenStart source) := by
  refine strictMono_nat_of_lt_succ fun i => ?_
  cases ht : (tokens source)[i]? with
  | none =>
    have hi := List.getElem?_eq_none_iff.1 ht
    rw [tokenStart_of_le hi, tokenStart_of_le (by omega)]
    omega
  | some t =>
    obtain ⟨hlt, hle, hnext⟩ := span_of_getElem? ht
    rw [tokenStart_eq ht]
    cases hu : (tokens source)[i + 1]? with
    | none =>
      rw [tokenStart_of_le (List.getElem?_eq_none_iff.1 hu)]
      omega
    | some u =>
      rw [tokenStart_eq hu]
      exact Nat.lt_of_lt_of_le hlt (hnext u hu)

theorem strictMono_tokenStop (source : List Char) : StrictMono (tokenStop source) := by
  have hpos : tokenStop source 0 < tokenStop source 1 := by
    cases ht : (tokens source)[0]? with
    | none =>
      have hi := List.getElem?_eq_none_iff.1 ht
      rw [tokenStop_succ_of_le hi, tokenStop]
      omega
    | some t =>
      have hlt := (span_of_getElem? ht).1
      rw [tokenStop_succ_eq ht, tokenStop]
      omega
  refine strictMono_nat_of_lt_succ fun i => ?_
  cases i with
  | zero => exact hpos
  | succ i =>
    cases hu : (tokens source)[i + 1]? with
    | none =>
      have hi := List.getElem?_eq_none_iff.1 hu
      rw [tokenStop_succ_of_le hi]
      cases ht : (tokens source)[i]? with
      | none =>
        rw [tokenStop_succ_of_le (List.getElem?_eq_none_iff.1 ht)]
        omega
      | some t =>
        have hle := (span_of_getElem? ht).2.1
        rw [tokenStop_succ_eq ht]
        omega
    | some u =>
      have hi := (List.getElem?_eq_some_iff.1 hu).1
      have ht : (tokens source)[i]? = some (tokens source)[i] := List.getElem?_eq_getElem (by omega)
      have hle := (span_of_getElem? ht).2.2 u hu
      have hlt := (span_of_getElem? hu).1
      rw [tokenStop_succ_eq hu, tokenStop_succ_eq ht]
      omega

end Places

/-- **Where token numbers stand in a source.** -/
def Placement.ofSource (source : List Char) : Placement :=
  ⟨tokenStart source, tokenStop source, strictMono_tokenStart source, strictMono_tokenStop source⟩

/-- **A span of token numbers goes over tokens,** if it is well formed at its place. -/
theorem Placement.exists_last_of_wellFormed {source : List Char} {s : Span}
    (h : ((Placement.ofSource source).span s).WellFormed source) :
    ∃ last, s.stop = last + 1 ∧ s.start ≤ last ∧ last < (tokens source).length := by
  obtain ⟨t, ht, hstart, hle⟩ := h.first
  obtain ⟨u, hu, hstop, -⟩ := h.last
  obtain ⟨first, hfirst⟩ := List.mem_iff_getElem?.1 ht
  obtain ⟨last, hlast⟩ := List.mem_iff_getElem?.1 hu
  -- Tokens at different places have different numbers.
  rw [← tokenStart_eq hfirst] at hstart
  rw [← tokenStop_succ_eq hlast] at hstop
  have hstart' : first = s.start := (strictMono_tokenStart source).injective hstart
  have hstop' : last + 1 = s.stop := (strictMono_tokenStop source).injective hstop
  rw [← tokenStop_succ_eq hfirst] at hle
  have hle' : first + 1 ≤ s.stop := (strictMono_tokenStop source).le_iff_le.1 hle
  exact ⟨last, hstop'.symm, by omega, (List.getElem?_eq_some_iff.1 hlast).1⟩

/-! ### Numbered symbols -/

namespace Symbol

/-- The symbol of the end of an input. -/
def endOfInput : Symbol := ⟨.endOfInput, ""⟩

/-- The token of a number that says what a symbol says. -/
def numbered (s : Symbol) (i : Nat) : Token := ⟨s.kind, s.text, ⟨i, i + 1⟩, false⟩

/-- The tokens of symbols and of the end behind them, numbered from some number on. -/
def numberFrom (i : Nat) : List Symbol → List Token
  | [] => [endOfInput.numbered i]
  | s :: ss => s.numbered i :: numberFrom (i + 1) ss

end Symbol

namespace Cursor

/-- The cursor at the start of numbered symbols. -/
def ofSymbols : List Symbol → Cursor
  | [] => ⟨Symbol.endOfInput.numbered 0, [], 0⟩
  | s :: ss => ⟨s.numbered 0, Symbol.numberFrom 1 ss, 0⟩

variable {source : List Char} {c : Cursor}

theorem rest_ofSymbols (ss : List Symbol) : (ofSymbols ss).rest = Symbol.numberFrom 0 ss := by
  cases ss <;> rfl

theorem readTo_ofSymbols (ss : List Symbol) : (ofSymbols ss).readTo = 0 := by
  cases ss <;> rfl

theorem readTo_ofSource (h : ofSource source = .ok c) : c.readTo = 0 := by
  unfold ofSource at h
  split at h <;>
  · obtain ⟨-, rfl⟩ := TokenParser.onto_eq_ok_iff.1 h
    rfl

/-- The tokens of a source are the images of their numbers. -/
theorem forall₂_numberFrom {before ts : List Token} (h : tokens source = before ++ ts) :
    List.Forall₂ (Token.IsImage (.ofSource source)) (ts ++ [endToken source])
      (Symbol.numberFrom before.length (ts.map Token.symbol)) := by
  induction ts generalizing before with
  | nil =>
    have hstart : byteLength source = tokenStart source before.length := by
      rw [tokenStart_of_le (by rw [h, List.append_nil]), h, List.append_nil, Nat.sub_self, Nat.add_zero]
    exact .cons ⟨rfl, hstart, nofun, rfl⟩ .nil
  | cons t ts ih =>
    have ht : (tokens source)[before.length]? = some t := by
      rw [h, List.getElem?_append_right (Nat.le_refl _), Nat.sub_self]
      rfl
    have hbefore : tokens source = (before ++ [t]) ++ ts := by rw [h, List.append_assoc, List.singleton_append]
    have hrest := ih hbefore
    rw [List.length_append, List.length_singleton] at hrest
    exact .cons ⟨rfl, (tokenStart_eq ht).symm, fun _ => (tokenStop_succ_eq ht).symm, rfl⟩ hrest

/-- **The start of a source is the image of the start of its symbols.** -/
theorem isImage_ofSymbols (h : ofSource source = .ok c) :
    c.IsImage (.ofSource source) (ofSymbols ((tokens source).map Token.symbol)) := by
  have hrest : List.Forall₂ (Token.IsImage (.ofSource source)) c.rest
      (ofSymbols ((tokens source).map Token.symbol)).rest := by
    rw [ofSource_eq_ok h, rest_ofSymbols]
    exact forall₂_numberFrom (List.nil_append _).symm
  obtain ⟨htoken, hahead⟩ := List.forall₂_cons.1 hrest
  refine ⟨sound_ofSource h, htoken, hahead, ?_⟩
  rw [readTo_ofSource h, readTo_ofSymbols]
  rfl

end Cursor

/-! ### Documents -/

namespace Document

variable {source : List Char} {d : Document}

/-- **The document that symbols form,** with its places counted in tokens. -/
def ofSymbols (ss : List Symbol) : Except SyntaxError Document := do
  let (items, _) ← TokenParser.documentItems (Cursor.ofSymbols ss)
  return ofItems items

/-- **What a source says decides which document it holds,** and where its tokens stand only where the parts of the
document stand. -/
theorem exists_ofSymbols_of_parse (h : parse source = .ok d) :
    ∃ numbered, ofSymbols ((tokens source).map Token.symbol) = .ok numbered ∧
      d = numbered.place (.ofSource source) := by
  obtain ⟨c, items, c', hcursor, hitems, rfl⟩ := exists_items_of_parse h
  obtain ⟨numbered, k', hnumbered, rfl, -⟩ :=
    TokenParser.reflects_documentItems (Cursor.isImage_ofSymbols hcursor) hitems
  refine ⟨ofItems numbered, ?_, ofItems_place _ numbered⟩
  rw [ofSymbols, hnumbered]
  rfl

end Document

end QueryAid
