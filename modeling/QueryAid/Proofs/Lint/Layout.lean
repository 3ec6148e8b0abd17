import QueryAid.Proofs.Document.Numbering
import QueryAid.Proofs.Lint.Highlights
import QueryAid.Proofs.Lint.Placing
/-!
# Layout does not matter

White space, commas, comments, byte order marks and line ends stand between the tokens of a source. If two sources that
are documents have the same tokens, whatever stands between them, they hold the same document, and the validation says
the same of it, in the same order and of the same tokens (`lint_of_same_symbols`).

Both documents are one document in token numbers, placed in the one source and in the other. The validation of that
document decides what is said and of which tokens; the sources only decide where they are.
-/

namespace QueryAid

/-- **A diagnostic highlights tokens:** those of its source from one number to another one. -/
def Diagnostic.Highlights (source : List Char) (x : Diagnostic) (first last : Nat) : Prop :=
  first ≤ last ∧ ∃ t u, (tokens source)[first]? = some t ∧ (tokens source)[last]? = some u ∧
    x.start = (LineIndex.ofSource source).position t.span.start ∧
    x.stop = (LineIndex.ofSource source).position u.span.stop

/-- **Two diagnostics say the same of the same tokens,** each in its own source. -/
def Diagnostic.Corresponds (source source' : List Char) (x x' : Diagnostic) : Prop :=
  x.category = x'.category ∧ x.message = x'.message ∧
    ∃ first last, x.Highlights source first last ∧ x'.Highlights source' first last

/-- What an error says, and of what. -/
def ValidationError.remarks (e : ValidationError) : List (String × Span) :=
  e.nodes.map fun n => (e.message, n.highlight)

/-- The diagnostic of a message on the tokens of some numbers. -/
def Diagnostic.ofRemark (source : List Char) (remark : String × Span) : Diagnostic where
  category := .validation
  message := remark.1
  start := (LineIndex.ofSource source).position (tokenStart source remark.2.start)
  stop := (LineIndex.ofSource source).position (tokenStop source remark.2.stop)

section Lint

variable {source source' : List Char} {s : Schema} {numbered : Document} {remark : String × Span}

/-- The diagnostics of a source are what is said of its document in token numbers. -/
theorem lint_eq_map_remarks (hparse : Document.parse source = .ok (numbered.place (.ofSource source))) :
    lint source (some s) =
      ((validate s numbered).flatMap ValidationError.remarks).map (Diagnostic.ofRemark source) := by
  rw [lint_eq hparse, validate_place, List.flatMap_map, List.map_flatMap]
  refine congrArg (List.flatMap · (validate s numbered)) (funext fun e => ?_)
  rw [Diagnostic.ofError, ValidationError.place, ValidationError.remarks, List.map_map, List.map_map]
  refine List.map_congr_left fun n _ => ?_
  rw [Function.comp_apply, Function.comp_apply, SourceNode.highlight_place]
  rfl

/-- **What is said of a document in token numbers is said of tokens of its source.** -/
theorem exists_last_of_mem_remarks (hparse : Document.parse source = .ok (numbered.place (.ofSource source)))
    (hremark : remark ∈ (validate s numbered).flatMap ValidationError.remarks) :
    ∃ last, remark.2.stop = last + 1 ∧ remark.2.start ≤ last ∧ last < (tokens source).length := by
  obtain ⟨e, he, hsaid⟩ := List.mem_flatMap.1 hremark
  obtain ⟨n, hn, rfl⟩ := List.mem_map.1 hsaid
  have hplaced : e.place (.ofSource source) ∈ Validation.checkDocument s (numbered.place (.ofSource source)) := by
    rw [Validation.checkDocument_place]
    exact List.mem_map_of_mem (mem_sortErrors_iff.1 he)
  obtain ⟨v, n', heq, hspan, -⟩ := Validation.checkDocument_pointsWell hparse _ hplaced
  have hnode : n.place (.ofSource source) = n' := by
    have hnodes : e.nodes.map (SourceNode.place (.ofSource source)) = [n'] := congrArg ValidationError.nodes heq
    exact List.mem_singleton.1 (hnodes ▸ List.mem_map_of_mem hn)
  rw [← hnode, SourceNode.highlight_place] at hspan
  exact Placement.exists_last_of_wellFormed hspan

/-- A remark on tokens highlights them. -/
theorem Diagnostic.highlights_ofRemark {last : Nat} (hstop : remark.2.stop = last + 1) (hle : remark.2.start ≤ last)
    (hlast : last < (tokens source).length) :
    (Diagnostic.ofRemark source remark).Highlights source remark.2.start last := by
  have hfirst : (tokens source)[remark.2.start]? = some (tokens source)[remark.2.start] :=
    List.getElem?_eq_getElem (by omega)
  have hlast' : (tokens source)[last]? = some (tokens source)[last] := List.getElem?_eq_getElem hlast
  refine ⟨hle, _, _, hfirst, hlast', ?_, ?_⟩
  · rw [Diagnostic.ofRemark, tokenStart_eq hfirst]
  · rw [Diagnostic.ofRemark, hstop, tokenStop_succ_eq hlast']

/-- **Layout does not matter:** two sources that are documents and have the same tokens hold one document, each at its
own places, and their diagnostics correspond to each other, one by one and in the same order. -/
theorem lint_of_same_symbols {d d' : Document} (s : Schema) (hparse : Document.parse source = .ok d)
    (hparse' : Document.parse source' = .ok d')
    (hsymbols : (tokens source).map Token.symbol = (tokens source').map Token.symbol) :
    (∃ numbered : Document, d = numbered.place (.ofSource source) ∧ d' = numbered.place (.ofSource source')) ∧
      List.Forall₂ (Diagnostic.Corresponds source source') (lint source (some s)) (lint source' (some s)) := by
  obtain ⟨numbered, hnumbered, rfl⟩ := Document.exists_ofSymbols_of_parse hparse
  obtain ⟨numbered', hnumbered', rfl⟩ := Document.exists_ofSymbols_of_parse hparse'
  obtain rfl : numbered = numbered' := by
    rw [hsymbols, hnumbered'] at hnumbered
    exact (Except.ok.inj hnumbered).symm
  refine ⟨⟨numbered, rfl, rfl⟩, ?_⟩
  have hlength : (tokens source).length = (tokens source').length := by
    simpa only [List.length_map] using congrArg List.length hsymbols
  rw [lint_eq_map_remarks hparse, lint_eq_map_remarks hparse', List.forall₂_map_left_iff, List.forall₂_map_right_iff,
    List.forall₂_same]
  intro remark hremark
  obtain ⟨last, hstop, hle, hlast⟩ := exists_last_of_mem_remarks hparse hremark
  exact ⟨rfl, rfl, remark.2.start, last, Diagnostic.highlights_ofRemark hstop hle hlast,
    Diagnostic.highlights_ofRemark hstop hle (hlength ▸ hlast)⟩

end Lint

/-- A field that does not exist is reported in the same words when a byte order mark, comments, commas and line ends
come between the tokens. -/
theorem lint_of_scattered_tokens :
    let source := "{ a b(x: [1 2]) }".toList
    let source' := "\uFEFF\x7b\r\n  a, # b\n  b\t(x :[1,2,],) ,\r\x7d # end".toList
    ∃ s d d', Schema.ofSources [(none, "type Query { a: Int }")] = .ok s ∧ Document.parse source = .ok d ∧
      Document.parse source' = .ok d' ∧ lint source (some s) ≠ [] ∧
      List.Forall₂ (Diagnostic.Corresponds source source') (lint source (some s)) (lint source' (some s)) := by
  intro source source'
  have hsymbols : (tokens source).map Token.symbol = (tokens source').map Token.symbol := by decide +kernel
  have hfound : (do
      let s ← (Schema.ofSources [(none, "type Query { a: Int }")]).toOption
      let _ ← (Document.parse source).toOption
      let _ ← (Document.parse source').toOption
      return (lint source (some s)).isEmpty) = some false := by
    decide +kernel
  obtain ⟨s, hs, hfound⟩ := Option.bind_eq_some_iff.1 hfound
  obtain ⟨d, hd, hfound⟩ := Option.bind_eq_some_iff.1 hfound
  obtain ⟨d', hd', hfound⟩ := Option.bind_eq_some_iff.1 hfound
  have hparse := eq_ok_of_toOption hd
  have hparse' := eq_ok_of_toOption hd'
  refine ⟨s, d, d', eq_ok_of_toOption hs, hparse, hparse', ?_, (lint_of_same_symbols s hparse hparse' hsymbols).2⟩
  rw [ne_eq, ← List.isEmpty_iff, Option.some.inj hfound]
  exact Bool.false_ne_true

end QueryAid
