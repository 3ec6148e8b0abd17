import QueryAid.Source.Span
import Mathlib.Data.List.Basic
/-!
# Offsets and the texts between them

A span covers a text of a source if the text stands there, between the bytes before it and those behind it
(`Span.Covers`). `text?_eq_some_iff` says that this is what reading the text of a span is about: a span has a text
exactly if it covers one, so that its ends are in order, in the source and between characters.
-/

namespace QueryAid

variable {source text : List Char} {n : Nat}

@[simp]
theorem byteLength_nil : byteLength [] = 0 := rfl

@[simp]
theorem byteLength_append (l l' : List Char) : byteLength (l ++ l') = byteLength l + byteLength l' := by
  induction l with
  | nil => simp
  | cons c l ih => rw [List.cons_append, byteLength, byteLength, ih, Nat.add_assoc]

theorem byteLength_pos (h : text ≠ []) : 0 < byteLength text := by
  cases text with
  | nil => exact absurd rfl h
  | cons c cs =>
    have hc := c.utf8Size_pos
    rw [byteLength]
    omega

/-! ### Boundaries -/

theorem takeBytes_zero (l : List Char) : takeBytes 0 l = [] := by
  cases l with
  | nil => rfl
  | cons c l =>
    have hc := c.utf8Size_pos
    rw [takeBytes, if_neg (by omega)]

theorem takeBytes_byteLength_append (l l' : List Char) : takeBytes (byteLength l) (l ++ l') = l := by
  induction l with
  | nil => exact takeBytes_zero l'
  | cons c l ih => rw [List.cons_append, byteLength, takeBytes, if_pos (by omega), Nat.add_sub_cancel_left, ih]

theorem dropBytes_byteLength_append (l l' : List Char) : dropBytes (byteLength l) (l ++ l') = l' := by
  have h := takeBytes_append_dropBytes (byteLength l) (l ++ l')
  rw [takeBytes_byteLength_append] at h
  exact List.append_cancel_left h

theorem floorBoundary_byteLength_append (l l' : List Char) : floorBoundary (l ++ l') (byteLength l) = byteLength l := by
  rw [floorBoundary, takeBytes_byteLength_append]

/-- **A boundary is where some leading characters end.** -/
theorem isBoundary_iff :
    isBoundary source n = true ↔ ∃ before behind, source = before ++ behind ∧ n = byteLength before := by
  rw [isBoundary, beq_iff_eq]
  constructor
  · intro h
    exact ⟨takeBytes n source, dropBytes n source, (takeBytes_append_dropBytes n source).symm, h.symm⟩
  · rintro ⟨before, behind, rfl, rfl⟩
    exact floorBoundary_byteLength_append before behind

/-! ### What spans cover -/

namespace Span

variable {s : Span}

/-- **A span covers a text,** which stands between what is before it and what is behind it. -/
def Covers (s : Span) (source text : List Char) : Prop :=
  ∃ before behind, source = before ++ (text ++ behind) ∧ s.start = byteLength before ∧
    s.stop = byteLength before + byteLength text

theorem Covers.start_le_stop (h : s.Covers source text) : s.start ≤ s.stop := by
  obtain ⟨before, behind, -, hstart, hstop⟩ := h
  omega

theorem Covers.start_lt_stop (h : s.Covers source text) (htext : text ≠ []) : s.start < s.stop := by
  obtain ⟨before, behind, -, hstart, hstop⟩ := h
  have hpos := byteLength_pos htext
  omega

theorem Covers.stop_le_byteLength (h : s.Covers source text) : s.stop ≤ byteLength source := by
  obtain ⟨before, behind, rfl, hstart, hstop⟩ := h
  simp only [byteLength_append]
  omega

theorem Covers.isBoundary_start (h : s.Covers source text) : isBoundary source s.start = true := by
  obtain ⟨before, behind, hsource, hstart, -⟩ := h
  exact isBoundary_iff.2 ⟨before, text ++ behind, hsource, hstart⟩

theorem Covers.isBoundary_stop (h : s.Covers source text) : isBoundary source s.stop = true := by
  obtain ⟨before, behind, hsource, -, hstop⟩ := h
  exact isBoundary_iff.2 ⟨before ++ text, behind, by rw [hsource, List.append_assoc], by rw [hstop, byteLength_append]⟩

/-- What stands behind the first part of a covered text is covered by the rest of the span. -/
theorem Covers.behind {front : List Char} (h : s.Covers source (front ++ text)) :
    (⟨s.start + byteLength front, s.stop⟩ : Span).Covers source text := by
  obtain ⟨before, behind, hsource, hstart, hstop⟩ := h
  rw [byteLength_append] at hstop
  refine ⟨before ++ front, behind, by simp [hsource], ?_, ?_⟩
  · rw [byteLength_append, hstart]
  · show s.stop = _
    rw [byteLength_append]
    omega

/-- Texts that stand one behind the other are covered together. -/
theorem Covers.append {s' : Span} {text' : List Char} (h : s.Covers source text) (h' : s'.Covers source text')
    (hmeet : s.stop = s'.start) : (⟨s.start, s'.stop⟩ : Span).Covers source (text ++ text') := by
  obtain ⟨before, behind, hsource, hstart, hstop⟩ := h
  obtain ⟨before', behind', hsource', hstart', hstop'⟩ := h'
  have hlength : byteLength (before ++ text) = byteLength before' := by
    rw [byteLength_append]
    omega
  -- Both are what the source starts with, and they are equally long.
  have hbefore : before ++ text = before' := by
    rw [← takeBytes_byteLength_append before' (text' ++ behind'), ← hsource', ← hlength, hsource, ← List.append_assoc,
      takeBytes_byteLength_append]
  refine ⟨before, behind', ?_, hstart, ?_⟩
  · rw [hsource', ← hbefore, List.append_assoc, List.append_assoc]
  · rw [hstop', ← hlength, byteLength_append, byteLength_append, Nat.add_assoc]

/-- Between two boundaries there is a text. -/
theorem exists_covers_of_boundaries (hle : s.start ≤ s.stop) (hstart : isBoundary source s.start = true)
    (hstop : isBoundary source s.stop = true) : ∃ text, s.Covers source text := by
  obtain ⟨before, rest, rfl, hbefore⟩ := isBoundary_iff.1 hstart
  obtain ⟨upTo, behind, hsource, hupTo⟩ := isBoundary_iff.1 hstop
  rcases List.append_eq_append_iff.1 hsource with ⟨text, rfl, rfl⟩ | ⟨beyond, rfl, rfl⟩
  · exact ⟨text, before, behind, rfl, hbefore, by rw [hupTo, byteLength_append]⟩
  · -- The first boundary is not behind the second one, so that there is nothing between them.
    have hlength : byteLength beyond = 0 := by
      rw [byteLength_append] at hbefore
      omega
    obtain rfl : beyond = [] := by
      by_contra hne
      exact absurd (byteLength_pos hne) (by omega)
    refine ⟨[], upTo, rest, by simp, by simpa using hbefore, by simpa using hupTo⟩

/-- **A span has a text exactly if it covers it.** -/
theorem text?_eq_some_iff : s.text? source = some text ↔ s.Covers source text := by
  have hread : ∀ text, s.Covers source text → s.text? source = some text := by
    intro text h
    have hstart := h.isBoundary_start
    have hstop := h.isBoundary_stop
    have hle := h.start_le_stop
    obtain ⟨before, behind, rfl, hbefore, hbehind⟩ := h
    have hlength : s.stop - s.start = byteLength text := by omega
    have hbetween : takeBytes (s.stop - s.start) (dropBytes s.start (before ++ (text ++ behind))) = text := by
      rw [hlength, hbefore, dropBytes_byteLength_append, takeBytes_byteLength_append]
    rw [text?, if_pos (by simp [hle, hstart, hstop]), hbetween]
  constructor
  · intro h
    have hfound := h
    unfold text? at hfound
    split at hfound
    · next hends =>
      simp only [Bool.and_eq_true, decide_eq_true_eq] at hends
      obtain ⟨text', htext'⟩ := exists_covers_of_boundaries hends.1.1 hends.1.2 hends.2
      rw [hread text' htext'] at h
      exact Option.some.inj h ▸ htext'
    · cases hfound
  · exact hread text

end Span

end QueryAid
