import QueryAid.Proofs.Source.LineStarts
import Mathlib.Data.Prod.Lex
/-!
# Lines and columns of offsets

`LineIndex.position` gives the place of an offset, and `LineIndex.offsetOf` the offset of a line and a column. A place is
what it should be (`Position.IsOf`): it is at the greatest boundary up to the offset, its line is the number of
terminators that end up to there, and its columns count what stands between the end of the last of them and the boundary.
Nothing on the way there can fail (`LineIndex.positionChecked_eq`).

An offset is found from its place and a place from its offset (`LineIndex.offsetOf_position`). Both go through the start
of a line: `LineIndex.position_eq` says which place it is where a line is known, and `LineIndex.offsetOf_eq` which
offset.
-/

namespace QueryAid

variable {source text : List Char} {l n offset start : Nat}

/-! ### The boundary up to an offset -/

theorem takeBytes_append_of_le (before behind : List Char) (h : byteLength before ≤ offset) :
    takeBytes offset (before ++ behind) = before ++ takeBytes (offset - byteLength before) behind := by
  induction before generalizing offset with
  | nil => rfl
  | cons c before ih =>
    rw [byteLength] at h
    have hc : c.utf8Size ≤ offset := by omega
    rw [List.cons_append, takeBytes, if_pos hc, ih (by omega), byteLength, Nat.sub_sub, List.cons_append]

/-- **The boundary up to an offset is the greatest one.** -/
theorem isGreatest_floorBoundary (source : List Char) (offset : Nat) :
    IsGreatest {n | isBoundary source n = true ∧ n ≤ offset} (floorBoundary source offset) := by
  constructor
  · have hboundary : isBoundary source (floorBoundary source offset) = true := by
      apply isBoundary_iff.2
      exact ⟨takeBytes offset source, dropBytes offset source, (takeBytes_append_dropBytes offset source).symm, rfl⟩
    exact ⟨hboundary, floorBoundary_le source offset⟩
  · rintro n ⟨hn, hle⟩
    obtain ⟨before, behind, rfl, rfl⟩ := isBoundary_iff.1 hn
    rw [floorBoundary, takeBytes_append_of_le before behind hle, byteLength_append]
    omega

theorem le_byteLength_of_isBoundary (h : isBoundary source n = true) : n ≤ byteLength source := by
  obtain ⟨before, behind, rfl, rfl⟩ := isBoundary_iff.1 h
  rw [byteLength_append]
  omega

theorem floorBoundary_eq_self (h : isBoundary source n = true) : floorBoundary source n = n := beq_iff_eq.1 h

theorem isBoundary_floorBoundary (source : List Char) (offset : Nat) :
    isBoundary source (floorBoundary source offset) = true :=
  (isGreatest_floorBoundary source offset).1.1

theorem floorBoundary_mono (source : List Char) {a b : Nat} (h : a ≤ b) :
    floorBoundary source a ≤ floorBoundary source b := by
  obtain ⟨hboundary, hle⟩ := (isGreatest_floorBoundary source a).1
  exact (isGreatest_floorBoundary source b).2 ⟨hboundary, hle.trans h⟩

/-- Behind the end of a source there are no boundaries. -/
theorem floorBoundary_min (source : List Char) (offset : Nat) :
    floorBoundary source (min offset (byteLength source)) = floorBoundary source offset := by
  refine (isGreatest_floorBoundary source _).unique ⟨⟨isBoundary_floorBoundary source offset, ?_⟩, ?_⟩
  · have hle := floorBoundary_le source offset
    have hend := le_byteLength_of_isBoundary (isBoundary_floorBoundary source offset)
    omega
  · rintro n ⟨hn, hle⟩
    exact (isGreatest_floorBoundary source offset).2 ⟨hn, by omega⟩

/-! ### Texts that spans cover -/

namespace Span

variable {s : Span} {text' : List Char} {a b c : Nat}

theorem Covers.unique (h : s.Covers source text) (h' : s.Covers source text') : text = text' := by
  rw [← text?_eq_some_iff] at h h'
  rw [h] at h'
  exact Option.some.inj h'

/-- The text that a span covers is read by dropping what stands before it. -/
theorem Covers.takeBytes_dropBytes (h : s.Covers source text) :
    takeBytes (s.stop - s.start) (dropBytes s.start source) = text := by
  have htext := text?_eq_some_iff.2 h
  unfold text? at htext
  split at htext
  · exact Option.some.inj htext
  · cases htext

/-- Of two texts that are covered from the same offset on the shorter one is how the other one starts. -/
theorem Covers.exists_append_of_le (h : (⟨a, b⟩ : Span).Covers source text)
    (h' : (⟨a, c⟩ : Span).Covers source text') (hle : b ≤ c) : ∃ rest, text' = text ++ rest := by
  obtain ⟨rest, hrest⟩ := exists_covers_of_boundaries (s := ⟨b, c⟩) hle h.isBoundary_stop h'.isBoundary_stop
  exact ⟨rest, h'.unique (h.append hrest rfl)⟩

/-- Of a covered text each beginning is covered. -/
theorem Covers.take (h : s.Covers source text) (n : Nat) :
    (⟨s.start, s.start + byteLength (text.take n)⟩ : Span).Covers source (text.take n) := by
  obtain ⟨before, behind, hsource, hstart, -⟩ := h
  refine ⟨before, text.drop n ++ behind, ?_, hstart, ?_⟩
  · rw [← List.append_assoc (text.take n), List.take_append_drop]
    exact hsource
  · show s.start + byteLength (text.take n) = byteLength before + byteLength (text.take n)
    rw [hstart]

theorem Covers.stop_eq (h : s.Covers source text) : s.stop = s.start + byteLength text := by
  obtain ⟨before, behind, -, hstart, hstop⟩ := h
  rw [hstart, hstop]

end Span

theorem utf16Length_append (text text' : List Char) :
    utf16Length (text ++ text') = utf16Length text + utf16Length text' := by
  induction text with
  | nil => simp [utf16Length]
  | cons c text ih => rw [List.cons_append, utf16Length, utf16Length, ih, Nat.add_assoc]

/-! ### Places -/

/-- **A place is the one of an offset.** -/
structure Position.IsOf (source : List Char) (offset : Nat) (p : Position) : Prop where
  offset : IsGreatest {n | isBoundary source n = true ∧ n ≤ min offset (byteLength source)} p.offset
  line : p.line = Nat.count (Terminates source) (p.offset + 1)
  columns : ∃ start text, IsGreatest {n | (n = 0 ∨ Terminates source n) ∧ n ≤ p.offset} start ∧
    (⟨start, p.offset⟩ : Span).Covers source text ∧ p.column = text.length ∧ p.column16 = utf16Length text

/-- **A place is not after another one** by line and column, in whichever way columns are counted. -/
def Position.NotAfter (p q : Position) : Prop :=
  toLex (p.line, p.column) ≤ toLex (q.line, q.column) ∧ toLex (p.line, p.column16) ≤ toLex (q.line, q.column16)

/-- Goes back from an offset to a boundary, byte by byte, if one is reached before the offset gets negative. -/
def boundaryChecked (source : List Char) : Nat → Option Nat
  | 0 => if isBoundary source 0 then some 0 else none
  | n + 1 => if isBoundary source (n + 1) then some (n + 1) else boundaryChecked source n

theorem boundaryChecked_eq (source : List Char) (n : Nat) :
    boundaryChecked source n = some (floorBoundary source n) := by
  induction n with
  | zero =>
    have hzero := isBoundary_zero source
    rw [boundaryChecked, if_pos hzero, floorBoundary_eq_self hzero]
  | succ n ih =>
    rw [boundaryChecked]
    by_cases hn : isBoundary source (n + 1) = true
    · rw [if_pos hn, floorBoundary_eq_self hn]
    · rw [if_neg hn, ih]
      refine congrArg some ((isGreatest_floorBoundary source n).unique ?_)
      obtain ⟨⟨hboundary, hle⟩, hgreatest⟩ := isGreatest_floorBoundary source (n + 1)
      refine ⟨⟨hboundary, ?_⟩, ?_⟩
      · -- The next boundary is below, since there is none here.
        have hne : floorBoundary source (n + 1) ≠ n + 1 := fun heq => hn (heq ▸ hboundary)
        omega
      · rintro m ⟨hm, hmn⟩
        exact hgreatest ⟨hm, Nat.le_succ_of_le hmn⟩

namespace LineIndex

/-- The place of an offset, if all that is looked up on the way is there: a boundary up to the offset, the start of the
line, and the text between the two. -/
def positionChecked (ix : LineIndex) (offset : Nat) : Option Position := do
  let offset ← boundaryChecked ix.source (min offset (byteLength ix.source))
  let line := (ix.starts.takeWhile (· ≤ offset)).length - 1
  let start ← ix.starts[line]?
  let before ← (⟨start, offset⟩ : Span).text? ix.source
  return ⟨line, before.length, utf16Length before, offset⟩

/-- **On a line that is known, a place is found:** its columns count the text from the start of the line on. -/
theorem position_eq (hstart : (ofSource source).starts[l]? = some start) (hle : start ≤ n)
    (hnext : ∀ next, (ofSource source).starts[l + 1]? = some next → n < next) (hn : isBoundary source n = true)
    (htext : (⟨start, n⟩ : Span).Covers source text) :
    (ofSource source).position n = ⟨l, text.length, utf16Length text, n⟩ := by
  have hline : ((ofSource source).laterStarts.takeWhile (· ≤ n)).length = l := by
    rw [takeWhile_laterStarts_eq_count, count_eq_of_between hstart hle hnext]
  have hget : (ofSource source).starts.getD l 0 = start := by
    rw [List.getD_eq_getElem?_getD, hstart]
    rfl
  have hfloor : floorBoundary (ofSource source).source n = n := floorBoundary_eq_self hn
  have hbefore : takeBytes (n - start) (dropBytes start (ofSource source).source) = text := htext.takeBytes_dropBytes
  unfold position
  simp only [hfloor, hline, hget, hbefore]

theorem position_floorBoundary (ix : LineIndex) (offset : Nat) :
    ix.position (floorBoundary ix.source offset) = ix.position offset := by
  unfold position
  rw [floorBoundary_eq_self (isBoundary_floorBoundary ix.source offset)]

/-- **Each offset has a line,** with a start up to which nothing is missing. -/
theorem exists_line (source : List Char) (offset : Nat) :
    ∃ l start text, (ofSource source).starts[l]? = some start ∧
      (∀ next, (ofSource source).starts[l + 1]? = some next → floorBoundary source offset < next) ∧
      IsGreatest {n | (n = 0 ∨ Terminates source n) ∧ n ≤ floorBoundary source offset} start ∧
      (⟨start, floorBoundary source offset⟩ : Span).Covers source text ∧
      (ofSource source).position offset = ⟨l, text.length, utf16Length text, floorBoundary source offset⟩ := by
  have hboundary := isBoundary_floorBoundary source offset
  obtain ⟨start, hstart, hgreatest⟩ := exists_start source (floorBoundary source offset)
  have hle : start ≤ floorBoundary source offset := hgreatest.1.2
  obtain ⟨text, htext⟩ := Span.exists_covers_of_boundaries (s := ⟨start, floorBoundary source offset⟩) hle
    (isBoundary_of_mem_starts hgreatest.1.1) hboundary
  have hnext : ∀ next, (ofSource source).starts[Nat.count (Terminates source) (floorBoundary source offset + 1) + 1]? =
      some next → floorBoundary source offset < next := by
    intro next hget
    by_contra hnot
    have hle' := hgreatest.2 ⟨List.mem_of_getElem? hget, Nat.le_of_not_lt hnot⟩
    have hiff := lt_iff_of_getElem? (pairwise_starts source) hstart hget
    omega
  refine ⟨_, start, text, hstart, hnext, ?_, htext, ?_⟩
  · simpa only [mem_starts_iff] using hgreatest
  · have hposition := position_eq hstart hle hnext hboundary htext
    rw [← hposition]
    exact (position_floorBoundary (ofSource source) offset).symm

theorem position_isOf (source : List Char) (offset : Nat) :
    ((ofSource source).position offset).IsOf source offset := by
  obtain ⟨l, start, text, hstart, hnext, hgreatest, htext, hposition⟩ := exists_line source offset
  rw [hposition]
  refine ⟨?_, ?_, start, text, hgreatest, htext, rfl, rfl⟩
  · rw [← floorBoundary_min]
    exact isGreatest_floorBoundary source _
  · exact (count_eq_of_between hstart hgreatest.1.2 hnext).symm

/-- An offset inside a character, and one past the end. -/
example :
    let ix := ofSource "a\r\né🎉".toList
    ix.position 7 = ⟨1, 1, 1, 5⟩ ∧ ix.position 20 = ⟨1, 2, 3, 9⟩ := by
  decide

/-- **Nothing that is looked up for a place is missing.** -/
theorem positionChecked_eq (source : List Char) (offset : Nat) :
    (ofSource source).positionChecked offset = some ((ofSource source).position offset) := by
  obtain ⟨l, start, text, hstart, hnext, hgreatest, htext, hposition⟩ := exists_line source offset
  have hboundary : boundaryChecked (ofSource source).source (min offset (byteLength (ofSource source).source)) =
      some (floorBoundary source offset) := by
    rw [boundaryChecked_eq]
    exact congrArg some (floorBoundary_min source offset)
  have hline : ((ofSource source).starts.takeWhile (· ≤ floorBoundary source offset)).length - 1 = l := by
    rw [starts, List.takeWhile_cons_of_pos (by simp), List.length_cons, Nat.add_sub_cancel,
      takeWhile_laterStarts_eq_count, count_eq_of_between hstart hgreatest.1.2 hnext]
  have htext' : (⟨start, floorBoundary source offset⟩ : Span).text? (ofSource source).source = some text :=
    Span.text?_eq_some_iff.2 htext
  rw [positionChecked, hboundary, hposition]
  simp only [Option.bind_eq_bind, Option.bind_some, hline, hstart, htext']
  rfl

/-- **Later offsets have later places.** -/
theorem position_notAfter (source : List Char) {a b : Nat} (h : a ≤ b) :
    ((ofSource source).position a).NotAfter ((ofSource source).position b) := by
  obtain ⟨l, start, text, hstart, hnext, hgreatest, htext, hposition⟩ := exists_line source a
  obtain ⟨l', start', text', hstart', hnext', hgreatest', htext', hposition'⟩ := exists_line source b
  have hle := floorBoundary_mono source h
  have hline : l ≤ l' := by
    rw [← count_eq_of_between hstart hgreatest.1.2 hnext, ← count_eq_of_between hstart' hgreatest'.1.2 hnext']
    exact Nat.count_monotone _ (Nat.succ_le_succ hle)
  rw [hposition, hposition', Position.NotAfter, Prod.Lex.toLex_le_toLex, Prod.Lex.toLex_le_toLex]
  show (l < l' ∨ l = l' ∧ text.length ≤ text'.length) ∧ (l < l' ∨ l = l' ∧ utf16Length text ≤ utf16Length text')
  rcases Nat.lt_or_eq_of_le hline with hlt | rfl
  · exact ⟨.inl hlt, .inl hlt⟩
  · -- On one line the text up to the later place starts with the text up to the earlier one.
    obtain rfl : start = start' := Option.some.inj (hstart.symm.trans hstart')
    obtain ⟨rest, rfl⟩ := htext.exists_append_of_le htext' hle
    rw [List.length_append, utf16Length_append]
    exact ⟨.inr ⟨rfl, Nat.le_add_right _ _⟩, .inr ⟨rfl, Nat.le_add_right _ _⟩⟩

/-- **Places are what they should be:** all that is looked up is there, in an order in which it can be searched, the
place of each offset is the one that it has, and offsets in order have places in order, so that ranges have, too. -/
theorem position_spec (source : List Char) :
    (ofSource source).starts.Pairwise (· < ·) ∧
    (∀ offset, (ofSource source).positionChecked offset = some ((ofSource source).position offset)) ∧
    (∀ offset, ((ofSource source).position offset).IsOf source offset) ∧
    (∀ a b, a ≤ b → ((ofSource source).position a).NotAfter ((ofSource source).position b)) ∧
    ∀ s : Span, s.start ≤ s.stop → ((ofSource source).span s).1.NotAfter ((ofSource source).span s).2 :=
  ⟨pairwise_starts source, positionChecked_eq source, position_isOf source, fun _ _ => position_notAfter source,
    fun _ => position_notAfter source⟩

/-! ### Offsets of lines and columns -/

variable {s : Span}

theorem exists_isLine (hstart : (ofSource source).starts[l]? = some start) : ∃ s, IsLine source l s ∧ s.start = start :=
  ⟨⟨start, (ofSource source).starts.getD (l + 1) (byteLength source)⟩, isLine_iff.2 ⟨hstart, rfl⟩, rfl⟩

/-- A line stops where the next one starts, and the last one stops with the source. -/
theorem stop_eq_of_isLine (h : IsLine source l s) :
    (∃ next, IsLine source (l + 1) next ∧ s.stop = next.start) ∨
      (∀ next, ¬ IsLine source (l + 1) next) ∧ s.stop = byteLength source := by
  obtain ⟨-, hstop⟩ := isLine_iff.1 h
  rw [List.getD_eq_getElem?_getD] at hstop
  cases hget : (ofSource source).starts[l + 1]? with
  | none =>
    right
    rw [hget] at hstop
    refine ⟨fun next hnext => ?_, hstop.symm⟩
    rw [isLine_iff, hget] at hnext
    cases hnext.1
  | some start =>
    left
    rw [hget] at hstop
    obtain ⟨next, hnext, hstart⟩ := exists_isLine hget
    exact ⟨next, hnext, by rw [hstart]; exact hstop.symm⟩

/-- **On a line the offset of a column is where so many characters of its text end.** -/
theorem offsetOf_eq (h : IsLine source l s) :
    ∃ text, s.Covers source text ∧ ∀ c, (ofSource source).offsetOf l c = s.start + byteLength (text.take c) := by
  obtain ⟨hstart, hstop⟩ := isLine_iff.1 h
  have hle : s.start ≤ s.stop := by
    rcases h.stop.1 with ⟨-, hlt⟩ | heq
    · exact Nat.le_of_lt hlt
    · have hend := le_byteLength_of_mem_starts (List.mem_of_getElem? hstart)
      omega
  have hboundary : isBoundary source s.stop = true := by
    rcases h.stop.1 with ⟨hterminates, -⟩ | heq
    · exact hterminates.isBoundary
    · exact isBoundary_iff.2 ⟨source, [], by rw [List.append_nil], heq⟩
  obtain ⟨text, htext⟩ := Span.exists_covers_of_boundaries hle
    (isBoundary_of_mem_starts (List.mem_of_getElem? hstart)) hboundary
  have hline : (ofSource source).lineText l s.start = text := by
    show takeBytes ((ofSource source).starts.getD (l + 1) (byteLength source) - s.start) (dropBytes s.start source) = text
    rw [hstop]
    exact htext.takeBytes_dropBytes
  refine ⟨text, htext, fun c => ?_⟩
  unfold offsetOf
  simp only [hstart, hline]

theorem offsetOf_eq_byteLength (h : ∀ s, ¬ IsLine source l s) (c : Nat) :
    (ofSource source).offsetOf l c = byteLength source := by
  have hnone : (ofSource source).starts[l]? = none := by
    cases hget : (ofSource source).starts[l]? with
    | none => rfl
    | some start =>
      obtain ⟨s, hs, -⟩ := exists_isLine hget
      exact absurd hs (h s)
  unfold offsetOf
  simp only [hnone]
  rfl

/-- **From the place of an offset one comes back to the boundary up to it.** -/
theorem offsetOf_position (source : List Char) (offset : Nat) :
    (ofSource source).offsetOf ((ofSource source).position offset).line ((ofSource source).position offset).column =
      ((ofSource source).position offset).offset := by
  obtain ⟨l, start, before, hstart, hnext, hgreatest, hbefore, hposition⟩ := exists_line source offset
  obtain ⟨s, hs, rfl⟩ := exists_isLine hstart
  obtain ⟨text, htext, hoffset⟩ := offsetOf_eq hs
  have hle : floorBoundary source offset ≤ s.stop := by
    rcases stop_eq_of_isLine hs with ⟨next, hline, heq⟩ | ⟨-, heq⟩
    · have hlt := hnext next.start (isLine_iff.1 hline).1
      omega
    · rw [heq]
      exact le_byteLength_of_isBoundary (isBoundary_floorBoundary source offset)
  -- What stands before the offset on its line is how the line starts.
  obtain ⟨rest, rfl⟩ := hbefore.exists_append_of_le htext hle
  rw [hposition, hoffset, List.take_left]
  exact hbefore.stop_eq.symm

/-- **From the offset of a character on a line one comes back to its column.** -/
theorem position_offsetOf (h : IsLine source l s) (htext : s.Covers source text) {c : Nat} (hc : c < text.length) :
    ((ofSource source).position ((ofSource source).offsetOf l c)).line = l ∧
      ((ofSource source).position ((ofSource source).offsetOf l c)).column = c := by
  obtain ⟨text', htext', hoffset⟩ := offsetOf_eq h
  obtain rfl := htext.unique htext'
  have htake : (⟨s.start, s.start + byteLength (text.take c)⟩ : Span).Covers source (text.take c) := htext.take c
  -- The character at the column is not empty, so that its offset is before the next line.
  have hrest : 0 < byteLength (text.drop c) := by
    apply byteLength_pos
    rw [ne_eq, List.drop_eq_nil_iff]
    omega
  have hlength : byteLength text = byteLength (text.take c) + byteLength (text.drop c) := by
    rw [← byteLength_append, List.take_append_drop]
  have hnext : ∀ next, (ofSource source).starts[l + 1]? = some next → s.start + byteLength (text.take c) < next := by
    intro next hget
    have hstop := (isLine_iff.1 h).2
    rw [List.getD_eq_getElem?_getD, hget, Option.getD_some] at hstop
    have hcovered := htext.stop_eq
    omega
  rw [hoffset, position_eq (isLine_iff.1 h).1 (Nat.le_add_right _ _) hnext htake.isBoundary_stop htake]
  refine ⟨rfl, ?_⟩
  show (text.take c).length = c
  rw [List.length_take]
  omega

/-- Behind the last character of a line comes the end of the line. -/
theorem offsetOf_eq_stop (h : IsLine source l s) (htext : s.Covers source text) {c : Nat} (hc : text.length ≤ c) :
    (ofSource source).offsetOf l c = s.stop := by
  obtain ⟨text', htext', hoffset⟩ := offsetOf_eq h
  obtain rfl := htext.unique htext'
  rw [hoffset, List.take_of_length_le hc, htext.stop_eq]

theorem offsetOf_le_stop (h : IsLine source l s) (c : Nat) :
    s.start ≤ (ofSource source).offsetOf l c ∧ (ofSource source).offsetOf l c ≤ s.stop := by
  obtain ⟨text, htext, hoffset⟩ := offsetOf_eq h
  have hlength : byteLength text = byteLength (text.take c) + byteLength (text.drop c) := by
    rw [← byteLength_append, List.take_append_drop]
  rw [hoffset, htext.stop_eq]
  omega

theorem offsetOf_le_byteLength (source : List Char) (l c : Nat) :
    (ofSource source).offsetOf l c ≤ byteLength source := by
  by_cases h : ∃ s, IsLine source l s
  · obtain ⟨s, hs⟩ := h
    exact (offsetOf_le_stop hs c).2.trans (hs.stop.2 (.inr rfl))
  · rw [offsetOf_eq_byteLength (not_exists.1 h)]

/-- A line stops before a later one starts. -/
theorem stop_le_start (h : IsLine source l s) {l' : Nat} {s' : Span} (h' : IsLine source l' s') (hlt : l < l') :
    s.stop ≤ s'.start := by
  have hstart : s.start < s'.start :=
    (lt_iff_of_getElem? (pairwise_starts source) (isLine_iff.1 h).1 (isLine_iff.1 h').1).2 hlt
  have hterminates : Terminates source s'.start := h'.start.resolve_left (by omega)
  exact h.stop.2 (.inl ⟨hterminates, hstart⟩)

/-- **Offsets are in the order of lines and columns.** -/
theorem offsetOf_mono (source : List Char) {l c l' c' : Nat} (h : toLex (l, c) ≤ toLex (l', c')) :
    (ofSource source).offsetOf l c ≤ (ofSource source).offsetOf l' c' := by
  by_cases hline' : ∃ s, IsLine source l' s
  · obtain ⟨s', hs'⟩ := hline'
    rcases Prod.Lex.toLex_le_toLex.1 h with hlt | ⟨heq, hle⟩
    · -- Since there is a later line, there is this one.
      obtain ⟨s, hs⟩ : ∃ s, IsLine source l s := by
        have hlength := (List.getElem?_eq_some_iff.1 (isLine_iff.1 hs').1).1
        have hlt' : l < l' := hlt
        obtain ⟨s, hs, -⟩ := exists_isLine (List.getElem?_eq_getElem (l := (ofSource source).starts) (i := l) (by omega))
        exact ⟨s, hs⟩
      calc (ofSource source).offsetOf l c ≤ s.stop := (offsetOf_le_stop hs c).2
        _ ≤ s'.start := stop_le_start hs hs' hlt
        _ ≤ (ofSource source).offsetOf l' c' := (offsetOf_le_stop hs' c').1
    · obtain rfl : l = l' := heq
      obtain ⟨text, -, hoffset⟩ := offsetOf_eq hs'
      obtain ⟨more, hmore⟩ := List.take_prefix_take_left (l := text) (show c ≤ c' from hle)
      rw [hoffset, hoffset, ← hmore, byteLength_append]
      omega
  · rw [offsetOf_eq_byteLength (not_exists.1 hline')]
    exact offsetOf_le_byteLength source l c

/-- **Offsets and places are inverse to each other.** The place of an offset leads back to its boundary, and the offset
of a character on a line to its line and column. Other columns have the offset of the next line or of the end of the
source, and so do other lines; and offsets are in the order of lines and columns. -/
theorem offsetOf_spec (source : List Char) :
    (∀ offset, (ofSource source).offsetOf ((ofSource source).position offset).line
      ((ofSource source).position offset).column = ((ofSource source).position offset).offset) ∧
    (∀ l s, IsLine source l s → ∃ text, s.Covers source text ∧
      (∀ c, c < text.length → ((ofSource source).position ((ofSource source).offsetOf l c)).line = l ∧
        ((ofSource source).position ((ofSource source).offsetOf l c)).column = c) ∧
      ∀ c, text.length ≤ c →
        (∃ next, IsLine source (l + 1) next ∧ (ofSource source).offsetOf l c = next.start) ∨
          (∀ next, ¬ IsLine source (l + 1) next) ∧ (ofSource source).offsetOf l c = byteLength source) ∧
    (∀ l c, (∀ s, ¬ IsLine source l s) → (ofSource source).offsetOf l c = byteLength source) ∧
    ∀ l c l' c', toLex (l, c) ≤ toLex (l', c') → (ofSource source).offsetOf l c ≤ (ofSource source).offsetOf l' c' := by
  refine ⟨offsetOf_position source, fun l s hs => ?_, fun l c h => offsetOf_eq_byteLength h c, fun _ _ _ _ =>
    offsetOf_mono source⟩
  obtain ⟨text, htext, -⟩ := offsetOf_eq hs
  refine ⟨text, htext, fun c => position_offsetOf hs htext, fun c hc => ?_⟩
  rw [offsetOf_eq_stop hs htext hc]
  exact stop_eq_of_isLine hs

end LineIndex

end QueryAid
