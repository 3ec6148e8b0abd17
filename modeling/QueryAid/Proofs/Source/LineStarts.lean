import QueryAid.Proofs.Source.Bytes
import QueryAid.Source.LineIndex
import Mathlib.Data.Nat.Count
import Mathlib.Order.Bounds.Basic
/-!
# Where lines start

A line terminator is `\n`, `\r\n`, or a `\r` that no `\n` follows. `Terminates` says where one ends, without going
through the source from the left. The starts that an index holds are the start of the source and the ends of the
terminators (`LineIndex.mem_starts_iff`), each of them between characters, and in strictly increasing order
(`LineIndex.pairwise_starts`). So a search among them finds the number of the line of an offset, which is the number of
terminators that end up to there (`LineIndex.takeWhile_laterStarts_eq_count`).

`IsLine` says which range of a source is which line, and `LineIndex.isLine_iff` where the index has it.
-/

namespace QueryAid

variable {source cs : List Char} {c : Char} {l n k start offset : Nat}

/-! ### Line terminators -/

/-- **A line terminator,** when `behind` follows it. -/
inductive IsTerminator : List Char → List Char → Prop where
  | lineFeed {behind : List Char} : IsTerminator ['\n'] behind
  | carriageReturnLineFeed {behind : List Char} : IsTerminator ['\r', '\n'] behind
  | carriageReturn {behind : List Char} (h : behind.head? ≠ some '\n') : IsTerminator ['\r'] behind

/-- **A line terminator ends at an offset.** What ends there is one terminator, be it `\r\n` or its last character. -/
def Terminates (source : List Char) (n : Nat) : Prop :=
  ∃ before terminator behind, source = before ++ (terminator ++ behind) ∧ IsTerminator terminator behind ∧
    n = byteLength before + byteLength terminator

theorem isTerminator_singleton_iff :
    IsTerminator [c] cs ↔ c = '\n' ∨ c = '\r' ∧ cs.head? ≠ some '\n' := by
  constructor
  · intro h
    cases h with
    | lineFeed => exact .inl rfl
    | carriageReturn h => exact .inr ⟨rfl, h⟩
  · rintro (rfl | ⟨rfl, h⟩)
    · exact .lineFeed
    · exact .carriageReturn h

theorem not_terminates_nil : ¬ Terminates [] n := by
  rintro ⟨before, terminator, behind, hnil, hterminator, -⟩
  have hterminator' : terminator = [] := (List.append_eq_nil_iff.1 (List.append_eq_nil_iff.1 hnil.symm).2).1
  rw [hterminator'] at hterminator
  cases hterminator

/-- A terminator is the first character, or it ends behind. -/
theorem terminates_cons_iff :
    Terminates (c :: cs) n ↔ IsTerminator [c] cs ∧ n = c.utf8Size ∨ ∃ m, Terminates cs m ∧ n = c.utf8Size + m := by
  constructor
  · rintro ⟨before, terminator, behind, hsource, hterminator, rfl⟩
    cases before with
    | cons d before =>
      obtain ⟨rfl, rfl⟩ := List.cons_eq_cons.1 hsource
      right
      refine ⟨_, ⟨before, terminator, behind, rfl, hterminator, rfl⟩, ?_⟩
      rw [byteLength, Nat.add_assoc]
    | nil =>
      rw [byteLength_nil, Nat.zero_add]
      cases hterminator with
      | lineFeed =>
        obtain ⟨rfl, rfl⟩ := List.cons_eq_cons.1 hsource
        exact .inl ⟨.lineFeed, rfl⟩
      | carriageReturn h =>
        obtain ⟨rfl, rfl⟩ := List.cons_eq_cons.1 hsource
        exact .inl ⟨.carriageReturn h, rfl⟩
      | carriageReturnLineFeed =>
        -- The line feed by itself ends at the same place.
        obtain ⟨rfl, rfl⟩ := List.cons_eq_cons.1 hsource
        exact .inr ⟨_, ⟨[], ['\n'], behind, rfl, .lineFeed, rfl⟩, rfl⟩
  · rintro (⟨hterminator, rfl⟩ | ⟨m, ⟨before, terminator, behind, rfl, hterminator, rfl⟩, rfl⟩)
    · refine ⟨[], [c], cs, rfl, hterminator, ?_⟩
      simp [byteLength]
    · refine ⟨c :: before, terminator, behind, rfl, hterminator, ?_⟩
      rw [byteLength, Nat.add_assoc]

theorem isBoundary_zero (source : List Char) : isBoundary source 0 = true :=
  isBoundary_iff.2 ⟨[], source, rfl, rfl⟩

theorem Terminates.isBoundary (h : Terminates source n) : isBoundary source n = true := by
  obtain ⟨before, terminator, behind, rfl, -, rfl⟩ := h
  apply isBoundary_iff.2
  refine ⟨before ++ terminator, behind, ?_, ?_⟩
  · rw [List.append_assoc]
  · rw [byteLength_append]

theorem Terminates.le_byteLength (h : Terminates source n) : n ≤ byteLength source := by
  obtain ⟨before, terminator, behind, rfl, -, rfl⟩ := h
  simp only [byteLength_append]
  omega

/-- **The scan lists where terminators end.** It jumps over both characters of `\r\n`, and no terminator ends between
them. -/
theorem mem_lineStartsFrom_iff : n ∈ lineStartsFrom offset cs ↔ ∃ m, Terminates cs m ∧ n = offset + m := by
  have hreturn : Char.utf8Size '\r' = 1 := by decide
  have hfeed : Char.utf8Size '\n' = 1 := by decide
  fun_induction lineStartsFrom offset cs with
  | case1 offset => exact iff_of_false List.not_mem_nil fun ⟨m, h, _⟩ => not_terminates_nil h
  | case2 offset cs ih =>
    have hpair : ∀ m, Terminates ('\r' :: '\n' :: cs) m ↔ m = 2 ∨ ∃ m', Terminates cs m' ∧ m = 2 + m' := by
      intro m
      rw [terminates_cons_iff, isTerminator_singleton_iff, hreturn]
      simp only [terminates_cons_iff, isTerminator_singleton_iff, hfeed]
      constructor
      · rintro (⟨h, -⟩ | ⟨_, ⟨-, rfl⟩ | ⟨m', h, rfl⟩, rfl⟩)
        · simp at h
        · exact .inl rfl
        · exact .inr ⟨m', h, by omega⟩
      · rintro (rfl | ⟨m', h, rfl⟩)
        · exact .inr ⟨1, by simp, rfl⟩
        · exact .inr ⟨1 + m', .inr ⟨m', h, rfl⟩, by omega⟩
    rw [List.mem_cons]
    refine (or_congr_right ih).trans ?_
    simp only [hpair]
    constructor
    · rintro (rfl | ⟨m, h, rfl⟩)
      · exact ⟨2, .inl rfl, rfl⟩
      · exact ⟨2 + m, .inr ⟨m, h, rfl⟩, by omega⟩
    · rintro ⟨_, rfl | ⟨m, h, rfl⟩, rfl⟩
      · exact .inl rfl
      · exact .inr ⟨m, h, by omega⟩
  | case3 offset c cs hnot hends ih =>
    have hhead : IsTerminator [c] cs := by
      apply isTerminator_singleton_iff.2
      rcases hends with rfl | rfl
      · refine .inr ⟨rfl, fun hhead => ?_⟩
        obtain ⟨cs', rfl⟩ := List.head?_eq_some_iff.1 hhead
        exact hnot cs' rfl rfl
      · exact .inl rfl
    have hsize : c.utf8Size = 1 := by
      rcases hends with rfl | rfl
      · exact hreturn
      · exact hfeed
    rw [List.mem_cons]
    refine (or_congr_right ih).trans ?_
    simp only [terminates_cons_iff, hhead, true_and, hsize]
    constructor
    · rintro (rfl | ⟨m, h, rfl⟩)
      · exact ⟨1, .inl rfl, rfl⟩
      · exact ⟨1 + m, .inr ⟨m, h, rfl⟩, by omega⟩
    · rintro ⟨_, rfl | ⟨m, h, rfl⟩, rfl⟩
      · exact .inl rfl
      · exact .inr ⟨m, h, by omega⟩
  | case4 offset c cs hnot hends ih =>
    have hhead : ¬ IsTerminator [c] cs := by
      rw [isTerminator_singleton_iff]
      rintro (rfl | ⟨rfl, -⟩)
      · exact hends (.inr rfl)
      · exact hends (.inl rfl)
    refine ih.trans ?_
    simp only [terminates_cons_iff, hhead, false_and, false_or]
    constructor
    · rintro ⟨m, h, rfl⟩
      exact ⟨c.utf8Size + m, ⟨m, h, rfl⟩, by omega⟩
    · rintro ⟨_, ⟨m, h, rfl⟩, rfl⟩
      exact ⟨m, h, by omega⟩

theorem Terminates.pos (h : Terminates source n) : 0 < n := by
  obtain ⟨before, terminator, behind, -, hterminator, rfl⟩ := h
  have hne : terminator ≠ [] := by
    rintro rfl
    cases hterminator
  have hpos := byteLength_pos hne
  omega

theorem lt_of_mem_lineStartsFrom (h : n ∈ lineStartsFrom offset cs) : offset < n := by
  obtain ⟨m, hm, rfl⟩ := mem_lineStartsFrom_iff.1 h
  have hpos := hm.pos
  omega

/-- **The scan lists each of them once, in order.** -/
theorem pairwise_lineStartsFrom (offset : Nat) (cs : List Char) : (lineStartsFrom offset cs).Pairwise (· < ·) := by
  fun_induction lineStartsFrom offset cs with
  | case1 offset => exact List.Pairwise.nil
  | case2 offset cs ih => exact List.pairwise_cons.2 ⟨fun n => lt_of_mem_lineStartsFrom, ih⟩
  | case3 offset c cs _ _ ih => exact List.pairwise_cons.2 ⟨fun n => lt_of_mem_lineStartsFrom, ih⟩
  | case4 offset c cs _ _ ih => exact ih

/-! ### Searching in order -/

section Search

variable {a : Nat} {starts : List Nat}

/-- What is not above a bound comes first. -/
theorem takeWhile_eq_filter_of_pairwise (h : starts.Pairwise (· < ·)) :
    starts.takeWhile (· ≤ k) = starts.filter (· ≤ k) := by
  induction starts with
  | nil => rfl
  | cons b starts ih =>
    rw [List.pairwise_cons] at h
    by_cases hb : b ≤ k
    · simp [hb, ih h.2]
    · have hnone : starts.filter (· ≤ k) = [] := by
        apply List.filter_eq_nil_iff.2
        intro x hx
        have hlt := h.1 x hx
        simp only [decide_eq_true_eq]
        omega
      simp [hb, hnone]

/-- The search finds an element that is the greatest of those that are not above the bound. -/
theorem exists_isGreatest_of_search (h : (a :: starts).Pairwise (· < ·)) (ha : a ≤ k) :
    ∃ start, (a :: starts)[(starts.takeWhile (· ≤ k)).length]? = some start ∧
      IsGreatest {x | x ∈ a :: starts ∧ x ≤ k} start := by
  induction starts generalizing a with
  | nil =>
    refine ⟨a, rfl, ⟨List.mem_singleton_self a, ha⟩, ?_⟩
    rintro x ⟨hx, -⟩
    rw [List.mem_singleton.1 hx]
  | cons b starts ih =>
    rw [List.pairwise_cons] at h
    by_cases hb : b ≤ k
    · obtain ⟨start, hget, ⟨hmem, hle⟩, hgreatest⟩ := ih h.2 hb
      refine ⟨start, ?_, ⟨List.mem_cons_of_mem a hmem, hle⟩, ?_⟩
      · simpa [hb] using hget
      · rintro x ⟨hx, hxk⟩
        rcases List.mem_cons.1 hx with rfl | hx
        · exact Nat.le_of_lt (h.1 start hmem)
        · exact hgreatest ⟨hx, hxk⟩
    · refine ⟨a, by simp [hb], ⟨List.mem_cons_self, ha⟩, ?_⟩
      rintro x ⟨hx, hxk⟩
      rcases List.mem_cons.1 hx with rfl | hx
      · exact Nat.le_refl x
      · -- All that comes later is above the bound.
        rcases List.mem_cons.1 hx with rfl | hx
        · exact absurd hxk hb
        · have hlt := (List.pairwise_cons.1 h.2).1 x hx
          omega

/-- An element in order is below another one exactly if it comes earlier. -/
theorem lt_iff_of_getElem? (h : starts.Pairwise (· < ·)) {i j x y : Nat} (hx : starts[i]? = some x)
    (hy : starts[j]? = some y) : x < y ↔ i < j := by
  obtain ⟨hi, rfl⟩ := List.getElem?_eq_some_iff.1 hx
  obtain ⟨hj, rfl⟩ := List.getElem?_eq_some_iff.1 hy
  have hordered := List.pairwise_iff_getElem.1 h
  constructor
  · intro hlt
    by_contra hge
    rcases Nat.lt_or_eq_of_le (Nat.le_of_not_lt hge) with hlt' | rfl
    · have hlt'' := hordered j i hj hi hlt'
      omega
    · omega
  · intro hlt
    exact hordered i j hi hj hlt

end Search

namespace LineIndex

/-! ### The starts of an index -/

theorem mem_laterStarts_iff : n ∈ (ofSource source).laterStarts ↔ Terminates source n := by
  show n ∈ lineStartsFrom 0 source ↔ Terminates source n
  rw [mem_lineStartsFrom_iff]
  simp

theorem mem_starts_iff : n ∈ (ofSource source).starts ↔ n = 0 ∨ Terminates source n := by
  rw [starts, List.mem_cons, mem_laterStarts_iff]

/-- **The starts are in strictly increasing order.** -/
theorem pairwise_starts (source : List Char) : (ofSource source).starts.Pairwise (· < ·) :=
  List.pairwise_cons.2 ⟨fun _ => lt_of_mem_lineStartsFrom, pairwise_lineStartsFrom 0 source⟩

theorem isBoundary_of_mem_starts (h : n ∈ (ofSource source).starts) : isBoundary source n = true := by
  rcases mem_starts_iff.1 h with rfl | h
  · exact isBoundary_zero source
  · exact h.isBoundary

theorem le_byteLength_of_mem_starts (h : n ∈ (ofSource source).starts) : n ≤ byteLength source := by
  rcases mem_starts_iff.1 h with rfl | h
  · exact Nat.zero_le _
  · exact h.le_byteLength

instance (source : List Char) : DecidablePred (Terminates source) := fun n =>
  decidable_of_iff (n ∈ (ofSource source).laterStarts) mem_laterStarts_iff

/-- **The number of starts up to an offset, the first one aside, is the number of terminators that end up to there.** -/
theorem takeWhile_laterStarts_eq_count (source : List Char) (k : Nat) :
    ((ofSource source).laterStarts.takeWhile (· ≤ k)).length = Nat.count (Terminates source) (k + 1) := by
  have hlater : (ofSource source).laterStarts.Pairwise (· < ·) := pairwise_lineStartsFrom 0 source
  have hnodup : ((ofSource source).laterStarts.filter (· ≤ k)).Nodup :=
    (hlater.imp fun hlt => Nat.ne_of_lt hlt).filter _
  rw [takeWhile_eq_filter_of_pairwise hlater, ← List.toFinset_card_of_nodup hnodup, Nat.count_eq_card_filter_range]
  congr 1
  ext n
  simp only [List.mem_toFinset, List.mem_filter, mem_laterStarts_iff, decide_eq_true_eq, Finset.mem_filter,
    Finset.mem_range, Nat.lt_succ_iff]
  exact and_comm

/-- The greatest start up to an offset is found under the number of the line. -/
theorem exists_start (source : List Char) (k : Nat) :
    ∃ start, (ofSource source).starts[Nat.count (Terminates source) (k + 1)]? = some start ∧
      IsGreatest {n | n ∈ (ofSource source).starts ∧ n ≤ k} start := by
  rw [← takeWhile_laterStarts_eq_count]
  exact exists_isGreatest_of_search (pairwise_starts source) (Nat.zero_le k)

/-- An offset belongs to the line of a start if the start is not behind it and the next one is. -/
theorem count_eq_of_between (hstart : (ofSource source).starts[l]? = some start) (hle : start ≤ k)
    (hnext : ∀ next, (ofSource source).starts[l + 1]? = some next → k < next) :
    Nat.count (Terminates source) (k + 1) = l := by
  obtain ⟨start', hstart', ⟨hmem, hle'⟩, hgreatest⟩ := exists_start source k
  have hiff := lt_iff_of_getElem? (pairwise_starts source) hstart hstart'
  have hnotBefore : start ≤ start' := hgreatest ⟨List.mem_of_getElem? hstart, hle⟩
  have hge : l ≤ Nat.count (Terminates source) (k + 1) := by
    have hiff' := lt_iff_of_getElem? (pairwise_starts source) hstart' hstart
    omega
  rcases Nat.lt_or_eq_of_le hge with hlt | heq
  · -- Then the next line starts behind the offset, and not behind the start that was found.
    obtain ⟨next, hget⟩ : ∃ next, (ofSource source).starts[l + 1]? = some next := by
      have hlength := (List.getElem?_eq_some_iff.1 hstart').1
      exact ⟨_, List.getElem?_eq_getElem (by omega)⟩
    have hlate := hnext next hget
    have hiff' := lt_iff_of_getElem? (pairwise_starts source) hstart' hget
    omega
  · exact heq.symm

/-- A line stops where the next terminator ends, or with the source. -/
theorem isLeast_next (hstart : (ofSource source).starts[l]? = some start) :
    IsLeast {n | Terminates source n ∧ start < n ∨ n = byteLength source}
      ((ofSource source).starts.getD (l + 1) (byteLength source)) := by
  rw [List.getD_eq_getElem?_getD]
  cases hget : (ofSource source).starts[l + 1]? with
  | none =>
    refine ⟨.inr rfl, ?_⟩
    rintro n (⟨hn, hlt⟩ | rfl)
    · obtain ⟨j, hj⟩ := List.getElem?_of_mem (mem_starts_iff.2 (.inr hn))
      have hiff := lt_iff_of_getElem? (pairwise_starts source) hstart hj
      have hlength := (List.getElem?_eq_some_iff.1 hj).1
      have hend := List.getElem?_eq_none_iff.1 hget
      omega
    · exact Nat.le_refl _
  | some next =>
    have hlt : start < next := (lt_iff_of_getElem? (pairwise_starts source) hstart hget).2 (Nat.lt_succ_self l)
    have hmem := List.mem_of_getElem? hget
    have hnext : Terminates source next := (mem_starts_iff.1 hmem).resolve_left (by omega)
    refine ⟨.inl ⟨hnext, hlt⟩, ?_⟩
    rintro n (⟨hn, hlater⟩ | rfl)
    · obtain ⟨j, hj⟩ := List.getElem?_of_mem (mem_starts_iff.2 (.inr hn))
      have hiff := lt_iff_of_getElem? (pairwise_starts source) hstart hj
      have hiff' := lt_iff_of_getElem? (pairwise_starts source) hj hget
      show next ≤ n
      omega
    · exact hnext.le_byteLength

end LineIndex

/-! ### Lines -/

/-- **A range of a source is the line of a number,** its terminator included. It starts where the source does or where a
terminator ends, as many terminators end up to there as the number says, and it stops where the next one ends, or with
the source. -/
structure IsLine (source : List Char) (number : Nat) (s : Span) : Prop where
  start : s.start = 0 ∨ Terminates source s.start
  number : Nat.count (Terminates source) (s.start + 1) = number
  stop : IsLeast {n | Terminates source n ∧ s.start < n ∨ n = byteLength source} s.stop

/-- **An index has the start of each line under its number,** and where it stops under the next one. -/
theorem LineIndex.isLine_iff {s : Span} : IsLine source l s ↔ (ofSource source).starts[l]? = some s.start ∧
    (ofSource source).starts.getD (l + 1) (byteLength source) = s.stop := by
  constructor
  · intro h
    obtain ⟨start, hstart, ⟨-, hle⟩, hgreatest⟩ := exists_start source s.start
    have hge : s.start ≤ start := hgreatest ⟨mem_starts_iff.2 h.start, Nat.le_refl _⟩
    obtain rfl : start = s.start := Nat.le_antisymm hle hge
    rw [h.number] at hstart
    exact ⟨hstart, (isLeast_next hstart).unique h.stop⟩
  · rintro ⟨hstart, hstop⟩
    have hnext : ∀ next, (ofSource source).starts[l + 1]? = some next → s.start < next := fun next hget =>
      (lt_iff_of_getElem? (pairwise_starts source) hstart hget).2 (Nat.lt_succ_self l)
    exact {
      start := mem_starts_iff.1 (List.mem_of_getElem? hstart)
      number := count_eq_of_between hstart (Nat.le_refl _) hnext
      stop := hstop ▸ isLeast_next hstart }

end QueryAid
