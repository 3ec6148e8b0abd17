import QueryAid.Proofs.Document.Items
import Mathlib.Data.List.Pairwise
/-!
# Where the parts of a document stand

Every part of a document that is read from a source has a span that goes from the start of a token to the end of one, so
that it begins and ends with something that counts. The span of a name covers its value, the parts of a part stand in it
one behind the other, and so do the definitions in the source (`Document.wellPlaced_of_parse`).

All this follows from the layout of the document: the tokens of a part are some of the tokens of the source, in order,
and its span goes over them.
-/

namespace QueryAid

/-! ### Spans over tokens -/

/-- **A span is well formed:** it covers something in the source, it begins and ends between characters, and its first
and its last character belong to tokens. -/
structure Span.WellFormed (source : List Char) (s : Span) : Prop where
  start_lt_stop : s.start < s.stop
  stop_le_byteLength : s.stop ≤ byteLength source
  isBoundary_start : isBoundary source s.start = true
  isBoundary_stop : isBoundary source s.stop = true
  first : ∃ t ∈ tokens source, t.span.start = s.start ∧ t.span.stop ≤ s.stop
  last : ∃ t ∈ tokens source, t.span.stop = s.stop ∧ s.start ≤ t.span.start

section Over

variable {source : List Char} {ts ts' : List Token} {t : Token}

theorem start_lt_stop_of_mem_tokens (ht : t ∈ tokens source) : t.span.start < t.span.stop :=
  (covers_of_mem_tokens ht).1.start_lt_stop (covers_of_mem_tokens ht).2

theorem pairwise_of_sublist (h : ts.Sublist (tokens source)) : ts.Pairwise fun t t' => t.span.stop ≤ t'.span.start :=
  (pairwise_tokens source).sublist h

theorem exists_start_over (hne : ts ≠ []) : ∃ t ∈ ts, t.span.start = (Span.over ts).start := by
  obtain ⟨t, ts, rfl⟩ := List.exists_cons_of_ne_nil hne
  exact ⟨t, List.mem_cons_self, rfl⟩

theorem exists_stop_over (hne : ts ≠ []) : ∃ t ∈ ts, t.span.stop = (Span.over ts).stop := by
  refine ⟨ts.getLast hne, List.getLast_mem hne, ?_⟩
  rw [Span.over, List.getLast?_eq_some_getLast hne]
  rfl

theorem start_over_le (hsub : ts.Sublist (tokens source)) (ht : t ∈ ts) : (Span.over ts).start ≤ t.span.start := by
  obtain ⟨first, ts, rfl⟩ := List.exists_cons_of_ne_nil (List.ne_nil_of_mem ht)
  show first.span.start ≤ t.span.start
  rcases List.mem_cons.1 ht with rfl | hlater
  · exact Nat.le_refl _
  · have hlt := start_lt_stop_of_mem_tokens (hsub.subset List.mem_cons_self)
    have hle := (List.pairwise_cons.1 (pairwise_of_sublist hsub)).1 t hlater
    omega

theorem le_stop_over (hsub : ts.Sublist (tokens source)) (ht : t ∈ ts) : t.span.stop ≤ (Span.over ts).stop := by
  rcases List.eq_nil_or_concat ts with rfl | ⟨earlier, last, rfl⟩
  · cases ht
  · rw [List.concat_eq_append] at ht hsub ⊢
    have hover : (Span.over (earlier ++ [last])).stop = last.span.stop := by
      rw [Span.over, List.getLast?_append]
      rfl
    rw [hover]
    rcases List.mem_append.1 ht with hearlier | hlast
    · have hlt := start_lt_stop_of_mem_tokens (hsub.subset (List.mem_append_right earlier List.mem_cons_self))
      have hle := (List.pairwise_append.1 (pairwise_of_sublist hsub)).2.2 t hearlier last List.mem_cons_self
      omega
    · obtain rfl := List.mem_singleton.1 hlast
      exact Nat.le_refl _

/-- Some of the tokens of a row stand between its ends. -/
theorem over_le_over (hsub : ts.Sublist (tokens source)) (hsub' : ts'.Sublist ts) (hne : ts' ≠ []) :
    (Span.over ts).start ≤ (Span.over ts').start ∧ (Span.over ts').stop ≤ (Span.over ts).stop := by
  obtain ⟨t, ht, hstart⟩ := exists_start_over hne
  obtain ⟨t', ht', hstop⟩ := exists_stop_over hne
  exact ⟨hstart ▸ start_over_le hsub (hsub'.subset ht), hstop ▸ le_stop_over hsub (hsub'.subset ht')⟩

/-- Rows one behind the other have spans one behind the other. -/
theorem stop_over_le_start_over (hsub : (ts ++ ts').Sublist (tokens source)) (hne : ts ≠ []) (hne' : ts' ≠ []) :
    (Span.over ts).stop ≤ (Span.over ts').start := by
  obtain ⟨t, ht, hstop⟩ := exists_stop_over hne
  obtain ⟨t', ht', hstart⟩ := exists_start_over hne'
  rw [← hstop, ← hstart]
  exact (List.pairwise_append.1 (pairwise_of_sublist hsub)).2.2 t ht t' ht'

/-- **The span over some of the tokens of a source is well formed.** -/
theorem wellFormed_over (hsub : ts.Sublist (tokens source)) (hne : ts ≠ []) : (Span.over ts).WellFormed source := by
  obtain ⟨t, ht, hstart⟩ := exists_start_over hne
  obtain ⟨t', ht', hstop⟩ := exists_stop_over hne
  have hcovers := (covers_of_mem_tokens (hsub.subset ht)).1
  have hcovers' := (covers_of_mem_tokens (hsub.subset ht')).1
  have hle := start_over_le hsub ht'
  have hle' := le_stop_over hsub ht
  exact {
    start_lt_stop := by
      have hlt := start_lt_stop_of_mem_tokens (hsub.subset ht)
      omega
    stop_le_byteLength := hstop ▸ hcovers'.stop_le_byteLength
    isBoundary_start := hstart ▸ hcovers.isBoundary_start
    isBoundary_stop := hstop ▸ hcovers'.isBoundary_stop
    first := ⟨t, hsub.subset ht, hstart, hle'⟩
    last := ⟨t', hsub.subset ht', hstop, hle⟩ }

end Over

/-! ### Parts of layouts -/

namespace Layout

/-- The span of a part; marks, keywords and slack have none of their own. -/
def span? : Layout → Option Span
  | symbol _ | slack _ => none
  | name n => some n.span
  | variableName _ span | node span _ => some span

/-- The spans in a row. -/
def spans (ls : List Layout) : List Span := ls.filterMap span?

/-- **One layout is a part of another one,** at any depth. -/
inductive IsPart : Layout → Layout → Prop where
  | self (l : Layout) : IsPart l l
  | inVariable (n : Name) (span : Span) : IsPart (name n) (variableName n span)
  | inNode {m l : Layout} {span : Span} {parts : List Layout} (hl : l ∈ parts) (h : IsPart m l) :
      IsPart m (node span parts)

/-- **A part stands where it should.** A name covers its value; a variable begins with a dollar sign and ends with its
name; the spans of the children of a node lie in the span of the node, one behind the other. -/
def WellPlaced (source : List Char) : Layout → Prop
  | symbol _ | slack _ => True
  | name n => n.span.WellFormed source ∧ n.span.text? source = some n.value.toList
  | variableName n span =>
    span.WellFormed source ∧ span.start < n.span.start ∧ n.span.stop = span.stop ∧
      ∃ between, span.text? source = some ('$' :: between ++ n.value.toList)
  | node span parts =>
    span.WellFormed source ∧ (∀ s ∈ spans parts, span.start ≤ s.start ∧ s.stop ≤ span.stop) ∧
      (spans parts).Pairwise fun s s' => s.stop ≤ s'.start

variable {source : List Char} {l m : Layout} {ls : List Layout} {ts : List Token} {s : Span}

/-- A span goes over the tokens of its part, of which there are some. -/
theorem span?_eq_some (hs : l.span? = some s) (hts : ts ∈ l.language) : ts ≠ [] ∧ s = Span.over ts := by
  cases l with
  | symbol x => cases hs
  | slack x => cases hs
  | name n =>
    obtain ⟨t, rfl, -, rfl⟩ := hts
    cases hs
    exact ⟨List.cons_ne_nil _ _, rfl⟩
  | variableName n span =>
    obtain ⟨d, t, rfl, -, -, hspan⟩ := hts
    cases hs
    exact ⟨List.cons_ne_nil _ _, hspan⟩
  | node span parts =>
    rw [language] at hts
    cases hs
    exact hts.2

theorem exists_row_of_mem (hl : l ∈ ls) (hts : ts ∈ languageOfList ls) : ∃ own ∈ l.language, own.Sublist ts := by
  induction ls generalizing ts with
  | nil => cases hl
  | cons l' ls ih =>
    obtain ⟨own, hown, rest, hrest, rfl⟩ := mem_languageOfList_cons_iff.1 hts
    rcases List.mem_cons.1 hl with rfl | hl
    · exact ⟨own, hown, List.sublist_append_left own rest⟩
    · obtain ⟨own', hown', hsub⟩ := ih hl hrest
      exact ⟨own', hown', hsub.trans (List.sublist_append_right own rest)⟩

theorem exists_row_of_mem_spans (hs : s ∈ spans ls) (hts : ts ∈ languageOfList ls) :
    ∃ own, own ≠ [] ∧ own.Sublist ts ∧ s = Span.over own := by
  obtain ⟨l, hl, hspan⟩ := List.mem_filterMap.1 hs
  obtain ⟨own, hown, hsub⟩ := exists_row_of_mem hl hts
  obtain ⟨hne, rfl⟩ := span?_eq_some hspan hown
  exact ⟨own, hne, hsub, rfl⟩

/-- The spans in a row stand one behind the other. -/
theorem pairwise_spans (hts : ts ∈ languageOfList ls) (hsub : ts.Sublist (tokens source)) :
    (spans ls).Pairwise fun s s' => s.stop ≤ s'.start := by
  induction ls generalizing ts with
  | nil => exact List.Pairwise.nil
  | cons l ls ih =>
    obtain ⟨own, hown, rest, hrest, rfl⟩ := mem_languageOfList_cons_iff.1 hts
    have htail := ih hrest ((List.sublist_append_right own rest).trans hsub)
    cases hspan : l.span? with
    | none =>
      rw [spans, List.filterMap_cons_none hspan]
      exact htail
    | some s =>
      rw [spans, List.filterMap_cons_some hspan]
      refine List.pairwise_cons.2 ⟨fun s' hs' => ?_, htail⟩
      obtain ⟨hne, rfl⟩ := span?_eq_some hspan hown
      obtain ⟨own', hne', hsub', rfl⟩ := exists_row_of_mem_spans hs' hrest
      exact stop_over_le_start_over (((List.Sublist.refl own).append hsub').trans hsub) hne hne'

/-- **The tokens of a part are among the tokens of the whole.** -/
theorem exists_row_of_isPart (h : IsPart m l) (hts : ts ∈ l.language) : ∃ own ∈ m.language, own.Sublist ts := by
  induction h generalizing ts with
  | self l => exact ⟨ts, hts, List.Sublist.refl ts⟩
  | inVariable n span =>
    obtain ⟨d, t, rfl, -, ht, -⟩ := hts
    exact ⟨[t], ⟨t, rfl, ht⟩, List.sublist_cons_self d [t]⟩
  | inNode hl h ih =>
    rw [language] at hts
    obtain ⟨own, hown, hsub⟩ := exists_row_of_mem hl hts.1
    obtain ⟨own', hown', hsub'⟩ := ih hown
    exact ⟨own', hown', hsub'.trans hsub⟩

/-- **What is laid out over tokens of a source stands where it should.** -/
theorem wellPlaced_of_mem_language (hts : ts ∈ l.language) (hsub : ts.Sublist (tokens source)) :
    l.WellPlaced source := by
  cases l with
  | symbol x => trivial
  | slack x => trivial
  | name n =>
    obtain ⟨t, rfl, -, rfl⟩ := hts
    have ht := hsub.subset List.mem_cons_self
    exact ⟨wellFormed_over hsub (List.cons_ne_nil _ _), Span.text?_eq_some_iff.2 (covers_of_mem_tokens ht).1⟩
  | variableName n span =>
    obtain ⟨d, t, rfl, hd, ⟨-, rfl⟩, rfl⟩ := hts
    have hdollar := (covers_of_mem_tokens (hsub.subset List.mem_cons_self)).1
    have hname := (covers_of_mem_tokens (hsub.subset (List.mem_cons_of_mem d List.mem_cons_self))).1
    have hlt := start_lt_stop_of_mem_tokens (hsub.subset List.mem_cons_self)
    have hle := (List.pairwise_cons.1 (pairwise_of_sublist hsub)).1 t List.mem_cons_self
    obtain ⟨between, hbetween⟩ := Span.exists_covers_of_boundaries (s := ⟨d.span.stop, t.span.start⟩) hle
      hdollar.isBoundary_stop hname.isBoundary_start
    have htext : d.text = "$" := congrArg Symbol.text hd
    rw [htext] at hdollar
    refine ⟨wellFormed_over hsub (List.cons_ne_nil _ _), lt_of_lt_of_le hlt hle, rfl, between, ?_⟩
    exact Span.text?_eq_some_iff.2 ((hdollar.append hbetween rfl).append hname rfl)
  | node span parts =>
    rw [language] at hts
    obtain ⟨hparts, hne, rfl⟩ := hts
    refine ⟨wellFormed_over hsub hne, fun s hs => ?_, pairwise_spans hparts hsub⟩
    obtain ⟨own, hne', hsub', rfl⟩ := exists_row_of_mem_spans hs hparts
    exact over_le_over hsub hsub' hne'

end Layout

/-! ### Documents -/

/-- The span of an item. -/
def DocumentItem.span : DocumentItem → Span
  | executable x => x.span
  | typeSystem x => x.span

theorem DocumentItem.span?_layout (x : DocumentItem) : x.layout.span? = some x.span := by
  obtain (o | f) | x := x <;> rfl

namespace Document

/-- A part of a document. -/
def IsPart (l : Layout) (d : Document) : Prop :=
  (∃ x ∈ d.definitions, l.IsPart x.layout) ∨ ∃ x ∈ d.nonExecutable, l.IsPart x.layout

/-- **A document stands in its source as it should:** its parts do, and its definitions stand one behind the other. -/
structure WellPlaced (source : List Char) (d : Document) : Prop where
  parts : ∀ l, IsPart l d → l.WellPlaced source
  definitions : d.definitions.Pairwise fun x y => x.span.stop ≤ y.span.start
  nonExecutable : d.nonExecutable.Pairwise fun x y => x.span.stop ≤ y.span.start
  apart : ∀ x ∈ d.definitions, ∀ y ∈ d.nonExecutable, x.span.stop ≤ y.span.start ∨ y.span.stop ≤ x.span.start

variable {source : List Char} {d : Document} {items : List DocumentItem} {l : Layout}

theorem mem_definitions_ofItems {x : Definition} : x ∈ (ofItems items).definitions ↔ .executable x ∈ items := by
  simp only [ofItems, List.mem_filterMap]
  constructor
  · rintro ⟨y | y, hy, hxy⟩
    · exact Option.some.inj hxy ▸ hy
    · cases hxy
  · exact fun hx => ⟨_, hx, rfl⟩

theorem mem_nonExecutable_ofItems {x : NonExecutable} : x ∈ (ofItems items).nonExecutable ↔ .typeSystem x ∈ items := by
  simp only [ofItems, List.mem_filterMap]
  constructor
  · rintro ⟨y | y, hy, hxy⟩
    · cases hxy
    · exact Option.some.inj hxy ▸ hy
  · exact fun hx => ⟨_, hx, rfl⟩

theorem exists_item_of_isPart (h : IsPart l (ofItems items)) : ∃ x ∈ items, l.IsPart x.layout := by
  rcases h with ⟨x, hx, hl⟩ | ⟨x, hx, hl⟩
  · exact ⟨.executable x, mem_definitions_ofItems.1 hx, hl⟩
  · exact ⟨.typeSystem x, mem_nonExecutable_ofItems.1 hx, hl⟩

/-- The parts of a document that is read from a source stand where they should. -/
theorem layout_wellPlaced_of_parse (h : parse source = .ok d) (hl : IsPart l d) : l.WellPlaced source := by
  obtain ⟨items, rfl, hts⟩ := tokens_mem_of_parse h
  obtain ⟨x, hx, hl⟩ := exists_item_of_isPart hl
  obtain ⟨ts, hts, hsub⟩ := Layout.exists_row_of_mem (List.mem_map_of_mem hx) hts
  obtain ⟨own, hown, hsub'⟩ := Layout.exists_row_of_isPart hl hts
  exact Layout.wellPlaced_of_mem_language hown (hsub'.trans hsub)

/-- The items of a source stand one behind the other. -/
theorem pairwise_items (hts : tokens source ∈ Layout.languageOfList (items.map DocumentItem.layout)) :
    items.Pairwise fun x y => x.span.stop ≤ y.span.start := by
  have hspans := Layout.pairwise_spans hts (List.Sublist.refl _)
  have heq : Layout.spans (items.map DocumentItem.layout) = items.map DocumentItem.span := by
    rw [Layout.spans, List.filterMap_map, ← List.filterMap_eq_map]
    exact congrArg (List.filterMap · items) (funext DocumentItem.span?_layout)
  rw [heq] at hspans
  exact List.pairwise_map.1 hspans

/-- What is picked from items stands in the same order. -/
theorem pairwise_filterMap {α : Type} {pick : DocumentItem → Option α} {span : α → Span}
    (hitems : items.Pairwise fun x y => x.span.stop ≤ y.span.start) (hspan : ∀ x a, pick x = some a → x.span = span a) :
    (items.filterMap pick).Pairwise fun a b => (span a).stop ≤ (span b).start := by
  refine List.pairwise_filterMap.2 (hitems.imp fun {x y} hle a ha b hb => ?_)
  rw [← hspan x a ha, ← hspan y b hb]
  exact hle

/-- **A document that is read from a source stands in it as it should.** -/
theorem wellPlaced_of_parse (h : parse source = .ok d) : d.WellPlaced source := by
  obtain ⟨items, rfl, hts⟩ := tokens_mem_of_parse h
  have hitems := pairwise_items hts
  exact {
    parts := fun l => layout_wellPlaced_of_parse h
    definitions := by
      refine pairwise_filterMap hitems ?_
      rintro (x | x) y hxy <;> cases hxy
      rfl
    nonExecutable := by
      refine pairwise_filterMap hitems ?_
      rintro (x | x) y hxy <;> cases hxy
      rfl
    apart := by
      intro x hx y hy
      have hsymm : Std.Symm fun x y : DocumentItem => x.span.stop ≤ y.span.start ∨ y.span.stop ≤ x.span.start :=
        ⟨fun _ _ => Or.symm⟩
      have hapart : items.Pairwise fun x y => x.span.stop ≤ y.span.start ∨ y.span.stop ≤ x.span.start :=
        hitems.imp Or.inl
      exact hapart.forall (mem_definitions_ofItems.1 hx) (mem_nonExecutable_ofItems.1 hy) nofun }

/-- The parts of values, types and selections stand where they should at any depth. -/
theorem wellPlaced_of_nested_parts :
    let source := "# c\n query Q($x: [Int!] = [1, 2]) { a: f(o: {k: $x}) , ... on T { b , } ...F } type T".toList
    ∃ d, parse source = .ok d ∧ d.WellPlaced source := by
  intro source
  have hparses : (parse source).isOk = true := by decide +kernel
  cases h : parse source with
  | error e =>
    rw [h] at hparses
    cases hparses
  | ok d => exact ⟨d, rfl, wellPlaced_of_parse h⟩

end Document

end QueryAid
