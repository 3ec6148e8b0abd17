import QueryAid.Files.Extension
import QueryAid.Proofs.Text.LowerCase
import Mathlib.Data.List.Sort
import Mathlib.Data.String.Basic
/-!
# Which extensions are meant

A text says an extension by what is left of it without the white space around it, and without the points at the front of
what remains (`IsBodyOf`). It is put into lower case, and neither step is undone by that.

The steps are taken once each. White space that stands behind the points is not taken off any more, and such a gap is the
only thing that keeps an extension from being bare: without one nothing is left to take off, and with one something is,
every time (`normalizeExtensions_idem_iff`).
-/

namespace QueryAid

variable {e x s : String} {es l : List String} {body : List Char}

/-! ### What a text says -/

/-- **What a text says of an extension:** it stands in the text behind points, or without them, and nothing but white space
is around. -/
def IsBodyOf (body : List Char) (text : String) : Prop :=
  ∃ points, StandsIn (points ++ body) text.toList ∧ points.all (· == '.') = true ∧ begins (· == '.') body = false

/-- What is left of a text without white space around it and points before it. -/
def extensionBody (text : String) : List Char := (trim text).toList.dropWhile fun c => c == '.'

/-- **Every text says exactly one thing.** -/
theorem extensionBody_eq_iff : extensionBody e = body ↔ IsBodyOf body e := by
  rw [extensionBody, dropWhile_eq_iff]
  simp only [toList_trim_eq_iff]
  rfl

theorem isBodyOf_extensionBody (e : String) : IsBodyOf (extensionBody e) e := extensionBody_eq_iff.1 rfl

theorem toList_normalizeExtension (e : String) : (normalizeExtension e).toList = lowerCaseFrom [] (extensionBody e) := by
  rw [normalizeExtension, lowerCase, String.toList_ofList, String.toList_ofList, extensionBody]

theorem normalizeExtension_eq_empty_iff : normalizeExtension e = "" ↔ extensionBody e = [] := by
  rw [← String.toList_inj, toList_normalizeExtension]
  exact lowerCaseFrom_eq_nil_iff

/-- **White space behind the points** at the front of a text. -/
def HasGap (text : String) : Prop :=
  ∃ points rest, StandsIn (points ++ rest) text.toList ∧ points.all (· == '.') = true ∧ points ≠ [] ∧
    begins isWhite rest = true

/-- What begins with white space does not begin with a point. -/
theorem begins_point_of_begins_isWhite (h : begins isWhite body = true) : begins (· == '.') body = false := by
  cases body with
  | nil => rfl
  | cons c rest =>
    have hc : isWhite c = true := h
    have hne : c ≠ '.' := by
      rintro rfl
      exact absurd hc (by decide)
    exact beq_eq_false_iff_ne.2 hne

theorem hasGap_iff : HasGap e ↔ begins isWhite (extensionBody e) = true := by
  constructor
  · rintro ⟨points, rest, hstands, hall, -, hrest⟩
    rw [extensionBody_eq_iff.2 ⟨points, hstands, hall, begins_point_of_begins_isWhite hrest⟩]
    exact hrest
  · intro h
    obtain ⟨points, hstands, hall, -⟩ := isBodyOf_extensionBody e
    refine ⟨points, extensionBody e, hstands, hall, ?_, h⟩
    -- Without points, the white space would be at the front of the text.
    rintro rfl
    obtain ⟨front, back, -, -, -, hbegins, -⟩ := hstands
    rw [List.nil_append] at hbegins
    exact Bool.false_ne_true (hbegins.symm.trans h)

theorem begins_isWhite_normalizeExtension_iff : begins isWhite (normalizeExtension e).toList = true ↔ HasGap e := by
  rw [toList_normalizeExtension, caseless_isWhite.begins_lowerCaseFrom, hasGap_iff]

/-! ### Extensions in normal form -/

/-- **What holds of every extension that is meant.** -/
structure IsNormal (x : String) : Prop where
  ne_empty : x ≠ ""
  point : begins (· == '.') x.toList = false
  back : ends isWhite x.toList = false
  lower : lowerCase x = x

theorem isNormal_normalizeExtension (h : normalizeExtension e ≠ "") : IsNormal (normalizeExtension e) where
  ne_empty := h
  point := by
    obtain ⟨points, -, -, hpoint⟩ := isBodyOf_extensionBody e
    rw [toList_normalizeExtension, caseless_point.begins_lowerCaseFrom]
    exact hpoint
  back := by
    obtain ⟨points, ⟨front, back, -, -, -, -, hends⟩, -, -⟩ := isBodyOf_extensionBody e
    rw [ends_append (mt normalizeExtension_eq_empty_iff.2 h)] at hends
    rw [toList_normalizeExtension, caseless_isWhite.ends_lowerCaseFrom]
    exact hends
  lower := lowerCase_lowerCase _

/-- An extension in normal form is meant as it is, if it does not begin with white space. -/
theorem IsNormal.normalizeExtension_eq_self (h : IsNormal x) (hwhite : begins isWhite x.toList = false) :
    normalizeExtension x = x := by
  have hstands : StandsIn x.toList x.toList := ⟨[], [], (List.append_nil _).symm, rfl, rfl, hwhite, h.back⟩
  have hbody : extensionBody x = x.toList := extensionBody_eq_iff.2 ⟨[], hstands, rfl, h.point⟩
  rw [extensionBody] at hbody
  rw [normalizeExtension, hbody, String.ofList_toList, h.lower]

/-- **A gap in an extension in normal form** is behind white space, and something is left out when it is read again. -/
theorem IsNormal.of_hasGap (h : IsNormal x) (hgap : HasGap x) :
    begins isWhite x.toList = true ∧ (normalizeExtension x).toList.length < x.toList.length := by
  obtain ⟨points, rest, ⟨front, back, htext, hfront, hback, hbegins, hends⟩, hall, hne, hrest⟩ := hgap
  have hbody : extensionBody x = rest :=
    extensionBody_eq_iff.2 ⟨points, ⟨front, back, htext, hfront, hback, hbegins, hends⟩, hall,
      begins_point_of_begins_isWhite hrest⟩
  constructor
  · cases front with
    | nil =>
      -- Then the points would be at the front of the extension.
      cases points with
      | nil => exact absurd rfl hne
      | cons p points =>
        have hpoint := h.point
        rw [htext] at hpoint
        have hp : (p == '.') = true := List.all_eq_true.1 hall p List.mem_cons_self
        exact absurd (hpoint.symm.trans hp) Bool.false_ne_true
    | cons c front =>
      rw [htext]
      exact List.all_eq_true.1 hfront c List.mem_cons_self
  · have hlower : lowerCaseFrom [] rest = rest := by
      refine lowerCaseFrom_eq_self fun c hc => lowerCase_eq_self_iff.1 h.lower c ?_
      rw [htext]
      exact List.mem_append_left _ (List.mem_append_right _ (List.mem_append_right _ hc))
    have hpos := List.length_pos_of_ne_nil hne
    rw [toList_normalizeExtension, hbody, hlower, htext]
    simp only [List.length_append]
    omega

/-! ### The extensions that are meant -/

theorem mem_insertSorted_iff : x ∈ insertSorted s l ↔ x = s ∨ x ∈ l := by
  induction l with
  | nil => rw [insertSorted, List.mem_singleton, or_iff_left List.not_mem_nil]
  | cons t l ih =>
    unfold insertSorted
    split
    · next heq =>
      rw [eq_of_beq heq, List.mem_cons]
      exact ⟨.inr, fun h => h.elim .inl id⟩
    · split
      · exact List.mem_cons
      · rw [List.mem_cons, ih, List.mem_cons, or_left_comm]

theorem pairwise_insertSorted (h : l.Pairwise (· < ·)) : (insertSorted s l).Pairwise (· < ·) := by
  induction l with
  | nil => exact List.pairwise_singleton _ _
  | cons t l ih =>
    obtain ⟨ht, hl⟩ := List.pairwise_cons.1 h
    unfold insertSorted
    split
    · exact h
    · next hne =>
      split
      · next hlt =>
        refine List.pairwise_cons.2 ⟨fun y hy => ?_, h⟩
        rcases List.mem_cons.1 hy with rfl | hy
        · exact hlt
        · exact String.lt_trans hlt (ht y hy)
      · next hle =>
        have hts : t < s := lt_of_le_of_ne (not_lt.1 hle) fun heq => hne (beq_of_eq heq.symm)
        refine List.pairwise_cons.2 ⟨fun y hy => ?_, ih hl⟩
        rcases mem_insertSorted_iff.1 hy with rfl | hy
        · exact hts
        · exact ht y hy

/-- Texts put in order one after the other, those that are empty left out. -/
theorem foldl_insertSorted (texts : List String) {sorted : List String} (h : sorted.Pairwise (· < ·)) :
    let all := texts.foldl (fun sorted e => if e.isEmpty then sorted else insertSorted e sorted) sorted
    all.Pairwise (· < ·) ∧ ∀ x, x ∈ all ↔ x ∈ sorted ∨ x ≠ "" ∧ x ∈ texts := by
  induction texts generalizing sorted with
  | nil => exact ⟨h, fun x => by simp⟩
  | cons t texts ih =>
    dsimp only [List.foldl_cons]
    by_cases ht : t.isEmpty = true
    · have hempty : t = "" := String.isEmpty_iff.1 ht
      rw [if_pos ht]
      refine ⟨(ih h).1, fun x => ((ih h).2 x).trans ?_⟩
      rw [List.mem_cons, hempty]
      constructor
      · exact Or.imp_right fun ⟨hne, hx⟩ => ⟨hne, .inr hx⟩
      · exact Or.imp_right fun ⟨hne, hx⟩ => ⟨hne, hx.resolve_left hne⟩
    · have hne : t ≠ "" := mt String.isEmpty_iff.2 ht
      rw [if_neg ht]
      obtain ⟨hsorted, hmem⟩ := ih (pairwise_insertSorted (s := t) h)
      refine ⟨hsorted, fun x => (hmem x).trans ?_⟩
      rw [mem_insertSorted_iff, List.mem_cons]
      constructor
      · rintro ((rfl | hx) | ⟨hx, hmem⟩)
        · exact .inr ⟨hne, .inl rfl⟩
        · exact .inl hx
        · exact .inr ⟨hx, .inr hmem⟩
      · rintro (hx | ⟨hx, rfl | hmem⟩)
        · exact .inl (.inr hx)
        · exact .inl (.inl rfl)
        · exact .inr ⟨hx, hmem⟩

/-- **Extensions are in order,** none of them twice. -/
theorem pairwise_normalizeExtensions (es : List String) : (normalizeExtensions es).Pairwise (· < ·) :=
  (foldl_insertSorted _ List.Pairwise.nil).1

/-- **An extension is meant** if a text says it, and it is not empty. -/
theorem mem_normalizeExtensions_iff : x ∈ normalizeExtensions es ↔ x ≠ "" ∧ ∃ e ∈ es, normalizeExtension e = x := by
  rw [normalizeExtensions, (foldl_insertSorted _ List.Pairwise.nil).2 x, List.mem_map]
  exact or_iff_right List.not_mem_nil

theorem isNormal_of_mem (hx : x ∈ normalizeExtensions es) : IsNormal x := by
  obtain ⟨hne, e, -, rfl⟩ := mem_normalizeExtensions_iff.1 hx
  exact isNormal_normalizeExtension hne

/-- **An extension begins with white space** exactly if it comes from a text with a gap. -/
theorem begins_isWhite_iff_of_mem (hx : x ∈ normalizeExtensions es) :
    begins isWhite x.toList = true ↔ ∃ e ∈ es, HasGap e ∧ normalizeExtension e = x := by
  obtain ⟨-, e, he, rfl⟩ := mem_normalizeExtensions_iff.1 hx
  constructor
  · exact fun h => ⟨e, he, begins_isWhite_normalizeExtension_iff.1 h, rfl⟩
  · rintro ⟨e', -, hgap, heq⟩
    rw [← heq]
    exact begins_isWhite_normalizeExtension_iff.2 hgap

/-- If reading extensions again left them alone, each one with white space at its front would come from a longer one. -/
theorem exists_longer_of_idem (h : normalizeExtensions (normalizeExtensions es) = normalizeExtensions es)
    (hx : x ∈ normalizeExtensions es) (hwhite : begins isWhite x.toList = true) :
    ∃ y ∈ normalizeExtensions es, begins isWhite y.toList = true ∧ x.toList.length < y.toList.length := by
  rw [← h] at hx
  obtain ⟨-, y, hy, rfl⟩ := mem_normalizeExtensions_iff.1 hx
  exact ⟨y, hy, (isNormal_of_mem hy).of_hasGap (begins_isWhite_normalizeExtension_iff.1 hwhite)⟩

/-- **Reading extensions again changes nothing** exactly if no text has a gap. -/
theorem normalizeExtensions_idem_iff :
    normalizeExtensions (normalizeExtensions es) = normalizeExtensions es ↔ ∀ e ∈ es, ¬ HasGap e := by
  constructor
  · intro h e he hgap
    have hwhite := begins_isWhite_normalizeExtension_iff.2 hgap
    have hne : normalizeExtension e ≠ "" := fun hempty => by rw [hempty] at hwhite; cases hwhite
    have hlong : ∀ n, ∃ x ∈ normalizeExtensions es, begins isWhite x.toList = true ∧ n ≤ x.toList.length := by
      intro n
      induction n with
      | zero => exact ⟨_, mem_normalizeExtensions_iff.2 ⟨hne, e, he, rfl⟩, hwhite, Nat.zero_le _⟩
      | succ n ih =>
        obtain ⟨x, hx, hwhite, hlength⟩ := ih
        obtain ⟨y, hy, hwhite', hlonger⟩ := exists_longer_of_idem h hx hwhite
        exact ⟨y, hy, hwhite', Nat.lt_of_le_of_lt hlength hlonger⟩
    -- But one of them is the longest.
    obtain ⟨x, hx, -⟩ := hlong 0
    have hlengths : (normalizeExtensions es).map (fun x => x.toList.length) ≠ [] :=
      List.ne_nil_of_mem (List.mem_map_of_mem hx)
    obtain ⟨y, hy, -, hlonger⟩ := hlong (List.max _ hlengths + 1)
    exact absurd (List.le_max_of_mem (List.mem_map_of_mem hy)) (Nat.not_le_of_lt hlonger)
  · intro h
    refine (pairwise_normalizeExtensions _).eq_of_mem_iff (pairwise_normalizeExtensions _) fun x => ?_
    have hself : ∀ y ∈ normalizeExtensions es, normalizeExtension y = y := by
      intro y hy
      refine (isNormal_of_mem hy).normalizeExtension_eq_self (Bool.eq_false_iff.2 fun hwhite => ?_)
      obtain ⟨e, he, hgap, -⟩ := (begins_isWhite_iff_of_mem hy).1 hwhite
      exact h e he hgap
    rw [mem_normalizeExtensions_iff]
    constructor
    · rintro ⟨-, y, hy, rfl⟩
      rwa [hself y hy]
    · exact fun hx => ⟨(isNormal_of_mem hx).ne_empty, x, hx, hself x hx⟩

/-! ### The files that are accepted -/

theorem hasExtension_iff {extensions : List String} {path : String} :
    hasExtension extensions path = true ↔ ∃ ext, extension? path = some ext ∧ lowerCase ext ∈ extensions := by
  rw [hasExtension, Option.any_eq_true]
  simp only [List.contains_iff_mem]

/-- A text without any of the white space and the points at its front, and without the white space at its back. -/
def bareExtension (text : String) : List Char := trimBack (text.toList.dropWhile fun c => isWhite c || c == '.')

/-- **A text without a gap says what is left of it** when all that is not part of an extension is taken off. -/
theorem extensionBody_eq_bareExtension (h : ¬ HasGap e) : extensionBody e = bareExtension e := by
  have hwhite : begins isWhite (extensionBody e) = false := Bool.eq_false_iff.2 (mt hasGap_iff.2 h)
  obtain ⟨points, ⟨front, back, htext, hfront, hback, -, hends⟩, hpoints, hpoint⟩ := isBodyOf_extensionBody e
  have hblank : ∀ cs, isBlank cs = true → (cs.all fun c => isWhite c || c == '.') = true := by
    refine fun cs hcs => List.all_eq_true.2 fun c hc => ?_
    rw [List.all_eq_true.1 hcs c hc, Bool.true_or]
  have houter : ((front ++ points).all fun c => isWhite c || c == '.') = true := by
    rw [List.all_append, hblank front hfront, Bool.true_and, List.all_eq_true]
    intro c hc
    rw [List.all_eq_true.1 hpoints c hc, Bool.or_true]
  symm
  unfold bareExtension
  cases hbody : extensionBody e with
  | nil =>
    -- Everything is taken off at the front.
    have hdrop : (e.toList.dropWhile fun c => isWhite c || c == '.') = [] := by
      refine dropWhile_eq_iff.2 ⟨front ++ points ++ back, ?_, ?_, rfl⟩
      · rw [htext, hbody, List.append_nil, List.append_nil, List.append_assoc]
      · rw [List.all_append, houter, hblank back hback, Bool.and_self]
    rw [hdrop]
    rfl
  | cons c rest =>
    rw [hbody] at hwhite hpoint hends
    have hdrop : (e.toList.dropWhile fun c => isWhite c || c == '.') = c :: rest ++ back := by
      refine dropWhile_eq_iff.2 ⟨front ++ points, ?_, houter, ?_⟩
      · rw [htext, hbody, List.append_assoc, List.append_assoc, List.append_assoc]
      · have hc : isWhite c = false := hwhite
        have hne : (c == '.') = false := hpoint
        exact Bool.or_eq_false_iff.2 ⟨hc, hne⟩
    rw [ends_append (List.cons_ne_nil c rest)] at hends
    rw [hdrop]
    exact trimBack_eq_iff.2 ⟨back, rfl, hback, hends⟩

/-- The lower case of an extension is meant if a text says the extension in some case. -/
theorem lowerCase_mem_normalizeExtensions_iff : lowerCase s ∈ normalizeExtensions es ↔
    ∃ e ∈ es, extensionBody e ≠ [] ∧ lowerCase s = lowerCase (String.ofList (extensionBody e)) := by
  rw [mem_normalizeExtensions_iff]
  constructor
  · rintro ⟨hne, e, he, heq⟩
    exact ⟨e, he, mt normalizeExtension_eq_empty_iff.2 (heq ▸ hne), heq.symm⟩
  · rintro ⟨e, he, hne, heq⟩
    have hread : normalizeExtension e = lowerCase s := heq.symm
    exact ⟨hread ▸ mt normalizeExtension_eq_empty_iff.1 hne, e, he, hread⟩

/-- **How texts are read as extensions.** -/
structure ReadsExtensions (es : List String) : Prop where
  /-- None is empty, begins with a point or ends with white space, and each one is in lower case. -/
  normal : ∀ x ∈ normalizeExtensions es, IsNormal x
  /-- One begins with white space exactly if it comes from a text with white space behind its points. -/
  front : ∀ x ∈ normalizeExtensions es,
    begins isWhite x.toList = true ↔ ∃ e ∈ es, HasGap e ∧ normalizeExtension e = x
  /-- Reading them again changes nothing exactly if there is no such text. -/
  again : normalizeExtensions (normalizeExtensions es) = normalizeExtensions es ↔ ∀ e ∈ es, ¬ HasGap e
  /-- A path is accepted exactly if it has an extension that, but for its case, some text says. -/
  accepts : ∀ path, hasExtension (normalizeExtensions es) path = true ↔ ∃ ext, extension? path = some ext ∧
    ∃ e ∈ es, ∃ body, IsBodyOf body e ∧ body ≠ [] ∧ lowerCase ext = lowerCase (String.ofList body)
  /-- If no text has a gap, what it says is what is left of it without white space and without points at its front. -/
  bare : (∀ e ∈ es, ¬ HasGap e) → ∀ path, hasExtension (normalizeExtensions es) path = true ↔
    ∃ ext, extension? path = some ext ∧
      ∃ e ∈ es, bareExtension e ≠ [] ∧ lowerCase ext = lowerCase (String.ofList (bareExtension e))

/-- **Extensions are bare but for a gap.** White space around a text is taken off first, then the points at its front are,
and no text keeps more than the white space between these and the rest. -/
theorem readsExtensions (es : List String) : ReadsExtensions es where
  normal _ hx := isNormal_of_mem hx
  front _ hx := begins_isWhite_iff_of_mem hx
  again := normalizeExtensions_idem_iff
  accepts path := by
    simp only [hasExtension_iff, lowerCase_mem_normalizeExtensions_iff]
    refine exists_congr fun ext => and_congr_right fun _ => exists_congr fun e => and_congr_right fun _ => ?_
    constructor
    · exact fun h => ⟨extensionBody e, isBodyOf_extensionBody e, h⟩
    · rintro ⟨body, hbody, h⟩
      rwa [extensionBody_eq_iff.2 hbody]
  bare h path := by
    simp only [hasExtension_iff, lowerCase_mem_normalizeExtensions_iff]
    refine exists_congr fun ext => and_congr_right fun _ => exists_congr fun e => and_congr_right fun he => ?_
    rw [extensionBody_eq_bareExtension (h e he)]

/-- White space behind a point is kept: the extension begins with it, is read otherwise the next time, and does not accept
the path with the extension that is left without white space and points. -/
theorem keeps_white_space_behind_point : normalizeExtensions [". gql"] = [" gql"] ∧ begins isWhite " gql".toList = true ∧
    normalizeExtensions [" gql"] = ["gql"] ∧ extension? "a.gql" = some "gql" ∧
    lowerCase (String.ofList (bareExtension ". gql")) = "gql" ∧
    hasExtension (normalizeExtensions [". gql"]) "a.gql" = false := by
  have hread : normalizeExtensions [". gql"] = [" gql"] := by decide +kernel
  have hsplit : "a.gql".splitOn "/" = ["a.gql"] := by simp +decide [String.splitOn, String.splitOnAux.eq_1]
  have hextension : extension? "a.gql" = some "gql" := by
    rw [extension?, fileName?, hsplit]
    decide +kernel
  rw [hread, hasExtension, hextension]
  decide +kernel

end QueryAid
