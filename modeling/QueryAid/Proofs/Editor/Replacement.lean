import QueryAid.Proofs.Editor.CheckedRun
import QueryAid.Proofs.Editor.Completion
import QueryAid.Proofs.Source.Bytes
/-!
# What is compared and what is replaced

A completion takes the place of the token under the cursor, except for a first character that does not count when texts
are compared: that one stays where it is. What is compared is the whole token. `compares_replaced_iff` says when this is
the same as comparing what is replaced: exactly if the token does not start with the Kelvin sign or the capital I with a
dot above. These two are no letters of ASCII, so they stay, but their lower cases are compared, since one is a letter of
ASCII and the other one starts with one. So `k` is compared of a Kelvin sign that stays
(`not_compares_replaced_of_kelvin`).
-/

namespace QueryAid

namespace CursorToken

variable {token : CursorToken}

/-- The first character of a token, if it does not count when texts are compared: a completion leaves it where it is. -/
def front (token : CursorToken) : List Char :=
  match token.text.toList with
  | [] => []
  | c :: _ => if isRanked c then [] else [c]

/-- **The part of a token that a completion takes the place of,** from where the replaced part starts to the end. -/
def replaced? (token : CursorToken) : Option (List Char) :=
  (⟨token.replaceFrom.toNat - token.start.toNat, token.stop.toNat - token.start.toNat⟩ : Span).text? token.text.toList

/-- The front ends where the replaced part starts, in a token that is as long as it says. -/
theorem toNat_replaceFrom (hblank : token.isWhiteSpace = false)
    (hlength : token.stop.toNat = token.start.toNat + byteLength token.text.toList) :
    token.replaceFrom.toNat = token.start.toNat + byteLength token.front := by
  unfold replaceFrom front
  cases htext : token.text.toList with
  | nil =>
    rw [htext] at hlength
    exact hlength
  | cons c rest =>
    dsimp only
    rw [hblank, if_neg Bool.false_ne_true]
    -- The characters that start a word are those that are compared.
    change (if isRanked c then token.start else min (token.start + UInt64.ofNat c.utf8Size) token.stop).toNat = _
    by_cases hword : isRanked c = true
    · rw [if_pos hword, if_pos hword]
      rfl
    · rw [if_neg hword, if_neg hword]
      rw [htext, byteLength] at hlength
      have hlt : token.start.toNat + c.utf8Size < UInt64.size := by
        have hstop := token.stop.toNat_lt_size
        omega
      have hle : token.start + UInt64.ofNat c.utf8Size ≤ token.stop := by
        rw [UInt64.le_iff_toNat_le, toNat_start_add hlt]
        omega
      have hmin : min (token.start + UInt64.ofNat c.utf8Size) token.stop = token.start + UInt64.ofNat c.utf8Size :=
        if_pos hle
      rw [hmin, toNat_start_add hlt]
      rfl

/-- A token is its front and the rest. -/
theorem front_prefix (token : CursorToken) : token.front <+: token.text.toList := by
  unfold front
  cases token.text.toList with
  | nil => exact List.nil_prefix
  | cons c rest =>
    dsimp only
    split
    · exact List.nil_prefix
    · exact ⟨rest, rfl⟩

/-- **Something of the front is compared** exactly if it is the Kelvin sign or the capital I with a dot above. -/
theorem flatMap_front_eq_nil_iff : token.front.flatMap normalizedChar = [] ↔
    token.text.toList.head? ≠ some '\u212A' ∧ token.text.toList.head? ≠ some '\u0130' := by
  unfold front
  cases token.text.toList with
  | nil => exact ⟨fun _ => ⟨nofun, nofun⟩, fun _ => rfl⟩
  | cons c rest =>
    simp only [List.head?_cons, ne_eq, Option.some.injEq]
    cases hword : isRanked c with
    | true =>
      -- Neither of the two characters is one that is compared itself.
      refine ⟨fun _ => ⟨?_, ?_⟩, fun _ => rfl⟩
      · rintro rfl
        exact absurd hword (by decide)
      · rintro rfl
        exact absurd hword (by decide)
    | false =>
      rw [if_neg Bool.false_ne_true, List.flatMap_singleton, normalizedChar_eq_nil_iff]
      exact ⟨And.right, fun h => ⟨hword, h⟩⟩

/-- **What is replaced is compared as the token is, unless the token starts with the Kelvin sign or the capital I with a
dot above.** Such a character stays in front of a completion that was found by its lower case. What is replaced is the
same part of the token in every source in which the token stands. -/
theorem compares_replaced_iff (hblank : token.isWhiteSpace = false)
    (hlength : token.stop.toNat = token.start.toNat + byteLength token.text.toList) :
    ∃ part, token.replaced? = some part ∧
      (∀ source, (⟨token.start.toNat, token.stop.toNat⟩ : Span).Covers source token.text.toList →
        (⟨token.replaceFrom.toNat, token.stop.toNat⟩ : Span).text? source = some part) ∧
      (normalizeText (String.ofList part) = normalizeText token.partialText ↔
        token.text.toList.head? ≠ some '\u212A' ∧ token.text.toList.head? ≠ some '\u0130') := by
  obtain ⟨part, hpart⟩ := token.front_prefix
  have hfrom := toNat_replaceFrom hblank hlength
  have hbehind {start stop : Nat} {source : List Char}
      (hcovers : (⟨start, stop⟩ : Span).Covers source token.text.toList) :
      (⟨start + byteLength token.front, stop⟩ : Span).text? source = some part := by
    rw [← hpart] at hcovers
    exact Span.text?_eq_some_iff.2 hcovers.behind
  refine ⟨part, ?_, fun source hcovers => ?_, ?_⟩
  · have hwhole : (⟨0, token.stop.toNat - token.start.toNat⟩ : Span).Covers token.text.toList token.text.toList :=
      ⟨[], [], by simp, rfl, by simp [hlength]⟩
    rw [replaced?, hfrom, Nat.add_sub_cancel_left, ← Nat.zero_add (byteLength token.front)]
    exact hbehind hwhole
  · rw [hfrom]
    exact hbehind hcovers
  · rw [normalizeText_partialText, normalizeText_eq_flatMap, normalizeText_eq_flatMap, String.toList_ofList, ← hpart,
      List.flatMap_append, List.self_eq_append_left, hpart]
    exact flatMap_front_eq_nil_iff

/-- A mark stays in front of a word in which both characters stand. -/
theorem compares_replaced_of_mark : ∃ part,
    CursorToken.isWhiteSpace ⟨"@s\u212A\u0130p", 10, 18⟩ = false ∧
      CursorToken.replaced? ⟨"@s\u212A\u0130p", 10, 18⟩ = some part ∧ part = ['s', '\u212A', '\u0130', 'p'] ∧
      normalizeText (String.ofList part) = normalizeText (CursorToken.partialText ⟨"@s\u212A\u0130p", 10, 18⟩) ∧
      normalizeText (String.ofList part) = "skip".toList := by
  obtain ⟨part, hpart, -, hiff⟩ := @compares_replaced_iff ⟨"@s\u212A\u0130p", 10, 18⟩ (by decide) (by decide)
  have hread : CursorToken.replaced? ⟨"@s\u212A\u0130p", 10, 18⟩ = some ['s', '\u212A', '\u0130', 'p'] := by decide
  obtain rfl := Option.some.inj (hpart.symm.trans hread)
  exact ⟨_, by decide, hread, rfl, hiff.2 (by decide), by decide +kernel⟩

/-- **A Kelvin sign in front of a word stays, and is compared.** The token is compared as `kind`, and what is replaced
as `ind`. -/
theorem not_compares_replaced_of_kelvin : ∃ part,
    CursorToken.isWhiteSpace ⟨"\u212Aind", 0, 6⟩ = false ∧ 6 = 0 + byteLength "\u212Aind".toList ∧
      CursorToken.replaceFrom ⟨"\u212Aind", 0, 6⟩ = 3 ∧ CursorToken.replaced? ⟨"\u212Aind", 0, 6⟩ = some part ∧
      normalizeText (CursorToken.partialText ⟨"\u212Aind", 0, 6⟩) = "kind".toList ∧
      normalizeText (String.ofList part) = "ind".toList ∧
      normalizeText (String.ofList part) ≠ normalizeText (CursorToken.partialText ⟨"\u212Aind", 0, 6⟩) :=
  ⟨['i', 'n', 'd'], by decide, by decide, by decide, by decide, by decide +kernel, by decide +kernel, by decide +kernel⟩

end CursorToken

end QueryAid
