import QueryAid.Proofs.Editor.Context
import QueryAid.Proofs.Ranking.Rank
import QueryAid.Proofs.Schema.Closed
import QueryAid.Editor.Completion
/-!
# Completing without faults

`complete` calculates with sums of offsets, differences of lengths, places in a list and a type that must be there. All
of these are total here. `completeChecked` takes the same way, but stops with a `Fault` where a sum has no 64 bits, a
difference is below zero, or a place or a type is missing. `completeChecked_eq` says when the two agree: always, but for
a token that starts with a mark which ends after the last offset (`CursorToken.MarkOverflows`). Such a token exists, and
its completions replace a part of the source that starts before the token (`not_start_le_of_last_offset`).

* `ofStateChecked_eq`: the root of queries is there, as schemas are built.
* `proximityChecked_eq`: a difference is only taken of a length and a smaller one.
* `rankChecked_eq`: candidates that are sorted by their places are found at these, and each of them is there once.
* `replaceFromChecked_eq`: the only fault that remains.
-/

namespace QueryAid

/-- **Something that cannot be calculated.** -/
inductive Fault where
  | sumTooLarge
  | differenceBelowZero
  | placeMissing
  | rootMissing
  deriving DecidableEq, Repr

/-! ### What is known at the cursor -/

namespace TypeContext

variable {s : Schema}

/-- The context in a part. The type of a query is looked up without asking whether it is there. -/
def stepChecked (s : Schema) (enclosing : Option StateKind) (c : TypeContext) (f : StateFrame) :
    Except Fault TypeContext :=
  match f.kind with
  | .query | .shortQuery =>
    match s.root? .query with
    | none => .error .rootMissing
    | some root => .ok { c with type := some (.named root) }
  | _ => .ok (step s enclosing c f)

/-- The context of a state, if it can be calculated. -/
def ofStateChecked (s : Schema) : ParserState → Except Fault TypeContext
  | .root f => stepChecked s none empty f
  | .within f e => do stepChecked s (some e.kind) (← ofStateChecked s e) f

theorem stepChecked_eq (h : (s.root? .query).isSome) {enclosing : Option StateKind} {c : TypeContext}
    {f : StateFrame} : stepChecked s enclosing c f = .ok (step s enclosing c f) := by
  obtain ⟨root, hroot⟩ := Option.isSome_iff_exists.1 h
  unfold stepChecked
  split
  · next hkind => simp only [step, hkind, hroot, Option.map_some]
  · next hkind => simp only [step, hkind, hroot, Option.map_some]
  · rfl

/-- **The context of a state can be calculated** if there is a root of queries. -/
theorem ofStateChecked_eq (h : (s.root? .query).isSome) (state : ParserState) :
    ofStateChecked s state = .ok (ofState s state) := by
  induction state with
  | root f => exact stepChecked_eq h
  | within f e ih =>
    rw [ofStateChecked, ih]
    exact stepChecked_eq h

end TypeContext

/-! ### Ranking -/

/-- A difference, if it is not below zero. -/
def checkedSub (a b : Nat) : Except Fault Nat := if b ≤ a then .ok (a - b) else .error .differenceBelowZero

/-- How far a suggestion is from a text, in halves. The excess of a longer suggestion is a difference of lengths. -/
def proximityChecked (suggestion text : List Char) : Except Fault Int :=
  let distance : Int := 2 * (editDistance text suggestion : Int)
  if text.length < suggestion.length then do
    let excess ← checkedSub suggestion.length text.length
    let credited ← checkedSub excess 1
    return distance - 2 * (credited : Int) + if text.isPrefixOf suggestion then 0 else 1
  else .ok distance

/-- **No difference of lengths is below zero.** -/
theorem proximityChecked_eq (suggestion text : List Char) :
    proximityChecked suggestion text = .ok (proximity suggestion text) := by
  unfold proximityChecked proximity
  dsimp only
  split
  · next hlt =>
    have hexcess : checkedSub suggestion.length text.length = .ok (suggestion.length - text.length) :=
      if_pos hlt.le
    have hcredited : checkedSub (suggestion.length - text.length) 1 = .ok (suggestion.length - text.length - 1) :=
      if_pos (by omega)
    rw [hexcess]
    show (do
      let credited ← checkedSub (suggestion.length - text.length) 1
      return _ - 2 * (credited : Int) + _ : Except Fault Int) = _
    rw [hcredited]
    have hcast : ((suggestion.length - text.length - 1 : Nat) : Int) = (suggestion.length : Int) - text.length - 1 := by
      omega
    rw [← hcast]
    rfl
  · rfl

section Rank

variable {α : Type} {text : α → String} {typed : String} {candidates : List α}

/-- Takes what stands at some places out of a list, one after the other; what was taken is not there any more. -/
def takeAll : List (Option α) → List Nat → Except Fault (List α)
  | _, [] => .ok []
  | slots, i :: places =>
    match slots[i]? with
    | none => .error .placeMissing
    | some slot => do
      let rest ← takeAll (slots.set i none) places
      return slot.toList ++ rest

/-- A candidate at a place, with how far it is from what was typed. -/
def scoredPlace (text : α → String) (typed : List Char) (x : α × Nat) : Except Fault (Scored Nat) := do
  return ⟨x.2, ← proximityChecked (normalizeText (text x.1)) typed, (text x.1).length⟩

/-- The candidates that are near enough, nearest first; all of them if none is. -/
def takeNear (candidates : List α) (scored : List (Scored Nat)) : Except Fault (List α) :=
  match scored.filter fun c => c.score ≤ proximityLimit with
  | [] => .ok candidates
  | near => takeAll (candidates.map some) ((near.mergeSort Scored.le).map Scored.item)

/-- The candidates near enough to what was typed, nearest first. Their places are sorted, and then they are taken. -/
def rankChecked (text : α → String) (candidates : List α) (typed : String) : Except Fault (List α) :=
  if (normalizeText typed).isEmpty then .ok candidates
  else do takeNear candidates (← candidates.zipIdx.mapM (scoredPlace text (normalizeText typed)))

/-- **What stands at distinct places is taken in the order of the places,** if they are places of the list. -/
theorem takeAll_eq {slots : List (Option α)} {xs : List (α × Nat)} (hdistinct : (xs.map Prod.snd).Nodup)
    (h : ∀ x ∈ xs, slots[x.2]? = some (some x.1)) : takeAll slots (xs.map Prod.snd) = .ok (xs.map Prod.fst) := by
  induction xs generalizing slots with
  | nil => rfl
  | cons x xs ih =>
    rw [List.map_cons, List.nodup_cons] at hdistinct
    rw [List.forall_mem_cons] at h
    have hrest : ∀ y ∈ xs, (slots.set x.2 none)[y.2]? = some (some y.1) := by
      intro y hy
      have hne : x.2 ≠ y.2 := fun heq => hdistinct.1 (heq ▸ List.mem_map_of_mem hy)
      rw [List.getElem?_set_ne hne]
      exact h.2 y hy
    rw [List.map_cons, takeAll, h.1, ih hdistinct.2 hrest]
    rfl

/-- A scored thing with another item. -/
def Scored.map {β γ : Type} (f : β → γ) (c : Scored β) : Scored γ := ⟨f c.item, c.score, c.length⟩

theorem Scored.mergeSort_map {β γ : Type} (f : β → γ) (l : List (Scored β)) :
    ((l.map (Scored.map f)).mergeSort Scored.le).map Scored.item = ((l.mergeSort Scored.le).map Scored.item).map f := by
  rw [← List.map_mergeSort (r := Scored.le) (s := Scored.le) (f := Scored.map f) fun a _ b _ => rfl]
  simp only [List.map_map]
  rfl

/-- The candidates that are near enough, with their places and scores. -/
def nearPlaces (text : α → String) (candidates : List α) (typed : String) : List (Scored (α × Nat)) :=
  (candidates.zipIdx.map (Scored.of (text ∘ Prod.fst) (normalizeText typed))).filter fun c => c.score ≤ proximityLimit

theorem map_fst_nearPlaces : (nearPlaces text candidates typed).map (Scored.map Prod.fst) =
    nearCandidates text candidates typed := by
  have hscored : (candidates.zipIdx.map (Scored.of (text ∘ Prod.fst) (normalizeText typed))).map (Scored.map Prod.fst) =
      (candidates.zipIdx.map Prod.fst).map (Scored.of text (normalizeText typed)) := by
    rw [List.map_map, List.map_map]
    rfl
  rw [List.zipIdx_map_fst] at hscored
  rw [nearCandidates, ← hscored, List.filter_map]
  rfl

/-- The scores are those of the candidates. -/
theorem mapM_scoredPlace : candidates.zipIdx.mapM (scoredPlace text (normalizeText typed)) =
    .ok ((candidates.zipIdx.map (Scored.of (text ∘ Prod.fst) (normalizeText typed))).map (Scored.map Prod.snd)) := by
  have hpure : scoredPlace text (normalizeText typed) = fun x =>
      pure (Scored.map Prod.snd (Scored.of (text ∘ Prod.fst) (normalizeText typed) x)) := by
    funext x
    rw [scoredPlace, proximityChecked_eq]
    rfl
  rw [hpure, List.mapM_pure, List.map_map]
  rfl

/-- The places of the near candidates are distinct places of the list, in whatever order. -/
theorem takeAll_sorted_nearPlaces (text : α → String) (candidates : List α) (typed : String) :
    takeAll (candidates.map some)
        ((((nearPlaces text candidates typed).mergeSort Scored.le).map Scored.item).map Prod.snd) =
      .ok ((((nearPlaces text candidates typed).mergeSort Scored.le).map Scored.item).map Prod.fst) := by
  have hperm := ((nearPlaces text candidates typed).mergeSort_perm Scored.le).map Scored.item
  have hitems : ((candidates.zipIdx.map (Scored.of (text ∘ Prod.fst) (normalizeText typed))).map Scored.item) =
      candidates.zipIdx := by
    rw [List.map_map]
    exact List.map_id _
  have hsub : ((nearPlaces text candidates typed).map Scored.item).Sublist candidates.zipIdx := by
    rw [← hitems]
    exact List.filter_sublist.map Scored.item
  refine takeAll_eq ?_ fun x hx => ?_
  · rw [(hperm.map Prod.snd).nodup_iff]
    refine List.Nodup.sublist (hsub.map Prod.snd) ?_
    rw [List.zipIdx_map_snd]
    exact List.nodup_range'
  · have hmem := List.mem_zipIdx_iff_getElem?.1 (hsub.subset (hperm.mem_iff.1 hx))
    rw [List.getElem?_map, hmem]
    rfl

/-- What is taken of the scored candidates is what ranking leaves. -/
theorem takeNear_eq : takeNear candidates
      ((candidates.zipIdx.map (Scored.of (text ∘ Prod.fst) (normalizeText typed))).map (Scored.map Prod.snd)) =
    .ok (match nearCandidates text candidates typed with
      | [] => candidates
      | near => (near.mergeSort Scored.le).map Scored.item) := by
  have hnear : ((candidates.zipIdx.map (Scored.of (text ∘ Prod.fst) (normalizeText typed))).map
      (Scored.map Prod.snd)).filter (fun c => c.score ≤ proximityLimit) =
        (nearPlaces text candidates typed).map (Scored.map Prod.snd) := by
    rw [nearPlaces, List.filter_map]
    rfl
  have htaken := takeAll_sorted_nearPlaces text candidates typed
  rw [← Scored.mergeSort_map, ← Scored.mergeSort_map, map_fst_nearPlaces] at htaken
  rw [takeNear, hnear]
  cases hplaces : nearPlaces text candidates typed with
  | nil => rw [← map_fst_nearPlaces, hplaces]; rfl
  | cons x rest =>
    rw [hplaces] at htaken
    rw [← map_fst_nearPlaces, hplaces] at htaken ⊢
    exact htaken

/-- **Ranking finds all candidates at their places.** -/
theorem rankChecked_eq (text : α → String) (candidates : List α) (typed : String) :
    rankChecked text candidates typed = .ok (rank text candidates typed) := by
  unfold rankChecked rank
  dsimp only
  split
  · rfl
  · rw [mapM_scoredPlace]
    exact takeNear_eq

end Rank

/-! ### Tokens -/

/-- A sum, if it has 64 bits. -/
def checkedAdd (a b : UInt64) : Except Fault UInt64 :=
  if a.toNat + b.toNat < UInt64.size then .ok (a + b) else .error .sumTooLarge

namespace CursorToken

variable {token : CursorToken}

/-- Where the replaced part starts. Of a token with a mark in front, this is a sum. -/
def replaceFromChecked (token : CursorToken) : Except Fault UInt64 :=
  match token.text.toList with
  | [] => .ok token.stop
  | c :: _ =>
    if token.isWhiteSpace then .ok token.stop
    else if c.isAlphanum || c == '_' then .ok token.start
    else do return min (← checkedAdd token.start (UInt64.ofNat c.utf8Size)) token.stop

/-- **The mark in front of a token ends after the last offset.** -/
def MarkOverflows (token : CursorToken) : Prop :=
  token.isWhiteSpace = false ∧ ∃ c rest, token.text.toList = c :: rest ∧ (c.isAlphanum || c == '_') = false ∧
    UInt64.size ≤ token.start.toNat + c.utf8Size

theorem toNat_utf8Size (c : Char) : (UInt64.ofNat c.utf8Size).toNat = c.utf8Size := by
  have hle := c.utf8Size_le_four
  rw [UInt64.toNat_ofNat']
  exact Nat.mod_eq_of_lt (by omega)

/-- A mark that does not overflow ends where the sum says. -/
theorem toNat_start_add {c : Char} (h : token.start.toNat + c.utf8Size < UInt64.size) :
    (token.start + UInt64.ofNat c.utf8Size).toNat = token.start.toNat + c.utf8Size := by
  rw [UInt64.toNat_add, toNat_utf8Size, Nat.mod_eq_of_lt h]

/-- **What is known of where the replaced part starts.** It is the end of the token or its start, or the end of the mark
in front of the token, should that end before the token does. -/
theorem replaceFrom_cases (h : ¬ token.MarkOverflows) : token.replaceFromChecked = .ok token.replaceFrom ∧
    (token.replaceFrom = token.stop ∨ token.replaceFrom = token.start ∨
      ∃ c : Char, token.start.toNat + c.utf8Size < UInt64.size ∧
        token.replaceFrom = min (token.start + UInt64.ofNat c.utf8Size) token.stop) := by
  unfold replaceFromChecked replaceFrom
  cases htext : token.text.toList with
  | nil => exact ⟨rfl, .inl rfl⟩
  | cons c rest =>
    dsimp only
    by_cases hblank : token.isWhiteSpace = true
    · rw [if_pos hblank, if_pos hblank]
      exact ⟨rfl, .inl rfl⟩
    · by_cases hword : (c.isAlphanum || c == '_') = true
      · rw [if_neg hblank, if_neg hblank, if_pos hword, if_pos hword]
        exact ⟨rfl, .inr (.inl rfl)⟩
      · have hlt : token.start.toNat + c.utf8Size < UInt64.size := by
          by_contra hge
          exact h ⟨Bool.eq_false_of_not_eq_true hblank, c, rest, htext, Bool.eq_false_of_not_eq_true hword,
            not_lt.1 hge⟩
        have hsum : checkedAdd token.start (UInt64.ofNat c.utf8Size) =
            .ok (token.start + UInt64.ofNat c.utf8Size) := by
          rw [checkedAdd, toNat_utf8Size, if_pos hlt]
        rw [if_neg hblank, if_neg hblank, if_neg hword, if_neg hword, hsum]
        exact ⟨rfl, .inr (.inr ⟨c, hlt, rfl⟩)⟩

theorem replaceFromChecked_of_markOverflows (h : token.MarkOverflows) :
    token.replaceFromChecked = .error .sumTooLarge := by
  obtain ⟨hblank, c, rest, htext, hword, hge⟩ := h
  have hsum : checkedAdd token.start (UInt64.ofNat c.utf8Size) = .error .sumTooLarge := by
    rw [checkedAdd, toNat_utf8Size, if_neg (not_lt.2 hge)]
  simp only [replaceFromChecked, htext, hblank, hword, Bool.false_eq_true, if_false, hsum]
  rfl

/-- **The replaced part lies in the token.** -/
theorem replaceFrom_bounds (h : ¬ token.MarkOverflows) (hle : token.start ≤ token.stop) :
    token.start ≤ token.replaceFrom ∧ token.replaceFrom ≤ token.stop := by
  rcases (replaceFrom_cases h).2 with heq | heq | ⟨c, hlt, heq⟩
  · rw [heq]
    exact ⟨hle, UInt64.le_refl _⟩
  · rw [heq]
    exact ⟨UInt64.le_refl _, hle⟩
  · have hafter : token.start ≤ token.start + UInt64.ofNat c.utf8Size := by
      rw [UInt64.le_iff_toNat_le, toNat_start_add hlt]
      exact Nat.le_add_right _ _
    have hmin : token.replaceFrom = if token.start + UInt64.ofNat c.utf8Size ≤ token.stop
        then token.start + UInt64.ofNat c.utf8Size else token.stop := heq
    rw [hmin]
    split
    · next hstop => exact ⟨hafter, hstop⟩
    · exact ⟨hle, UInt64.le_refl _⟩

end CursorToken

/-! ### Completions -/

variable {s : Schema} {token : CursorToken} {state : ParserState}

/-- The completions of a token in a state, if they can be calculated. -/
def completeChecked (s : Option Schema) (token : CursorToken) (state : ParserState) :
    Except Fault (Option Completions) :=
  match s, GrammarPosition.ofState? state with
  | some s, some position => do
    match Candidate.at? s (← TypeContext.ofStateChecked s state) state.enclosingKind? position with
    | none => return none
    | some candidates =>
      let candidates ← rankChecked Candidate.text candidates token.partialText
      return some ⟨candidates, ← token.replaceFromChecked, token.stop⟩
  | _, _ => .ok none

/-- **Completions can be calculated where the start of the replaced part can,** and wherever there are none. -/
theorem completeChecked_eq (h : (s.root? .query).isSome) : completeChecked (some s) token state =
    match complete (some s) token state with
    | none => .ok none
    | some completions => do return some { completions with replaceFrom := ← token.replaceFromChecked } := by
  have hcomplete : complete (some s) token state =
      (candidatesAt? s state).bind fun candidates =>
        some ⟨rank Candidate.text candidates token.partialText, token.replaceFrom, token.stop⟩ := rfl
  rw [hcomplete, candidatesAt?]
  unfold completeChecked
  cases GrammarPosition.ofState? state with
  | none => rfl
  | some position =>
    dsimp only
    rw [TypeContext.ofStateChecked_eq h]
    show (match Candidate.at? s (TypeContext.ofState s state) state.enclosingKind? position with
      | none => Except.ok none
      | some candidates => do
        let candidates ← rankChecked Candidate.text candidates token.partialText
        return some ⟨candidates, ← token.replaceFromChecked, token.stop⟩ : Except Fault (Option Completions)) = _
    rw [Option.bind_eq_bind, Option.bind_some]
    cases Candidate.at? s (TypeContext.ofState s state) state.enclosingKind? position with
    | none => rfl
    | some candidates =>
      dsimp only
      rw [rankChecked_eq]
      rfl

/-- **Completing a token works out:** whatever is calculated on the way can be, unless the token has a mark in front that
ends after the last offset and there are completions. -/
structure Completes (s : Option Schema) (token : CursorToken) (state : ParserState) : Prop where
  calculated : ¬ token.MarkOverflows ∨ complete s token state = none →
    completeChecked s token state = .ok (complete s token state)
  fault : token.MarkOverflows → complete s token state ≠ none → completeChecked s token state = .error .sumTooLarge
  /-- The part that is replaced lies in the token. -/
  inToken : ¬ token.MarkOverflows → token.start ≤ token.stop → ∀ completions,
    complete s token state = some completions →
      token.start ≤ completions.replaceFrom ∧ completions.replaceFrom ≤ completions.replaceTo

theorem replaceFrom_of_complete {s : Option Schema} {completions : Completions}
    (h : complete s token state = some completions) :
    completions.replaceFrom = token.replaceFrom ∧ completions.replaceTo = token.stop := by
  obtain ⟨x, -, h⟩ := Option.bind_eq_some_iff.1 h
  obtain ⟨candidates, -, h⟩ := Option.bind_eq_some_iff.1 h
  obtain rfl := Option.some.inj h
  exact ⟨rfl, rfl⟩

theorem completes_of_root (h : (s.root? .query).isSome) (token : CursorToken) (state : ParserState) :
    Completes (some s) token state where
  calculated hnot := by
    rw [completeChecked_eq h]
    cases hcomplete : complete (some s) token state with
    | none => rfl
    | some completions =>
      have hoverflows : ¬ token.MarkOverflows := hnot.resolve_right (by rw [hcomplete]; nofun)
      dsimp only
      rw [(CursorToken.replaceFrom_cases hoverflows).1, ← (replaceFrom_of_complete hcomplete).1]
      rfl
  fault hoverflows hsome := by
    rw [completeChecked_eq h]
    cases hcomplete : complete (some s) token state with
    | none => exact absurd hcomplete hsome
    | some completions =>
      dsimp only
      rw [CursorToken.replaceFromChecked_of_markOverflows hoverflows]
      rfl
  inToken hnot hle completions hcomplete := by
    obtain ⟨hfrom, hto⟩ := replaceFrom_of_complete hcomplete
    rw [hfrom, hto]
    exact CursorToken.replaceFrom_bounds hnot hle

/-- **Completing works out for all tokens and all parts that the cursor may be in,** without a schema or with one that was
built from sources. -/
theorem completes_of_frames {s : Option Schema}
    (hs : ∀ x, s = some x → ∃ sources, Schema.ofSources sources = .ok x) (token : CursorToken)
    {frames : List StateFrame} (hframes : frames ≠ []) :
    ∃ state, ParserState.ofFrames? frames = some state ∧ Completes s token state := by
  obtain ⟨f, fs, rfl⟩ := List.exists_cons_of_ne_nil hframes
  refine ⟨_, rfl, ?_⟩
  cases s with
  | none => exact ⟨fun _ => rfl, fun _ hsome => absurd rfl hsome, fun _ _ _ hcomplete => nomatch hcomplete⟩
  | some x =>
    obtain ⟨sources, hx⟩ := hs x rfl
    obtain ⟨root, hroot, -⟩ := Schema.exists_root_of_rootName? (k := .query) hx rfl
    exact completes_of_root (by rw [hroot]; rfl) token _

/-- A mark that ends at the last offset. -/
theorem completes_at_last_offset : ∃ s state completions,
    Schema.ofSources [(none, "type Query { a: Int }")] = .ok s ∧
      ParserState.ofFrames? [.new .query, .new .selectionSet, ⟨.field, some "a", 0, none⟩, .new .directive] = some state ∧
      completeChecked (some s) ⟨"@", 18446744073709551614, 18446744073709551615⟩ state = .ok (some completions) ∧
      completions.candidates.map Candidate.text = ["include", "skip"] ∧
      completions.replaceFrom = 18446744073709551615 ∧ completions.replaceTo = 18446744073709551615 := by
  have hcompletions : (do
      let s ← (Schema.ofSources [(none, "type Query { a: Int }")]).toOption
      let state ← ParserState.ofFrames?
        [.new .query, .new .selectionSet, ⟨.field, some "a", 0, none⟩, .new .directive]
      let completions ← complete (some s) ⟨"@", 18446744073709551614, 18446744073709551615⟩ state
      return (completions.candidates.map Candidate.text, completions.replaceFrom, completions.replaceTo)) =
        some (["include", "skip"], 18446744073709551615, 18446744073709551615) := by
    decide +kernel
  have hmark : ¬ CursorToken.MarkOverflows ⟨"@", 18446744073709551614, 18446744073709551615⟩ := by
    rintro ⟨-, c, rest, htext, -, hge⟩
    obtain ⟨rfl, -⟩ := List.cons_eq_cons.1 ((show "@".toList = ['@'] by decide).symm.trans htext)
    exact absurd hge (by decide)
  obtain ⟨s, hs, hcompletions⟩ := Option.bind_eq_some_iff.1 hcompletions
  obtain ⟨state, hstate, hcompletions⟩ := Option.bind_eq_some_iff.1 hcompletions
  obtain ⟨completions, hcomplete, hcompletions⟩ := Option.bind_eq_some_iff.1 hcompletions
  obtain ⟨htexts, hreplaced⟩ := Prod.mk.inj (Option.some.inj hcompletions)
  obtain ⟨hfrom, hto⟩ := Prod.mk.inj hreplaced
  have hs := eq_ok_of_toOption hs
  obtain ⟨state', hstate', hcompletes⟩ := completes_of_frames (s := some s)
    (fun x hx => ⟨_, Option.some.inj hx ▸ hs⟩) ⟨"@", 18446744073709551614, 18446744073709551615⟩
    (List.cons_ne_nil _ _)
  obtain rfl : state' = state := Option.some.inj (hstate'.symm.trans hstate)
  exact ⟨s, state', completions, hs, hstate, hcomplete ▸ hcompletes.calculated (.inl hmark), htexts, hfrom, hto⟩

/-- **A mark may start at the last offset,** and ends after it. Where sums are taken without a check, what is replaced
starts before the token. -/
theorem not_start_le_of_last_offset : ∃ s state completions,
    Schema.ofSources [(none, "type Query { a: Int b(x: Int!): B }\ntype B { c: String d: B }\n")] = .ok s ∧
      ParserState.ofFrames? [.new .document, .new .query, .new .selectionSet, ⟨.field, some "a", 0, none⟩,
        .new .directive] = some state ∧
      completeChecked (some s) ⟨"@", 18446744073709551615, 18446744073709551615⟩ state = .error .sumTooLarge ∧
      complete (some s) ⟨"@", 18446744073709551615, 18446744073709551615⟩ state = some completions ∧
      ¬ 18446744073709551615 ≤ completions.replaceFrom := by
  have hcompletions : (do
      let s ← (Schema.ofSources
        [(none, "type Query { a: Int b(x: Int!): B }\ntype B { c: String d: B }\n")]).toOption
      let state ← ParserState.ofFrames? [.new .document, .new .query, .new .selectionSet, ⟨.field, some "a", 0, none⟩,
        .new .directive]
      let completions ← complete (some s) ⟨"@", 18446744073709551615, 18446744073709551615⟩ state
      return completions.replaceFrom) = some 0 := by
    decide +kernel
  have hmark : CursorToken.MarkOverflows ⟨"@", 18446744073709551615, 18446744073709551615⟩ :=
    ⟨by decide, '@', [], by decide, by decide, by decide⟩
  obtain ⟨s, hs, hcompletions⟩ := Option.bind_eq_some_iff.1 hcompletions
  obtain ⟨state, hstate, hcompletions⟩ := Option.bind_eq_some_iff.1 hcompletions
  obtain ⟨completions, hcomplete, hcompletions⟩ := Option.bind_eq_some_iff.1 hcompletions
  have hs := eq_ok_of_toOption hs
  obtain ⟨root, hroot, -⟩ := Schema.exists_root_of_rootName? (k := .query) hs rfl
  have hcompletes := completes_of_root (show (s.root? .query).isSome by rw [hroot]; rfl)
    ⟨"@", 18446744073709551615, 18446744073709551615⟩ state
  refine ⟨s, state, completions, hs, hstate, hcompletes.fault hmark (by rw [hcomplete]; nofun), hcomplete, ?_⟩
  rw [Option.some.inj hcompletions]
  decide

end QueryAid
