import QueryAid.Parsing
/-!
# What parsers yield

A parser yields results of some kind if all that it gives are of this kind, and it keeps a property of states. What a
parser is put together from decides what it yields: there is one lemma for each operator.
-/

namespace QueryAid

namespace Parser

variable {σ ε α β : Type} {inv : σ → Prop} {p : Parser σ ε α} {good good' : α → Prop} {test : σ → Bool}

/-- A parser and another one behind it succeed exactly if the first one does, and the second one on from there. -/
theorem bind_eq_ok {f : α → Parser σ ε β} {s s'' : σ} {b : β} :
    (p >>= f) s = .ok (b, s'') ↔ ∃ a s', p s = .ok (a, s') ∧ f a s' = .ok (b, s'') := by
  simp only [Bind.bind]
  cases p s with
  | error e =>
    constructor
    · intro h
      cases h
    · rintro ⟨_, _, hp, -⟩
      cases hp
  | ok result =>
    obtain ⟨a, s'⟩ := result
    constructor
    · intro h
      exact ⟨a, s', rfl, h⟩
    · rintro ⟨_, _, hp, h⟩
      cases hp
      exact h

/-- **A parser keeps a property of states and yields results of some kind,** whenever it succeeds. -/
def Yields (inv : σ → Prop) (p : Parser σ ε α) (good : α → Prop) : Prop :=
  ∀ s a s', inv s → p s = .ok (a, s') → good a ∧ inv s'

theorem Yields.mono (h : Yields inv p good) (hgood : ∀ a, good a → good' a) : Yields inv p good' := by
  intro s a s' hs hp
  obtain ⟨ha, hs'⟩ := h s a s' hs hp
  exact ⟨hgood a ha, hs'⟩

theorem yields_pure {a : α} (h : good a) : Yields inv (pure a : Parser σ ε α) good := by
  intro s a' s' hs hp
  cases hp
  exact ⟨h, hs⟩

theorem Yields.bind {f : α → Parser σ ε β} {goodAfter : β → Prop} (h : Yields inv p good)
    (hf : ∀ a, good a → Yields inv (f a) goodAfter) : Yields inv (p >>= f) goodAfter := by
  intro s b s'' hs hbind
  simp only [Bind.bind] at hbind
  split at hbind
  · cases hbind
  · next a s' hp =>
    obtain ⟨ha, hs'⟩ := h s a s' hs hp
    exact hf a ha s' b s'' hs' hbind

theorem yields_failAt {e : σ → ε} : Yields inv (failAt e : Parser σ ε α) good := by
  intro s a s' _ hp
  cases hp

theorem yields_look {f : σ → α} (h : ∀ s, inv s → good (f s)) : Yields inv (look f : Parser σ ε α) good := by
  intro s a s' hs hp
  cases hp
  exact ⟨h s hs, hs⟩

theorem Yields.optional (h : Yields inv p good) : Yields inv (optional test p) fun found => ∀ a ∈ found, good a := by
  intro s found s' hs hp
  unfold Parser.optional at hp
  split at hp
  · split at hp
    · cases hp
    · next a s' hitem =>
      cases hp
      obtain ⟨ha, hs'⟩ := h s a s' hs hitem
      exact ⟨fun _ hmem => Option.mem_some.1 hmem ▸ ha, hs'⟩
  · cases hp
    exact ⟨fun a ha => absurd ha (Option.not_mem_none a), hs⟩

theorem Yields.many [Unread σ] (h : Yields inv p good) : Yields inv (many test p) fun found => ∀ a ∈ found, good a := by
  intro s
  -- The recursion is on what is left to read.
  induction hleft : Unread.unread s using Nat.strongRecOn generalizing s with
  | ind left ih =>
    intro found s' hs hp
    rw [Parser.many] at hp
    split at hp
    · split at hp
      · cases hp
      · next a s₁ hitem =>
        obtain ⟨ha, hs₁⟩ := h s a s₁ hs hitem
        split at hp
        · next hless =>
          split at hp
          · cases hp
          · next rest _ hrest =>
            cases hp
            obtain ⟨hall, hs₂⟩ := ih _ (hleft ▸ hless) s₁ rfl rest s' hs₁ hrest
            exact ⟨List.forall_mem_cons.2 ⟨ha, hall⟩, hs₂⟩
        · cases hp
          exact ⟨List.forall_mem_singleton.2 ha, hs₁⟩
    · cases hp
      exact ⟨List.forall_mem_nil _, hs⟩

theorem Yields.many1 [Unread σ] (h : Yields inv p good) :
    Yields inv (many1 test p) fun found => ∀ a ∈ found, good a :=
  h.bind fun _ ha => h.many.bind fun _ hrest => yields_pure (List.forall_mem_cons.2 ⟨ha, hrest⟩)

end Parser

end QueryAid
