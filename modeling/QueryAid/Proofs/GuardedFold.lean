import Mathlib.Data.List.Nodup
/-!
# Folds that take in what is new

Loading a schema and adding members to a type are folds in `Except`: each step refuses its item or takes it
in, and most of them refuse an item whose key was met before. Such a fold succeeds exactly if every item is
acceptable by itself and the keys are new (`Fresh`), and then its result is that of the same fold without
refusals (`TakesNew.foldlM_eq_ok_iff`).
-/

namespace QueryAid

/-! ### Sequencing -/

/-- A computation in two steps succeeds exactly if both steps do. -/
theorem bind_eq_ok_iff {ε α β : Type} {x : Except ε α} {f : α → Except ε β} {b : β} :
    (x >>= f) = .ok b ↔ ∃ a, x = .ok a ∧ f a = .ok b := by
  cases x with
  | error e => simp [bind, Except.bind]
  | ok a => simp [bind, Except.bind]

/-- A computation that is seen to succeed has a result. -/
theorem exists_eq_ok_of_isOk {ε α : Type} {x : Except ε α} (h : x.isOk = true) : ∃ a, x = .ok a := by
  cases x with
  | error e => cases h
  | ok a => exact ⟨a, rfl⟩

/-- A computation that is seen to succeed with something that passes a test has such a result. -/
theorem exists_eq_ok_of_any {ε α : Type} {x : Except ε α} {p : α → Bool} (h : x.toOption.any p = true) :
    ∃ a, x = .ok a ∧ p a = true := by
  cases x with
  | error e => cases h
  | ok a => exact ⟨a, rfl, h⟩

theorem eq_ok_of_toOption {ε α : Type} {x : Except ε α} {a : α} (h : x.toOption = some a) : x = .ok a := by
  cases x with
  | error e => cases h
  | ok b => exact congrArg Except.ok (Option.some.inj h)

/-- A check before a computation must succeed, and says nothing else. -/
theorem check_bind_eq_ok_iff {ε β : Type} {x : Except ε PUnit} {k : Except ε β} {b : β} :
    (x >>= fun _ => k) = .ok b ↔ x = .ok () ∧ k = .ok b := by
  cases x with
  | error e => simp [bind, Except.bind]
  | ok a => simp [bind, Except.bind]

/-- A computation that refuses under a condition succeeds exactly if the condition fails and the rest succeeds. -/
theorem ite_throw_eq_ok_iff {ε α β : Type} {c : Prop} [Decidable c] {e : ε} {k : α → Except ε β}
    {rest : Except ε β} {b : β} :
    (if c then (throw e : Except ε α) >>= k else rest) = .ok b ↔ ¬ c ∧ rest = .ok b := by
  by_cases h : c
  · simp [h, throw, throwThe, MonadExceptOf.throw, bind, Except.bind]
  · simp [h]

/-- **A fold succeeds on a concatenation exactly if it succeeds on the first part and, from there, on the
second.** -/
theorem foldlM_append_eq_ok_iff {ε α σ : Type} {step : σ → α → Except ε σ} {xs ys : List α} {s s' : σ} :
    (xs ++ ys).foldlM step s = .ok s' ↔ ∃ m, xs.foldlM step s = .ok m ∧ ys.foldlM step m = .ok s' := by
  rw [List.foldlM_append, bind_eq_ok_iff]

/-! ### New keys -/

section Fresh

variable {κ : Type} {used : κ → Prop} {x : κ} {xs ys : List κ}

/-- No two of the keys are equal, and none was used before. -/
def Fresh (used : κ → Prop) (xs : List κ) : Prop := xs.Nodup ∧ ∀ x ∈ xs, ¬ used x

theorem fresh_nil : Fresh used [] := ⟨List.nodup_nil, by simp⟩

/-- Keys are new one after the other. -/
theorem fresh_cons_iff : Fresh used (x :: xs) ↔ ¬ used x ∧ Fresh (fun k => used k ∨ k = x) xs := by
  unfold Fresh
  rw [List.nodup_cons, List.forall_mem_cons]
  constructor
  · rintro ⟨⟨hx, hnd⟩, hux, huxs⟩
    refine ⟨hux, hnd, fun y hy h => ?_⟩
    rcases h with h | rfl
    · exact huxs y hy h
    · exact hx hy
  · rintro ⟨hux, hnd, h⟩
    exact ⟨⟨fun hx => h x hx (.inr rfl), hnd⟩, hux, fun y hy hu => h y hy (.inl hu)⟩

theorem fresh_append_iff :
    Fresh used (xs ++ ys) ↔ Fresh used xs ∧ Fresh (fun k => used k ∨ k ∈ xs) ys := by
  induction xs generalizing used with
  | nil => simp [fresh_nil]
  | cons x xs ih =>
    rw [List.cons_append, fresh_cons_iff, fresh_cons_iff, ih, and_assoc]
    simp only [List.mem_cons, or_assoc]

/-- Whether keys are new depends on nothing but which ones were used. -/
theorem fresh_congr {used' : κ → Prop} (h : ∀ k, used k ↔ used' k) : Fresh used xs ↔ Fresh used' xs := by
  unfold Fresh
  simp only [h]

/-- Beside a list of distinct keys, new keys are those that leave the whole list distinct. -/
theorem fresh_mem_iff_nodup_append (h : xs.Nodup) : Fresh (· ∈ xs) ys ↔ (xs ++ ys).Nodup := by
  rw [List.nodup_append]
  constructor
  · rintro ⟨hnd, hnew⟩
    exact ⟨h, hnd, fun x hx y hy e => hnew y hy (e ▸ hx)⟩
  · rintro ⟨_, hnd, hne⟩
    exact ⟨hnd, fun y hy hx => hne y hx y hy rfl⟩

end Fresh

/-! ### The fold -/

variable {ε σ α κ : Type}

/-- **A step that takes in an item exactly if the item is good by itself and its key is new.** What was used
afterwards is what was used before, and the key. -/
structure TakesNew (step : σ → α → Except ε σ) (next : σ → α → σ) (good : α → Prop) (key : α → κ)
    (used : σ → κ → Prop) : Prop where
  /-- When the step succeeds, and what it gives. -/
  ok_iff : ∀ s x s', step s x = .ok s' ↔ (good x ∧ ¬ used s (key x)) ∧ s' = next s x
  /-- What is used after an item of a new key was taken in. -/
  used_next : ∀ s x k, ¬ used s (key x) → (used (next s x) k ↔ used s k ∨ k = key x)

/-- **Such steps succeed one after the other exactly if all items are good and their keys are new.** -/
theorem TakesNew.foldlM_eq_ok_iff {step : σ → α → Except ε σ} {next : σ → α → σ} {good : α → Prop}
    {key : α → κ} {used : σ → κ → Prop} (h : TakesNew step next good key used) {xs : List α} {s s' : σ} :
    xs.foldlM step s = .ok s' ↔
      ((∀ x ∈ xs, good x) ∧ Fresh (used s) (xs.map key)) ∧ s' = xs.foldl next s := by
  induction xs generalizing s with
  | nil => simp [fresh_nil, pure, Except.pure, eq_comm]
  | cons x xs ih =>
    rw [List.foldlM_cons, bind_eq_ok_iff, List.forall_mem_cons, List.map_cons, fresh_cons_iff,
      List.foldl_cons]
    constructor
    · rintro ⟨m, hm, hrest⟩
      obtain ⟨⟨hgood, hnew⟩, rfl⟩ := (h.ok_iff s x m).1 hm
      obtain ⟨⟨hgoods, hfresh⟩, rfl⟩ := ih.1 hrest
      exact ⟨⟨⟨hgood, hgoods⟩, hnew, (fresh_congr fun k => h.used_next s x k hnew).1 hfresh⟩, rfl⟩
    · rintro ⟨⟨⟨hgood, hgoods⟩, hnew, hfresh⟩, rfl⟩
      refine ⟨next s x, (h.ok_iff s x _).2 ⟨⟨hgood, hnew⟩, rfl⟩, ih.2 ⟨⟨hgoods, ?_⟩, rfl⟩⟩
      exact (fresh_congr fun k => h.used_next s x k hnew).2 hfresh

end QueryAid
