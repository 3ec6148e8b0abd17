import QueryAid.Proofs.Schema.Sources
import Mathlib.Data.List.Perm.Subperm
/-!
# The roots that schema blocks declare

Schema blocks are taken in one after the other exactly if all of them together declare no operation twice and
no type for two operations (`foldlM_addSchemaBlock_eq_ok_iff`). What the builder holds then is what they
declare (`get_declare_iff`).
-/

namespace QueryAid

namespace PerOperation

variable {α : Type} {p : PerOperation α} {k : OperationKind} {a : α} {ds : List (OperationKind × α)}

theorem get_set {k' : OperationKind} : (p.set k a).get k' = if k' = k then some a else p.get k' := by
  cases k <;> cases k' <;> rfl

@[simp]
theorem get_none : (none : PerOperation α).get k = .none := by
  cases k <;> rfl

theorem mem_toList_iff : (k, a) ∈ p.toList ↔ p.get k = some a := by
  simp only [toList, List.mem_filterMap, Option.map_eq_some_iff, Prod.mk.injEq]
  constructor
  · rintro ⟨_, -, _, hget, rfl, rfl⟩
    exact hget
  · intro hget
    exact ⟨k, by cases k <;> simp, a, hget, rfl, rfl⟩

/-- Every kind of operation occurs once at most. -/
theorem nodup_kinds : (p.toList.map Prod.fst).Nodup := by
  have hkinds : p.toList.map Prod.fst =
      [OperationKind.query, .mutation, .subscription].filter fun k => (p.get k).isSome := by
    obtain ⟨q, m, s⟩ := p
    cases q <;> cases m <;> cases s <;> rfl
  rw [hkinds]
  exact List.Nodup.filter _ (by decide)

/-- The same with several things set, one after the other. -/
def declare (p : PerOperation α) (ds : List (OperationKind × α)) : PerOperation α :=
  ds.foldl (fun p d => p.set d.1 d.2) p

theorem declare_append {ds' : List (OperationKind × α)} : p.declare (ds ++ ds') = (p.declare ds).declare ds' :=
  List.foldl_append

/-- **What was there stays, and what is new is there,** if only kinds for which there was nothing are set. -/
theorem get_declare_iff (h : Fresh (fun k => (p.get k).isSome) (ds.map Prod.fst)) :
    (p.declare ds).get k = some a ↔ p.get k = some a ∨ (k, a) ∈ ds := by
  induction ds generalizing p with
  | nil => simp [declare]
  | cons d ds ih =>
    rw [List.map_cons, fresh_cons_iff] at h
    obtain ⟨hnew, hrest⟩ := h
    have hset : ∀ k, (((p.set d.1 d.2).get k).isSome ↔ (p.get k).isSome ∨ k = d.1) := by
      intro k
      rw [get_set]
      by_cases hk : k = d.1
      · simp [hk]
      · simp [hk]
    have hnone : p.get d.1 = .none := by simpa using hnew
    rw [declare, List.foldl_cons]
    refine (ih ((fresh_congr hset).2 hrest)).trans ?_
    rw [get_set, List.mem_cons]
    by_cases hk : k = d.1
    · subst hk
      simp only [if_true, hnone, reduceCtorEq, false_or, Option.some.injEq]
      refine or_congr_left ?_
      rw [Prod.ext_iff]
      simp [eq_comm]
    · have hne : (k, a) ≠ d := fun e => hk (congrArg Prod.fst e)
      simp [hk, hne]

theorem isSome_get_declare_iff (h : Fresh (fun k => (p.get k).isSome) (ds.map Prod.fst)) :
    ((p.declare ds).get k).isSome ↔ (p.get k).isSome ∨ k ∈ ds.map Prod.fst := by
  simp only [Option.isSome_iff_exists, get_declare_iff h, exists_or, List.mem_map, Prod.exists,
    exists_and_right, exists_eq_right]

/-- Up to order, new things go to the end of the list. -/
theorem toList_declare_perm (h : Fresh (fun k => (p.get k).isSome) (ds.map Prod.fst)) :
    (p.declare ds).toList.Perm (p.toList ++ ds) := by
  refine (List.perm_ext_iff_of_nodup nodup_kinds.of_map ?_).2 ?_
  · refine List.nodup_append.2 ⟨nodup_kinds.of_map, h.1.of_map, fun x hx y hy e => ?_⟩
    refine h.2 y.1 (List.mem_map_of_mem hy) ?_
    show (p.get y.1).isSome
    rw [← e, mem_toList_iff.1 hx]
    rfl
  · rintro ⟨k, a⟩
    rw [mem_toList_iff, get_declare_iff h, List.mem_append, mem_toList_iff]

end PerOperation

namespace SchemaBuilder

variable {roots roots' : PerOperation RootDeclaration}

theorem addRoot_takesNew (location : Location) :
    TakesNew (addRoot location) (fun p r => p.set r.1 ⟨r.2, location⟩) (fun _ => True) Prod.fst
      fun p k => (p.get k).isSome where
  ok_iff p r p' := by
    unfold addRoot
    cases h : p.get r.1 with
    | some first => simp
    | none => simp [eq_comm]
  used_next p r k _ := by
    rw [PerOperation.get_set]
    by_cases hk : k = r.1
    · simp [hk]
    · simp [hk]

/-- Roots are told apart exactly if no two of them name one type. -/
theorem sharedRoot?_eq_none_iff {l : List (OperationKind × RootDeclaration)} :
    sharedRoot? l = none ↔ (l.map fun r => r.2.typeName).Nodup := by
  induction l with
  | nil => simp [sharedRoot?]
  | cons r l ih =>
    rw [sharedRoot?, List.map_cons, List.nodup_cons, ← ih]
    cases h : l.find? fun s => s.2.typeName == r.2.typeName with
    | some s =>
      have hname := List.find?_some h
      have hmem : r.2.typeName ∈ l.map fun r => r.2.typeName :=
        List.mem_map.2 ⟨s, List.mem_of_find?_eq_some h, by simpa using hname⟩
      simp [hmem]
    | none =>
      have hnew : r.2.typeName ∉ l.map fun r => r.2.typeName := by
        simpa using h
      simp only [hnew, not_false_eq_true, true_and]

/-- A schema block is taken in exactly if what it declares is new, and then no two roots name one type. -/
theorem addSchemaBlock_eq_ok_iff {file : String} {s : Sdl.SchemaBlock} :
    addSchemaBlock file roots s = .ok roots' ↔
      (Fresh (fun k => (roots.get k).isSome) ((s.declarations file).map Prod.fst) ∧
        ((roots.toList ++ s.declarations file).map fun r => r.2.typeName).Nodup) ∧
      roots' = roots.declare (s.declarations file) := by
  have hkinds : (s.declarations file).map Prod.fst = s.roots.toList.map Prod.fst := by
    rw [Sdl.SchemaBlock.declarations, List.map_map]
    rfl
  have hdeclare : s.roots.toList.foldl (fun p r => p.set r.1 ⟨r.2, .file file s.place⟩) roots =
      roots.declare (s.declarations file) := by
    rw [PerOperation.declare, Sdl.SchemaBlock.declarations, List.foldl_map]
  unfold addSchemaBlock
  rw [bind_eq_ok_iff]
  simp only [(addRoot_takesNew _).foldlM_eq_ok_iff, implies_true, true_and, hdeclare, ← hkinds]
  constructor
  · rintro ⟨_, ⟨hfresh, rfl⟩, h⟩
    cases hshared : sharedRoot? (roots.declare (s.declarations file)).toList with
    | some e => simp [hshared, throw, throwThe, MonadExceptOf.throw] at h
    | none =>
      simp only [hshared, pure, Except.pure, Except.ok.injEq] at h
      have hnodup := sharedRoot?_eq_none_iff.1 hshared
      exact ⟨⟨hfresh, ((PerOperation.toList_declare_perm hfresh).map _).nodup_iff.1 hnodup⟩, h.symm⟩
  · rintro ⟨⟨hfresh, hnodup⟩, rfl⟩
    have hshared : sharedRoot? (roots.declare (s.declarations file)).toList = none :=
      sharedRoot?_eq_none_iff.2 (((PerOperation.toList_declare_perm hfresh).map _).nodup_iff.2 hnodup)
    exact ⟨_, ⟨hfresh, rfl⟩, by rw [hshared]; rfl⟩

/-- **Schema blocks are taken in exactly if, together with what was there, they declare no operation twice and
no type twice.** -/
theorem foldlM_addSchemaBlock_eq_ok_iff {blocks : List (String × Sdl.SchemaBlock)}
    (h : (roots.toList.map fun r => r.2.typeName).Nodup) :
    blocks.foldlM (fun r x => addSchemaBlock x.1 r x.2) roots = .ok roots' ↔
      (Fresh (fun k => (roots.get k).isSome) ((blocks.flatMap fun x => x.2.declarations x.1).map Prod.fst) ∧
        ((roots.toList ++ blocks.flatMap fun x => x.2.declarations x.1).map fun r => r.2.typeName).Nodup) ∧
      roots' = roots.declare (blocks.flatMap fun x => x.2.declarations x.1) := by
  induction blocks generalizing roots with
  | nil =>
    rw [List.flatMap_nil, List.append_nil]
    constructor
    · intro hok
      exact ⟨⟨fresh_nil, h⟩, (Except.ok.inj hok).symm⟩
    · rintro ⟨-, rfl⟩
      rfl
  | cons x blocks ih =>
    rw [List.foldlM_cons, bind_eq_ok_iff, List.flatMap_cons, List.map_append, fresh_append_iff,
      PerOperation.declare_append, ← List.append_assoc]
    simp only [addSchemaBlock_eq_ok_iff]
    set first := x.2.declarations x.1
    set rest := blocks.flatMap fun x => x.2.declarations x.1
    -- After the first block, what it declares stands in the list of roots.
    have hmove (hfresh : Fresh (fun k => (roots.get k).isSome) (first.map Prod.fst)) :
        (((roots.declare first).toList ++ rest).map fun r => r.2.typeName).Nodup ↔
          ((roots.toList ++ first ++ rest).map fun r => r.2.typeName).Nodup :=
      (((PerOperation.toList_declare_perm hfresh).append_right rest).map _).nodup_iff
    have hused (hfresh : Fresh (fun k => (roots.get k).isSome) (first.map Prod.fst)) :
        Fresh (fun k => ((roots.declare first).get k).isSome) (rest.map Prod.fst) ↔
          Fresh (fun k => (roots.get k).isSome ∨ k ∈ first.map Prod.fst) (rest.map Prod.fst) :=
      fresh_congr fun k => PerOperation.isSome_get_declare_iff hfresh
    have hfirst (hnodup : ((roots.toList ++ first ++ rest).map fun r => r.2.typeName).Nodup) :
        ((roots.toList ++ first).map fun r => r.2.typeName).Nodup := by
      rw [List.map_append] at hnodup
      exact hnodup.of_append_left
    have hstart (hfresh : Fresh (fun k => (roots.get k).isSome) (first.map Prod.fst))
        (hnodup : ((roots.toList ++ first).map fun r => r.2.typeName).Nodup) :
        ((roots.declare first).toList.map fun r => r.2.typeName).Nodup :=
      ((PerOperation.toList_declare_perm hfresh).map _).nodup_iff.2 hnodup
    constructor
    · rintro ⟨_, ⟨⟨hfresh, hnodup⟩, rfl⟩, hrest⟩
      obtain ⟨⟨hfresh', hnodup'⟩, rfl⟩ := (ih (hstart hfresh hnodup)).1 hrest
      exact ⟨⟨⟨hfresh, (hused hfresh).1 hfresh'⟩, (hmove hfresh).1 hnodup'⟩, rfl⟩
    · rintro ⟨⟨⟨hfresh, hfresh'⟩, hnodup⟩, rfl⟩
      refine ⟨_, ⟨⟨hfresh, hfirst hnodup⟩, rfl⟩, (ih (hstart hfresh (hfirst hnodup))).2 ⟨⟨?_, ?_⟩, rfl⟩⟩
      · exact (hused hfresh).2 hfresh'
      · exact (hmove hfresh).2 hnodup

end SchemaBuilder

end QueryAid
