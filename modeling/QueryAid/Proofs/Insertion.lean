import QueryAid.Proofs.GuardedFold
import QueryAid.Table
import Mathlib.Data.List.Induction
/-!
# What repeated insertion leaves in a table

Entries of new names go behind the old ones in their order (`entries_insertAll_of_fresh`). The table of a list
holds, of the entries of one name, the last one (`mem_entries_ofList_iff`), in the place of the first
(`names_ofList`). A table whose entries are changed
without their names is a table again (`mapEntries`), and inserting a changed entry is such a change
(`insert_eq_mapEntries`).
-/

namespace QueryAid

namespace Table

variable {α : Type} [Named α] {t : Table α} {a : α} {l : List α} {name : String}

/-- The names after an insertion. -/
theorem mem_names_insert_iff : name ∈ (t.insert a).names ↔ name ∈ t.names ∨ name = Named.name a := by
  by_cases h : Named.name a ∈ t.names
  · rw [names_insert_of_mem h]
    constructor
    · exact .inl
    · rintro (hn | rfl)
      · exact hn
      · exact h
  · rw [names_insert_of_not_mem h, List.mem_append, List.mem_singleton]

/-- Whether an entry is found depends on nothing but its name being there. -/
theorem exists_find?_iff : (∃ b, t.find? name = some b) ↔ name ∈ t.names := by
  rw [← Option.ne_none_iff_exists', ne_eq, find?_eq_none_iff, not_not]

@[simp]
theorem insertAll_nil : t.insertAll [] = t := rfl

theorem insertAll_cons : t.insertAll (a :: l) = (t.insert a).insertAll l := rfl

theorem insertAll_concat : t.insertAll (l ++ [a]) = (t.insertAll l).insert a := List.foldl_append

theorem mem_names_insertAll_iff :
    name ∈ (t.insertAll l).names ↔ name ∈ t.names ∨ name ∈ l.map Named.name := by
  induction l generalizing t with
  | nil => simp
  | cons a l ih => rw [insertAll_cons, ih, mem_names_insert_iff, List.map_cons, List.mem_cons, or_assoc]

/-- **Entries of new names go behind the old ones, in their order.** -/
theorem entries_insertAll_of_fresh (h : Fresh (· ∈ t.names) (l.map Named.name)) :
    (t.insertAll l).entries = t.entries ++ l := by
  induction l generalizing t with
  | nil => simp
  | cons a l ih =>
    rw [List.map_cons, fresh_cons_iff] at h
    obtain ⟨hnew, hrest⟩ := h
    have hrest' : Fresh (· ∈ (t.insert a).names) (l.map Named.name) :=
      (fresh_congr fun _ => mem_names_insert_iff).2 hrest
    rw [insertAll_cons, ih hrest', entries_insert_of_not_mem hnew, List.append_assoc, List.singleton_append]

/-- A list without two things of one name is the entries of its table. -/
theorem entries_ofList_of_nodup (h : (l.map Named.name).Nodup) : (ofList l).entries = l := by
  have hfresh : Fresh (· ∈ (empty : Table α).names) (l.map Named.name) := ⟨h, fun _ _ => List.not_mem_nil⟩
  rw [ofList, entries_insertAll_of_fresh hfresh]
  exact List.nil_append l

/-! ### Entries made of other things -/

section Convert

variable {β : Type} {conv : β → α} {key : β → String} {xs : List β}

/-- Things that are made of others may bear the names of those. -/
theorem map_name_map (h : ∀ x, Named.name (conv x) = key x) : (xs.map conv).map Named.name = xs.map key := by
  rw [List.map_map]
  exact List.map_congr_left fun x _ => h x

theorem mem_names_insertAll_map_iff (h : ∀ x, Named.name (conv x) = key x) :
    name ∈ (t.insertAll (xs.map conv)).names ↔ name ∈ t.names ∨ name ∈ xs.map key := by
  rw [mem_names_insertAll_iff, map_name_map h]

theorem mem_names_ofList_map_iff (h : ∀ x, Named.name (conv x) = key x) :
    name ∈ (ofList (xs.map conv)).names ↔ name ∈ xs.map key := by
  rw [ofList, mem_names_insertAll_map_iff h]
  exact or_iff_right List.not_mem_nil

theorem entries_insertAll_map_of_fresh (h : ∀ x, Named.name (conv x) = key x)
    (hfresh : Fresh (· ∈ t.names) (xs.map key)) :
    (t.insertAll (xs.map conv)).entries = t.entries ++ xs.map conv := by
  rw [← map_name_map h] at hfresh
  exact entries_insertAll_of_fresh hfresh

/-- **A fold that takes in things of new names puts what it makes of them behind the old entries.** -/
theorem foldlM_insert_eq_ok_iff {ε : Type} {step : Table α → β → Except ε (Table α)} {good : β → Prop}
    (hstep : TakesNew step (fun t x => t.insert (conv x)) good key fun t n => n ∈ t.names)
    (h : ∀ x, Named.name (conv x) = key x) {t' : Table α} :
    xs.foldlM step t = .ok t' ↔
      ((∀ x ∈ xs, good x) ∧ Fresh (· ∈ t.names) (xs.map key)) ∧ t'.entries = t.entries ++ xs.map conv := by
  rw [hstep.foldlM_eq_ok_iff]
  refine and_congr_right fun hnew => ?_
  have hinsertAll : xs.foldl (fun t x => t.insert (conv x)) t = t.insertAll (xs.map conv) := List.foldl_map.symm
  rw [hinsertAll, ← entries_insertAll_map_of_fresh h hnew.2, Table.ext_iff]

end Convert

/-! ### The last entry of each name -/

/-- An entry of a table after insertions is one of the inserted, unless a later one bears its name, or an old
one, unless any of them does. -/
theorem mem_entries_insertAll_iff : a ∈ (t.insertAll l).entries ↔
    (∃ p q, l = p ++ a :: q ∧ ∀ b ∈ q, Named.name b ≠ Named.name a) ∨
      a ∈ t.entries ∧ ∀ b ∈ l, Named.name b ≠ Named.name a := by
  induction l generalizing t with
  | nil => simp
  | cons c l ih =>
    rw [insertAll_cons, ih, mem_entries_insert]
    constructor
    · rintro (⟨p, q, rfl, hq⟩ | ⟨rfl | ⟨ha, hne⟩, hl⟩)
      · exact .inl ⟨c :: p, q, rfl, hq⟩
      · exact .inl ⟨[], l, rfl, hl⟩
      · exact .inr ⟨ha, List.forall_mem_cons.2 ⟨hne.symm, hl⟩⟩
    · rintro (⟨p, q, hl, hq⟩ | ⟨ha, hl⟩)
      · rw [List.cons_eq_append_iff] at hl
        rcases hl with ⟨rfl, hl⟩ | ⟨p', rfl, rfl⟩
        · obtain ⟨rfl, rfl⟩ := List.cons_eq_cons.1 hl
          exact .inr ⟨.inl rfl, hq⟩
        · exact .inl ⟨p', q, rfl, hq⟩
      · rw [List.forall_mem_cons] at hl
        exact .inr ⟨.inr ⟨ha, hl.1.symm⟩, hl.2⟩

theorem mem_or_mem_of_mem_insertAll (h : a ∈ (t.insertAll l).entries) : a ∈ t.entries ∨ a ∈ l := by
  rcases mem_entries_insertAll_iff.1 h with ⟨p, q, rfl, -⟩ | ⟨ha, -⟩
  · exact .inr (List.mem_append_right _ List.mem_cons_self)
  · exact .inl ha

/-- **Of the entries of one name the table of a list holds the last one.** -/
theorem mem_entries_ofList_iff :
    a ∈ (ofList l).entries ↔ ∃ p q, l = p ++ a :: q ∧ ∀ b ∈ q, Named.name b ≠ Named.name a := by
  rw [ofList, mem_entries_insertAll_iff]
  exact or_iff_left fun h => List.not_mem_nil h.1

/-- **In the table of a list every name stands where it comes first.** -/
theorem names_ofList : (ofList l).names = (l.map Named.name).eraseDups := by
  induction l using List.reverseRecOn with
  | nil => rfl
  | append_singleton l a ih =>
    have hmem : Named.name a ∈ (ofList l).names ↔ Named.name a ∈ l.map Named.name := by
      rw [ih, List.mem_eraseDups]
    have hlast : ofList (l ++ [a]) = (ofList l).insert a := insertAll_concat
    rw [hlast, List.map_append, List.eraseDups_append, List.map_singleton, List.removeAll]
    generalize l.map Named.name = names at ih hmem
    by_cases h : Named.name a ∈ names
    · rw [names_insert_of_mem (hmem.2 h), ih]
      simp [h]
    · rw [names_insert_of_not_mem fun hn => h (hmem.1 hn), ih]
      simp [h, List.eraseDups_cons]

/-! ### Changing entries -/

/-- A table with its entries changed, but not their names. -/
def mapEntries (f : α → α) (hf : ∀ b, Named.name (f b) = Named.name b) (t : Table α) : Table α :=
  ⟨t.entries.map f, by
    rw [map_name_map hf]
    exact t.nodup⟩

variable {f : α → α} {hf : ∀ b, Named.name (f b) = Named.name b}

@[simp]
theorem entries_mapEntries : (mapEntries f hf t).entries = t.entries.map f := rfl

@[simp]
theorem names_mapEntries : (mapEntries f hf t).names = t.names := by
  rw [names, entries_mapEntries]
  exact map_name_map hf

/-- **Inserting a changed entry in its place changes that entry and no other.** -/
theorem insert_eq_mapEntries {a' : α} (ha : a ∈ t.entries) (hname : Named.name a' = Named.name a)
    (hself : f a = a') (hother : ∀ b, Named.name b ≠ Named.name a → f b = b) :
    t.insert a' = mapEntries f hf t := by
  have hmem : Named.name a' ∈ t.names := hname ▸ mem_names.2 ⟨a, ha, rfl⟩
  apply Table.ext
  simp only [insert, hmem, dite_true, overwrite, entries_mapEntries]
  refine List.map_congr_left fun b hb => ?_
  by_cases h : Named.name b = Named.name a
  · have hba : b = a := List.inj_on_of_nodup_map t.nodup hb ha h
    rw [hba, if_pos hname.symm, hself]
  · rw [if_neg (hname ▸ h), hother b h]

end Table

end QueryAid
