/-!
# Insertion-ordered tables

A schema keeps its types, directives, fields, arguments and enum values in the order in which they were
written, and looks them up by name. `Table` is that structure: a list of named things no two of which
share a name. A new entry goes to the end; an entry whose name is already there takes the old one's place.

Main statements: `find?_eq_some_iff` (what a look-up finds is the entry of that name), `find?_insert`,
`names_insert_of_mem`, `names_insert_of_not_mem`.
-/

namespace QueryAid

/-- A thing that is looked up by its name. -/
class Named (α : Type) where
  /-- The name the thing is looked up by. -/
  name : α → String

/-- **A list of named things without two of one name**, in the order in which they were added. -/
structure Table (α : Type) [Named α] where
  /-- The entries, oldest first. -/
  entries : List α
  /-- No two entries share a name. -/
  nodup : (entries.map Named.name).Nodup

namespace Table

variable {α : Type} [Named α]

@[ext]
theorem ext {s t : Table α} (h : s.entries = t.entries) : s = t := by
  cases s; cases t; simp_all

instance [DecidableEq α] : DecidableEq (Table α) := fun s t =>
  if h : s.entries = t.entries then isTrue (Table.ext h)
  else isFalse fun e => h (e ▸ rfl)

/-- The table without entries. -/
def empty : Table α := ⟨[], List.nodup_nil⟩

instance : EmptyCollection (Table α) := ⟨empty⟩

instance : Inhabited (Table α) := ⟨empty⟩

/-- The names of the entries, in order. -/
def names (t : Table α) : List String := t.entries.map Named.name

/-- The entry of the given name. -/
def find? (t : Table α) (name : String) : Option α :=
  t.entries.find? fun a => Named.name a == name

/-- Whether an entry of the given name exists. -/
def contains (t : Table α) (name : String) : Bool := t.names.contains name

/-- Replaces the entry that bears the name of `a`, and leaves the others alone. -/
def overwrite (a : α) (l : List α) : List α :=
  l.map fun b => if Named.name b = Named.name a then a else b

theorem map_name_overwrite (a : α) (l : List α) :
    (overwrite a l).map Named.name = l.map Named.name := by
  simp only [overwrite, List.map_map]
  refine List.map_congr_left fun b _ => ?_
  by_cases h : Named.name b = Named.name a <;> simp [h]

/-- Adds an entry: in the place of the entry of its name if there is one, at the end otherwise. -/
def insert (t : Table α) (a : α) : Table α :=
  if h : Named.name a ∈ t.names then
    ⟨overwrite a t.entries, by rw [map_name_overwrite]; exact t.nodup⟩
  else
    ⟨t.entries ++ [a], by
      have ht := t.nodup
      rw [List.map_append, List.nodup_append]
      refine ⟨ht, by simp, ?_⟩
      intro x hx y hy
      simp only [List.map_cons, List.map_nil, List.mem_singleton] at hy
      rintro rfl
      exact h (hy ▸ hx)⟩

/-- Adds entries one after the other. -/
def insertAll (t : Table α) (l : List α) : Table α := l.foldl insert t

/-- The table of a list: of the entries of one name the last one stays, in the first one's place. -/
def ofList (l : List α) : Table α := insertAll empty l

/-! ### Looking up -/

theorem contains_iff {t : Table α} {name : String} : t.contains name = true ↔ name ∈ t.names := by
  simp [contains]

theorem mem_names {t : Table α} {name : String} :
    name ∈ t.names ↔ ∃ a ∈ t.entries, Named.name a = name := by
  simp [names]

/-- What a look-up finds bears the name asked for and is an entry. -/
theorem name_and_mem_of_find? {t : Table α} {name : String} {a : α} (h : t.find? name = some a) :
    Named.name a = name ∧ a ∈ t.entries := by
  have h1 := List.find?_some h
  exact ⟨by simpa using h1, List.mem_of_find?_eq_some h⟩

private theorem find?_name_eq_of_nodup : ∀ {l : List α}, (l.map Named.name).Nodup → ∀ {a : α}, a ∈ l →
    (l.find? fun b => Named.name b == Named.name a) = some a
  | [], _, _, h => by simp at h
  | b :: l, hnd, a, h => by
    rw [List.map_cons, List.nodup_cons] at hnd
    rcases List.mem_cons.1 h with rfl | h'
    · simp
    · have hne : Named.name b ≠ Named.name a := fun e => hnd.1 (e ▸ List.mem_map_of_mem h')
      simp [hne, find?_name_eq_of_nodup hnd.2 h']

/-- **A look-up finds exactly the entry of that name.** -/
theorem find?_eq_some_iff {t : Table α} {name : String} {a : α} :
    t.find? name = some a ↔ a ∈ t.entries ∧ Named.name a = name := by
  constructor
  · exact fun h => (name_and_mem_of_find? h).symm
  · rintro ⟨hm, rfl⟩
    exact find?_name_eq_of_nodup t.nodup hm

theorem find?_eq_none_iff {t : Table α} {name : String} : t.find? name = none ↔ name ∉ t.names := by
  simp [find?, names]

/-! ### Adding -/

/-- A replaced entry keeps its place. -/
theorem names_insert_of_mem {t : Table α} {a : α} (h : Named.name a ∈ t.names) :
    (t.insert a).names = t.names := by
  unfold insert
  rw [dif_pos h]
  exact map_name_overwrite a t.entries

/-- A new entry goes to the end. -/
theorem entries_insert_of_not_mem {t : Table α} {a : α} (h : Named.name a ∉ t.names) :
    (t.insert a).entries = t.entries ++ [a] := by
  simp [insert, h]

theorem names_insert_of_not_mem {t : Table α} {a : α} (h : Named.name a ∉ t.names) :
    (t.insert a).names = t.names ++ [Named.name a] := by
  simp [names, entries_insert_of_not_mem h]

theorem mem_entries_insert {t : Table α} {a b : α} :
    b ∈ (t.insert a).entries ↔ b = a ∨ b ∈ t.entries ∧ Named.name b ≠ Named.name a := by
  by_cases h : Named.name a ∈ t.names
  · simp only [insert, h, dite_true, overwrite, List.mem_map]
    constructor
    · rintro ⟨c, hc, rfl⟩
      by_cases hn : Named.name c = Named.name a
      · simp [hn]
      · simp [hn, hc]
    · rintro (rfl | ⟨hb, hn⟩)
      · obtain ⟨c, hc, hcn⟩ := mem_names.1 h
        exact ⟨c, hc, by simp [hcn]⟩
      · exact ⟨b, hb, by simp [hn]⟩
  · rw [entries_insert_of_not_mem h, List.mem_append, List.mem_singleton]
    constructor
    · rintro (hb | rfl)
      · exact Or.inr ⟨hb, fun e => h (e ▸ mem_names.2 ⟨b, hb, rfl⟩)⟩
      · exact Or.inl rfl
    · rintro (rfl | ⟨hb, _⟩)
      · exact Or.inr rfl
      · exact Or.inl hb

/-- **After an entry was added, its name leads to it and all other names lead where they led.** -/
theorem find?_insert {t : Table α} {a : α} {name : String} :
    (t.insert a).find? name = if name = Named.name a then some a else t.find? name := by
  by_cases hn : name = Named.name a
  · simp only [hn, ite_true]
    exact find?_eq_some_iff.2 ⟨mem_entries_insert.2 (Or.inl rfl), rfl⟩
  · simp only [hn, ite_false]
    cases h : t.find? name with
    | some b =>
      obtain ⟨hb, rfl⟩ := find?_eq_some_iff.1 h
      exact find?_eq_some_iff.2 ⟨mem_entries_insert.2 (Or.inr ⟨hb, hn⟩), rfl⟩
    | none =>
      rw [find?_eq_none_iff] at h ⊢
      intro hmem
      obtain ⟨b, hb, rfl⟩ := mem_names.1 hmem
      rcases mem_entries_insert.1 hb with rfl | ⟨hb', _⟩
      · exact hn rfl
      · exact h (mem_names.2 ⟨b, hb', rfl⟩)

end Table

end QueryAid
