import QueryAid.Proofs.Schema.Building
/-!
# Sources without a name

A source that is loaded without a name is called by a number, that of the unnamed sources before it. The number is kept
in 16 bits, and what is counted beyond them starts again at zero. So loading sources comes to loading them under names
with numbers modulo 2 ^ 16 (`foldlM_load_eq`).

Up to 2 ^ 16 unnamed sources bear their numbers, and their names are different (`load_unnamed_spec`). From the next one
on, names come back, and errors and locations cannot be told apart by them (`root_stands_where_first_does`).
-/

namespace QueryAid

/-! ### Names with numbers -/

/-- The name of an unnamed source that is called by a number. -/
def unnamedFile (k : Nat) : String := "str://" ++ toString k

/-- A number can be read off its digits, so different numbers give different names. -/
theorem unnamedFile_inj {k m : Nat} : unnamedFile k = unnamedFile m ↔ k = m := by
  have hread : ∀ n : Nat, Nat.ofDigitChars 10 (toString n).toList 0 = n := fun n => by
    rw [Nat.toString_eq_repr, Nat.toList_repr, Nat.ofDigitChars_ten_toDigits]
  unfold unnamedFile
  rw [String.append_right_inj]
  refine ⟨fun h => ?_, fun h => h ▸ rfl⟩
  rw [← hread k, h, hread]

/-- What an unnamed source is called that has a number: 16 bits of the number are kept. -/
def wrappedFile (k : Nat) : String := unnamedFile (k % UInt16.size)

/-- Different numbers below `n` give different names exactly if 16 bits suffice for them. -/
theorem wrappedFile_injOn_iff {n : Nat} :
    (∀ i < n, ∀ j < n, wrappedFile i = wrappedFile j → i = j) ↔ n ≤ UInt16.size := by
  simp only [wrappedFile, unnamedFile_inj]
  constructor
  · intro h
    by_contra hlarge
    exact absurd (h 0 (by omega) UInt16.size (Nat.lt_of_not_le hlarge) (by decide)) (by decide)
  · intro h i hi j hj hmod
    rwa [Nat.mod_eq_of_lt (Nat.lt_of_lt_of_le hi h), Nat.mod_eq_of_lt (Nat.lt_of_lt_of_le hj h)] at hmod

/-- How many sources have no name. -/
def unnamedCount (sources : List (Option String × String)) : Nat :=
  (sources.filter fun s => s.1.isNone).length

/-- **Sources with a name for each of them:** an unnamed source is called by the number of unnamed sources before it,
which are counted from `k` on. -/
def withNames (name : Nat → String) : Nat → List (Option String × String) → List (String × String)
  | _, [] => []
  | k, (some file, text) :: sources => (file, text) :: withNames name k sources
  | k, (none, text) :: sources => (name k, text) :: withNames name (k + 1) sources

/-- Two ways to call unnamed sources agree on some sources exactly if they agree on as many numbers. -/
theorem withNames_eq_iff {name name' : Nat → String} {k : Nat} {sources : List (Option String × String)} :
    withNames name k sources = withNames name' k sources ↔
      ∀ i < unnamedCount sources, name (k + i) = name' (k + i) := by
  induction sources generalizing k with
  | nil => exact iff_of_true rfl nofun
  | cons s sources ih =>
    obtain ⟨_ | file, text⟩ := s
    · have hcount : unnamedCount ((none, text) :: sources) = unnamedCount sources + 1 := rfl
      have hshift : ∀ i, k + 1 + i = k + (i + 1) := by omega
      rw [withNames, withNames, List.cons.injEq, Prod.mk.injEq, ih, hcount]
      simp only [and_true, hshift]
      constructor
      · rintro ⟨hfirst, hrest⟩ (_ | i) hi
        · exact hfirst
        · exact hrest i (Nat.lt_of_succ_lt_succ hi)
      · exact fun h => ⟨h 0 (Nat.succ_pos _), fun i hi => h (i + 1) (Nat.succ_lt_succ hi)⟩
    · have hcount : unnamedCount ((some file, text) :: sources) = unnamedCount sources := rfl
      rw [withNames, withNames, List.cons.injEq, ih, hcount, eq_self, true_and]

/-- **All unnamed sources bear their own numbers** exactly if there are at most 2 ^ 16 of them. -/
theorem withNames_wrappedFile_eq_iff {sources : List (Option String × String)} :
    withNames wrappedFile 0 sources = withNames unnamedFile 0 sources ↔ unnamedCount sources ≤ UInt16.size := by
  simp only [withNames_eq_iff, wrappedFile, unnamedFile_inj, Nat.zero_add]
  constructor
  · intro h
    by_contra hlarge
    exact absurd (h UInt16.size (Nat.lt_of_not_le hlarge)) (by decide)
  · exact fun h i hi => Nat.mod_eq_of_lt (Nat.lt_of_lt_of_le hi h)

/-! ### The counter -/

/-- Whatever commutes with the steps of a fold commutes with the fold. -/
theorem foldlM_map_comm {ε σ α : Type} {step : σ → α → Except ε σ} {f : σ → σ}
    (h : ∀ s x, step (f s) x = (step s x).map f) (xs : List α) (s : σ) :
    xs.foldlM step (f s) = (xs.foldlM step s).map f := by
  induction xs generalizing s with
  | nil => rfl
  | cons x xs ih =>
    rw [List.foldlM_cons, List.foldlM_cons, h]
    cases step s x with
    | error e => rfl
    | ok m => exact ih m

namespace SchemaBuilder

variable {b : SchemaBuilder}

/-- The builder with another count of unnamed sources. -/
def withUnnamed (n : UInt16) (b : SchemaBuilder) : SchemaBuilder := { b with unnamed := n }

theorem addDefinition_withUnnamed (n : UInt16) (file : String) (b : SchemaBuilder) (d : Sdl.Definition) :
    addDefinition file (b.withUnnamed n) d = (addDefinition file b d).map (withUnnamed n) := by
  cases d with
  | schema s =>
    simp only [addDefinition, withUnnamed]
    cases addSchemaBlock file b.roots s <;> rfl
  | type d =>
    simp only [addDefinition, withUnnamed]
    cases addType file b.types d <;> rfl
  | extension e => rfl
  | directive d =>
    simp only [addDefinition, withUnnamed]
    cases addDirective file b.directives d <;> rfl

/-- What a source adds does not depend on how many unnamed sources there were. -/
theorem loadSource_withUnnamed (n : UInt16) (b : SchemaBuilder) (file text : String) :
    (b.withUnnamed n).loadSource file text = (b.loadSource file text).map (withUnnamed n) := by
  unfold loadSource
  cases Sdl.parse text.toList with
  | error place => rfl
  | ok definitions => exact foldlM_map_comm (addDefinition_withUnnamed n file) definitions b

/-- An unnamed source is loaded under its number, and counted. -/
theorem load_none_withUnnamed (k : Nat) (b : SchemaBuilder) (text : String) :
    (b.withUnnamed (.ofNat k)).load none text =
      (b.load (some (wrappedFile k)) text).map (withUnnamed (.ofNat (k + 1))) := by
  have hfile : "str://" ++ toString (UInt16.ofNat k) = wrappedFile k := by
    rw [wrappedFile, unnamedFile, ← UInt16.toNat_ofNat']
    rfl
  rw [UInt16.ofNat_add, ← hfile]
  exact loadSource_withUnnamed (.ofNat k + 1) b _ text

/-- **Loading sources is loading them under names with numbers modulo 2 ^ 16.** -/
theorem foldlM_load_eq (sources : List (Option String × String)) (k : Nat) (b : SchemaBuilder) :
    sources.foldlM (fun b s => b.load s.1 s.2) (b.withUnnamed (.ofNat k)) =
      ((withNames wrappedFile k sources).foldlM (fun (b : SchemaBuilder) t => b.load (some t.1) t.2) b).map
        (withUnnamed (.ofNat (k + unnamedCount sources))) := by
  induction sources generalizing k b with
  | nil => rfl
  | cons s sources ih =>
    obtain ⟨_ | file, text⟩ := s
    · have hcount : k + unnamedCount ((none, text) :: sources) = k + 1 + unnamedCount sources := by
        rw [Nat.add_assoc, Nat.add_comm 1]
        rfl
      rw [List.foldlM_cons, withNames, List.foldlM_cons, load_none_withUnnamed, hcount]
      cases b.load (some (wrappedFile k)) text with
      | error e => rfl
      | ok m => exact ih (k + 1) m
    · have hnext : (b.withUnnamed (.ofNat k)).load (some file) text =
          (b.load (some file) text).map (withUnnamed (.ofNat k)) := loadSource_withUnnamed (.ofNat k) b file text
      rw [List.foldlM_cons, withNames, List.foldlM_cons, hnext]
      cases b.load (some file) text with
      | error e => rfl
      | ok m => exact ih k m

/-- **What unnamed sources are called.** Loading sources is loading them under names, where an unnamed one is called by 16
bits of its number, and counting the unnamed ones in 16 bits. All of these bear their own numbers exactly if there are at
most 2 ^ 16 of them, and only then are their names different. The count is right exactly if there are fewer. -/
theorem load_unnamed_spec (sources : List (Option String × String)) :
    sources.foldlM (fun b s => b.load s.1 s.2) new =
        ((withNames wrappedFile 0 sources).foldlM (fun (b : SchemaBuilder) t => b.load (some t.1) t.2) new).map
          (withUnnamed (.ofNat (unnamedCount sources))) ∧
      (withNames wrappedFile 0 sources = withNames unnamedFile 0 sources ↔ unnamedCount sources ≤ UInt16.size) ∧
      ((∀ i < unnamedCount sources, ∀ j < unnamedCount sources, wrappedFile i = wrappedFile j → i = j) ↔
        unnamedCount sources ≤ UInt16.size) ∧
      ((UInt16.ofNat (unnamedCount sources)).toNat = unnamedCount sources ↔ unnamedCount sources < UInt16.size) := by
  refine ⟨?_, withNames_wrappedFile_eq_iff, wrappedFile_injOn_iff, ?_⟩
  · have hload := foldlM_load_eq sources 0 new
    rwa [Nat.zero_add] at hload
  · rw [UInt16.toNat_ofNat']
    exact ⟨fun h => h ▸ Nat.mod_lt _ (by decide), Nat.mod_eq_of_lt⟩

/-- Unnamed sources that add nothing are counted. -/
theorem foldlM_load_replicate {text : String} (h : ∀ file, b.load (some file) text = .ok b) (n k : Nat) :
    (List.replicate n (none, text)).foldlM (fun b s => b.load s.1 s.2) (b.withUnnamed (.ofNat k)) =
      .ok (b.withUnnamed (.ofNat (k + n))) := by
  induction n generalizing k with
  | zero => rfl
  | succ n ih =>
    rw [List.replicate_succ, List.foldlM_cons, load_none_withUnnamed, h, Nat.add_comm n, ← Nat.add_assoc]
    exact ih (k + 1)

/-- Whether definitions are nothing but one block. -/
def isBlock (block : Sdl.SchemaBlock) : List Sdl.Definition → Bool
  | [.schema b] => b == block
  | _ => false

theorem parse_eq_of_isBlock {text : List Char} {block : Sdl.SchemaBlock}
    (h : (Sdl.parse text).toOption.any (isBlock block) = true) : Sdl.parse text = .ok [.schema block] := by
  obtain ⟨ds, hds, htest⟩ := exists_eq_ok_of_any h
  unfold isBlock at htest
  split at htest
  · rw [hds, eq_of_beq htest]
  · cases htest

/-- The second of two blocks that name the root of queries is refused, with the names of both sources. -/
theorem foldlM_load_second_root (n : Nat) :
    ((none, "schema{query:A}") :: List.replicate n (none, "schema{}") ++ [(none, "schema{query:A}")]).foldlM
        (fun (b : SchemaBuilder) (s : Option String × String) => b.load s.1 s.2) new =
      .error (.duplicateRoot .query ⟨"A", .file (wrappedFile 0) ⟨1, 1⟩⟩ ⟨"A", .file (wrappedFile (1 + n)) ⟨1, 1⟩⟩) := by
  have hroot : Sdl.parse "schema{query:A}".toList = .ok [.schema ⟨⟨1, 1⟩, some "A", none, none⟩] :=
    parse_eq_of_isBlock (by decide +kernel)
  have hempty : Sdl.parse "schema{}".toList = .ok [.schema ⟨⟨1, 1⟩, none, none, none⟩] :=
    parse_eq_of_isBlock (by decide +kernel)
  let b : SchemaBuilder := { new with roots := ⟨some ⟨"A", .file (wrappedFile 0) ⟨1, 1⟩⟩, none, none⟩ }
  have hfirst : new.load (some (wrappedFile 0)) "schema{query:A}" = .ok b := by
    rw [load, loadSource, hroot]
    rfl
  have hbetween : ∀ file, b.load (some file) "schema{}" = .ok b := by
    intro file
    rw [load, loadSource, hempty]
    rfl
  have hlast : ∀ file, b.load (some file) "schema{query:A}" =
      .error (.duplicateRoot .query ⟨"A", .file (wrappedFile 0) ⟨1, 1⟩⟩ ⟨"A", .file file ⟨1, 1⟩⟩) := by
    intro file
    rw [load, loadSource, hroot]
    rfl
  have hnew : new = new.withUnnamed (.ofNat 0) := rfl
  rw [List.foldlM_append, List.foldlM_cons, hnew, load_none_withUnnamed, hfirst]
  change (List.foldlM _ (b.withUnnamed (.ofNat 1)) _ >>= _) = _
  rw [foldlM_load_replicate hbetween n 1]
  change List.foldlM _ (b.withUnnamed _) _ = _
  rw [List.foldlM_cons, load_none_withUnnamed, hlast]
  rfl

/-- **Two unnamed sources can bear one name.** After 2 ^ 16 unnamed sources the next one is called as the first of them
was. If both of them name the root of queries, the second block is refused as standing where the first one stands. -/
theorem root_stands_where_first_does : ∃ before : List (Option String × String),
    before = (none, "schema{query:A}") :: List.replicate (UInt16.size - 1) (none, "schema{}") ∧
      unnamedCount before = UInt16.size ∧
      (before ++ [(none, "schema{query:A}")]).foldlM
        (fun (b : SchemaBuilder) (s : Option String × String) => b.load s.1 s.2) new =
        .error (.duplicateRoot .query ⟨"A", .file (unnamedFile 0) ⟨1, 1⟩⟩ ⟨"A", .file (unnamedFile 0) ⟨1, 1⟩⟩) ∧
      unnamedFile 0 ≠ unnamedFile UInt16.size := by
  have hfirst : wrappedFile 0 = unnamedFile 0 := congrArg unnamedFile (by decide)
  have hlast : wrappedFile (1 + (UInt16.size - 1)) = unnamedFile 0 := congrArg unnamedFile (by decide)
  have hcount (n : Nat) : unnamedCount ((none, "schema{query:A}") :: List.replicate n (none, "schema{}")) = n + 1 := by
    rw [unnamedCount, List.filter_cons_of_pos rfl, List.filter_replicate_of_pos rfl, List.length_cons,
      List.length_replicate]
  refine ⟨_, rfl, ?_, ?_, ?_⟩
  · exact (hcount _).trans (Nat.sub_add_cancel (by decide))
  · rw [foldlM_load_second_root, hfirst, hlast]
  · rw [ne_eq, unnamedFile_inj]
    decide

end SchemaBuilder

end QueryAid
