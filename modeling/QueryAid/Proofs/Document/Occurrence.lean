import QueryAid.Document.Usage
import Mathlib.Data.List.Nodup
/-!
# Where variables are referred to

A reference to a variable stands at a place: the path that leads to it from the value, selection set or other part
of a document. `RefersAt` says which reference stands where, without saying in which order they are looked at. The
lists of references of each part enumerate this relation, which is to say that they list what stands at each place
once, and nothing else (`Enumerates`).
-/

namespace QueryAid

/-! ### Enumerations -/

section Enumerates

variable {ι κ α β : Type}

/-- **A list enumerates what is found at places:** there is one place to each of its elements, and no other. -/
def Enumerates (l : List α) (found : ι → α → Prop) : Prop :=
  ∃ finds : List (ι × α), (finds.map Prod.fst).Nodup ∧ (∀ p a, (p, a) ∈ finds ↔ found p a) ∧
    finds.map Prod.snd = l

variable {l l' : List α} {found found' : ι → α → Prop}

theorem Enumerates.congr (h : Enumerates l found) (hiff : ∀ p a, found p a ↔ found' p a) :
    Enumerates l found' := by
  obtain ⟨finds, hnodup, hmem, hmap⟩ := h
  exact ⟨finds, hnodup, fun p a => (hmem p a).trans (hiff p a), hmap⟩

theorem enumerates_nil (h : ∀ p a, ¬ found p a) : Enumerates [] found :=
  ⟨[], List.nodup_nil, fun p a => iff_of_false List.not_mem_nil (h p a), rfl⟩

theorem enumerates_singleton {place : ι} {a : α} : Enumerates [a] fun p b => p = place ∧ b = a := by
  refine ⟨[(place, a)], List.nodup_singleton _, fun p b => ?_, rfl⟩
  rw [List.mem_singleton, Prod.mk.injEq]

/-- What is found at other places is enumerated behind. -/
theorem Enumerates.append (h : Enumerates l found) (h' : Enumerates l' found')
    (hapart : ∀ p a b, found p a → ¬ found' p b) :
    Enumerates (l ++ l') fun p a => found p a ∨ found' p a := by
  obtain ⟨finds, hnodup, hmem, rfl⟩ := h
  obtain ⟨finds', hnodup', hmem', rfl⟩ := h'
  refine ⟨finds ++ finds', ?_, fun p a => ?_, List.map_append⟩
  · rw [List.map_append, List.nodup_append]
    refine ⟨hnodup, hnodup', ?_⟩
    intro p hp p' hp' heq
    obtain ⟨⟨p, a⟩, ha, rfl⟩ := List.mem_map.1 hp
    obtain ⟨⟨p', b⟩, hb, rfl⟩ := List.mem_map.1 hp'
    obtain rfl : p = p' := heq
    exact hapart p a b ((hmem p a).1 ha) ((hmem' p b).1 hb)
  · rw [List.mem_append, hmem, hmem']

/-- Places can be given other names. -/
theorem Enumerates.rename (h : Enumerates l found) (name : ι → κ) (hname : Function.Injective name) :
    Enumerates l fun q a => ∃ p, q = name p ∧ found p a := by
  obtain ⟨finds, hnodup, hmem, rfl⟩ := h
  refine ⟨finds.map fun u => (name u.1, u.2), ?_, fun q a => ?_, ?_⟩
  · have hfst : (finds.map fun u => (name u.1, u.2)).map Prod.fst = (finds.map Prod.fst).map name := by
      rw [List.map_map, List.map_map]
      rfl
    rw [hfst]
    exact hnodup.map hname
  · simp only [List.mem_map, Prod.exists, Prod.mk.injEq, hmem]
    constructor
    · rintro ⟨p, b, hfound, rfl, rfl⟩
      exact ⟨p, rfl, hfound⟩
    · rintro ⟨p, rfl, hfound⟩
      exact ⟨p, a, hfound, rfl, rfl⟩
  · rw [List.map_map]
    rfl

/-- What has a property is enumerated in the same order. -/
theorem Enumerates.filter (h : Enumerates l found) (keep : α → Bool) :
    Enumerates (l.filter keep) fun p a => found p a ∧ keep a = true := by
  obtain ⟨finds, hnodup, hmem, rfl⟩ := h
  refine ⟨finds.filter fun u => keep u.2, ?_, fun p a => ?_, ?_⟩
  · exact hnodup.sublist (List.filter_sublist.map Prod.fst)
  · rw [List.mem_filter, hmem]
  · rw [List.filter_map]
    rfl

/-- An element is enumerated exactly if it is found somewhere. -/
theorem Enumerates.mem_iff (h : Enumerates l found) {a : α} : a ∈ l ↔ ∃ p, found p a := by
  obtain ⟨finds, -, hmem, rfl⟩ := h
  simp only [List.mem_map, Prod.exists, exists_eq_right, hmem]

/-- Enumerations of things that are found apart from each other can be put one behind the other. -/
theorem Enumerates.flatMap {xs : List β} {f : β → List α} {found : β → ι → α → Prop}
    (h : ∀ x ∈ xs, Enumerates (f x) (found x))
    (hapart : xs.Pairwise fun x y => ∀ p a b, found x p a → ¬ found y p b) :
    Enumerates (xs.flatMap f) fun p a => ∃ x ∈ xs, found x p a := by
  induction xs with
  | nil => exact enumerates_nil fun p a => by simp
  | cons x xs ih =>
    rw [List.forall_mem_cons] at h
    rw [List.pairwise_cons] at hapart
    obtain ⟨hx, hxs⟩ := h
    refine (hx.append (ih hxs hapart.2) ?_).congr fun p a => ?_
    · rintro p a b ha ⟨y, hy, hb⟩
      exact hapart.1 y hy p a b ha hb
    · rw [List.exists_mem_cons_iff]

/-- What is found below an index is found at places that start with it. -/
theorem Enumerates.below {found : List Nat → α → Prop} (h : Enumerates l found) (i : Nat) :
    Enumerates l fun p a => ∃ q, p = i :: q ∧ found q a :=
  h.rename (i :: ·) fun _ _ => List.tail_eq_of_cons_eq

/-- Places that start with different indices are apart. -/
theorem apart_of_ne {found found' : List Nat → α → Prop} {i j : Nat} (h : i ≠ j) (p : List Nat) (a b : α)
    (ha : ∃ q, p = i :: q ∧ found q a) : ¬ ∃ q, p = j :: q ∧ found' q b := by
  rintro ⟨q', rfl, -⟩
  obtain ⟨q, hq, -⟩ := ha
  exact h (List.head_eq_of_cons_eq hq).symm

/-- **What is found in the elements of a list is found at places that start with their index.** -/
theorem Enumerates.indexed {xs : List β} {f : β → List α} {found : β → List Nat → α → Prop}
    (h : ∀ x ∈ xs, Enumerates (f x) (found x)) :
    Enumerates (xs.flatMap f) fun p a => ∃ i x q, p = i :: q ∧ xs[i]? = some x ∧ found x q a := by
  -- The elements with their indices, which are distinct.
  have hflatMap : xs.flatMap f = xs.zipIdx.flatMap fun y => f y.1 := by
    conv_lhs => rw [← List.zipIdx_map_fst 0 xs, List.flatMap_map]
  have hindices : xs.zipIdx.Pairwise fun y z => y.2 ≠ z.2 := by
    rw [← List.pairwise_map, List.zipIdx_map_snd]
    exact List.nodup_range'
  have hfound : ∀ y ∈ xs.zipIdx, Enumerates (f y.1) fun p a => ∃ q, p = y.2 :: q ∧ found y.1 q a := by
    intro y hy
    have hmem : y.1 ∈ xs := by
      rw [← List.zipIdx_map_fst 0 xs]
      exact List.mem_map_of_mem hy
    exact (h y.1 hmem).below y.2
  rw [hflatMap]
  refine (Enumerates.flatMap hfound (hindices.imp ?_)).congr fun p a => ?_
  · exact fun hne => apart_of_ne hne
  · constructor
    · rintro ⟨⟨x, i⟩, hmem, q, rfl, hfound⟩
      exact ⟨i, x, q, rfl, List.mem_zipIdx_iff_getElem?.1 hmem, hfound⟩
    · rintro ⟨i, x, q, rfl, hget, hfound⟩
      exact ⟨(x, i), List.mem_zipIdx_iff_getElem?.2 hget, q, rfl, hfound⟩

end Enumerates

/-! ### Values -/

/-- **A value refers to a variable at a place:** where the value itself is, or in an item or field of it. -/
inductive Value.RefersAt : Value → List Nat → VariableReference → Prop where
  | var {name : Name} {span : Span} : (Value.var name span).RefersAt [] ⟨name, span⟩
  | item {items : List Value} {span : Span} {i : Nat} {v : Value} {p : List Nat} {r : VariableReference}
      (h : items[i]? = some v) (hv : v.RefersAt p r) : (Value.list items span).RefersAt (i :: p) r
  | field {fields : List ObjectField} {span : Span} {i : Nat} {name : Name} {v : Value} {fieldSpan : Span}
      {p : List Nat} {r : VariableReference} (h : fields[i]? = some (.mk name v fieldSpan))
      (hv : v.RefersAt p r) : (Value.object fields span).RefersAt (i :: p) r

/-- The value of a field of an object value. -/
def ObjectField.value : ObjectField → Value
  | mk _ v _ => v

theorem Value.referencesOfList_eq (items : List Value) :
    referencesOfList items = items.flatMap Value.references := by
  induction items with
  | nil => rfl
  | cons v vs ih => rw [referencesOfList, ih, List.flatMap_cons]

theorem Value.referencesOfFields_eq (fields : List ObjectField) :
    referencesOfFields fields = fields.flatMap fun f => f.value.references := by
  induction fields with
  | nil => rfl
  | cons f fs ih =>
    obtain ⟨name, v, span⟩ := f
    rw [referencesOfFields, ih, List.flatMap_cons]
    rfl

mutual

/-- **The references of a value are those that stand in it, once for each place.** -/
theorem Value.enumerates_references : ∀ v : Value, Enumerates v.references v.RefersAt
  | .var name span => enumerates_singleton.congr fun p r => by
    constructor
    · rintro ⟨rfl, rfl⟩
      exact .var
    · intro h
      cases h with
      | var => exact ⟨rfl, rfl⟩
  | .list items span => by
    rw [Value.references, Value.referencesOfList_eq]
    refine (Enumerates.indexed (Value.enumerates_references_items items)).congr fun p r => ?_
    constructor
    · rintro ⟨i, v, q, rfl, hget, hv⟩
      exact .item hget hv
    · intro h
      cases h with
      | item hget hv => exact ⟨_, _, _, rfl, hget, hv⟩
  | .object fields span => by
    rw [Value.references, Value.referencesOfFields_eq]
    refine (Enumerates.indexed (Value.enumerates_references_fields fields)).congr fun p r => ?_
    constructor
    · rintro ⟨i, ⟨name, v, fieldSpan⟩, q, rfl, hget, hv⟩
      exact .field hget hv
    · intro h
      cases h with
      | field hget hv => exact ⟨_, _, _, rfl, hget, hv⟩
  | .boolean .. => enumerates_nil nofun
  | .enum .. => enumerates_nil nofun
  | .float .. => enumerates_nil nofun
  | .int .. => enumerates_nil nofun
  | .null .. => enumerates_nil nofun
  | .string .. => enumerates_nil nofun

private theorem Value.enumerates_references_items :
    ∀ items : List Value, ∀ v ∈ items, Enumerates v.references v.RefersAt
  | [] => nofun
  | v :: vs => List.forall_mem_cons.2 ⟨Value.enumerates_references v, Value.enumerates_references_items vs⟩

private theorem Value.enumerates_references_fields :
    ∀ fields : List ObjectField, ∀ f ∈ fields, Enumerates f.value.references f.value.RefersAt
  | [] => nofun
  | .mk _ v _ :: fs =>
    List.forall_mem_cons.2 ⟨Value.enumerates_references v, Value.enumerates_references_fields fs⟩

end

/-! ### Arguments and directives -/

/-- Arguments refer to a variable at a place: the index of the argument, and the place in its value. -/
def Argument.RefersAt (as : List Argument) (p : List Nat) (r : VariableReference) : Prop :=
  ∃ i a q, p = i :: q ∧ as[i]? = some a ∧ a.value.RefersAt q r

/-- Directives refer to a variable at a place: the index of the directive, and the place in its arguments. -/
def DirectiveUse.RefersAt (ds : List DirectiveUse) (p : List Nat) (r : VariableReference) : Prop :=
  ∃ i d q, p = i :: q ∧ ds[i]? = some d ∧ Argument.RefersAt d.arguments q r

theorem Argument.enumerates_references (as : List Argument) :
    Enumerates (Argument.references as) (Argument.RefersAt as) :=
  Enumerates.indexed fun a _ => a.value.enumerates_references

theorem DirectiveUse.enumerates_references (ds : List DirectiveUse) :
    Enumerates (DirectiveUse.references ds) (DirectiveUse.RefersAt ds) :=
  Enumerates.indexed fun d _ => Argument.enumerates_references d.arguments

/-! ### Selections -/

/-- The directives of a selection. -/
def Selection.directives : Selection → List DirectiveUse
  | field h _ => h.directives
  | spread f => f.directives
  | inline h _ => h.directives

mutual

/-- **A selection refers to a variable at a place:** in its arguments (0), in its directives (1), or in the
selections below it (2). -/
inductive Selection.RefersAt : Selection → List Nat → VariableReference → Prop where
  | argument {head : FieldHead} {inner : Option SelectionSet} {p : List Nat} {r : VariableReference}
      (h : Argument.RefersAt head.arguments p r) : (Selection.field head inner).RefersAt (0 :: p) r
  | directive {x : Selection} {p : List Nat} {r : VariableReference}
      (h : DirectiveUse.RefersAt x.directives p r) : x.RefersAt (1 :: p) r
  | field {head : FieldHead} {inner : SelectionSet} {p : List Nat} {r : VariableReference}
      (h : inner.RefersAt p r) : (Selection.field head (some inner)).RefersAt (2 :: p) r
  | inline {head : InlineHead} {inner : SelectionSet} {p : List Nat} {r : VariableReference}
      (h : inner.RefersAt p r) : (Selection.inline head inner).RefersAt (2 :: p) r

/-- A selection set refers to a variable at a place: the index of the selection, and the place in it. -/
inductive SelectionSet.RefersAt : SelectionSet → List Nat → VariableReference → Prop where
  | selection {set : SelectionSet} {i : Nat} {x : Selection} {p : List Nat} {r : VariableReference}
      (h : set.selections[i]? = some x) (hx : x.RefersAt p r) : set.RefersAt (i :: p) r

end

theorem Selection.referencesOfList_eq (xs : List Selection) : referencesOfList xs = xs.flatMap references := by
  induction xs with
  | nil => rfl
  | cons x xs ih => rw [referencesOfList, ih, List.flatMap_cons]

mutual

/-- **The references of a selection are those that stand in it, once for each place.** -/
theorem Selection.enumerates_references : ∀ x : Selection, Enumerates x.references x.RefersAt
  | .field head none => by
    have harguments := (Argument.enumerates_references head.arguments).below 0
    have hdirectives := (DirectiveUse.enumerates_references head.directives).below 1
    rw [Selection.references]
    refine (harguments.append hdirectives (apart_of_ne (by decide))).congr fun p r => ?_
    constructor
    · rintro (⟨q, rfl, h⟩ | ⟨q, rfl, h⟩)
      · exact .argument h
      · exact .directive h
    · intro h
      cases h with
      | argument h => exact .inl ⟨_, rfl, h⟩
      | directive h => exact .inr ⟨_, rfl, h⟩
  | .field head (some inner) => by
    have harguments := (Argument.enumerates_references head.arguments).below 0
    have hdirectives := (DirectiveUse.enumerates_references head.directives).below 1
    have hinner := (SelectionSet.enumerates_references inner).below 2
    rw [Selection.references]
    refine ((harguments.append hdirectives (apart_of_ne (by decide))).append hinner ?_).congr fun p r => ?_
    · rintro p a b (ha | ha)
      · exact apart_of_ne (by decide) p a b ha
      · exact apart_of_ne (by decide) p a b ha
    · constructor
      · rintro ((⟨q, rfl, h⟩ | ⟨q, rfl, h⟩) | ⟨q, rfl, h⟩)
        · exact .argument h
        · exact .directive h
        · exact .field h
      · intro h
        cases h with
        | argument h => exact .inl (.inl ⟨_, rfl, h⟩)
        | directive h => exact .inl (.inr ⟨_, rfl, h⟩)
        | field h => exact .inr ⟨_, rfl, h⟩
  | .spread f => by
    have hdirectives := (DirectiveUse.enumerates_references f.directives).below 1
    rw [Selection.references]
    refine hdirectives.congr fun p r => ?_
    constructor
    · rintro ⟨q, rfl, h⟩
      exact .directive h
    · intro h
      cases h with
      | directive h => exact ⟨_, rfl, h⟩
  | .inline head inner => by
    have hdirectives := (DirectiveUse.enumerates_references head.directives).below 1
    have hinner := (SelectionSet.enumerates_references inner).below 2
    rw [Selection.references]
    refine (hdirectives.append hinner (apart_of_ne (by decide))).congr fun p r => ?_
    constructor
    · rintro (⟨q, rfl, h⟩ | ⟨q, rfl, h⟩)
      · exact .directive h
      · exact .inline h
    · intro h
      cases h with
      | directive h => exact .inl ⟨_, rfl, h⟩
      | inline h => exact .inr ⟨_, rfl, h⟩

/-- **The references of a selection set are those that stand in it, once for each place.** -/
theorem SelectionSet.enumerates_references : ∀ set : SelectionSet, Enumerates set.references set.RefersAt
  | .mk xs span => by
    rw [SelectionSet.references, Selection.referencesOfList_eq]
    refine (Enumerates.indexed (Selection.enumerates_references_list xs)).congr fun p r => ?_
    constructor
    · rintro ⟨i, x, q, rfl, hget, hx⟩
      exact .selection hget hx
    · intro h
      cases h with
      | selection hget hx => exact ⟨_, _, _, rfl, hget, hx⟩

private theorem Selection.enumerates_references_list :
    ∀ xs : List Selection, ∀ x ∈ xs, Enumerates x.references x.RefersAt
  | [] => nofun
  | x :: xs =>
    List.forall_mem_cons.2 ⟨Selection.enumerates_references x, Selection.enumerates_references_list xs⟩

end

end QueryAid
