import QueryAid.Document.Parser
import QueryAid.Document.Usage
import Mathlib.Order.Monotone.Basic
/-!
# Documents that are moved to another place

What a document means does not depend on where its parts stand. A `Placement` says where the numbers stand that are
written in spans, and keeps their order; every construct can be placed, which changes its spans and nothing else. The
variables, the spreads and the fragments that are reached from a construct are found in the same order wherever it is
placed (`Document.usages_place`).
-/

namespace QueryAid

/-- **Where numbers stand:** in one order as the first of something, and in one order as the last. -/
structure Placement where
  /-- Where what starts at a number starts. -/
  start : Nat → Nat
  /-- Where what stops at a number stops. -/
  stop : Nat → Nat
  strictMono_start : StrictMono start
  strictMono_stop : StrictMono stop

namespace Placement

variable {σ : Placement}

/-- Where a range stands. -/
def span (σ : Placement) (s : Span) : Span := ⟨σ.start s.start, σ.stop s.stop⟩

theorem span_injective : Function.Injective σ.span := by
  rintro ⟨i, j⟩ ⟨i', j'⟩ h
  obtain ⟨hstart, hstop⟩ := Span.mk.inj h
  obtain rfl : i = i' := σ.strictMono_start.injective hstart
  obtain rfl : j = j' := σ.strictMono_stop.injective hstop
  rfl

end Placement

/-! ### Constructs -/

/-- A name at its place. -/
def Name.place (σ : Placement) (n : Name) : Name := ⟨n.value, σ.span n.span⟩

mutual

/-- A value at its place. -/
def Value.place (σ : Placement) : Value → Value
  | .boolean b s => .boolean b (σ.span s)
  | .enum text s => .enum text (σ.span s)
  | .float text s => .float text (σ.span s)
  | .int text s => .int text (σ.span s)
  | .list items s => .list (Value.placeList σ items) (σ.span s)
  | .null s => .null (σ.span s)
  | .object fields s => .object (Value.placeFields σ fields) (σ.span s)
  | .string text s => .string text (σ.span s)
  | .var n s => .var (n.place σ) (σ.span s)

/-- The items of a list at their places. -/
def Value.placeList (σ : Placement) : List Value → List Value
  | [] => []
  | v :: vs => v.place σ :: Value.placeList σ vs

/-- The fields of an object at their places. -/
def Value.placeFields (σ : Placement) : List ObjectField → List ObjectField
  | [] => []
  | .mk n v s :: fs => .mk (n.place σ) (v.place σ) (σ.span s) :: Value.placeFields σ fs

end

/-- A field of an object at its place. -/
def ObjectField.place (σ : Placement) : ObjectField → ObjectField
  | .mk n v s => .mk (n.place σ) (v.place σ) (σ.span s)

/-- A type at its place. -/
def TypeRef.place (σ : Placement) : TypeRef → TypeRef
  | named n => named (n.place σ)
  | list inner s => list (inner.place σ) (σ.span s)
  | nonNull inner s => nonNull (inner.place σ) (σ.span s)

/-- An argument at its place. -/
def Argument.place (σ : Placement) (a : Argument) : Argument := ⟨a.name.place σ, a.value.place σ, σ.span a.span⟩

/-- A directive at its place. -/
def DirectiveUse.place (σ : Placement) (u : DirectiveUse) : DirectiveUse :=
  ⟨u.name.place σ, u.arguments.map (Argument.place σ), σ.span u.span⟩

/-- A field at its place, its sub selection left out. -/
def FieldHead.place (σ : Placement) (h : FieldHead) : FieldHead where
  responseName := h.responseName.map (Name.place σ)
  name := h.name.place σ
  arguments := h.arguments.map (Argument.place σ)
  directives := h.directives.map (DirectiveUse.place σ)
  span := σ.span h.span

/-- A fragment spread at its place. -/
def FragmentSpread.place (σ : Placement) (f : FragmentSpread) : FragmentSpread :=
  ⟨f.name.place σ, f.directives.map (DirectiveUse.place σ), σ.span f.span⟩

/-- An inline fragment at its place, its selections left out. -/
def InlineHead.place (σ : Placement) (h : InlineHead) : InlineHead :=
  ⟨h.typeCondition.map (Name.place σ), h.directives.map (DirectiveUse.place σ), σ.span h.span⟩

mutual

/-- A selection at its place. -/
def Selection.place (σ : Placement) : Selection → Selection
  | .field h none => .field (h.place σ) none
  | .field h (some set) => .field (h.place σ) (some (set.place σ))
  | .spread f => .spread (f.place σ)
  | .inline h set => .inline (h.place σ) (set.place σ)

/-- A selection set at its place. -/
def SelectionSet.place (σ : Placement) : SelectionSet → SelectionSet
  | .mk selections s => .mk (Selection.placeList σ selections) (σ.span s)

/-- Selections at their places. -/
def Selection.placeList (σ : Placement) : List Selection → List Selection
  | [] => []
  | x :: xs => x.place σ :: Selection.placeList σ xs

end

/-- A variable definition at its place. -/
def VariableDefinition.place (σ : Placement) (v : VariableDefinition) : VariableDefinition where
  name := v.name.place σ
  variableSpan := σ.span v.variableSpan
  type := v.type.place σ
  default := v.default.map (Value.place σ)
  directives := v.directives.map (DirectiveUse.place σ)
  span := σ.span v.span

/-- An operation at its place. -/
def Operation.place (σ : Placement) (o : Operation) : Operation where
  kind := o.kind
  name := o.name.map (Name.place σ)
  variableDefinitions := o.variableDefinitions.map (VariableDefinition.place σ)
  directives := o.directives.map (DirectiveUse.place σ)
  selectionSet := o.selectionSet.place σ
  span := σ.span o.span

/-- A fragment definition at its place. -/
def Fragment.place (σ : Placement) (f : Fragment) : Fragment where
  name := f.name.place σ
  typeCondition := f.typeCondition.place σ
  directives := f.directives.map (DirectiveUse.place σ)
  selectionSet := f.selectionSet.place σ
  span := σ.span f.span

/-- A definition at its place. -/
def Definition.place (σ : Placement) : Definition → Definition
  | operation o => operation (o.place σ)
  | fragment f => fragment (f.place σ)

/-- A definition that cannot be executed at its place. -/
def NonExecutable.place (σ : Placement) (x : NonExecutable) : NonExecutable :=
  ⟨x.name.map (Name.place σ), σ.span x.span⟩

/-- What a source holds at its place. -/
def DocumentItem.place (σ : Placement) : DocumentItem → DocumentItem
  | executable x => executable (x.place σ)
  | typeSystem x => typeSystem (x.place σ)

/-- **A document at its place.** -/
def Document.place (σ : Placement) (d : Document) : Document :=
  ⟨d.definitions.map (Definition.place σ), d.nonExecutable.map (NonExecutable.place σ)⟩

section Place

variable (σ : Placement)

theorem Name.value_place (n : Name) : (n.place σ).value = n.value := rfl

theorem Name.map_value_place (n : Option Name) : (n.map (Name.place σ)).map Name.value = n.map Name.value := by
  rw [Option.map_map]
  rfl

theorem DirectiveUse.name_place (u : DirectiveUse) : (u.place σ).name = u.name.place σ := rfl

theorem FieldHead.name_place (h : FieldHead) : (h.place σ).name = h.name.place σ := rfl

theorem FragmentSpread.name_place (f : FragmentSpread) : (f.place σ).name = f.name.place σ := rfl

theorem VariableDefinition.type_place (v : VariableDefinition) : (v.place σ).type = v.type.place σ := rfl

theorem Value.placeList_eq_map (vs : List Value) : Value.placeList σ vs = vs.map (Value.place σ) := by
  induction vs with
  | nil => rfl
  | cons v vs ih => rw [Value.placeList, ih, List.map_cons]

theorem Value.placeFields_eq_map (fs : List ObjectField) : Value.placeFields σ fs = fs.map (ObjectField.place σ) := by
  induction fs with
  | nil => rfl
  | cons f fs ih =>
    obtain ⟨n, v, s⟩ := f
    rw [Value.placeFields, ih, List.map_cons, ObjectField.place]

theorem Selection.placeList_eq_map (xs : List Selection) : Selection.placeList σ xs = xs.map (Selection.place σ) := by
  induction xs with
  | nil => rfl
  | cons x xs ih => rw [Selection.placeList, ih, List.map_cons]

/-- The document that placed items form. -/
theorem Document.ofItems_place (items : List DocumentItem) :
    Document.ofItems (items.map (DocumentItem.place σ)) = (Document.ofItems items).place σ := by
  simp only [Document.ofItems, Document.place, List.filterMap_map, List.map_filterMap]
  congr 2 <;> funext x <;> cases x <;> rfl

theorem TypeRef.span_place (t : TypeRef) : (t.place σ).span = σ.span t.span := by
  cases t <;> rfl

theorem TypeRef.innermostName_place (t : TypeRef) : (t.place σ).innermostName = t.innermostName.place σ := by
  induction t with
  | named n => rfl
  | list inner s ih => exact ih
  | nonNull inner s ih => exact ih

theorem TypeRef.text_place (t : TypeRef) : (t.place σ).text = t.text := by
  induction t with
  | named n => rfl
  | list inner s ih => rw [TypeRef.place, TypeRef.text, ih, TypeRef.text]
  | nonNull inner s ih => rw [TypeRef.place, TypeRef.text, ih, TypeRef.text]

end Place

/-! ### Variables -/

/-- What is collected from parts at their places is what is collected from the parts, at its place. -/
theorem flatMap_place {α β : Type} {f : α → α} {g : β → β} {p q : α → List β} (h : ∀ a, q (f a) = (p a).map g)
    (l : List α) : (l.map f).flatMap q = (l.flatMap p).map g := by
  rw [List.flatMap_map, List.map_flatMap]
  exact congrArg (List.flatMap · l) (funext h)

/-- A reference to a variable at its place. -/
def VariableReference.place (σ : Placement) (r : VariableReference) : VariableReference :=
  ⟨r.name.place σ, σ.span r.span⟩

section References

variable (σ : Placement)

mutual

theorem Value.references_place : ∀ v : Value, (v.place σ).references = v.references.map (VariableReference.place σ)
  | .boolean .. | .enum .. | .float .. | .int .. | .null .. | .string .. => rfl
  | .var .. => rfl
  | .list items _ => Value.referencesOfList_place items
  | .object fields _ => Value.referencesOfFields_place fields

theorem Value.referencesOfList_place : ∀ vs : List Value,
    Value.referencesOfList (Value.placeList σ vs) = (Value.referencesOfList vs).map (VariableReference.place σ)
  | [] => rfl
  | v :: vs => by
    rw [Value.placeList, Value.referencesOfList, Value.references_place v, Value.referencesOfList_place vs,
      ← List.map_append, Value.referencesOfList]

theorem Value.referencesOfFields_place : ∀ fs : List ObjectField,
    Value.referencesOfFields (Value.placeFields σ fs) = (Value.referencesOfFields fs).map (VariableReference.place σ)
  | [] => rfl
  | .mk n v s :: fs => by
    rw [Value.placeFields, Value.referencesOfFields, Value.references_place v, Value.referencesOfFields_place fs,
      ← List.map_append, Value.referencesOfFields]

end

theorem Argument.references_place (as : List Argument) :
    Argument.references (as.map (Argument.place σ)) = (Argument.references as).map (VariableReference.place σ) :=
  flatMap_place (fun a : Argument => a.value.references_place σ) as

theorem DirectiveUse.references_place (us : List DirectiveUse) :
    DirectiveUse.references (us.map (DirectiveUse.place σ)) =
      (DirectiveUse.references us).map (VariableReference.place σ) :=
  flatMap_place (fun u : DirectiveUse => Argument.references_place σ u.arguments) us

mutual

theorem Selection.references_place : ∀ x : Selection,
    (x.place σ).references = x.references.map (VariableReference.place σ)
  | .field h none => by
    rw [Selection.place, Selection.references, Selection.references, List.map_append, ← Argument.references_place,
      ← DirectiveUse.references_place]
    rfl
  | .field h (some set) => by
    rw [Selection.place, Selection.references, Selection.references, List.map_append, List.map_append,
      ← Argument.references_place, ← DirectiveUse.references_place, SelectionSet.references_place set]
    rfl
  | .spread f => DirectiveUse.references_place σ f.directives
  | .inline h set => by
    rw [Selection.place, Selection.references, Selection.references, List.map_append, ← DirectiveUse.references_place,
      SelectionSet.references_place set]
    rfl

theorem SelectionSet.references_place : ∀ set : SelectionSet,
    (set.place σ).references = set.references.map (VariableReference.place σ)
  | .mk selections _ => Selection.referencesOfList_place selections

theorem Selection.referencesOfList_place : ∀ xs : List Selection,
    Selection.referencesOfList (Selection.placeList σ xs) =
      (Selection.referencesOfList xs).map (VariableReference.place σ)
  | [] => rfl
  | x :: xs => by
    rw [Selection.placeList, Selection.referencesOfList, Selection.references_place x,
      Selection.referencesOfList_place xs, ← List.map_append, Selection.referencesOfList]

end

theorem Fragment.references_place (f : Fragment) :
    (f.place σ).references = f.references.map (VariableReference.place σ) := by
  rw [Fragment.references, Fragment.references, List.map_append, ← DirectiveUse.references_place,
    ← SelectionSet.references_place]
  rfl

end References

/-! ### Spreads and what they lead to -/

section Spreads

variable (σ : Placement)

mutual

theorem Selection.spreads_place : ∀ x : Selection, (x.place σ).spreads = x.spreads
  | .field _ none => rfl
  | .field _ (some set) => set.spreads_place
  | .spread _ => rfl
  | .inline _ set => set.spreads_place

theorem SelectionSet.spreads_place : ∀ set : SelectionSet, (set.place σ).spreads = set.spreads
  | .mk selections _ => Selection.spreadsOfList_place selections

theorem Selection.spreadsOfList_place : ∀ xs : List Selection,
    Selection.spreadsOfList (Selection.placeList σ xs) = Selection.spreadsOfList xs
  | [] => rfl
  | x :: xs => by
    rw [Selection.placeList, Selection.spreadsOfList, Selection.spreads_place x, Selection.spreadsOfList_place xs,
      Selection.spreadsOfList]

end

variable {σ}

theorem fragmentsExcept_place (name : String) (fs : List Fragment) :
    fragmentsExcept name (fs.map (Fragment.place σ)) = (fragmentsExcept name fs).map (Fragment.place σ) :=
  List.filter_map

/-- The first fragment of a name is the same one, wherever it stands. -/
theorem find?_fragment_place (name : String) (fs : List Fragment) :
    (fs.map (Fragment.place σ)).find? (fun f => f.name.value == name) =
      (fs.find? fun f => f.name.value == name).map (Fragment.place σ) :=
  List.find?_map

theorem reachFrom_place (unvisited : List Fragment) (pending : List String) :
    reachFrom (unvisited.map (Fragment.place σ)) pending = (reachFrom unvisited pending).map (Fragment.place σ) := by
  fun_induction reachFrom unvisited pending with
  | case1 => rw [reachFrom, List.map_nil]
  | case2 unvisited name pending hfound ih =>
    rw [reachFrom]
    split
    · exact ih
    · next f hf =>
      rw [find?_fragment_place, hfound] at hf
      cases hf
  | case3 unvisited name pending f hfound ih =>
    rw [reachFrom]
    split
    · next hnone =>
      rw [find?_fragment_place, hfound] at hnone
      cases hnone
    · next g hg =>
      rw [find?_fragment_place, hfound] at hg
      cases hg
      rw [fragmentsExcept_place, Fragment.place, SelectionSet.spreads_place, ih]
      rfl

end Spreads

namespace Document

variable (σ : Placement) (d : Document)

theorem fragments_place : (d.place σ).fragments = d.fragments.map (Fragment.place σ) := by
  rw [fragments, fragments, Document.place, List.filterMap_map, List.map_filterMap]
  congr 1
  funext x
  cases x <;> rfl

theorem fragment?_place (name : String) : (d.place σ).fragment? name = (d.fragment? name).map (Fragment.place σ) := by
  rw [fragment?, fragments_place, find?_fragment_place, fragment?]

theorem reached_place (o : Operation) : (d.place σ).reached (o.place σ) = (d.reached o).map (Fragment.place σ) := by
  rw [reached, fragments_place, Operation.place, SelectionSet.spreads_place, reachFrom_place, reached]

/-- **An operation uses the same variables wherever it stands.** -/
theorem usages_place (o : Operation) :
    (d.place σ).usages (o.place σ) = (d.usages o).map (VariableReference.place σ) := by
  have hreached : ((d.reached o).map (Fragment.place σ)).flatMap Fragment.references =
      ((d.reached o).flatMap Fragment.references).map (VariableReference.place σ) :=
    flatMap_place (fun f => f.references_place σ) (d.reached o)
  rw [usages, usages, reached_place, hreached, List.map_append, List.map_append, ← DirectiveUse.references_place,
    ← SelectionSet.references_place]
  rfl

end Document

end QueryAid
