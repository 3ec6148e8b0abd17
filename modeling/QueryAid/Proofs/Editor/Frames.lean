import QueryAid.Editor.ParserState
/-!
# Frames and chains

A state is a chain of states, from the innermost one outwards, and a list of parts says the same from the outermost one
inwards. Linking the parts makes each state around the next one and hands the innermost one on; reading a chain goes back
through the enclosing states and turns them around. Either is undone by the other (`ofFrames?_eq_some_iff`), so that the
states are the non-empty lists of parts. There are no states but those that can be made step by step (`made`).
-/

namespace QueryAid

namespace ParserState

variable {s e : ParserState} {f : StateFrame} {frames : List StateFrame}

/-! ### Every state is made -/

/-- **What can be made** by starting a state, recording what was read in it, and putting it into another one. -/
inductive Made : ParserState → Prop
  | new (kind : StateKind) : Made (.new kind)
  | withName {s : ParserState} (name : String) : Made s → Made (s.withName name)
  | withStep {s : ParserState} (step : Nat) : Made s → Made (s.withStep step)
  | withTypeName {s : ParserState} (name : String) : Made s → Made (s.withTypeName name)
  | inside {s e : ParserState} : Made s → Made e → Made (s.inside e)

/-- Any part can be made, as a state with nothing around it. -/
theorem made_root (f : StateFrame) : Made (root f) := by
  obtain ⟨kind, name, step, typeName⟩ := f
  have hstep : Made (root ⟨kind, none, step, none⟩) := (Made.new kind).withStep step
  have hname : Made (root ⟨kind, name, step, none⟩) := by
    cases name with
    | none => exact hstep
    | some name => exact hstep.withName name
  cases typeName with
  | none => exact hname
  | some typeName => exact hname.withTypeName typeName

/-- **There are no other states** than those that can be made. -/
theorem made (s : ParserState) : Made s := by
  induction s with
  | root f => exact made_root f
  | within f e ih => exact (made_root f).inside ih

/-! ### The chain of a state -/

/-- **The states from the outermost one inwards,** which is to say the innermost one and what encloses it, turned
around. -/
def chain (s : ParserState) : List ParserState := s.ancestors.reverse

@[simp] theorem chain_root (f : StateFrame) : (root f).chain = [root f] := rfl

@[simp] theorem chain_within (f : StateFrame) (e : ParserState) : (within f e).chain = e.chain ++ [within f e] := by
  rw [chain, ancestors, List.reverse_cons, chain]

theorem ancestors_eq_reverse_chain (s : ParserState) : s.ancestors = s.chain.reverse :=
  (List.reverse_reverse _).symm

theorem length_chain (s : ParserState) : s.chain.length = s.depth := by
  induction s with
  | root f => rfl
  | within f e ih => rw [chain_within, List.length_append, ih, depth, List.length_singleton]

theorem map_frame_chain (s : ParserState) : s.chain.map frame = s.frames := by
  induction s with
  | root f => rfl
  | within f e ih => rw [chain_within, List.map_append, ih, frames]; rfl

/-- A chain ends with its state. -/
theorem chain_eq_dropLast_append (s : ParserState) : s.chain = s.chain.dropLast ++ [s] := by
  cases s with
  | root f => rfl
  | within f e => rw [chain_within, List.dropLast_concat]

/-- **Each state of a chain is enclosed by the one before it,** and the first one by nothing. -/
theorem map_enclosing?_chain (s : ParserState) : s.chain.map enclosing? = none :: s.chain.dropLast.map some := by
  induction s with
  | root f => rfl
  | within f e ih =>
    calc (within f e).chain.map enclosing? = e.chain.map enclosing? ++ [some e] := by
          rw [chain_within, List.map_append]; rfl
      _ = none :: (e.chain.dropLast ++ [e]).map some := by rw [ih, List.cons_append, List.map_append]; rfl
      _ = none :: (within f e).chain.dropLast.map some := by
          rw [← chain_eq_dropLast_append, chain_within, List.dropLast_concat]

theorem map_enclosingKind?_chain (s : ParserState) :
    s.chain.map enclosingKind? = none :: s.frames.dropLast.map fun f => some f.kind := by
  have hkinds : s.chain.map enclosingKind? = (s.chain.map enclosing?).map (Option.map kind) := by
    rw [List.map_map]; rfl
  rw [hkinds, map_enclosing?_chain, ← map_frame_chain, ← List.map_dropLast, List.map_cons, List.map_map, List.map_map]
  rfl

/-! ### Linking parts -/

/-- Entering parts one after the other is entering them all. -/
theorem enter_append (x : ParserState) (frames frames' : List StateFrame) :
    x.enter (frames ++ frames') = (x.enter frames).enter frames' :=
  List.foldl_append

/-- Entering parts adds them at the inner end. -/
theorem frames_enter (s : ParserState) (fs : List StateFrame) : (s.enter fs).frames = s.frames ++ fs := by
  induction fs generalizing s with
  | nil => exact (List.append_nil _).symm
  | cons f fs ih => exact (ih (within f s)).trans (List.append_assoc _ _ _)

/-- The parts of a state make it again. -/
theorem ofFrames?_frames (s : ParserState) : ofFrames? s.frames = some s := by
  induction s with
  | root f => rfl
  | within f e ih =>
    rw [frames]
    cases hframes : e.frames with
    | nil => rw [hframes] at ih; cases ih
    | cons g gs =>
      rw [hframes] at ih
      have hlink : (root g).enter gs = e := Option.some.inj ih
      calc some ((root g).enter (gs ++ [f])) = some (((root g).enter gs).enter [f]) := by rw [enter_append]
        _ = some (within f e) := by rw [hlink]; rfl

/-- **Parts and states are the same:** parts are linked to a state exactly if they are the parts of it. -/
theorem ofFrames?_eq_some_iff : ofFrames? frames = some s ↔ frames = s.frames := by
  constructor
  · intro h
    cases frames with
    | nil => cases h
    | cons f fs => rw [← Option.some.inj h, frames_enter]; rfl
  · rintro rfl
    exact ofFrames?_frames s

/-! ### Linking parts for a function -/

/-- The state of a part, in what is around it. -/
def ofFrame (f : StateFrame) : Option ParserState → ParserState
  | none => root f
  | some e => within f e

universe u v

section

variable {m : Type u → Type v} [Monad m] {ρ : Type u} (run : ParserState → m ρ)

/-- **Puts parts into each other,** outermost first, and runs on the innermost state, which sees the others around it. -/
def linkFrames : Option ParserState → List StateFrame → m (Option ρ)
  | _, [] => pure none
  | enclosing, f :: rest =>
    if rest.isEmpty then some <$> run (ofFrame f enclosing) else linkFrames (some (ofFrame f enclosing)) rest

/-- **Runs on the state of the given parts,** outermost first, if there are any. -/
def withStateChain (frames : List StateFrame) : m (Option ρ) := linkFrames run none frames

/-- The innermost state is the first one, with the other parts entered in it. -/
theorem linkFrames_cons (enclosing : Option ParserState) (f : StateFrame) (rest : List StateFrame) :
    linkFrames run enclosing (f :: rest) = some <$> run ((ofFrame f enclosing).enter rest) := by
  induction rest generalizing enclosing f with
  | nil => rfl
  | cons g rest ih => exact ih (some (ofFrame f enclosing)) g

/-- **What is run is run on the state that the parts make,** if there are any, and nothing else is run. -/
theorem withStateChain_eq (frames : List StateFrame) :
    withStateChain run frames = (ofFrames? frames).elim (pure none) fun s => some <$> run s := by
  cases frames with
  | nil => rfl
  | cons f rest => exact linkFrames_cons run none f rest

end

/-! ### Two views of the same thing -/

/-- **A state and its parts,** outermost first. -/
structure Shows (s : ParserState) (frames : List StateFrame) : Prop where
  chain : s.chain.map frame = frames
  depth : s.depth = frames.length
  ancestors : s.ancestors = s.chain.reverse
  /-- Nothing is around the first state, and around each other one there is a state of the kind of the part before. -/
  enclosingKind : s.chain.map enclosingKind? = none :: frames.dropLast.map fun f => some f.kind

theorem shows_frames (s : ParserState) : s.Shows s.frames where
  chain := s.map_frame_chain
  depth := by rw [← length_chain, ← map_frame_chain, List.length_map]
  ancestors := s.ancestors_eq_reverse_chain
  enclosingKind := s.map_enclosingKind?_chain

/-- **Frames and chains are two views of the same thing.** Whatever is run on a non-empty list of parts is run exactly
once, on the one state that shows these parts, whatever else running does; and the parts that any state shows are linked
to that state again. -/
theorem frames_and_chains :
    (∀ f fs, ∃ s, ofFrames? (f :: fs) = some s ∧ s.Shows (f :: fs) ∧
      ∀ (m : Type u → Type v) [Monad m] (ρ : Type u) (run : ParserState → m ρ),
        withStateChain run (f :: fs) = some <$> run s) ∧
    ∀ s : ParserState, ofFrames? (s.chain.map frame) = some s ∧
      ∀ (m : Type u → Type v) [Monad m] (ρ : Type u) (run : ParserState → m ρ),
        withStateChain run (s.chain.map frame) = some <$> run s := by
  constructor
  · intro f fs
    have hlink : ofFrames? (f :: fs) = some ((root f).enter fs) := rfl
    refine ⟨_, hlink, ?_, fun _ _ _ run => by rw [withStateChain_eq, hlink]; rfl⟩
    rw [ofFrames?_eq_some_iff.1 hlink]
    exact shows_frames _
  · intro s
    have hlink : ofFrames? (s.chain.map frame) = some s := ofFrames?_eq_some_iff.2 s.map_frame_chain
    exact ⟨hlink, fun _ _ _ run => by rw [withStateChain_eq, hlink]; rfl⟩

end ParserState

end QueryAid
