import QueryAid.Editor.StateKind
/-!
# Parser states

Where in a document the cursor is: in a part, which lies in another part, and so on outwards. The same is
said by the list of the parts, outermost first.
-/

namespace QueryAid

/-- **One part of a document** that the cursor is in. -/
structure StateFrame where
  kind : StateKind
  /-- The name that was read in the part. -/
  name : Option String
  /-- How far the part has been read. -/
  step : Nat
  /-- The name of the type that was read in the part. -/
  typeName : Option String
  deriving DecidableEq, Repr

/-- A part of a kind of which nothing has been read. -/
def StateFrame.new (kind : StateKind) : StateFrame := ⟨kind, none, 0, none⟩

/-- **The part that the cursor is in, and the parts around it.** -/
inductive ParserState where
  /-- A part with nothing around it. -/
  | root (frame : StateFrame)
  | within (frame : StateFrame) (enclosing : ParserState)
  deriving DecidableEq, Repr

namespace ParserState

/-- The innermost part. -/
def frame : ParserState → StateFrame
  | root f | within f _ => f

/-- What is around the innermost part. -/
def enclosing? : ParserState → Option ParserState
  | root _ => none
  | within _ e => some e

/-- The kind of the innermost part. -/
def kind (s : ParserState) : StateKind := s.frame.kind

/-- The kind of the part around the innermost one. -/
def enclosingKind? (s : ParserState) : Option StateKind := s.enclosing?.map kind

/-- The states from the innermost one outwards. -/
def ancestors : ParserState → List ParserState
  | root f => [root f]
  | within f e => within f e :: e.ancestors

/-- The parts, outermost first. -/
def frames : ParserState → List StateFrame
  | root f => [f]
  | within f e => e.frames ++ [f]

/-- How many parts there are. -/
def depth : ParserState → Nat
  | root _ => 1
  | within _ e => e.depth + 1

/-! ### Making states -/

/-- A state of a kind with nothing around it. -/
def new (kind : StateKind) : ParserState := root (.new kind)

/-- The state with another innermost part. -/
def withFrame (f : StateFrame) : ParserState → ParserState
  | root _ => root f
  | within _ e => within f e

/-- The state with a name read in its innermost part. -/
def withName (s : ParserState) (name : String) : ParserState :=
  s.withFrame { s.frame with name := some name }

/-- The state with its innermost part read so far. -/
def withStep (s : ParserState) (step : Nat) : ParserState := s.withFrame { s.frame with step := step }

/-- The state with the name of a type read in its innermost part. -/
def withTypeName (s : ParserState) (name : String) : ParserState :=
  s.withFrame { s.frame with typeName := some name }

/-- The innermost part of a state, with something else around it. -/
def inside (s : ParserState) (enclosing : ParserState) : ParserState := within s.frame enclosing

/-- Parts put into a state, one into the other. -/
def enter (s : ParserState) (frames : List StateFrame) : ParserState :=
  frames.foldl (fun s f => within f s) s

/-- **The state of the given parts,** outermost first. -/
def ofFrames? : List StateFrame → Option ParserState
  | [] => none
  | f :: fs => some ((root f).enter fs)

end ParserState

end QueryAid
