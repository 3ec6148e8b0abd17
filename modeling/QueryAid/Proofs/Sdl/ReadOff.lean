import QueryAid.Proofs.Sdl.Types
/-!
# What definitions mention is read off tokens

Every name and every type that the definitions in a source mention is read off tokens of the source: a name off a token
of that kind, and a type off consecutive tokens that spell it (`readOff_of_parse`). So what a source defines or mentions
bears names of the language (`areNames_of_parse`).
-/

namespace QueryAid

namespace Sdl

open SchemaParser Sdl.Cursor

variable {source : List Char} {ds : List Definition} {e : TypeExpression}

/-! ### Tracing -/

/-- **A name or a type is read off tokens of a source.** -/
def Mention.ReadOff (source : List Char) : Mention → Prop
  | name text => ∃ t ∈ tokens source, t.isName = true ∧ text = String.ofList t.text
  | type e => ∃ used, used <:+: tokens source ∧ e.Spelled used

/-- Some of the tokens of a source are left to read, down to the last one. -/
def Cursor.IsWithin (source : List Char) (c : Cursor) : Prop := c.Ends ∧ c.left <:+ tokens source

theorem persists_isWithin : Persists (Cursor.IsWithin source) := by
  intro c u c' hc hadvance
  refine ⟨trivial, ?_⟩
  unfold advance at hadvance
  cases hahead : c.ahead with
  | nil =>
    -- The cursor stays at the last token.
    rw [hahead] at hadvance
    cases hadvance
    exact hc
  | cons t ts =>
    rw [hahead] at hadvance
    cases hadvance
    have hleft : c.left = [c.token] ++ Cursor.left ⟨t, ts⟩ := congrArg (c.token :: ·) hahead
    exact ⟨hc.1.of_suffix hleft, List.IsSuffix.trans ⟨_, hleft.symm⟩ hc.2⟩

theorem traces_readOff : Traces (Cursor.IsWithin source) (Mention.ReadOff source) := by
  refine ⟨persists_isWithin, fun c n c' hc hname => ?_, fun room c e c' hc htype => ?_⟩
  · have hkept := (persists_isWithin.name c n c' hc hname).2
    obtain ⟨hatName, -, rfl⟩ := name_eq_ok_iff.1 hname
    exact ⟨⟨c.token, hc.2.subset List.mem_cons_self, hatName, rfl⟩, hkept⟩
  · obtain ⟨used, hleft, hspelled⟩ := spells_of_type hc.1 htype
    obtain ⟨before, hbefore⟩ := hc.2
    rw [hleft] at hbefore
    exact ⟨⟨used, ⟨before, c'.left, by rw [← hbefore, List.append_assoc]⟩, hspelled⟩,
      hc.1.of_suffix hleft, ⟨before ++ used, by rw [← hbefore, List.append_assoc]⟩⟩

/-- **What the definitions in a source mention is read off the tokens of the source.** -/
theorem readOff_of_parse (h : parse source = .ok ds) {d : Definition} (hd : d ∈ ds) :
    ∀ m ∈ d.mentions, m.ReadOff source := by
  have hstart : (Cursor.ofSource source).IsWithin source :=
    ⟨Cursor.ends_ofSource source, (Cursor.left_ofSource source).symm ▸ List.suffix_refl _⟩
  exact mentions_of_parse traces_readOff hstart h d hd

/-! ### Texts -/

/-- Tokens of a source that spell a type are the written type, when they are put one behind the other. -/
theorem written_of_spelled {used : List Token} (hused : used <:+: tokens source) (h : e.Spelled used) :
    e.Written (used.flatMap Token.text) :=
  h.written fun t ht => ⟨isIdentifier_of_mem_tokens t (hused.subset ht),
    isMarkText_of_mem_tokensFrom _ _ _ t (hused.subset ht)⟩

/-- What is read off tokens bears a name, under all layers if it is a type. -/
theorem Mention.ReadOff.isIdentifier_text {m : Mention} (h : m.ReadOff source) : isIdentifier m.text = true := by
  cases m with
  | name text =>
    obtain ⟨t, ht, hname, rfl⟩ := h
    exact isIdentifier_of_mem_tokens t ht hname
  | type e =>
    obtain ⟨used, hused, hspelled⟩ := h
    exact (written_of_spelled hused hspelled).isIdentifier_namedType

/-- **Whatever a schema source defines or mentions bears a name.** -/
theorem areNames_of_parse (h : parse source = .ok ds) : ∀ d ∈ ds, AreNames d.names := by
  intro d hd
  rw [d.names_eq]
  exact areNames_map fun m hm => (readOff_of_parse h hd m hm).isIdentifier_text

end Sdl

end QueryAid
