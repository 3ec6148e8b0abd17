import QueryAid.Document.Lexer
import QueryAid.Proofs.Source.Bytes
/-!
# Where tokens stand

The tokens of a source stand one behind the other, and the span of each of them covers its text (`covers_of_mem_tokens`,
`pairwise_tokens`). The text suits the kind of the token: a mark is written as it is, and a name begins with a character
that names can begin with (`suits_of_mem_tokens`). The end of the input is not among the tokens.
-/

namespace QueryAid

/-- How a mark is written. -/
def Punctuator.text : Punctuator → String
  | bang => "!"
  | dollar => "$"
  | amp => "&"
  | leftParen => "("
  | rightParen => ")"
  | spread => "..."
  | colon => ":"
  | equals => "="
  | atSign => "@"
  | leftBracket => "["
  | rightBracket => "]"
  | leftBrace => "\x7b"
  | pipe => "|"
  | rightBrace => "\x7d"

/-- **The texts that a token of some kind can have,** as far as the grammar relies on them. -/
def TokenKind.Suits : TokenKind → List Char → Prop
  | punctuator p, text => text = p.text.toList
  | name, text => ∃ c cs, text = c :: cs ∧ isNameStart c = true
  | endOfInput, text => text = []
  | _, _ => True

/-! ### What is scanned -/

namespace Scan

variable {c : Char} {rest : List Char} {n : Nat} {float : Bool}

/-- What is neither a mark, nor the end, nor a name. -/
def IsLiteral (s : Scan) : Prop := ∃ kind, s.cls = .token kind ∧ ∀ text, kind.Suits text

theorem isLiteral_invalid (fault : LexicalFault) (n : Nat) : (invalid fault n).IsLiteral :=
  ⟨_, rfl, fun _ => trivial⟩

theorem isLiteral_string (n : Nat) : (token .string n).IsLiteral := ⟨_, rfl, fun _ => trivial⟩

theorem numberSuffix_isLiteral : (numberSuffix float n rest).IsLiteral := by
  have hnumber : (token (if float then .float else .int) n).IsLiteral := by
    cases float <;> exact ⟨_, rfl, fun _ => trivial⟩
  unfold numberSuffix
  split
  · exact hnumber
  · split
    · exact isLiteral_invalid _ _
    · exact hnumber

theorem exponent_isLiteral : (exponent float n rest).IsLiteral := by
  unfold exponent
  repeat' split
  all_goals first | exact isLiteral_invalid _ _ | exact numberSuffix_isLiteral

theorem fraction_isLiteral : (fraction n rest).IsLiteral := by
  unfold fraction
  repeat' split
  all_goals first | exact isLiteral_invalid _ _ | exact exponent_isLiteral

theorem integerPart_isLiteral : (integerPart n c rest).IsLiteral := by
  unfold integerPart
  repeat' split
  all_goals first | exact isLiteral_invalid _ _ | exact fraction_isLiteral

theorem number_isLiteral : (number c rest).IsLiteral := by
  unfold number
  repeat' split
  all_goals first | exact isLiteral_invalid _ _ | exact integerPart_isLiteral

theorem quoted_isLiteral {state : StringState} {fault : Option LexicalFault} :
    (quoted state fault n rest).IsLiteral := by
  fun_induction quoted state fault n rest with
  | case1 => exact isLiteral_invalid _ _
  | case2 _ _ _ _ _ _ _ ih => exact ih
  | case3 _ _ _ _ _ _ _ _ ih => exact ih
  | case4 => exact isLiteral_invalid _ _
  | case5 => exact isLiteral_invalid _ _
  | case6 => exact isLiteral_string _

theorem block_isLiteral {state : BlockState} : (block state n rest).IsLiteral := by
  fun_induction block state n rest with
  | case1 => exact isLiteral_invalid _ _
  | case2 => exact isLiteral_string _
  | _ => assumption

theorem string_isLiteral : (string rest).IsLiteral := by
  unfold string
  split
  · exact isLiteral_invalid _ _
  · exact block_isLiteral
  · exact isLiteral_string _
  · exact quoted_isLiteral

/-- A character that is a mark is written as the mark is. -/
theorem text_of_mark? {p : Punctuator} (h : mark? c = some p) : [c] = p.text.toList := by
  unfold mark? at h
  split at h <;> cases h <;> rfl

/-- **What is scanned has a text that suits it.** -/
theorem start_suits {kind : TokenKind} (h : (start c rest).cls = .token kind) :
    kind.Suits (c :: rest.take (start c rest).extra) := by
  have hliteral : ∀ s : Scan, s.IsLiteral → s.cls = .token kind → kind.Suits (c :: rest.take s.extra) := by
    rintro s ⟨kind', hcls, hsuits⟩ hs
    obtain rfl : kind' = kind := LexemeClass.token.inj (hcls.symm.trans hs)
    exact hsuits _
  revert h
  unfold start
  split
  · next p hp =>
    intro h
    obtain rfl := LexemeClass.token.inj h
    exact text_of_mark? hp
  · -- Commas, white space and comments are no tokens; there are names, three points, numbers and strings.
    split
    · exact nofun
    split
    · next hstart =>
      intro h
      obtain rfl := LexemeClass.token.inj h
      exact ⟨c, _, rfl, hstart⟩
    split
    · exact nofun
    split
    · exact nofun
    split
    · next hpoint =>
      obtain rfl : c = '.' := by simpa using hpoint
      unfold spread
      split
      · intro h
        obtain rfl := LexemeClass.token.inj h
        rfl
      · exact hliteral _ (isLiteral_invalid _ _)
    split
    · exact hliteral _ number_isLiteral
    split
    · exact hliteral _ string_isLiteral
    · exact hliteral _ (isLiteral_invalid _ _)

end Scan

/-! ### Lexemes -/

/-- The span of a lexeme. -/
def Lexeme.span (l : Lexeme) : Span := ⟨l.start, l.start + byteLength l.text⟩

section Lexemes

variable {source cs : List Char} {l : Lexeme} {offset : Nat}

theorem text_of_mem_lexemesFrom (hl : l ∈ lexemesFrom offset cs) :
    l.text ≠ [] ∧ ∀ kind, l.cls = .token kind → kind.Suits l.text := by
  fun_induction lexemesFrom offset cs with
  | case1 => cases hl
  | case2 offset c rest scan text ih =>
    rcases List.mem_cons.1 hl with rfl | hl
    · exact ⟨List.cons_ne_nil _ _, fun kind => Scan.start_suits⟩
    · exact ih hl

/-- A lexeme stands in the text that it was cut from. -/
theorem place_of_mem_lexemesFrom (hl : l ∈ lexemesFrom offset cs) :
    ∃ before behind, cs = before ++ (l.text ++ behind) ∧ l.start = offset + byteLength before := by
  fun_induction lexemesFrom offset cs with
  | case1 => cases hl
  | case2 offset c rest scan text ih =>
    have hcs : c :: rest = text ++ rest.drop scan.extra := by
      rw [List.cons_append, List.take_append_drop]
    rcases List.mem_cons.1 hl with rfl | hl
    · exact ⟨[], rest.drop scan.extra, hcs, rfl⟩
    · obtain ⟨before, behind, hrest, hstart⟩ := ih hl
      refine ⟨text ++ before, behind, by rw [hcs, hrest, List.append_assoc], ?_⟩
      rw [hstart, byteLength_append, Nat.add_assoc]

theorem offset_le_of_mem_lexemesFrom (hl : l ∈ lexemesFrom offset cs) : offset ≤ l.start := by
  fun_induction lexemesFrom offset cs with
  | case1 => cases hl
  | case2 offset c rest scan text ih =>
    rcases List.mem_cons.1 hl with rfl | hl
    · exact Nat.le_refl _
    · exact Nat.le_trans (Nat.le_add_right _ _) (ih hl)

theorem pairwise_lexemesFrom (offset : Nat) (cs : List Char) :
    (lexemesFrom offset cs).Pairwise fun l l' => l.span.stop ≤ l'.span.start := by
  fun_induction lexemesFrom offset cs with
  | case1 => exact List.Pairwise.nil
  | case2 offset c rest scan text ih => exact List.pairwise_cons.2 ⟨fun l' => offset_le_of_mem_lexemesFrom, ih⟩

end Lexemes

/-! ### Tokens -/

section Tokens

variable {source : List Char} {t : Token} {ls : List Lexeme}

/-- A token is a lexeme that counts. -/
theorem exists_lexeme_of_mem_significant (ht : t ∈ significant ls) :
    ∃ l ∈ ls, l.cls = .token t.kind ∧ t.text = String.ofList l.text ∧ t.span = l.span := by
  induction ls with
  | nil => cases ht
  | cons l ls ih =>
    have hrest : t ∈ significant ls → ∃ l' ∈ l :: ls, l'.cls = .token t.kind ∧ t.text = String.ofList l'.text ∧
        t.span = l'.span := by
      intro ht
      obtain ⟨l', hl', h⟩ := ih ht
      exact ⟨l', List.mem_cons_of_mem _ hl', h⟩
    unfold significant at ht
    split at ht
    · next kind hcls =>
      rcases List.mem_cons.1 ht with rfl | ht
      · exact ⟨l, List.mem_cons_self, hcls, rfl, rfl⟩
      · exact hrest ht
    all_goals exact hrest ht

theorem pairwise_significant (h : ls.Pairwise fun l l' => l.span.stop ≤ l'.span.start) :
    (significant ls).Pairwise fun t t' => t.span.stop ≤ t'.span.start := by
  induction ls with
  | nil => exact List.Pairwise.nil
  | cons l ls ih =>
    rw [List.pairwise_cons] at h
    unfold significant
    split
    · refine List.pairwise_cons.2 ⟨fun t' ht' => ?_, ih h.2⟩
      obtain ⟨l', hl', -, -, hspan⟩ := exists_lexeme_of_mem_significant ht'
      exact hspan ▸ h.1 l' hl'
    all_goals exact ih h.2

/-- **Tokens stand one behind the other.** -/
theorem pairwise_tokens (source : List Char) :
    (tokens source).Pairwise fun t t' => t.span.stop ≤ t'.span.start :=
  pairwise_significant (pairwise_lexemesFrom 0 source)

/-- **The span of a token covers its text,** of which there is some. -/
theorem covers_of_mem_tokens (ht : t ∈ tokens source) : t.span.Covers source t.text.toList ∧ t.text.toList ≠ [] := by
  obtain ⟨l, hl, -, htext, hspan⟩ := exists_lexeme_of_mem_significant ht
  obtain ⟨before, behind, hsource, hstart⟩ := place_of_mem_lexemesFrom hl
  rw [htext, hspan, String.toList_ofList]
  rw [Nat.zero_add] at hstart
  exact ⟨⟨before, behind, hsource, hstart, by rw [Lexeme.span, hstart]⟩, (text_of_mem_lexemesFrom hl).1⟩

/-- A token has a text that suits it. -/
theorem suits_of_mem_tokens (ht : t ∈ tokens source) : t.kind.Suits t.text.toList := by
  obtain ⟨l, hl, hcls, htext, -⟩ := exists_lexeme_of_mem_significant ht
  rw [htext, String.toList_ofList]
  exact (text_of_mem_lexemesFrom hl).2 _ hcls

/-- The end of the input is not among the tokens. -/
theorem isEnd_of_mem_tokens (ht : t ∈ tokens source) : t.isEnd = false := by
  refine beq_false_of_ne fun hkind => (covers_of_mem_tokens ht).2 ?_
  have hsuits := suits_of_mem_tokens ht
  rwa [hkind] at hsuits

end Tokens

end QueryAid
