import Quaked.Proofs.Token.Words

/-!
# Tokens look no further than one character

Which token stands somewhere and where it ends is settled by its own characters and the one behind them.
So two texts that start alike start with the same tokens, as long as these end before the texts part. A
closing parenthesis may even end where they part, as nothing can be added to it.

* `lexeme_of_append`, `Gap.of_head`: what is looked at.
* `front?_beside`: the first token of two texts that start alike.
* `Beside.stands`, `Beside.run`: tokens at two cursors in front of such texts.
-/

namespace Quaked.Token

open Text

variable {cs ds r r' rest gap : List Char} {ch : Char} {kind : Kind} {n : Nat} {text : String}

/-! ### Characters -/

/-- A number or a word that ends within a text is the one of the text by itself. -/
theorem wordLexeme_of_append (h : wordLexeme ch (cs ++ r) = .token kind n)
    (inside : n ≤ (ch :: cs).length) : wordLexeme ch cs = .token kind n := by
  rw [wordLexeme_eq] at h ⊢
  rw [← List.cons_append] at h
  split at h
  · cases h
  · rename_i some
    cases h
    have run : wordRun (ch :: cs ++ r) = wordRun (ch :: cs) := takeWhile_of_append inside
    rw [← run, if_neg some]

/-- A token that ends before a text does is the token of the text by itself. -/
theorem lexeme_of_append (h : lexeme (cs ++ r) = .token kind n) (inside : n < cs.length) :
    lexeme cs = .token kind n := by
  have positive : 0 < n := by
    refine (lexeme_extent h ?_).1
    rintro rfl
    obtain ⟨none, rfl⟩ := lexeme_endOfFile h
    obtain ⟨rfl, -⟩ := List.append_eq_nil_iff.1 none
    cases inside
  -- so there are two characters, and no lexeme looks at more to tell its kind
  obtain ⟨ch, d, tail, rfl⟩ : ∃ ch d tail, cs = ch :: d :: tail := by
    cases cs with
    | nil => cases inside
    | cons ch tail =>
      cases tail with
      | nil => exact absurd inside (Nat.not_lt.2 positive)
      | cons d tail => exact ⟨ch, d, tail, rfl⟩
  rw [List.cons_append, List.cons_append] at h
  unfold lexeme at h
  split at h
  case h_1 same => cases same
  case h_2 same =>
    cases same
    cases h
    have run : (('/' :: '*' :: tail) ++ r).takeWhile (!isBlank ·) =
        ('/' :: '*' :: tail).takeWhile (!isBlank ·) :=
      takeWhile_of_append (Nat.le_of_lt inside)
    exact congrArg (fun taken => Lexeme.token Kind.commentOpen taken.length) run.symm
  case h_12 noFeed same =>
    cases same
    cases h
    exact lexeme_carriageReturn _ fun feed => noFeed (tail ++ r) (feed ▸ rfl)
  case h_14 same =>
    cases same
    cases inner : interior? (d :: (tail ++ r)) with
    | none =>
      rw [inner] at h
      cases h
    | some m =>
      rw [inner] at h
      cases h
      have closed : interior? (d :: tail) = some m :=
        interior?_of_append inner (Nat.lt_of_succ_lt (Nat.lt_of_succ_lt_succ inside))
      rw [lexeme_quote, closed]
  case h_15 =>
    rename_i same
    cases same
    have noMark : ch ∉ ['(', ')', '{', '}', '=', ';', ',', '\r', '\n', '"'] := by
      clear h
      simp_all
    have noComment : ¬ (ch = '/' ∧ d = '*') ∧ ¬ (ch = '*' ∧ d = '/') := by
      clear h noMark
      simp_all
    rw [lexeme_cons_cons _ noMark noComment]
    change (if ch = '-' && isBlank d then _ else wordLexeme ch (d :: tail ++ r)) = _ at h
    split at h
    · rename_i minus
      rw [if_pos minus]
      exact h
    · rename_i noMinus
      rw [if_neg noMinus]
      exact wordLexeme_of_append h (Nat.le_of_lt inside)
  all_goals
    rename_i same
    cases same
    cases h
    rfl

/-- A token that ends before two texts part is the token of both. -/
theorem lexeme_beside (h : lexeme (cs ++ r) = .token kind n) (inside : n < cs.length) :
    lexeme (cs ++ r') = .token kind n :=
  lexeme_append (lexeme_of_append h inside) (.inl inside)

/-- A gap ends in front of a character, whatever follows it. -/
theorem Gap.of_head (h : Gap gap (ch :: cs)) : Gap gap (ch :: ds) := by
  generalize same : ch :: cs = rest at h
  induction h with
  | nil => exact .nil _
  | blank blank _ ih => exact (ih same).blank blank
  | comment within behind =>
    subst same
    exact .comment within behind

/-! ### The first token -/

/-- A token is complete where `rest` follows and two texts part in front of `r`: there is more in between,
or it is a closing parenthesis. -/
def Complete (kind : Kind) (rest r : List Char) : Prop :=
  r.length < rest.length ∨ kind = .closeParen ∧ rest = r

theorem front?_eq_some_iff : front? cs = some ((kind, text), rest) ↔
    ∃ gap lexed, cs = gap ++ lexed ∧ Gap gap lexed ∧ Token.gap lexed = 0 ∧ ∃ n,
      lexeme lexed = .token kind n ∧ text = kind.textOf (lexed.take n) ∧ rest = lexed.drop n := by
  constructor
  · intro h
    unfold front? at h
    dsimp only at h
    refine ⟨cs.take (Token.gap cs), cs.drop (Token.gap cs), (List.take_append_drop _ _).symm, gap_take cs,
      gap_drop_gap cs, ?_⟩
    split at h
    · rename_i n lexed
      cases h
      exact ⟨n, lexed, rfl, rfl⟩
    · cases h
  · rintro ⟨gap, lexed, rfl, between, stop, n, token, rfl, rfl⟩
    unfold front?
    rw [between.eq_length stop, List.drop_left]
    dsimp only
    rw [token]

/-- Where two texts part behind the first two characters, no gap starts in front of both. -/
theorem gap_beside (h : Token.gap (cs ++ r) = 0) (two : 1 < cs.length) : Token.gap (cs ++ r') = 0 := by
  cases cs with
  | nil => cases two
  | cons ch tail =>
    obtain ⟨noBlank, noComment⟩ := gap_cons_eq_zero_iff.1 h
    refine gap_cons_eq_zero_iff.2 ⟨noBlank, ?_⟩
    cases tail with
    | nil => exact absurd two (Nat.lt_irrefl 1)
    | cons d tail => exact noComment

/-- Two texts that start alike start with the same token, if it is complete where they part. -/
theorem front?_beside (h : front? (cs ++ r) = some ((kind, text), rest)) (complete : Complete kind rest r) :
    ∃ left, rest = left ++ r ∧ front? (cs ++ r') = some ((kind, text), left ++ r') := by
  obtain ⟨gap, lexed, whole, between, stop, n, token, rfl, rfl⟩ := front?_eq_some_iff.1 h
  rcases complete with within | ⟨rfl, last⟩
  · rw [List.length_drop] at within
    obtain ⟨beyond, rfl, rfl⟩ | ⟨own, rfl, rfl⟩ := List.append_eq_append_iff.1 whole
    · rw [List.length_append] at within
      omega
    have inside : n < own.length := by
      rw [List.length_append] at within
      omega
    have two : 1 < own.length := by
      have more : kind ≠ .endOfFile := by
        rintro rfl
        have none := List.append_eq_nil_iff.1 (lexeme_endOfFile token).1
        rw [none.1] at inside
        cases inside
      exact Nat.lt_of_le_of_lt (lexeme_extent token more).1 inside
    have short := Nat.le_of_lt inside
    have between' : Gap gap (own ++ r') := by
      cases own with
      | nil => cases two
      | cons ch own => exact between.of_head
    refine ⟨own.drop n, List.drop_append_of_le_length short, front?_eq_some_iff.2 ⟨gap, own ++ r', ?_,
      between', gap_beside stop two, n, lexeme_beside token inside, ?_, ?_⟩⟩
    · rw [List.append_assoc]
    · rw [List.take_append_of_le_length short, List.take_append_of_le_length short]
    · rw [List.drop_append_of_le_length short]
  · obtain ⟨tail, rfl, rfl⟩ : ∃ tail, lexed = ')' :: tail ∧ n = 1 := by
      cases shape_of_lexeme token with
      | closeParen tail => exact ⟨tail, rfl, rfl⟩
      | word word => rcases wordLexeme_kind word with is | is | is <;> cases is
    obtain rfl : tail = r := last
    have own : cs = gap ++ [')'] := by
      rw [List.append_cons] at whole
      exact List.append_cancel_right whole
    refine ⟨[], rfl, front?_eq_some_iff.2 ⟨gap, ')' :: r', ?_, between.of_head, rfl, 1, rfl, rfl, rfl⟩⟩
    rw [own, List.append_assoc]
    rfl

/-! ### Cursors -/

/-- What a token says, wherever it stands. -/
def wording (t : Token) : Kind × String := (t.kind, t.text)

/-- What is left at the cursors starts alike, up to `r` at the first one and `r'` at the second one. -/
def Beside (r r' : List Char) (c d : Cursor) : Prop := ∃ front, c.rest = front ++ r ∧ d.rest = front ++ r'

namespace Beside

variable {c c' d : Cursor} {t : Token} {ts : List Token}

theorem rest_eq (h : Beside r r' c d) (here : c.rest = r) : d.rest = r' := by
  obtain ⟨front, whole, there⟩ := h
  obtain rfl : front = [] := List.append_left_eq_self.1 (whole.symm.trans here)
  exact there

theorem stands (h : Beside r r' c d) (read : Stands c t c') (complete : Complete t.kind c'.rest r) :
    ∃ t' d', Stands d t' d' ∧ t'.wording = t.wording ∧ Beside r r' c' d' := by
  obtain ⟨front, here, there⟩ := h
  have first := front?_of_next read
  rw [here] at first
  obtain ⟨left, rest, first'⟩ := front?_beside first complete
  rw [← there] at first'
  obtain ⟨t', d', read', ⟨kind, text⟩, rest'⟩ := next_of_front? first'
  exact ⟨t', d', read', Prod.ext kind text, left, rest, rest'⟩

/-- Tokens that end before the texts part stand in front of both. -/
theorem run (h : Beside r r' c d) (run : Run c ts c') (within : r.length < c'.unread) :
    ∃ ts' d', Run d ts' d' ∧ ts'.map wording = ts.map wording ∧ Beside r r' c' d' := by
  induction run generalizing d with
  | nil c => exact ⟨[], d, .nil d, rfl, h⟩
  | @cons c c₁ c' t ts read rest ih =>
    have less : c'.unread ≤ c₁.unread := rest.le Cursor.unread unread_next_le
    obtain ⟨t', d₁, read', same, h₁⟩ := h.stands read (.inl (Nat.lt_of_lt_of_le within less))
    obtain ⟨ts', d', rest', sames, h'⟩ := ih h₁ within
    exact ⟨t' :: ts', d', .cons read' rest', congrArg₂ List.cons same sames, h'⟩

end Beside

end Quaked.Token
