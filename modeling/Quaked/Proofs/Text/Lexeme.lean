import Quaked.Proofs.Text.Quoted
import Quaked.Text.Lexeme

/-!
# Reading one token

What both lexers have in common. A token is read exactly where one stands behind the gap, and reading
fails where none does (`Reading.token_eq_ok_iff`, `Reading.token_eq_error_iff`). The tokens of one kind
are strings in quotes (`Quotes`).

* `Quotes.extentOf_textOf`: the text of a token tells the characters it was made of.
* `Quotes.token_of_inside`: what can stand between quotes is one token with them.
-/

namespace Quaked.Text

variable {Kind τ : Type} {gap : List Char → Nat} {lexeme : List Char → Lexeme Kind}
  {make : Kind → List Char → Position → τ} {c c' : Cursor}

namespace Reading

theorem token_eq_ok_iff {t : τ} :
    token gap lexeme make c = .ok t c' ↔ ∃ kind n,
      lexeme (c.rest.drop (gap c.rest)) = .token kind n ∧
      t = make kind ((c.rest.drop (gap c.rest)).take n) (c.skip (gap c.rest)).position ∧
      c' = (c.skip (gap c.rest)).skip n := by
  unfold token
  dsimp only
  rw [Cursor.rest_skip]
  cases lexeme (c.rest.drop (gap c.rest)) with
  | token kind n =>
    constructor
    · intro h
      cases h
      exact ⟨kind, n, rfl, rfl, rfl⟩
    · rintro ⟨_, _, same, rfl, rfl⟩
      cases same
      rfl
  | unexpected character =>
    constructor
    · intro h
      cases h
    · rintro ⟨_, _, same, -⟩
      cases same
  | unterminated =>
    constructor
    · intro h
      cases h
    · rintro ⟨_, _, same, -⟩
      cases same

theorem token_eq_error_iff {e : Error} :
    token gap lexeme make c = .error e c' ↔
      (∃ character, lexeme (c.rest.drop (gap c.rest)) = .unexpected character ∧
        e = ⟨.unexpectedCharacter character, (c.skip (gap c.rest)).position⟩ ∧
        c' = c.skip (gap c.rest)) ∨
      lexeme (c.rest.drop (gap c.rest)) = .unterminated ∧
        e = ⟨.unterminatedString, (c.skip (gap c.rest)).position⟩ ∧
        c' = (c.skip (gap c.rest)).toEnd := by
  unfold token
  dsimp only
  rw [Cursor.rest_skip]
  cases lexeme (c.rest.drop (gap c.rest)) with
  | token kind n => simp
  | unexpected character => simp [eq_comm]
  | unterminated => simp [eq_comm]

/-- Behind the gap stands what stands in front of it. -/
theorem token_skip_gap (passed : gap (c.rest.drop (gap c.rest)) = 0) :
    token gap lexeme make (c.skip (gap c.rest)) = token gap lexeme make c := by
  unfold token
  rw [Cursor.rest_skip, passed, Cursor.skip_zero]

end Reading

/-! ### Quoted strings -/

/-- The characters that a token of the given text was made of. Quotes belong to them. -/
def extentOf (quoted : Bool) (text : String) : List Char :=
  if quoted then '"' :: text.toList ++ ['"'] else text.toList

/-- The tokens of a kind are the quotes that are closed, with all up to the quote that closes them. -/
def Quotes (lexeme : List Char → Lexeme Kind) (string : Kind) : Prop :=
  ∀ cs n, lexeme cs = .token string n ↔
    ∃ tail m, cs = '"' :: tail ∧ interior? tail = some m ∧ n = m + 2

namespace Quotes

variable {string kind : Kind} {cs inside r : List Char} {n : Nat}

/-- The text of a quoted string has lost the quotes and nothing else, and any other text nothing. -/
theorem extentOf_textOf [DecidableEq Kind] (quotes : Quotes lexeme string)
    (h : lexeme cs = .token kind n) :
    extentOf (kind = string) (textOf (kind = string) (cs.take n)) = cs.take n := by
  by_cases quoted : kind = string
  · subst quoted
    obtain ⟨tail, m, rfl, inner, rfl⟩ := (quotes cs n).1 h
    obtain ⟨inside, same, -⟩ := take_interior? inner
    rw [decide_eq_true rfl, same, textOf_true, extentOf, if_pos rfl, String.toList_ofList,
      List.cons_append]
  · rw [decide_eq_false quoted, textOf_false]
    exact String.toList_ofList

/-- Where no gap is passed in front of a quote, what stands in quotes is read as it is. -/
theorem token_of_inside (quotes : Quotes lexeme string) (here : c.rest = '"' :: (inside ++ '"' :: r))
    (front : gap ('"' :: (inside ++ '"' :: r)) = 0) (valid : Inside inside) :
    Reading.token gap lexeme make c =
      .ok (make string ('"' :: (inside ++ ['"'])) c.position) (c.skip (inside.length + 2)) := by
  refine Reading.token_eq_ok_iff.2 ⟨string, inside.length + 2, ?_, ?_, ?_⟩
  · rw [here, front, List.drop_zero]
    exact (quotes _ _).2 ⟨_, _, rfl, valid.interior? r, rfl⟩
  · rw [here, front, List.drop_zero, take_quoted, Cursor.skip_zero]
  · rw [here, front, Cursor.skip_zero]

end Quotes

end Quaked.Text
