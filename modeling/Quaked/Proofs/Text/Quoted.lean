import Quaked.Proofs.Text.Extent

/-!
# Between two quotes

`Inside` says of characters that they can stand between two quotes, and `Closed` of what follows a quote
that another one closes it. Counting the interior of a string finds the one that does, whatever stands
behind it.

* `Inside.interior?`, `inside_of_interior?`: the count, from either side.
* `inside_escape`: what is escaped can stand between quotes.
* `take_interior?`: the characters counted, between the quotes.
-/

namespace Quaked.Text

/-- Characters between two quotes: a quote among them stands behind a backslash, which takes the
next character with it whatever it is. -/
inductive Inside : List Char → Prop where
  | nil : Inside []
  | plain {ch : Char} {cs : List Char} (noQuote : ch ≠ '"') (noEscape : ch ≠ '\\')
    (rest : Inside cs) : Inside (ch :: cs)
  | escaped (ch : Char) {cs : List Char} (rest : Inside cs) : Inside ('\\' :: ch :: cs)

/-- A quote in front of the characters is closed among them. -/
def Closed (cs : List Char) : Prop := ∃ inside behind, cs = inside ++ '"' :: behind ∧ Inside inside

variable {cs inside behind : List Char} {n : Nat}

theorem Inside.interior? (h : Inside inside) (behind : List Char) :
    Text.interior? (inside ++ '"' :: behind) = some inside.length := by
  induction h with
  | nil => rfl
  | plain noQuote noEscape _ ih => simp [Text.interior?, noEscape, ih]
  | escaped ch _ ih => simp [Text.interior?, ih]

theorem inside_of_interior? (h : interior? cs = some n) :
    ∃ inside behind, cs = inside ++ '"' :: behind ∧ Inside inside := by
  fun_induction interior? cs generalizing n with
  | case1 => cases h
  | case2 cs => exact ⟨[], cs, rfl, .nil⟩
  | case3 ch cs ih =>
    obtain ⟨m, inner, -⟩ := Option.map_eq_some_iff.1 h
    obtain ⟨inside, behind, rfl, valid⟩ := ih inner
    exact ⟨'\\' :: ch :: inside, behind, rfl, valid.escaped ch⟩
  | case4 ch cs noQuote noEscape ih =>
    obtain ⟨m, inner, -⟩ := Option.map_eq_some_iff.1 h
    obtain ⟨inside, behind, rfl, valid⟩ := ih inner
    refine ⟨ch :: inside, behind, rfl, valid.plain noQuote ?_⟩
    -- a backslash would have taken a character with it, and there is one
    rintro rfl
    cases inside with
    | nil => exact noEscape _ _ rfl rfl
    | cons d inside => exact noEscape _ _ rfl rfl

/-- A quote is closed exactly if the count of its characters says so. -/
theorem closed_iff : Closed cs ↔ ∃ n, interior? cs = some n := by
  constructor
  · rintro ⟨inside, behind, rfl, valid⟩
    exact ⟨inside.length, valid.interior? behind⟩
  · rintro ⟨n, h⟩
    exact inside_of_interior? h

theorem take_quoted (inside r : List Char) :
    ('"' :: (inside ++ '"' :: r)).take (inside.length + 2) = '"' :: (inside ++ ['"']) := by
  rw [List.take_succ_cons, List.take_length_add_append, List.take_succ_cons, List.take_zero]

/-- The characters counted, with the quotes in front of and behind them. -/
theorem take_interior? (h : interior? cs = some n) :
    ∃ inside, ('"' :: cs).take (n + 2) = '"' :: (inside ++ ['"']) ∧ Inside inside := by
  obtain ⟨inside, behind, rfl, valid⟩ := inside_of_interior? h
  rw [valid.interior? behind] at h
  cases h
  exact ⟨inside, take_quoted inside behind, valid⟩

/-- What is escaped can stand between quotes. -/
theorem inside_escape (cs : List Char) : Inside (escape cs) := by
  induction cs with
  | nil => exact .nil
  | cons ch cs ih =>
    rw [escape]
    split
    · exact ih.escaped ch
    · rename_i visible
      obtain ⟨noQuote, noEscape⟩ := not_or.1 visible
      exact ih.plain noQuote noEscape

end Quaked.Text
