import Quaked.Proofs.Selector.Exactness
import Quaked.Proofs.Selector.Longest

/-!
# A selector among other text

A selector that a text is as a whole is also read where the text goes on behind it with a closing
parenthesis. What is then left is the white space at the end of the text (`trailingSpace`): the
grammar never looks behind the last token, and no token ends with white space (`Lexes.last`).

* `lexes_of_parse`: the tokens of a selector reach up to its trailing white space.
* `reads_expression`: so does the reading of it in front of a parenthesis.
-/

namespace Quaked.Selector

open Text TokenSource Selector.Token

/-! ### The characters of a token -/

variable {cs cs' rest : List Char} {kind : Kind} {n : Nat}

/-- The quoted strings of a selector are its quotes that are closed. -/
theorem Token.quotes_lexeme : Quotes lexeme .string := by
  intro cs n
  constructor
  · intro h
    obtain ⟨inside, same, valid⟩ := (spells_of_lexeme h nofun).eq_quoted rfl
    have length := List.length_take_of_le (lexeme_extent h nofun).2
    have whole := List.take_append_drop n cs
    rw [same] at length whole
    refine ⟨inside ++ '"' :: cs.drop n, inside.length, ?_, valid.interior? _, ?_⟩
    · rw [List.cons_append, List.append_assoc] at whole
      exact whole.symm
    · rw [← length]
      simp
  · rintro ⟨tail, m, rfl, inner, rfl⟩
    rw [lexeme, if_pos rfl, inner]

/-- The characters a token of a selector was made of. -/
def Token.extent (t : Token) : List Char := extentOf (t.kind = .string) t.text

theorem Token.extent_of_lexeme (h : lexeme cs = .token kind n) (position : Position) :
    extent ⟨kind, kind.textOf (cs.take n), position⟩ = cs.take n :=
  quotes_lexeme.extentOf_textOf h

/-! ### White space at the end -/

/-- The white space at the end of a text. -/
def trailingSpace (cs : List Char) : List Char := (cs.reverse.takeWhile isSpace).reverse

theorem isSpace_of_mem_trailingSpace {c : Char} (h : c ∈ trailingSpace cs) : isSpace c = true := by
  rw [trailingSpace, List.mem_reverse] at h
  exact List.all_eq_true.1 List.all_takeWhile c h

/-- Behind the last token there is the end. -/
theorem front?_of_spaces (space : ∀ c ∈ cs, isSpace c = true) :
    front? cs = some ((.endOfInput, ""), []) := by
  have passed : cs.dropWhile isSpace = [] := List.dropWhile_eq_nil_iff.2 space
  exact front?_eq_some_iff.2 ⟨0, by rw [passed]; rfl, by rw [passed]; rfl, by rw [passed]; rfl⟩

theorem trailingSpace_append {inside : List Char} {c : Char} (visible : isSpace c = false)
    (space : ∀ c ∈ rest, isSpace c = true) : trailingSpace (inside ++ [c] ++ rest) = rest := by
  unfold trailingSpace
  rw [List.reverse_append, List.takeWhile_append_of_pos]
  · simp [visible]
  · intro d mem
    exact space d (List.mem_reverse.1 mem)

/-- What is read as tokens ends with the last of them. -/
theorem Lexes.last {ws : List (Kind × String)} (h : Lexes cs ws rest) (some : ws ≠ []) :
    ∃ inside c, cs = inside ++ [c] ++ rest ∧ isSpace c = false := by
  induction h with
  | nil cs => exact absurd rfl some
  | @cons cs cs' rest w ws front more tail ih =>
    have whole : ∃ before, cs = before ++ cs.dropWhile isSpace :=
      ⟨_, (List.takeWhile_append_dropWhile (p := isSpace)).symm⟩
    obtain ⟨before, whole⟩ := whole
    obtain ⟨kind, text⟩ := w
    obtain ⟨n, lexed, -, left⟩ := front?_eq_some_iff.1 front
    obtain ⟨inside, c, token, visible⟩ := (spells_of_lexeme lexed more).exists_last
    have first : cs = before ++ inside ++ [c] ++ cs' := by
      rw [List.append_assoc before, ← token, List.append_assoc, left, List.take_append_drop]
      exact whole
    cases tail with
    | nil _ => exact ⟨before ++ inside, c, first, visible⟩
    | cons front' more' tail' =>
      obtain ⟨inside', c', same, visible'⟩ := ih (by simp)
      refine ⟨before ++ inside ++ [c] ++ inside', c', ?_, visible'⟩
      rw [first, same]
      simp only [List.append_assoc]

variable {text : String} {e : Selector}

/-- At the end of the input nothing but white space is left, and the token says nothing. -/
theorem ending_of_next {c c' : Cursor} {last : Token} (read : Token.next c = .ok last c')
    (ending : last.kind = .endOfInput) : last.text = "" ∧ ∀ c' ∈ c.rest, isSpace c' = true := by
  obtain ⟨n, lexed, is, -⟩ := next_eq_ok_iff.1 read
  rw [ending] at lexed is
  have passed := nil_of_lexeme lexed
  rw [passed, List.take_nil] at is
  exact ⟨congrArg Token.text is, List.dropWhile_eq_nil_iff.1 passed⟩

/-- The tokens of a selector derive it and reach up to its trailing white space. -/
theorem lexes_of_parse (h : parse text = .ok e) :
    ∃ ts : List Token, Lexes text.toList (ts.map Token.wording) (trailingSpace text.toList) ∧
      Derives ts (.operand 1 e) := by
  obtain ⟨ts, last, c, c', run, read, ending, derived⟩ := parse_eq_ok_iff.1 h
  have lexes : Lexes text.toList (ts.map Token.wording) c.rest := run.lexes
  obtain ⟨-, space⟩ := ending_of_next read ending
  obtain ⟨t, us, rfl, -⟩ := derived.starts
  obtain ⟨inside, c₁, whole, visible⟩ := lexes.last (by simp)
  have left : trailingSpace text.toList = c.rest := by
    rw [whole]
    exact trailingSpace_append visible space
  rw [left]
  exact ⟨t :: us, lexes, derived⟩

/-- Tokens of a text up to white space are read by its cursor, and then the end. -/
theorem Lexes.yields_text {ws : List (Kind × String)} (lexes : Lexes text.toList ws rest)
    (space : ∀ c ∈ rest, isSpace c = true) :
    ∃ ts last c c', Yields (.ofString text) ts c ∧ Token.next c = .ok last c' ∧
      last.wording = (.endOfInput, "") ∧ ts.map Token.wording = ws := by
  obtain ⟨ts, c, run, same, rfl⟩ := lexes.yields (c := .ofString text) rfl
  obtain ⟨last, c', read, wording, -⟩ := next_of_front? (front?_of_spaces space)
  exact ⟨ts, last, c, c', run, read, wording, same⟩

/-- A text is a selector if its tokens up to its trailing white space derive it. -/
theorem parse_of_lexes {ts : List Token}
    (lexes : Lexes text.toList (ts.map Token.wording) (trailingSpace text.toList))
    (derived : Derives ts (.operand 1 e)) : parse text = .ok e := by
  obtain ⟨us, last, c, c', run, read, wording, same⟩ :=
    lexes.yields_text fun _ mem => isSpace_of_mem_trailingSpace mem
  have kind : last.kind = .endOfInput := congrArg Prod.fst wording
  exact parse_eq_ok_iff.2 ⟨us, last, c, c', run, read, kind, derived.relabel same⟩

/-- A token of a quoted string derives the string. -/
theorem derives_string (quoted : String) :
    Derives [⟨.string, quoted, .start⟩]
      (.operand 1 (.string (String.ofList (unescape quoted.toList)))) :=
  .level (by decide) (.level (by decide) (.level (by decide) (.level (by decide)
    (.level (by decide) (.string rfl)))))

theorem lexes_string {quoted : String} (front : front? cs = some ((.string, quoted), rest)) :
    Lexes cs ([(⟨.string, quoted, .start⟩ : Token)].map Token.wording) rest := .single front nofun

/-- A quoted string among white space is a selector. -/
theorem parse_string (quoted : String) {value : String}
    (front : front? text.toList = some ((.string, quoted), trailingSpace text.toList))
    (is : String.ofList (unescape quoted.toList) = value) : parse text = .ok (.string value) := by
  rw [← is]
  exact parse_of_lexes (lexes_string front) (derives_string quoted)

/-- Tokens that derive a selector are read as it in front of a token that cannot go on with it. -/
theorem reads_of_lexes {ts : List Token} {w : Kind × String} {rest' : List Char}
    (lexes : Lexes cs (ts.map Token.wording) rest) (derived : Derives ts (.operand 1 e))
    (behind : front? rest = some (w, rest')) (stop : w.1.stops 1) :
    Reads Grammar.expression cs (· = e) rest := by
  intro c here
  obtain ⟨us, c', run, same, left⟩ := lexes.yields here
  rw [← left] at behind
  obtain ⟨t, c'', read, wording, -⟩ := next_of_front? behind
  have kind : t.kind = w.1 := congrArg Prod.fst wording
  have stops : Follows (Token.Kind.stops 1) c' := .of_next read (kind ▸ stop)
  exact ⟨e, c', Grammar.expression_of_derives (derived.relabel same) run stops, rfl, left⟩

/-- In front of a closing parenthesis a selector is read up to its trailing white space. -/
theorem reads_expression (h : parse text = .ok e) (rest : List Char) :
    Reads Grammar.expression (text.toList ++ ')' :: rest) (· = e)
      (trailingSpace text.toList ++ ')' :: rest) := by
  obtain ⟨ts, lexes, derived⟩ := lexes_of_parse h
  have ended : atDelimiter endsToken (')' :: rest) = true := by
    show endsToken ')' = true
    decide
  have passed : (trailingSpace text.toList ++ ')' :: rest).dropWhile isSpace = ')' :: rest := by
    rw [List.dropWhile_append_of_pos fun c mem => isSpace_of_mem_trailingSpace mem]
    rfl
  have closing : front? (trailingSpace text.toList ++ ')' :: rest) =
      some ((.closeParen, ")"), rest) :=
    front?_eq_some_iff.2 ⟨1, by rw [passed]; rfl, by rw [passed]; rfl, by rw [passed]; rfl⟩
  exact reads_of_lexes (lexes.extend ended) derived closing (Token.Kind.stops_one_of (by simp))

end Quaked.Selector
