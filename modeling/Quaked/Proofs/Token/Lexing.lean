import Quaked.Proofs.Number.Spelling
import Quaked.Proofs.Reading
import Quaked.Proofs.Text.Lexeme
import Quaked.Token.Lexer

/-!
# Tokens of a definition file at the front of a text

As with the tokens of a selector, what a token of a definition file says depends on the characters in
front of the cursor alone: `front?` is the reading of one token on lists of characters. From it
follows what the readers of single tokens do in front of a given text (`Reads`).

* `next_of_front?`, `front?_of_next`: a cursor reads the token at the front of what is left.
* `front?_integer`: digits in front of a delimiter are an integer.
* `shape_of_lexeme`: what a text starts with where a token stands.
* `blanks_of_front?_closeParen`: of all white space only spaces and tabs are passed in front of a
  closing parenthesis.
-/

namespace Quaked.Token

open Text

/-- The kind and the text of the next token of a text, and what is left behind it. -/
def front? (cs : List Char) : Option ((Kind × String) × List Char) :=
  let start := cs.drop (gap cs)
  match lexeme start with
  | .token kind n => some ((kind, kind.textOf (start.take n)), start.drop n)
  | _ => none

variable {c c' : Cursor} {t : Token} {cs rest : List Char} {kind : Kind} {text : String}

theorem next_eq_ok_iff :
    next c = .ok t c' ↔ ∃ kind n, lexeme (c.rest.drop (gap c.rest)) = .token kind n ∧
      t = ⟨kind, kind.textOf ((c.rest.drop (gap c.rest)).take n), (c.skip (gap c.rest)).position⟩ ∧
      c' = (c.skip (gap c.rest)).skip n :=
  Reading.token_eq_ok_iff

theorem front?_of_next (h : next c = .ok t c') :
    front? c.rest = some ((t.kind, t.text), c'.rest) := by
  obtain ⟨kind, n, lexed, rfl, rfl⟩ := next_eq_ok_iff.1 h
  unfold front?
  dsimp only
  rw [lexed, Cursor.rest_skip, Cursor.rest_skip]

theorem next_of_front? (h : front? c.rest = some ((kind, text), rest)) :
    ∃ t c', next c = .ok t c' ∧ (t.kind = kind ∧ t.text = text) ∧ c'.rest = rest := by
  unfold front? at h
  dsimp only at h
  split at h
  · rename_i n lexed
    cases h
    refine ⟨_, _, next_eq_ok_iff.2 ⟨_, n, lexed, rfl, rfl⟩, ⟨rfl, rfl⟩, ?_⟩
    rw [Cursor.rest_skip, Cursor.rest_skip]
  · cases h

/-- Spaces and tabs in front of a token are passed. -/
theorem front?_blanks {blanks : List Char} (h : ∀ c ∈ blanks, c = ' ' ∨ c = '\t') :
    front? (blanks ++ cs) = front? cs := by
  induction blanks with
  | nil => rfl
  | cons c blanks ih =>
    have passed : gap (c :: (blanks ++ cs)) = gap (blanks ++ cs) + 1 := by
      rw [gap, if_pos (h c List.mem_cons_self)]
    rw [← ih fun d mem => h d (List.mem_cons_of_mem c mem), List.cons_append, front?, passed]
    rfl

theorem front?_space (cs : List Char) : front? (' ' :: cs) = front? cs := rfl

theorem front?_closeParen (cs : List Char) : front? (')' :: cs) = some ((.closeParen, ")"), cs) :=
  rfl

theorem front?_newline (cs : List Char) : front? ('\n' :: cs) = some ((.newline, "\n"), cs) := rfl

/-! ### Lexemes -/

section Digit

variable {d : Char} (digit : d.isDigit = true)
include digit

theorem ne_of_isDigit {e : Char} (other : e.isDigit = false) : d ≠ e := by
  rintro rfl
  rw [digit] at other
  cases other

/-- There is no gap in front of a digit. -/
theorem gap_of_isDigit : gap (d :: cs) = 0 := by
  rw [gap, if_neg, if_neg]
  · simp [ne_of_isDigit digit (e := '/') (by decide)]
  · simp [ne_of_isDigit digit (e := ' ') (by decide), ne_of_isDigit digit (e := '\t') (by decide)]

/-- What starts with a digit is a number or a word. -/
theorem lexeme_of_isDigit : lexeme (d :: cs) = wordLexeme d cs := by
  unfold lexeme
  split
  case h_1 same => cases same
  case h_15 same =>
    cases same
    rw [if_neg]
    simp [ne_of_isDigit digit (e := '-') (by decide)]
  all_goals
    rename_i same
    cases same
    exact absurd digit (by decide)

end Digit

section Integer

variable {ds : List Char} (plain : Plain ds []) (ended : atDelimiter isWordDelimiter rest = true)
include plain ended

/-- Digits in front of a delimiter are an integer. -/
theorem lexeme_integer : lexeme (ds ++ rest) = .token .integer ds.length := by
  have stop : rest.head?.all (!Char.isDigit ·) = true := by
    cases rest with
    | nil => rfl
    | cons e rest =>
      have all : wordDelimiters.all (!Char.isDigit ·) = true := by decide
      exact List.all_eq_true.1 all e (of_decide_eq_true ended)
  have extent : integerExtent? isWordDelimiter (ds ++ rest) = some ds.length := by
    have sign := Numeral.sign_signText (r := rest) false plain
    unfold integerExtent? delimited? Numeral.readInteger?
    rw [show ds ++ rest = Number.signText false ++ (ds ++ rest) from rfl, sign]
    simp [Numeral.digits_append plain.digits stop, plain.some, ended, Number.signText]
  cases ds with
  | nil => exact absurd rfl plain.some
  | cons d ds =>
    rw [List.cons_append, lexeme_of_isDigit (plain.digits d List.mem_cons_self), wordLexeme,
      ← List.cons_append, extent]

theorem front?_integer : front? (ds ++ rest) = some ((.integer, String.ofList ds), rest) := by
  have none : gap (ds ++ rest) = 0 := by
    cases ds with
    | nil => exact absurd rfl plain.some
    | cons d ds => exact gap_of_isDigit (plain.digits d List.mem_cons_self)
  unfold front?
  rw [none]
  simp [lexeme_integer plain ended, Kind.textOf, textOf]

end Integer

theorem wordLexeme_kind {ch : Char} {n : Nat} (h : wordLexeme ch cs = .token kind n) :
    kind = .integer ∨ kind = .decimal ∨ kind = .word := by
  unfold wordLexeme at h
  split at h
  · cases h
    exact .inl rfl
  split at h
  · cases h
    exact .inr (.inl rfl)
  split at h
  · cases h
    exact .inr (.inr rfl)
  · cases h

/-- What a text starts with if a token of a kind and an extent stands there. -/
inductive Shape : List Char → Kind → Nat → Prop where
  | endOfFile : Shape [] .endOfFile 0
  | commentOpen (cs : List Char) :
    Shape ('/' :: '*' :: cs) .commentOpen (('/' :: '*' :: cs).takeWhile (!isBlank ·)).length
  | commentClose (cs : List Char) : Shape ('*' :: '/' :: cs) .commentClose 2
  | openParen (cs : List Char) : Shape ('(' :: cs) .openParen 1
  | closeParen (cs : List Char) : Shape (')' :: cs) .closeParen 1
  | openBrace (cs : List Char) : Shape ('{' :: cs) .openBrace 1
  | closeBrace (cs : List Char) : Shape ('}' :: cs) .closeBrace 1
  | equals (cs : List Char) : Shape ('=' :: cs) .equals 1
  | semicolon (cs : List Char) : Shape (';' :: cs) .semicolon 1
  | comma (cs : List Char) : Shape (',' :: cs) .comma 1
  | returnFeed (cs : List Char) : Shape ('\r' :: '\n' :: cs) .newline 2
  | carriageReturn (cs : List Char) : Shape ('\r' :: cs) .newline 1
  | lineFeed (cs : List Char) : Shape ('\n' :: cs) .newline 1
  | quoted {cs : List Char} {n : Nat} (closed : interior? cs = some n) :
    Shape ('"' :: cs) .quoted (n + 2)
  | minus {cs : List Char} (blank : cs.head?.any isBlank = true) : Shape ('-' :: cs) .minus 1
  | word {ch : Char} {cs : List Char} {kind : Kind} {n : Nat}
    (h : wordLexeme ch cs = .token kind n) : Shape (ch :: cs) kind n

/-- No token has another form. -/
theorem shape_of_lexeme {n : Nat} (h : lexeme cs = .token kind n) : Shape cs kind n := by
  unfold lexeme at h
  split at h
  case h_14 tail =>
    cases inner : interior? tail with
    | none =>
      rw [inner] at h
      cases h
    | some m =>
      rw [inner] at h
      cases h
      exact .quoted inner
  case h_15 ch tail _ _ _ _ _ _ _ _ _ _ _ _ _ =>
    split at h
    · rename_i minus
      obtain ⟨is, blank⟩ := Bool.and_eq_true_iff.1 minus
      obtain rfl : ch = '-' := of_decide_eq_true is
      cases h
      exact .minus blank
    · exact .word h
  all_goals
    cases h
    constructor

/-- Only a closing parenthesis is one. -/
theorem lexeme_closeParen {ch : Char} {n : Nat} (h : lexeme (ch :: cs) = .token .closeParen n) :
    ch = ')' := by
  cases shape_of_lexeme h with
  | closeParen => rfl
  | word word => rcases wordLexeme_kind word with is | is | is <;> cases is

/-- White space that is passed in front of a closing parenthesis is spaces and tabs. -/
theorem blanks_of_front?_closeParen {spaces : List Char} (space : ∀ c ∈ spaces, isSpace c = true)
    (h : front? (spaces ++ ')' :: cs) = some ((.closeParen, text), rest)) :
    ∀ c ∈ spaces, c = ' ' ∨ c = '\t' := by
  induction spaces with
  | nil => exact nofun
  | cons c spaces ih =>
    by_cases blank : c = ' ' ∨ c = '\t'
    · have passed : front? ([c] ++ (spaces ++ ')' :: cs)) = front? (spaces ++ ')' :: cs) :=
        front?_blanks (by simpa using blank)
      intro d mem
      rcases List.mem_cons.1 mem with rfl | mem
      · exact blank
      · exact ih (fun d mem => space d (List.mem_cons_of_mem c mem)) (passed.symm.trans h) d mem
    · have visible := space c List.mem_cons_self
      have noComment : c ≠ '/' := by
        rintro rfl
        exact absurd visible (by decide)
      have noGap : gap (c :: (spaces ++ ')' :: cs)) = 0 := by
        rw [gap, if_neg blank, if_neg]
        simp [noComment]
      unfold front? at h
      rw [List.cons_append, noGap] at h
      dsimp only [List.drop_zero] at h
      split at h
      · rename_i kind n lexed
        cases h
        rw [lexeme_closeParen lexed] at visible
        exact absurd visible (by decide)
      · cases h

/-! ### Single tokens -/

section Readers

variable {kinds : List Kind}

/-- A token of one of the kinds has been read. -/
theorem next_of_nextOf (h : nextOf kinds c = .ok t c') : next c = .ok t c' ∧ t.kind ∈ kinds := by
  obtain ⟨t', c₁, read, h⟩ := bind_eq_ok_iff.1 h
  unfold expect at h
  split at h
  · rename_i among
    obtain ⟨rfl, rfl⟩ := pure_eq_ok_iff.1 h
    exact ⟨read, of_decide_eq_true among⟩
  · cases h

theorem reads_expect (mem : kind ∈ kinds) (is : t.kind = kind ∧ t.text = text) :
    Reads (expect kinds t) cs (fun t => t.kind = kind ∧ t.text = text) cs := by
  have among : t.isOneOf kinds = true := by
    rw [isOneOf, is.1]
    exact decide_eq_true mem
  rw [expect, if_pos among]
  exact .pure is

variable (front : front? cs = some ((kind, text), rest))
include front

theorem reads_next : Reads next cs (fun t => t.kind = kind ∧ t.text = text) rest := by
  intro c here
  rw [← here] at front
  exact next_of_front? front

theorem reads_peek : Reads peek cs (fun t => t.kind = kind ∧ t.text = text) cs :=
  (reads_next front).ahead

theorem reads_nextOf (mem : kind ∈ kinds) :
    Reads (nextOf kinds) cs (fun t => t.kind = kind ∧ t.text = text) rest :=
  (reads_next front).bind fun _ is => reads_expect mem is

theorem reads_peekOf (mem : kind ∈ kinds) :
    Reads (peekOf kinds) cs (fun t => t.kind = kind ∧ t.text = text) cs :=
  (reads_peek front).bind fun _ is => reads_expect mem is

/-- In front of another token there are no line breaks to pass. -/
theorem reads_skipNewlines (other : kind ≠ .newline) : Reads skipNewlines cs (fun _ => True) cs := by
  refine Reads.imp (Reads.iterate ?_) fun _ _ => trivial
  refine (reads_peek front).bind fun t is => ?_
  rw [if_neg (is.1 ▸ other)]
  exact .pure rfl

theorem reads_peekPastNewlines (other : kind ≠ .newline) :
    Reads peekPastNewlines cs (fun t => t.kind = kind ∧ t.text = text) cs :=
  (reads_skipNewlines front other).bind fun _ _ => reads_peek front

theorem reads_nextOfPastNewlines (other : kind ≠ .newline) (mem : kind ∈ kinds) :
    Reads (nextOfPastNewlines kinds) cs (fun t => t.kind = kind ∧ t.text = text) rest :=
  (reads_skipNewlines front other).bind fun _ _ => reads_nextOf front mem

/-- A token of no kind that is expected is a failure. -/
theorem nextOf_eq_error (here : c.rest = cs) (other : kind ∉ kinds) :
    ∃ failure c', nextOf kinds c = .error failure c' := by
  obtain ⟨t, c', read, is, -⟩ := reads_next front c here
  have among : t.isOneOf kinds = false := by
    rw [isOneOf, is.1]
    exact decide_eq_false other
  refine ⟨mismatch kinds t, c', ?_⟩
  unfold nextOf
  rw [bind_of_ok read, expect, among]
  rfl

end Readers

end Quaked.Token
