import Quaked.Proofs.Selector.Derivation
import Quaked.Proofs.Selector.Source
import Quaked.Proofs.Text.Lexeme
import Quaked.Selector.Lexer
import Quaked.Text.Extent

/-!
# Tokens at the front of a text

What a token says depends on the characters in front of the cursor alone, and on no more of them than
its own and the one behind. `front?` is the reading of one token on lists of characters, `Lexes` that
of several, and a cursor reads the same tokens up to their positions (`Yields.lexes`,
`Lexes.yields`).

* `lexeme_append`: a token stays what it is if a character follows that no token goes on with
  (`endsToken`).
* `Lexes.extend`: so do several.
* `all_eq_iff`: a run up to the end is what the tokens of a text are.
-/

namespace Quaked

open Text

/-! ### Characters -/

namespace Text

variable {c : Char}

theorem isNumeral_of_isDigit (h : c.isDigit = true) : isNumeral c = true := by
  have range : 48 ≤ c.toNat ∧ c.toNat ≤ 57 := by
    simpa [Char.isDigit, UInt32.le_iff_toNat_le] using h
  have ascii := isNumeral_ascii ⟨c.toNat, by omega⟩
  rw [Char.ofNat_toNat] at ascii
  rw [ascii, h]

end Text

namespace Selector.Token

/-- Whether no token goes on with a character. -/
def endsToken (c : Char) : Bool := !continuesName c && c ∉ ['.', '>', '=', '&', '|']

variable {c : Char} {cs r : List Char} {kind : Kind} {n : Nat}

theorem isDigit_of_endsToken (h : endsToken c = true) : c.isDigit = false := by
  cases digit : c.isDigit with
  | false => rfl
  | true => simp [endsToken, continuesName, isNumeral_of_isDigit digit] at h

/-- What can start a name can go on with it. -/
theorem continuesName_of_startsName (h : startsName c = true) : continuesName c = true := by
  simp only [startsName, continuesName, Bool.or_eq_true] at *
  rcases h with letter | underscore
  · exact .inl (.inl letter)
  · exact .inr underscore

/-! ### Extents -/

section Digits

theorem atDelimiter_digits (ended : atDelimiter endsToken r = true) :
    r.head?.all (!Char.isDigit ·) = true := by
  cases r with
  | nil => rfl
  | cons c r => simpa using isDigit_of_endsToken (by simpa [atDelimiter] using ended)

theorem digitExtent_append (ended : atDelimiter endsToken r = true) :
    digitExtent (cs ++ r) = digitExtent cs := by
  rw [digitExtent, takeWhile_append_of_head (atDelimiter_digits ended), digitExtent]

/-- A number goes on with a point only if the point goes on with a digit. -/
theorem numberExtent_append (ended : atDelimiter endsToken r = true) :
    numberExtent (cs ++ r) = numberExtent cs := by
  have digits := atDelimiter_digits ended
  unfold numberExtent
  rw [dropWhile_append_of_head digits, digitExtent_append ended]
  cases cs.dropWhile Char.isDigit with
  | nil =>
    cases r with
    | nil => rfl
    | cons c r =>
      have noPoint : c ≠ '.' := by
        rintro rfl
        simp [atDelimiter, endsToken] at ended
      simp [noPoint]
  | cons c tail =>
    by_cases point : c = '.'
    · subst point
      simp only [List.cons_append, head?_any_append digits, digitExtent_append ended]
    · simp [point]

theorem numberExtent_of_point {tail : List Char} (behind : cs.dropWhile Char.isDigit = '.' :: tail)
    (digit : tail.head?.any Char.isDigit = true) :
    numberExtent cs = digitExtent cs + 1 + digitExtent tail := by
  unfold numberExtent
  rw [behind]
  exact if_pos digit

theorem numberExtent_of_no_point
    (behind : ∀ tail, cs.dropWhile Char.isDigit = '.' :: tail → ¬ tail.head?.any Char.isDigit = true) :
    numberExtent cs = digitExtent cs := by
  unfold numberExtent
  split
  · rename_i tail same
    exact if_neg (behind tail same)
  · rfl

theorem digitExtent_le_numberExtent : digitExtent cs ≤ numberExtent cs := by
  unfold numberExtent
  split
  · split <;> omega
  · exact Nat.le_refl _

theorem digitExtent_le : digitExtent cs ≤ cs.length := length_takeWhile_le

theorem numberExtent_le : numberExtent cs ≤ cs.length := by
  have parts := congrArg List.length (List.takeWhile_append_dropWhile (p := Char.isDigit) (l := cs))
  rw [List.length_append] at parts
  unfold numberExtent
  split
  · rename_i tail after
    have : digitExtent tail ≤ tail.length := digitExtent_le
    rw [after, List.length_cons] at parts
    unfold digitExtent at *
    split <;> omega
  · unfold digitExtent
    omega

theorem numberExtent_pos (digit : c.isDigit = true) : 0 < numberExtent (c :: cs) := by
  have : 0 < digitExtent (c :: cs) := by simp [digitExtent, digit]
  unfold numberExtent
  split
  · split <;> omega
  · exact this

end Digits

/-! ### Lexemes -/

/-- A mark depends on two characters at most. -/
theorem markLexeme_cons_cons (c d : Char) (cs r : List Char) :
    markLexeme (c :: d :: cs) = markLexeme (c :: d :: r) := by
  generalize same : c :: d :: cs = text
  fun_cases markLexeme text <;> cases same <;> simp_all [markLexeme]

/-- A mark does not change if no mark goes on with the next character. -/
theorem markLexeme_append (c : Char) (ended : atDelimiter endsToken r = true) :
    markLexeme (c :: cs ++ r) = markLexeme (c :: cs) := by
  cases cs with
  | cons d cs => exact markLexeme_cons_cons c d (cs ++ r) cs
  | nil =>
    cases r with
    | nil => rfl
    | cons d r =>
      have other : d ≠ '>' ∧ d ≠ '=' ∧ d ≠ '&' ∧ d ≠ '|' := by
        simp [atDelimiter, endsToken] at ended
        simp [ended]
      show markLexeme (c :: d :: r) = _
      generalize same : c :: d :: r = text
      fun_cases markLexeme text <;> cases same <;> simp_all [markLexeme]

theorem markLexeme_extent (h : markLexeme cs = .token kind n) (more : kind ≠ .endOfInput) :
    0 < n ∧ n ≤ cs.length := by
  fun_cases markLexeme cs <;> simp_all [markLexeme] <;> omega

/-- A word is a name, or a literal that has a word. -/
theorem ofWord_mem (word : List Char) : Kind.ofWord word ∈ [.name, .boolean, .null] := by
  unfold Kind.ofWord
  split
  · decide
  · split <;> decide

theorem ofWord_ne_endOfInput (word : List Char) : Kind.ofWord word ≠ .endOfInput := by
  intro is
  have word := ofWord_mem word
  rw [is] at word
  exact absurd word (by decide)

/-- A token other than the end has characters, and all of them stand in the text. -/
theorem lexeme_extent (h : lexeme cs = .token kind n) (more : kind ≠ .endOfInput) :
    0 < n ∧ n ≤ cs.length := by
  cases cs with
  | nil =>
    cases h
    exact absurd rfl more
  | cons c cs =>
    rw [lexeme] at h
    by_cases quote : c = '"'
    · rw [if_pos quote] at h
      cases inner : interior? cs with
      | none => simp [inner] at h
      | some m =>
        have := interior?_le inner
        simp only [inner, Lexeme.token.injEq] at h
        simp only [List.length_cons]
        omega
    rw [if_neg quote] at h
    by_cases digit : c.isDigit = true
    · rw [if_pos digit] at h
      cases h
      exact ⟨numberExtent_pos digit, numberExtent_le⟩
    rw [if_neg digit] at h
    by_cases minus : (c = '-' && cs.head?.any Char.isDigit) = true
    · rw [if_pos minus] at h
      cases h
      exact ⟨Nat.succ_pos _, Nat.succ_le_succ numberExtent_le⟩
    rw [if_neg minus] at h
    by_cases name : startsName c = true
    · rw [if_pos name] at h
      cases h
      refine ⟨?_, length_takeWhile_le⟩
      simp [continuesName_of_startsName name]
    · rw [if_neg name] at h
      exact markLexeme_extent h more

/-- The end of the input stands where nothing is left. -/
theorem nil_of_lexeme (h : lexeme cs = .token .endOfInput n) : cs = [] := by
  cases cs with
  | nil => rfl
  | cons c cs =>
    rw [lexeme] at h
    split at h
    · split at h <;> cases h
    split at h
    · cases h
    split at h
    · cases h
    split at h
    · simp only [Lexeme.token.injEq] at h
      exact absurd h.1 (ofWord_ne_endOfInput _)
    · unfold markLexeme at h
      split at h
      case h_23 same => cases same
      all_goals cases h

/-- A token does not change if no token goes on with the character behind it. -/
theorem lexeme_append (h : lexeme cs = .token kind n) (more : kind ≠ .endOfInput)
    (ended : atDelimiter endsToken r = true) : lexeme (cs ++ r) = .token kind n := by
  cases cs with
  | nil =>
    cases h
    exact absurd rfl more
  | cons c cs =>
    have names : r.head?.all (!continuesName ·) = true := by
      cases r with
      | nil => rfl
      | cons d r =>
        simp only [atDelimiter, endsToken, List.head?_cons, Option.all_some, Bool.and_eq_true] at *
        exact ended.1
    rw [List.cons_append]
    rw [lexeme] at h ⊢
    rw [head?_any_append (atDelimiter_digits ended), ← List.cons_append, numberExtent_append ended,
      numberExtent_append ended, takeWhile_append_of_head names, markLexeme_append c ended]
    by_cases quote : c = '"'
    · rw [if_pos quote] at h ⊢
      cases inner : interior? cs with
      | none => simp [inner] at h
      | some m => simpa [interior?_append inner, inner] using h
    · rw [if_neg quote] at h ⊢
      exact h

/-! ### One token -/

/-- The wording of the next token of a text, and what is left behind it. -/
def front? (cs : List Char) : Option ((Kind × String) × List Char) :=
  let start := cs.dropWhile isSpace
  match lexeme start with
  | .token kind extent => some ((kind, kind.textOf (start.take extent)), start.drop extent)
  | _ => none

theorem front?_eq_some_iff {text : String} {rest : List Char} :
    front? cs = some ((kind, text), rest) ↔
      ∃ n, lexeme (cs.dropWhile isSpace) = .token kind n ∧
        text = kind.textOf ((cs.dropWhile isSpace).take n) ∧
        rest = (cs.dropWhile isSpace).drop n := by
  unfold front?
  dsimp only
  cases lexed : lexeme (cs.dropWhile isSpace) with
  | token kind' n =>
    constructor
    · intro h
      cases h
      exact ⟨n, rfl, rfl, rfl⟩
    · rintro ⟨n, same, rfl, rfl⟩
      cases same
      rfl
  | unexpected c => simp
  | unterminated => simp

/-- What a cursor reads is the token at the front of what is left. -/
theorem next_eq_ok_iff {c c' : Cursor} {t : Token} :
    next c = .ok t c' ↔ ∃ n, lexeme (c.rest.dropWhile isSpace) = .token t.kind n ∧
      t = ⟨t.kind, t.kind.textOf ((c.rest.dropWhile isSpace).take n),
        (c.skip (c.run isSpace)).position⟩ ∧
      c' = (c.skip (c.run isSpace)).skip n := by
  rw [← Cursor.rest_skip_run, Cursor.rest_skip]
  constructor
  · intro h
    obtain ⟨kind, n, lexed, rfl, rfl⟩ := Reading.token_eq_ok_iff.1 h
    exact ⟨n, lexed, rfl, rfl⟩
  · rintro ⟨n, lexed, is, rfl⟩
    exact Reading.token_eq_ok_iff.2 ⟨t.kind, n, lexed, is, rfl⟩

theorem front?_of_next {c c' : Cursor} {t : Token} (h : next c = .ok t c') :
    front? c.rest = some (t.wording, c'.rest) := by
  obtain ⟨n, lexed, is, rfl⟩ := next_eq_ok_iff.1 h
  refine front?_eq_some_iff.2 ⟨n, lexed, ?_, ?_⟩
  · exact congrArg Token.text is
  · rw [Cursor.rest_skip, Cursor.rest_skip_run]

theorem next_of_front? {c : Cursor} {wording : Kind × String} {rest : List Char}
    (h : front? c.rest = some (wording, rest)) :
    ∃ t c', next c = .ok t c' ∧ t.wording = wording ∧ c'.rest = rest := by
  obtain ⟨kind, text⟩ := wording
  obtain ⟨n, lexed, rfl, rfl⟩ := front?_eq_some_iff.1 h
  refine ⟨⟨kind, _, _⟩, _, next_eq_ok_iff.2 ⟨n, lexed, rfl, rfl⟩, rfl, ?_⟩
  rw [Cursor.rest_skip, Cursor.rest_skip_run]

/-- The token at the front of a text stays where it is if no token goes on with what follows the
text. -/
theorem front?_append {wording : Kind × String} {rest : List Char}
    (h : front? cs = some (wording, rest)) (more : wording.1 ≠ .endOfInput)
    (ended : atDelimiter endsToken r = true) : front? (cs ++ r) = some (wording, rest ++ r) := by
  obtain ⟨kind, text⟩ := wording
  obtain ⟨n, lexed, rfl, rfl⟩ := front?_eq_some_iff.1 h
  have bound := (lexeme_extent lexed more).2
  have positive := (lexeme_extent lexed more).1
  have start : (cs ++ r).dropWhile isSpace = cs.dropWhile isSpace ++ r := by
    rw [List.dropWhile_append, if_neg]
    intro empty
    rw [List.isEmpty_iff.1 empty] at bound
    simp only [List.length_nil] at bound
    omega
  refine front?_eq_some_iff.2 ⟨n, ?_, ?_, ?_⟩
  · rw [start, lexeme_append lexed more ended]
  · rw [start, List.take_append_of_le_length bound]
  · rw [start, List.drop_append_of_le_length bound]

end Selector.Token

namespace Selector

open TokenSource Selector.Token

/-- A token other than the end has characters, so a cursor that reads it moves. -/
instance : LawfulTokenSource Cursor where
  unread_next {c c' t} read more := by
    obtain ⟨n, lexed, -, rfl⟩ := next_eq_ok_iff.1 read
    obtain ⟨positive, bound⟩ := lexeme_extent lexed more
    have shorter := (List.dropWhile_suffix isSpace (l := c.rest)).length_le
    show Cursor.unread _ < Cursor.unread _
    rw [Cursor.unread_skip, Cursor.unread, Cursor.rest_skip_run, Cursor.unread]
    omega

/-! ### Several tokens -/

/-- The tokens of the given wordings, none of them the end, are read one after the other. -/
inductive Lexes : List Char → List (Kind × String) → List Char → Prop where
  | nil (cs : List Char) : Lexes cs [] cs
  | cons {cs cs' rest : List Char} {w : Kind × String} {ws : List (Kind × String)}
      (front : front? cs = some (w, cs')) (more : w.1 ≠ .endOfInput) (tail : Lexes cs' ws rest) :
      Lexes cs (w :: ws) rest

variable {cs cs' rest r : List Char} {ws vs : List (Kind × String)} {w : Kind × String}

namespace Lexes

/-- One token. -/
theorem single (front : front? cs = some (w, rest)) (more : w.1 ≠ .endOfInput) :
    Lexes cs [w] rest := .cons front more (.nil rest)

theorem append (first : Lexes cs ws cs') (second : Lexes cs' vs rest) :
    Lexes cs (ws ++ vs) rest := by
  induction first with
  | nil cs => exact second
  | cons front more tail ih => exact .cons front more (ih second)

/-- Tokens stay where they are if no token goes on with what follows the text. -/
theorem extend (h : Lexes cs ws rest) (ended : atDelimiter endsToken r = true) :
    Lexes (cs ++ r) ws (rest ++ r) := by
  induction h with
  | nil cs => exact .nil _
  | cons front more tail ih => exact .cons (front?_append front more ended) more ih

/-- A cursor in front of the text reads the tokens. -/
theorem yields (h : Lexes cs ws rest) {c : Cursor} (here : c.rest = cs) :
    ∃ ts c', Yields c ts c' ∧ ts.map Token.wording = ws ∧ c'.rest = rest := by
  induction h generalizing c with
  | nil cs => exact ⟨[], c, .nil c, rfl, here⟩
  | cons front more tail ih =>
    rw [← here] at front
    obtain ⟨t, c₁, read, rfl, here'⟩ := next_of_front? front
    obtain ⟨ts, c', run, rfl, left⟩ := ih here'
    exact ⟨t :: ts, c', .cons read more run, rfl, left⟩

end Lexes

/-- What a cursor has read are the tokens of the text in front of it. -/
theorem Yields.lexes {c c' : Cursor} {ts : List Token} (h : Yields c ts c') :
    Lexes c.rest (ts.map Token.wording) c'.rest := by
  induction h with
  | nil c => exact .nil _
  | cons read more rest ih => exact .cons (front?_of_next read) more ih

/-- The tokens of a text are a run up to the end, if no failure cuts it short. -/
theorem all_eq_iff {c : Cursor} {ts : List Token} {t : Token} :
    Reading.all Token.next (·.kind = .endOfInput) c = (ts ++ [t], none) ∧ t.kind = .endOfInput ↔
      ∃ c₁ c₂, Yields c ts c₁ ∧ Token.next c₁ = .ok t c₂ ∧ t.kind = .endOfInput := by
  constructor
  · rintro ⟨h, last⟩
    induction ts generalizing c with
    | nil =>
      rw [Reading.all] at h
      split at h
      · cases h
      · rename_i u c' read
        split at h
        · cases h
          exact ⟨c, c', .nil c, read, last⟩
        · rename_i more
          split at h
          · simp only [List.nil_append, Prod.mk.injEq, List.cons.injEq] at h
            rw [← h.1.1] at last
            simp [last] at more
          · cases h
            simp [last] at more
    | cons u ts ih =>
      rw [Reading.all] at h
      split at h
      · cases h
      · rename_i u' c' read
        split at h
        · simp at h
        · rename_i more
          have more : u'.kind ≠ .endOfInput := by simpa using more
          have less : c'.unread < c.unread := LawfulTokenSource.unread_next (σ := Cursor) read more
          rw [if_pos less] at h
          simp only [List.cons_append, Prod.mk.injEq, List.cons.injEq] at h
          obtain ⟨⟨rfl, tail⟩, none⟩ := h
          obtain ⟨c₁, c₂, run, rest⟩ := ih (Prod.ext tail none)
          exact ⟨c₁, c₂, .cons read more run, rest⟩
  · rintro ⟨c₁, c₂, run, read, last⟩
    refine ⟨?_, last⟩
    induction run with
    | nil c =>
      rw [Reading.all, read]
      simp [last]
    | cons read' more rest ih =>
      have less : Cursor.unread _ < Cursor.unread _ := LawfulTokenSource.unread_next read' more
      rw [Reading.all]
      simp only [show Token.next _ = _ from read', decide_eq_true_eq, if_neg more, if_pos less,
        ih read, List.cons_append]

end Selector
end Quaked
