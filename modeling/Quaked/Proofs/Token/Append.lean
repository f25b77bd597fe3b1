import Quaked.Proofs.Token.Tiling

/-!
# Tokens in front of other text

A token is made by looking at the characters behind the cursor, so what follows a text could change
the tokens of the text. It does not where a token ends before the text does, and not where the text
ends in a line feed: only there the last token is complete whatever follows.

* `wordLexeme_append`, `lexeme_append`, `gap_append`: what is looked at.
* `Continued.stands`, `Continued.run`: reading tokens at a cursor that has more to read.
-/

namespace Quaked.Token

open Text

variable {cs r : List Char} {kind : Kind} {n : Nat}

/-! ### Characters -/

/-- The first `n` characters are looked at in the same way whatever follows the text: it goes on behind
them, or ends in a line feed. -/
def Settled (cs : List Char) (n : Nat) : Prop := n < cs.length ∨ cs.getLast? = some '\n'

/-- A run of characters without line feeds ends within a text that is settled. -/
theorem takeWhile_append_of_settled {p : Char → Bool} (noFeed : p '\n' = false)
    (h : Settled cs (cs.takeWhile p).length) : (cs ++ r).takeWhile p = cs.takeWhile p := by
  rw [List.takeWhile_append, if_neg]
  intro whole
  rcases h with less | feed
  · exact absurd whole (Nat.ne_of_lt less)
  · have same : cs.takeWhile p = cs := (List.takeWhile_prefix p).eq_of_length whole
    have all := List.takeWhile_eq_self_iff.1 same '\n' (List.mem_of_getLast? feed)
    rw [noFeed] at all
    cases all

/-- How far a number or a word reaches is settled by the first delimiter. -/
theorem extent_append {extent? : List Char → Option Nat}
    (append : ∀ w v, atDelimiter isWordDelimiter v = true → extent? (w ++ v) = extent? w)
    {d : Char} (mem : d ∈ cs) (delimiter : isWordDelimiter d = true) :
    extent? (cs ++ r) = extent? cs := by
  have split := List.takeWhile_append_dropWhile (p := (!isWordDelimiter ·)) (l := cs)
  have some : cs.dropWhile (!isWordDelimiter ·) ≠ [] := by
    intro none
    have other := List.dropWhile_eq_nil_iff.1 none d mem
    rw [delimiter] at other
    cases other
  have stop := List.head?_dropWhile_not (!isWordDelimiter ·) cs
  generalize cs.takeWhile (!isWordDelimiter ·) = w, cs.dropWhile (!isWordDelimiter ·) = v at *
  cases v with
  | nil => exact absurd rfl some
  | cons e v =>
    have ended : isWordDelimiter e = true := by simpa using stop
    rw [← split, List.append_assoc, append w (e :: v) ended, append w (e :: v ++ r) ended]

/-- No numeral goes on with a delimiter. -/
theorem not_goesOn_of_delimiter (ended : atDelimiter isWordDelimiter r = true) :
    r.head?.all (!Numeral.goesOn ·) = true := by
  cases r with
  | nil => rfl
  | cons c r =>
    have none : wordDelimiters.all (!Numeral.goesOn ·) = true := by decide
    exact List.all_eq_true.1 none c (of_decide_eq_true ended)

/-- A number or a word with a delimiter behind it is what it is whatever follows the delimiter. -/
theorem wordLexeme_append {ch d : Char} (mem : d ∈ ch :: cs) (delimiter : isWordDelimiter d = true) :
    wordLexeme ch (cs ++ r) = wordLexeme ch cs := by
  have integer : integerExtent? isWordDelimiter (ch :: (cs ++ r)) = _ :=
    extent_append (fun w _ ended => delimited?_append
      (Numeral.readInteger?_append (not_goesOn_of_delimiter ended) w) ended) mem delimiter
  have decimal : decimalExtent? isWordDelimiter (ch :: (cs ++ r)) = _ :=
    extent_append (fun w _ ended => delimited?_append
      (Numeral.read?_append (not_goesOn_of_delimiter ended) w) ended) mem delimiter
  have word : wordExtent? isWordDelimiter (ch :: (cs ++ r)) = _ :=
    extent_append (fun _ _ ended => wordExtent?_append ended) mem delimiter
  unfold wordLexeme
  rw [integer, decimal, word]
  rfl

/-- No token reaches further than the text. -/
theorem extent_le (h : lexeme cs = .token kind n) : n ≤ cs.length := by
  cases shape_of_lexeme h with
  | endOfFile => exact Nat.le_refl 0
  | commentOpen tail => exact length_takeWhile_le
  | quoted closed =>
    have := interior?_le closed
    simp only [List.length_cons]
    omega
  | word word =>
    rcases (wordLexeme_extent word).2 with ⟨-, extent⟩ | ⟨-, extent⟩ | ⟨-, extent⟩
    · exact (of_integerExtent? extent).2.1
    · exact (of_decimalExtent? extent).2.1
    · rw [(of_wordExtent? extent).2]
      exact length_takeWhile_le
  | _ => simp

/-- A character by itself that is a settled token is a line feed. -/
theorem feed_of_settled {ch : Char} (h : lexeme [ch] = .token kind n) (settled : Settled [ch] n) :
    ch = '\n' := by
  rcases settled with less | feed
  · have more : kind ≠ .endOfFile := by
      rintro rfl
      cases (lexeme_endOfFile h).1
    exact absurd (lexeme_extent h more).1 (Nat.not_lt.2 (Nat.lt_succ_iff.1 less))
  · exact Option.some.inj feed

/-- A number or a word that is settled has a delimiter behind it. -/
theorem delimiter_of_settled {ch : Char} (h : wordLexeme ch cs = .token kind n)
    (settled : Settled (ch :: cs) n) : ∃ d ∈ ch :: cs, isWordDelimiter d = true := by
  rcases settled with less | feed
  · rcases (wordLexeme_extent h).2 with ⟨-, extent⟩ | ⟨-, extent⟩ | ⟨-, extent⟩
    · exact delimiter_of_delimited? Numeral.takes_readInteger? extent less
    · exact delimiter_of_delimited? Numeral.takes_read? extent less
    · rw [(of_wordExtent? extent).2] at less
      by_contra none
      have all : (ch :: cs).takeWhile (!isWordDelimiter ·) = ch :: cs := by
        refine List.takeWhile_eq_self_iff.2 fun d mem => ?_
        simpa using fun delimiter => none ⟨d, mem, delimiter⟩
      rw [all] at less
      exact Nat.lt_irrefl _ less
  · exact ⟨'\n', List.mem_of_getLast? feed, by decide⟩

/-- A carriage return is a line break of its own in front of another character than a line feed. -/
theorem lexeme_carriageReturn {d : Char} (tail : List Char) (other : d ≠ '\n') :
    lexeme ('\r' :: d :: tail) = .token .newline 1 := by
  unfold lexeme
  split
  case h_12 => rfl
  case h_15 noReturn _ _ same =>
    cases same
    exact absurd rfl noReturn
  all_goals
    rename_i same
    cases same
  exact absurd rfl other

/-- What starts with no mark, nor with the opening or the end of a comment, is a minus in front of a blank,
a number or a word. -/
theorem lexeme_cons_cons {ch d : Char} (tail : List Char)
    (noMark : ch ∉ ['(', ')', '{', '}', '=', ';', ',', '\r', '\n', '"'])
    (noComment : ¬ (ch = '/' ∧ d = '*') ∧ ¬ (ch = '*' ∧ d = '/')) :
    lexeme (ch :: d :: tail) =
      if ch = '-' && isBlank d then .token .minus 1 else wordLexeme ch (d :: tail) := by
  unfold lexeme
  split
  case h_1 same => cases same
  case h_2 same =>
    cases same
    exact absurd ⟨rfl, rfl⟩ noComment.1
  case h_3 same =>
    cases same
    exact absurd ⟨rfl, rfl⟩ noComment.2
  case h_15 same =>
    cases same
    rfl
  all_goals
    rename_i same
    cases same
    exact absurd (by decide) noMark

/-- A settled token is the same whatever follows the text. -/
theorem lexeme_append (h : lexeme cs = .token kind n) (settled : Settled cs n) :
    lexeme (cs ++ r) = .token kind n := by
  have alone {ch : Char} (is : cs = [ch]) : ch = '\n' := by
    subst is
    exact feed_of_settled h settled
  unfold lexeme at h
  split at h
  case h_1 =>
    rcases settled with less | feed
    · cases less
    · cases feed
  case h_2 tail =>
    cases h
    show Lexeme.token Kind.commentOpen
      (('/' :: '*' :: tail ++ r).takeWhile (!isBlank ·)).length = _
    rw [takeWhile_append_of_settled (by decide) settled]
  case h_12 tail noFeed =>
    cases tail with
    | nil => exact absurd (alone rfl) (by decide)
    | cons d tail =>
      rw [← h]
      exact lexeme_carriageReturn _ fun feed => noFeed tail (feed ▸ rfl)
  case h_14 tail =>
    cases inner : interior? tail with
    | none =>
      rw [inner] at h
      cases h
    | some m =>
      rw [inner] at h
      rw [List.cons_append, lexeme_quote, interior?_append inner]
      exact h
  case h_15 ch tail _ _ _ _ _ _ _ _ _ _ _ noFeed _ =>
    cases tail with
    | nil => exact absurd (alone rfl) noFeed
    | cons d tail =>
      have noMark : ch ∉ ['(', ')', '{', '}', '=', ';', ',', '\r', '\n', '"'] := by
        clear h settled alone
        simp_all
      have noComment : ¬ (ch = '/' ∧ d = '*') ∧ ¬ (ch = '*' ∧ d = '/') := by
        clear h settled alone noMark
        simp_all
      change (if ch = '-' && isBlank d then _ else wordLexeme ch (d :: tail)) = _ at h
      rw [List.cons_append, List.cons_append, lexeme_cons_cons _ noMark noComment, ← h]
      split
      · rfl
      · rename_i noMinus
        rw [if_neg noMinus] at h
        obtain ⟨e, mem, delimiter⟩ := delimiter_of_settled h settled
        exact wordLexeme_append mem delimiter
  all_goals
    cases h
    rfl

/-! ### Gaps -/

theorem gap_cons_eq_zero_iff {ch : Char} :
    gap (ch :: cs) = 0 ↔ ¬ (ch = ' ' ∨ ch = '\t') ∧ ¬ (ch = '/' ∧ cs.head? = some '/') := by
  rw [gap]
  by_cases blank : ch = ' ' ∨ ch = '\t'
  · simp [blank]
  by_cases comment : ch = '/' ∧ cs.head? = some '/'
  · rw [comment.1]
    simp [comment.2, isLineBreak]
  · simp [blank, comment]

theorem Gap.append {gap rest : List Char} (h : Gap gap rest) (some : rest ≠ []) :
    Gap gap (rest ++ r) := by
  induction h with
  | nil rest => exact .nil _
  | blank blank _ ih => exact (ih some).blank blank
  | @comment remark rest within behind =>
    refine .comment within ?_
    cases rest with
    | nil => exact absurd rfl some
    | cons ch rest => exact behind

/-- A gap ends in front of a character whatever follows it, unless the character is a slash that may
have a second one behind it. -/
theorem gap_append (some : cs.drop (gap cs) ≠ []) (noSlash : cs.drop (gap cs) ≠ ['/']) :
    gap (cs ++ r) = gap cs := by
  have between := (gap_take cs).append (r := r) some
  have within : gap cs ≤ cs.length := by
    by_contra beyond
    exact some (List.drop_eq_nil_iff.2 (Nat.le_of_not_le beyond))
  have stop : gap (cs.drop (gap cs) ++ r) = 0 := by
    have stop := gap_drop_gap cs
    generalize cs.drop (gap cs) = left at *
    cases left with
    | nil => exact absurd rfl some
    | cons ch tail =>
      obtain ⟨noBlank, noComment⟩ := gap_cons_eq_zero_iff.1 stop
      refine gap_cons_eq_zero_iff.2 ⟨noBlank, ?_⟩
      cases tail with
      | nil =>
        rintro ⟨rfl, -⟩
        exact noSlash rfl
      | cons d tail => exact noComment
  have length := between.eq_length stop
  rwa [← List.append_assoc, List.take_append_drop, List.length_take_of_le within] at length

/-! ### Cursors -/

/-- Both cursors are at the same position, and `r` follows what is left at the first one. -/
structure Continued (r : List Char) (c d : Cursor) : Prop where
  position : d.position = c.position
  rest : d.rest = c.rest ++ r

/-- No gap ends in a line feed. -/
theorem Gap.eq_nil_of_lined {gap rest : List Char} (h : Gap gap rest) (lined : Lined gap) :
    gap = [] := by
  have noFeed : ∀ ch ∈ gap, ch ≠ '\n' := by
    clear lined
    induction h with
    | nil => exact nofun
    | blank blank _ ih =>
      refine List.forall_mem_cons.2 ⟨?_, ih⟩
      rintro rfl
      exact absurd blank (by decide)
    | comment within _ =>
      refine List.forall_mem_cons.2 ⟨by decide, List.forall_mem_cons.2 ⟨by decide, ?_⟩⟩
      rintro ch mem rfl
      exact absurd (within _ mem) (by decide)
  cases last : gap.getLast? with
  | none => exact List.getLast?_eq_none_iff.1 last
  | some ch => exact absurd (lined ch last) (noFeed ch (List.mem_of_getLast? last))

namespace Continued

variable {c d c' : Cursor} {t : Token} {ts : List Token}

/-- Only behind a carriage return it matters what follows. -/
theorem endsLine_append {ch : Char} (h : cs ≠ [] ∨ ch ≠ '\r') :
    endsLine ch (cs ++ r) = endsLine ch cs := by
  cases cs with
  | nil =>
    have noReturn : ch ≠ '\r' := h.resolve_left (absurd rfl)
    simp [endsLine, noReturn]
  | cons d cs => rfl

theorem advance (h : Continued r c d) {ch : Char} (left : c.rest = ch :: cs)
    (noReturn : cs ≠ [] ∨ ch ≠ '\r') : Continued r c.advance d.advance := by
  have left' : d.rest = ch :: (cs ++ r) := by rw [h.rest, left, List.cons_append]
  constructor
  · unfold Cursor.advance
    rw [left, left']
    dsimp only
    rw [h.position, Position.after, endsLine_append noReturn, Position.after]
  · rw [Cursor.rest_advance, Cursor.rest_advance, left, left']
    rfl

/-- Skipping leads to the same position, except behind a carriage return that a line feed may
follow. -/
theorem skip (h : Continued r c d) (within : n ≤ c.rest.length)
    (noReturn : n < c.rest.length ∨ c.rest.getLast? ≠ some '\r') :
    Continued r (c.skip n) (d.skip n) := by
  induction n generalizing c d with
  | zero => exact h
  | succ n ih =>
    cases left : c.rest with
    | nil =>
      rw [left] at within
      cases within
    | cons ch cs =>
      rw [left, List.length_cons] at within noReturn
      have next : c.advance.rest = cs := by rw [Cursor.rest_advance, left, List.tail_cons]
      refine ih (h.advance left ?_) ?_ ?_
      · cases cs with
        | nil =>
          refine .inr fun carriage => ?_
          rw [carriage] at noReturn
          rcases noReturn with less | other
          · exact absurd less (by simp)
          · exact other rfl
        | cons e cs => exact .inl (List.cons_ne_nil e cs)
      · rw [next]
        exact Nat.le_of_succ_le_succ within
      · rw [next]
        refine noReturn.imp Nat.lt_of_succ_lt_succ fun other => ?_
        cases cs with
        | nil => nofun
        | cons e cs => rwa [List.getLast?_cons_cons] at other

/-- A token that is read in front of more characters, or up to the line feed at the end, is read as well
if something follows. -/
theorem stands (h : Continued r c d) (read : Stands c t c') (more : t.kind ≠ .endOfFile)
    (whole : c'.rest ≠ [] ∨ Lined c.rest) : ∃ d', Stands d t d' ∧ Continued r c' d' := by
  obtain ⟨kind, n, lexed, rfl, rfl⟩ := next_eq_ok_iff.1 read
  obtain ⟨-, some⟩ := lexeme_extent lexed more
  have within : gap c.rest < c.rest.length := by
    by_contra beyond
    exact some (List.drop_eq_nil_iff.2 (Nat.not_lt.1 beyond))
  have settled : Settled (c.rest.drop (gap c.rest)) n := by
    rcases whole with left | lined
    · rw [Cursor.rest_skip, Cursor.rest_skip] at left
      by_contra other
      exact left (List.drop_eq_nil_iff.2 (Nat.not_lt.1 (not_or.1 other).1))
    · cases last : (c.rest.drop (gap c.rest)).getLast? with
      | none => exact absurd (List.getLast?_eq_none_iff.1 last) some
      | some ch => exact .inr (last.trans (congrArg _ (lined.drop _ ch last)))
  have noSlash : c.rest.drop (gap c.rest) ≠ ['/'] := by
    intro slash
    rw [slash] at lexed settled
    exact absurd (feed_of_settled lexed settled) (by decide)
  have same : gap d.rest = gap c.rest := by rw [h.rest, gap_append some noSlash]
  have left : d.rest.drop (gap c.rest) = c.rest.drop (gap c.rest) ++ r := by
    rw [h.rest, List.drop_append_of_le_length (Nat.le_of_lt within)]
  have start := h.skip (Nat.le_of_lt within) (.inl within)
  have behind : Continued r ((c.skip (gap c.rest)).skip n) ((d.skip (gap c.rest)).skip n) := by
    refine start.skip ?_ ?_
    · rw [Cursor.rest_skip]
      exact extent_le lexed
    · rw [Cursor.rest_skip]
      refine settled.imp id fun feed => ?_
      rw [feed]
      decide
  refine ⟨_, next_eq_ok_iff.2 ⟨kind, n, ?_, ?_, rfl⟩, same ▸ behind⟩
  · rw [same, left]
    exact lexeme_append lexed settled
  · rw [same, left, start.position, List.take_append_of_le_length (extent_le lexed)]

/-- Where no token starts with a character none does whatever follows the text. -/
theorem unexpected (h : Continued r c d) {e : Error} (failed : next c = .error e c') {ch : Char}
    (cause : e.cause = .unexpectedCharacter ch) : ∃ d', next d = .error e d' := by
  obtain ⟨gap, first, behind, whole, between, refused, position⟩ := next_eq_error_iff.1 ⟨c', failed⟩
  have within : gap.length < c.rest.length := by
    rw [whole, List.length_append, List.length_cons]
    omega
  have start := h.skip (Nat.le_of_lt within) (.inl within)
  refine next_eq_error_iff.2 ⟨gap, first, behind ++ r, ?_, ?_, ?_, ?_⟩
  · rw [h.rest, whole, List.append_assoc, List.cons_append]
  · exact between.append (List.cons_ne_nil _ _)
  · rw [cause] at refused ⊢
    cases refused with
    | openBracket => exact .openBracket _
    | closeBracket => exact .closeBracket _
  · rw [position, start.position]

/-- So it is with tokens one behind the other. -/
theorem run (h : Continued r c d) (run : Run c ts c') (more : ∀ t ∈ ts, t.kind ≠ .endOfFile)
    (whole : c'.rest ≠ [] ∨ Lined c.rest) : ∃ d', Run d ts d' ∧ Continued r c' d' := by
  induction run generalizing d with
  | nil c => exact ⟨d, .nil d, h⟩
  | @cons c c₁ c' t ts read rest ih =>
    obtain ⟨other, more⟩ := List.forall_mem_cons.1 more
    have seen : c₁.rest ≠ [] ∨ Lined c.rest := by
      refine whole.imp (fun left none => left ?_) id
      have less := InOrder.le Cursor.unread (fun read => unread_next_le read) rest
      rw [Cursor.unread, Cursor.unread, none] at less
      exact List.eq_nil_of_length_eq_zero (Nat.le_zero.1 less)
    have lined : Lined c.rest → Lined c₁.rest := by
      intro lined
      obtain ⟨kind, n, -, -, rfl⟩ := next_eq_ok_iff.1 read
      rw [Cursor.rest_skip, Cursor.rest_skip]
      exact (lined.drop _).drop _
    obtain ⟨d₁, read', h₁⟩ := h.stands read other seen
    obtain ⟨d', rest', h'⟩ := ih h₁ more (whole.imp id lined)
    exact ⟨d', .cons read' rest', h'⟩

end Continued

end Quaked.Token
