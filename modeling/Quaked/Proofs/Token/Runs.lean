import Quaked.Proofs.Number.Extent
import Quaked.Proofs.Token.Lexing

/-!
# Runs of tokens of a definition file

What the readers of tokens do is said by relations between cursors. `Run c ts c'` says that the tokens
`ts` are read one behind the other, `Spaced c ts c'` that they are read with any number of line breaks
in front of each. A reader of one token succeeds exactly if the token stands there and is of a kind
that is expected (`nextOf_eq_ok_iff`, `nextOfPastNewlines_eq_ok_iff`).

* `unread_next`: every token but the end of the file leaves less to read.
* `exists_next_iff`: a token can be made unless a square bracket or a quote without an end stands there.
* `quotes_lexeme`: the quoted strings are the quotes that are closed.
* `number_of_next`: a token that is a number by its kind writes one.
* `iterate_passing_iff`: a loop that passes tokens of some sort passes all up to the first other one.
-/

namespace Quaked.Token

open Text

variable {c c' c'' : Cursor} {t : Token} {ts us : List Token} {cs : List Char} {kinds : List Kind}
  {kind : Kind} {n : Nat}

/-! ### One token -/

/-- What is a number, a word or nothing has an extent. -/
theorem wordLexeme_extent {ch : Char} (h : wordLexeme ch cs = .token kind n) :
    0 < n ∧ (kind = .integer ∧ integerExtent? isWordDelimiter (ch :: cs) = some n ∨
      kind = .decimal ∧ decimalExtent? isWordDelimiter (ch :: cs) = some n ∨
      kind = .word ∧ wordExtent? isWordDelimiter (ch :: cs) = some n) := by
  unfold wordLexeme at h
  split at h
  · rename_i extent
    cases h
    exact ⟨(of_integerExtent? extent).1, .inl ⟨rfl, extent⟩⟩
  split at h
  · rename_i extent
    cases h
    exact ⟨(of_decimalExtent? extent).1, .inr (.inl ⟨rfl, extent⟩)⟩
  split at h
  · rename_i extent
    cases h
    exact ⟨(of_wordExtent? extent).1, .inr (.inr ⟨rfl, extent⟩)⟩
  · cases h

/-- Every token but the end of the file has characters. -/
theorem lexeme_extent (h : lexeme cs = .token kind n) (more : kind ≠ .endOfFile) :
    0 < n ∧ cs ≠ [] := by
  cases shape_of_lexeme h with
  | endOfFile => exact absurd rfl more
  | commentOpen => exact ⟨by simp [isBlank], List.cons_ne_nil _ _⟩
  | word word => exact ⟨(wordLexeme_extent word).1, List.cons_ne_nil _ _⟩
  | _ => exact ⟨Nat.succ_pos _, List.cons_ne_nil _ _⟩

/-- Every token but the end of the file leaves less to read. -/
theorem unread_next (h : next c = .ok t c') (more : t.kind ≠ .endOfFile) : c'.unread < c.unread := by
  obtain ⟨kind, n, lexed, rfl, rfl⟩ := next_eq_ok_iff.1 h
  obtain ⟨positive, some⟩ := lexeme_extent lexed more
  have left : 0 < (c.rest.drop (gap c.rest)).length := List.length_pos_iff.2 some
  rw [List.length_drop] at left
  rw [Cursor.unread_skip, Cursor.unread_skip, Cursor.unread]
  omega

/-- The end of the file leaves nothing more to read than there was. -/
theorem unread_next_le (h : next c = .ok t c') : c'.unread ≤ c.unread := by
  obtain ⟨kind, n, -, -, rfl⟩ := next_eq_ok_iff.1 h
  rw [Cursor.unread_skip, Cursor.unread_skip]
  omega

/-- A token that is a number by its kind writes one in every format. -/
theorem number_of_next (h : next c = .ok t c') (number : t.kind = .integer ∨ t.kind = .decimal)
    (F : Format) : ∃ x : Number F, Number.ofString? t.text = some x := by
  obtain ⟨kind, n, lexed, rfl, -⟩ := next_eq_ok_iff.1 h
  generalize c.rest.drop (gap c.rest) = cs at lexed
  cases shape_of_lexeme lexed with
  | word word =>
    rcases (wordLexeme_extent word).2 with ⟨rfl, extent⟩ | ⟨rfl, extent⟩ | ⟨rfl, extent⟩
    · exact Number.exists_of_integerExtent? extent
    · exact Number.exists_of_decimalExtent? extent
    · rcases number with number | number <;> cases number
  | _ => rcases number with number | number <;> cases number

/-- A word has no delimiter. -/
theorem isWordDelimiter_of_mem (h : next c = .ok t c') (word : t.kind = .word) {ch : Char}
    (mem : ch ∈ t.text.toList) : isWordDelimiter ch = false := by
  obtain ⟨kind, n, lexed, rfl, -⟩ := next_eq_ok_iff.1 h
  obtain rfl : kind = .word := word
  generalize c.rest.drop (gap c.rest) = cs at lexed mem
  cases shape_of_lexeme lexed with
  | @word first tail _ _ lexed =>
    rcases (wordLexeme_extent lexed).2 with ⟨is, -⟩ | ⟨is, -⟩ | ⟨-, extent⟩
    · cases is
    · cases is
    · have said : Kind.textOf .word ((first :: tail).take n) = String.ofList _ := textOf_false _
      rw [said, String.toList_ofList, (of_wordExtent? extent).2, take_length_takeWhile] at mem
      simpa using List.all_eq_true.1 List.all_takeWhile ch mem

/-! ### Where a token can be made -/

/-- Behind a comment nothing is left, or a line break. -/
theorem isLineBreak_behind (cs : List Char) :
    ∀ ch ∈ (cs.drop (cs.takeWhile (!isLineBreak ·)).length).head?, isLineBreak ch = true := by
  intro ch mem
  rw [drop_length_takeWhile] at mem
  have stop := List.head?_dropWhile_not (!isLineBreak ·) cs
  rw [Option.mem_def.1 mem] at stop
  simpa using stop

/-- No gap starts with a line break. -/
theorem gap_of_isLineBreak (h : ∀ ch ∈ cs.head?, isLineBreak ch = true) : gap cs = 0 := by
  cases cs with
  | nil => rfl
  | cons ch cs =>
    have lineBreak : ch = '\n' ∨ ch = '\r' := by simpa [isLineBreak] using h ch rfl
    rcases lineBreak with rfl | rfl
    · rfl
    · rfl

/-- There is no gap behind a gap. -/
theorem gap_drop_gap (cs : List Char) : gap (cs.drop (gap cs)) = 0 := by
  induction cs with
  | nil => rfl
  | cons ch cs ih =>
    rw [gap]
    split
    · exact ih
    split
    · exact gap_of_isLineBreak (isLineBreak_behind (ch :: cs))
    · rename_i noBlank noComment
      rw [List.drop_zero, gap, if_neg noBlank, if_neg noComment]

/-- No square bracket stands behind the gap of a text, and a quote only if it is closed. -/
def Legible (cs : List Char) : Prop :=
  ∀ ch tail, cs.drop (gap cs) = ch :: tail →
    ch ≠ '[' ∧ ch ≠ ']' ∧ (ch = '"' → ∃ n, interior? tail = some n)

/-- What starts with no delimiter is a number or a word. -/
theorem exists_wordLexeme {ch : Char} (other : isWordDelimiter ch = false) :
    ∃ kind n, wordLexeme ch cs = .token kind n := by
  unfold wordLexeme
  split
  · exact ⟨_, _, rfl⟩
  split
  · exact ⟨_, _, rfl⟩
  have extent : wordExtent? isWordDelimiter (ch :: cs) =
      some ((cs.takeWhile (!isWordDelimiter ·)).length + 1) := by
    simp [wordExtent?, other]
  rw [extent]
  exact ⟨_, _, rfl⟩

theorem lexeme_openBracket : lexeme ('[' :: cs) = .unexpected '[' := rfl

theorem lexeme_closeBracket : lexeme (']' :: cs) = .unexpected ']' := rfl

theorem lexeme_quote : lexeme ('"' :: cs) =
    match interior? cs with
    | some n => .token .quoted (n + 2)
    | none => .unterminated := rfl

/-- The quoted strings of a definition file are its quotes that are closed. -/
theorem quotes_lexeme : Quotes lexeme .quoted := by
  intro cs n
  constructor
  · intro h
    cases shape_of_lexeme h with
    | quoted closed => exact ⟨_, _, rfl, closed, rfl⟩
    | word word => rcases wordLexeme_kind word with is | is | is <;> cases is
  · rintro ⟨tail, m, rfl, inner, rfl⟩
    rw [lexeme_quote, inner]

theorem exists_lexeme_iff {ch : Char} (front : gap (ch :: cs) = 0) :
    (∃ kind n, lexeme (ch :: cs) = .token kind n) ↔
      ch ≠ '[' ∧ ch ≠ ']' ∧ (ch = '"' → ∃ n, interior? cs = some n) := by
  constructor
  · rintro ⟨kind, n, lexed⟩
    refine ⟨?_, ?_, ?_⟩
    · rintro rfl
      rw [lexeme_openBracket] at lexed
      cases lexed
    · rintro rfl
      rw [lexeme_closeBracket] at lexed
      cases lexed
    · rintro rfl
      rw [lexeme_quote] at lexed
      cases closed : interior? cs with
      | some n => exact ⟨n, rfl⟩
      | none =>
        rw [closed] at lexed
        cases lexed
  · rintro ⟨noOpen, noClose, closed⟩
    unfold lexeme
    split
    case h_14 cs same =>
      cases same
      obtain ⟨n, closed⟩ := closed rfl
      rw [closed]
      exact ⟨_, _, rfl⟩
    case h_15 same =>
      cases same
      split
      · exact ⟨_, _, rfl⟩
      · refine exists_wordLexeme ?_
        have noBlank : ¬ (ch = ' ' ∨ ch = '\t') := by
          intro blank
          rw [gap, if_pos blank] at front
          cases front
        simp_all [isWordDelimiter, wordDelimiters]
    all_goals exact ⟨_, _, rfl⟩

/-- A token can be made of what is legible. -/
theorem exists_next_iff : (∃ t c', next c = .ok t c') ↔ Legible c.rest := by
  have some : (∃ t c', next c = .ok t c') ↔
      ∃ kind n, lexeme (c.rest.drop (gap c.rest)) = .token kind n := by
    constructor
    · rintro ⟨t, c', read⟩
      obtain ⟨kind, n, lexed, -⟩ := next_eq_ok_iff.1 read
      exact ⟨kind, n, lexed⟩
    · rintro ⟨kind, n, lexed⟩
      exact ⟨_, _, next_eq_ok_iff.2 ⟨kind, n, lexed, rfl, rfl⟩⟩
  have front := gap_drop_gap c.rest
  rw [some, Legible]
  cases start : c.rest.drop (gap c.rest) with
  | nil => exact ⟨fun _ => nofun, fun _ => ⟨_, _, rfl⟩⟩
  | cons ch tail =>
    rw [start] at front
    rw [exists_lexeme_iff front]
    constructor
    · rintro h _ _ same
      cases same
      exact h
    · intro h
      exact h ch tail rfl

/-! ### Tokens one behind the other -/

/-- The token is the next one. -/
def Stands (c : Cursor) (t : Token) (c' : Cursor) : Prop := next c = .ok t c'

/-- The token is the next one that is no line break. -/
inductive StandsPast : Cursor → Token → Cursor → Prop where
  | here {c c' : Cursor} {t : Token} (read : Stands c t c') (other : t.kind ≠ .newline) :
    StandsPast c t c'
  | behind {c c₁ c' : Cursor} {t u : Token} (read : Stands c u c₁) (newline : u.kind = .newline)
    (rest : StandsPast c₁ t c') : StandsPast c t c'

/-- The tokens stand one behind the other. -/
abbrev Run : Cursor → List Token → Cursor → Prop := InOrder Stands

/-- The tokens stand one behind the other, with any number of line breaks in front of each. -/
abbrev Spaced : Cursor → List Token → Cursor → Prop := InOrder StandsPast

theorem StandsPast.unread_le (h : StandsPast c t c') : c'.unread ≤ c.unread := by
  induction h with
  | here read _ => exact unread_next_le read
  | behind read _ _ ih => exact Nat.le_trans ih (unread_next_le read)

theorem StandsPast.unread_lt (h : StandsPast c t c') (more : t.kind ≠ .endOfFile) :
    c'.unread < c.unread := by
  induction h with
  | here read _ => exact unread_next read more
  | behind read _ _ ih => exact Nat.lt_of_lt_of_le (ih more) (unread_next_le read)

/-! ### Readers of one token -/

/-- Only one token is the next one. -/
theorem Stands.unique {u : Token} (h : Stands c t c') (h' : Stands c u c'') : u = t ∧ c'' = c' := by
  have same := h.symm.trans h'
  cases same
  exact ⟨rfl, rfl⟩

theorem peek_eq_ok_iff : peek c = .ok t c' ↔ c' = c ∧ ∃ c₁, Stands c t c₁ :=
  Reading.ahead_eq_ok_iff

theorem expect_eq_ok_iff {u : Token} : expect kinds u c = .ok t c' ↔ t = u ∧ c' = c ∧ t.kind ∈ kinds := by
  unfold expect
  cases among : u.isOneOf kinds with
  | true =>
    rw [if_pos rfl, pure_eq_ok_iff]
    constructor
    · rintro ⟨rfl, rfl⟩
      exact ⟨rfl, rfl, of_decide_eq_true among⟩
    · rintro ⟨rfl, rfl, -⟩
      exact ⟨rfl, rfl⟩
  | false =>
    rw [if_neg Bool.false_ne_true]
    constructor
    · intro h
      exact absurd h throw_ne_ok
    · rintro ⟨rfl, -, mem⟩
      exact absurd mem (of_decide_eq_false among)

theorem nextOf_eq_ok_iff : nextOf kinds c = .ok t c' ↔ Stands c t c' ∧ t.kind ∈ kinds := by
  constructor
  · intro h
    exact next_of_nextOf h
  · rintro ⟨read, mem⟩
    exact bind_eq_ok_iff.2 ⟨t, c', read, expect_eq_ok_iff.2 ⟨rfl, rfl, mem⟩⟩

theorem peekOf_eq_ok_iff :
    peekOf kinds c = .ok t c' ↔ c' = c ∧ (∃ c₁, Stands c t c₁) ∧ t.kind ∈ kinds := by
  constructor
  · intro h
    obtain ⟨u, c₁, ahead, expected⟩ := bind_eq_ok_iff.1 h
    obtain ⟨rfl, some⟩ := peek_eq_ok_iff.1 ahead
    obtain ⟨rfl, rfl, mem⟩ := expect_eq_ok_iff.1 expected
    exact ⟨rfl, some, mem⟩
  · rintro ⟨rfl, some, mem⟩
    exact bind_eq_ok_iff.2 ⟨t, c', peek_eq_ok_iff.2 ⟨rfl, some⟩, expect_eq_ok_iff.2 ⟨rfl, rfl, mem⟩⟩

/-! ### Readers that start with one token -/

section Bind

variable {α : Type} {a : α} {f : Token → Reading α}

theorem expect_bind_eq_ok_iff :
    (expect kinds t >>= f) c = .ok a c' ↔ t.kind ∈ kinds ∧ f t c = .ok a c' := by
  rw [bind_eq_ok_iff]
  constructor
  · rintro ⟨_, _, expected, rest⟩
    obtain ⟨rfl, rfl, mem⟩ := expect_eq_ok_iff.1 expected
    exact ⟨mem, rest⟩
  · rintro ⟨mem, rest⟩
    exact ⟨t, c, expect_eq_ok_iff.2 ⟨rfl, rfl, mem⟩, rest⟩

theorem peek_bind_eq_ok_iff :
    (peek >>= f) c = .ok a c' ↔ ∃ t c₁, Stands c t c₁ ∧ f t c = .ok a c' := by
  rw [bind_eq_ok_iff]
  constructor
  · rintro ⟨t, _, peeked, rest⟩
    obtain ⟨rfl, c₁, stands⟩ := peek_eq_ok_iff.1 peeked
    exact ⟨t, c₁, stands, rest⟩
  · rintro ⟨t, c₁, stands, rest⟩
    exact ⟨t, c, peek_eq_ok_iff.2 ⟨rfl, c₁, stands⟩, rest⟩

theorem peekOf_bind_eq_ok_iff :
    (peekOf kinds >>= f) c = .ok a c' ↔
      ∃ t c₁, Stands c t c₁ ∧ t.kind ∈ kinds ∧ f t c = .ok a c' := by
  rw [bind_eq_ok_iff]
  constructor
  · rintro ⟨t, _, peeked, rest⟩
    obtain ⟨rfl, ⟨c₁, stands⟩, mem⟩ := peekOf_eq_ok_iff.1 peeked
    exact ⟨t, c₁, stands, mem, rest⟩
  · rintro ⟨t, c₁, stands, mem, rest⟩
    exact ⟨t, c, peekOf_eq_ok_iff.2 ⟨rfl, ⟨c₁, stands⟩, mem⟩, rest⟩

theorem nextOf_bind_eq_ok_iff :
    (nextOf kinds >>= f) c = .ok a c' ↔
      ∃ t c₁, Stands c t c₁ ∧ t.kind ∈ kinds ∧ f t c₁ = .ok a c' := by
  simp only [bind_eq_ok_iff, nextOf_eq_ok_iff, and_assoc]

end Bind

/-! ### Readers that pass line breaks -/

/-- A loop that looks at the next token, and passes it if it is such as described, passes all that
are up to the first that is not. -/
theorem iterate_passing_iff {P : Token → Prop} {step : Unit → Reading (Option Unit)}
    (looks : ∀ {c c' answer}, step () c = .ok answer c' → ∃ t c₁, Stands c t c₁)
    (passes : ∀ {c t c'}, Stands c t c' → P t → step () c = .ok (some ()) c')
    (stops : ∀ {c t c'}, Stands c t c' → ¬ P t → step () c = .ok none c)
    (more : ∀ {t}, P t → t.kind ≠ .endOfFile) :
    iterate Cursor.unread step () c = .ok () c' ↔
      ∃ ts, Run c ts c' ∧ (∀ t ∈ ts, P t) ∧ ∃ t c₁, Stands c' t c₁ ∧ ¬ P t := by
  rw [InOrder.of_iterate_unit (fun c t c' => Stands c t c' ∧ P t)
    (fun c c' => c' = c ∧ ∃ t c₁, Stands c t c₁ ∧ ¬ P t)]
  · constructor
    · rintro ⟨ts, _, order, rfl, other⟩
      obtain ⟨run, such⟩ := InOrder.and_iff.1 order
      exact ⟨ts, run, such, other⟩
    · rintro ⟨ts, run, such, other⟩
      exact ⟨ts, c', InOrder.and_iff.2 ⟨run, such⟩, rfl, other⟩
  · intro c c'
    constructor
    · intro h
      obtain ⟨t, c₁, stands⟩ := looks h
      by_cases such : P t
      · cases h.symm.trans (passes stands such)
        exact ⟨t, stands, such⟩
      · cases h.symm.trans (stops stands such)
    · rintro ⟨t, stands, such⟩
      exact passes stands such
  · intro c c'
    constructor
    · intro h
      obtain ⟨t, c₁, stands⟩ := looks h
      by_cases such : P t
      · cases h.symm.trans (passes stands such)
      · cases h.symm.trans (stops stands such)
        exact ⟨rfl, t, c₁, stands, such⟩
    · rintro ⟨rfl, t, c₁, stands, other⟩
      exact stops stands other
  · rintro c t c' ⟨stands, such⟩
    exact unread_next stands (more such)

/-- All line breaks are passed that stand there, and no more. -/
theorem skipNewlines_eq_ok_iff :
    skipNewlines c = .ok () c' ↔ ∃ breaks, Run c breaks c' ∧ (∀ u ∈ breaks, u.kind = .newline) ∧
      ∃ t c₁, Stands c' t c₁ ∧ t.kind ≠ .newline := by
  refine iterate_passing_iff ?_ ?_ ?_ ?_
  · intro c c' answer h
    obtain ⟨t, c₁, stands, -⟩ := peek_bind_eq_ok_iff.1 h
    exact ⟨t, c₁, stands⟩
  · intro c t c' stands newline
    refine peek_bind_eq_ok_iff.2 ⟨t, c', stands, ?_⟩
    rw [if_pos newline]
    exact bind_eq_ok_iff.2 ⟨t, c', stands, rfl⟩
  · intro c t c' stands other
    refine peek_bind_eq_ok_iff.2 ⟨t, c', stands, ?_⟩
    rw [if_neg other]
    rfl
  · intro t newline
    rw [newline]
    decide

/-- Behind line breaks the next token is the next one that is none. -/
theorem next_past_eq_ok_iff :
    (∃ c₁, skipNewlines c = .ok () c₁ ∧ Stands c₁ t c') ↔ StandsPast c t c' := by
  constructor
  · rintro ⟨c₁, skipped, stands⟩
    obtain ⟨breaks, run, newlines, u, c₂, stands', other⟩ := skipNewlines_eq_ok_iff.1 skipped
    obtain ⟨rfl, rfl⟩ := stands.unique stands'
    clear skipped
    induction run with
    | nil c => exact .here stands other
    | cons head _ ih =>
      obtain ⟨newline, newlines⟩ := List.forall_mem_cons.1 newlines
      exact .behind head newline (ih newlines stands stands')
  · intro h
    induction h with
    | here stands other =>
      exact ⟨_, skipNewlines_eq_ok_iff.2 ⟨[], .nil _, nofun, _, _, stands, other⟩, stands⟩
    | behind stands newline _ ih =>
      obtain ⟨c₁, skipped, stands'⟩ := ih
      obtain ⟨breaks, run, newlines, other⟩ := skipNewlines_eq_ok_iff.1 skipped
      refine ⟨c₁, skipNewlines_eq_ok_iff.2 ⟨_, .cons stands run, ?_, other⟩, stands'⟩
      exact List.forall_mem_cons.2 ⟨newline, newlines⟩

theorem nextOfPastNewlines_eq_ok_iff :
    nextOfPastNewlines kinds c = .ok t c' ↔ StandsPast c t c' ∧ t.kind ∈ kinds := by
  constructor
  · intro h
    obtain ⟨⟨⟩, c₁, skipped, h⟩ := bind_eq_ok_iff.1 h
    obtain ⟨read, mem⟩ := nextOf_eq_ok_iff.1 h
    exact ⟨next_past_eq_ok_iff.1 ⟨c₁, skipped, read⟩, mem⟩
  · rintro ⟨stands, mem⟩
    obtain ⟨c₁, skipped, read⟩ := next_past_eq_ok_iff.2 stands
    exact bind_eq_ok_iff.2 ⟨(), c₁, skipped, nextOf_eq_ok_iff.2 ⟨read, mem⟩⟩

theorem nextOfPastNewlines_bind_eq_ok_iff {α : Type} {a : α} {f : Token → Reading α} :
    (nextOfPastNewlines kinds >>= f) c = .ok a c' ↔
      ∃ t c₁, StandsPast c t c₁ ∧ t.kind ∈ kinds ∧ f t c₁ = .ok a c' := by
  simp only [bind_eq_ok_iff, nextOfPastNewlines_eq_ok_iff, and_assoc]

end Quaked.Token
