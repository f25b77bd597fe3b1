import Quaked.Proofs.Number.Pattern
import Quaked.Proofs.Token.Append

/-!
# Numbers and words

Where a number or a word starts, a lexer tries one reader after the other: for a whole number, for a
decimal, for anything up to a delimiter. Each of them may get some way before it gives up. Still the token
is always the whole run of characters up to the next delimiter, and its kind says which pattern the run
matches (`run_is_read`): the reader that succeeds never takes less than the run, as what it leaves would
have to start with a delimiter, and a reader that fails on the run fails on what follows it as well.
-/

namespace Quaked.Token

open Text

variable {cs : List Char} {ch : Char} {kind : Kind} {n : Nat}

/-- The longest run of characters in front that are no delimiters. -/
def wordRun (cs : List Char) : List Char := cs.takeWhile (!isWordDelimiter ·)

/-- The kind of a run: an integer or a decimal if it is written as one, else a word. -/
def Kind.ofRun (run : List Char) : Kind :=
  if run ∈ Pattern.integer.matches' then .integer
  else if run ∈ Pattern.decimal.matches' then .decimal
  else .word

/-- Whether a text that starts with no gap starts with a number or a word: with none of the delimiters, nor
with a quote, the opening or the end of a comment, or a minus in front of a blank. -/
def StartsWord : List Char → Prop
  | [] => False
  | ch :: cs =>
    isWordDelimiter ch = false ∧ ch ≠ '"' ∧
      ¬ (ch = '/' ∧ cs.head? = some '*') ∧ ¬ (ch = '*' ∧ cs.head? = some '/') ∧
      ¬ (ch = '-' ∧ cs.head?.any isBlank = true)

/-! ### The run decides -/

/-- What is behind a run starts with a delimiter, if it is anything. -/
theorem atDelimiter_drop_wordRun (cs : List Char) :
    atDelimiter isWordDelimiter (cs.drop (wordRun cs).length) = true := by
  rw [wordRun, drop_length_takeWhile]
  have stop := List.head?_dropWhile_not (!isWordDelimiter ·) cs
  unfold atDelimiter
  cases left : (cs.dropWhile (!isWordDelimiter ·)).head? with
  | none => rfl
  | some d => simpa [left] using stop

theorem not_delimiter_of_mem_wordRun (mem : ch ∈ wordRun cs) : isWordDelimiter ch = false := by
  simpa using List.all_eq_true.1 List.all_takeWhile ch mem

/-- A reader of numbers that ends in front of delimiters takes the whole run, if it takes anything: the run
by itself has to be such a number. -/
theorem delimited?_eq_wordRun {α : Type} {read? : List Char → Option (α × List Char)}
    {pattern : RegularExpression Char}
    (append : ∀ w r, atDelimiter isWordDelimiter r = true →
      read? (w ++ r) = (read? w).map fun p => (p.1, p.2 ++ r))
    (takes : ∀ {w a rest}, read? w = some (a, rest) →
      ∃ taken, Takes read? (fun r => some (a, r)) w taken rest)
    (whole : ∀ w, (∃ a, read? w = some (a, [])) ↔ w ∈ pattern.matches') :
    delimited? isWordDelimiter read? cs =
      if wordRun cs ∈ pattern.matches' then some (wordRun cs).length else none := by
  have ended := atDelimiter_drop_wordRun cs
  have split : wordRun cs ++ cs.drop (wordRun cs).length = cs := by
    rw [wordRun, drop_length_takeWhile]
    exact List.takeWhile_append_dropWhile
  conv => lhs; rw [← split, delimited?_append (append _ _ ended) ended]
  unfold delimited?
  split
  · rename_i a rest read
    obtain ⟨taken, ⟨same, -⟩⟩ := takes read
    cases rest with
    | nil =>
      rw [if_pos ((whole _).1 ⟨a, read⟩)]
      rfl
    | cons d rest =>
      -- What is left belongs to the run, so the reader has stopped in front of no delimiter.
      have inside : d ∈ wordRun cs := by simp [same]
      have other : wordRun cs ∉ pattern.matches' := by
        intro matching
        obtain ⟨b, all⟩ := (whole _).2 matching
        rw [read] at all
        cases all
      rw [if_neg other, if_neg]
      simp [atDelimiter, not_delimiter_of_mem_wordRun inside]
  · rename_i none
    rw [if_neg]
    intro matching
    obtain ⟨b, all⟩ := (whole _).2 matching
    rw [none] at all
    cases all

theorem integerExtent?_eq :
    integerExtent? isWordDelimiter cs =
      if wordRun cs ∈ Pattern.integer.matches' then some (wordRun cs).length else none :=
  delimited?_eq_wordRun
    (fun w _ ended => Numeral.readInteger?_append (not_goesOn_of_delimiter ended) w)
    Numeral.takes_readInteger? fun _ => Numeral.readInteger?_iff

theorem decimalExtent?_eq :
    decimalExtent? isWordDelimiter cs =
      if wordRun cs ∈ Pattern.decimal.matches' then some (wordRun cs).length else none :=
  delimited?_eq_wordRun
    (fun w _ ended => Numeral.read?_append (not_goesOn_of_delimiter ended) w)
    Numeral.takes_read? fun _ => Numeral.read?_iff

/-- What the readers find one after the other is the run with its kind, unless the run is empty. -/
theorem wordLexeme_eq (ch : Char) (cs : List Char) :
    wordLexeme ch cs =
      if wordRun (ch :: cs) = [] then .unexpected ch
      else .token (.ofRun (wordRun (ch :: cs))) (wordRun (ch :: cs)).length := by
  have word : wordExtent? isWordDelimiter (ch :: cs) =
      if wordRun (ch :: cs) = [] then none else some (wordRun (ch :: cs)).length := by
    unfold wordExtent? wordRun
    cases (ch :: cs).takeWhile (!isWordDelimiter ·) with
    | nil => rfl
    | cons d run => rfl
  unfold wordLexeme Kind.ofRun
  rw [integerExtent?_eq, decimalExtent?_eq, word]
  by_cases none : wordRun (ch :: cs) = []
  · rw [if_neg, if_neg, if_pos none, if_pos none]
    · rw [none, ← Numeral.read?_iff]
      rintro ⟨numeral, read⟩
      cases read
    · rw [none, ← Numeral.readInteger?_iff]
      rintro ⟨m, read⟩
      cases read
  · rw [if_neg none, if_neg none]
    split_ifs <;> rfl

/-! ### Where a run is read -/

theorem wordRun_eq_nil_iff : wordRun (ch :: cs) = [] ↔ isWordDelimiter ch = true := by
  simp [wordRun]

theorem lexeme_of_startsWord (h : StartsWord (ch :: cs)) : lexeme (ch :: cs) = wordLexeme ch cs := by
  obtain ⟨inside, noQuote, noOpening, noEnd, noMinus⟩ := h
  unfold lexeme
  split
  case h_1 same => cases same
  case h_2 same =>
    cases same
    exact absurd ⟨rfl, rfl⟩ noOpening
  case h_3 same =>
    cases same
    exact absurd ⟨rfl, rfl⟩ noEnd
  case h_14 same =>
    cases same
    exact absurd rfl noQuote
  case h_15 same =>
    cases same
    rw [if_neg]
    simpa using noMinus
  all_goals
    rename_i same
    cases same
    cases inside

/-- A run is its own text. -/
theorem textOf_ofRun (run cs : List Char) : (Kind.ofRun run).textOf cs = String.ofList cs := by
  unfold Kind.ofRun
  split_ifs <;> rfl

theorem lexeme_eq_run (h : StartsWord cs) :
    wordRun cs ≠ [] ∧ lexeme cs = .token (.ofRun (wordRun cs)) (wordRun cs).length := by
  cases cs with
  | nil => exact h.elim
  | cons ch cs =>
    have some : wordRun (ch :: cs) ≠ [] := by simp [wordRun_eq_nil_iff, h.1]
    rw [lexeme_of_startsWord h, wordLexeme_eq, if_neg some]
    exact ⟨some, rfl⟩

/-- No other token is a number or a word by its kind. -/
theorem startsWord_of_lexeme (h : lexeme cs = .token kind n)
    (number : kind ∈ [.integer, .decimal, .word]) : StartsWord cs := by
  unfold lexeme at h
  split at h
  case h_14 tail =>
    cases inner : interior? tail with
    | none =>
      rw [inner] at h
      cases h
    | some m =>
      rw [inner] at h
      cases h
      exact absurd number (by decide)
  case h_15 ch tail noOpening noEnd _ _ _ _ _ _ _ _ _ _ noQuote =>
    split at h
    · cases h
      exact absurd number (by decide)
    rename_i noMinus
    rw [wordLexeme_eq] at h
    split at h
    · cases h
    rename_i some
    rw [wordRun_eq_nil_iff, Bool.not_eq_true] at some
    refine ⟨some, noQuote, ?_, ?_, by simpa using noMinus⟩
    · rintro ⟨rfl, star⟩
      cases tail with
      | nil => cases star
      | cons d tail =>
        obtain rfl : d = '*' := Option.some.inj star
        exact noOpening tail rfl rfl
    · rintro ⟨rfl, slash⟩
      cases tail with
      | nil => cases slash
      | cons d tail =>
        obtain rfl : d = '/' := Option.some.inj slash
        exact noEnd tail rfl rfl
  all_goals
    cases h
    exact absurd number (by decide)

variable {c c' : Cursor} {t : Token}

theorem next_of_startsWord (c : Cursor) (starts : StartsWord (c.skip (gap c.rest)).rest) :
    next c = .ok
      ⟨.ofRun (wordRun (c.skip (gap c.rest)).rest), String.ofList (wordRun (c.skip (gap c.rest)).rest),
        (c.skip (gap c.rest)).position⟩
      ((c.skip (gap c.rest)).skip (wordRun (c.skip (gap c.rest)).rest).length) := by
  refine next_eq_ok_iff.2 ⟨.ofRun (wordRun (c.skip (gap c.rest)).rest), _, ?_, ?_, rfl⟩
  · rw [← Cursor.rest_skip]
    exact (lexeme_eq_run starts).2
  · rw [← Cursor.rest_skip, textOf_ofRun, wordRun, take_length_takeWhile]

theorem startsWord_of_next (h : next c = .ok t c') (number : t.kind ∈ [.integer, .decimal, .word]) :
    StartsWord (c.skip (gap c.rest)).rest := by
  obtain ⟨kind, n, lexed, rfl, -⟩ := next_eq_ok_iff.1 h
  rw [← Cursor.rest_skip] at lexed
  exact startsWord_of_lexeme lexed number

/-- A number or a word says what it is. -/
theorem kind_eq_ofRun (h : next c = .ok t c') (number : t.kind ∈ [.integer, .decimal, .word]) :
    t.kind = .ofRun t.text.toList := by
  rw [next_of_startsWord c (startsWord_of_next h number)] at h
  cases h
  rw [String.toList_ofList]

theorem ofRun_eq_integer {run : List Char} (h : Kind.ofRun run = .integer) :
    run ∈ Pattern.integer.matches' := by
  unfold Kind.ofRun at h
  split_ifs at h with integer
  exact integer

theorem ofRun_eq_decimal {run : List Char} (h : Kind.ofRun run = .decimal) :
    run ∈ Pattern.decimal.matches' := by
  unfold Kind.ofRun at h
  split_ifs at h with integer decimal
  exact decimal

theorem ofRun_eq_word {run : List Char} (h : Kind.ofRun run = .word) :
    run ∉ Pattern.integer.matches' ∧ run ∉ Pattern.decimal.matches' := by
  unfold Kind.ofRun at h
  split_ifs at h with integer decimal
  exact ⟨integer, decimal⟩

/-- **The token is the run, whatever the readers try.** Where neither a mark nor a quoted string nor the
edge of a comment stands behind the gap, the next token is the longest run of characters that are no
delimiters, and its kind is that of the run. No other token is an integer, a decimal or a word: each of
these has a text, without delimiters and with a delimiter or the end of the file behind it, and a word is
written neither as a whole number nor as a numeral. -/
theorem run_is_read (c : Cursor) :
    let start := c.skip (gap c.rest)
    let run := wordRun start.rest
    (StartsWord start.rest →
      next c = .ok ⟨.ofRun run, String.ofList run, start.position⟩ (start.skip run.length)) ∧
    ∀ t c', next c = .ok t c' → t.kind ∈ [.integer, .decimal, .word] →
      StartsWord start.rest ∧ t.text ≠ "" ∧ (∀ ch ∈ t.text.toList, isWordDelimiter ch = false) ∧
        atDelimiter isWordDelimiter c'.rest = true ∧
        (t.kind = .word → t.text.toList ∉ Pattern.integer.matches' ∧
          t.text.toList ∉ Pattern.decimal.matches') := by
  intro start run
  refine ⟨next_of_startsWord c, ?_⟩
  intro t c' stands number
  have starts := startsWord_of_next stands number
  rw [next_of_startsWord c starts] at stands
  cases stands
  refine ⟨starts, ?_, ?_, ?_, ?_⟩
  · intro empty
    have none := congrArg String.toList empty
    rw [String.toList_ofList] at none
    exact (lexeme_eq_run starts).1 none
  · intro ch mem
    rw [String.toList_ofList] at mem
    exact not_delimiter_of_mem_wordRun mem
  · rw [Cursor.rest_skip]
    exact atDelimiter_drop_wordRun _
  · intro word
    rw [String.toList_ofList]
    exact ofRun_eq_word word

/-- A number in front of letters, behind a blank and in front of a comma. -/
theorem run_is_read_letters :
    let c : Cursor := .ofString " 12abc,"
    next c = .ok ⟨.word, "12abc", ⟨1, 2⟩⟩ (c.skip 6) := by
  intro c
  have starts : StartsWord (c.skip (gap c.rest)).rest := ⟨rfl, by decide, by decide, by decide, by decide⟩
  have run : wordRun (c.skip (gap c.rest)).rest = "12abc".toList := rfl
  have kind : Kind.ofRun "12abc".toList = .word := by decide
  have read := (run_is_read c).1 starts
  rw [run, kind] at read
  exact read

example :
    ["12abc", "1e", "1.2.3", "--1", "5\""].map (Kind.ofRun ·.toList) = List.replicate 5 .word := by
  decide

end Quaked.Token
