import Quaked.Proofs.Selector.Lexemes
import Quaked.Proofs.Text.Quoted

/-!
# The longest token

`Spells` says with which characters a token of each kind can be written, and nothing of what stands
behind them. The lexer decides by guards that look one or two characters ahead; together they come to one
rule: of all tokens that a text starts with it takes the longest (`lexeme_iff_longest`).

* `spells_of_lexeme`: a token is written with its characters.
* `Spells.reaches`: no token ends within the characters of another one.
* `lexeme_of_append`: a token is the same in front of less of the text.
* `Spells.concat_of_append`: where a token goes on, it goes on with the next character, unless that is a
  point.
* `lexeme_of_behind`: so a token is the same in front of other text that starts with the same character, or
  with white space.
-/

namespace Quaked.Selector.Token

open Text

variable {cs extent rest : List Char} {c d : Char} {kind kind' : Kind} {n : Nat}

/-- The marks with their characters. -/
def marks : List (Kind × List Char) :=
  [(.arrow, ['-', '>']), (.equal, ['=', '=']), (.notEqual, ['!', '=']), (.lessOrEqual, ['<', '=']),
    (.greaterOrEqual, ['>', '=']), (.and, ['&', '&']), (.or, ['|', '|']), (.openParen, ['(']),
    (.closeParen, [')']), (.openBracket, ['[']), (.closeBracket, [']']), (.openBrace, ['{']),
    (.closeBrace, ['}']), (.comma, [',']), (.colon, [':']), (.less, ['<']), (.greater, ['>']),
    (.not, ['!']), (.bitAnd, ['&']), (.bitOr, ['|']), (.minus, ['-'])]

/-- A token of the kind can be written with the characters. -/
inductive Spells : Kind → List Char → Prop where
  | string {inside : List Char} (valid : Inside inside) : Spells .string ('"' :: (inside ++ ['"']))
  | number (negative : Bool) {whole places : List Char} (plain : Plain whole places) :
    Spells .number (Number.signText negative ++ (whole ++ Decimal.optionalPoint places))
  | word {c : Char} {cs : List Char} (starts : startsName c = true)
    (continues : ∀ d ∈ cs, continuesName d = true) : Spells (.ofWord (c :: cs)) (c :: cs)
  | mark {kind : Kind} {cs : List Char} (among : (kind, cs) ∈ marks) : Spells kind cs

/-- No token that the whole text starts with is longer than the part in front of `rest`. -/
def Longest (extent rest : List Char) : Prop :=
  ∀ kind longer, Spells kind longer → longer <+: extent ++ rest → longer.length ≤ extent.length

/-! ### What a token is written with -/

/-- The digits at the front, and a point with digits behind it, are a number. -/
theorem plain_take_numberExtent (cs : List Char) (digit : c.isDigit = true) :
    ∃ whole places, Plain whole places ∧
      (c :: cs).take (numberExtent (c :: cs)) = whole ++ Decimal.optionalPoint places := by
  have all (ds : List Char) : ∀ d ∈ ds.takeWhile Char.isDigit, d.isDigit = true :=
    fun d mem => List.all_eq_true.1 List.all_takeWhile d mem
  have some : (c :: cs).takeWhile Char.isDigit ≠ [] := by simp [digit]
  unfold numberExtent
  split
  · rename_i tail behind
    split
    · rename_i fraction
      refine ⟨_, tail.takeWhile Char.isDigit, ⟨some, all _, all _⟩, ?_⟩
      have point : Decimal.optionalPoint (tail.takeWhile Char.isDigit) =
          '.' :: tail.takeWhile Char.isDigit := by
        cases tail with
        | nil => cases fraction
        | cons d tail => simp_all [Decimal.optionalPoint]
      rw [point, Nat.add_assoc, digitExtent, List.take_add, take_length_takeWhile,
        drop_length_takeWhile, behind, Nat.add_comm, List.take_succ_cons, digitExtent,
        take_length_takeWhile]
    · refine ⟨_, [], ⟨some, all _, List.forall_mem_nil _⟩, ?_⟩
      rw [digitExtent, take_length_takeWhile]
      exact (List.append_nil _).symm
  · refine ⟨_, [], ⟨some, all _, List.forall_mem_nil _⟩, ?_⟩
    rw [digitExtent, take_length_takeWhile]
    exact (List.append_nil _).symm

theorem spells_of_markLexeme (h : markLexeme cs = .token kind n) (more : kind ≠ .endOfInput) :
    Spells kind (cs.take n) := by
  unfold markLexeme at h
  split at h <;> cases h
  case h_23 => exact absurd rfl more
  all_goals exact .mark (by simp [marks])

/-- A token other than the end is written with the characters of its extent. -/
theorem spells_of_lexeme (h : lexeme cs = .token kind n) (more : kind ≠ .endOfInput) :
    Spells kind (cs.take n) := by
  cases cs with
  | nil =>
    cases h
    exact absurd rfl more
  | cons c cs =>
    rw [lexeme] at h
    split at h
    · rename_i quote
      subst quote
      cases inner : interior? cs with
      | none =>
        rw [inner] at h
        cases h
      | some m =>
        rw [inner] at h
        cases h
        obtain ⟨inside, same, valid⟩ := take_interior? inner
        rw [same]
        exact .string valid
    split at h
    · rename_i digit
      cases h
      obtain ⟨whole, places, plain, same⟩ := plain_take_numberExtent cs digit
      rw [same]
      exact .number false plain
    split at h
    · rename_i minus
      cases h
      obtain ⟨is, digit⟩ := Bool.and_eq_true_iff.1 minus
      obtain rfl : c = '-' := of_decide_eq_true is
      cases cs with
      | nil => cases digit
      | cons d cs =>
        obtain ⟨whole, places, plain, same⟩ := plain_take_numberExtent cs digit
        rw [List.take_succ_cons, same]
        exact .number true plain
    split at h
    · rename_i starts
      cases h
      rw [take_length_takeWhile, List.takeWhile_cons, if_pos (continuesName_of_startsName starts)]
      exact .word starts fun d mem => List.all_eq_true.1 List.all_takeWhile d mem
    · exact spells_of_markLexeme h more

/-! ### What stands in front of other text -/

theorem digitExtent_le_append (cs r : List Char) : digitExtent cs ≤ digitExtent (cs ++ r) := by
  unfold digitExtent
  rw [List.takeWhile_append]
  split
  · rw [List.length_append]
    exact Nat.le_trans length_takeWhile_le (Nat.le_add_right _ _)
  · exact Nat.le_refl _

/-- What follows can make a number longer, but not shorter. -/
theorem numberExtent_le_append (cs r : List Char) : numberExtent cs ≤ numberExtent (cs ++ r) := by
  by_cases fraction : ∃ tail, cs.dropWhile Char.isDigit = '.' :: tail ∧
      tail.head?.any Char.isDigit = true
  · obtain ⟨tail, point, digit⟩ := fraction
    have point' : (cs ++ r).dropWhile Char.isDigit = '.' :: (tail ++ r) := by
      rw [List.dropWhile_append, point]
      rfl
    have digit' : (tail ++ r).head?.any Char.isDigit = true := by
      cases tail with
      | nil => cases digit
      | cons d tail => exact digit
    rw [numberExtent_of_point point digit, numberExtent_of_point point' digit']
    have whole := digitExtent_le_append cs r
    have places := digitExtent_le_append tail r
    omega
  · rw [numberExtent_of_no_point fun tail point digit => fraction ⟨tail, point, digit⟩]
    exact Nat.le_trans (digitExtent_le_append cs r) digitExtent_le_numberExtent

/-- A token of the given kind and extent stands at the front of the text, or one that reaches further. -/
def Reaches (kind : Kind) (extent cs : List Char) : Prop :=
  ∃ kind' n, lexeme cs = .token kind' n ∧ kind' ≠ .endOfInput ∧ extent.length ≤ n ∧
    (n = extent.length → kind' = kind)

/-- With a character that a mark starts with nothing else starts, but for a number behind a minus. -/
theorem lexeme_of_mark (among : (kind, c :: cs) ∈ marks)
    (noNumber : ¬ (c = '-' ∧ rest.head?.any Char.isDigit = true)) :
    lexeme (c :: rest) = markLexeme (c :: rest) := by
  have others : ∀ m ∈ marks, m.2.head?.all (fun c => c ≠ '"' && !c.isDigit && !startsName c) = true := by
    decide
  obtain ⟨⟨quote, digit⟩, name⟩ : (c ≠ '"' ∧ c.isDigit = false) ∧ startsName c = false := by
    simpa using others _ among
  rw [lexeme, if_neg quote, if_neg (by simp [digit]), if_neg (by simpa using noNumber),
    if_neg (by simp [name])]

theorem markLexeme_single (among : (kind, [c]) ∈ marks) (rest : List Char) :
    ∃ kind' n, markLexeme (c :: rest) = .token kind' n ∧ kind' ≠ .endOfInput ∧ 1 ≤ n ∧
      (n = 1 → kind' = kind) := by
  generalize same : c :: rest = text
  fun_cases markLexeme text <;> cases same
  case case22 other => simp_all [marks]
  all_goals refine ⟨_, _, rfl, by decide, by decide, fun one => ?_⟩
  -- a mark of two characters is no mark of one, and a mark of one is the only one with its character
  all_goals first
    | exact absurd one (by decide)
    | simp [marks] at among
      exact among.symm

theorem markLexeme_double (among : (kind, [c, d]) ∈ marks) (rest : List Char) :
    markLexeme (c :: d :: rest) = .token kind 2 := by
  generalize same : c :: d :: rest = text
  fun_cases markLexeme text <;> cases same <;> simp_all [marks]

theorem reaches_mark (among : (kind, extent) ∈ marks) (rest : List Char) :
    Reaches kind extent (extent ++ rest) := by
  match extent with
  | [c] =>
    by_cases number : c = '-' ∧ rest.head?.any Char.isDigit = true
    · obtain ⟨rfl, digit⟩ := number
      cases rest with
      | nil => cases digit
      | cons d rest =>
        have positive : 0 < numberExtent (d :: rest) := numberExtent_pos (by simpa using digit)
        refine ⟨.number, numberExtent (d :: rest) + 1, ?_, nofun, Nat.le_add_left _ _, ?_⟩
        · show lexeme ('-' :: d :: rest) = _
          rw [lexeme, if_neg (by decide), if_neg (by decide), if_pos (by simpa using digit)]
        · intro same
          simp only [List.length_singleton] at same
          omega
    · show Reaches kind [c] (c :: rest)
      rw [Reaches, lexeme_of_mark among number]
      exact markLexeme_single among rest
  | [c, d] =>
    have noDigit : ∀ m ∈ marks, m.2.tail.head?.any Char.isDigit = false := by decide
    have second : d.isDigit = false := noDigit _ among
    refine ⟨kind, 2, ?_, ?_, Nat.le_refl _, fun _ => rfl⟩
    · show lexeme (c :: d :: rest) = _
      rw [lexeme_of_mark among (by simp [second]), markLexeme_double among]
    · have ends : ∀ m ∈ marks, m.1 ≠ .endOfInput := by decide
      exact ends _ among
  | [] | c :: d :: e :: extent =>
    have short : ∀ m ∈ marks, m.2.length = 1 ∨ m.2.length = 2 := by decide
    have := short _ among
    simp at this

/-- No token ends within what another one is written with. -/
theorem Spells.reaches (h : Spells kind extent) (rest : List Char) :
    Reaches kind extent (extent ++ rest) := by
  cases h with
  | @string inside valid =>
    refine ⟨.string, inside.length + 2, ?_, nofun, ?_, fun _ => rfl⟩
    · rw [List.cons_append, List.append_assoc]
      exact lexeme_string valid rest
    · simp
  | @number negative whole places plain =>
    have longer := numberExtent_le_append (whole ++ Decimal.optionalPoint places) rest
    rw [numberExtent_plain plain] at longer
    have lexed := lexeme_number (r := Decimal.optionalPoint places ++ rest) plain negative
    rw [← List.append_assoc whole, ← List.append_assoc] at lexed
    refine ⟨.number, _, lexed, nofun, ?_, fun _ => rfl⟩
    rw [List.length_append]
    omega
  | @word c cs starts continues =>
    have run : (c :: cs ++ rest).takeWhile continuesName = c :: cs ++ rest.takeWhile continuesName :=
      List.takeWhile_append_of_pos
        (List.forall_mem_cons.2 ⟨continuesName_of_startsName starts, continues⟩)
    have lexed : lexeme (c :: (cs ++ rest)) = _ := lexeme_of_startsName starts
    rw [← List.cons_append, run] at lexed
    refine ⟨_, _, lexed, ofWord_ne_endOfInput _, ?_, ?_⟩
    · rw [List.length_append]
      exact Nat.le_add_right _ _
    · intro same
      rw [List.length_append] at same
      have none : rest.takeWhile continuesName = [] := List.length_eq_zero_iff.1 (by omega)
      rw [none, List.append_nil]
  | mark among => exact reaches_mark among rest

/-! ### The longest token -/

theorem Spells.ne_nil (h : Spells kind extent) : extent ≠ [] := by
  intro none
  obtain ⟨kind', n, lexed, more, -, -⟩ := h.reaches []
  rw [none] at lexed
  cases lexed
  exact more rfl

theorem Spells.head?_append (h : Spells kind extent) (rest : List Char) :
    (extent ++ rest).head? = extent.head? := by
  obtain ⟨c, cs, rfl⟩ := List.exists_cons_of_ne_nil h.ne_nil
  rfl

/-- By itself, what a token can be written with is that token. -/
theorem Spells.lexeme_eq (h : Spells kind extent) : lexeme extent = .token kind extent.length := by
  obtain ⟨kind', n, lexed, more, bound, same⟩ := h.reaches []
  rw [List.append_nil] at lexed
  obtain rfl : n = extent.length := Nat.le_antisymm (lexeme_extent lexed more).2 bound
  rw [lexed, same rfl]

/-- The end of the input is not written. -/
theorem Spells.ne_endOfInput (h : Spells kind extent) : kind ≠ .endOfInput := by
  rintro rfl
  exact h.ne_nil (nil_of_lexeme h.lexeme_eq)

/-- The lexer takes the longest token: what it makes of the front of a text is written with the characters
of a token, and with no more characters of the text one can be written. -/
theorem lexeme_iff_longest (more : kind ≠ .endOfInput) :
    lexeme (extent ++ rest) = .token kind extent.length ↔ Spells kind extent ∧ Longest extent rest := by
  constructor
  · intro lexed
    constructor
    · have spelled := spells_of_lexeme lexed more
      rwa [List.take_left] at spelled
    · rintro kind' longer spelled ⟨behind, whole⟩
      obtain ⟨_, n, lexed', -, bound, -⟩ := spelled.reaches behind
      rw [whole, lexed] at lexed'
      cases lexed'
      exact bound
  · rintro ⟨spelled, longest⟩
    obtain ⟨kind', n, lexed, more', bound, same⟩ := spelled.reaches rest
    have taken := longest kind' _ (spells_of_lexeme lexed more') (List.take_prefix n _)
    rw [List.length_take_of_le (lexeme_extent lexed more').2] at taken
    obtain rfl : n = extent.length := Nat.le_antisymm taken bound
    rw [lexed, same rfl]

/-- Where the longest token ends none goes on with the next character. -/
theorem Longest.not_spells (h : Longest extent (d :: rest)) : ¬ Spells kind (extent ++ [d]) := by
  intro goesOn
  have bound := h kind _ goesOn ⟨rest, by simp⟩
  rw [List.length_append] at bound
  exact absurd bound (Nat.not_succ_le_self _)

/-- Cutting a text behind a token leaves the token as it is. -/
theorem lexeme_of_append {r : List Char} (h : lexeme (cs ++ r) = .token kind n) (positive : 0 < n)
    (inside : n ≤ cs.length) : lexeme cs = .token kind n := by
  have more : kind ≠ .endOfInput := by
    rintro rfl
    have none := List.append_eq_nil_iff.1 (nil_of_lexeme h)
    rw [none.1, List.length_nil] at inside
    omega
  obtain ⟨extent, rest, rfl, rfl⟩ : ∃ extent rest, cs = extent ++ rest ∧ n = extent.length :=
    ⟨cs.take n, cs.drop n, (List.take_append_drop n cs).symm, (List.length_take_of_le inside).symm⟩
  rw [List.append_assoc] at h
  obtain ⟨spelled, longest⟩ := (lexeme_iff_longest more).1 h
  refine (lexeme_iff_longest more).2 ⟨spelled, ?_⟩
  intro kind' longer spelled' start
  refine longest kind' longer spelled' ?_
  rw [← List.append_assoc]
  exact start.trans (List.prefix_append _ r)

/-! ### What a kind is written with -/

/-- No mark is written as a literal or a name. -/
theorem not_mem_of_mark (among : (kind, extent) ∈ marks) :
    kind ∉ [.string, .number, .name, .boolean, .null] := by
  have others : ∀ m ∈ marks, m.1 ∉ [.string, .number, .name, .boolean, .null] := by decide
  exact others _ among

/-- A string is written between quotes. -/
theorem Spells.eq_quoted (h : Spells kind extent) (string : kind = .string) :
    ∃ inside, extent = '"' :: (inside ++ ['"']) ∧ Inside inside := by
  cases h with
  | string valid => exact ⟨_, rfl, valid⟩
  | number => cases string
  | @word c cs =>
    have word := ofWord_mem (c :: cs)
    rw [string] at word
    exact absurd word (by decide)
  | mark among =>
    subst string
    exact absurd (by decide) (not_mem_of_mark among)

/-- Without its sign a number consists of digits and points. -/
theorem mem_plain {whole places : List Char} (plain : Plain whole places)
    (mem : c ∈ whole ++ Decimal.optionalPoint places) : c.isDigit = true ∨ c = '.' := by
  rcases List.mem_append.1 mem with mem | mem
  · exact .inl (plain.digits c mem)
  · unfold Decimal.optionalPoint at mem
    split at mem
    · cases mem
    rcases List.mem_cons.1 mem with rfl | mem
    · exact .inr rfl
    · exact .inl (plain.digits' c mem)

/-- A number is written in digits. -/
theorem Spells.eq_plain (h : Spells kind extent) (number : kind = .number) :
    ∃ negative whole places, Plain whole places ∧
      extent = Number.signText negative ++ (whole ++ Decimal.optionalPoint places) := by
  cases h with
  | string => cases number
  | number negative plain => exact ⟨negative, _, _, plain, rfl⟩
  | @word c cs =>
    have word := ofWord_mem (c :: cs)
    rw [number] at word
    exact absurd word (by decide)
  | mark among =>
    subst number
    exact absurd (by decide) (not_mem_of_mark among)

/-- A name is written like a word. -/
theorem Spells.eq_word (h : Spells kind extent) (word : kind ∈ [.name, .boolean, .null]) :
    ∃ c cs, extent = c :: cs ∧ startsName c = true ∧ (∀ d ∈ cs, continuesName d = true) ∧
      kind = .ofWord (c :: cs) := by
  cases h with
  | string => exact absurd word (by decide)
  | number => exact absurd word (by decide)
  | word starts continues => exact ⟨_, _, rfl, starts, continues, rfl⟩
  | mark among =>
    have other := not_mem_of_mark among
    simp_all

/-! ### White space -/

/-- No character of a token but a string is white space. -/
theorem Spells.visible (h : Spells kind extent) (plain : kind ≠ .string) :
    ∀ c ∈ extent, isSpace c = false := by
  cases h with
  | string valid => exact absurd rfl plain
  | number negative digits =>
    intro c mem
    rcases List.mem_append.1 mem with mem | mem
    · have sign : (Number.signText negative).all (!isSpace ·) = true := by cases negative <;> rfl
      simpa using List.all_eq_true.1 sign c mem
    · rcases mem_plain digits mem with digit | rfl
      · exact not_isSpace_of_isDigit digit
      · decide
  | word starts continues =>
    exact List.forall_mem_cons.2 ⟨not_isSpace_of_startsName starts, fun d mem =>
      not_isSpace_of_continuesName (continues d mem)⟩
  | mark among =>
    have all : ∀ m ∈ marks, m.2.all (!isSpace ·) = true := by decide
    intro c mem
    simpa using List.all_eq_true.1 (all _ among) c mem

/-- A token does not start with white space. -/
theorem Spells.head_visible (h : Spells kind extent) : ∀ c ∈ extent.head?, isSpace c = false := by
  by_cases string : kind = .string
  · subst string
    obtain ⟨inside, rfl, -⟩ := h.eq_quoted rfl
    rintro c ⟨⟩
    decide
  · exact fun c first => h.visible string c (List.mem_of_mem_head? first)

/-- Nor does it end with white space. -/
theorem Spells.exists_last (h : Spells kind extent) :
    ∃ inside c, extent = inside ++ [c] ∧ isSpace c = false := by
  by_cases string : kind = .string
  · subst string
    obtain ⟨inside, rfl, -⟩ := h.eq_quoted rfl
    exact ⟨'"' :: inside, '"', rfl, by decide⟩
  · exact ⟨_, _, (List.dropLast_concat_getLast h.ne_nil).symm,
      h.visible string _ (List.getLast_mem h.ne_nil)⟩

/-! ### Where a token goes on -/

section Digits

variable {whole ds : List Char} (negative : Bool) (digit : d.isDigit = true)

include digit

/-- Digits up to the given one are a number. -/
theorem spells_whole (all : ∀ c ∈ ds, c.isDigit = true) :
    Spells .number (Number.signText negative ++ (ds ++ [d])) := by
  have all' := List.forall_mem_append.2 ⟨all, List.forall_mem_singleton.2 digit⟩
  have plain : Plain (ds ++ [d]) [] := ⟨by simp, all', List.forall_mem_nil _⟩
  simpa [Decimal.optionalPoint] using Spells.number negative plain

/-- So are digits behind a point. -/
theorem spells_places (some : whole ≠ []) (digits : ∀ c ∈ whole, c.isDigit = true)
    (all : ∀ c ∈ ds, c.isDigit = true) :
    Spells .number (Number.signText negative ++ (whole ++ '.' :: (ds ++ [d]))) := by
  have all' := List.forall_mem_append.2 ⟨all, List.forall_mem_singleton.2 digit⟩
  have plain : Plain whole (ds ++ [d]) := ⟨some, digits, all'⟩
  have point : Decimal.optionalPoint (ds ++ [d]) = '.' :: (ds ++ [d]) := by
    simp [Decimal.optionalPoint]
  rw [← point]
  exact .number negative plain

/-- A number can go on with a digit. -/
theorem Spells.number_concat (h : Spells kind extent) (number : kind = .number) :
    Spells .number (extent ++ [d]) := by
  obtain ⟨negative, whole, places, plain, rfl⟩ := h.eq_plain number
  cases places with
  | nil => simpa [Decimal.optionalPoint] using spells_whole negative digit plain.digits
  | cons e places =>
    simpa [Decimal.optionalPoint] using
      spells_places negative digit plain.some plain.digits plain.digits'

end Digits

/-- A name can go on with what names go on with. -/
theorem Spells.word_concat (h : Spells kind extent) (word : kind ∈ [.name, .boolean, .null])
    (continues : continuesName d = true) : ∃ kind', Spells kind' (extent ++ [d]) := by
  obtain ⟨c, cs, rfl, starts, continues', -⟩ := h.eq_word word
  exact ⟨_, .word starts (List.forall_mem_append.2 ⟨continues', List.forall_mem_singleton.2 continues⟩)⟩

/-- A number that goes on does so digit by digit. -/
theorem spells_number_concat {negative : Bool} {whole places front more : List Char}
    (plain : Plain whole places)
    (same : Number.signText negative ++ (whole ++ Decimal.optionalPoint places) = front ++ d :: more)
    (digit : d.isDigit = true) : Spells .number (front ++ [d]) := by
  rcases List.append_eq_append_iff.1 same with ⟨front', rfl, digits⟩ | ⟨back, sign, first⟩
  · rcases List.append_eq_append_iff.1 digits with ⟨behind, rfl, point⟩ | ⟨back, rfl, within⟩
    · -- behind the whole part, and so behind the point
      unfold Decimal.optionalPoint at point
      split at point
      · simp at point
      obtain ⟨rfl, point⟩ | ⟨behind, rfl, rfl⟩ := List.cons_eq_append_iff.1 point
      · cases point
        exact absurd digit (by decide)
      · have before := fun c mem => plain.digits' c (List.mem_append_left _ mem)
        simpa using spells_places negative digit plain.some plain.digits before
    · -- among the digits of the whole part
      cases back with
      | nil =>
        unfold Decimal.optionalPoint at within
        split at within <;> cases within
        exact absurd digit (by decide)
      | cons e back =>
        cases within
        have before := fun c mem => plain.digits c (List.mem_append_left _ mem)
        simpa using spells_whole negative digit before
  · -- the first digit
    have alone := spells_whole negative digit (List.forall_mem_nil _)
    cases back with
    | nil =>
      rw [List.append_nil] at sign
      rwa [sign] at alone
    | cons e back =>
      cases first
      cases negative with
      | false => simp [Number.signText] at sign
      | true =>
        have minus : d ∈ Number.signText true := by simp [sign]
        rw [List.mem_singleton.1 minus] at digit
        exact absurd digit (by decide)

/-- Where a longer token than one that ends is written, its next character can be added, unless that is
a point. -/
theorem Spells.concat_of_append (h : Spells kind extent) {more : List Char}
    (longer : Spells kind' (extent ++ d :: more)) (noPoint : d ≠ '.') :
    ∃ kind'', Spells kind'' (extent ++ [d]) := by
  obtain ⟨c, tail, rfl⟩ := List.exists_cons_of_ne_nil h.ne_nil
  generalize whole : c :: tail ++ d :: more = text at longer
  cases longer with
  | @string inside valid =>
    -- the string before has its closing quote already
    obtain ⟨rfl, same⟩ : c = '"' ∧ tail ++ d :: more = inside ++ ['"'] := List.cons.inj whole
    have alone := h.lexeme_eq
    rw [lexeme, if_pos rfl] at alone
    cases inner : interior? tail with
    | none =>
      rw [inner] at alone
      cases alone
    | some m =>
      rw [inner] at alone
      simp only [Lexeme.token.injEq, List.length_cons] at alone
      have closed := interior?_append (r := d :: more) inner
      rw [same, valid.interior? []] at closed
      cases closed
      have lengths := congrArg List.length same
      simp only [List.length_append, List.length_cons, List.length_nil] at lengths
      omega
  | number negative plain =>
    refine ⟨.number, spells_number_concat plain whole.symm ?_⟩
    -- a sign would be the first character
    have inside : d ∈ (c :: tail ++ d :: more).tail := List.mem_append_right _ List.mem_cons_self
    rw [whole] at inside
    cases negative with
    | false => exact (mem_plain plain (List.mem_of_mem_tail inside)).resolve_right noPoint
    | true => exact (mem_plain plain inside).resolve_right noPoint
  | word starts continues =>
    obtain ⟨rfl, rfl⟩ := List.cons.inj whole
    refine ⟨_, .word starts fun e mem => continues e ?_⟩
    rcases List.mem_append.1 mem with mem | mem
    · exact List.mem_append_left _ mem
    · rw [List.mem_singleton.1 mem]
      exact List.mem_append_right _ List.mem_cons_self
  | mark among =>
    have short : ∀ m ∈ marks, m.2.length = 1 ∨ m.2.length = 2 := by decide
    have length := short _ among
    rw [← whole] at among length
    simp only [List.length_append, List.length_cons] at length
    obtain rfl : more = [] := List.length_eq_zero_iff.1 (by omega)
    exact ⟨_, .mark among⟩

/-- What a token is depends on its own characters and on the one behind it, as long as that is no point:
it stays the same in front of white space and at the end. -/
theorem lexeme_of_behind {rest' : List Char} (more : kind ≠ .endOfInput)
    (h : lexeme (extent ++ rest) = .token kind extent.length)
    (behind : ∀ d ∈ rest'.head?, isSpace d = true ∨ rest.head? = some d ∧ d ≠ '.') :
    lexeme (extent ++ rest') = .token kind extent.length := by
  obtain ⟨spelled, longest⟩ := (lexeme_iff_longest more).1 h
  refine (lexeme_iff_longest more).2 ⟨spelled, ?_⟩
  intro kind' longer spelled' start
  by_contra further
  obtain ⟨beyond, rfl⟩ : extent <+: longer :=
    List.prefix_of_prefix_length_le (List.prefix_append _ _) start (Nat.le_of_not_le further)
  cases beyond with
  | nil => simp at further
  | cons d beyond =>
    have first : d ∈ rest'.head? := by
      obtain ⟨left, whole⟩ := (List.prefix_append_right_inj extent).1 start
      rw [← whole]
      rfl
    have noPoint : d ≠ '.' := by
      rintro rfl
      rcases behind '.' first with space | ⟨-, noPoint⟩
      · exact absurd space (by decide)
      · exact noPoint rfl
    obtain ⟨kind'', shorter⟩ := spelled.concat_of_append spelled' noPoint
    rcases behind d first with space | ⟨first', -⟩
    · obtain ⟨inside, c, same, visible⟩ := shorter.exists_last
      obtain ⟨-, is⟩ := List.append_inj' same rfl
      cases is
      rw [space] at visible
      cases visible
    · obtain ⟨tail, rfl⟩ := List.head?_eq_some_iff.1 first'
      exact longest.not_spells shorter

end Quaked.Selector.Token
