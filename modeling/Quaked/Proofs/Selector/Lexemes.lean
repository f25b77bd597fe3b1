import Mathlib.Data.List.TakeWhile
import Quaked.Proofs.Selector.Lexing
import Quaked.Proofs.Selector.Printable
import Quaked.Proofs.Text.Quoted

/-!
# Written tokens

Each thing that the spelling of a selector writes is one token, and the token says what was written:
names, numbers and strings when nothing follows (`front?_name`, `front?_number`, `front?_string`),
operators in front of what stands behind them (`front?_binary`, `front?_unary`), and the marks that
no longer mark starts with in front of anything (`front?_bracket`).
-/

namespace Quaked.Selector

open Text TokenSource Selector.Token

/-! ### Characters -/

/-- The code points of white space. -/
def spaces : List Nat :=
  [0x9, 0xA, 0xB, 0xC, 0xD, 0x20, 0x85, 0xA0, 0x1680, 0x2000, 0x2001, 0x2002, 0x2003, 0x2004, 0x2005,
    0x2006, 0x2007, 0x2008, 0x2009, 0x200A, 0x2028, 0x2029, 0x202F, 0x205F, 0x3000]

theorem toNat_mem_spaces {c : Char} (h : isSpace c = true) : c.toNat ∈ spaces := by
  simp only [isSpace, Bool.or_eq_true, Bool.and_eq_true, decide_eq_true_eq] at h
  simp only [spaces, List.mem_cons, List.not_mem_nil]
  omega

theorem isLetter_of_isSpace {c : Char} (h : isSpace c = true) : isLetter c = false := by
  have none : ∀ n ∈ spaces, inRanges n letterRanges = false := by decide +kernel
  exact none c.toNat (toNat_mem_spaces h)

theorem isNumeral_of_isSpace {c : Char} (h : isSpace c = true) : isNumeral c = false := by
  have none : ∀ n ∈ spaces, inRanges n numeralRanges = false := by decide
  exact none c.toNat (toNat_mem_spaces h)

theorem not_isSpace_of_continuesName {c : Char} (h : continuesName c = true) :
    isSpace c = false := by
  cases space : isSpace c with
  | false => rfl
  | true =>
    simp only [continuesName, isLetter_of_isSpace space, isNumeral_of_isSpace space, Bool.or_self,
      Bool.false_or, decide_eq_true_eq] at h
    rw [h] at space
    exact absurd space (by decide)

theorem not_isSpace_of_startsName {c : Char} (h : startsName c = true) : isSpace c = false :=
  not_isSpace_of_continuesName (continuesName_of_startsName h)

theorem not_isSpace_of_isDigit {c : Char} (h : c.isDigit = true) : isSpace c = false := by
  refine not_isSpace_of_continuesName ?_
  simp [continuesName, isNumeral_of_isDigit h]

theorem not_startsName_of_isDigit {c : Char} (h : c.isDigit = true) : startsName c = false := by
  have range : 48 ≤ c.toNat ∧ c.toNat ≤ 57 := by
    simpa [Char.isDigit, UInt32.le_iff_toNat_le] using h
  have none : ∀ n ∈ List.range' 48 10, inRanges n letterRanges = false := by decide
  have letter : isLetter c = false := none c.toNat (List.mem_range'_1.2 (by omega))
  have other : c ≠ '_' := by
    rintro rfl
    exact absurd h (by decide)
  simp [startsName, letter, other]

/-! ### Single tokens -/

variable {cs r : List Char} {kind : Kind} {text : String}

theorem front?_space (cs : List Char) : front? (' ' :: cs) = front? cs := rfl

/-- Where no white space stands in front, the token starts at once. -/
theorem front?_of_lexeme {c : Char} (n : Nat) (space : isSpace c = false)
    (lexed : lexeme (c :: cs) = .token kind n) :
    front? (c :: cs) =
      some ((kind, kind.textOf ((c :: cs).take n)), (c :: cs).drop n) := by
  have start : (c :: cs).dropWhile isSpace = c :: cs := by simp [space]
  rw [← start] at lexed
  have front := front?_eq_some_iff.2 ⟨n, lexed, rfl, rfl⟩
  rw [start] at front
  exact front

/-- A text that is one token from its first character to its last. -/
theorem front?_of_whole (visible : ∀ c ∈ cs.head?, isSpace c = false)
    (lexed : lexeme cs = .token kind cs.length) : front? cs = some ((kind, kind.textOf cs), []) := by
  cases cs with
  | nil =>
    cases lexed
    rfl
  | cons c cs =>
    have front := front?_of_lexeme _ (visible c rfl) lexed
    rw [List.take_length, List.drop_length] at front
    exact front

/-- A mark of one character that no other mark starts with. -/
theorem front?_bracket {c : Char} (cs : List Char)
    (mark : (c, kind) ∈ [('(', .openParen), (')', .closeParen), ('[', .openBracket),
      (']', .closeBracket), ('{', .openBrace), ('}', .closeBrace), (',', .comma), (':', .colon)]) :
    front? (c :: cs) = some ((kind, String.singleton c), cs) := by
  revert mark
  generalize same : (c, kind) = pair
  intro mark
  simp only [List.mem_cons, List.not_mem_nil, or_false] at mark
  rcases mark with rfl | rfl | rfl | rfl | rfl | rfl | rfl | rfl <;> cases same <;>
    exact front?_of_lexeme 1 (by decide) rfl

theorem isName_iff {name : String} :
    isName name = true ↔ ∃ c cs, name.toList = c :: cs ∧ startsName c = true ∧
      (∀ d ∈ cs, continuesName d = true) ∧ Kind.ofWord name.toList = .name := by
  have word : Kind.ofWord name.toList = .name ↔ name ∉ ["true", "false", "null"] := by
    have same (text : String) : name.toList = text.toList ↔ name = text := String.toList_inj
    have t := same "true"
    have f := same "false"
    have n := same "null"
    simp only [Kind.ofWord, List.mem_cons, List.not_mem_nil, or_false, not_or]
    rw [show "true".toList = ['t', 'r', 'u', 'e'] from rfl] at t
    rw [show "false".toList = ['f', 'a', 'l', 's', 'e'] from rfl] at f
    rw [show "null".toList = ['n', 'u', 'l', 'l'] from rfl] at n
    simp only [t, f, n]
    by_cases first : name = "true" ∨ name = "false"
    · rw [if_pos first]
      rcases first with rfl | rfl <;> simp
    · rw [if_neg first]
      obtain ⟨notTrue, notFalse⟩ := not_or.1 first
      by_cases isNull : name = "null" <;> simp [isNull, notTrue, notFalse]
  unfold isName
  rw [word]
  cases letters : name.toList with
  | nil => simp
  | cons c cs => simp [and_assoc]

/-- Where a name can start, a word is read as far as a name goes on. -/
theorem lexeme_of_startsName {c : Char} (starts : startsName c = true) :
    lexeme (c :: cs) = .token (.ofWord ((c :: cs).takeWhile continuesName))
      ((c :: cs).takeWhile continuesName).length := by
  have quote : c ≠ '"' := by
    rintro rfl
    exact absurd starts (by decide)
  have minus : c ≠ '-' := by
    rintro rfl
    exact absurd starts (by decide)
  have digit : c.isDigit = false := by
    cases digit : c.isDigit with
    | false => rfl
    | true =>
      rw [not_startsName_of_isDigit digit] at starts
      cases starts
  rw [lexeme, if_neg quote, digit, if_neg Bool.false_ne_true]
  simp only [minus, decide_false, Bool.false_and, Bool.false_eq_true, if_false, starts, if_true]

theorem front?_name {name : String} (is : isName name = true) :
    front? name.toList = some ((.name, name), []) := by
  obtain ⟨c, cs, letters, starts, continues, word⟩ := isName_iff.1 is
  rw [letters] at word ⊢
  have all : (c :: cs).takeWhile continuesName = c :: cs := by
    rw [List.takeWhile_cons, if_pos (continuesName_of_startsName starts)]
    exact congrArg (c :: ·) (List.takeWhile_eq_self_iff.2 continues)
  have lexed : lexeme (c :: cs) = _ := lexeme_of_startsName starts
  rw [all, word] at lexed
  have visible : ∀ d ∈ (c :: cs).head?, isSpace d = false := by
    rintro d ⟨⟩
    exact not_isSpace_of_startsName starts
  rw [front?_of_whole visible lexed, ← letters]
  simp [Kind.textOf, textOf_false]

/-- A number reaches as far as its digits do. -/
theorem numberExtent_plain {whole places : List Char} (plain : Plain whole places) :
    numberExtent (whole ++ Decimal.optionalPoint places) =
      (whole ++ Decimal.optionalPoint places).length := by
  have point : (Decimal.optionalPoint places).head?.all (!Char.isDigit ·) = true := by
    unfold Decimal.optionalPoint
    split <;> rfl
  have extent : digitExtent (whole ++ Decimal.optionalPoint places) = whole.length := by
    rw [digitExtent, takeWhile_append_of_head point, List.takeWhile_eq_self_iff.2 plain.digits]
  have behind : (whole ++ Decimal.optionalPoint places).dropWhile Char.isDigit =
      Decimal.optionalPoint places := by
    rw [dropWhile_append_of_head point, List.dropWhile_eq_nil_iff.2 plain.digits, List.nil_append]
  unfold numberExtent
  rw [behind, extent]
  cases places with
  | nil => simp [Decimal.optionalPoint]
  | cons d ds =>
    have digit := plain.digits' d List.mem_cons_self
    have fraction : digitExtent (d :: ds) = (d :: ds).length := by
      rw [digitExtent, List.takeWhile_eq_self_iff.2 plain.digits']
    simp only [Decimal.optionalPoint, List.isEmpty_cons, Bool.false_eq_true, if_false,
      List.head?_cons, Option.any_some, digit, if_true, fraction, List.length_append,
      List.length_cons]
    omega

/-- Digits are the start of a number, also behind a minus. -/
theorem lexeme_number {whole places : List Char} (plain : Plain whole places) (negative : Bool) :
    lexeme (Number.signText negative ++ (whole ++ r)) =
      .token .number ((Number.signText negative).length + numberExtent (whole ++ r)) := by
  obtain ⟨c, cs, rfl⟩ := List.exists_cons_of_ne_nil plain.some
  have digit := plain.digits c List.mem_cons_self
  have quote : c ≠ '"' := by
    rintro rfl
    exact absurd digit (by decide)
  cases negative with
  | false =>
    show lexeme (c :: (cs ++ r)) = .token .number (0 + numberExtent (c :: (cs ++ r)))
    rw [lexeme, if_neg quote, if_pos digit, Nat.zero_add]
  | true =>
    show lexeme ('-' :: c :: (cs ++ r)) = .token .number (1 + numberExtent (c :: (cs ++ r)))
    rw [lexeme, if_neg (by decide), if_neg (by decide), if_pos (by simp [digit]), Nat.add_comm]

theorem front?_number {whole places : List Char} (plain : Plain whole places) (negative : Bool) :
    front? (Number.signText negative ++ (whole ++ Decimal.optionalPoint places)) =
      some ((.number, String.ofList
        (Number.signText negative ++ (whole ++ Decimal.optionalPoint places))), []) := by
  have lexed := lexeme_number (r := Decimal.optionalPoint places) plain negative
  rw [numberExtent_plain plain, ← List.length_append] at lexed
  refine front?_of_whole ?_ lexed
  cases negative with
  | false =>
    obtain ⟨c, cs, rfl⟩ := List.exists_cons_of_ne_nil plain.some
    rintro d ⟨⟩
    exact not_isSpace_of_isDigit (plain.digits c List.mem_cons_self)
  | true =>
    rintro d ⟨⟩
    decide

/-- What can stand between quotes is a string with them, whatever follows. -/
theorem lexeme_string {inside : List Char} (valid : Inside inside) (r : List Char) :
    lexeme ('"' :: (inside ++ '"' :: r)) = .token .string (inside.length + 2) := by
  rw [lexeme, if_pos rfl, valid.interior?]

theorem front?_string (text : String) :
    front? (Value.spellString text) =
      some ((.string, String.ofList (escape text.toList)), []) := by
  have lexed := lexeme_string (inside_escape text.toList) []
  have length : (escape text.toList).length + 2 = ('"' :: (escape text.toList ++ ['"'])).length := by
    simp
  rw [length] at lexed
  refine (front?_of_whole ?_ lexed).trans ?_
  · rintro d ⟨⟩
    decide
  · simp [Kind.textOf, textOf_true]

theorem front?_binary (op : BinaryOp) (cs : List Char) :
    front? (op.symbol.toList ++ ' ' :: cs) = some ((op.kind, op.symbol), ' ' :: cs) := by
  have alone : front? op.symbol.toList = some ((op.kind, op.symbol), []) := by
    cases op <;> rfl
  exact front?_append alone op.kind_ne_endOfInput rfl

/-- An operator with one operand is not taken for the start of a number or of a longer mark. -/
theorem front?_unary (op : UnaryOp) {c : Char} (digit : c.isDigit = false) (arrow : c ≠ '>')
    (equals : c ≠ '=') :
    front? (op.symbol.toList ++ c :: cs) = some ((op.kind, op.symbol), c :: cs) := by
  have name : startsName '-' = false ∧ startsName '!' = false := by decide
  cases op with
  | negate =>
    have lexed : lexeme ('-' :: c :: cs) = .token .minus 1 := by
      simp [lexeme, digit, name, markLexeme, arrow]
    exact front?_of_lexeme 1 (by decide) lexed
  | not =>
    have lexed : lexeme ('!' :: c :: cs) = .token .not 1 := by
      simp [lexeme, name, markLexeme, equals]
    exact front?_of_lexeme 1 (by decide) lexed

end Quaked.Selector
