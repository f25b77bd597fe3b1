import Quaked.Proofs.Selector.Exactness
import Quaked.Proofs.Selector.Lexemes

/-!
# The text of a selector derives it

What is written piece by piece is read token by token. A piece is `Spelled` as a phrase if its
tokens, with nothing left, derive the phrase. Pieces are put together with blanks, commas and
brackets, and no token goes on with one of these, so the tokens of a whole are those of its pieces.
The parentheses that are written lift an operand to the level its place asks for
(`Spelled.operand`).

* `Shaped.spelled`: the text of a readable selector derives what it is read back as.
* `Readable.parse_text`: and so it is parsed.
-/

namespace Quaked.Selector

open Text TokenSource Selector.Token

variable {cs r : List Char} {kind : Kind} {text : String}

/-! ### Pieces -/

/-- The tokens of a piece derive a phrase, and nothing is left. -/
def Spelled (cs : List Char) (φ : Phrase) : Prop :=
  ∃ ts, Lexes cs (ts.map Token.wording) [] ∧ Derives ts φ

/-- A token of the given wording. -/
private def worded (kind : Kind) (text : String) : Token := ⟨kind, text, .start⟩

/-- A bracket or another single mark, and what comes behind it. -/
theorem Lexes.bracket {c : Char} {rest : List Char} {ws : List (Kind × String)}
    (tail : Lexes cs ws rest)
    (mark : (c, kind) ∈ [('(', .openParen), (')', .closeParen), ('[', .openBracket),
      (']', .closeBracket), ('{', .openBrace), ('}', .closeBrace), (',', .comma), (':', .colon)]) :
    Lexes (c :: cs) ((kind, String.singleton c) :: ws) rest := by
  refine .cons (front?_bracket cs mark) ?_ tail
  rintro rfl
  simp at mark

/-- A blank in front of tokens is passed. -/
theorem Lexes.space {rest : List Char} {ws : List (Kind × String)} (h : Lexes cs ws rest)
    (some : ws ≠ []) : Lexes (' ' :: cs) ws rest := by
  cases h with
  | nil => exact absurd rfl some
  | cons front more tail => exact .cons (front?_space cs ▸ front) more tail

namespace Spelled

variable {φ : Phrase} {e : Selector}

/-- A single token. -/
theorem token (front : front? cs = some ((kind, text), [])) (more : kind ≠ .endOfInput)
    (derived : Derives [worded kind text] φ) : Spelled cs φ :=
  ⟨[worded kind text], .single front more, derived⟩

/-- Behind a piece stands something that goes on with no token. -/
theorem before (h : Spelled cs φ) (ended : atDelimiter endsToken r = true) :
    ∃ ts, Lexes (cs ++ r) (ts.map Token.wording) r ∧ Derives ts φ := by
  obtain ⟨ts, lexes, derived⟩ := h
  exact ⟨ts, lexes.extend ended, derived⟩

theorem space (h : Spelled cs φ) : Spelled (' ' :: cs) φ := by
  obtain ⟨ts, lexes, derived⟩ := h
  obtain ⟨t, us, rfl, -⟩ := derived.starts
  exact ⟨t :: us, lexes.space (by simp), derived⟩

theorem parenthesized (h : Spelled cs (.operand 1 e)) :
    Spelled (parenthesized cs) (.operand 6 e) := by
  obtain ⟨ts, lexes, derived⟩ := h.before (r := [')']) rfl
  refine ⟨worded .openParen "(" :: ts ++ [worded .closeParen ")"], ?_,
    .parentheses rfl derived rfl⟩
  have closing : Lexes [')'] [(.closeParen, ")")] [] := .bracket (.nil []) (by simp)
  have whole : Lexes ('(' :: (cs ++ [')'])) ((.openParen, "(") :: (ts.map Token.wording ++ _)) [] :=
    (lexes.append closing).bracket (by simp)
  simpa [worded, Token.wording, Selector.parenthesized] using whole

/-- One more piece behind a comma. -/
private theorem comma {α : Type} {φ : α → Phrase} {ψ : List α → Phrase}
    (more : ∀ {ts us t as a}, Derives ts (ψ as) → t.kind = .comma → Derives us (φ a) →
      Derives (ts ++ t :: us) (ψ (as ++ [a])))
    {as : List α} {a : α} (h : Spelled cs (ψ as)) (last : Spelled r (φ a)) :
    Spelled (cs ++ ',' :: ' ' :: r) (ψ (as ++ [a])) := by
  obtain ⟨ts, lexes, derived⟩ := h.before (r := ',' :: ' ' :: r) rfl
  obtain ⟨us, lexes', derived'⟩ := last.space
  have tail : Lexes (',' :: ' ' :: r) ((.comma, ",") :: us.map Token.wording) [] :=
    lexes'.bracket (by simp)
  refine ⟨ts ++ worded .comma "," :: us, ?_, more derived rfl derived'⟩
  simpa [worded, Token.wording] using lexes.append tail

/-- Pieces with commas between them are a list. -/
theorem commaSeparated {α : Type} {φ : α → Phrase} {ψ : List α → Phrase}
    (one : ∀ {ts a}, Derives ts (φ a) → Derives ts (ψ [a]))
    (more : ∀ {ts us t as a}, Derives ts (ψ as) → t.kind = .comma → Derives us (φ a) →
      Derives (ts ++ t :: us) (ψ (as ++ [a])))
    (piece : α → List Char) {as : List α} (some : as ≠ [])
    (each : ∀ a ∈ as, Spelled (piece a) (φ a)) :
    Spelled (Value.commaSeparated (as.map piece)) (ψ as) := by
  have onwards (as : List α) : ∀ (cs : List Char) (a : α) (done : List α),
      Spelled (cs ++ piece a) (ψ (done ++ [a])) → (∀ a ∈ as, Spelled (piece a) (φ a)) →
      Spelled (cs ++ Value.commaSeparated (piece a :: as.map piece)) (ψ (done ++ a :: as)) := by
    induction as with
    | nil =>
      intro cs a done h each
      simpa [Value.commaSeparated] using h
    | cons b as ih =>
      intro cs a done h each
      have next := comma more h (each b List.mem_cons_self)
      have rest := ih (cs ++ piece a ++ [',', ' ']) b (done ++ [a]) (by simpa using next)
        fun a mem => each a (List.mem_cons_of_mem b mem)
      simpa [Value.commaSeparated] using rest
  obtain ⟨a, as, rfl⟩ := List.exists_cons_of_ne_nil some
  have first : Spelled ([] ++ piece a) (ψ ([] ++ [a])) := by
    obtain ⟨ts, lexes, derived⟩ := each a List.mem_cons_self
    exact ⟨ts, lexes, one derived⟩
  exact onwards as [] a [] first fun b mem => each b (List.mem_cons_of_mem a mem)

/-! ### Brackets -/

theorem emptyArray : Spelled (Value.spellArray []) (.operand 6 (.array [])) := by
  refine ⟨[worded .openBracket "[", worded .closeBracket "]"], ?_, .emptyArray rfl rfl⟩
  have closing : Lexes [']'] [(.closeBracket, "]")] [] := .bracket (.nil []) (by simp)
  have whole : Lexes ['[', ']'] [(.openBracket, "["), (.closeBracket, "]")] [] :=
    closing.bracket (by simp)
  exact whole

theorem emptyMap : Spelled (Value.spellMap []) (.operand 6 (.map [])) := by
  refine ⟨[worded .openBrace "\x7b", worded .closeBrace "\x7d"], ?_, .emptyMap rfl rfl⟩
  have closing : Lexes ['}'] [(.closeBrace, "\x7d")] [] := .bracket (.nil []) (by simp)
  have whole : Lexes ['{', ' ', ' ', '}'] [(.openBrace, "\x7b"), (.closeBrace, "\x7d")] [] :=
    ((closing.space (by simp)).space (by simp)).bracket (by simp)
  exact whole

theorem emptyChoice : Spelled (spellChoice []) (.operand 6 (.choice [])) := by
  refine ⟨[worded .openBrace "\x7b", worded .openBrace "\x7b", worded .closeBrace "\x7d",
    worded .closeBrace "\x7d"], ?_, .emptyChoice rfl rfl rfl rfl⟩
  have closing : Lexes ['}', '}'] [(.closeBrace, "\x7d"), (.closeBrace, "\x7d")] [] :=
    .bracket (.bracket (.nil []) (by simp)) (by simp)
  have inner : Lexes ['{', ' ', ' ', '}', '}']
      [(.openBrace, "\x7b"), (.closeBrace, "\x7d"), (.closeBrace, "\x7d")] [] :=
    ((closing.space (by simp)).space (by simp)).bracket (by simp)
  have whole : Lexes ['{', '{', ' ', ' ', '}', '}'] [(.openBrace, "\x7b"), (.openBrace, "\x7b"),
      (.closeBrace, "\x7d"), (.closeBrace, "\x7d")] [] := inner.bracket (by simp)
  exact whole

theorem array {es : List Selector} (h : Spelled cs (.items es)) :
    Spelled ('[' :: cs ++ [']']) (.operand 6 (.array es)) := by
  obtain ⟨ts, lexes, derived⟩ := h.before (r := [']']) rfl
  have closing : Lexes [']'] [(.closeBracket, "]")] [] := .bracket (.nil []) (by simp)
  have whole : Lexes ('[' :: (cs ++ [']'])) ((.openBracket, "[") :: (ts.map Token.wording ++ _)) [] :=
    (lexes.append closing).bracket (by simp)
  refine ⟨worded .openBracket "[" :: ts ++ [worded .closeBracket "]"], ?_, .array rfl derived rfl⟩
  simpa [worded, Token.wording] using whole

theorem map {es : List (String × Selector)} (h : Spelled cs (.entries es)) :
    Spelled ('{' :: ' ' :: cs ++ [' ', '}']) (.operand 6 (.map es)) := by
  obtain ⟨ts, lexes, derived⟩ := h.space.before (r := [' ', '}']) rfl
  have closing : Lexes ['}'] [(.closeBrace, "\x7d")] [] := .bracket (.nil []) (by simp)
  have whole : Lexes ('{' :: (' ' :: cs ++ [' ', '}']))
      ((.openBrace, "\x7b") :: (ts.map Token.wording ++ _)) [] :=
    (lexes.append (closing.space (by simp))).bracket (by simp)
  refine ⟨worded .openBrace "\x7b" :: ts ++ [worded .closeBrace "\x7d"], ?_, .map rfl derived rfl⟩
  simpa [worded, Token.wording] using whole

theorem choice {es : List Selector} (h : Spelled cs (.elements es)) :
    Spelled ('{' :: '{' :: ' ' :: cs ++ [' ', '}', '}']) (.operand 6 (.choice es)) := by
  obtain ⟨ts, lexes, derived⟩ := h.space.before (r := [' ', '}', '}']) rfl
  have closing : Lexes ['}', '}'] [(.closeBrace, "\x7d"), (.closeBrace, "\x7d")] [] :=
    .bracket (.bracket (.nil []) (by simp)) (by simp)
  have inner : Lexes ('{' :: (' ' :: cs ++ [' ', '}', '}']))
      ((.openBrace, "\x7b") :: (ts.map Token.wording ++ _)) [] :=
    (lexes.append (closing.space (by simp))).bracket (by simp)
  have whole : Lexes ('{' :: '{' :: (' ' :: cs ++ [' ', '}', '}']))
      ((.openBrace, "\x7b") :: (.openBrace, "\x7b") :: (ts.map Token.wording ++ _)) [] :=
    inner.bracket (by simp)
  refine ⟨worded .openBrace "\x7b" :: worded .openBrace "\x7b" :: ts ++
    [worded .closeBrace "\x7d", worded .closeBrace "\x7d"], ?_, .choice rfl rfl derived rfl rfl⟩
  simpa [worded, Token.wording] using whole

theorem entry (key : String) (h : Spelled cs (.operand 1 e)) :
    Spelled (Value.spellEntry key cs) (.entry key e) := by
  obtain ⟨ts, lexes, derived⟩ := h.space
  have front := front?_append (r := ':' :: ' ' :: cs) (front?_string key) (by simp) rfl
  have value : Lexes (':' :: ' ' :: cs) ((.colon, ":") :: ts.map Token.wording) [] :=
    lexes.bracket (by simp)
  refine ⟨worded .string (String.ofList (escape key.toList)) :: worded .colon ":" :: ts,
    .cons front (by simp [worded, Token.wording]) value, ?_⟩
  have keyed := Derives.keyed (t := worded .string (String.ofList (escape key.toList)))
    (u := worded .colon ":") rfl rfl derived
  simpa [Grammar.unquoted, worded, unescape_escape] using keyed

/-! ### Operators -/

theorem guarded {c v : Selector} (condition : Spelled cs (.operand 1 c))
    (value : Spelled r (.operand 1 v)) :
    Spelled (cs ++ ' ' :: '-' :: '>' :: ' ' :: r) (.element (.guarded c v)) := by
  obtain ⟨ts, lexes, derived⟩ := condition.before (r := ' ' :: '-' :: '>' :: ' ' :: r) rfl
  obtain ⟨us, lexes', derived'⟩ := value.space
  have arrow : front? (' ' :: '-' :: '>' :: ' ' :: r) = some ((.arrow, "->"), ' ' :: r) :=
    (front?_space _).trans (front?_of_lexeme 2 (by decide) rfl)
  have tail : Lexes (' ' :: '-' :: '>' :: ' ' :: r) ((.arrow, "->") :: us.map Token.wording) [] :=
    .cons arrow (by decide) lexes'
  refine ⟨ts ++ worded .arrow "->" :: us, ?_, .guarded derived rfl derived'⟩
  simpa [worded, Token.wording] using lexes.append tail

end Spelled

/-- Both operands of an operator may stand on the next level. -/
theorem Derives.binary {as bs : List Token} {t : Token} {op : BinaryOp} {a b : Selector}
    (left : Derives as (.operand (op.precedence + 1) a)) (mark : t.kind = op.kind)
    (right : Derives bs (.operand (op.precedence + 1) b)) :
    Derives (as ++ t :: bs) (.operand op.precedence (.binary op a b)) := by
  by_cases comparing : op.precedence = 3
  · rw [comparing] at left right ⊢
    exact left.compared mark right comparing
  · have positive : 0 < op.precedence := by cases op <;> decide
    exact (Derives.level positive left).grouped mark right comparing

namespace Spelled

variable {e : Selector}

theorem binary (op : BinaryOp) {a b : Selector} (left : Spelled cs (.operand (op.precedence + 1) a))
    (right : Spelled r (.operand (op.precedence + 1) b)) :
    Spelled (cs ++ ' ' :: op.symbol.toList ++ ' ' :: r)
      (.operand op.precedence (.binary op a b)) := by
  obtain ⟨ts, lexes, derived⟩ := left.before (r := ' ' :: (op.symbol.toList ++ ' ' :: r)) rfl
  obtain ⟨us, lexes', derived'⟩ := right.space
  have operator := (front?_space _).trans (front?_binary op r)
  have tail : Lexes (' ' :: (op.symbol.toList ++ ' ' :: r))
      ((op.kind, op.symbol) :: us.map Token.wording) [] :=
    .cons operator op.kind_ne_endOfInput lexes'
  refine ⟨ts ++ worded op.kind op.symbol :: us, ?_, derived.binary rfl derived'⟩
  simpa [worded, Token.wording] using lexes.append tail

theorem unary (op : UnaryOp) {c : Char} (digit : c.isDigit = false) (arrow : c ≠ '>')
    (equals : c ≠ '=') (h : Spelled (c :: cs) (.operand 5 e)) :
    Spelled (op.symbol.toList ++ c :: cs) (.operand 5 (.unary op e)) := by
  obtain ⟨ts, lexes, derived⟩ := h
  exact ⟨worded op.kind op.symbol :: ts,
    .cons (front?_unary op digit arrow equals) op.kind_ne_endOfInput lexes, .unary rfl derived⟩

theorem imp {φ ψ : Phrase} (h : Spelled cs φ) (imp : ∀ {ts}, Derives ts φ → Derives ts ψ) :
    Spelled cs ψ := by
  obtain ⟨ts, lexes, derived⟩ := h
  exact ⟨ts, lexes, imp derived⟩

/-- What stands on a level stands on those below it. -/
theorem lower {p q : Nat} (h : Spelled cs (.operand q e)) (le : p ≤ q) (positive : 0 < p) :
    Spelled cs (.operand p e) := by
  obtain ⟨k, rfl⟩ := Nat.exists_eq_add_of_le le
  clear le
  induction k with
  | zero => exact h
  | succ k ih => exact ih (h.imp fun derived => .level (by omega) derived)

end Spelled

/-! ### Selectors -/

/-- The level on which the text of a selector stands. A number may be written as an operator and a
name. -/
def level : Selector → Nat
  | binary op _ _ => op.precedence
  | unary _ _ => 5
  | literal (.number _) => 5
  | _ => 6

theorem level_pos (e : Selector) : 0 < e.level := by
  unfold level
  split
  · rename_i op _ _
    cases op <;> decide
  all_goals decide

/-- What the text of a selector is read as where it stands. -/
def Place.phrase : Place → Selector → Phrase
  | operand, e => .operand e.level e.reread
  | element, e => .element e.reread

namespace Spelled

variable {e e' : Selector}

/-- An operand stands one level above its operator, if need be in parentheses. -/
theorem operand {p : Nat} (positive : 0 < p) (loose : p ≤ 4) (conditionless : ∀ c v, e ≠ .guarded c v)
    (h : Spelled cs (.operand e.level e')) :
    Spelled (parenthesizedIf (e.needsParens p) cs) (.operand (p + 1) e') := by
  unfold parenthesizedIf
  split
  · have whole := (h.lower e.level_pos Nat.one_pos).parenthesized
    exact whole.lower (by omega) (by omega)
  · rename_i parens
    refine h.lower ?_ (by omega)
    cases e with
    | binary op a b =>
      simp only [needsParens, decide_eq_true_eq, Nat.not_le] at parens
      exact parens
    | guarded c v => exact absurd rfl (conditionless c v)
    | literal value => cases value <;> simp only [level] <;> omega
    | _ => simp only [level]; omega

end Spelled

variable {numbers : Number .double → Prop} {e : Selector}

theorem Shaped.ne_guarded (h : Shaped numbers .operand e) (c v : Selector) : e ≠ .guarded c v := by
  rintro rfl
  cases h

theorem spellItems_eq_map (items : List Selector) : spellItems items = items.map spell := by
  induction items with
  | nil => rfl
  | cons item items ih => rw [spellItems, ih, List.map_cons]

theorem spellEntries_eq_map (entries : List (String × Selector)) :
    spellEntries entries = entries.map fun entry => Value.spellEntry entry.1 entry.2.spell := by
  induction entries with
  | nil => rfl
  | cons entry entries ih => rw [spellEntries, ih, List.map_cons]

/-- An operand that needs no parentheses behind an operator starts with none of the characters that
an operator could go on with. -/
theorem Shaped.head_spell (h : Shaped numbers .operand e) (alone : e.needsParensAlone = false) :
    e.level = 6 ∧ ∃ c cs, e.spell = c :: cs ∧ c.isDigit = false ∧ c ≠ '>' ∧ c ≠ '=' := by
  cases h with
  | null => exact ⟨rfl, _, _, rfl, by decide, by decide, by decide⟩
  | boolean b =>
    cases b with
    | true => exact ⟨rfl, _, _, rfl, by decide, by decide, by decide⟩
    | false => exact ⟨rfl, _, _, rfl, by decide, by decide, by decide⟩
  | number fits => cases alone
  | string s => exact ⟨rfl, _, _, rfl, by decide, by decide, by decide⟩
  | lookup is =>
    obtain ⟨c, cs, letters, starts, -, -⟩ := isName_iff.1 is
    refine ⟨rfl, c, cs, letters, ?_, ?_, ?_⟩
    · cases digit : c.isDigit with
      | false => rfl
      | true =>
        rw [not_startsName_of_isDigit digit] at starts
        cases starts
    · rintro rfl
      exact absurd starts (by decide)
    · rintro rfl
      exact absurd starts (by decide)
  | array each => exact ⟨rfl, _, _, rfl, by decide, by decide, by decide⟩
  | map each => exact ⟨rfl, _, _, rfl, by decide, by decide, by decide⟩
  | unary op operand => cases alone
  | binary op left right => cases alone
  | choice each => exact ⟨rfl, _, _, rfl, by decide, by decide, by decide⟩

/-- The text of a name. -/
theorem Spelled.name {name : String} (is : isName name = true) :
    Spelled name.toList (.operand 6 (.lookup name)) :=
  .token (front?_name is) (by decide) (.lookup rfl)

/-- The text of a number. -/
theorem Spelled.number (x : Number .double) :
    Spelled (Value.spellNumber x) (.operand 5 (rereadNumber x)) := by
  have inf : Spelled ['i', 'n', 'f'] (.operand 5 (.lookup "inf")) :=
    (Spelled.name (show isName "inf" = true by decide)).lower (by decide) (by decide)
  cases x with
  | nan =>
    have named : Spelled ['N', 'a', 'N'] (.operand 5 (.lookup "NaN")) :=
      (Spelled.name (show isName "NaN" = true by decide)).lower (by decide) (by decide)
    exact named
  | infinite negative =>
    cases negative with
    | false => exact inf
    | true => exact inf.unary .negate (by decide) (by decide) (by decide)
  | finite negative m =>
    obtain ⟨sign, whole, places, plain, spelled, read⟩ := spellNumber_finite negative m
    have front := front?_number plain sign
    rw [← spelled] at front
    exact (Spelled.token front (by decide) (.number rfl read)).lower (by decide) (by decide)

/-- The text of a readable selector derives what the selector is read back as. -/
theorem Shaped.spelled {place : Place} (h : Shaped numbers place e) :
    Spelled e.spell (place.phrase e) := by
  induction h with
  | null => exact .token (front?_of_lexeme 4 (by decide) rfl) (by decide) (.null rfl)
  | boolean b =>
    cases b with
    | true => exact .token (front?_of_lexeme 4 (by decide) rfl) (by decide) (.boolean rfl)
    | false => exact .token (front?_of_lexeme 5 (by decide) rfl) (by decide) (.boolean rfl)
  | number fits => exact .number _
  | string s =>
    refine .token (front?_string s) (by decide) ?_
    have string := Derives.string (t := ⟨.string, String.ofList (escape s.toList), .start⟩) rfl
    show Derives _ (.operand 6 (.string s))
    simpa [Grammar.unquoted, unescape_escape, worded] using string
  | lookup is => exact .name is
  | @array items each ih =>
    show Spelled (Value.spellArray (spellItems items)) (.operand 6 (.array (rereadAll items)))
    rw [spellItems_eq_map, rereadAll_eq_map]
    by_cases none : items = []
    · subst none
      exact .emptyArray
    · have pieces := Spelled.commaSeparated (φ := fun e => .operand 1 e.reread)
        (ψ := fun items => .items (items.map reread)) .item
        (fun before comma last => by simpa using .items before comma last) spell none
        fun e mem => (ih e mem).lower e.level_pos Nat.one_pos
      exact pieces.array
  | @map entries each ih =>
    show Spelled (Value.spellMap (spellEntries entries)) (.operand 6 (.map (rereadEntries entries)))
    rw [spellEntries_eq_map, rereadEntries_eq_map]
    by_cases none : entries = []
    · subst none
      exact .emptyMap
    · have piece (entry : String × Selector) (mem : entry ∈ entries) :
          Spelled (Value.spellEntry entry.1 entry.2.spell) (.entry entry.1 entry.2.reread) := by
        have value : Spelled entry.2.spell (.operand entry.2.level entry.2.reread) := ih entry mem
        exact (value.lower entry.2.level_pos Nat.one_pos).entry entry.1
      have pieces := Spelled.commaSeparated
        (φ := fun entry : String × Selector => .entry entry.1 entry.2.reread)
        (ψ := fun entries => .entries (entries.map fun entry => (entry.1, entry.2.reread))) .entry
        (fun before comma last => by simpa using .entries before comma last)
        (fun entry => Value.spellEntry entry.1 entry.2.spell) none piece
      exact pieces.map
  | @choice elements each ih =>
    show Spelled (spellChoice (spellItems elements)) (.operand 6 (.choice (rereadAll elements)))
    rw [spellItems_eq_map, rereadAll_eq_map]
    by_cases none : elements = []
    · subst none
      exact .emptyChoice
    · have piece (e : Selector) (mem : e ∈ elements) : Spelled e.spell (.element e.reread) :=
        ih e mem
      have pieces := Spelled.commaSeparated (φ := fun e : Selector => .element e.reread)
        (ψ := fun elements => .elements (elements.map reread)) .element
        (fun before comma last => by simpa using .elements before comma last) spell none piece
      exact pieces.choice
  | @unary op e operand ih =>
    show Spelled (op.symbol.toList ++ parenthesizedIf e.needsParensAlone e.spell)
      (.operand 5 (.unary op e.reread))
    unfold parenthesizedIf
    split
    · have whole := (ih.lower e.level_pos Nat.one_pos).parenthesized
      exact (whole.lower (by decide) (by decide)).unary op (by decide) (by decide) (by decide)
    · rename_i parens
      obtain ⟨six, c, cs, spelled, digit, arrow, equals⟩ :=
        operand.head_spell (by simpa using parens)
      have inner : Spelled e.spell (.operand e.level e.reread) := ih
      rw [six, spelled] at inner
      rw [spelled]
      exact (inner.lower (by decide) (by decide)).unary op digit arrow equals
  | @binary op a b left right ihl ihr =>
    have positive : 0 < op.precedence := by cases op <;> decide
    have loose : op.precedence ≤ 4 := by cases op <;> decide
    exact .binary op (ihl.operand positive loose left.ne_guarded)
      (ihr.operand positive loose right.ne_guarded)
  | @guarded c v _ _ ihc ihv =>
    exact .guarded (ihc.lower c.level_pos Nat.one_pos) (ihv.lower v.level_pos Nat.one_pos)
  | @plain e _ ih => exact (ih.lower e.level_pos Nat.one_pos).imp .unconditional

/-- The text of a readable selector is parsed as what the selector is read back as. -/
theorem Readable.parse_text (h : Readable e) : parse e.text = .ok e.reread := by
  obtain ⟨ts, lexes, derived⟩ := (Shaped.spelled h).lower e.level_pos Nat.one_pos
  have here : (Cursor.ofString e.text).rest = e.spell := String.toList_ofList
  obtain ⟨us, c, run, same, ended⟩ := lexes.yields here
  have ending : front? c.rest = some ((.endOfInput, ""), []) := by
    rw [ended]
    rfl
  obtain ⟨last, c', read, wording, -⟩ := next_of_front? ending
  exact parse_eq_ok_iff.2 ⟨us, last, c, c', run, read, congrArg Prod.fst wording,
    derived.relabel same⟩

end Quaked.Selector
