import Quaked.Proofs.Definition.Warnings
import Quaked.Proofs.Number.Integer
import Quaked.Proofs.Selector.Longest
import Quaked.Proofs.Token.Words

/-!
# Numbers convert

A text is read as a number only where a lexer has said that it is one, and both lexers say so of nothing but
numerals. So the complaint that a text is no number is never made, though the readers could make it, and the
complaints about integers are made only of those that are out of range (`Error.Founded`). That goes through
all readers, one lemma for each, and holds of whatever a definition, a file or a selector fails with
(`numbers_convert`).
-/

namespace Quaked

open Text

/-! ### Numbers of a selector -/

namespace Selector.Token

variable {c c' : Cursor} {t : Token} {cs : List Char} {n : Nat}

/-- A number of a selector is written as a numeral. -/
theorem mem_decimal_of_lexeme (h : lexeme cs = .token .number n) :
    cs.take n ∈ Pattern.decimal.matches' := by
  obtain ⟨negative, whole, places, plain, same⟩ := (spells_of_lexeme h nofun).eq_plain rfl
  rw [same]
  exact Numeral.read?_iff.1 ⟨_, Numeral.read?_plain negative plain⟩

theorem mem_decimal_of_next (h : next c = .ok t c') (number : t.kind = .number) :
    t.text.toList ∈ Pattern.decimal.matches' := by
  obtain ⟨n, lexed, same, -⟩ := next_eq_ok_iff.1 h
  rw [number] at lexed
  have text : t.text = String.ofList ((c.rest.dropWhile isSpace).take n) := by
    rw [same, number]
    rfl
  rw [text, String.toList_ofList]
  exact mem_decimal_of_lexeme lexed

end Selector.Token

/-! ### Complaints -/

/-- The text writes an integer, but none of 64 bits. -/
def OutOfRange (text : String) : Prop :=
  ∃ n, Numeral.integer? text = some n ∧ ¬ (Word.least ≤ n ∧ n ≤ Word.greatest)

/-- Whether there may be reason for a complaint: never to refuse a number, and to refuse an integer only if
it is out of range. -/
def Complaint.Founded : Complaint → Prop
  | number _ => False
  | choiceKey text => OutOfRange text
  | integer text => OutOfRange text
  | modelKey _ => True
  | missingPath => True
  | flagCount => True

/-- If the error is a complaint there may be reason for it. -/
def Error.Founded (e : Error) : Prop := ∀ complaint, e.cause = .invalid complaint → complaint.Founded

/-- The integer of a text that writes one, if it is in range. -/
theorem Word.outOfRange_of_none {text : String} (whole : text.toList ∈ Pattern.integer.matches')
    (none : ofString? text = none) : OutOfRange text := by
  obtain ⟨n, writes⟩ := Numeral.integer?_of_mem whole
  rw [String.ofList_toList] at writes
  refine ⟨n, writes, fun within => ?_⟩
  rw [Word.ofString?_eq_some_iff.2 ⟨writes, within⟩] at none
  cases none

theorem founded_fail {α : Type} {complaint : Complaint} {position : Position}
    (founded : complaint.Founded) :
    FailsOnly Error.Founded (Reading.fail (.invalid complaint) position : Reading α) := by
  refine .throw ?_
  rintro _ ⟨⟩
  exact founded

/-- Where no token can be made nothing is complained of. -/
theorem founded_token {Kind τ : Type} {gap : List Char → Nat} {lexeme : List Char → Lexeme Kind}
    {make : Kind → List Char → Position → τ} :
    FailsOnly Error.Founded (Reading.token gap lexeme make) := by
  intro c e c' failed
  rcases Reading.token_eq_error_iff.1 failed with ⟨_, -, rfl, -⟩ | ⟨-, rfl, -⟩
  · rintro _ ⟨⟩
  · rintro _ ⟨⟩

theorem Number.ofString?_of_numeral {text : String} (numeral : text.toList ∈ Pattern.decimal.matches')
    (F : Format) : ∃ x : Number F, ofString? text = some x ∧ x.isNaN = false := by
  have converts := ofString?_of_mem numeral F
  rwa [String.ofList_toList] at converts

/-! ### Tokens of a definition file -/

namespace Token

variable {t : Token} {c c' : Cursor} {kinds : List Kind}

theorem mem_integer_of_next (h : next c = .ok t c') (integer : t.kind = .integer) :
    t.text.toList ∈ Pattern.integer.matches' :=
  ofRun_eq_integer ((kind_eq_ofRun h (by simp [integer])).symm.trans integer)

theorem mem_decimal_of_next (h : next c = .ok t c') (number : t.kind ∈ [.integer, .decimal]) :
    t.text.toList ∈ Pattern.decimal.matches' := by
  rcases List.mem_pair.1 number with is | is
  · exact Numeral.mem_decimal_of_integer (mem_integer_of_next h is)
  · exact ofRun_eq_decimal ((kind_eq_ofRun h (by simp [is])).symm.trans is)

theorem founded_next : FailsOnly Error.Founded next := founded_token

theorem founded_peek : FailsOnly Error.Founded peek := .ahead founded_next

theorem founded_expect : FailsOnly Error.Founded (expect kinds t) := by
  unfold expect
  split
  · exact .pure t
  · exact .throw nofun

theorem founded_nextOf : FailsOnly Error.Founded (nextOf kinds) :=
  .bind founded_next fun _ => founded_expect

theorem founded_peekOf : FailsOnly Error.Founded (peekOf kinds) :=
  .bind founded_peek fun _ => founded_expect

theorem founded_skipNewlines : FailsOnly Error.Founded skipNewlines := by
  refine FailsOnly.iterate (fun _ => .bind founded_peek fun t => ?_) ()
  split
  · exact .bind founded_next fun _ => .pure _
  · exact .pure _

theorem founded_nextOfPastNewlines : FailsOnly Error.Founded (nextOfPastNewlines kinds) :=
  .bind founded_skipNewlines fun _ => founded_nextOf

theorem founded_peekPastNewlines : FailsOnly Error.Founded peekPastNewlines :=
  .bind founded_skipNewlines fun _ => founded_peek

/-- A token that is read past line breaks has been read by itself, behind them. -/
theorem stands_of_nextOfPastNewlines (h : nextOfPastNewlines kinds c = .ok t c') :
    t.kind ∈ kinds ∧ ∃ c₁, skipNewlines c = .ok () c₁ ∧ next c₁ = .ok t c' := by
  obtain ⟨_, c₁, passed, read⟩ := bind_eq_ok_iff.1 h
  obtain ⟨stands, among⟩ := nextOf_eq_ok_iff.1 read
  exact ⟨among, c₁, passed, stands⟩

end Token

/-! ### Headers -/

namespace Header

theorem founded_readNumber (F : Format) : FailsOnly Error.Founded (readNumber F) := by
  refine FailsOnly.bind_of (Q := fun t => t.text.toList ∈ Pattern.decimal.matches')
    Token.founded_nextOf ?_ ?_
  · intro c t c' read
    obtain ⟨stands, number⟩ := Token.nextOf_eq_ok_iff.1 read
    exact Token.mem_decimal_of_next stands number
  · intro t numeral
    obtain ⟨x, converts, -⟩ := Number.ofString?_of_numeral numeral F
    rw [converts]
    exact .pure x

theorem founded_readTriple (F : Format) : FailsOnly Error.Founded (readTriple F) := by
  refine .bind Token.founded_nextOf fun _ => .bind (founded_readNumber F) fun x => ?_
  refine .bind (founded_readNumber F) fun y => .bind (founded_readNumber F) fun z => ?_
  exact .bind Token.founded_nextOf fun _ => .pure (x, y, z)

theorem founded_readBox : FailsOnly Error.Founded readBox := by
  have vector : FailsOnly Error.Founded readVector := .bind (founded_readTriple .double) fun _ => .pure _
  exact vector.bind fun a => vector.bind fun b => .pure _

theorem founded_readExtent : FailsOnly Error.Founded readExtent := by
  refine .bind Token.founded_peekOf fun t => ?_
  split
  · exact .bind founded_readBox fun _ => .pure _
  split
  · exact .bind Token.founded_next fun _ => .pure _
  · exact .pure _

theorem founded_readFlag? (flags : List String) : FailsOnly Error.Founded (readFlag? flags) := by
  refine .bind Token.founded_peek fun t => ?_
  split
  · refine .bind Token.founded_next fun t => ?_
    dsimp only
    split
    · exact .pure _
    · exact founded_fail trivial
  · exact .pure _

theorem founded_read : FailsOnly Error.Founded read := by
  have color : FailsOnly Error.Founded readColor := .bind (founded_readTriple .single) fun _ => .pure _
  refine color.bind fun _ => .bind founded_readExtent fun _ => ?_
  exact .bind (FailsOnly.iterate founded_readFlag? []) fun _ => .pure _

end Header

/-! ### Entries -/

/-- There is reason to refuse a key only if it is out of range. -/
theorem Entry.founded_keyOf {t : Token} (whole : t.text.toList ∈ Pattern.integer.matches') :
    FailsOnly Error.Founded (keyOf t) := by
  unfold keyOf
  split
  · exact .pure _
  · rename_i none
    exact founded_fail (Word.outOfRange_of_none whole none)

namespace Entry

theorem founded_readDefault : FailsOnly Error.Founded readDefault := by
  refine .bind Token.founded_nextOfPastNewlines fun _ => .bind Token.founded_nextOfPastNewlines fun _ => ?_
  refine .bind Token.founded_nextOfPastNewlines fun _ => .bind Token.founded_nextOfPastNewlines fun _ => ?_
  exact .bind Token.founded_nextOfPastNewlines fun _ => .pure _

theorem founded_readBase (position : Position) : FailsOnly Error.Founded (readBase position) := by
  refine .bind Token.founded_nextOfPastNewlines fun _ => .bind Token.founded_nextOfPastNewlines fun _ => ?_
  exact .bind Token.founded_nextOfPastNewlines fun _ => .pure _

theorem founded_readOption : FailsOnly Error.Founded readOption := by
  refine FailsOnly.bind_of (Q := fun t => t.text.toList ∈ Pattern.integer.matches')
    Token.founded_nextOfPastNewlines ?_ fun t whole => ?_
  · intro c t c' read
    obtain ⟨among, c₁, -, stands⟩ := Token.stands_of_nextOfPastNewlines read
    exact Token.mem_integer_of_next stands (List.mem_singleton.1 among)
  · refine .bind (founded_keyOf whole) fun key => .bind Token.founded_nextOfPastNewlines fun _ => ?_
    refine .bind Token.founded_nextOfPastNewlines fun _ => ?_
    exact .bind Token.founded_nextOfPastNewlines fun _ => .pure _

theorem founded_readOption? (options : List ChoiceOption) :
    FailsOnly Error.Founded (readOption? options) := by
  refine .bind Token.founded_skipNewlines fun _ => .bind Token.founded_next fun t => ?_
  split
  · exact .bind founded_readOption fun _ => .pure _
  · exact .bind Token.founded_expect fun _ => .pure _

theorem founded_readChoice : FailsOnly Error.Founded readChoice := by
  refine .bind Token.founded_nextOf fun _ => .bind Token.founded_nextOfPastNewlines fun _ => ?_
  exact .bind (FailsOnly.iterate founded_readOption? []) fun _ => .pure _

end Entry

/-! ### Positional selectors -/

namespace Positional

/-- There is reason to refuse an integer only if it is out of range. -/
theorem founded_integerOf {t : Token} (whole : t.text.toList ∈ Pattern.integer.matches') :
    FailsOnly Error.Founded (integerOf t) := by
  unfold integerOf
  split
  · exact .pure _
  · rename_i none
    exact founded_fail (Word.outOfRange_of_none whole none)

theorem founded_integer? : FailsOnly Error.Founded integer? := by
  intro s e s' failed
  rcases bind_eq_error_iff.1 failed with failed | ⟨t, s₁, peeked, failed⟩
  · exact Token.founded_peekPastNewlines _ _ _ failed
  split at failed
  · rename_i integer
    -- The token that is consumed is the one that has been looked at.
    obtain ⟨_, c, -, shown⟩ := bind_eq_ok_iff.1 peeked
    obtain ⟨rfl, c₁, stands⟩ := Token.peek_eq_ok_iff.1 shown
    rw [bind_of_ok stands] at failed
    have founded := founded_integerOf (Token.mem_integer_of_next stands integer)
    exact founded.bind (fun n => .pure (some n)) _ _ _ failed
  · cases failed

theorem founded_operand : FailsOnly Error.Founded operand := by
  refine FailsOnly.bind_of (Q := fun t => t.kind = .integer → t.text.toList ∈ Pattern.integer.matches')
    Token.founded_nextOfPastNewlines ?_ fun t whole => ?_
  · intro c t c' read integer
    obtain ⟨-, c₁, -, stands⟩ := Token.stands_of_nextOfPastNewlines read
    exact Token.mem_integer_of_next stands integer
  · split
    · rename_i integer
      exact .bind (founded_integerOf (whole integer)) fun _ => .pure _
    · exact .pure _

theorem founded_condition? : FailsOnly Error.Founded condition? := by
  refine .bind Token.founded_peekPastNewlines fun t => ?_
  split
  · refine .bind Token.founded_next fun _ => .bind Token.founded_nextOfPastNewlines fun _ => ?_
    exact .bind founded_operand fun _ => .pure _
  · exact .pure _

theorem founded_fixed : FailsOnly Error.Founded fixed := by
  refine .bind Token.founded_nextOfPastNewlines fun _ => .bind founded_integer? fun _ => ?_
  exact .bind founded_integer? fun _ => .bind founded_condition? fun _ => .pure _

theorem founded_key? (keys : Keys) : FailsOnly Error.Founded (key? keys) := by
  refine .bind Token.founded_peekPastNewlines fun t => ?_
  split
  · refine .bind Token.founded_next fun _ => .bind Token.founded_nextOfPastNewlines fun _ => ?_
    refine .bind Token.founded_nextOfPastNewlines fun _ => ?_
    split
    · exact .pure _
    · exact founded_fail trivial
  · exact .pure _

theorem founded_keyed : FailsOnly Error.Founded keyed := by
  refine .bind (FailsOnly.iterate founded_key? {}) fun keys => ?_
  split
  · exact .pure _
  · exact FailsOnly.bind nofun fun _ => founded_fail trivial

theorem founded_entry : FailsOnly Error.Founded entry := by
  refine .bind Token.founded_peekPastNewlines fun _ => .bind Token.founded_expect fun t => ?_
  split
  · exact founded_fixed
  · exact founded_keyed

theorem founded_entries : FailsOnly Error.Founded entries := by
  refine .bind founded_entry fun first => FailsOnly.iterate (fun entries => ?_) [first]
  refine .bind Token.founded_peekPastNewlines fun t => ?_
  split
  · exact .bind Token.founded_next fun _ => .bind founded_entry fun _ => .pure _
  · exact .pure _

theorem founded_expression : FailsOnly Error.Founded expression := .bind founded_entries fun _ => .pure _

end Positional

/-! ### Selectors -/

namespace Selector

theorem Token.founded_next : FailsOnly Error.Founded Token.next := founded_token

namespace Grammar

theorem founded_next : FailsOnly Error.Founded (TokenSource.next : Reading Token) := Token.founded_next

theorem founded_peek : FailsOnly Error.Founded (TokenSource.peek : Reading Token) := .ahead founded_next

theorem founded_nextOf (kind : Token.Kind) :
    FailsOnly Error.Founded (TokenSource.nextOf kind : Reading Token) := by
  refine .bind founded_next fun t => ?_
  split
  · exact .pure t
  · exact .throw nofun

theorem founded_accept (kind : Token.Kind) : FailsOnly Error.Founded (accept kind : Reading Bool) := by
  refine .bind founded_peek fun t => ?_
  split
  · exact .bind founded_next fun _ => .pure _
  · exact .pure _

theorem founded_operator? {α : Type} (meaning? : Token.Kind → Option α) :
    FailsOnly Error.Founded (operator? meaning? : Reading (Option α)) := by
  refine .bind founded_peek fun t => ?_
  split
  · exact .bind founded_next fun _ => .pure _
  · exact .pure _

section Parts

variable {α : Type} {item : Reading α} {operand : Reading Selector}

theorem founded_separated (h : FailsOnly Error.Founded item) : FailsOnly Error.Founded (separated item) := by
  refine h.bind fun first => FailsOnly.iterate (fun items => ?_) [first]
  refine .bind (founded_accept .comma) fun more => ?_
  split
  · exact h.bind fun _ => .pure _
  · exact .pure _

theorem founded_chain (precedence : Nat) (h : FailsOnly Error.Founded operand) :
    FailsOnly Error.Founded (chain precedence operand) := by
  refine h.bind fun first => FailsOnly.iterate (fun left => ?_) first
  refine .bind (founded_operator? _) fun op => ?_
  split
  · exact h.bind fun _ => .pure _
  · exact .pure _

theorem founded_pair (precedence : Nat) (h : FailsOnly Error.Founded operand) :
    FailsOnly Error.Founded (pair precedence operand) := by
  refine h.bind fun left => .bind (founded_operator? _) fun op => ?_
  split
  · exact h.bind fun _ => .pure _
  · exact .pure _

end Parts

section Productions

variable {nested : Reading Selector} (h : FailsOnly Error.Founded nested)
include h

theorem founded_array : FailsOnly Error.Founded (array nested) := by
  refine .bind (founded_accept .closeBracket) fun empty => ?_
  split
  · exact .pure _
  · exact .bind (founded_separated h) fun _ => .bind (founded_nextOf _) fun _ => .pure _

theorem founded_map : FailsOnly Error.Founded (map nested) := by
  have entry : FailsOnly Error.Founded (entry nested) :=
    .bind (founded_nextOf _) fun _ => .bind (founded_nextOf _) fun _ => h.bind fun _ => .pure _
  refine .bind (founded_accept .closeBrace) fun empty => ?_
  split
  · exact .pure _
  · exact .bind (founded_separated entry) fun _ => .bind (founded_nextOf _) fun _ => .pure _

theorem founded_element : FailsOnly Error.Founded (element nested) := by
  refine h.bind fun condition => .bind (founded_accept .arrow) fun guarded => ?_
  split
  · exact h.bind fun _ => .pure _
  · exact .pure _

theorem founded_choice : FailsOnly Error.Founded (choice nested) := by
  have closed (elements : List Selector) :=
    (founded_nextOf .closeBrace).bind fun _ => .bind (founded_nextOf .closeBrace) fun _ =>
      FailsOnly.pure (σ := Cursor) (P := Error.Founded) (Selector.choice elements)
  refine .bind founded_peek fun t => ?_
  dsimp only
  split
  · exact closed []
  · exact .bind (founded_separated (founded_element h)) closed

/-- No number is refused. -/
theorem founded_primary : FailsOnly Error.Founded (primary nested) := by
  refine FailsOnly.bind_of (Q := fun t => t.kind = .number → t.text.toList ∈ Pattern.decimal.matches')
    founded_next Token.mem_decimal_of_next fun t numeral => ?_
  split
  case h_2 number =>
    obtain ⟨x, converts, -⟩ := Number.ofString?_of_numeral (numeral number) .double
    rw [converts]
    exact .pure _
  case h_6 => exact h.bind fun _ => .bind (founded_nextOf _) fun _ => .pure _
  case h_7 => exact founded_array h
  case h_8 =>
    refine .bind (founded_accept _) fun choice => ?_
    split
    · exact founded_choice h
    · exact founded_map h
  case h_9 => exact .throw nofun
  all_goals exact .pure _

theorem founded_unary : FailsOnly Error.Founded (unary nested) := by
  refine FailsOnly.bind (FailsOnly.iterate (fun ops => ?_) []) fun ops => ?_
  · refine .bind (founded_operator? _) fun op => ?_
    split
    · exact .pure _
    · exact .pure _
  · exact .bind (founded_primary h) fun _ => .pure _

theorem founded_disjunction : FailsOnly Error.Founded (disjunction nested) :=
  founded_chain 1 (founded_chain 2 (founded_pair 3 (founded_chain 4 (founded_unary h))))

end Productions

theorem founded_expressionWithin (depth : Nat) :
    FailsOnly Error.Founded (expressionWithin depth : Reading Selector) := by
  induction depth with
  | zero => exact .bind founded_next fun _ => .throw nofun
  | succ depth ih => exact founded_disjunction ih

theorem founded_expression : FailsOnly Error.Founded (expression : Reading Selector) :=
  fun c => founded_expressionWithin _ c

end Grammar

theorem founded_of_parse {text : String} {e : Error} (failed : parse text = .error e) : e.Founded := by
  unfold parse at failed
  dsimp only at failed
  split at failed
  · cases failed
  · rename_i run
    cases failed
    refine FailsOnly.bind Grammar.founded_expression (fun e => ?_) _ _ _ run
    exact .bind (Grammar.founded_nextOf _) fun _ => .pure e

end Selector

/-! ### Definitions -/

theorem SelectorGrammar.founded_read (grammar : SelectorGrammar) :
    FailsOnly Error.Founded grammar.read := by
  cases grammar with
  | expression => exact Selector.Grammar.founded_expression
  | positional => exact Positional.founded_expression

theorem ModelClause.founded_read (dialect : Dialect) : FailsOnly Error.Founded (read dialect) := by
  have founded (grammar : SelectorGrammar) : FailsOnly Error.Founded (readBy grammar) :=
    grammar.founded_read.bind fun _ => .bind Token.founded_nextOf fun _ => .pure _
  refine .bind Token.founded_nextOf fun _ c e c' failed => ?_
  unfold readEither at failed
  split at failed
  · cases failed
  · rename_i run
    split at failed
    · cases failed
    · cases failed
      exact founded _ _ _ _ run

theorem Entry.founded_readRest (dialect : Dialect) (word : Token) :
    FailsOnly Error.Founded (readRest dialect word) := by
  unfold readRest
  split
  · exact founded_readDefault
  split
  · exact founded_readBase _
  split
  · exact founded_readChoice
  split
  · exact .bind (ModelClause.founded_read dialect) fun _ => .pure _
  · exact .pure _

namespace Definition

theorem founded_lift {α : Type} {reader : Reading α} (h : FailsOnly Error.Founded reader) :
    FailsOnly Error.Founded (liftM reader : Parsing α) := by
  intro s e s' failed
  rw [lift_apply] at failed
  cases run : reader s.cursor with
  | ok a c =>
    rw [run] at failed
    cases failed
  | error e₁ c =>
    rw [run] at failed
    cases failed
    exact h _ _ _ run

theorem founded_opening : FailsOnly Error.Founded opening := by
  refine FailsOnly.bind (FailsOnly.iterate (fun _ => .bind Token.founded_peek fun t => ?_) ()) fun _ => ?_
  · split
    · exact .pure _
    · exact .bind Token.founded_next fun _ => .pure _
  · exact .bind Token.founded_next fun _ => .pure _

theorem founded_header : FailsOnly Error.Founded header := by
  refine .bind Token.founded_nextOf fun name => .bind Token.founded_peekOf fun t => ?_
  dsimp only
  split
  · refine .bind (.bind Header.founded_read fun _ => .pure _) fun _ => ?_
    exact .bind Token.founded_nextOf fun _ => .pure _
  · exact FailsOnly.bind (.pure _) fun _ => .bind Token.founded_nextOf fun _ => .pure _

theorem founded_readEntry (dialect : Dialect) (entries : List Entry) :
    FailsOnly Error.Founded (readEntry dialect entries) := by
  refine .bind (founded_lift Token.founded_nextOfPastNewlines) fun t => ?_
  split
  · exact .pure _
  refine .bind (founded_lift (Entry.founded_readRest dialect t)) fun entry => FailsOnly.bind nofun fun _ => ?_
  exact .bind (founded_lift Token.founded_nextOfPastNewlines) fun _ => .pure _

theorem founded_entries (dialect : Dialect) : FailsOnly Error.Founded (entries dialect) := by
  refine .bind (founded_lift Token.founded_peek) fun t => ?_
  split
  · exact .pure _
  · refine .bind (founded_lift Token.founded_next) fun _ => ?_
    exact FailsOnly.iterate (founded_readEntry dialect) []

theorem founded_description : FailsOnly Error.Founded description := by
  refine .bind Token.founded_peek fun t => ?_
  split
  · exact .pure _
  · exact nofun

theorem founded_next (settings : Settings) : FailsOnly Error.Founded (next settings) := by
  have declared : FailsOnly Error.Founded (declare settings.dialect) := by
    refine .bind (founded_lift founded_header) fun _ => .bind (founded_entries _) fun _ => ?_
    refine .bind (founded_lift founded_description) fun _ => ?_
    exact .bind (founded_lift Token.founded_nextOf) fun _ => .pure _
  refine .bind (founded_lift founded_opening) fun opened => ?_
  split
  · refine declared.bind fun d => FailsOnly.bind nofun fun d => ?_
    split
    · exact nofun
    · exact .pure _
  · exact .pure _

theorem founded_entities (settings : Settings) : FailsOnly Error.Founded (entities settings) := by
  refine FailsOnly.iterate (fun entities => .bind (founded_next settings) fun outcome => ?_) []
  refine FailsOnly.bind nofun fun _ => ?_
  cases outcome with
  | finished => exact .pure _
  | base name => exact .pure _
  | entity e => exact .pure _

end Definition

/-! ### Integers out of range -/

section OutOfRange

variable {t : Token} {c c' : Cursor} {text : String}

theorem OutOfRange.ofString?_eq (h : OutOfRange text) : Word.ofString? text = none := by
  obtain ⟨n, writes, outside⟩ := h
  rw [Option.eq_none_iff_forall_ne_some]
  intro m is
  obtain ⟨writes', within⟩ := Word.ofString?_eq_some_iff.1 is
  obtain rfl : n = m := Option.some.inj (writes.symm.trans writes')
  exact outside within

/-- Where an integer out of range comes next, it is refused as a key of a choice, as a skin or frame, and as
what a condition compares with. -/
theorem refused_of_outOfRange (next : Token.nextOfPastNewlines [.integer] c = .ok t c')
    (outside : OutOfRange t.text) :
    Entry.readOption c = .error ⟨.invalid (.choiceKey t.text), t.position⟩ c' ∧
      Positional.integer? c = .error ⟨.invalid (.integer t.text), t.position⟩ c' ∧
      Positional.operand c = .error ⟨.invalid (.integer t.text), t.position⟩ c' := by
  obtain ⟨among, c₁, passed, stands⟩ := Token.stands_of_nextOfPastNewlines next
  have integer := List.mem_singleton.1 among
  have none := outside.ofString?_eq
  have key : Entry.keyOf t c' = .error ⟨.invalid (.choiceKey t.text), t.position⟩ c' := by
    unfold Entry.keyOf
    rw [none]
    rfl
  have refused : Positional.integerOf t c' = .error ⟨.invalid (.integer t.text), t.position⟩ c' := by
    unfold Positional.integerOf
    rw [none]
    rfl
  refine ⟨?_, ?_, ?_⟩
  · unfold Entry.readOption
    rw [bind_of_ok next]
    exact bind_of_error key
  · have shown : Token.peekPastNewlines c = .ok t c₁ :=
      bind_eq_ok_iff.2 ⟨(), c₁, passed, Token.peek_eq_ok_iff.2 ⟨rfl, c', stands⟩⟩
    unfold Positional.integer?
    rw [bind_of_ok shown, if_pos integer, bind_of_ok stands]
    exact bind_of_error refused
  · have read : Token.nextOfPastNewlines [.quoted, .integer] c = .ok t c' :=
      bind_eq_ok_iff.2 ⟨(), c₁, passed, Token.nextOf_eq_ok_iff.2 ⟨stands, by simp [integer]⟩⟩
    unfold Positional.operand
    rw [bind_of_ok read, if_pos integer]
    exact bind_of_error refused

end OutOfRange

/-- **Numbers convert.** Reading never fails because of a number: neither a definition nor a file nor a
selector does so with a complaint about a number, and with one about an integer only if that is out of range.
For every token that is a number is written as a numeral, and every numeral denotes a number in every format.
An integer out of range, on the other hand, is always refused where it is the key of a choice, or a skin, a
frame or an operand of a positional selector. -/
theorem numbers_convert :
    (∀ settings s e s', Definition.next settings s = .error e s' → e.Founded) ∧
    (∀ settings text e, (File.read settings text).result = .error e → e.Founded) ∧
    (∀ text e, Selector.parse text = .error e → e.Founded) ∧
    (∀ c t c', Token.next c = .ok t c' → t.kind ∈ [.integer, .decimal] →
      t.text.toList ∈ Pattern.decimal.matches') ∧
    (∀ c t c', Selector.Token.next c = .ok t c' → t.kind = .number →
      t.text.toList ∈ Pattern.decimal.matches') ∧
    (∀ text : String, text.toList ∈ Pattern.decimal.matches' →
      ∀ F, ∃ x : Number F, Number.ofString? text = some x ∧ x.isNaN = false) ∧
    ∀ c t c', Token.nextOfPastNewlines [.integer] c = .ok t c' → OutOfRange t.text →
      Entry.readOption c = .error ⟨.invalid (.choiceKey t.text), t.position⟩ c' ∧
        Positional.integer? c = .error ⟨.invalid (.integer t.text), t.position⟩ c' ∧
        Positional.operand c = .error ⟨.invalid (.integer t.text), t.position⟩ c' := by
  refine ⟨Definition.founded_next, ?_, ?_, ?_, ?_, ?_, ?_⟩
  · intro settings text e failed
    unfold File.read at failed
    cases run : Definition.entities settings (.ofString text) with
    | ok entities s =>
      rw [run] at failed
      cases failed
    | error e₁ s =>
      rw [run] at failed
      cases failed
      exact Definition.founded_entities settings _ _ _ run
  · exact fun text e failed => Selector.founded_of_parse failed
  · exact fun c t c' stands number => Token.mem_decimal_of_next stands number
  · exact fun c t c' stands number => Selector.Token.mem_decimal_of_next stands number
  · exact fun text numeral F => Number.ofString?_of_numeral numeral F
  · exact fun c t c' next outside => refused_of_outOfRange next outside

/-- One more than the greatest integer of 64 bits, as the key of a choice. -/
theorem numbers_convert_large_key :
    ∃ failure c', Entry.readOption (.ofString "9223372036854775808, \"all\")") = .error failure c' ∧
      failure.cause = .invalid (.choiceKey "9223372036854775808") ∧ OutOfRange "9223372036854775808" := by
  have outside : OutOfRange "9223372036854775808" := ⟨9223372036854775808, rfl, by decide⟩
  have front : Token.front? (Cursor.ofString "9223372036854775808, \"all\")").rest =
      some ((.integer, "9223372036854775808"), ", \"all\")".toList) := rfl
  obtain ⟨t, c', next, is, -⟩ :=
    Token.reads_nextOfPastNewlines front (by decide) (List.mem_singleton.2 rfl) _ rfl
  have refused := numbers_convert.2.2.2.2.2.2 _ t c' next (is.2 ▸ outside)
  exact ⟨_, _, refused.1, by rw [is.2], outside⟩

end Quaked
