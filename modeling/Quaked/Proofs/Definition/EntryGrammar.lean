import Quaked.Proofs.Definition.Warnings
import Quaked.Proofs.Number.Integer
import Quaked.Proofs.Selector.Movement

/-!
# The grammar of entries

The entries in the braces of a definition, as relations between cursors: `OptionStands` for an option
of a choice, `EntryStands` for an entry with its semicolon, `Body` for all of them with their braces,
which may be missing. Line breaks may stand in front of every token (`Spaced`, `StandsPast`) but for
the name of a choice, the parenthesis that opens a model, and the one that closes it (`Stands`).

* `Definition.entries_eq_ok_iff`: the entries of a definition are read exactly where they stand, and
  the session is warned of each outdated model among them.
-/

namespace Quaked

open Text Token

variable {dialect : Dialect} {c c' : Cursor}

namespace Entry

/-! ### What stands where -/

/-- An option of a choice: a key of 64 bits and what it means. -/
inductive OptionStands : Cursor → ChoiceOption → Cursor → Prop where
  | mk {c c' : Cursor} {opening key comma meaning closing : Token} {n : Int}
    (run : Spaced c [opening, key, comma, meaning, closing] c') (opens : opening.kind = .openParen)
    (isKey : key.kind = .integer) (value : Numeral.integer? key.text = some n)
    (least : Word.least ≤ n) (greatest : n ≤ Word.greatest) (separates : comma.kind = .comma)
    (isMeaning : meaning.kind = .quoted) (closes : closing.kind = .closeParen) :
    OptionStands c ⟨n, meaning.value⟩ c'

/-- A selector by a grammar, with the parenthesis that closes it next. -/
inductive Closed (grammar : SelectorGrammar) : Cursor → Selector → Cursor → Prop where
  | mk {c c₁ c' : Cursor} {e : Selector} {closing : Token} (selector : grammar.read c = .ok e c₁)
    (closed : Stands c₁ closing c') (closes : closing.kind = .closeParen) : Closed grammar c e c'

/-- A selector by the preferred grammar, or by the other one where none is by the preferred. -/
inductive ClauseStands (dialect : Dialect) : Cursor → ModelClause → Cursor → Prop where
  | preferred {c c' : Cursor} {e : Selector} (closed : Closed dialect.preferred c e c') :
    ClauseStands dialect c ⟨e, none⟩ c'
  | fallback {c c' : Cursor} {e : Selector} (none : ∀ e c₁, ¬ Closed dialect.preferred c e c₁)
    (closed : Closed dialect.fallback c e c') : ClauseStands dialect c ⟨e, some c.position⟩ c'

/-- The words that say something about a class. -/
def keywords : List String := ["default", "base", "choice", "model"]

/-- What stands behind the word that an entry starts with, and what the entry says. -/
inductive RestStands (dialect : Dialect) (word : Token) : Cursor → Entry → Cursor → Prop where
  | default {c c' : Cursor} {opening key comma value closing : Token} (is : word.text = "default")
    (run : Spaced c [opening, key, comma, value, closing] c') (opens : opening.kind = .openParen)
    (isKey : key.kind = .quoted) (separates : comma.kind = .comma) (isValue : value.kind = .quoted)
    (closes : closing.kind = .closeParen) : RestStands dialect word c idle c'
  | base {c c' : Cursor} {opening name closing : Token} (is : word.text = "base")
    (run : Spaced c [opening, name, closing] c') (opens : opening.kind = .openParen)
    (isName : name.kind = .quoted) (closes : closing.kind = .closeParen) :
    RestStands dialect word c (base name.value word.position) c'
  | choice {c c₁ c₂ c₃ c' : Cursor} {name opening closing : Token} {options : List ChoiceOption}
    (is : word.text = "choice") (named : Stands c name c₁) (isName : name.kind = .quoted)
    (opened : StandsPast c₁ opening c₂) (opens : opening.kind = .openParen)
    (listed : InOrder OptionStands c₂ options c₃) (closed : StandsPast c₃ closing c')
    (closes : closing.kind = .closeParen) :
    RestStands dialect word c (choice name.value options) c'
  | model {c c₁ c' : Cursor} {opening : Token} {clause : ModelClause} (is : word.text = "model")
    (opened : Stands c opening c₁) (opens : opening.kind = .openParen)
    (stands : ClauseStands dialect c₁ clause c') : RestStands dialect word c (model clause) c'
  | other {c : Cursor} (is : word.text ∉ keywords) : RestStands dialect word c idle c

/-- An entry with its semicolon. -/
inductive EntryStands (dialect : Dialect) : Cursor → Entry → Cursor → Prop where
  | mk {c c₁ c₂ c' : Cursor} {word semicolon : Token} {entry : Entry}
    (named : StandsPast c word c₁) (isWord : word.kind = .word)
    (rest : RestStands dialect word c₁ entry c₂) (closed : StandsPast c₂ semicolon c')
    (closes : semicolon.kind = .semicolon) : EntryStands dialect c entry c'

/-- The entries in braces, or nothing where the next token is no brace. -/
inductive Body (dialect : Dialect) : Cursor → List Entry → Cursor → Prop where
  | braces {c c₁ c₂ c' : Cursor} {opening closing : Token} {entries : List Entry}
    (opened : Stands c opening c₁) (opens : opening.kind = .openBrace)
    (listed : InOrder (EntryStands dialect) c₁ entries c₂) (closed : StandsPast c₂ closing c')
    (closes : closing.kind = .closeBrace) : Body dialect c entries c'
  | bare {c : Cursor} (none : ∀ t c₁, Stands c t c₁ → t.kind ≠ .openBrace) : Body dialect c [] c

/-! ### How much is left -/

theorem OptionStands.unread_lt {option : ChoiceOption} (h : OptionStands c option c') :
    c'.unread < c.unread := by
  cases h with
  | mk run opens =>
    obtain ⟨c₁, head, tail⟩ := InOrder.cons_iff.1 run
    have less := head.unread_lt (by simp [opens])
    exact Nat.lt_of_le_of_lt (tail.le Cursor.unread StandsPast.unread_le) less

theorem Closed.unread_le {grammar : SelectorGrammar} {e : Selector} (h : Closed grammar c e c') :
    c'.unread ≤ c.unread := by
  cases h with
  | mk selector closed => exact Nat.le_trans (unread_next_le closed) (SelectorGrammar.unread_le selector)

theorem RestStands.unread_le {word : Token} {entry : Entry} (h : RestStands dialect word c entry c') :
    c'.unread ≤ c.unread := by
  cases h with
  | default _ run => exact run.le Cursor.unread StandsPast.unread_le
  | base _ run => exact run.le Cursor.unread StandsPast.unread_le
  | choice _ named _ opened _ listed closed =>
    have options := listed.le Cursor.unread fun h => Nat.le_of_lt (OptionStands.unread_lt h)
    exact (closed.unread_le.trans options).trans (opened.unread_le.trans (unread_next_le named))
  | model _ opened _ clause =>
    cases clause with
    | preferred closed => exact closed.unread_le.trans (unread_next_le opened)
    | fallback _ closed => exact closed.unread_le.trans (unread_next_le opened)
  | other => exact Nat.le_refl _

theorem EntryStands.unread_lt {entry : Entry} (h : EntryStands dialect c entry c') :
    c'.unread < c.unread := by
  cases h with
  | mk named isWord rest closed =>
    have less := named.unread_lt (by simp [isWord])
    exact Nat.lt_of_le_of_lt (closed.unread_le.trans rest.unread_le) less

theorem Body.unread_le {entries : List Entry} (h : Body dialect c entries c') :
    c'.unread ≤ c.unread := by
  cases h with
  | braces opened _ listed closed =>
    have inside := listed.le Cursor.unread fun h => Nat.le_of_lt (EntryStands.unread_lt h)
    exact (closed.unread_le.trans inside).trans (unread_next_le opened)
  | bare => exact Nat.le_refl _

/-! ### Single entries -/

theorem readDefault_eq_ok_iff {entry : Entry} :
    readDefault c = .ok entry c' ↔ ∃ opening key comma value closing,
      Spaced c [opening, key, comma, value, closing] c' ∧ opening.kind = .openParen ∧
      key.kind = .quoted ∧ comma.kind = .comma ∧ value.kind = .quoted ∧
      closing.kind = .closeParen ∧ entry = idle := by
  constructor
  · intro h
    obtain ⟨opening, c₁, opened, opens, h⟩ := nextOfPastNewlines_bind_eq_ok_iff.1 h
    obtain ⟨key, c₂, keyed, isKey, h⟩ := nextOfPastNewlines_bind_eq_ok_iff.1 h
    obtain ⟨comma, c₃, separated, separates, h⟩ := nextOfPastNewlines_bind_eq_ok_iff.1 h
    obtain ⟨value, c₄, valued, isValue, h⟩ := nextOfPastNewlines_bind_eq_ok_iff.1 h
    obtain ⟨closing, c₅, closed, closes, h⟩ := nextOfPastNewlines_bind_eq_ok_iff.1 h
    obtain ⟨rfl, rfl⟩ := pure_eq_ok_iff.1 h
    refine ⟨opening, key, comma, value, closing, ?_, ?_⟩
    · exact .cons opened (.cons keyed (.cons separated (.cons valued (.cons closed (.nil _)))))
    · simp_all
  · rintro ⟨opening, key, comma, value, closing, run, opens, isKey, separates, isValue, closes, rfl⟩
    simp only [InOrder.cons_iff, InOrder.nil_iff] at run
    obtain ⟨c₁, opened, c₂, keyed, c₃, separated, c₄, valued, _, closed, rfl⟩ := run
    refine nextOfPastNewlines_bind_eq_ok_iff.2 ⟨opening, c₁, opened, by simp [opens], ?_⟩
    refine nextOfPastNewlines_bind_eq_ok_iff.2 ⟨key, c₂, keyed, by simp [isKey], ?_⟩
    refine nextOfPastNewlines_bind_eq_ok_iff.2 ⟨comma, c₃, separated, by simp [separates], ?_⟩
    refine nextOfPastNewlines_bind_eq_ok_iff.2 ⟨value, c₄, valued, by simp [isValue], ?_⟩
    exact nextOfPastNewlines_bind_eq_ok_iff.2 ⟨closing, _, closed, by simp [closes], rfl⟩

theorem readBase_eq_ok_iff {position : Position} {entry : Entry} :
    readBase position c = .ok entry c' ↔ ∃ opening name closing,
      Spaced c [opening, name, closing] c' ∧ opening.kind = .openParen ∧ name.kind = .quoted ∧
      closing.kind = .closeParen ∧ entry = base name.value position := by
  constructor
  · intro h
    obtain ⟨opening, c₁, opened, opens, h⟩ := nextOfPastNewlines_bind_eq_ok_iff.1 h
    obtain ⟨name, c₂, named, isName, h⟩ := nextOfPastNewlines_bind_eq_ok_iff.1 h
    obtain ⟨closing, c₃, closed, closes, h⟩ := nextOfPastNewlines_bind_eq_ok_iff.1 h
    obtain ⟨rfl, rfl⟩ := pure_eq_ok_iff.1 h
    exact ⟨opening, name, closing, .cons opened (.cons named (.cons closed (.nil _))), by simp_all⟩
  · rintro ⟨opening, name, closing, run, opens, isName, closes, rfl⟩
    simp only [InOrder.cons_iff, InOrder.nil_iff] at run
    obtain ⟨c₁, opened, c₂, named, _, closed, rfl⟩ := run
    refine nextOfPastNewlines_bind_eq_ok_iff.2 ⟨opening, c₁, opened, by simp [opens], ?_⟩
    refine nextOfPastNewlines_bind_eq_ok_iff.2 ⟨name, c₂, named, by simp [isName], ?_⟩
    exact nextOfPastNewlines_bind_eq_ok_iff.2 ⟨closing, _, closed, by simp [closes], rfl⟩

/-! ### Choices -/

theorem keyOf_bind_eq_ok_iff {α : Type} {a : α} {t : Token} {f : Int → Reading α} :
    (keyOf t >>= f) c = .ok a c' ↔ ∃ n, Word.ofString? t.text = some n ∧ f n c = .ok a c' := by
  rw [bind_eq_ok_iff]
  unfold keyOf
  cases Word.ofString? t.text with
  | some n =>
    constructor
    · rintro ⟨_, _, value, rest⟩
      obtain ⟨rfl, rfl⟩ := pure_eq_ok_iff.1 value
      exact ⟨n, rfl, rest⟩
    · rintro ⟨_, same, rest⟩
      cases same
      exact ⟨n, c, rfl, rest⟩
  | none =>
    constructor
    · rintro ⟨_, _, failed, -⟩
      exact absurd failed Reading.fail_ne_ok
    · rintro ⟨_, same, -⟩
      cases same

/-- What is read behind the parenthesis of an option. -/
theorem readOption_eq_ok_iff {option : ChoiceOption} :
    readOption c = .ok option c' ↔ ∃ key comma meaning closing n,
      Spaced c [key, comma, meaning, closing] c' ∧ key.kind = .integer ∧
      Word.ofString? key.text = some n ∧ comma.kind = .comma ∧ meaning.kind = .quoted ∧
      closing.kind = .closeParen ∧ option = ⟨n, meaning.value⟩ := by
  constructor
  · intro h
    obtain ⟨key, c₁, keyed, isKey, h⟩ := nextOfPastNewlines_bind_eq_ok_iff.1 h
    obtain ⟨n, value, h⟩ := keyOf_bind_eq_ok_iff.1 h
    obtain ⟨comma, c₃, separated, separates, h⟩ := nextOfPastNewlines_bind_eq_ok_iff.1 h
    obtain ⟨meaning, c₄, meant, isMeaning, h⟩ := nextOfPastNewlines_bind_eq_ok_iff.1 h
    obtain ⟨closing, c₅, closed, closes, h⟩ := nextOfPastNewlines_bind_eq_ok_iff.1 h
    obtain ⟨rfl, rfl⟩ := pure_eq_ok_iff.1 h
    refine ⟨key, comma, meaning, closing, n, ?_, by simp_all⟩
    exact .cons keyed (.cons separated (.cons meant (.cons closed (.nil _))))
  · rintro ⟨key, comma, meaning, closing, n, run, isKey, value, separates, isMeaning, closes, rfl⟩
    simp only [InOrder.cons_iff, InOrder.nil_iff] at run
    obtain ⟨c₁, keyed, c₂, separated, c₃, meant, _, closed, rfl⟩ := run
    refine nextOfPastNewlines_bind_eq_ok_iff.2 ⟨key, c₁, keyed, by simp [isKey], ?_⟩
    refine keyOf_bind_eq_ok_iff.2 ⟨n, value, ?_⟩
    refine nextOfPastNewlines_bind_eq_ok_iff.2 ⟨comma, c₂, separated, by simp [separates], ?_⟩
    refine nextOfPastNewlines_bind_eq_ok_iff.2 ⟨meaning, c₃, meant, by simp [isMeaning], ?_⟩
    exact nextOfPastNewlines_bind_eq_ok_iff.2 ⟨closing, _, closed, by simp [closes], rfl⟩

theorem readOption?_eq_some_iff {options options' : List ChoiceOption} :
    readOption? options c = .ok (some options') c' ↔
      ∃ option, OptionStands c option c' ∧ options' = options ++ [option] := by
  constructor
  · intro h
    obtain ⟨⟨⟩, c₁, skipped, h⟩ := bind_eq_ok_iff.1 h
    obtain ⟨opening, c₂, read, h⟩ := bind_eq_ok_iff.1 h
    have opened := next_past_eq_ok_iff.1 ⟨c₁, skipped, read⟩
    split at h
    · rename_i opens
      obtain ⟨option, c₃, read, h⟩ := bind_eq_ok_iff.1 h
      obtain ⟨key, comma, meaning, closing, n, run, isKey, value, separates, isMeaning, closes, rfl⟩ :=
        readOption_eq_ok_iff.1 read
      obtain ⟨same, rfl⟩ := pure_eq_ok_iff.1 h
      cases same
      obtain ⟨value, least, greatest⟩ := Word.ofString?_eq_some_iff.1 value
      refine ⟨_, ?_, rfl⟩
      exact .mk (.cons opened run) opens isKey value least greatest separates isMeaning closes
    · obtain ⟨_, _, -, h⟩ := bind_eq_ok_iff.1 h
      cases (pure_eq_ok_iff.1 h).1
  · rintro ⟨_, ⟨run, opens, isKey, value, least, greatest, separates, isMeaning, closes⟩, rfl⟩
    obtain ⟨c₂, opened, run⟩ := InOrder.cons_iff.1 run
    obtain ⟨c₁, skipped, read⟩ := next_past_eq_ok_iff.2 opened
    refine bind_eq_ok_iff.2 ⟨(), c₁, skipped, bind_eq_ok_iff.2 ⟨_, c₂, read, ?_⟩⟩
    rw [if_pos opens]
    have value := Word.ofString?_eq_some_iff.2 ⟨value, least, greatest⟩
    refine bind_eq_ok_iff.2 ⟨_, c', readOption_eq_ok_iff.2 ?_, rfl⟩
    exact ⟨_, _, _, _, _, run, isKey, value, separates, isMeaning, closes, rfl⟩

theorem readOption?_eq_none_iff {options : List ChoiceOption} :
    readOption? options c = .ok none c' ↔
      ∃ closing, StandsPast c closing c' ∧ closing.kind = .closeParen := by
  constructor
  · intro h
    obtain ⟨⟨⟩, c₁, skipped, h⟩ := bind_eq_ok_iff.1 h
    obtain ⟨closing, c₂, read, h⟩ := bind_eq_ok_iff.1 h
    have closed := next_past_eq_ok_iff.1 ⟨c₁, skipped, read⟩
    split at h
    · obtain ⟨_, _, -, h⟩ := bind_eq_ok_iff.1 h
      cases (pure_eq_ok_iff.1 h).1
    · obtain ⟨closes, h⟩ := expect_bind_eq_ok_iff.1 h
      obtain ⟨-, rfl⟩ := pure_eq_ok_iff.1 h
      exact ⟨closing, closed, List.mem_singleton.1 closes⟩
  · rintro ⟨closing, closed, closes⟩
    obtain ⟨c₁, skipped, read⟩ := next_past_eq_ok_iff.2 closed
    refine bind_eq_ok_iff.2 ⟨(), c₁, skipped, bind_eq_ok_iff.2 ⟨closing, c', read, ?_⟩⟩
    rw [if_neg (by simp [closes])]
    exact expect_bind_eq_ok_iff.2 ⟨List.mem_singleton.2 closes, rfl⟩

theorem readChoice_eq_ok_iff {entry : Entry} :
    readChoice c = .ok entry c' ↔ ∃ name opening closing options c₁ c₂ c₃, Stands c name c₁ ∧
      name.kind = .quoted ∧ StandsPast c₁ opening c₂ ∧ opening.kind = .openParen ∧
      InOrder OptionStands c₂ options c₃ ∧ StandsPast c₃ closing c' ∧
      closing.kind = .closeParen ∧ entry = choice name.value options := by
  have options_iff {options : List ChoiceOption} {c c' : Cursor} :
      iterate Cursor.unread readOption? [] c = .ok options c' ↔ _ :=
    InOrder.of_iterate OptionStands
      (fun c c' => ∃ closing, StandsPast c closing c' ∧ closing.kind = .closeParen)
      readOption?_eq_some_iff readOption?_eq_none_iff OptionStands.unread_lt
  constructor
  · intro h
    obtain ⟨name, c₁, named, isName, h⟩ := nextOf_bind_eq_ok_iff.1 h
    obtain ⟨opening, c₂, opened, opens, h⟩ := nextOfPastNewlines_bind_eq_ok_iff.1 h
    obtain ⟨options, c₃, loop, h⟩ := bind_eq_ok_iff.1 h
    obtain ⟨added, c₄, listed, ⟨closing, closed, closes⟩, rfl⟩ := options_iff.1 loop
    obtain ⟨rfl, rfl⟩ := pure_eq_ok_iff.1 h
    exact ⟨name, opening, closing, options, c₁, c₂, c₄, named, List.mem_singleton.1 isName, opened,
      List.mem_singleton.1 opens, listed, closed, closes, rfl⟩
  · rintro ⟨name, opening, closing, options, c₁, c₂, c₃, named, isName, opened, opens, listed, closed,
      closes, rfl⟩
    refine nextOf_bind_eq_ok_iff.2 ⟨name, c₁, named, by simp [isName], ?_⟩
    refine nextOfPastNewlines_bind_eq_ok_iff.2 ⟨opening, c₂, opened, by simp [opens], ?_⟩
    refine bind_eq_ok_iff.2 ⟨options, c', options_iff.2 ?_, rfl⟩
    exact ⟨options, c₃, listed, ⟨closing, closed, closes⟩, rfl⟩

/-! ### Models -/

theorem readBy_eq_ok_iff {grammar : SelectorGrammar} {e : Selector} :
    ModelClause.readBy grammar c = .ok e c' ↔ Closed grammar c e c' := by
  constructor
  · intro h
    obtain ⟨e', c₁, selector, h⟩ := bind_eq_ok_iff.1 h
    obtain ⟨closing, c₂, closed, closes, h⟩ := nextOf_bind_eq_ok_iff.1 h
    obtain ⟨rfl, rfl⟩ := pure_eq_ok_iff.1 h
    exact .mk selector closed (List.mem_singleton.1 closes)
  · rintro ⟨selector, closed, closes⟩
    refine bind_eq_ok_iff.2 ⟨e, _, selector, ?_⟩
    exact nextOf_bind_eq_ok_iff.2 ⟨_, c', closed, List.mem_singleton.2 closes, rfl⟩

theorem readEither_eq_ok_iff {clause : ModelClause} :
    ModelClause.readEither dialect c = .ok clause c' ↔ ClauseStands dialect c clause c' := by
  rw [ModelClause.readEither_eq_ok_iff]
  constructor
  · rintro (⟨e, read, rfl⟩ | ⟨e, failure, c₁, failed, read, rfl⟩)
    · exact .preferred (readBy_eq_ok_iff.1 read)
    · refine .fallback (fun e' c₂ closed => ?_) (readBy_eq_ok_iff.1 read)
      have read' := readBy_eq_ok_iff.2 closed
      rw [failed] at read'
      cases read'
  · intro h
    cases h with
    | preferred closed => exact .inl ⟨_, readBy_eq_ok_iff.2 closed, rfl⟩
    | fallback none closed =>
      cases run : ModelClause.readBy dialect.preferred c with
      | ok e' c₁ => exact absurd (readBy_eq_ok_iff.1 run) (none e' c₁)
      | error failure c₁ => exact .inr ⟨_, failure, c₁, rfl, readBy_eq_ok_iff.2 closed, rfl⟩

/-! ### Entries -/

theorem readRest_eq_ok_iff {word : Token} {entry : Entry} :
    readRest dialect word c = .ok entry c' ↔ RestStands dialect word c entry c' := by
  constructor
  · intro h
    unfold readRest at h
    split at h
    · rename_i is
      obtain ⟨_, _, _, _, _, run, opens, isKey, separates, isValue, closes, rfl⟩ :=
        readDefault_eq_ok_iff.1 h
      exact .default is run opens isKey separates isValue closes
    rename_i noDefault
    split at h
    · rename_i is
      obtain ⟨_, _, _, run, opens, isName, closes, rfl⟩ := readBase_eq_ok_iff.1 h
      exact .base is run opens isName closes
    rename_i noBase
    split at h
    · rename_i is
      obtain ⟨_, _, _, _, _, _, _, named, isName, opened, opens, listed, closed, closes, rfl⟩ :=
        readChoice_eq_ok_iff.1 h
      exact .choice is named isName opened opens listed closed closes
    rename_i noChoice
    split at h
    · rename_i is
      obtain ⟨clause, c₁, read, h⟩ := bind_eq_ok_iff.1 h
      obtain ⟨opening, c₂, opened, opens, read⟩ := nextOf_bind_eq_ok_iff.1 read
      obtain ⟨rfl, rfl⟩ := pure_eq_ok_iff.1 h
      exact .model is opened (List.mem_singleton.1 opens) (readEither_eq_ok_iff.1 read)
    · rename_i noModel
      obtain ⟨rfl, rfl⟩ := pure_eq_ok_iff.1 h
      exact .other (by simp [keywords, noDefault, noBase, noChoice, noModel])
  · intro h
    unfold readRest
    cases h with
    | default is run opens isKey separates isValue closes =>
      rw [if_pos is]
      exact readDefault_eq_ok_iff.2 ⟨_, _, _, _, _, run, opens, isKey, separates, isValue, closes, rfl⟩
    | base is run opens isName closes =>
      rw [if_neg (by simp [is]), if_pos is]
      exact readBase_eq_ok_iff.2 ⟨_, _, _, run, opens, isName, closes, rfl⟩
    | choice is named isName opened opens listed closed closes =>
      rw [if_neg (by simp [is]), if_neg (by simp [is]), if_pos is]
      exact readChoice_eq_ok_iff.2
        ⟨_, _, _, _, _, _, _, named, isName, opened, opens, listed, closed, closes, rfl⟩
    | model is opened opens clause =>
      rw [if_neg (by simp [is]), if_neg (by simp [is]), if_neg (by simp [is]), if_pos is]
      refine bind_eq_ok_iff.2 ⟨_, c', ?_, rfl⟩
      exact nextOf_bind_eq_ok_iff.2
        ⟨_, _, opened, List.mem_singleton.2 opens, readEither_eq_ok_iff.2 clause⟩
    | other is =>
      simp only [keywords, List.mem_cons, List.not_mem_nil, or_false, not_or] at is
      rw [if_neg is.1, if_neg is.2.1, if_neg is.2.2.1, if_neg is.2.2.2]
      rfl

end Entry

namespace Definition

open Entry

/-- An entry in a session: it moves the cursor and is warned about. -/
inductive EntryRead (dialect : Dialect) : Session → Entry → Session → Prop where
  | mk {s : Session} {entry : Entry} {c : Cursor} (stands : EntryStands dialect s.cursor entry c) :
    EntryRead dialect s entry { s with cursor := c, warnings := s.warnings ++ warningsOf entry }

theorem readEntry_eq_some_iff {es es' : List Entry} {s s' : Session} :
    readEntry dialect es s = .ok (some es') s' ↔
      ∃ entry, EntryRead dialect s entry s' ∧ es' = es ++ [entry] := by
  constructor
  · intro h
    obtain ⟨word, c₁, named, h⟩ := lift_bind_eq_ok_iff.1 h
    obtain ⟨named, kind⟩ := nextOfPastNewlines_eq_ok_iff.1 named
    split at h
    · cases (pure_eq_ok_iff.1 h).1
    rename_i noBrace
    obtain ⟨entry, c₂, rest, h⟩ := lift_bind_eq_ok_iff.1 h
    obtain ⟨⟨⟩, s₁, warned, h⟩ := bind_eq_ok_iff.1 h
    cases warned
    obtain ⟨semicolon, c₃, closed, h⟩ := lift_bind_eq_ok_iff.1 h
    obtain ⟨closed, closes⟩ := nextOfPastNewlines_eq_ok_iff.1 closed
    obtain ⟨same, rfl⟩ := pure_eq_ok_iff.1 h
    cases same
    have isWord : word.kind = .word := by simpa [noBrace] using kind
    refine ⟨entry, ?_, rfl⟩
    exact .mk (.mk named isWord (readRest_eq_ok_iff.1 rest) closed (List.mem_singleton.1 closes))
  · rintro ⟨entry, ⟨⟨named, isWord, rest, closed, closes⟩⟩, rfl⟩
    have word : _ ∈ [Kind.word, .closeBrace] := List.mem_cons.2 (.inl isWord)
    refine lift_bind_eq_ok_iff.2 ⟨_, _, nextOfPastNewlines_eq_ok_iff.2 ⟨named, word⟩, ?_⟩
    rw [if_neg (by simp [isWord])]
    refine lift_bind_eq_ok_iff.2 ⟨entry, _, readRest_eq_ok_iff.2 rest, ?_⟩
    refine bind_eq_ok_iff.2 ⟨(), _, rfl, ?_⟩
    have semicolon := nextOfPastNewlines_eq_ok_iff.2 ⟨closed, List.mem_singleton.2 closes⟩
    exact lift_bind_eq_ok_iff.2 ⟨_, _, semicolon, rfl⟩

theorem readEntry_eq_none_iff {es : List Entry} {s s' : Session} :
    readEntry dialect es s = .ok none s' ↔ ∃ closing c, StandsPast s.cursor closing c ∧
      closing.kind = .closeBrace ∧ s' = { s with cursor := c } := by
  constructor
  · intro h
    obtain ⟨closing, c, closed, h⟩ := lift_bind_eq_ok_iff.1 h
    obtain ⟨closed, -⟩ := nextOfPastNewlines_eq_ok_iff.1 closed
    split at h
    · rename_i closes
      obtain ⟨-, rfl⟩ := pure_eq_ok_iff.1 h
      exact ⟨closing, c, closed, closes, rfl⟩
    · iterate 3 obtain ⟨_, _, -, h⟩ := bind_eq_ok_iff.1 h
      cases (pure_eq_ok_iff.1 h).1
  · rintro ⟨closing, c, closed, closes, rfl⟩
    have brace : closing.kind ∈ [Kind.word, .closeBrace] := by simp [closes]
    refine lift_bind_eq_ok_iff.2 ⟨closing, c, nextOfPastNewlines_eq_ok_iff.2 ⟨closed, brace⟩, ?_⟩
    rw [if_pos closes]
    rfl

/-- Entries in a session are entries at its cursor, all of which are warned about. -/
theorem entriesRead_iff {entries : List Entry} {s s' : Session} :
    InOrder (EntryRead dialect) s entries s' ↔ ∃ c, InOrder (EntryStands dialect) s.cursor entries c ∧
      s' = { s with cursor := c, warnings := s.warnings ++ entries.flatMap warningsOf } := by
  constructor
  · intro h
    induction h with
    | nil s => exact ⟨s.cursor, .nil _, by simp⟩
    | cons head _ ih =>
      obtain ⟨stands⟩ := head
      obtain ⟨c, listed, rfl⟩ := ih
      exact ⟨c, .cons stands listed, by simp⟩
  · rintro ⟨c, listed, rfl⟩
    generalize start : s.cursor = c₀ at listed
    induction listed generalizing s with
    | nil c =>
      subst start
      simpa using InOrder.nil s
    | @cons _ c₁ _ entry _ head _ ih =>
      subst start
      have rest := ih (s := { s with cursor := c₁, warnings := s.warnings ++ warningsOf entry }) rfl
      simp only [List.append_assoc] at rest
      exact .cons (.mk head) rest

/-- The entries of a definition are read where they stand, if a token can be made there, and nothing
but the cursor and the warnings changes. -/
theorem entries_eq_ok_iff {entries : List Entry} {s s' : Session} :
    Definition.entries dialect s = .ok entries s' ↔ ∃ c, Body dialect s.cursor entries c ∧
      (∃ t c₁, Stands s.cursor t c₁) ∧
      s' = { s with cursor := c, warnings := s.warnings ++ entries.flatMap warningsOf } := by
  have less {s s' : Session} {entry : Entry} (h : EntryRead dialect s entry s') :
      s'.unread < s.unread := by
    obtain ⟨stands⟩ := h
    exact stands.unread_lt
  have entries_iff {entries : List Entry} {s s' : Session} :
      iterate Session.unread (readEntry dialect) [] s = .ok entries s' ↔ _ :=
    InOrder.of_iterate (EntryRead dialect)
      (fun s s' => ∃ closing c, StandsPast s.cursor closing c ∧ closing.kind = .closeBrace ∧
        s' = { s with cursor := c })
      readEntry_eq_some_iff readEntry_eq_none_iff less
  constructor
  · intro h
    obtain ⟨t, c₀, peeked, h⟩ := lift_bind_eq_ok_iff.1 h
    obtain ⟨same, c₁, stands⟩ := peek_eq_ok_iff.1 peeked
    rw [same] at h
    split at h
    · rename_i other
      obtain ⟨rfl, rfl⟩ := pure_eq_ok_iff.1 h
      refine ⟨s.cursor, .bare ?_, ⟨t, c₁, stands⟩, by simp⟩
      intro u c₂ stands'
      rw [(stands.unique stands').1]
      exact other
    · rename_i brace
      obtain ⟨opening, c₂, opened, h⟩ := lift_bind_eq_ok_iff.1 h
      obtain ⟨rfl, rfl⟩ := stands.unique opened
      obtain ⟨added, s₁, looped, ⟨closing, c₃, closed, closes, rfl⟩, rfl⟩ := entries_iff.1 h
      obtain ⟨c₄, listed, rfl⟩ := entriesRead_iff.1 looped
      refine ⟨c₃, ?_, ⟨opening, c₂, stands⟩, rfl⟩
      exact .braces stands (Decidable.not_not.1 brace) listed closed closes
  · rintro ⟨c, body, ⟨t, c₁, stands⟩, rfl⟩
    refine lift_bind_eq_ok_iff.2 ⟨t, s.cursor, peek_eq_ok_iff.2 ⟨rfl, c₁, stands⟩, ?_⟩
    cases body with
    | bare none =>
      rw [if_pos (none t c₁ stands)]
      simp
    | braces opened opens listed closed closes =>
      obtain ⟨rfl, rfl⟩ := stands.unique opened
      rw [if_neg (by simp [opens])]
      refine lift_bind_eq_ok_iff.2 ⟨_, _, opened, ?_⟩
      refine entries_iff.2 ⟨entries, _, entriesRead_iff.2 ⟨_, listed, rfl⟩, ?_, rfl⟩
      exact ⟨_, c, closed, closes, rfl⟩

end Definition
end Quaked
