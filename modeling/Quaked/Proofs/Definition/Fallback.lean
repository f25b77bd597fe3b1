import Quaked.Proofs.Definition.Bases
import Quaked.Proofs.Definition.Parser
import Quaked.Proofs.Definition.Termination

/-!
# Trying one grammar after the other

A selector in parentheses is read by two grammars that share one lexer. `Parser.readClause` is the way this
goes on step by step: the lexer may keep a token, each grammar moves its cursor as far as it gets, and what
a failed attempt has moved is put back. As a whole that is a choice between what the grammars do right
behind the parenthesis (`clause_settles`): nothing is left of an attempt that has failed.

* `AtEntry.next_of_error`: where reading an entry fails, so does reading its definition, in that state.
-/

namespace Quaked

open Text

namespace Definition

/-! ### In the middle of a definition -/

section Entries

variable {settings : Settings} {s₀ s s' : Session} {es : List Entry} {word : Token} {e : Error}

/-- From `s₀` on reading a definition has come to its entries and has read some of them. -/
inductive Underway (settings : Settings) (s₀ : Session) : List Entry → Session → Prop where
  | opened {parts : String × Option Header} {brace : Token} {c₁ c₂ c₃ : Cursor}
    (mark : opening s₀.cursor = .ok true c₁) (headed : header c₁ = .ok parts c₂)
    (stands : Token.next c₂ = .ok brace c₃) (open' : brace.kind = .openBrace) :
    Underway settings s₀ [] { s₀ with cursor := c₃ }
  | entry {es es' : List Entry} {s s' : Session} (before : Underway settings s₀ es s)
    (read : readEntry settings.dialect es s = .ok (some es') s') : Underway settings s₀ es' s'

/-- Reading the definition goes on with a further entry. -/
theorem Underway.entries_eq (h : Underway settings s₀ es s) :
    ∃ parts c₁ c₂, opening s₀.cursor = .ok true c₁ ∧ header c₁ = .ok parts c₂ ∧
      entries settings.dialect { s₀ with cursor := c₂ } =
        iterate Session.unread (readEntry settings.dialect) es s := by
  induction h with
  | opened mark headed stands open' =>
    have shown := Token.peek_eq_ok_iff.2 ⟨rfl, _, stands⟩
    refine ⟨_, _, _, mark, headed, ?_⟩
    unfold entries
    rw [lift_bind_of_ok shown, if_neg (not_not_intro open')]
    exact lift_bind_of_ok stands
  | entry before read ih =>
    obtain ⟨parts, c₁, c₂, mark, headed, same⟩ := ih
    refine ⟨parts, c₁, c₂, mark, headed, ?_⟩
    rw [same, iterate_of_some read (unread_readEntry read)]

/-- Where reading an entry fails, so does reading the definition. -/
theorem Underway.next_of_error (h : Underway settings s₀ es s)
    (failed : readEntry settings.dialect es s = .error e s') : next settings s₀ = .error e s' := by
  obtain ⟨parts, c₁, c₂, mark, headed, same⟩ := h.entries_eq
  rw [iterate_of_error failed] at same
  have declared : declare settings.dialect { s₀ with cursor := c₁ } = .error e s' :=
    (lift_bind_of_ok headed).trans (bind_of_error same)
  exact (lift_bind_of_ok mark).trans (bind_of_error declared)

/-- From `s₀` on reading a definition has come to the word of an entry. -/
def AtEntry (settings : Settings) (s₀ : Session) (word : Token) (s : Session) : Prop :=
  ∃ es s₁ c, Underway settings s₀ es s₁ ∧
    Token.nextOfPastNewlines [.word, .closeBrace] s₁.cursor = .ok word c ∧ word.kind = .word ∧
    s = { s₁ with cursor := c }

theorem AtEntry.next_of_error (h : AtEntry settings s₀ word s)
    (failed : readWarned settings.dialect word s = .error e s') : next settings s₀ = .error e s' := by
  obtain ⟨es, s₁, c, underway, stands, isWord, rfl⟩ := h
  have other : word.kind ≠ .closeBrace := by
    rw [isWord]
    decide
  refine underway.next_of_error ?_
  rw [readEntry_eq, lift_bind_of_ok stands, if_neg other]
  exact bind_of_error failed

end Entries

/-- **A clause is read by one of two grammars, or not at all.** Let a parser stand in front of an opening
parenthesis, a token kept or not, and let `behind` be the parser that has consumed the parenthesis. If the
primary grammar and a closing parenthesis can be read from there, the clause is that, and nothing is warned
about. If not, but they can be with the legacy grammar, the clause is that, with one warning more, at the
position of `behind`. If neither can be, the failure is the primary one and the parser is `behind`, with no
token kept. So each time it does not matter what a failed attempt has read.

For the grammars of a dialect this is what is read behind the word `model` of an entry, and where both fail
the definition that the entry belongs to fails likewise, and has changed no base. -/
theorem clause_settles {p : Parser} {opening : Token} {start : Cursor}
    (coherent : p.lexer.Coherent Token.next) (next : Token.next p.session.cursor = .ok opening start)
    (paren : opening.kind = .openParen) :
    let behind : Parser := ⟨{ p.session with cursor := start }, none⟩
    Parser.nextOf [.openParen] p = .ok opening behind ∧
    (∀ primary legacy : Reading Selector,
      (∀ e c, attempt primary start = .ok e c →
        p.readClause primary legacy = .ok ⟨e, none⟩ ⟨{ p.session with cursor := c }, none⟩) ∧
      (∀ failure c₁ e c, attempt primary start = .error failure c₁ → attempt legacy start = .ok e c →
        p.readClause primary legacy = .ok ⟨e, some start.position⟩
          ⟨{ p.session with
              cursor := c
              warnings := p.session.warnings ++ [⟨.replaceable e, start.position⟩] }, none⟩) ∧
      ∀ failure c₁ other c₂, attempt primary start = .error failure c₁ →
        attempt legacy start = .error other c₂ → p.readClause primary legacy = .error failure behind) ∧
    ∀ word, word.text = "model" →
      (∀ dialect, readWarned dialect word p.session =
        Parser.entry (p.readClause dialect.preferred.read dialect.fallback.read)) ∧
      ∀ settings s₀ failure c₁ other c₂, AtEntry settings s₀ word p.session →
        attempt settings.dialect.preferred.read start = .error failure c₁ →
        attempt settings.dialect.fallback.read start = .error other c₂ →
        Definition.next settings s₀ = .error failure behind.session ∧
          behind.session.bases = s₀.bases := by
  intro behind
  have settles := Parser.readClause_eq coherent next paren
  refine ⟨Parser.nextOf_openParen coherent next paren, ?_, ?_⟩
  · intro primary legacy
    refine ⟨?_, ?_, ?_⟩
    · intro e c first
      rw [settles, first]
      rfl
    · intro failure c₁ e c first second
      rw [settles, first, second]
      rfl
    · intro failure c₁ other c₂ first second
      rw [settles, first, second]
      rfl
  · intro word model
    refine ⟨fun dialect => readWarned_eq coherent model, ?_⟩
    intro settings s₀ failure c₁ other c₂ entry first second
    have failed : readWarned settings.dialect word p.session = .error failure behind.session := by
      rw [readWarned_eq coherent model, settles, first, second]
      rfl
    have whole := entry.next_of_error failed
    exact ⟨whole, bases_of_error whole⟩

/-- A parenthesis that has been looked at, and a grammar that reads to the end before it fails: the other
one starts behind the parenthesis all the same. -/
theorem clause_settles_behind_failure :
    let text : Cursor := .ofString "(skin)"
    let p : Parser := ⟨{ cursor := text }, some (⟨.openParen, "(", .start⟩, text.advance)⟩
    let refusing : Reading Selector := fun c => .error ⟨.unterminatedString, c.position⟩ c.toEnd
    let naming : Reading Selector := fun c => .ok (.lookup (c.text 4)) (c.skip 4)
    p.readClause refusing naming = .ok ⟨.lookup "skin", some ⟨1, 2⟩⟩
      ⟨{ cursor := text.toEnd, warnings := [⟨.replaceable (.lookup "skin"), ⟨1, 2⟩⟩] }, none⟩ := by
  intro text p refusing naming
  have coherent : p.lexer.Coherent Token.next := by
    intro t behind kept
    cases kept
    rfl
  have next : Token.next text = .ok ⟨.openParen, "(", .start⟩ text.advance := rfl
  have settles := (clause_settles coherent next rfl).2.1
  exact (settles refusing naming).2.1 _ _ _ _ rfl rfl

end Definition
end Quaked
