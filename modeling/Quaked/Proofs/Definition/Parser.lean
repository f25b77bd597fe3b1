import Quaked.Proofs.Definition.Looking
import Quaked.Proofs.Definition.Warnings
import Quaked.Proofs.Token.Runs

/-!
# A parser that keeps a token

A definition file is read with one lexer, which keeps the token it has looked at. `Parser.next` is the way a
definition is read with it, step by step: most readers look before they consume, a raw description and a
selector are read at the cursor, past what is kept, and what a failed attempt at a selector has moved is put
back. In all this the parser comes to what is read in its session alone (`Parser.inStep_next`), so it does
not matter where a failure has left a token. Behind a call that succeeds none is kept
(`Parser.pending_of_next`).

* `Parser.readClause_eq`: a selector is a choice between what two grammars do at one place.
* `readWarned_eq`: that is what is read in a session for the grammars of a dialect.
-/

namespace Quaked

open Text

namespace Definition

/-- A definition file while it is read by a lexer that may keep the token behind the cursor. -/
structure Parser where
  session : Session
  /-- The token that has been looked at, and the cursor behind it. -/
  pending : Option (Token × Cursor) := none

namespace Parser

variable {α : Type}

/-- A parser that has read nothing yet. -/
def ofString (text : String) : Parser := { session := .ofString text }

/-- The lexer as it stands. -/
def lexer (p : Parser) : Lookahead Token := ⟨p.session.cursor, p.pending⟩

/-- The parser with its lexer in another state. -/
def withLexer (p : Parser) (l : Lookahead Token) : Parser :=
  ⟨{ p.session with cursor := l.cursor }, l.pending⟩

/-- The cursor moved, and no token kept. -/
def moved (p : Parser) (c : Cursor) : Parser := ⟨{ p.session with cursor := c }, none⟩

/-- What the lexer comes to, the parser going on with it. -/
def resume (p : Parser) : EStateM.Result Error (Lookahead Token) α → EStateM.Result Error Parser α
  | .ok a l => .ok a (p.withLexer l)
  | .error e l => .error e (p.withLexer l)

/-- The lexer of a parser reads. -/
instance : MonadLift (EStateM Error (Lookahead Token)) (EStateM Error Parser) where
  monadLift steps := fun p => p.resume (steps p.lexer)

/-- What a reader comes to at the cursor, the parser going on where the reader ends. -/
def settle (p : Parser) : EStateM.Result Error Cursor α → EStateM.Result Error Parser α
  | .ok a c => .ok a (p.moved c)
  | .error e c => .error e (p.moved c)

/-- Hands the cursor over to a reader. A token that is kept is put down. -/
def handOver (reader : Reading α) : EStateM Error Parser α := fun p => p.settle (reader p.session.cursor)

/-- Does something in the session that leaves the lexer alone. -/
def inSession (x : Parsing α) : EStateM Error Parser α := fun p =>
  match x p.session with
  | .ok a s => .ok a { p with session := s }
  | .error e s => .error e { p with session := s }

/-! ### Selectors -/

/-- Consumes a token of one of the kinds. -/
def nextOf (kinds : List Token.Kind) : EStateM Error Parser Token := Looking.nextOf kinds

/-- Puts the cursor back to where it was. -/
def rewind (start : Cursor) : EStateM Error Parser Unit := modify (·.moved start)

/-- Adds a warning. -/
def warn (w : Warning) : EStateM Error Parser Unit :=
  modify fun p => { p with session := { p.session with warnings := p.session.warnings ++ [w] } }

/-- Runs a grammar over the shared cursor, and takes the parenthesis behind it. -/
def readBy (grammar : Reading Selector) : EStateM Error Parser Selector := do
  let selector ← handOver grammar
  let _ ← nextOf [.closeParen]
  return selector

/-- Reads a selector by one grammar, and by the other one from the start again if that fails. -/
def readEither (primary legacy : Reading Selector) (start : Cursor) : EStateM Error Parser ModelClause :=
  tryCatch (return ⟨← readBy primary, none⟩) fun failure => do
    rewind start
    tryCatch
      (do
        let selector ← readBy legacy
        warn ⟨.replaceable selector, start.position⟩
        return ⟨selector, some start.position⟩)
      (fun _ => do
        rewind start
        throw failure)

/-- Reads a selector in parentheses. -/
def readClause (primary legacy : Reading Selector) : EStateM Error Parser ModelClause := do
  let _ ← nextOf [.openParen]
  readEither primary legacy (← get).session.cursor

/-! ### Definitions -/

/-- The rest of an entry behind its word, with the warning that it earns. -/
def readRest (dialect : Dialect) (word : Token) : EStateM Error Parser Entry :=
  if word.text = "model" then
    return .model (← readClause dialect.preferred.read dialect.fallback.read)
  else Looking.readPlain word

/-- One more entry and its semicolon, or none at the brace that closes the entries. -/
def readEntry (dialect : Dialect) (entries : List Entry) : EStateM Error Parser (Option (List Entry)) := do
  let t ← Looking.nextOfPastNewlines [.word, .closeBrace]
  if t.kind = .closeBrace then return none
  let entry ← readRest dialect t
  let _ ← Looking.nextOfPastNewlines [.semicolon]
  return some (entries ++ [entry])

/-- The entries in braces, if the next token is a brace. -/
def entries (dialect : Dialect) : EStateM Error Parser (List Entry) := do
  if (← Looking.peek).kind ≠ .openBrace then return []
  let _ ← Looking.next
  iterate (·.session.unread) (readEntry dialect) []

/-- Reads a definition behind its mark. -/
def declare (dialect : Dialect) : EStateM Error Parser Declaration := do
  let (name, header) ← Looking.header
  let entries ← entries dialect
  let description ← Looking.description
  let _ ← nextOf [.commentClose]
  return declaration name header entries description

/-- Reads the next definition. -/
def next (settings : Settings) : EStateM Error Parser Outcome := do
  if ← Looking.opening then
    let d ← inSession (resolve (← declare settings.dialect))
    if d.isBase then inSession (keep d) else return .entity (d.entityClass settings.defaultColor)
  else return .finished

/-! ### In a session -/

/-- The session is that of the parser, and if the parser keeps a token that is the next one. -/
def InSession (p : Parser) (s : Session) : Prop := p.session = s ∧ p.lexer.Coherent Token.next

theorem InSession.unread (p : Parser) (s : Session) (h : InSession p s) : s.unread = p.session.unread := by
  rw [h.1]

variable {β : Type} {A : α → β → Prop}

theorem lift_eq (steps : Looking α) (p : Parser) :
    (liftM steps : EStateM Error Parser α) p = p.resume (steps p.lexer) := rfl

/-- What the lexer reads comes to what is read in the session. -/
theorem inStep_lift {steps : Looking α} {reader : Reading β} (h : InStep Looking.AtCursor Eq A steps reader) :
    InStep InSession Eq A (liftM steps : EStateM Error Parser α) (liftM reader : Parsing β) := by
  rintro p _ ⟨rfl, coherent⟩
  have both := h p.lexer p.session.cursor ⟨rfl, coherent⟩
  rw [lift_eq, lift_apply]
  generalize steps p.lexer = r, reader p.session.cursor = r' at both
  cases both with
  | ok answers states =>
    obtain ⟨rfl, coherent⟩ := states
    exact .ok answers ⟨rfl, coherent⟩
  | error failures states =>
    obtain ⟨rfl, coherent⟩ := states
    exact .error failures ⟨rfl, coherent⟩

/-- What is done in the session at the place of the cursor leaves a token that is kept the next one. -/
theorem inStep_inSession {x : Parsing α} (stays : ∀ s, (final (x s)).cursor = s.cursor) :
    InStep InSession Eq Eq (inSession x) x := by
  rintro p _ ⟨rfl, coherent⟩
  have same := stays p.session
  unfold inSession
  cases run : x p.session with
  | ok a s =>
    rw [run] at same
    refine .ok rfl ⟨rfl, ?_⟩
    show Lookahead.Coherent Token.next ⟨s.cursor, p.pending⟩
    rw [show s.cursor = p.session.cursor from same]
    exact coherent
  | error e s =>
    rw [run] at same
    refine .error rfl ⟨rfl, ?_⟩
    show Lookahead.Coherent Token.next ⟨s.cursor, p.pending⟩
    rw [show s.cursor = p.session.cursor from same]
    exact coherent

/-! ### Attempts -/

/-- The steps come to what a reader of characters does, where no token is kept or the next one is. -/
def Follows (steps : EStateM Error Parser α) (reader : Reading α) : Prop :=
  ∀ p : Parser, p.lexer.Coherent Token.next → steps p = p.settle (reader p.session.cursor)

variable {p : Parser} {c : Cursor}

theorem settle_moved (p : Parser) (c : Cursor) (r : EStateM.Result Error Cursor α) :
    (p.moved c).settle r = p.settle r := by
  cases r <;> rfl

theorem withLexer_of_pending {l : Lookahead Token} (empty : l.pending = none) :
    p.withLexer l = p.moved l.cursor := by
  rw [withLexer, empty, moved]

theorem follows_handOver (reader : Reading α) : Follows (handOver reader) reader := fun _ _ => rfl

theorem follows_nextOf (kinds : List Token.Kind) : Follows (nextOf kinds) (Token.nextOf kinds) := by
  intro p coherent
  have both := Looking.looks_nextOf kinds p.lexer p.session.cursor ⟨rfl, coherent⟩
  have empty := Looking.pending_nextOf kinds p.lexer
  show p.resume (Looking.nextOf kinds p.lexer) = _
  generalize Looking.nextOf kinds p.lexer = r, Token.nextOf kinds p.session.cursor = r' at both empty
  cases both with
  | ok answers states =>
    obtain ⟨rfl, -⟩ := states
    rw [answers]
    exact congrArg _ (withLexer_of_pending empty)
  | error failures states =>
    obtain ⟨rfl, -⟩ := states
    rw [failures]
    exact congrArg _ (withLexer_of_pending empty)

/-- Where a reader has ended no token is kept, so the steps may start there. -/
theorem Follows.moved {steps : EStateM Error Parser α} {reader : Reading α} (h : Follows steps reader)
    (p : Parser) (c : Cursor) : steps (p.moved c) = p.settle (reader c) :=
  (h (p.moved c) (Lookahead.coherent_fresh c)).trans (settle_moved p c _)

theorem Follows.bind {β : Type} {x : EStateM Error Parser α} {f : α → EStateM Error Parser β}
    {reader : Reading α} {g : α → Reading β} (first : Follows x reader)
    (second : ∀ a (p : Parser) c, f a (p.moved c) = p.settle (g a c)) :
    Follows (x >>= f) (reader >>= g) := by
  intro p coherent
  have run := first p coherent
  cases read : reader p.session.cursor with
  | ok a c =>
    rw [read] at run
    rw [bind_of_ok run, bind_of_ok read, second]
  | error e c =>
    rw [read] at run
    rw [bind_of_error run, bind_of_error read]
    rfl

end Parser

/-- A grammar, and the parenthesis that closes what it reads. -/
def attempt (grammar : Reading Selector) : Reading Selector := do
  let selector ← grammar
  let _ ← Token.nextOf [.closeParen]
  return selector

theorem readBy_eq_attempt (grammar : SelectorGrammar) :
    ModelClause.readBy grammar = attempt grammar.read := rfl

namespace Parser

variable {p : Parser} {start : Cursor} {opening : Token}

/-- An attempt takes the same steps wherever the lexer is in the middle of a look, and whatever the grammar
does with the cursor before it ends or fails. -/
theorem follows_readBy (grammar : Reading Selector) : Follows (readBy grammar) (attempt grammar) := by
  refine (follows_handOver grammar).bind fun selector => Follows.moved ?_
  exact (follows_nextOf [.closeParen]).bind fun _ _ _ => rfl

theorem nextOf_openParen (coherent : p.lexer.Coherent Token.next)
    (next : Token.next p.session.cursor = .ok opening start) (paren : opening.kind = .openParen) :
    nextOf [.openParen] p = .ok opening (p.moved start) := by
  have among : Token.nextOf [.openParen] p.session.cursor = .ok opening start :=
    Token.nextOf_eq_ok_iff.2 ⟨next, List.mem_singleton.2 paren⟩
  rw [follows_nextOf _ p coherent, among]
  rfl

/-- The parser behind a further warning. -/
def warned (p : Parser) (w : Warning) : Parser :=
  { p with session := { p.session with warnings := p.session.warnings ++ [w] } }

/-- From a place on, only what the two attempts come to there counts. -/
theorem readEither_eq (primary legacy : Reading Selector) (p : Parser) (start : Cursor) :
    readEither primary legacy start (p.moved start) =
      match attempt primary start with
      | .ok selector c => .ok ⟨selector, none⟩ (p.moved c)
      | .error failure _ =>
        match attempt legacy start with
        | .ok selector c =>
          .ok ⟨selector, some start.position⟩
            ((p.moved c).warned ⟨.replaceable selector, start.position⟩)
        | .error _ _ => .error failure (p.moved start) := by
  rw [readEither]
  cases first : attempt primary start with
  | ok selector c =>
    have read : readBy primary (p.moved start) = .ok selector (p.moved c) := by
      rw [(follows_readBy primary).moved, first]
      rfl
    exact tryCatch_of_ok (bind_of_ok read)
  | error failure c =>
    have failed : readBy primary (p.moved start) = .error failure (p.moved c) := by
      rw [(follows_readBy primary).moved, first]
      rfl
    have back : rewind start (p.moved c) = .ok () (p.moved start) := rfl
    rw [tryCatch_of_error (bind_of_error failed), bind_of_ok back]
    cases second : attempt legacy start with
    | ok selector c =>
      have read : readBy legacy (p.moved start) = .ok selector (p.moved c) := by
        rw [(follows_readBy legacy).moved, second]
        rfl
      exact tryCatch_of_ok (bind_of_ok read)
    | error other c =>
      have failed : readBy legacy (p.moved start) = .error other (p.moved c) := by
        rw [(follows_readBy legacy).moved, second]
        rfl
      rw [tryCatch_of_error (bind_of_error failed)]
      rfl

/-- Behind the parenthesis only the attempts count. -/
theorem readClause_eq (coherent : p.lexer.Coherent Token.next)
    (next : Token.next p.session.cursor = .ok opening start) (paren : opening.kind = .openParen)
    (primary legacy : Reading Selector) :
    readClause primary legacy p =
      match attempt primary start with
      | .ok selector c => .ok ⟨selector, none⟩ (p.moved c)
      | .error failure _ =>
        match attempt legacy start with
        | .ok selector c =>
          .ok ⟨selector, some start.position⟩
            ((p.moved c).warned ⟨.replaceable selector, start.position⟩)
        | .error _ _ => .error failure (p.moved start) := by
  rw [← readEither_eq]
  exact bind_of_ok (nextOf_openParen coherent next paren)

end Parser

/-! ### Entries -/

/-- The rest of an entry behind its word, with the warning that it earns. -/
def readWarned (dialect : Dialect) (word : Token) : Parsing Entry := do
  let entry ← Entry.readRest dialect word
  warn (warningsOf entry)
  return entry

theorem readEntry_eq (dialect : Dialect) (entries : List Entry) :
    readEntry dialect entries = (do
      let t ← Token.nextOfPastNewlines [.word, .closeBrace]
      if t.kind = .closeBrace then return none
      let entry ← readWarned dialect t
      let _ ← Token.nextOfPastNewlines [.semicolon]
      return some (entries ++ [entry])) := by
  unfold readEntry readWarned
  simp only [bind_assoc, pure_bind]

theorem readRest_model {dialect : Dialect} {word : Token} (model : word.text = "model") :
    Entry.readRest dialect word = (do return .model (← ModelClause.read dialect)) := by
  unfold Entry.readRest
  rw [model]
  rfl

/-- The entry of a clause, and the session of the parser. -/
def Parser.entry : EStateM.Result Error Parser ModelClause → EStateM.Result Error Session Entry
  | .ok clause p => .ok (.model clause) p.session
  | .error e p => .error e p.session

section Clause

variable {p : Parser} {c start : Cursor} {opening word : Token} {dialect : Dialect}

/-- Behind its word and a parenthesis, a clause is what stands behind the parenthesis. -/
theorem readRest_behind (opened : Token.nextOf [.openParen] c = .ok opening start)
    (model : word.text = "model") : Entry.readRest dialect word c =
      (do return Entry.model (← ModelClause.readEither dialect) : Reading Entry) start := by
  rw [readRest_model model]
  exact bind_of_same (bind_of_ok opened)

/-- Behind the parenthesis the steps come to what is read in a session. -/
theorem entry_readEither (dialect : Dialect) (p : Parser) (start : Cursor) :
    (do
      let entry ← liftM (do return Entry.model (← ModelClause.readEither dialect) : Reading Entry)
      warn (warningsOf entry)
      return entry : Parsing Entry) { p.session with cursor := start } =
      Parser.entry (Parser.readEither dialect.preferred.read dialect.fallback.read start (p.moved start)) := by
  have preferred := readBy_eq_attempt dialect.preferred
  have fallback := readBy_eq_attempt dialect.fallback
  rw [Parser.readEither_eq]
  cases first : attempt dialect.preferred.read start with
  | ok selector c =>
    have either : ModelClause.readEither dialect start = .ok ⟨selector, none⟩ c := by
      unfold ModelClause.readEither
      simp only [preferred, first]
    have read : (do return Entry.model (← ModelClause.readEither dialect) : Reading Entry) start =
      .ok (.model ⟨selector, none⟩) c := bind_of_ok either
    rw [lift_bind_of_ok read]
    show EStateM.Result.ok _ { p.session with cursor := c, warnings := p.session.warnings ++ [] } = _
    rw [List.append_nil]
    rfl
  | error failure c =>
    cases second : attempt dialect.fallback.read start with
    | ok selector c =>
      have either : ModelClause.readEither dialect start = .ok ⟨selector, some start.position⟩ c := by
        unfold ModelClause.readEither
        simp only [preferred, fallback, first, second]
      have read : (do return Entry.model (← ModelClause.readEither dialect) : Reading Entry) start =
        .ok (.model ⟨selector, some start.position⟩) c := bind_of_ok either
      exact lift_bind_of_ok read
    | error other c =>
      have either : ModelClause.readEither dialect start = .error failure start := by
        unfold ModelClause.readEither
        simp only [preferred, fallback, first, second]
      refine bind_of_error ?_
      rw [lift_apply, bind_of_error either]
      rfl

/-- The steps come to what is read in a session. -/
theorem readWarned_eq (coherent : p.lexer.Coherent Token.next) (model : word.text = "model") :
    readWarned dialect word p.session =
      Parser.entry (p.readClause dialect.preferred.read dialect.fallback.read) := by
  have opening := Parser.follows_nextOf [.openParen] p coherent
  cases opened : Token.nextOf [.openParen] p.session.cursor with
  | ok t start =>
    rw [opened] at opening
    have steps : Parser.readClause dialect.preferred.read dialect.fallback.read p =
        Parser.readEither dialect.preferred.read dialect.fallback.read start (p.moved start) :=
      bind_of_ok opening
    have behind : (liftM (Entry.readRest dialect word) : Parsing Entry) p.session =
        (liftM (do return Entry.model (← ModelClause.readEither dialect) : Reading Entry) : Parsing Entry)
          { p.session with cursor := start } := by
      rw [lift_apply, lift_apply, readRest_behind opened model]
      rfl
    rw [steps, ← entry_readEither]
    exact bind_of_same behind
  | error e c =>
    rw [opened] at opening
    have steps : Parser.readClause dialect.preferred.read dialect.fallback.read p = .error e (p.moved c) :=
      bind_of_error opening
    have failed : Entry.readRest dialect word p.session.cursor = .error e c := by
      rw [readRest_model model]
      exact bind_of_error (bind_of_error opened)
    rw [steps]
    refine bind_of_error ?_
    rw [lift_apply, failed]
    rfl

end Clause

namespace Parser

/-! ### The next definition -/

variable {settings : Settings} {p p' : Parser} {s : Session}

/-- Behind a clause no token is kept, whatever it comes to. -/
theorem pending_readClause (primary legacy : Reading Selector) (coherent : p.lexer.Coherent Token.next) :
    (final (readClause primary legacy p)).pending = none := by
  have opening := follows_nextOf [.openParen] p coherent
  cases opened : Token.nextOf [.openParen] p.session.cursor with
  | ok t start =>
    rw [opened] at opening
    have steps : readClause primary legacy p = readEither primary legacy start (p.moved start) :=
      bind_of_ok opening
    rw [steps, readEither_eq]
    split
    · rfl
    · split
      · rfl
      · rfl
  | error e c =>
    rw [opened] at opening
    have steps : readClause primary legacy p = .error e (p.moved c) := bind_of_error opening
    rw [steps]
    rfl

theorem inSession_of_pending (empty : p.pending = none) : InSession p p.session := by
  refine ⟨rfl, ?_⟩
  unfold lexer
  rw [empty]
  exact Lookahead.coherent_fresh _

/-- Where no warning is earned it makes no difference to add those that are. -/
theorem inStep_silent {steps : EStateM Error Parser Entry} {reader : Parsing Entry}
    (h : InStep InSession Eq Looking.Silent steps reader) :
    InStep InSession Eq Eq steps (do
      let entry ← reader
      Definition.warn (warningsOf entry)
      return entry) := by
  intro p s related
  have both := h p s related
  cases run : reader s with
  | ok entry s' =>
    rw [run] at both
    have unwarned : (do
        let entry ← reader
        Definition.warn (warningsOf entry)
        return entry) s = .ok entry { s' with warnings := s'.warnings ++ warningsOf entry } := bind_of_ok run
    generalize steps p = r at both
    cases both with
    | ok answers states =>
      obtain ⟨rfl, silent⟩ := answers
      rw [unwarned, silent, List.append_nil]
      exact .ok rfl states
  | error e s' =>
    rw [run] at both
    rw [bind_of_error run]
    generalize steps p = r at both
    cases both with
    | error failures states => exact .error failures states

theorem inStep_readRest (dialect : Dialect) (word : Token) :
    InStep InSession Eq Eq (readRest dialect word) (readWarned dialect word) := by
  unfold readRest
  split
  · rename_i model
    rintro p _ ⟨rfl, coherent⟩
    have empty := pending_readClause dialect.preferred.read dialect.fallback.read coherent
    rw [readWarned_eq coherent model]
    cases run : readClause dialect.preferred.read dialect.fallback.read p with
    | ok clause p' =>
      rw [run] at empty
      rw [bind_of_ok run]
      exact .ok rfl (inSession_of_pending empty)
    | error e p' =>
      rw [run] at empty
      rw [bind_of_error run]
      exact .error rfl (inSession_of_pending empty)
  · rename_i other
    exact inStep_silent (inStep_lift (Looking.silent_readPlain other))

theorem inStep_readEntry (dialect : Dialect) (es : List Entry) :
    InStep InSession Eq Eq (readEntry dialect es) (Definition.readEntry dialect es) := by
  rw [readEntry_eq]
  refine (inStep_lift (Looking.looks_nextOfPastNewlines _)).bind_eq fun t => ?_
  split
  · exact .pure rfl
  refine (inStep_readRest dialect t).bind_eq fun entry => ?_
  exact (inStep_lift (Looking.looks_nextOfPastNewlines _)).bind_eq fun _ => .pure rfl

theorem inStep_entries (dialect : Dialect) :
    InStep InSession Eq Eq (entries dialect) (Definition.entries dialect) := by
  refine (inStep_lift Looking.looks_peek).bind_eq fun t => ?_
  split
  · exact .pure rfl
  refine (inStep_lift Looking.looks_next).bind_eq fun _ => ?_
  exact .iterate_eq InSession.unread (inStep_readEntry dialect) []

theorem inStep_declare (dialect : Dialect) :
    InStep InSession Eq Eq (declare dialect) (Definition.declare dialect) := by
  refine (inStep_lift Looking.looks_header).bind_eq fun (name, header) => ?_
  refine (inStep_entries dialect).bind_eq fun entries => ?_
  refine (inStep_lift Looking.looks_description).bind_eq fun description => ?_
  exact (inStep_lift (Looking.looks_nextOf _)).bind_eq fun _ => .pure rfl

/-- The parser comes to what is read in its session, whatever token it keeps. -/
theorem inStep_next (settings : Settings) :
    InStep InSession Eq Eq (next settings) (Definition.next settings) := by
  refine (inStep_lift Looking.looks_opening).bind_eq fun opened => ?_
  split
  · refine (inStep_declare settings.dialect).bind_eq fun d => ?_
    refine (inStep_inSession fun s => rfl).bind_eq fun d => ?_
    split
    · exact inStep_inSession fun s => rfl
    · exact .pure rfl
  · exact .pure rfl

/-! ### What is kept behind a definition -/

theorem pending_inSession {α : Type} {x : Parsing α} {a : α} (run : inSession x p = .ok a p') :
    p'.pending = p.pending := by
  unfold inSession at run
  split at run
  · cases run
    rfl
  · cases run

theorem pending_lift {α : Type} {steps : Looking α} {a : α}
    (empty : ∀ {l l'}, steps l = .ok a l' → l'.pending = none)
    (run : (liftM steps : EStateM Error Parser α) p = .ok a p') : p'.pending = none := by
  rw [lift_eq] at run
  cases read : steps p.lexer with
  | ok b l =>
    rw [read] at run
    cases run
    exact empty read
  | error e l =>
    rw [read] at run
    cases run

/-- Behind a definition, and at the end of the file, the last token has been consumed. -/
theorem pending_of_next {outcome : Outcome} (run : next settings p = .ok outcome p') :
    p'.pending = none := by
  obtain ⟨opened, p₁, front, run⟩ := bind_eq_ok_iff.1 run
  split at run
  · obtain ⟨d, p₂, declared, run⟩ := bind_eq_ok_iff.1 run
    have empty : p₂.pending = none := by
      obtain ⟨_, q₁, -, declared⟩ := bind_eq_ok_iff.1 declared
      obtain ⟨_, q₂, -, declared⟩ := bind_eq_ok_iff.1 declared
      obtain ⟨_, q₃, -, declared⟩ := bind_eq_ok_iff.1 declared
      obtain ⟨_, q₄, closed, declared⟩ := bind_eq_ok_iff.1 declared
      obtain ⟨-, rfl⟩ := pure_eq_ok_iff.1 declared
      exact pending_lift Looking.pending_of_nextOf closed
    obtain ⟨resolved, p₃, taken, run⟩ := bind_eq_ok_iff.1 run
    rw [← pending_inSession taken] at empty
    split at run
    · exact (pending_inSession run).trans empty
    · obtain ⟨-, rfl⟩ := pure_eq_ok_iff.1 run
      exact empty
  · obtain ⟨-, rfl⟩ := pure_eq_ok_iff.1 run
    exact pending_lift Looking.pending_of_opening front

/-- The parser comes to a definition exactly if its session does, and then it keeps no token. -/
theorem next_eq_ok_iff (coherent : p.lexer.Coherent Token.next) {outcome : Outcome} :
    next settings p = .ok outcome p' ↔
      Definition.next settings p.session = .ok outcome p'.session ∧ p'.pending = none := by
  have both := inStep_next settings p p.session ⟨rfl, coherent⟩
  constructor
  · intro run
    refine ⟨?_, pending_of_next run⟩
    rw [run] at both
    obtain ⟨_, _, read, rfl, rfl, -⟩ := both.of_ok
    exact read
  · rintro ⟨read, empty⟩
    rw [read] at both
    cases run : next settings p with
    | ok answer q =>
      have empty' := pending_of_next run
      rw [run] at both
      obtain ⟨_, _, same, rfl, rfl, -⟩ := both.of_ok
      cases p'
      cases q
      cases same
      cases empty
      cases empty'
      rfl
    | error e q =>
      rw [run] at both
      obtain ⟨_, _, same, -⟩ := both.of_error
      cases same

end Parser

end Definition
end Quaked
