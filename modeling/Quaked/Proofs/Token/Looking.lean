import Quaked.Inspection
import Quaked.Proofs.InStep
import Quaked.Proofs.Text.Lookahead

/-!
# Readers with a lexer that keeps a token

A reader of tokens looks at the next one and then consumes it or not. `Looking` readers do so with a
lexer that keeps what it has looked at, so no token is made twice. They find what the readers do that
keep nothing, and come to the same place, if what is kept at the start is the next token (`Looks`).

* `looks_next`, `looks_peek`: consuming a token, and looking at it.
* `looks_nextOfPastNewlines`: a token behind line breaks.
-/

namespace Quaked

open Text

/-- What reads an `α` with a lexer that keeps the token it has looked at. -/
abbrev Looking (α : Type) := EStateM Error (Lookahead Token) α

namespace Looking

/-! ### Readers -/

/-- Consumes the next token. -/
def next : Looking Token := Lookahead.next Token.next

/-- Looks at the next token. -/
def peek : Looking Token := Lookahead.peek Token.next

/-- The token itself, if it is of one of the kinds. -/
def expect (kinds : List Token.Kind) (t : Token) : Looking Token :=
  if t.isOneOf kinds then pure t else throw (Token.mismatch kinds t)

/-- Consumes a token of one of the kinds. -/
def nextOf (kinds : List Token.Kind) : Looking Token := do expect kinds (← next)

/-- Looks at the next token, which has to be of one of the kinds. -/
def peekOf (kinds : List Token.Kind) : Looking Token := do expect kinds (← peek)

/-- Passes line breaks, looking at each before it is consumed. -/
def skipNewlines : Looking Unit := iterate (·.cursor.unread)
  (fun _ => do
    if (← peek).kind = .newline then
      let _ ← next
      return some ()
    else return none) ()

/-- Consumes a token of one of the kinds, behind any number of line breaks. -/
def nextOfPastNewlines (kinds : List Token.Kind) : Looking Token := do
  skipNewlines
  nextOf kinds

/-- Reads the raw text up to the marker. It starts at the cursor, so a token that is kept is put
down. -/
def takeBefore (marker : String) : Looking String := fun l =>
  let (text, c) := l.cursor.takeBefore marker
  .ok text { cursor := c }

/-! ### What is kept does not matter -/

/-- The lexer is at the cursor, and if it keeps a token that is the next one. -/
def AtCursor (l : Lookahead Token) (c : Cursor) : Prop := l.cursor = c ∧ l.Coherent Token.next

theorem AtCursor.fresh (c : Cursor) : AtCursor { cursor := c } c := ⟨rfl, Lookahead.coherent_fresh c⟩

theorem AtCursor.unread (l : Lookahead Token) (c : Cursor) (h : AtCursor l c) :
    c.unread = l.cursor.unread := by
  rw [h.1]

variable {α : Type}

/-- With a lexer at the cursor the steps come to what the reader does there, and end where it ends. -/
abbrev Looks (steps : Looking α) (reader : Reading α) : Prop := InStep AtCursor Eq Eq steps reader

theorem looks_throw (e : Error) : Looks (throw e : Looking α) (throw e) :=
  fun _ _ related => .error rfl related

theorem looks_next : Looks next Token.next := by
  rintro l _ ⟨rfl, coherent⟩
  show Agree AtCursor Eq Eq (Lookahead.next Token.next l) _
  rw [coherent.next_eq]
  unfold Lookahead.next
  dsimp only
  cases Token.next l.cursor with
  | ok t c => exact .ok rfl (.fresh c)
  | error e c => exact .error rfl (.fresh c)

/-- What has been looked at is kept in front of the cursor behind it. -/
theorem looks_peek : Looks peek Token.peek := by
  rintro l _ ⟨rfl, coherent⟩
  show Agree AtCursor Eq Eq (Lookahead.peek Token.next l) _
  rw [coherent.peek_eq]
  unfold Lookahead.peek Token.peek Reading.ahead
  dsimp only
  cases made : Token.next l.cursor with
  | ok t c =>
    refine .ok rfl ⟨rfl, ?_⟩
    intro u behind same
    cases same
    exact made
  | error e c => exact .error rfl (.fresh c)

theorem looks_expect (kinds : List Token.Kind) (t : Token) :
    Looks (expect kinds t) (Token.expect kinds t) := by
  unfold expect Token.expect
  split
  · exact .pure rfl
  · exact looks_throw _

theorem looks_nextOf (kinds : List Token.Kind) : Looks (nextOf kinds) (Token.nextOf kinds) :=
  looks_next.bind_eq (looks_expect kinds)

theorem looks_peekOf (kinds : List Token.Kind) : Looks (peekOf kinds) (Token.peekOf kinds) :=
  looks_peek.bind_eq (looks_expect kinds)

theorem looks_skipNewlines : Looks skipNewlines Token.skipNewlines := by
  refine .iterate_eq AtCursor.unread (fun _ => ?_) ()
  refine looks_peek.bind_eq fun t => ?_
  split
  · exact looks_next.bind_eq fun _ => .pure rfl
  · exact .pure rfl

theorem looks_nextOfPastNewlines (kinds : List Token.Kind) :
    Looks (nextOfPastNewlines kinds) (Token.nextOfPastNewlines kinds) :=
  looks_skipNewlines.bind_eq fun _ => looks_nextOf kinds

theorem looks_takeBefore (marker : String) :
    Looks (takeBefore marker) (do
      let (text, c) := (← get).takeBefore marker
      set c
      return text) := by
  rintro l _ ⟨rfl, -⟩
  exact .ok rfl (.fresh _)

/-! ### What is kept behind a reader -/

variable {kinds : List Token.Kind} {l l' : Lookahead Token} {t : Token}

/-- Behind a token that has been consumed, or could not be made, none is kept. -/
theorem pending_next (l : Lookahead Token) : (final (next l)).pending = none := by
  show (final (Lookahead.next Token.next l)).pending = none
  unfold Lookahead.next
  split
  · rfl
  · split
    · rfl
    · rfl

theorem pending_nextOf (kinds : List Token.Kind) (l : Lookahead Token) :
    (final (nextOf kinds l)).pending = none := by
  have empty := pending_next l
  unfold nextOf expect
  cases run : next l with
  | ok t l' =>
    rw [run] at empty
    rw [bind_of_ok run]
    split
    · exact empty
    · exact empty
  | error e l' =>
    rw [run] at empty
    rw [bind_of_error run]
    exact empty

theorem pending_of_next (run : next l = .ok t l') : l'.pending = none := by
  have empty := pending_next l
  rw [run] at empty
  exact empty

theorem pending_of_nextOf (run : nextOf kinds l = .ok t l') : l'.pending = none := by
  have empty := pending_nextOf kinds l
  rw [run] at empty
  exact empty

end Looking
end Quaked
