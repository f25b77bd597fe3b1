import Quaked.Inspection
import Quaked.Proofs.Selector.Movement
import Quaked.Proofs.Text.Lookahead
import Quaked.Proofs.Token.Tiling

/-!
# Places during an inspection

Every command moves the cursor by skipping characters, or back to a cursor that was marked. So what
skipping keeps holds of the cursor and of all marks after any run of commands, including those that
fail (`Kept.after`): above all to be in place. A token that is shown starts at the position it says,
and ends where reading it leaves the cursor.

* `Kept.step`, `Kept.after`: what one command keeps, a run of commands keeps.
* `shown_in_place`: cursors and tokens say where in the text they are.
-/

namespace Quaked

open Text

variable {text : String} {c c' : Cursor}

/-! ### Tokens in place -/

/-- A token says where in the text the characters stand that it was made of. -/
theorem Token.occupies_of_next {t : Token} (here : InPlace text c) (h : Token.next c = .ok t c') :
    Occupies text c t.extent t.position c' := by
  obtain ⟨kind, n, lexed, rfl, rfl⟩ := Token.next_eq_ok_iff.1 h
  apply here.occupies
  exact (Token.extent_of_lexeme lexed _).symm

namespace Selector.Token

/-- So does a token of a selector. -/
theorem occupies_of_next {t : Token} (here : InPlace text c) (h : next c = .ok t c') :
    Occupies text c t.extent t.position c' := by
  obtain ⟨n, lexed, is, rfl⟩ := next_eq_ok_iff.1 h
  have position : t.position = (c.skip (c.run isSpace)).position := congrArg position is
  rw [position]
  apply here.occupies
  rw [Cursor.run, drop_length_takeWhile, is]
  exact (extent_of_lexeme lexed _).symm

end Selector.Token

namespace Inspection

variable {P : Cursor → Prop} {i : Inspection} {σ α : Type} {s : σ}

/-! ### What readers answer -/

theorem run_snd (reader : EStateM Error σ α) (s : σ) : (run reader s).2 = final (reader s) := by
  unfold run
  cases reader s <;> rfl

theorem run_eq_ok_iff {reader : EStateM Error σ α} {a : α} :
    (run reader s).1 = .ok a ↔ ∃ s', reader s = .ok a s' := by
  unfold run
  cases reader s with
  | ok b s' =>
    constructor
    · intro same
      cases same
      exact ⟨s', rfl⟩
    · rintro ⟨_, same⟩
      cases same
      rfl
  | error e s' =>
    constructor
    · intro same
      cases same
    · rintro ⟨_, same⟩
      cases same

/-! ### What commands keep -/

/-- One look at a token of a selector keeps what skipping keeps. -/
theorem keeps_read (skips : Skippable P) (first : Look) :
    Keeps (fun l => P l.cursor ∧ l.Coherent Selector.Token.next) first.read := by
  cases first with
  | next => exact Lookahead.keeps_next (Selector.Token.keeps_next skips)
  | peek => exact Lookahead.keeps_peek (Selector.Token.keeps_next skips)

/-- So do several. -/
theorem keeps_look (skips : Skippable P) {l : Lookahead Selector.Token}
    (before : P l.cursor ∧ l.Coherent Selector.Token.next) (looks : List Look) :
    P (look l looks).2.cursor ∧ (look l looks).2.Coherent Selector.Token.next := by
  induction looks generalizing l with
  | nil => exact before
  | cons first looks ih =>
    have behind := keeps_read skips first l before
    rw [← run_snd] at behind
    exact ih behind

theorem skip_take (skips : Skippable P) (before : P c) (extent : Option Nat) :
    P (take c extent).2 := by
  cases extent with
  | none => exact before
  | some n => exact skips c n before

/-- A command that needs nothing but the cursor keeps what skipping keeps. -/
theorem keeps_move (skips : Skippable P) (before : P c) (command : Command) :
    P (move c command).2 := by
  cases command with
  | advance => exact skips c 1 before
  | integer delimiters => exact skip_take skips before _
  | decimal delimiters => exact skip_take skips before _
  | word delimiters => exact skip_take skips before _
  | interior =>
    show P c.takeInterior.2
    unfold Cursor.takeInterior
    split
    · exact skips c _ before
    · exact skips c _ before
  | before marker => exact skips c _ before
  | pass p => exact skips c _ before
  | selectorTokens looks =>
    exact (keeps_look skips ⟨before, Lookahead.coherent_fresh c⟩ looks).1
  | selector grammar =>
    have behind := grammar.keeps_read skips c before
    rw [← run_snd] at behind
    exact behind
  | _ => exact before

/-- Consuming a token of some kinds keeps what consuming a token keeps, whatever is found. -/
theorem keeps_nextOf {Q : Lookahead Token → Prop} (keeps : Keeps Q (Lookahead.next Token.next))
    (kinds : List Token.Kind) : Keeps Q (nextOf kinds) := by
  apply keeps.bind
  intro t
  split
  · exact .pure t
  · exact fun _ before => before

/-- What holds of the cursor and of every mark of an inspection that keeps no token but the next. -/
structure Kept (P : Cursor → Prop) (i : Inspection) : Prop where
  cursor : P i.cursor
  marks : ∀ c ∈ i.marks, P c
  coherent : i.lexer.Coherent Token.next

theorem kept_ofString (start : P (.ofString text)) : Kept P (ofString text) where
  cursor := start
  marks := nofun
  coherent := Lookahead.coherent_fresh _

namespace Kept

variable (skips : Skippable P) (h : Kept P i)
include h

/-- The lexer may go on by any reader that keeps it coherent and its cursor as it is wanted. -/
theorem lexer {reader : EStateM Error (Lookahead Token) Token}
    (keeps : Keeps (fun l => P l.cursor ∧ l.Coherent Token.next) reader) :
    Kept P { i with lexer := (run reader i.lexer).2 } := by
  have behind := keeps i.lexer ⟨h.cursor, h.coherent⟩
  rw [← run_snd] at behind
  exact ⟨behind.1, h.marks, behind.2⟩

/-- The cursor may be put anywhere it is wanted, with no token kept. -/
theorem put (there : P c) : Kept P { i with lexer := { cursor := c } } :=
  ⟨there, h.marks, Lookahead.coherent_fresh c⟩

include skips

/-- One command. -/
theorem step (command : Command) : Kept P (i.step command).2 := by
  have keeps := Lookahead.keeps_next (Token.keeps_next skips)
  have moved := h.put (keeps_move skips h.cursor command)
  cases command with
  | next => exact h.lexer keeps
  | peek => exact h.lexer (Lookahead.keeps_peek (Token.keeps_next skips))
  | nextOf kinds => exact h.lexer (keeps_nextOf keeps kinds)
  | mark =>
    refine ⟨h.cursor, ?_, h.coherent⟩
    intro c mem
    rcases List.mem_append.1 mem with earlier | latest
    · exact h.marks c earlier
    · rw [List.mem_singleton.1 latest]
      exact h.cursor
  | back index =>
    apply h.put
    rw [List.getD_eq_getElem?_getD]
    cases marked : i.marks[index]? with
    | none => exact h.cursor
    | some c => exact h.marks c (List.mem_of_getElem? marked)
  | progress => exact h
  -- all others need nothing but the cursor
  | _ => exact moved

end Kept

/-- The inspection behind the commands. -/
def after (i : Inspection) (commands : List Command) : Inspection :=
  commands.foldl (fun i command => (i.step command).2) i

/-- Any run of commands. -/
theorem Kept.after (skips : Skippable P) (h : Kept P i) (commands : List Command) :
    Kept P (i.after commands) := by
  induction commands generalizing i with
  | nil => exact h
  | cons command commands ih => exact ih (h.step skips command)

/-! ### Tokens that are shown -/

/-- A token that a command shows is the one that is read next. -/
theorem next_of_shown (coherent : i.lexer.Coherent Token.next) {command : Command} {t : Token}
    (shown : (i.step command).1 = .token (.ok t)) :
    ∃ l, Lookahead.next Token.next i.lexer = .ok t l := by
  cases command with
  | next => exact run_eq_ok_iff.1 (Answer.token.inj shown)
  | peek =>
    obtain ⟨l, looked⟩ := run_eq_ok_iff.1 (Answer.token.inj shown)
    obtain ⟨-, -, -, read⟩ := coherent.next_of_peek looked
    exact read
  | nextOf kinds =>
    obtain ⟨l, found⟩ := run_eq_ok_iff.1 (Answer.token.inj shown)
    obtain ⟨u, l', read, matched⟩ := bind_eq_ok_iff.1 found
    split at matched
    · obtain ⟨rfl, -⟩ := pure_eq_ok_iff.1 matched
      exact ⟨l', read⟩
    · exact absurd matched throw_ne_ok
  | _ => cases shown

/-- A token of a selector that a look shows is the one that is read next. -/
theorem next_of_look {l : Lookahead Selector.Token} (coherent : l.Coherent Selector.Token.next)
    {first : Look} {t : Selector.Token} (shown : (run first.read l).1 = .ok t) :
    ∃ l', Lookahead.next Selector.Token.next l = .ok t l' := by
  obtain ⟨l', read⟩ := run_eq_ok_iff.1 shown
  cases first with
  | next => exact ⟨l', read⟩
  | peek =>
    obtain ⟨-, -, -, again⟩ := coherent.next_of_peek read
    exact again

/-- What a look answers among others depends on the looks before it. -/
theorem getElem?_look (l : Lookahead Selector.Token) (looks : List Look) (n : Nat) :
    (look l looks).1[n]? =
      looks[n]?.map fun first => (run first.read (look l (looks.take n)).2).1 := by
  induction looks generalizing l n with
  | nil => rfl
  | cons first looks ih =>
    cases n with
    | zero => rfl
    | succ n => exact ih _ n

/-- Where reading a token leads. -/
theorem cursor_step_next {l : Lookahead Token} {t : Token}
    (read : Lookahead.next Token.next i.lexer = .ok t l) : (i.step .next).2.cursor = l.cursor := by
  show (run (Lookahead.next Token.next) i.lexer).2.cursor = l.cursor
  rw [run_snd, read]
  rfl

/-- Positions stay true to the text. After any run of commands, failing ones included, the cursor is
where a character starts or the text ends, has the text from there on left to read, and has the line
and column of that place. Every token that is shown then, of a definition file or of a selector,
says the position where the characters start that it was made of, and those end where reading the
token leaves the cursor. Positions grow with the offset, so each belongs to one place. -/
theorem shown_in_place (text : String) (commands : List Command) :
    let i := (ofString text).after commands
    InPlace text i.cursor ∧ (⟨i.cursor.offset⟩ : String.Pos.Raw).IsValid text ∧
      i.cursor.offset ≤ text.utf8ByteSize ∧
      (∀ command t, (i.step command).1 = .token (.ok t) →
        Occupies text i.cursor t.extent t.position (i.step .next).2.cursor) ∧
      (∀ looks results n t, (i.step (.selectorTokens looks)).1 = .selectorTokens results →
        results[n]? = some (.ok t) →
          let l := (look { cursor := i.cursor } (looks.take n)).2
          Occupies text l.cursor t.extent t.position (run Look.next.read l).2.cursor) ∧
      ∀ j k, (⟨j⟩ : String.Pos.Raw).IsValid text → (⟨k⟩ : String.Pos.Raw).IsValid text → j < k →
        (positionAt text j).Precedes (positionAt text k) := by
  intro i
  have skips : Skippable (InPlace text) := Token.skippable_inPlace
  have kept : Kept (InPlace text) i := (kept_ofString (InPlace.ofString text)).after skips commands
  refine ⟨kept.cursor, kept.cursor.isValid, kept.cursor.behind.le, ?_, ?_, ?_⟩
  · intro command t shown
    obtain ⟨l, read⟩ := next_of_shown kept.coherent shown
    obtain ⟨c, made, rfl⟩ := kept.coherent.next_eq_ok_iff.1 read
    rw [cursor_step_next read]
    exact Token.occupies_of_next kept.cursor made
  · intro looks results n t shown among l
    have fresh : Lookahead.Coherent Selector.Token.next { cursor := i.cursor } :=
      Lookahead.coherent_fresh i.cursor
    obtain ⟨here, coherent⟩ : InPlace text l.cursor ∧ l.Coherent Selector.Token.next :=
      keeps_look skips ⟨kept.cursor, fresh⟩ (looks.take n)
    cases shown
    rw [getElem?_look] at among
    obtain ⟨first, -, shown⟩ := Option.map_eq_some_iff.1 among
    obtain ⟨l', read⟩ := next_of_look coherent shown
    obtain ⟨c, made, rfl⟩ := coherent.next_eq_ok_iff.1 read
    have behind : (run Look.next.read l).2.cursor = c := by
      rw [run_snd, Look.read, read]
      rfl
    rw [behind]
    exact Selector.Token.occupies_of_next here made
  · intro j k first second
    exact positionAt_precedes first second

-- a character of two bytes, a line break of two characters, and a string across a line break
example : ((ofString "é\r\n\"\n\"").after [.next, .next, .next]).cursor.position = ⟨3, 2⟩ := rfl

end Inspection

end Quaked
