import Quaked.Proofs.Inspection.Place

/-!
# Looking ahead goes unnoticed

Two inspections that are at one cursor, and have marked the same cursors, answer every command alike
whatever token each of them keeps (`Alike.step`). Looking at a token only changes what is kept. So a
run of commands shows the same without the looks in it, and what a look shows is what would be read
next. The same goes for the looks at tokens of a selector.

* `Alike.record`: without its looks a run shows the same.
* `looks_unnoticed`: for a text from its start, and for selectors from any cursor.
-/

namespace Quaked

open Text

namespace Inspection

variable {i j : Inspection} {text : String} {t : Token}

/-! ### Runs of commands -/

/-- Whether a command only looks at the next token. -/
def Command.isPeek : Command → Bool
  | .peek => true
  | _ => false

/-- The commands of a run, each with what it shows and the position behind it. -/
def record (i : Inspection) (commands : List Command) : List (Command × Answer × Position) :=
  commands.zip (i.steps commands)

/-- No look in the run fails. -/
def Quiet (i : Inspection) (commands : List Command) : Prop :=
  ∀ entry ∈ i.record commands, entry.1.isPeek = true → ∃ t, entry.2.1 = .token (.ok t)

theorem record_cons (i : Inspection) (command : Command) (commands : List Command) :
    i.record (command :: commands) =
      (command, (i.step command).1, (i.step command).2.cursor.position) ::
        (i.step command).2.record commands := rfl

/-- The inspections are at the same cursor and have the same marks, and each keeps at most the token
that comes next. -/
structure Alike (i j : Inspection) : Prop where
  cursor : i.cursor = j.cursor
  marks : i.marks = j.marks
  left : i.lexer.Coherent Token.next
  right : j.lexer.Coherent Token.next

theorem coherent_step (h : i.lexer.Coherent Token.next) (command : Command) :
    (i.step command).2.lexer.Coherent Token.next := by
  have kept : Kept (fun _ => True) i := ⟨trivial, fun _ _ => trivial, h⟩
  exact (kept.step (fun _ _ _ => trivial) command).coherent

namespace Alike

theorem refl (h : i.lexer.Coherent Token.next) : Alike i i := ⟨rfl, rfl, h, h⟩

/-- Reading a token comes to the same. -/
theorem next_eq (h : Alike i j) :
    Lookahead.next Token.next i.lexer = Lookahead.next Token.next j.lexer := by
  have cursor : i.lexer.cursor = j.lexer.cursor := h.cursor
  rw [h.left.next_eq, h.right.next_eq, cursor]

theorem nextOf_eq (h : Alike i j) (kinds : List Token.Kind) :
    nextOf kinds i.lexer = nextOf kinds j.lexer := by
  show EStateM.bind _ _ i.lexer = EStateM.bind _ _ j.lexer
  unfold EStateM.bind
  rw [h.next_eq]

/-- A reader that comes to the same in both leaves them alike. -/
theorem read (h : Alike i j) {reader : EStateM Error (Lookahead Token) Token}
    (same : reader i.lexer = reader j.lexer) :
    (run reader i.lexer).1 = (run reader j.lexer).1 ∧
      ({ i with lexer := (run reader i.lexer).2 } : Inspection) =
        { j with lexer := (run reader j.lexer).2 } := by
  have equal : run reader i.lexer = run reader j.lexer := by
    unfold run
    rw [same]
  rw [equal, h.marks]
  exact ⟨rfl, rfl⟩

/-- Every command but a look shows the same in both, and leaves them alike. -/
theorem step (h : Alike i j) {command : Command} (other : command.isPeek = false) :
    (i.step command).1 = (j.step command).1 ∧ Alike (i.step command).2 (j.step command).2 := by
  have left := coherent_step h.left command
  have right := coherent_step h.right command
  have shown : (move i.cursor command).1 = (move j.cursor command).1 := by rw [h.cursor]
  have behind : (move i.cursor command).2 = (move j.cursor command).2 := by rw [h.cursor]
  cases command with
  | peek => cases other
  | next =>
    obtain ⟨shown, state⟩ := h.read h.next_eq
    exact ⟨congrArg Answer.token shown, congrArg Inspection.cursor state,
      congrArg Inspection.marks state, left, right⟩
  | nextOf kinds =>
    obtain ⟨shown, state⟩ := h.read (h.nextOf_eq kinds)
    exact ⟨congrArg Answer.token shown, congrArg Inspection.cursor state,
      congrArg Inspection.marks state, left, right⟩
  | mark =>
    refine ⟨?_, h.cursor, ?_, left, right⟩
    · exact congrArg (fun marks => Answer.index marks.length) h.marks
    · show i.marks ++ [i.cursor] = j.marks ++ [j.cursor]
      rw [h.marks, h.cursor]
  | back index =>
    refine ⟨rfl, ?_, h.marks, left, right⟩
    show i.marks.getD index i.cursor = j.marks.getD index j.cursor
    rw [h.marks, h.cursor]
  | progress =>
    refine ⟨?_, h.cursor, h.marks, left, right⟩
    exact congrArg (fun c => Answer.fraction c.progress) h.cursor
  | _ => exact ⟨shown, behind, h.marks, left, right⟩

/-- A look that shows a token leaves them alike. -/
theorem peek (h : Alike i j) (shown : (i.step .peek).1 = .token (.ok t)) :
    Alike (i.step .peek).2 j := by
  obtain ⟨l, looked⟩ := run_eq_ok_iff.1 (Answer.token.inj shown)
  obtain ⟨cursor, -⟩ := h.left.next_of_peek looked
  refine ⟨?_, h.marks, coherent_step h.left .peek, h.right⟩
  show (run (Lookahead.peek Token.next) i.lexer).2.cursor = j.cursor
  rw [run_snd, looked]
  exact cursor.trans h.cursor

/-- Without the looks in it a run shows the same at the same positions, if none of them fails. -/
theorem record (h : Alike i j) {commands : List Command} (quiet : Quiet i commands) :
    (i.record commands).filter (!·.1.isPeek) = j.record (commands.filter (!·.isPeek)) := by
  induction commands generalizing i j with
  | nil => rfl
  | cons command commands ih =>
    rw [Quiet, record_cons] at quiet
    obtain ⟨first, others⟩ := List.forall_mem_cons.1 quiet
    rw [record_cons]
    cases look : command.isPeek with
    -- a look is a step of the first inspection only
    | true =>
      have peek : command = .peek := by
        cases command <;> first | rfl | cases look
      subst peek
      obtain ⟨t, shown⟩ := first rfl
      exact ih (h.peek shown) others
    | false =>
      obtain ⟨shown, alike⟩ := h.step look
      rw [List.filter_cons_of_pos (by simp [look]), List.filter_cons_of_pos (by simp [look]),
        record_cons, ih alike others, shown, alike.cursor]

end Alike

/-! ### What a look shows -/

/-- What a look shows is read next, before the look and behind it, and the look does not move the
cursor. -/
theorem run_next_of_peek {τ : Type} {make : Reading τ} {l : Lookahead τ} {t : τ}
    (coherent : l.Coherent make) (shown : (run (Lookahead.peek make) l).1 = .ok t) :
    (run (Lookahead.next make) l).1 = .ok t ∧ (run (Lookahead.peek make) l).2.cursor = l.cursor ∧
      run (Lookahead.next make) (run (Lookahead.peek make) l).2 = run (Lookahead.next make) l := by
  obtain ⟨l', looked⟩ := run_eq_ok_iff.1 shown
  obtain ⟨cursor, -, again, read⟩ := coherent.next_of_peek looked
  have behind : (run (Lookahead.peek make) l).2 = l' := by
    rw [run_snd, looked]
    rfl
  rw [behind]
  refine ⟨run_eq_ok_iff.2 read, cursor, ?_⟩
  unfold run
  rw [again]

/-- The same of the command that looks. -/
theorem step_next_of_peek (coherent : i.lexer.Coherent Token.next)
    (shown : (i.step .peek).1 = .token (.ok t)) :
    (i.step .next).1 = .token (.ok t) ∧ (i.step .peek).2.cursor = i.cursor ∧
      ((i.step .peek).2.step .progress).1 = (i.step .progress).1 ∧
      (i.step .peek).2.step .next = i.step .next := by
  obtain ⟨next, cursor, again⟩ := run_next_of_peek coherent (Answer.token.inj shown)
  refine ⟨congrArg Answer.token next, cursor, ?_, ?_⟩
  · exact congrArg (fun c => Answer.fraction c.progress) cursor
  · exact congrArg (Prod.map Answer.token fun l => ({ i with lexer := l } : Inspection)) again

theorem record_append (i : Inspection) (commands more : List Command) :
    i.record (commands ++ more) = i.record commands ++ (i.after commands).record more := by
  induction commands generalizing i with
  | nil => rfl
  | cons command commands ih =>
    rw [List.cons_append, record_cons, record_cons, ih]
    rfl

/-- A look in a run in which none fails shows a token. -/
theorem shown_of_quiet {before behind : List Command}
    (quiet : Quiet i (before ++ .peek :: behind)) :
    ∃ t, ((i.after before).step .peek).1 = .token (.ok t) := by
  rw [Quiet, record_append, record_cons] at quiet
  exact quiet _ (List.mem_append_right _ List.mem_cons_self) rfl

/-! ### Tokens of selectors -/

/-- The looks at tokens of a selector, each with its result. -/
def recordLooks (l : Lookahead Selector.Token) (looks : List Look) :
    List (Look × Except Error Selector.Token) :=
  looks.zip (look l looks).1

/-- None of the tokens that are only looked at fails to be made. -/
def QuietLooks (l : Lookahead Selector.Token) (looks : List Look) : Prop :=
  ∀ entry ∈ recordLooks l looks, entry.1 = .peek → ∃ t, entry.2 = .ok t

theorem recordLooks_cons (l : Lookahead Selector.Token) (first : Look) (looks : List Look) :
    recordLooks l (first :: looks) =
      (first, (run first.read l).1) :: recordLooks (run first.read l).2 looks := rfl

theorem recordLooks_append (l : Lookahead Selector.Token) (looks more : List Look) :
    recordLooks l (looks ++ more) =
      recordLooks l looks ++ recordLooks (look l looks).2 more := by
  induction looks generalizing l with
  | nil => rfl
  | cons first looks ih =>
    rw [List.cons_append, recordLooks_cons, recordLooks_cons, ih]
    rfl

theorem shown_of_quietLooks {l : Lookahead Selector.Token} {before behind : List Look}
    (quiet : QuietLooks l (before ++ .peek :: behind)) :
    ∃ t, (run Look.peek.read (look l before).2).1 = .ok t := by
  rw [QuietLooks, recordLooks_append, recordLooks_cons] at quiet
  exact quiet _ (List.mem_append_right _ List.mem_cons_self) rfl

theorem coherent_look {l : Lookahead Selector.Token} (h : l.Coherent Selector.Token.next)
    (looks : List Look) : (look l looks).2.Coherent Selector.Token.next :=
  (keeps_look (P := fun _ => True) (fun _ _ _ => trivial) ⟨trivial, h⟩ looks).2

theorem coherent_read {l : Lookahead Selector.Token} (h : l.Coherent Selector.Token.next)
    (first : Look) : (run first.read l).2.Coherent Selector.Token.next :=
  coherent_look h [first]

/-- Without those that are only looked at, the same tokens are read, and the cursor is left in the
same place. -/
theorem recordLooks_filter {l m : Lookahead Selector.Token} (left : l.Coherent Selector.Token.next)
    (right : m.Coherent Selector.Token.next) (cursor : l.cursor = m.cursor) {looks : List Look}
    (quiet : QuietLooks l looks) :
    (recordLooks l looks).filter (·.1 = .next) = recordLooks m (looks.filter (· = .next)) ∧
      (look l looks).2.cursor = (look m (looks.filter (· = .next))).2.cursor := by
  induction looks generalizing l m with
  | nil => exact ⟨rfl, cursor⟩
  | cons first looks ih =>
    rw [QuietLooks, recordLooks_cons] at quiet
    obtain ⟨shown, others⟩ := List.forall_mem_cons.1 quiet
    have coherent := coherent_read left first
    cases first with
    | peek =>
      obtain ⟨t, shown⟩ := shown rfl
      obtain ⟨-, same, -⟩ := run_next_of_peek left shown
      exact ih coherent right (same.trans cursor) others
    | next =>
      have reads : Look.next.read l = Look.next.read m := by
        show Lookahead.next Selector.Token.next l = Lookahead.next Selector.Token.next m
        rw [left.next_eq, right.next_eq, cursor]
      have same : run Look.next.read l = run Look.next.read m := by
        unfold run
        rw [reads]
      obtain ⟨results, behind⟩ := ih coherent (coherent_read right .next)
        (congrArg (·.2.cursor) same) others
      refine ⟨?_, behind⟩
      rw [recordLooks_cons, List.filter_cons_of_pos rfl, List.filter_cons_of_pos rfl,
        recordLooks_cons, results, same]

/-! ### Whole runs -/

/-- Looking ahead goes unnoticed. In any run of commands from the start of a text in which no look
fails, every look shows the token that would be read next and still is, and moves neither the cursor
nor the progress; and without the looks every other command shows the same and leaves the same
position. The same is true of the tokens of a selector from any cursor, which is left in the same
place. -/
theorem looks_unnoticed (text : String) (commands : List Command)
    (quiet : Quiet (ofString text) commands) :
    (∀ before behind, commands = before ++ .peek :: behind →
      let i := (ofString text).after before
      ∃ t, (i.step .peek).1 = .token (.ok t) ∧ (i.step .next).1 = .token (.ok t) ∧
        (i.step .peek).2.cursor = i.cursor ∧
        ((i.step .peek).2.step .progress).1 = (i.step .progress).1 ∧
        (i.step .peek).2.step .next = i.step .next) ∧
    ((ofString text).record commands).filter (!·.1.isPeek) =
      (ofString text).record (commands.filter (!·.isPeek)) ∧
    ∀ c looks, QuietLooks { cursor := c } looks →
      (∀ before behind, looks = before ++ .peek :: behind →
        let l := (look { cursor := c } before).2
        ∃ t, (run Look.peek.read l).1 = .ok t ∧ (run Look.next.read l).1 = .ok t ∧
          (run Look.peek.read l).2.cursor = l.cursor ∧
          run Look.next.read (run Look.peek.read l).2 = run Look.next.read l) ∧
      (recordLooks { cursor := c } looks).filter (·.1 = .next) =
        recordLooks { cursor := c } (looks.filter (· = .next)) ∧
      (look { cursor := c } looks).2.cursor =
        (look { cursor := c } (looks.filter (· = .next))).2.cursor := by
  have start : (ofString text).lexer.Coherent Token.next := Lookahead.coherent_fresh _
  refine ⟨?_, ?_, ?_⟩
  · rintro before behind rfl i
    obtain ⟨t, shown⟩ := shown_of_quiet quiet
    have kept : Kept (fun _ => True) (ofString text) := kept_ofString trivial
    have coherent := (kept.after (fun _ _ _ => trivial) before).coherent
    exact ⟨t, shown, step_next_of_peek coherent shown⟩
  · exact (Alike.refl start).record quiet
  · intro c looks quiet
    have fresh : Lookahead.Coherent Selector.Token.next { cursor := c } :=
      Lookahead.coherent_fresh c
    refine ⟨?_, recordLooks_filter fresh fresh rfl quiet⟩
    rintro before behind rfl l
    obtain ⟨t, shown⟩ := shown_of_quietLooks quiet
    have coherent := coherent_look fresh before
    exact ⟨t, shown, run_next_of_peek coherent shown⟩

/-- Two brackets, both looked at before they are read, and one again behind a mark. -/
theorem looks_unnoticed_brackets :
    let commands : List Command := [.peek, .next, .mark, .peek, .next, .back 0, .peek]
    let start : Lookahead Selector.Token := { cursor := .ofString "( )" }
    Quiet (ofString "( )") commands ∧
      ((ofString "( )").record commands).filter (!·.1.isPeek) =
        (ofString "( )").record [.next, .mark, .next, .back 0] ∧
      QuietLooks start [.peek, .next] ∧
      (look start [.peek, .next]).2.cursor = (look start [.next]).2.cursor := by
  intro commands start
  have shown : (ofString "( )").record commands =
      [(.peek, .token (.ok ⟨.openParen, "(", ⟨1, 1⟩⟩), ⟨1, 1⟩),
        (.next, .token (.ok ⟨.openParen, "(", ⟨1, 1⟩⟩), ⟨1, 2⟩),
        (.mark, .index 0, ⟨1, 2⟩),
        (.peek, .token (.ok ⟨.closeParen, ")", ⟨1, 3⟩⟩), ⟨1, 2⟩),
        (.next, .token (.ok ⟨.closeParen, ")", ⟨1, 3⟩⟩), ⟨1, 4⟩),
        (.back 0, .nothing, ⟨1, 2⟩),
        (.peek, .token (.ok ⟨.closeParen, ")", ⟨1, 3⟩⟩), ⟨1, 2⟩)] := rfl
  have quiet : Quiet (ofString "( )") commands := by
    unfold Quiet
    rw [shown]
    simp [Command.isPeek]
  have looked : recordLooks start [.peek, .next] =
      [(.peek, .ok ⟨.openParen, "(", ⟨1, 1⟩⟩), (.next, .ok ⟨.openParen, "(", ⟨1, 1⟩⟩)] := rfl
  have quietLooks : QuietLooks start [.peek, .next] := by
    unfold QuietLooks
    rw [looked]
    simp
  obtain ⟨-, same, selectors⟩ := looks_unnoticed "( )" commands quiet
  obtain ⟨-, -, left⟩ := selectors _ _ quietLooks
  exact ⟨quiet, same, quietLooks, left⟩

end Inspection

end Quaked
