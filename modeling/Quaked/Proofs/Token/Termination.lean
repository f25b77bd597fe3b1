import Quaked.Proofs.Termination
import Quaked.Proofs.Token.Runs

/-!
# Reading tokens ends

Both lexers pass characters one by one while they are of some kind (`passWhile`), and the lexer of
definition files goes round what comes between two tokens: a run of blanks or a line comment at a time
(`passGap`). `Cursor.run` and `gap` count at once what these loops pass.
-/

namespace Quaked

open Text

variable {c c' : Cursor}

/-! ### Runs of characters -/

/-- Passes one more character, if it is of the kind. -/
def Text.passWhile (p : Char → Bool) (_ : Unit) : Reading (Option Unit) := fun c =>
  if c.current?.any p then .ok (some ()) c.advance else .ok none c

theorem Text.unread_passWhile {p : Char → Bool} {a b : Unit}
    (h : passWhile p a c = .ok (some b) c') : c'.unread < c.unread := by
  unfold passWhile at h
  split at h
  · rename_i is
    cases h
    cases left : c.rest with
    | nil => simp [Cursor.current?, left] at is
    | cons ch cs => simp [Cursor.unread, left]
  · cases h

/-- The loop passes the run. -/
theorem Text.iterate_passWhile (p : Char → Bool) (c : Cursor) :
    iterate Cursor.unread (passWhile p) () c = .ok () (c.skip (c.run p)) := by
  induction left : c.rest generalizing c with
  | nil =>
    have stop : passWhile p () c = .ok none c := by simp [passWhile, Cursor.current?, left]
    rw [iterate_of_none stop, Cursor.run, left]
    rfl
  | cons ch cs ih =>
    by_cases is : p ch = true
    · have more : passWhile p () c = .ok (some ()) c.advance := by
        simp [passWhile, Cursor.current?, left, is]
      have behind : c.advance.rest = cs := by rw [Cursor.rest_advance, left, List.tail_cons]
      rw [iterate_of_some more (unread_passWhile more), ih c.advance behind, Cursor.run, behind,
        Cursor.run, left, List.takeWhile_cons_of_pos is]
      rfl
    · have stop : passWhile p () c = .ok none c := by
        simp [passWhile, Cursor.current?, left, is]
      rw [iterate_of_none stop, Cursor.run, left, List.takeWhile_cons_of_neg is]
      rfl

namespace Token

/-! ### Gaps -/

/-- Whether a character goes on with a gap within a line. -/
def isGapBlank (ch : Char) : Bool := ch = ' ' || ch = '\t'

/-- Passes a run of blanks, or a line comment up to the end of its line, if one is next. -/
def passGap (_ : Unit) : Reading (Option Unit) := fun c =>
  if c.current?.any isGapBlank then .ok (some ()) (c.skip (c.run isGapBlank))
  else if c.current? = some '/' ∧ c.following? = some '/' then
    .ok (some ()) (c.skip (c.run (!isLineBreak ·)))
  else .ok none c

/-- Behind a run that has a character less is left. -/
theorem unread_skip_run {p : Char → Bool} (some : c.current?.any p) :
    (c.skip (c.run p)).unread < c.unread := by
  have run : 0 < c.run p := by
    cases left : c.rest with
    | nil => simp [Cursor.current?, left] at some
    | cons ch cs =>
      have is : p ch = true := by simpa [Cursor.current?, left] using some
      rw [Cursor.run, left, List.takeWhile_cons_of_pos is]
      exact Nat.succ_pos _
  have most : c.run p ≤ c.unread := (List.takeWhile_prefix p).length_le
  rw [Cursor.unread_skip]
  omega

theorem unread_passGap {a b : Unit} (h : passGap a c = .ok (some b) c') : c'.unread < c.unread := by
  unfold passGap at h
  split at h
  · rename_i blank
    cases h
    exact unread_skip_run blank
  split at h
  · rename_i comment
    cases h
    refine unread_skip_run ?_
    rw [comment.1]
    decide
  · cases h

/-- A gap goes on behind the blanks that it starts with. -/
theorem gap_eq_run (cs : List Char) :
    gap cs = (cs.takeWhile isGapBlank).length + gap (cs.dropWhile isGapBlank) := by
  induction cs with
  | nil => rfl
  | cons ch cs ih =>
    by_cases blank : isGapBlank ch = true
    · have is : ch = ' ' ∨ ch = '\t' := by simpa [isGapBlank] using blank
      rw [gap, if_pos is, ih, List.takeWhile_cons_of_pos blank, List.dropWhile_cons_of_pos blank,
        List.length_cons]
      omega
    · rw [List.takeWhile_cons_of_neg blank, List.dropWhile_cons_of_neg blank]
      exact (Nat.zero_add _).symm

/-- The loop passes the gap. -/
theorem iterate_passGap (c : Cursor) :
    iterate Cursor.unread passGap () c = .ok () (c.skip (gap c.rest)) := by
  induction left : c.unread using Nat.strongRecOn generalizing c with
  | ind n ih =>
    subst left
    by_cases blank : c.current?.any isGapBlank = true
    · have more : passGap () c = .ok (some ()) (c.skip (c.run isGapBlank)) := if_pos blank
      rw [iterate_of_some more (unread_passGap more), ih _ (unread_passGap more) _ rfl,
        ← Cursor.skip_add, Cursor.rest_skip_run, gap_eq_run c.rest]
      rfl
    by_cases comment : c.current? = some '/' ∧ c.following? = some '/'
    · have more : passGap () c = .ok (some ()) (c.skip (c.run (!isLineBreak ·))) :=
        (if_neg blank).trans (if_pos comment)
      have whole : c.run (!isLineBreak ·) = gap c.rest := by
        obtain ⟨slash, slash'⟩ := comment
        obtain ⟨cs, here⟩ := List.head?_eq_some_iff.1 slash
        rw [Cursor.following?, here] at slash'
        rw [Cursor.run, here, gap, if_neg (by decide), if_pos ⟨rfl, slash'⟩]
      rw [iterate_of_some more (unread_passGap more), ih _ (unread_passGap more) _ rfl,
        ← Cursor.skip_add, Cursor.rest_skip, whole, gap_drop_gap]
      rfl
    · have stop : passGap () c = .ok none c := (if_neg blank).trans (if_neg comment)
      have none : gap c.rest = 0 := by
        cases here : c.rest with
        | nil => rfl
        | cons ch cs =>
          have noBlank : ¬ (ch = ' ' ∨ ch = '\t') := by
            simpa [Cursor.current?, here, isGapBlank] using blank
          have noComment : ¬ (ch = '/' ∧ cs.head? = some '/') := by
            simpa [Cursor.current?, Cursor.following?, here] using comment
          rw [gap, if_neg noBlank, if_neg noComment]
      rw [iterate_of_none stop, none]
      rfl

/-! ### Line breaks -/

/-- Passes one more line break, if one is next. -/
def passNewline (_ : Unit) : Reading (Option Unit) := do
  if (← peek).kind = .newline then
    let _ ← next
    return some ()
  else return none

theorem unread_passNewline {a b : Unit} (h : passNewline a c = .ok (some b) c') :
    c'.unread < c.unread := by
  obtain ⟨t, c₁, stands, h⟩ := peek_bind_eq_ok_iff.1 h
  split at h
  · rename_i newline
    obtain ⟨u, c₂, read, h⟩ := bind_eq_ok_iff.1 h
    obtain ⟨-, rfl⟩ := pure_eq_ok_iff.1 h
    obtain ⟨rfl, rfl⟩ := stands.unique read
    exact unread_next stands (by simp [newline])
  · cases (pure_eq_ok_iff.1 h).1

/-! ### The lexers -/

/-- Tokens are made, and line breaks are passed, by loops that end wherever they start. -/
structure Terminates : Prop where
  /-- A run of characters is passed by a loop, and so is a gap. -/
  run_loop : ∀ p, LoopTerminates Cursor.unread (passWhile p)
  run_eq : ∀ p c, iterate Cursor.unread (passWhile p) () c = .ok () (c.skip (c.run p))
  gap_loop : LoopTerminates Cursor.unread passGap
  gap_eq : ∀ c, iterate Cursor.unread passGap () c = .ok () (c.skip (gap c.rest))
  /-- Line breaks are passed by a loop. -/
  newlines_loop : LoopTerminates Cursor.unread passNewline
  newlines_eq : skipNewlines = iterate Cursor.unread passNewline ()
  /-- A token other than the end leaves less to read. -/
  next_less : ∀ {c t c'}, next c = .ok t c' → t.kind ≠ .endOfFile → c'.unread < c.unread

theorem terminates : Terminates where
  run_loop _ := .of_shrinks unread_passWhile
  run_eq := iterate_passWhile
  gap_loop := .of_shrinks unread_passGap
  gap_eq := iterate_passGap
  newlines_loop := .of_shrinks unread_passNewline
  newlines_eq := rfl
  next_less := unread_next

end Token
end Quaked
