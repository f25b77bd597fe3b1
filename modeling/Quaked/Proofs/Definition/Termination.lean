import Mathlib.Data.List.Infix
import Quaked.Proofs.Definition.Calls
import Quaked.Proofs.Positional.Exactness
import Quaked.Proofs.Selector.Termination
import Quaked.Proofs.Token.Termination

/-!
# Reading a file ends

A definition leaves less to read than there was, and so does each round of every loop that reads a part
of one. The comment that a definition stands in is opened by a mark, behind which it goes on, so a file
is read in at most one call more than it has such marks.

* `occurrences_lt_next`: reading a definition uses up a mark.
* `reading_terminates`: tokens, selectors, positional selectors and definitions are read by loops and
  recursions that end by themselves.
-/

namespace Quaked

open Text

/-! ### Positional selectors -/

/-- Positional selectors are read by loops that end wherever they start. -/
structure Positional.Terminates : Prop where
  entry_less : LeavesLess Cursor.unread entry
  keys_loop : LoopTerminates Cursor.unread key?
  entries_loop : LoopTerminates Cursor.unread another
  entries_eq : entries = (do iterate Cursor.unread another [← entry])

theorem Positional.terminates : Terminates where
  entry_less _ _ _ := unread_entry
  keys_loop := .of_shrinks unread_key?
  entries_loop := .of_shrinks unread_another
  entries_eq := rfl

/-! ### Marks -/

section Occurrences

variable {marker cs ds : List Char} {ch : Char}

/-- How often a marker stands in a text. -/
def Text.occurrences (marker cs : List Char) : Nat := cs.tails.countP (marker.isPrefixOf ·)

theorem Text.occurrences_cons : occurrences marker (ch :: cs) =
    occurrences marker cs + if marker.isPrefixOf (ch :: cs) then 1 else 0 := by
  rw [occurrences, List.tails_cons, List.countP_cons]
  rfl

theorem Text.occurrences_lt (front : marker <+: ch :: cs) :
    occurrences marker cs < occurrences marker (ch :: cs) := by
  rw [occurrences_cons, if_pos (List.isPrefixOf_iff_prefix.2 front)]
  exact Nat.lt_succ_self _

theorem Text.occurrences_le (suffix : ds <:+ cs) : occurrences marker ds ≤ occurrences marker cs := by
  induction cs with
  | nil => rw [List.suffix_nil.1 suffix]
  | cons ch cs ih =>
    rcases List.suffix_cons_iff.1 suffix with rfl | suffix
    · exact Nat.le_refl _
    · rw [occurrences_cons]
      exact (ih suffix).trans (Nat.le_add_right _ _)

end Occurrences

theorem skippable_suffix (cs : List Char) : Skippable fun c => c.rest <:+ cs := by
  intro c n before
  rw [Cursor.rest_skip]
  exact (List.drop_suffix n c.rest).trans before

namespace Definition

section Marks

variable {c c' : Cursor} {t : Token} {ts : List Token} {dialect : Dialect}

/-- What is left behind tokens was left in front of them. -/
theorem rest_suffix_of_run (run : Token.Run c ts c') : c'.rest <:+ c.rest := by
  induction run with
  | nil c => exact List.suffix_rfl
  | cons stands _ ih =>
    exact ih.trans ((Token.keeps_next (skippable_suffix _)).of_ok List.suffix_rfl stands)

/-- The mark of a definition stands in the text, and what is left behind it is behind the mark. -/
theorem mark_of_stands (stands : Token.Stands c t c') (opens : t.kind = .commentOpen) :
    ∃ behind, '/' :: '*' :: behind <:+ c.rest ∧ c'.rest <:+ behind := by
  obtain ⟨kind, n, lexed, rfl, rfl⟩ := Token.next_eq_ok_iff.1 stands
  obtain rfl : kind = .commentOpen := opens
  generalize front : c.rest.drop (Token.gap c.rest) = cs at lexed
  cases Token.shape_of_lexeme lexed with
  | word word => rcases Token.wordLexeme_kind word with is | is | is <;> cases is
  | commentOpen behind =>
    refine ⟨behind, front ▸ List.drop_suffix _ _, ?_⟩
    have extent : (('/' :: '*' :: behind).takeWhile (!isBlank ·)).length =
        (behind.takeWhile (!isBlank ·)).length + 2 := by simp [isBlank]
    rw [Cursor.rest_skip, Cursor.rest_skip, front, extent]
    exact List.drop_suffix (behind.takeWhile (!isBlank ·)).length behind

/-- Reading a definition uses up a mark. -/
theorem occurrences_lt_next {settings : Settings} {s s' : Session} {outcome : Outcome}
    (h : next settings s = .ok outcome s') (declares : outcome ≠ .finished) :
    occurrences ['/', '*'] s'.cursor.rest < occurrences ['/', '*'] s.cursor.rest := by
  have moved := holds_final_next (skippable_suffix s.cursor.rest) settings List.suffix_rfl
  rw [h] at moved
  rcases next_eq_ok_iff.1 h with ⟨p, body, c, written, -, concluded⟩ | ⟨_, _, -, -, rfl, -⟩
  · have here := concluded.cursor_eq
    obtain ⟨⟨run, others, stands, -⟩, opens, rest⟩ := written
    obtain ⟨behind, marked, left⟩ := mark_of_stands stands opens
    have front := rest_suffix_of_run run
    have marked := marked.trans front
    -- what is left behind the mark and what is left behind the definition end in the same place
    have within : s'.cursor.rest <:+ behind := by
      refine List.suffix_of_suffix_length_le moved (((List.suffix_cons _ _).trans
        (List.suffix_cons _ _)).trans marked) ?_
      rw [here]
      exact rest.unread_le.trans left.length_le
    calc
      occurrences ['/', '*'] s'.cursor.rest ≤ occurrences ['/', '*'] behind := occurrences_le within
      _ ≤ occurrences ['/', '*'] ('*' :: behind) := occurrences_le (List.suffix_cons _ _)
      _ < occurrences ['/', '*'] ('/' :: '*' :: behind) := occurrences_lt ⟨behind, rfl⟩
      _ ≤ occurrences ['/', '*'] s.cursor.rest := occurrences_le marked
  · exact absurd rfl declares

/-- So does a round of the loop over a file. -/
theorem occurrences_lt_entity? {settings : Settings} {es es' : List EntityClass} {s s' : Session}
    (h : entity? settings es s = .ok (some es') s') :
    occurrences ['/', '*'] s'.cursor.rest < occurrences ['/', '*'] s.cursor.rest := by
  obtain ⟨outcome, s₁, read, declares, behind⟩ := next_of_entity? h
  rw [behind]
  exact occurrences_lt_next read declares

end Marks

/-! ### Definitions -/

theorem unread_readOption? {options options' : List ChoiceOption} {c c' : Cursor}
    (h : Entry.readOption? options c = .ok (some options') c') : c'.unread < c.unread := by
  obtain ⟨option, stands, -⟩ := Entry.readOption?_eq_some_iff.1 h
  exact stands.unread_lt

theorem unread_readEntry {dialect : Dialect} {es es' : List Entry} {s s' : Session}
    (h : readEntry dialect es s = .ok (some es') s') : s'.unread < s.unread := by
  obtain ⟨entry, ⟨stands⟩, -⟩ := readEntry_eq_some_iff.1 h
  exact stands.unread_lt

/-- Definitions are read by loops that end wherever they start. -/
structure Terminates : Prop where
  /-- What stands in front of a definition is passed by a loop. -/
  opening_loop : LoopTerminates Cursor.unread passOutside
  opening_eq : opening = (do
    iterate Cursor.unread passOutside ()
    return (← Token.next).kind = .commentOpen)
  /-- Flags, options and entries are read by loops. -/
  flags_loop : LoopTerminates Cursor.unread Header.readFlag?
  options_loop : LoopTerminates Cursor.unread Entry.readOption?
  entries_loop : ∀ dialect, LoopTerminates Session.unread (readEntry dialect)
  /-- A definition leaves less to read, so a file is read by a loop. -/
  next_less : ∀ {settings outcome s s'}, next settings s = .ok outcome s' → outcome ≠ .finished →
    s'.unread < s.unread
  file_loop : ∀ settings, LoopTerminates Session.unread (entity? settings)
  /-- There is at most one call more than there are marks in the text. -/
  calls : ∀ settings text, ∃ n ≤ occurrences ['/', '*'] text.toList + 1,
    Ends (entity? settings) [] (.ofString text) n (entities settings (.ofString text))

theorem terminates : Terminates where
  opening_loop := .of_shrinks unread_passOutside
  opening_eq := rfl
  flags_loop := .of_shrinks Header.unread_readFlag?
  options_loop := .of_shrinks unread_readOption?
  entries_loop _ := .of_shrinks unread_readEntry
  next_less := unread_next_lt
  file_loop _ := .of_shrinks unread_entity?
  calls _ text := exists_ends (fun s => occurrences ['/', '*'] s.cursor.rest) unread_entity?
    occurrences_lt_entity? [] (.ofString text)

/-- Wherever they start, the lexers, both grammars of selectors and the grammar of definitions end by
themselves: what they read leaves less to read, and so does each round of their loops and each way down
their recursions. A file is read in at most one call more than it has marks. -/
theorem reading_terminates :
    Token.Terminates ∧ Selector.Grammar.Terminates ∧ Positional.Terminates ∧ Terminates :=
  ⟨Token.terminates, Selector.Grammar.terminates, Positional.terminates, terminates⟩

end Definition
end Quaked
