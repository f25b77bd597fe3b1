import Quaked.Proofs.Definition.InStep
import Quaked.Proofs.Definition.Inheritance
import Quaked.Proofs.Token.Append

/-!
# Text in front of definitions

What stands in front of the first definition of a file is made into tokens and passed. A preface that
ends with a line, and has neither a failure nor the opening of a comment among its tokens, leaves the
cursor where what follows it would start by itself, some lines further down (`Below`). From there on
both files are read in step.

* `entities_of_run`: a file is read from behind the tokens that are passed.
* `passed_preface`: behind the tokens of a preface, what follows it starts as it would by itself.
* `preface_shifts`: reading behind a preface comes to the same, some lines further down.
-/

namespace Quaked

open Text

/-! ### Lines further down -/

/-- The position `n` lines further down. -/
def Text.Position.below (n : Nat) (p : Position) : Position := ⟨p.line + n, p.column⟩

/-- The failure `n` lines further down. -/
def Error.below (n : Nat) (e : Error) : Error := { e with position := e.position.below n }

/-- The warning `n` lines further down. -/
def Warning.below (n : Nat) (w : Warning) : Warning := { w with position := w.position.below n }

/-- The same is left at both cursors, at the second one `n` lines further down. -/
structure Below (n : Nat) (c d : Cursor) : Prop where
  position : d.position = c.position.below n
  rest : d.rest = c.rest

variable {α : Type} {n : Nat} {c d d' : Cursor} {ts : List Token}

theorem Below.advance (h : Below n c d) : Below n c.advance d.advance := by
  constructor
  · unfold Cursor.advance
    rw [h.rest]
    split
    · exact h.position
    · rename_i ch rest _
      dsimp only
      rw [h.position, Position.after, Position.after]
      split
      · exact congrArg (Position.mk · 1) (Nat.add_right_comm _ _ _)
      · rfl
  · rw [Cursor.rest_advance, Cursor.rest_advance, h.rest]

theorem Below.skip (h : Below n c d) (k : Nat) : Below n (c.skip k) (d.skip k) := by
  induction k generalizing c d with
  | zero => exact h
  | succ k ih => exact ih h.advance

theorem aligned_below (n : Nat) : Aligned (Below n) where
  rest h := h.rest
  skip k h := h.skip k

theorem Marks.below {P : Cursor → Prop} {p q : Position} (h : Marks (Below n) P p q) :
    q = p.below n := by
  obtain ⟨c, d, below, -, rfl, rfl⟩ := h
  exact below.position

theorem BlamesBy.below {T : Cursor → List String → String → Prop} {e e' : Error}
    (h : BlamesBy T (Below n) e e') : e' = e.below n := by
  show Error.mk e'.cause e'.position = _
  rw [h.1, h.2.below]
  rfl

theorem SameWarning.below {w w' : Warning} (h : SameWarning (Below n) w w') : w' = w.below n := by
  cases h with
  | unknownBase marks => exact congrArg (Warning.mk _) marks.below
  | replaceable e marks => exact congrArg (Warning.mk _) marks.below

theorem SameSession.warnings_below {s s' : Session} (h : SameSession (Below n) [] [] s s') :
    s'.warnings = s.warnings.map (Warning.below n) := by
  obtain ⟨added, added', is, is', same⟩ := h.warnings
  rw [is, is', List.nil_append, List.nil_append]
  clear is is'
  induction same with
  | nil => rfl
  | cons head _ ih => rw [List.map_cons, head.below, ih]

/-! ### Passing tokens -/

namespace Definition

variable (settings : Settings) {s : Session}

/-- A definition is looked for behind tokens that open none. -/
theorem opening_of_run (run : Token.Run d ts d')
    (others : ∀ t ∈ ts, t.kind ≠ .commentOpen ∧ t.kind ≠ .endOfFile) : opening d = opening d' := by
  induction run with
  | nil d => rfl
  | @cons d d₁ d' t ts stands _ ih =>
    obtain ⟨other, others⟩ := List.forall_mem_cons.1 others
    rw [← ih others]
    exact bind_of_same (iterate_of_some (passOutside_of_other stands (not_or.2 other))
      (Token.unread_next stands other.2))

/-- A file is read from behind tokens that open no definition. -/
theorem entities_of_run (run : Token.Run s.cursor ts d')
    (others : ∀ t ∈ ts, t.kind ≠ .commentOpen ∧ t.kind ≠ .endOfFile) :
    entities settings s = entities settings { s with cursor := d' } := by
  have opened : (liftM opening : Parsing Bool) s = (liftM opening : Parsing Bool) { s with cursor := d' } := by
    rw [lift_apply, lift_apply, opening_of_run run others]
    cases opening d' <;> rfl
  have read : next settings s = next settings { s with cursor := d' } := bind_of_same opened
  have first : entity? settings [] s = entity? settings [] { s with cursor := d' } := bind_of_same read
  exact iterate_of_same first unread_entity?

/-- Where no token can be read no definition is found. -/
theorem entities_of_failure {e : Error} {c' : Cursor} (failed : Token.next s.cursor = .error e c') :
    ∃ s', entities settings s = .error e s' := by
  have peeked : Token.peek s.cursor = .error e c' := by
    rw [Token.peek, Reading.ahead, failed]
  have opened : opening s.cursor = .error e c' :=
    bind_of_error (iterate_of_error (bind_of_error peeked))
  have lifted : (liftM opening : Parsing Bool) s = .error e { s with cursor := c' } := by
    rw [lift_apply, opened]
    rfl
  exact ⟨_, iterate_of_error (bind_of_error (bind_of_error lifted))⟩

/-! ### Prefaces -/

section Preface

variable {preface : String}

theorem continued_ofString (preface text : String) :
    Token.Continued text.toList (.ofString preface) (.ofString (preface ++ text)) where
  position := rfl
  rest := String.toList_append

/-- At the end of a text that ends with a line only lines have been passed. -/
theorem below_end (lined : Lined preface.toList) (here : InPlace preface c) (none : c.rest = [])
    {text : String} (behind : Token.Continued text.toList c d) :
    Below (lineBreaks preface.toList) (.ofString text) d := by
  have whole : preface.toList = preface.toList ++ [] := (List.append_nil _).symm
  constructor
  · rw [behind.position, here.position, Token.offset_of_nil here none, ← width_toList,
      positionAt_width whole, lined.positionBehind]
    rfl
  · rw [behind.rest, none]
    rfl

variable (noMark : ∀ t ∈ (Token.all preface).1, t.kind ≠ .commentOpen) (text : String)
include noMark

/-- Behind the tokens of a preface that ends with a line, what follows it starts as it would by itself,
some lines further down. -/
theorem passed_preface (lined : Lined preface.toList) (clean : (Token.all preface).2 = none) :
    ∃ ts d, Token.Run (.ofString (preface ++ text)) ts d ∧
      (∀ t ∈ ts, t.kind ≠ .commentOpen ∧ t.kind ≠ .endOfFile) ∧
      Below (lineBreaks preface.toList) (.ofString text) d := by
  obtain ⟨ts, -, -, more, ⟨-, all, c', -, run⟩ | ⟨e, -, all, -⟩⟩ :=
    Token.tiled_from (InPlace.ofString preface)
  · rw [Token.all, all] at noMark
    obtain ⟨c, run, last⟩ := InOrder.append_iff.1 (run 0)
    obtain ⟨d, run', behind⟩ := (continued_ofString preface text).run run more (.inr lined)
    have here := Token.Run.inPlace (.ofString preface) run
    have none : c.rest = [] := by
      obtain ⟨c₁, stands, -⟩ := InOrder.cons_iff.1 last
      obtain ⟨before, whole, -⟩ := here.behind
      have lined' := lined.drop before.length
      rw [whole, List.drop_left] at lined'
      exact (Token.end_of_next stands rfl).1.eq_nil_of_lined lined'
    refine ⟨ts, d, run', fun t mem => ⟨noMark t (List.mem_append_left _ mem), more t mem⟩, ?_⟩
    exact below_end lined here none behind
  · rw [Token.all, all] at clean
    cases clean

/-- So a preface with a character that starts no token is passed up to there. -/
theorem failed_preface {ch : Char} {p : Position}
    (failed : (Token.all preface).2 = some ⟨.unexpectedCharacter ch, p⟩) :
    ∃ ts d d', Token.Run (.ofString (preface ++ text)) ts d ∧
      (∀ t ∈ ts, t.kind ≠ .commentOpen ∧ t.kind ≠ .endOfFile) ∧
      Token.next d = .error ⟨.unexpectedCharacter ch, p⟩ d' := by
  obtain ⟨ts, -, -, more, ⟨-, all, -⟩ | ⟨e, -, all, c, c', run, refused⟩⟩ :=
    Token.tiled_from (InPlace.ofString preface)
  · rw [Token.all, all] at failed
    cases failed
  · rw [Token.all, all] at failed noMark
    cases failed
    have left : c.rest ≠ [] := by
      intro none
      rw [Token.next_of_nil none] at refused
      cases refused
    obtain ⟨d, run', behind⟩ := (continued_ofString preface text).run run more (.inl left)
    obtain ⟨d', refused'⟩ := behind.unexpected refused rfl
    exact ⟨ts, d, d', run', fun t mem => ⟨noMark t mem, more t mem⟩, refused'⟩

end Preface

/-- What two files in step come to, when one of them is further down. -/
theorem split_below {r r' : EStateM.Result Error Session α}
    (h : Agree (SameSession (Below n) [] []) (Blames (Below n)) Eq r r') :
    (File.split r').1 = (File.split r).1.mapError (Error.below n) ∧
      (File.split r').2.bases = (File.split r).2.bases ∧
      (File.split r').2.warnings = (File.split r).2.warnings.map (Warning.below n) := by
  cases h with
  | ok same states =>
    subst same
    exact ⟨rfl, states.bases, states.warnings_below⟩
  | error failures states =>
    exact ⟨congrArg Except.error failures.below, states.bases, states.warnings_below⟩

/-- A preface changes nothing but the lines. If it is empty or ends in a line feed, and has tokens up to
its end none of which opens a comment, then the text behind it is read to the same classes, bases and
warnings as by itself, or fails for the same cause, and the positions are further down by the line
breaks of the preface. If a character of it starts no token, that is the failure whatever follows. -/
theorem preface_shifts (settings : Settings) (preface : String)
    (noMark : ∀ t ∈ (Token.all preface).1, t.kind ≠ .commentOpen) :
    (Lined preface.toList → (Token.all preface).2 = none → ∀ text,
      let alone := File.read settings text
      let behind := File.read settings (preface ++ text)
      behind.result = alone.result.mapError (Error.below (lineBreaks preface.toList)) ∧
        behind.session.bases = alone.session.bases ∧
        behind.session.warnings =
          alone.session.warnings.map (Warning.below (lineBreaks preface.toList))) ∧
    ∀ ch p, (Token.all preface).2 = some ⟨.unexpectedCharacter ch, p⟩ → ∀ text,
      (File.read settings (preface ++ text)).result = .error ⟨.unexpectedCharacter ch, p⟩ := by
  refine ⟨fun lined clean text => ?_, fun ch p failed text => ?_⟩
  · obtain ⟨ts, d, run, others, below⟩ := passed_preface noMark text lined clean
    have passed := entities_of_run settings (s := .ofString (preface ++ text)) run others
    have start : SameSession (Below (lineBreaks preface.toList)) [] [] (.ofString text)
        { Session.ofString (preface ++ text) with cursor := d } :=
      ⟨below, rfl, [], [], rfl, rfl, .nil⟩
    have both := inStep_entities (aligned_below _) settings _ _ start
    rw [← passed] at both
    exact split_below both
  · obtain ⟨ts, d, d', run, others, refused⟩ := failed_preface noMark text failed
    have passed := entities_of_run settings (s := .ofString (preface ++ text)) run others
    obtain ⟨s', stopped⟩ := entities_of_failure settings
      (s := { Session.ofString (preface ++ text) with cursor := d }) refused
    show (File.split (entities settings (.ofString (preface ++ text)))).1 = _
    rw [passed, stopped]
    rfl

/-- A remark that ends with a carriage return and a line feed, and a quoted string over two lines. -/
def remark : String := "// A remark\r\n\"over two\nlines\"\n"

/-- A class that refers to a base there is not, in the second line. -/
def referring : String := "/*QUAKED n (1 0 0) ?\n\x7b base(\"b\"); \x7d\n*/"

/-- Behind three lines the warning is in the fifth, and behind a bracket nothing is read. -/
theorem preface_shifts_remark :
    (File.read {} (remark ++ referring)).session.warnings.map (·.position) = [⟨5, 3⟩] ∧
      (File.read {} ("[" ++ referring)).result = .error ⟨.unexpectedCharacter '[', ⟨1, 1⟩⟩ := by
  have noMark : ∀ t ∈ (Token.all remark).1, t.kind ≠ .commentOpen := by decide +kernel
  have clean : (Token.all remark).2 = none := by decide +kernel
  have lined : Lined remark.toList := by
    intro ch mem
    cases mem
    rfl
  have lines : lineBreaks remark.toList = 3 := by decide
  have alone : (File.read {} referring).session.warnings.map (·.position) = [⟨2, 3⟩] := by
    decide +kernel
  constructor
  · obtain ⟨-, -, warnings⟩ := (preface_shifts {} remark noMark).1 lined clean referring
    rw [lines] at warnings
    rw [warnings, List.map_map]
    have below := congrArg (List.map (Position.below 3)) alone
    rwa [List.map_map] at below
  · have noMark : ∀ t ∈ (Token.all "[").1, t.kind ≠ .commentOpen := by decide +kernel
    have failed : (Token.all "[").2 = some ⟨.unexpectedCharacter '[', ⟨1, 1⟩⟩ := by decide +kernel
    exact (preface_shifts {} "[" noMark).2 '[' ⟨1, 1⟩ failed referring

end Definition
end Quaked
