import Quaked.Proofs.Selector.HandOff
import Quaked.Proofs.Text.Place
import Quaked.Proofs.Text.Quoted
import Quaked.Proofs.Token.Movement

/-!
# Tokens cover a definition file

Every character of a definition file is part of one token or of the gap in front of one. `Gap` and
`Tiles` say so of the characters alone, `Refused` says where no token can start and why. Reading is
held against them one token at a time, and a whole text is read as it is laid out, up to its end or
up to the first place where no token starts.

* `extent_of_lexeme`: a token's text tells the characters it was made of.
* `gap_take`, `Gap.eq_length`: what is passed in front of a token is the gap.
* `next_eq_error_iff`: no token can be read exactly where none can start.
* `tiled_or_refused`: a text is tokens and gaps up to where reading ends.
-/

namespace Quaked

open Text

namespace Token

variable {cs gap rest left : List Char} {kind : Kind} {n : Nat} {c c' : Cursor} {t : Token}
  {text : String} {e : Error}

/-! ### Extents -/

/-- The characters a token was made of. -/
def extent (t : Token) : List Char := extentOf (t.kind = .quoted) t.text

/-- The text of a token tells its extent. -/
theorem extent_of_lexeme (h : lexeme cs = .token kind n) (position : Position) :
    extent ⟨kind, kind.textOf (cs.take n), position⟩ = cs.take n :=
  quotes_lexeme.extentOf_textOf h

theorem extent_ne_nil (h : lexeme cs = .token kind n) (more : kind ≠ .endOfFile) :
    cs.take n ≠ [] := by
  obtain ⟨positive, some⟩ := lexeme_extent h more
  intro none
  rcases List.take_eq_nil_iff.1 none with zero | none
  · exact absurd zero (Nat.ne_of_gt positive)
  · exact some none

/-! ### Gaps -/

/-- What separates a token, or the end, from what comes before: spaces, tabs, and comments that run
from two slashes up to where `rest` starts with a line break or the text is over. -/
inductive Gap : List Char → List Char → Prop where
  | nil (rest : List Char) : Gap [] rest
  | blank {ch : Char} {gap rest : List Char} (blank : ch = ' ' ∨ ch = '\t') (tail : Gap gap rest) :
    Gap (ch :: gap) rest
  | comment {remark rest : List Char} (within : ∀ ch ∈ remark, isLineBreak ch = false)
    (behind : ∀ ch ∈ rest.head?, isLineBreak ch = true) : Gap ('/' :: '/' :: remark) rest

theorem takeWhile_remark {remark : List Char} (within : ∀ ch ∈ remark, isLineBreak ch = false)
    (behind : ∀ ch ∈ rest.head?, isLineBreak ch = true) :
    (remark ++ rest).takeWhile (!isLineBreak ·) = remark := by
  have all : ∀ ch ∈ remark, (!isLineBreak ch) = true := by
    intro ch mem
    rw [within ch mem]
    rfl
  rw [List.takeWhile_append_of_pos all]
  cases rest with
  | nil => simp
  | cons ch rest => simp [behind ch rfl]

/-- A gap in front of a place where none goes on is passed as a whole. -/
theorem Gap.eq_length (h : Gap gap rest) (stop : Token.gap rest = 0) :
    Token.gap (gap ++ rest) = gap.length := by
  induction h with
  | nil rest => exact stop
  | blank blank _ ih => rw [List.cons_append, Token.gap, if_pos blank, ih stop, List.length_cons]
  | @comment remark rest within behind =>
    have noBlank : ¬ (('/' : Char) = ' ' ∨ ('/' : Char) = '\t') := by decide
    rw [List.cons_append, Token.gap, if_neg noBlank, if_pos ⟨rfl, rfl⟩]
    exact congrArg (fun passed => passed.length + 2) (takeWhile_remark within behind)

/-- What is passed in front of a token is a gap. -/
theorem gap_take (cs : List Char) : Gap (cs.take (Token.gap cs)) (cs.drop (Token.gap cs)) := by
  induction cs with
  | nil => exact .nil []
  | cons ch cs ih =>
    rw [Token.gap]
    split
    · rename_i blank
      exact ih.blank blank
    split
    · rename_i comment
      obtain ⟨rfl, second⟩ := comment
      obtain ⟨remark, rfl⟩ : ∃ remark, cs = '/' :: remark := by
        cases cs with
        | nil => cases second
        | cons d ds =>
          cases second
          exact ⟨ds, rfl⟩
      have passed : ('/' :: '/' :: remark).takeWhile (!isLineBreak ·) =
          '/' :: '/' :: remark.takeWhile (!isLineBreak ·) := rfl
      rw [passed, List.length_cons, List.length_cons, List.take_succ_cons, List.take_succ_cons,
        List.drop_succ_cons, List.drop_succ_cons, take_length_takeWhile]
      refine .comment ?_ (isLineBreak_behind remark)
      intro d mem
      have other := List.all_eq_true.1 List.all_takeWhile d mem
      simpa using other
    · exact .nil _

/-! ### Places where no token can start -/

/-- No token starts with the character in front of what is behind it, and why. -/
inductive Refused : Char → List Char → Cause → Prop where
  | openBracket (behind : List Char) : Refused '[' behind (.unexpectedCharacter '[')
  | closeBracket (behind : List Char) : Refused ']' behind (.unexpectedCharacter ']')
  | quote {behind : List Char} (endless : ¬ Closed behind) : Refused '"' behind .unterminatedString

theorem Refused.gap_eq_zero {ch : Char} {behind : List Char} {cause : Cause}
    (h : Refused ch behind cause) : Token.gap (ch :: behind) = 0 := by
  cases h <;> rfl

/-- What stands at the front of a text is no token, for a cause. -/
def Fails (cs : List Char) (cause : Cause) : Prop :=
  (∃ character, lexeme cs = .unexpected character ∧ cause = .unexpectedCharacter character) ∨
    lexeme cs = .unterminated ∧ cause = .unterminatedString

/-- It is none exactly if its first character is refused for that cause. -/
theorem refused_iff {ch : Char} {behind : List Char} (front : Token.gap (ch :: behind) = 0)
    {cause : Cause} : Refused ch behind cause ↔ Fails (ch :: behind) cause := by
  unfold Fails
  constructor
  · rintro (_ | _ | endless)
    · exact .inl ⟨'[', lexeme_openBracket, rfl⟩
    · exact .inl ⟨']', lexeme_closeBracket, rfl⟩
    · refine .inr ⟨?_, rfl⟩
      rw [lexeme_quote]
      cases inner : interior? behind with
      | none => rfl
      | some n => exact absurd (closed_iff.2 ⟨n, inner⟩) endless
  · intro h
    -- where there is no token the character is one of three, each with its own cause
    have noToken : ¬ ∃ kind n, lexeme (ch :: behind) = .token kind n := by
      rintro ⟨kind, n, lexed⟩
      rw [lexed] at h
      rcases h with ⟨_, other, -⟩ | ⟨other, -⟩ <;> cases other
    rw [exists_lexeme_iff front] at noToken
    by_cases openBracket : ch = '['
    · subst openBracket
      rcases h with ⟨_, lexed, rfl⟩ | ⟨lexed, -⟩
      · cases lexed
        exact .openBracket behind
      · cases lexed
    by_cases closeBracket : ch = ']'
    · subst closeBracket
      rcases h with ⟨_, lexed, rfl⟩ | ⟨lexed, -⟩
      · cases lexed
        exact .closeBracket behind
      · cases lexed
    have endless : ch = '"' ∧ ¬ ∃ n, interior? behind = some n := by
      by_contra other
      refine noToken ⟨openBracket, closeBracket, fun quote => ?_⟩
      by_contra none
      exact other ⟨quote, none⟩
    obtain ⟨rfl, none⟩ := endless
    rw [lexeme_quote, Option.eq_none_iff_forall_ne_some.2 fun n inner => none ⟨n, inner⟩] at h
    rcases h with ⟨_, lexed, -⟩ | ⟨-, rfl⟩
    · cases lexed
    · exact .quote fun closed => none (closed_iff.1 closed)

/-! ### One token -/

/-- A gap and a token stand at the front of a text, and `rest` behind them. -/
def Tile (cs : List Char) (t : Token) (rest : List Char) : Prop :=
  ∃ gap, cs = gap ++ (t.extent ++ rest) ∧ Gap gap (t.extent ++ rest) ∧ t.extent ≠ []

/-- A token that is read leaves what stands behind it. -/
theorem tile_of_next (h : next c = .ok t c') (more : t.kind ≠ .endOfFile) :
    Tile c.rest t c'.rest := by
  obtain ⟨kind, n, lexed, rfl, rfl⟩ := next_eq_ok_iff.1 h
  have whole : c.rest.drop (Token.gap c.rest) =
      (c.rest.drop (Token.gap c.rest)).take n ++ ((c.skip (Token.gap c.rest)).skip n).rest := by
    rw [Cursor.rest_skip, Cursor.rest_skip, List.take_append_drop]
  refine ⟨c.rest.take (Token.gap c.rest), ?_, ?_, ?_⟩
  · rw [extent_of_lexeme lexed, ← whole, List.take_append_drop]
  · rw [extent_of_lexeme lexed, ← whole]
    exact gap_take c.rest
  · rw [extent_of_lexeme lexed]
    exact extent_ne_nil lexed more

theorem lexeme_endOfFile (h : lexeme cs = .token .endOfFile n) : cs = [] ∧ n = 0 := by
  cases shape_of_lexeme h with
  | endOfFile => exact ⟨rfl, rfl⟩
  | word word => rcases wordLexeme_kind word with is | is | is <;> cases is

/-- Where the end of the file is read nothing but a gap is left, and behind it nothing. -/
theorem end_of_next (h : next c = .ok t c') (last : t.kind = .endOfFile) :
    Gap c.rest [] ∧ c'.rest = [] ∧ c' = c.skip (Token.gap c.rest) ∧
      t = ⟨.endOfFile, "", c'.position⟩ := by
  obtain ⟨kind, n, lexed, rfl, rfl⟩ := next_eq_ok_iff.1 h
  cases last
  obtain ⟨none, rfl⟩ := lexeme_endOfFile lexed
  have between := gap_take c.rest
  rw [none, List.take_of_length_le (List.drop_eq_nil_iff.1 none)] at between
  refine ⟨between, ?_, rfl, rfl⟩
  rw [Cursor.skip_zero, Cursor.rest_skip, none]

/-- At the end the end of the file is read, again and again. -/
theorem next_of_nil (none : c.rest = []) : next c = .ok ⟨.endOfFile, "", c.position⟩ c := by
  apply next_eq_ok_iff.2
  rw [none]
  exact ⟨.endOfFile, 0, rfl, rfl, rfl⟩

/-- No token can be read exactly where none stands behind the gap. -/
theorem next_eq_error_iff_fails :
    (∃ c', next c = .error e c') ↔
      Fails (c.rest.drop (Token.gap c.rest)) e.cause ∧
        e.position = (c.skip (Token.gap c.rest)).position := by
  obtain ⟨cause, position⟩ := e
  unfold Fails
  constructor
  · rintro ⟨c', failed⟩
    rcases Reading.token_eq_error_iff.1 failed with ⟨ch, lexed, is, -⟩ | ⟨lexed, is, -⟩
    · cases is
      exact ⟨.inl ⟨ch, lexed, rfl⟩, rfl⟩
    · cases is
      exact ⟨.inr ⟨lexed, rfl⟩, rfl⟩
  · rintro ⟨⟨ch, lexed, rfl⟩ | ⟨lexed, rfl⟩, rfl⟩
    · exact ⟨_, Reading.token_eq_error_iff.2 (.inl ⟨ch, lexed, rfl, rfl⟩)⟩
    · exact ⟨_, Reading.token_eq_error_iff.2 (.inr ⟨lexed, rfl, rfl⟩)⟩

/-- The gap in front of a character, and what is behind the gap. -/
theorem gap_split {ch : Char} {behind : List Char} (left : cs.drop (Token.gap cs) = ch :: behind) :
    ∃ gap, cs = gap ++ ch :: behind ∧ Gap gap (ch :: behind) ∧ gap.length = Token.gap cs := by
  have between := gap_take cs
  have split := List.take_append_drop (Token.gap cs) cs
  rw [left] at between split
  refine ⟨cs.take (Token.gap cs), split.symm, between, List.length_take_of_le ?_⟩
  by_contra shorter
  rw [List.drop_of_length_le (Nat.le_of_lt (Nat.not_le.1 shorter))] at left
  cases left

/-- No token can be read exactly where none can start behind the gap, for that cause and at that
character's position. -/
theorem next_eq_error_iff :
    (∃ c', next c = .error e c') ↔ ∃ gap ch behind, c.rest = gap ++ ch :: behind ∧
      Gap gap (ch :: behind) ∧ Refused ch behind e.cause ∧
      e.position = (c.skip gap.length).position := by
  rw [next_eq_error_iff_fails]
  constructor
  · rintro ⟨fails, position⟩
    have stop := gap_drop_gap c.rest
    cases left : c.rest.drop (Token.gap c.rest) with
    | nil =>
      rw [left] at fails
      rcases fails with ⟨_, none, -⟩ | ⟨none, -⟩ <;> cases none
    | cons ch behind =>
      rw [left] at fails stop
      obtain ⟨gap, whole, between, length⟩ := gap_split left
      rw [← length] at position
      exact ⟨gap, ch, behind, whole, between, (refused_iff stop).2 fails, position⟩
  · rintro ⟨gap, ch, behind, whole, between, refused, position⟩
    have length : Token.gap c.rest = gap.length := by
      rw [whole]
      exact between.eq_length refused.gap_eq_zero
    have left : c.rest.drop gap.length = ch :: behind := by rw [whole, List.drop_left]
    rw [length, left]
    exact ⟨(refused_iff refused.gap_eq_zero).1 refused, position⟩

/-! ### A whole text -/

/-- Gaps and tokens stand one behind the other at the front of a text, and `left` behind them. -/
abbrev Tiles : List Char → List Token → List Char → Prop := InOrder Tile

/-- Of a text, `left` is the end, in which behind a gap no token starts, for the cause and at the
position of the error. -/
def Refuses (text : String) (left : List Char) (e : Error) : Prop :=
  ∃ gap ch behind k, left = gap ++ ch :: behind ∧ Gap gap (ch :: behind) ∧
    Refused ch behind e.cause ∧ Behind text k (ch :: behind) ∧ e.position = positionAt text k

/-- The token at the end of a text. -/
def endOf (text : String) : Token := ⟨.endOfFile, "", positionAt text text.utf8ByteSize⟩

theorem offset_of_nil (here : InPlace text c) (none : c.rest = []) :
    c.offset = text.utf8ByteSize := by
  obtain ⟨before, whole, offset⟩ := here.behind
  rw [none, List.append_nil] at whole
  rw [offset, ← whole, width_toList]

/-- In its place in a text a cursor can read no token exactly where the text refuses one. -/
theorem next_eq_error_iff_refuses (here : InPlace text c) :
    (∃ c', next c = .error e c') ↔ Refuses text c.rest e := by
  rw [next_eq_error_iff]
  constructor
  · rintro ⟨gap, ch, behind, whole, between, refused, position⟩
    have start := here.skip gap.length
    have left : (c.skip gap.length).rest = ch :: behind := by
      rw [Cursor.rest_skip, whole, List.drop_left]
    have place := start.behind
    rw [left] at place
    exact ⟨gap, ch, behind, _, whole, between, refused, place, position.trans start.position⟩
  · rintro ⟨gap, ch, behind, k, whole, between, refused, place, position⟩
    refine ⟨gap, ch, behind, whole, between, refused, ?_⟩
    have start := here.skip gap.length
    have left : (c.skip gap.length).rest = ch :: behind := by
      rw [Cursor.rest_skip, whole, List.drop_left]
    have same := start.behind
    rw [left] at same
    rw [position, start.position, place.unique same]

theorem skippable_inPlace : Skippable (InPlace text) := fun _ n here => here.skip n

/-- At the end of a text its last token stands as often as asked for. -/
theorem run_endOf (here : InPlace text c) (none : c.rest = []) (n : Nat) :
    Run c (List.replicate n (endOf text)) c := by
  have again : Stands c (endOf text) c := by
    rw [endOf, ← offset_of_nil here none, ← here.position]
    exact next_of_nil none
  induction n with
  | zero => exact .nil c
  | succ n ih => exact .cons again ih

/-- From a cursor in its place, tokens and gaps reach up to the end or to where no token starts. -/
theorem tiled_from (here : InPlace text c) :
    ∃ ts left, Tiles c.rest ts left ∧ (∀ t ∈ ts, t.kind ≠ .endOfFile) ∧
      ((Gap left [] ∧ Reading.all next (·.kind = .endOfFile) c = (ts ++ [endOf text], none) ∧
          ∃ c', c'.offset = text.utf8ByteSize ∧
            ∀ n, Run c (ts ++ List.replicate (n + 1) (endOf text)) c') ∨
        ∃ e, Refuses text left e ∧ Reading.all next (·.kind = .endOfFile) c = (ts, some e) ∧
          ∃ c₁ c', Run c ts c₁ ∧ next c₁ = .error e c') := by
  -- along the recursion of the reader: a failure, the end, or a token in front of the rest
  fun_induction Reading.all next (·.kind = .endOfFile) c with
  | case1 c e c' failed =>
    have refuses := (next_eq_error_iff_refuses here).1 ⟨c', failed⟩
    exact ⟨[], c.rest, .nil _, List.forall_mem_nil _, .inr ⟨e, refuses, rfl, c, c', .nil c, failed⟩⟩
  | case2 c t c' read last =>
    obtain ⟨between, none, behind, is⟩ := end_of_next read (of_decide_eq_true last)
    have here' : InPlace text c' := behind ▸ here.skip _
    have ending : t = endOf text := by rw [is, endOf, here'.position, offset_of_nil here' none]
    subst ending
    refine ⟨[], c.rest, .nil _, List.forall_mem_nil _,
      .inl ⟨between, rfl, c', offset_of_nil here' none, ?_⟩⟩
    intro n
    exact .cons read (run_endOf here' none n)
  | case3 c t c' read more less ts failure rest ih =>
    have other : t.kind ≠ .endOfFile := of_decide_eq_false (Bool.eq_false_iff.2 more)
    have here' : InPlace text c' := (keeps_next skippable_inPlace).of_ok here read
    obtain ⟨us, left, tiles, others, outcome⟩ := ih here'
    refine ⟨t :: us, left, .cons (tile_of_next read other) tiles,
      List.forall_mem_cons.2 ⟨other, others⟩, ?_⟩
    rcases outcome with ⟨between, all, c'', ending, run⟩ | ⟨e, refuses, all, c₁, c'', run, failed⟩
    · refine .inl ⟨between, ?_, c'', ending, fun n => .cons read (run n)⟩
      rw [all, Prod.mk.injEq] at rest
      obtain ⟨rfl, rfl⟩ := rest
      rfl
    · refine .inr ⟨e, refuses, ?_, c₁, c'', .cons read run, failed⟩
      rw [all, Prod.mk.injEq] at rest
      obtain ⟨rfl, rfl⟩ := rest
      rfl
  -- the reader would stop at a token without characters, but there is none
  | case4 c t c' read more notLess =>
    have other : t.kind ≠ .endOfFile := of_decide_eq_false (Bool.eq_false_iff.2 more)
    exact absurd (unread_next read other) notLess

/-- Reading tokens keeps a cursor in place. -/
theorem Run.inPlace {ts : List Token} (here : InPlace text c) (run : Run c ts c') :
    InPlace text c' := by
  induction run with
  | nil c => exact here
  | cons read _ ih => exact ih ((keeps_next skippable_inPlace).of_ok here read)

/-- Reading tokens one after the other loses nothing. The tokens of a text and the gaps in front of
them, spaces, tabs and line comments, are the text: either up to its end, which is then read as
often as asked for, or up to a square bracket or a quote that nothing closes where a token would
have to start. Such a place is the one reason for a failure, which tells the character and its
position. -/
theorem tiled_or_refused (text : String) :
    (∃ ts left, Tiles text.toList ts left ∧ (∀ t ∈ ts, t.kind ≠ .endOfFile) ∧
      ((Gap left [] ∧ all text = (ts ++ [endOf text], none) ∧
          ∃ c, c.offset = text.utf8ByteSize ∧
            ∀ n, Run (.ofString text) (ts ++ List.replicate (n + 1) (endOf text)) c) ∨
        ∃ e, Refuses text left e ∧ all text = (ts, some e) ∧
          ∃ c c', Run (.ofString text) ts c ∧ next c = .error e c')) ∧
    ∀ ts c, Run (.ofString text) ts c →
      ∀ e, (∃ c', next c = .error e c') ↔ Refuses text c.rest e := by
  have start := InPlace.ofString text
  constructor
  · exact tiled_from start
  · intro ts c run e
    exact next_eq_error_iff_refuses (Run.inPlace start run)

end Token

end Quaked
