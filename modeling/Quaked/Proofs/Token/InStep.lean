import Quaked.Proofs.InStep
import Quaked.Proofs.Selector.Derivation
import Quaked.Proofs.Token.Runs
import Quaked.Proofs.Token.Tiling

/-!
# Tokens in step

Two cursors are *aligned* by a relation if the same characters are left at both and skipping keeps
them related. Readers of tokens only look at what is left and only move by skipping, so at aligned
cursors they find the same tokens, with positions that are those of aligned cursors, or fail for the
same cause at such positions. What is found at the cursor of a failure is what the cause says
(`Found`): the lexer of definitions and the lexer of selectors both tell the truth.
-/

namespace Quaked

open Text

/-- Related cursors have the same left to read, and skipping keeps them related. -/
structure Aligned (R : Cursor → Cursor → Prop) : Prop where
  rest : ∀ {c d}, R c d → d.rest = c.rest
  skip : ∀ {c d} (n : Nat), R c d → R (c.skip n) (d.skip n)

theorem Aligned.unread {R : Cursor → Cursor → Prop} (aligned : Aligned R) (c d : Cursor)
    (h : R c d) : d.unread = c.unread := by
  rw [Cursor.unread, aligned.rest h, Cursor.unread]

/-- A cursor that is such as described, related to itself alone. -/
def Only (P : Cursor → Prop) (c d : Cursor) : Prop := d = c ∧ P c

/-- What skipping keeps aligns a cursor with itself. -/
theorem aligned_only {P : Cursor → Prop} (skips : Skippable P) : Aligned (Only P) where
  rest related := related.1 ▸ rfl
  skip n related := by
    obtain ⟨rfl, holds⟩ := related
    exact ⟨rfl, skips _ n holds⟩

/-- The positions are those of related cursors, the first of which is such as described. -/
def Marks (R : Cursor → Cursor → Prop) (P : Cursor → Prop) (p q : Position) : Prop :=
  ∃ c d, R c d ∧ P c ∧ p = c.position ∧ q = d.position

/-- The token starts right at the cursor. -/
def Token.At (t : Token) (c : Cursor) : Prop := t.position = c.position ∧ ∃ c', Stands c t c'

/-- The token of a selector starts right at the cursor. -/
def Selector.Token.At (t : Token) (c : Cursor) : Prop :=
  t.position = c.position ∧ ∃ c', next c = .ok t c'

/-- A token of a definition file stands at the cursor, and is none of those that are expected. Both are
said as in messages. -/
inductive Token.Unexpected (c : Cursor) : List String → String → Prop where
  | mk {t : Token} {kinds : List Token.Kind} (here : t.At c) (other : t.kind ∉ kinds) :
    Unexpected c (kinds.map Token.Kind.name) t.description

/-- A token of a selector stands at the cursor, and is not the one that is expected, or none that an
expression starts with. -/
inductive Selector.Token.Unexpected (c : Cursor) : List String → String → Prop where
  | other {t : Token} {kind : Kind} (here : t.At c) (other : t.kind ≠ kind) :
    Unexpected c [kind.title] t.description
  | noExpression {t : Token} (here : t.At c) (none : ∀ ts e, ¬ Derives (t :: ts) (.operand 1 e)) :
    Unexpected c ["expression"] t.description

/-- In a definition file there are tokens of either lexer. -/
inductive Unexpected (c : Cursor) (expected : List String) (found : String) : Prop where
  | definition (h : Token.Unexpected c expected found)
  | selector (h : Selector.Token.Unexpected c expected found)

/-- The cause is found at the cursor, where a token is such as described. -/
inductive Found (T : Cursor → List String → String → Prop) (c : Cursor) : Cause → Prop where
  | character {ch : Char} (here : c.rest.head? = some ch) : Found T c (.unexpectedCharacter ch)
  | unterminated {behind : List Char} (here : c.rest = '"' :: behind)
    (endless : interior? behind = none) : Found T c .unterminatedString
  | token {expected : List String} {found : String} (here : T c expected found) :
    Found T c (.unexpectedToken expected found)
  | invalid (complaint : Complaint) : Found T c (.invalid complaint)

/-- Both failures have one cause, which is found at the first of related cursors, where they are. -/
def BlamesBy (T : Cursor → List String → String → Prop) (R : Cursor → Cursor → Prop) (e e' : Error) : Prop :=
  e'.cause = e.cause ∧ Marks R (Found T · e.cause) e.position e'.position

/-- Failures of reading a definition file that have one cause. -/
abbrev Blames := BlamesBy Unexpected

/-- Failures of reading a selector that have one cause. -/
abbrev Selector.Blames := BlamesBy Selector.Token.Unexpected

variable {T T' : Cursor → List String → String → Prop} {R R' : Cursor → Cursor → Prop}
  {P Q : Cursor → Prop} {p q : Position} {c d : Cursor}

theorem Marks.mono (h : Marks R P p q) (sub : ∀ {c d}, R c d → R' c d) (imp : ∀ {c}, P c → Q c) :
    Marks R' Q p q := by
  obtain ⟨c, d, related, holds, rfl, rfl⟩ := h
  exact ⟨c, d, sub related, imp holds, rfl, rfl⟩

theorem Marks.of_related (related : R c d) (holds : P c) : Marks R P c.position d.position :=
  ⟨c, d, related, holds, rfl, rfl⟩

theorem Found.mono {cause : Cause} (h : Found T c cause)
    (imp : ∀ {expected found}, T c expected found → T' c expected found) : Found T' c cause := by
  cases h with
  | character here => exact .character here
  | unterminated here endless => exact .unterminated here endless
  | token here => exact .token (imp here)
  | invalid complaint => exact .invalid complaint

theorem BlamesBy.mono {e e' : Error} (h : BlamesBy T R e e') (sub : ∀ {c d}, R c d → R' c d) :
    BlamesBy T R' e e' :=
  ⟨h.1, h.2.mono sub id⟩

/-- What selectors fail for, definitions may fail for. -/
theorem Selector.blames {e e' : Error} (h : Selector.Blames R e e') : Quaked.Blames R e e' :=
  ⟨h.1, h.2.mono id (·.mono .selector)⟩

theorem BlamesBy.of_found {cause : Cause} (h : Marks R (Found T · cause) p q) :
    BlamesBy T R ⟨cause, p⟩ ⟨cause, q⟩ :=
  ⟨rfl, h⟩

/-- A position that is marked on itself is marked once. -/
theorem Marks.eq_of_only (h : Marks (Only P) Q p q) : q = p := by
  obtain ⟨c, _, ⟨rfl, -⟩, -, rfl, rfl⟩ := h
  rfl

theorem BlamesBy.eq_of_only {e e' : Error} (h : BlamesBy T (Only P) e e') : e' = e := by
  obtain ⟨cause, position⟩ := e
  obtain ⟨cause', position'⟩ := e'
  obtain ⟨rfl, marks⟩ := h
  cases marks.eq_of_only
  rfl

/-- Results that agree where a cursor is related to itself alone are the same. -/
theorem Text.Agree.eq_of_only {ε α : Type} {r r' : EStateM.Result ε Cursor α}
    (h : Agree (Only P) Eq Eq r r') : r = r' := by
  cases h with
  | ok answers states =>
    obtain ⟨rfl, -⟩ := states
    rw [answers]
  | error failures states =>
    obtain ⟨rfl, -⟩ := states
    rw [failures]

/-- A reader is in step with one that does the same wherever a cursor is such as described, and keeps
it so. -/
theorem Text.InStep.of_same {ε α : Type} {x y : EStateM ε Cursor α} (keeps : Keeps P x)
    (same : ∀ c, P c → y c = x c) : InStep (Only P) Eq Eq y x := by
  rintro _ c ⟨rfl, holds⟩
  have behind := keeps c holds
  rw [same c holds]
  cases run : x c with
  | ok a c' =>
    rw [run] at behind
    exact .ok rfl ⟨rfl, behind⟩
  | error e c' =>
    rw [run] at behind
    exact .error rfl ⟨rfl, behind⟩

/-- A reader that fails for a complaint about what stands at related cursors is in step. -/
theorem Text.InStep.complain {α : Type} {A : α → α → Prop} (complaint : Complaint)
    (marks : Marks R P p q) :
    InStep R (BlamesBy T R) A (Reading.fail (.invalid complaint) p)
      (Reading.fail (.invalid complaint) q) :=
  fun _ _ related => .error (.of_found (marks.mono id fun _ => .invalid complaint)) related

namespace Token

variable {t t' : Token} {kinds : List Kind} {cs : List Char}

/-- Both tokens are the same but for their positions, which are those of related cursors, and the
first one starts there. -/
def Same (R : Cursor → Cursor → Prop) (t t' : Token) : Prop :=
  Marks R t.At t.position t'.position ∧ t' = { t with position := t'.position }

theorem Same.kind (h : Same R t t') : t'.kind = t.kind := by rw [h.2]

theorem Same.text (h : Same R t t') : t'.text = t.text := by rw [h.2]

theorem Same.value (h : Same R t t') : t'.value = t.value := by
  rw [Token.value, h.text, Token.value]

theorem Same.isOneOf (h : Same R t t') : t'.isOneOf kinds = t.isOneOf kinds := by
  rw [Token.isOneOf, h.kind, Token.isOneOf]

theorem Same.description (h : Same R t t') : t'.description = t.description := by
  rw [Token.description, h.kind, h.text, Token.description]

/-- A token of none of the kinds is to blame where it stands. -/
theorem Same.blames (h : Same R t t') (other : t.kind ∉ kinds) :
    Blames R (mismatch kinds t) (mismatch kinds t') := by
  unfold mismatch
  rw [h.description]
  exact .of_found (h.1.mono id fun here => .token (.definition (.mk here other)))

/-- Behind the gap stands what stands in front of it. -/
theorem next_skip_gap (c : Cursor) : next (c.skip (gap c.rest)) = next c :=
  Reading.token_skip_gap (gap_drop_gap c.rest)

/-- A token starts behind the gap. -/
theorem at_of_stands {c' : Cursor} (h : Stands c t c') : t.At (c.skip (gap c.rest)) := by
  refine ⟨?_, c', (next_skip_gap c).trans h⟩
  obtain ⟨kind, n, -, rfl, -⟩ := next_eq_ok_iff.1 h
  rfl

theorem head?_of_lexeme_unexpected {ch : Char} (stop : gap cs = 0)
    (h : lexeme cs = .unexpected ch) : cs.head? = some ch := by
  cases cs with
  | nil => cases h
  | cons first behind =>
    cases (refused_iff stop).2 (.inl ⟨ch, h, rfl⟩) with
    | openBracket => rfl
    | closeBracket => rfl

theorem quote_of_lexeme_unterminated (stop : gap cs = 0) (h : lexeme cs = .unterminated) :
    ∃ behind, cs = '"' :: behind ∧ interior? behind = none := by
  cases cs with
  | nil => cases h
  | cons first behind =>
    cases (refused_iff stop).2 (.inr ⟨h, rfl⟩) with
    | quote endless =>
      refine ⟨behind, rfl, ?_⟩
      cases inner : interior? behind with
      | none => rfl
      | some n => exact absurd (closed_iff.2 ⟨n, inner⟩) endless

variable (aligned : Aligned R)
include aligned

/-- The token of a cursor stands at a related one too, and starts at related cursors. -/
theorem Stands.transfer {c' : Cursor} (related : R c d) (h : Stands c t c') :
    ∃ c₀ d₀ d', R c₀ d₀ ∧ t.position = c₀.position ∧ Stands c₀ t c' ∧
      Stands d { t with position := d₀.position } d' ∧ R c' d' := by
  have start := aligned.skip (gap c.rest) related
  have here := at_of_stands h
  have behind := (next_skip_gap c).trans h
  obtain ⟨kind, n, lexed, rfl, rfl⟩ := next_eq_ok_iff.1 h
  refine ⟨_, _, (d.skip (gap c.rest)).skip n, start, here.1, behind, ?_, aligned.skip n start⟩
  refine next_eq_ok_iff.2 ⟨kind, n, ?_, ?_, ?_⟩
  · rw [aligned.rest related]
    exact lexed
  · rw [aligned.rest related]
  · rw [aligned.rest related]

/-- So does the next one that is no line break. -/
theorem StandsPast.transfer {c' : Cursor} (related : R c d) (h : StandsPast c t c') :
    ∃ c₀ d₀ d', R c₀ d₀ ∧ t.position = c₀.position ∧ Stands c₀ t c' ∧
      StandsPast d { t with position := d₀.position } d' ∧ R c' d' := by
  induction h generalizing d with
  | here read other =>
    obtain ⟨c₀, d₀, d', start, here, stands, read', related'⟩ := read.transfer aligned related
    exact ⟨c₀, d₀, d', start, here, stands, .here read' other, related'⟩
  | behind read newline _ ih =>
    obtain ⟨_, _, d₁, -, -, -, read', related₁⟩ := read.transfer aligned related
    obtain ⟨c₀, d₀, d', start, here, stands, rest, related'⟩ := ih related₁
    exact ⟨c₀, d₀, d', start, here, stands, .behind read' newline rest, related'⟩

/-- At related cursors the same token is read, or none for the same cause. -/
theorem inStep_next : InStep R (Blames R) (Same R) next next := by
  intro c d related
  cases run : next c with
  | ok t c' =>
    obtain ⟨c₀, d₀, d', start, here, stands, run', related'⟩ := Stands.transfer aligned related run
    rw [show next d = _ from run']
    exact .ok ⟨⟨c₀, d₀, start, ⟨here, c', stands⟩, here, rfl⟩, rfl⟩ related'
  | error e c' =>
    have start := aligned.skip (gap c.rest) related
    have stop : gap (c.skip (gap c.rest)).rest = 0 := by rw [Cursor.rest_skip, gap_drop_gap]
    unfold next Reading.token at run ⊢
    dsimp only at run ⊢
    rw [aligned.rest related, aligned.rest start]
    split at run
    · cases run
    · rename_i ch lexed
      cases run
      exact .error (.of_found (.of_related start
        (.character (head?_of_lexeme_unexpected stop lexed)))) start
    · rename_i lexed
      cases run
      obtain ⟨behind, quote, endless⟩ := quote_of_lexeme_unterminated stop lexed
      refine .error (.of_found (.of_related start (.unterminated quote endless))) ?_
      rw [Cursor.toEnd, Cursor.toEnd, aligned.unread _ _ start]
      exact aligned.skip _ start

theorem inStep_peek : InStep R (Blames R) (Same R) peek peek := (inStep_next aligned).ahead

omit aligned in
theorem inStep_expect (kinds : List Kind) (h : Same R t t') :
    InStep R (Blames R) (Same R) (expect kinds t) (expect kinds t') := by
  unfold expect
  rw [h.isOneOf]
  split
  · exact .pure h
  · rename_i other
    exact fun _ _ related => .error (h.blames fun mem => other (decide_eq_true mem)) related

theorem inStep_nextOf (kinds : List Kind) :
    InStep R (Blames R) (Same R) (nextOf kinds) (nextOf kinds) :=
  (inStep_next aligned).bind fun _ _ => inStep_expect kinds

theorem inStep_peekOf (kinds : List Kind) :
    InStep R (Blames R) (Same R) (peekOf kinds) (peekOf kinds) :=
  (inStep_peek aligned).bind fun _ _ => inStep_expect kinds

theorem inStep_skipNewlines : InStep R (Blames R) Eq skipNewlines skipNewlines := by
  unfold skipNewlines
  refine .iterate_eq aligned.unread (fun _ => ?_) ()
  refine (inStep_peek aligned).bind fun t t' same => ?_
  rw [same.kind]
  split
  · exact (inStep_next aligned).bind fun _ _ _ => .pure rfl
  · exact .pure rfl

theorem inStep_nextOfPastNewlines (kinds : List Kind) :
    InStep R (Blames R) (Same R) (nextOfPastNewlines kinds) (nextOfPastNewlines kinds) :=
  (inStep_skipNewlines aligned).bind_eq fun _ => inStep_nextOf aligned kinds

theorem inStep_peekPastNewlines :
    InStep R (Blames R) (Same R) peekPastNewlines peekPastNewlines :=
  (inStep_skipNewlines aligned).bind_eq fun _ => inStep_peek aligned

end Token
end Quaked
