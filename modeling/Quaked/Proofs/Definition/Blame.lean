import Quaked.Proofs.Definition.Bases
import Quaked.Proofs.Definition.InStep

/-!
# Positions tell the truth

Every failure and every warning has the position of a place in the text, and there stands what it is
about: the character that starts no token, the quote that nothing closes, the token that was found in
place of those expected, the word of the reference, the selector behind its parenthesis. A session is
put in step with itself, at cursors that are in their place, so nothing is left to say but that reading
starts in such a place (`Reached.placed`).
-/

namespace Quaked

open Text

/-- The position is that of a place in the text, between two of its characters or at one of its ends,
and the cursor there is such as described. -/
def Points (text : String) (P : Cursor → Prop) (p : Position) : Prop :=
  ∃ c, InPlace text c ∧ (⟨c.offset⟩ : String.Pos.Raw).IsValid text ∧ c.offset ≤ text.utf8ByteSize ∧
    p = positionAt text c.offset ∧ P c

/-- What a notice is about stands at the cursor: the reference to the base, or the selector right
behind the parenthesis that follows the word `model` of the text. -/
inductive Notice.About (text : String) (c : Cursor) : Notice → Prop where
  | unknownBase {name : String} (refers : Refers name c) : About text c (.unknownBase name)
  | replaceable {e : Selector} {word opening : Token} {c₀ c₁ : Cursor} (place : InPlace text c₀)
    (named : Token.Stands c₀ word c₁) (isWord : word.kind = .word) (is : word.text = "model")
    (opened : Token.Stands c₁ opening c) (opens : opening.kind = .openParen) :
    About text c (.replaceable e)

/-- The failure is found where its position points, where a token is such as described. -/
def Error.Grounded (T : Cursor → List String → String → Prop) (text : String) (e : Error) : Prop :=
  Points text (Found T · e.cause) e.position

/-- What the warning is about stands where its position points. -/
def Warning.Grounded (text : String) (w : Warning) : Prop :=
  Points text (Notice.About text · w.notice) w.position

variable {text : String} {T : Cursor → List String → String → Prop} {P Q : Cursor → Prop} {p q : Position}

theorem Marks.points (h : Marks (Only (InPlace text)) P p q) (imp : ∀ {c}, P c → Q c) : Points text Q p := by
  obtain ⟨c, d, ⟨-, place⟩, holds, rfl, -⟩ := h
  exact ⟨c, place, place.isValid, place.behind.le, place.position, imp holds⟩

theorem BlamesBy.grounded {e e' : Error} (h : BlamesBy T (Only (InPlace text)) e e') : e.Grounded T text :=
  h.2.points id

theorem SameWarning.grounded {w w' : Warning} (h : SameWarning (Only (InPlace text)) w w') :
    w.Grounded text := by
  cases h with
  | unknownBase marks => exact marks.points fun refers => .unknownBase refers
  | replaceable e marks =>
    refine marks.points fun opens => ?_
    cases opens with
    | mk related named isWord is opened opens =>
      exact .replaceable related.2 named isWord is opened opens

theorem SameSession.grounded {s s' : Session} (h : SameSession (Only (InPlace text)) [] [] s s') :
    ∀ w ∈ s.warnings, w.Grounded text := by
  obtain ⟨added, added', is, -, same⟩ := h.warnings
  rw [is, List.nil_append]
  clear is
  induction same with
  | nil => exact nofun
  | cons head _ ih => exact List.forall_mem_cons.2 ⟨head.grounded, ih⟩

/-- Readers in step with themselves at places of the text fail for grounds. -/
theorem Text.InStep.grounded {σ α : Type} {R : σ → σ → Prop} {A : α → α → Prop}
    {x : EStateM Error σ α} {s s' : σ} {e : Error}
    (h : InStep R (BlamesBy T (Only (InPlace text))) A x x) (related : R s s)
    (failed : x s = .error e s') : e.Grounded T text := by
  have both := h s s related
  rw [failed] at both
  obtain ⟨e', t, same, blames, -⟩ := both.of_error
  cases same
  exact blames.grounded

/-- A selector by itself fails for grounds. -/
theorem Selector.grounded_of_parse {e : Error} (failed : Selector.parse text = .error e) :
    e.Grounded Selector.Token.Unexpected text := by
  have aligned : Aligned (Only (InPlace text)) := aligned_only Token.skippable_inPlace
  have whole : InStep (Only (InPlace text)) (Selector.Blames (Only (InPlace text))) Eq
      (do
        let e ← Selector.Grammar.expression
        let _ ← Selector.TokenSource.nextOf .endOfInput
        return e : Reading Selector)
      (do
        let e ← Selector.Grammar.expression
        let _ ← Selector.TokenSource.nextOf .endOfInput
        return e) :=
    (Selector.Grammar.inStep_expression aligned).bind_eq fun _ =>
      (Selector.inStep_nextOf aligned _).bind fun _ _ _ => .pure rfl
  unfold Selector.parse at failed
  dsimp only at failed
  split at failed
  · cases failed
  · rename_i run
    cases failed
    exact whole.grounded ⟨rfl, .ofString text⟩ run

namespace Definition

variable {settings : Settings} {s s' : Session}

theorem placed_ofString (text : String) :
    SameSession (Only (InPlace text)) [] [] (.ofString text) (.ofString text) where
  cursor := ⟨rfl, .ofString text⟩
  bases := rfl
  warnings := ⟨[], [], rfl, rfl, .nil⟩

/-- The sessions that are reached are in step with themselves. -/
theorem Reached.placed (h : Reached settings text s) : SameSession (Only (InPlace text)) [] [] s s := by
  induction h with
  | start => exact placed_ofString text
  | call _ ih => exact (inStep_next (aligned_only Token.skippable_inPlace) settings _ _ ih).final

/-- So is the session behind a whole file. -/
theorem placed_read (settings : Settings) (text : String) :
    SameSession (Only (InPlace text)) [] [] (File.read settings text).session
      (File.read settings text).session := by
  have behind := (inStep_entities (aligned_only Token.skippable_inPlace) settings _ _
    (placed_ofString text)).final
  unfold File.read
  cases run : entities settings (.ofString text) with
  | ok es s =>
    rw [run] at behind
    exact behind
  | error e s =>
    rw [run] at behind
    exact behind

/-- A whole file fails for grounds. -/
theorem grounded_of_read {e : Error} (failed : (File.read settings text).result = .error e) :
    e.Grounded Unexpected text := by
  unfold File.read at failed
  cases run : entities settings (.ofString text) with
  | ok es s =>
    rw [run] at failed
    cases failed
  | error e s =>
    rw [run] at failed
    cases failed
    exact (inStep_entities (aligned_only Token.skippable_inPlace) settings).grounded
      (placed_ofString text) run

/-- The position of every failure and of every warning is one of the text, at which there stands what
it says: behind any number of definitions, of which some may have failed, in a whole file, and for a
selector by itself. -/
theorem grounded_of_text (settings : Settings) (text : String) :
    (∀ s, Reached settings text s → (∀ w ∈ s.warnings, w.Grounded text) ∧
      ∀ e s', next settings s = .error e s' → e.Grounded Unexpected text) ∧
    (∀ w ∈ (File.read settings text).session.warnings, w.Grounded text) ∧
    (∀ e, (File.read settings text).result = .error e → e.Grounded Unexpected text) ∧
    ∀ e, Selector.parse text = .error e → e.Grounded Selector.Token.Unexpected text := by
  refine ⟨?_, ?_, ?_, ?_⟩
  · intro s reached
    refine ⟨reached.placed.grounded, ?_⟩
    intro e s' failed
    exact (inStep_next (aligned_only Token.skippable_inPlace) settings).grounded reached.placed failed
  · exact (placed_read settings text).grounded
  · intro e failed
    exact grounded_of_read failed
  · intro e failed
    exact Selector.grounded_of_parse failed

end Definition
end Quaked
