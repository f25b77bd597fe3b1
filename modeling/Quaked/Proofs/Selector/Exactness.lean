import Quaked.Proofs.Selector.Completeness
import Quaked.Proofs.Selector.Lexing

/-!
# A selector is what its tokens derive

Soundness and completeness meet: a text is read as a selector exactly if its tokens up to the end
derive it (`parse_exact`), and they derive no other. `parse_eq_ok_iff` says the same of a cursor's
run, for what is read in the middle of a text.
-/

namespace Quaked.Selector

open Text TokenSource

/-- A text is a selector if its cursor reads a derivation and then the end. -/
theorem parse_eq_ok_iff {text : String} {e : Selector} :
    parse text = .ok e ↔ ∃ ts last c c', Yields (.ofString text) ts c ∧
      Token.next c = .ok last c' ∧ last.kind = .endOfInput ∧ Derives ts (.operand 1 e) := by
  unfold parse
  constructor
  · intro h
    dsimp only at h
    split at h
    · rename_i e' c' read
      cases h
      obtain ⟨e', c, expression, rest⟩ := bind_eq_ok_iff.1 read
      obtain ⟨last, c₂, ending, rest⟩ := bind_eq_ok_iff.1 rest
      obtain ⟨rfl, rfl⟩ := pure_eq_ok_iff.1 rest
      obtain ⟨read, kind⟩ := nextOf_eq_ok_iff.1 ending
      obtain ⟨ts, run, derived⟩ := Grammar.sound_expression expression
      exact ⟨ts, last, c, c₂, run, read, kind, derived⟩
    · cases h
  · rintro ⟨ts, last, c, c', run, read, kind, derived⟩
    have stop : Follows (Token.Kind.stops 1) c :=
      .of_next read (Token.Kind.stops_one_of (by simp [kind]))
    have expression := Grammar.expression_of_derives derived run stop
    have ending : nextOf .endOfInput c = .ok last c' := nextOf_eq_ok_iff.2 ⟨read, kind⟩
    dsimp only
    rw [bind_of_ok expression, bind_of_ok ending]
    rfl

/-- A text is read as a selector exactly if its tokens can be made up to the end and derive it, and
no tokens derive two selectors. -/
theorem parse_exact :
    (∀ (text : String) (e : Selector), parse text = .ok e ↔ ∃ ts last,
      Token.all text = (ts ++ [last], none) ∧ last.kind = .endOfInput ∧
        Derives ts (.operand 1 e)) ∧
    ∀ (ts : List Token) (a b : Selector),
      Derives ts (.operand 1 a) → Derives ts (.operand 1 b) → a = b := by
  refine ⟨?_, fun ts a b => Derives.unambiguous⟩
  intro text e
  rw [parse_eq_ok_iff]
  constructor
  · rintro ⟨ts, last, c, c', run, read, kind, derived⟩
    obtain ⟨all, -⟩ := all_eq_iff.2 ⟨c, c', run, read, kind⟩
    exact ⟨ts, last, all, kind, derived⟩
  · rintro ⟨ts, last, all, kind, derived⟩
    obtain ⟨c, c', run, read, -⟩ := all_eq_iff.1 ⟨all, kind⟩
    exact ⟨ts, last, c, c', run, read, kind, derived⟩

/-- Three tokens, what they derive, and that they derive nothing else. -/
theorem parse_two_names :
    parse "a||b" = .ok (.binary .or (.lookup "a") (.lookup "b")) ∧
    ∀ e, Derives [⟨.name, "a", ⟨1, 1⟩⟩, ⟨.or, "||", ⟨1, 2⟩⟩, ⟨.name, "b", ⟨1, 4⟩⟩] (.operand 1 e) →
      e = .binary .or (.lookup "a") (.lookup "b") := by
  have left : Derives [⟨.name, "a", ⟨1, 1⟩⟩] (.operand 2 (.lookup "a")) :=
    .level (by decide) (.level (by decide) (.level (by decide) (.level (by decide) (.lookup rfl))))
  have right : Derives [⟨.name, "b", ⟨1, 4⟩⟩] (.operand 2 (.lookup "b")) :=
    .level (by decide) (.level (by decide) (.level (by decide) (.level (by decide) (.lookup rfl))))
  have derived : Derives [⟨.name, "a", ⟨1, 1⟩⟩, ⟨.or, "||", ⟨1, 2⟩⟩, ⟨.name, "b", ⟨1, 4⟩⟩]
      (.operand 1 (.binary .or (.lookup "a") (.lookup "b"))) :=
    .or (.level (by decide) left) rfl right
  have run : Yields (Cursor.ofString "a||b")
      [⟨.name, "a", ⟨1, 1⟩⟩, ⟨.or, "||", ⟨1, 2⟩⟩, ⟨.name, "b", ⟨1, 4⟩⟩] (⟨4, ⟨1, 5⟩, 4, []⟩ : Cursor) :=
    .cons rfl (by decide) (.cons rfl (by decide) (.cons rfl (by decide) (.nil _)))
  obtain ⟨all, -⟩ := all_eq_iff.2 ⟨_, _, run, rfl, rfl⟩
  refine ⟨(parse_exact.1 _ _).2 ⟨_, _, all, rfl, derived⟩, ?_⟩
  intro e other
  exact parse_exact.2 _ _ _ other derived

end Quaked.Selector
