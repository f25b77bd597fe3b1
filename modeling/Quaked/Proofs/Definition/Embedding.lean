import Quaked.Proofs.Definition.Single
import Quaked.Proofs.Selector.Layout

/-!
# A selector inside a definition

A text that is a selector by itself should mean the same as the only entry of a definition. It does,
whatever white space stands in front of it and in it, but what stands behind it is passed by the
tokens of the definition file: only spaces and tabs may separate the selector from its closing
parenthesis (`givesModel_iff`). With a line break there the preferred grammar fails.
-/

namespace Quaked.Definition

open Text Selector

/-- The file of a single clause has one class, which is a point class with the model, and no warning. -/
def GivesModel (settings : Settings) (t : String) (e : Selector) : Prop :=
  ∃ class' bounds, (File.read settings (singleClause t)).result = .ok [class'] ∧
    class'.shape = .point bounds (some e) ∧
    (File.read settings (singleClause t)).session.warnings = []

variable {t : String} {e : Selector}

/-- A selector in front of its closing parenthesis is read by the preferred grammar. -/
theorem reads_readEither (h : parse t = .ok e)
    (blanks : ∀ c ∈ trailingSpace t.toList, c = ' ' ∨ c = '\t') :
    Reads (ModelClause.readEither {}) (clauseText t) (· = ⟨e, none⟩) behindClause := by
  have front : Quaked.Token.front? (trailingSpace t.toList ++ ')' :: behindClause) =
      some ((.closeParen, ")"), behindClause) :=
    (Quaked.Token.front?_blanks blanks).trans (Quaked.Token.front?_closeParen _)
  have clause : Reads (ModelClause.readBy .expression) (clauseText t) (· = e) behindClause := by
    refine (reads_expression h behindClause).bind fun _ is => ?_
    exact (Quaked.Token.reads_nextOf front (by decide)).bind fun _ _ => .pure is
  intro c here
  obtain ⟨_, c', read, rfl, left⟩ := clause c here
  exact ⟨_, c', ModelClause.readEither_eq_ok_iff.2 (.inl ⟨_, read, rfl⟩), rfl, left⟩

/-- Spaces and tabs behind a selector do no harm. -/
theorem givesModel_of_blanks (color : Color) (h : parse t = .ok e)
    (blanks : ∀ c ∈ trailingSpace t.toList, c = ' ' ∨ c = '\t') : GivesModel ⟨{}, color⟩ t e := by
  let settings : Settings := ⟨{}, color⟩
  have clause : Reads (ModelClause.readEither settings.dialect) (clauseText t) (· = ⟨e, none⟩)
      behindClause := reads_readEither h blanks
  obtain ⟨_, class', bounds, result, shape, rfl, warnings⟩ := read_singleClause clause
  exact ⟨class', bounds, result, shape, warnings⟩

/-- Other white space behind a selector is not passed. -/
theorem blanks_of_givesModel (color : Color) (h : parse t = .ok e) {e' : Selector}
    (gives : GivesModel ⟨{}, color⟩ t e') : ∀ c ∈ trailingSpace t.toList, c = ' ' ∨ c = '\t' := by
  obtain ⟨class', bounds, result, -, silent⟩ := gives
  obtain ⟨c, e', c', here, read⟩ := clause_of_singleClause result silent
  obtain ⟨_, c₁, expression, rest⟩ := bind_eq_ok_iff.1 read
  obtain ⟨_, c₂, closed, -⟩ := bind_eq_ok_iff.1 rest
  obtain ⟨_, c₃, expression', -, left⟩ := reads_expression h behindClause c here
  rw [show Grammar.expression c = _ from expression] at expression'
  cases expression'
  obtain ⟨next, mem⟩ := Quaked.Token.next_of_nextOf closed
  have front := Quaked.Token.front?_of_next next
  rw [left, List.mem_singleton.1 mem] at front
  exact Quaked.Token.blanks_of_front?_closeParen (fun c => isSpace_of_mem_trailingSpace) front

/-- A selector means the same inside a definition exactly if the white space behind it is spaces and
tabs. -/
theorem givesModel_iff (color : Color) (h : parse t = .ok e) :
    GivesModel ⟨{}, color⟩ t e ↔ ∀ c ∈ trailingSpace t.toList, c = ' ' ∨ c = '\t' := by
  constructor
  · exact blanks_of_givesModel color h
  · exact givesModel_of_blanks color h

/-- A line break in front of a selector and a space behind it do no harm. -/
theorem givesModel_of_leading_line_break :
    parse "\n\"a.mdl\" " = .ok (.string "a.mdl") ∧
      GivesModel ⟨{}, .gray⟩ "\n\"a.mdl\" " (.string "a.mdl") := by
  have parsed : parse "\n\"a.mdl\" " = .ok (.string "a.mdl") :=
    parse_string "a.mdl" (by decide) (by decide)
  have behind : trailingSpace "\n\"a.mdl\" ".toList = [' '] := by decide
  have blanks : ∀ c ∈ trailingSpace "\n\"a.mdl\" ".toList, c = ' ' ∨ c = '\t' := by
    intro c mem
    rw [behind] at mem
    exact .inl (List.mem_singleton.1 mem)
  exact ⟨parsed, (givesModel_iff .gray parsed).2 blanks⟩

/-- A line break behind a selector does. -/
theorem not_givesModel_of_trailing_line_break :
    parse "\"a.mdl\"\n" = .ok (.string "a.mdl") ∧
      ¬ GivesModel ⟨{}, .gray⟩ "\"a.mdl\"\n" (.string "a.mdl") := by
  have parsed : parse "\"a.mdl\"\n" = .ok (.string "a.mdl") :=
    parse_string "a.mdl" (by decide) (by decide)
  refine ⟨parsed, fun gives => ?_⟩
  have blanks := blanks_of_givesModel .gray parsed gives '\n' (by decide)
  exact absurd blanks (by decide)

end Quaked.Definition
