import Quaked.Proofs.Selector.HandOff
import Quaked.Proofs.Token.Runs

/-!
# Quoting

Writing a string in quotes puts a backslash in front of every quote and every backslash in it. Both lexers
take a backslash and what stands behind it for two characters of the string, whatever they are, so of the
quotes that are written only the last one ends the string; and of the backslashes only those are taken away
that were put in.

* `quoting_undone`: what was written is read.
-/

namespace Quaked

open Text

/-- A string written in quotes is closed by the last of them, whatever follows. -/
theorem spellString_append (v : String) (r : List Char) :
    Value.spellString v ++ r = '"' :: (escape v.toList ++ '"' :: r) := by
  simp [Value.spellString]

/-- Wherever a string is written in quotes in a text, and whatever follows, both lexers read a quoted string
there, which ends with the quote that was written last and stands for the string. -/
theorem quoting_undone (before v behind : String) :
    let quoted := String.ofList (Value.spellString v)
    let c := (Cursor.ofString (before ++ quoted ++ behind)).skip before.length
    (∃ t c', Token.next c = .ok t c' ∧ t.kind = .quoted ∧ t.value = v ∧ t.position = c.position ∧
      Spans c quoted c' ∧ c'.rest = behind.toList) ∧
    ∃ t c', Selector.Token.next c = .ok t c' ∧ t.kind = .string ∧ Selector.Grammar.unquoted t = v ∧
      t.position = c.position ∧ Spans c quoted c' ∧ c'.rest = behind.toList := by
  intro quoted c
  have here : c.rest = quoted.toList ++ behind.toList := by
    have start : (Cursor.ofString (before ++ quoted ++ behind)).rest =
        before.toList ++ (quoted.toList ++ behind.toList) := by
      rw [← List.append_assoc, ← String.toList_append, ← String.toList_append]
      rfl
    exact (spans_of_append start).2
  obtain ⟨spans, left⟩ := spans_of_append here
  have length : quoted.length = (escape v.toList).length + 2 := by
    rw [String.length_ofList, Value.spellString, List.length_append]
    rfl
  rw [length] at spans left
  have written : c.rest = '"' :: (escape v.toList ++ '"' :: behind.toList) := by
    rw [here, String.toList_ofList, spellString_append]
  have back : String.ofList (unescape (String.ofList (escape v.toList)).toList) = v := by
    rw [String.toList_ofList, unescape_escape, String.ofList_toList]
  have valid := inside_escape v.toList
  let c' := c.skip ((escape v.toList).length + 2)
  have read : Token.next c = .ok ⟨.quoted, String.ofList (escape v.toList), c.position⟩ c' := by
    rw [← textOf_true]
    exact Token.quotes_lexeme.token_of_inside written rfl valid
  have read' : Selector.Token.next c = .ok ⟨.string, String.ofList (escape v.toList), c.position⟩ c' := by
    rw [← textOf_true]
    exact Selector.Token.quotes_lexeme.token_of_inside written rfl valid
  exact ⟨⟨_, _, read, rfl, back, rfl, spans, left⟩, ⟨_, _, read', rfl, back, rfl, spans, left⟩⟩

end Quaked
