/-!
# Quoted strings

Inside quotes a backslash protects the next character from ending the string. When the string is
taken up, `\"` stands for a quote and `\\` for a backslash; before any other character a backslash
stands for itself, because model paths are full of them.

* `unescape_escape`: what `escape` writes is read back as it was.
-/

namespace Quaked.Text

/-- How many characters lie between an opening quote, which has been read, and its closing quote.
There is no answer when the text ends first. -/
def interior? : List Char → Option Nat
  | [] => none
  | '"' :: _ => some 0
  | '\\' :: _ :: cs => (interior? cs).map (· + 2)
  | _ :: cs => (interior? cs).map (· + 1)

/-- The characters that a string's interior stands for. -/
def unescape : List Char → List Char
  | '\\' :: '"' :: cs => '"' :: unescape cs
  | '\\' :: '\\' :: cs => '\\' :: unescape cs
  | c :: cs => c :: unescape cs
  | [] => []

/-- An interior that stands for the given characters. -/
def escape : List Char → List Char
  | [] => []
  | c :: cs => if c = '"' ∨ c = '\\' then '\\' :: c :: escape cs else c :: escape cs

theorem unescape_escape (s : List Char) : unescape (escape s) = s := by
  induction s with
  | nil => rfl
  | cons c s ih =>
    by_cases h : c = '"' ∨ c = '\\'
    · rcases h with rfl | rfl <;> simp [escape, unescape, ih]
    · obtain ⟨hq, hb⟩ := not_or.1 h
      simp [escape, hq, hb, unescape, ih]

end Quaked.Text
