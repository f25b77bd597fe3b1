import Quaked.Proofs.Selector.Longest
import Quaked.Proofs.Selector.Spelling

/-!
# The text of a selector and the selector

Whatever is parsed can be written, but for its numbers (`readable_of_parse`): a number in a text may
be too large, and nothing else can be wrong with it. So a selector is parsed from its own text
exactly if it can be written.

* `Printable.parse_text`, `printable_of_parse_text`: the two directions.
* `parse_text_iff_printable`: the round trip, characterised.
-/

namespace Quaked.Selector

open Text TokenSource Selector.Token

/-! ### What is parsed can be written -/

/-- A token that is a name says one. -/
theorem isName_of_lexeme {cs : List Char} {n : Nat} (h : lexeme cs = .token .name n) :
    isName (String.ofList (cs.take n)) = true := by
  obtain ⟨c, tail, same, starts, continues, word⟩ := (spells_of_lexeme h nofun).eq_word (by decide)
  rw [isName_iff, String.toList_ofList, same]
  exact ⟨c, tail, rfl, starts, continues, word.symm⟩

theorem isName_of_next {c c' : Cursor} {t : Token} (read : Token.next c = .ok t c')
    (kind : t.kind = .name) : isName t.text = true := by
  obtain ⟨n, lexed, is, -⟩ := next_eq_ok_iff.1 read
  rw [kind] at lexed is
  rw [is]
  exact isName_of_lexeme lexed

theorem isName_of_yields {c c' : Cursor} {ts : List Token} (run : Yields c ts c') :
    ∀ t ∈ ts, t.kind = .name → isName t.text = true := by
  induction run with
  | nil c => simp
  | cons read more rest ih =>
    intro t mem kind
    rcases List.mem_cons.1 mem with rfl | mem
    · exact isName_of_next read kind
    · exact ih t mem kind

/-- What a phrase stands for is shaped like what can be written in its place. -/
def Phrase.Shaped : Phrase → Prop
  | operand _ e => Selector.Shaped (fun _ => True) .operand e
  | items es => ∀ e ∈ es, Selector.Shaped (fun _ => True) .operand e
  | entry _ e => Selector.Shaped (fun _ => True) .operand e
  | entries es => ∀ entry ∈ es, Selector.Shaped (fun _ => True) .operand entry.2
  | element e => Selector.Shaped (fun _ => True) .element e
  | elements es => ∀ e ∈ es, Selector.Shaped (fun _ => True) .element e

theorem Derives.shaped {ts : List Token} {φ : Phrase} (h : Derives ts φ)
    (names : ∀ t ∈ ts, t.kind = .name → isName t.text = true) : φ.Shaped := by
  induction h with
  | level _ _ ih => exact ih names
  | or _ _ _ ihl ihr | and _ _ _ ihl ihr | comparison _ _ _ _ ihl ihr | bitwise _ _ _ _ ihl ihr =>
    exact .binary _ (ihl fun t mem => names t (by simp [mem]))
      (ihr fun t mem => names t (by simp [mem]))
  | unary _ _ ih => exact .unary _ (ih fun t mem => names t (by simp [mem]))
  | string _ => exact .string _
  | number _ _ => exact .number trivial
  | boolean _ => exact .boolean _
  | null _ => exact .null
  | lookup kind => exact .lookup (names _ (by simp) kind)
  | parentheses _ _ _ ih => exact ih fun t mem => names t (by simp [mem])
  | emptyArray _ _ => exact .array (by simp)
  | array _ _ _ ih => exact .array (ih fun t mem => names t (by simp [mem]))
  | emptyMap _ _ => exact .map (by simp)
  | map _ _ _ ih => exact .map (ih fun t mem => names t (by simp [mem]))
  | emptyChoice _ _ _ _ => exact .choice (by simp)
  | choice _ _ _ _ _ ih => exact .choice (ih fun t mem => names t (by simp [mem]))
  | item _ ih =>
    intro e mem
    rw [List.mem_singleton.1 mem]
    exact ih names
  | items _ _ _ ihl ihr | elements _ _ _ ihl ihr =>
    intro e mem
    rcases List.mem_append.1 mem with mem | mem
    · exact ihl (fun t mem => names t (by simp [mem])) e mem
    · rw [List.mem_singleton.1 mem]
      exact ihr fun t mem => names t (by simp [mem])
  | keyed _ _ _ ih => exact ih fun t mem => names t (by simp [mem])
  | entry _ ih =>
    intro entry mem
    rw [List.mem_singleton.1 mem]
    exact ih names
  | entries _ _ _ ihl ihr =>
    intro entry mem
    rcases List.mem_append.1 mem with mem | mem
    · exact ihl (fun t mem => names t (by simp [mem])) entry mem
    · rw [List.mem_singleton.1 mem]
      exact ihr fun t mem => names t (by simp [mem])
  | unconditional _ ih => exact .plain (ih names)
  | guarded _ _ _ ihl ihr =>
    exact .guarded (ihl fun t mem => names t (by simp [mem]))
      (ihr fun t mem => names t (by simp [mem]))
  | element _ ih =>
    intro e mem
    rw [List.mem_singleton.1 mem]
    exact ih names

variable {e e' : Selector}

/-- What is parsed can be written, but for its numbers. -/
theorem readable_of_parse {text : String} (h : parse text = .ok e) : Readable e := by
  obtain ⟨ts, last, c, c', run, read, kind, derived⟩ := parse_eq_ok_iff.1 h
  exact derived.shaped (isName_of_yields run)

/-! ### The round trip -/

/-- What can be written is parsed from its text, as its equal. -/
theorem Printable.parse_text (h : Printable e) :
    ∃ e', parse e.text = .ok e' ∧ (e' == e) = true :=
  ⟨e.reread, h.readable.parse_text, h.reread_equals⟩

/-- Only what can be written is parsed from its text. -/
theorem printable_of_parse_text (h : parse e.text = .ok e') (same : (e' == e) = true) :
    Printable e := by
  have readable : Readable e := (readable_of_parse h).of_equals same
  rw [readable.parse_text] at h
  cases h
  exact readable.finite_of_reread_equals same

/-- A selector is parsed from its own text, up to the sign of zero, exactly if it can be written. -/
theorem parse_text_iff_printable (e : Selector) :
    (∃ e', parse e.text = .ok e' ∧ (e' == e) = true) ↔ Printable e := by
  constructor
  · rintro ⟨e', parsed, same⟩
    exact printable_of_parse_text parsed same
  · intro printable
    exact printable.parse_text

end Quaked.Selector
