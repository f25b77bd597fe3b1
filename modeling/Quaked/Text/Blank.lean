/-!
# White space

Two notions of white space meet in this library. A definition file knows four *blanks*: space, tab,
line feed and carriage return (`isBlank`). Selectors, descriptions and numbers in attribute values
use the Unicode property White_Space (`isSpace`), which `trim` and `words` go by.
-/

namespace Quaked.Text

/-- The blanks of a definition file. -/
def isBlank (c : Char) : Bool := c = ' ' || c = '\t' || c = '\n' || c = '\r'

/-- The characters with the Unicode property White_Space. -/
def isSpace (c : Char) : Bool :=
  let n := c.toNat
  (0x9 ≤ n && n ≤ 0xD) || n = 0x20 || n = 0x85 || n = 0xA0 || n = 0x1680 ||
    (0x2000 ≤ n && n ≤ 0x200A) || n = 0x2028 || n = 0x2029 || n = 0x202F || n = 0x205F || n = 0x3000

/-- The characters without white space at either end. -/
def trim (cs : List Char) : List Char :=
  ((cs.dropWhile isSpace).reverse.dropWhile isSpace).reverse

/-- The maximal runs of characters other than white space, in order. -/
def words (cs : List Char) : List (List Char) :=
  (cs.splitBy fun a b => isSpace a == isSpace b).filter fun run => !run.any isSpace

/-- White space around a text is trimmed, up to the first and the last character that is none. -/
theorem trim_spaced {front cs back : List Char} {first last : Char}
    (before : ∀ c ∈ front, isSpace c = true) (behind : ∀ c ∈ back, isSpace c = true)
    (starts : cs.head? = some first) (ends : cs.getLast? = some last)
    (visible : ¬ isSpace first = true) (visible' : ¬ isSpace last = true) :
    trim (front ++ cs ++ back) = cs := by
  have lead : (front ++ cs ++ back).dropWhile isSpace = cs ++ back := by
    obtain ⟨tail, rfl⟩ := List.head?_eq_some_iff.1 starts
    rw [List.append_assoc, List.dropWhile_append_of_pos before, List.cons_append,
      List.dropWhile_cons_of_neg visible]
  have trail : (cs ++ back).reverse.dropWhile isSpace = cs.reverse := by
    obtain ⟨init, rfl⟩ := List.getLast?_eq_some_iff.1 ends
    rw [List.reverse_append, List.reverse_append,
      List.dropWhile_append_of_pos fun c mem => behind c (List.mem_reverse.1 mem)]
    exact List.dropWhile_cons_of_neg visible'
  rw [trim, lead, trail, List.reverse_reverse]

end Quaked.Text
