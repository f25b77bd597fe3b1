import Quaked.Definition.Grammar
import Quaked.Proofs.Token.Lexing

/-!
# Headers with whole numbers

A header whose numbers are written as digits is read, wherever it stands: its color, its box, and no
flag where the line ends behind the box (`Header.reads_box`). With a name in front it is the header of
a definition (`Definition.reads_header`).
-/

namespace Quaked

open Text Token

/-- Digits write a number. -/
theorem Number.ofString?_digits (F : Format) {ds : List Char} (plain : Plain ds []) :
    ∃ x : Number F, Number.ofString? (String.ofList ds) = some x := by
  have numeral : Numeral.read? ds = some (⟨false, .ofPlain ds []⟩, []) := by
    simpa [Number.signText, Decimal.optionalPoint] using Numeral.read?_plain false plain
  refine ⟨.ofNumeral ⟨false, .ofPlain ds []⟩, ?_⟩
  simp [Number.ofString?, Numeral.ofString?, numeral]

namespace Header

variable {cs rest : List Char}

theorem reads_number (F : Format) {ds : List Char} (plain : Plain ds [])
    (front : front? cs = some ((.integer, String.ofList ds), rest)) :
    Reads (readNumber F) cs (fun _ => True) rest := by
  refine (reads_nextOf front (by decide)).bind fun t is => ?_
  obtain ⟨x, written⟩ := Number.ofString?_digits F plain
  rw [is.2, written]
  exact .pure trivial

/-- Three numbers in parentheses behind a space. -/
def tripleText (x y z rest : List Char) : List Char :=
  ' ' :: '(' :: (x ++ ' ' :: (y ++ ' ' :: (z ++ ')' :: rest)))

theorem front?_tripleText (x y z rest : List Char) : front? (tripleText x y z rest) =
    some ((.openParen, "("), x ++ ' ' :: (y ++ ' ' :: (z ++ ')' :: rest))) := rfl

section Triple

variable {x y z : List Char} (hx : Plain x []) (hy : Plain y []) (hz : Plain z [])
include hx hy hz

theorem reads_triple (F : Format) (rest : List Char) :
    Reads (readTriple F) (tripleText x y z rest) (fun _ => True) rest := by
  refine (reads_nextOf (front?_tripleText _ _ _ _) (by decide)).bind fun _ _ => ?_
  refine (reads_number F hx (front?_integer hx rfl)).bind fun _ _ => ?_
  refine (reads_number F hy ((front?_space _).trans (front?_integer hy rfl))).bind fun _ _ => ?_
  refine (reads_number F hz ((front?_space _).trans (front?_integer hz rfl))).bind fun _ _ => ?_
  exact (reads_nextOf (front?_closeParen _) (by decide)).bind fun _ _ => .pure trivial

theorem reads_vector (rest : List Char) :
    Reads readVector (tripleText x y z rest) (fun _ => True) rest :=
  (reads_triple hx hy hz .double rest).bind fun _ _ => .pure trivial

theorem reads_color (rest : List Char) :
    Reads readColor (tripleText x y z rest) (fun _ => True) rest :=
  (reads_triple hx hy hz .single rest).bind fun _ _ => .pure trivial

end Triple

variable {r g b x y z x' y' z' : List Char}

/-- A header of a color and a box at the end of a line. -/
theorem reads_box (hr : Plain r []) (hg : Plain g []) (hb : Plain b []) (hx : Plain x [])
    (hy : Plain y []) (hz : Plain z []) (hx' : Plain x' []) (hy' : Plain y' []) (hz' : Plain z' [])
    (rest : List Char) :
    Reads Header.read (tripleText r g b (tripleText x y z (tripleText x' y' z' ('\n' :: rest))))
      (fun header => header.bounds.isSome = true) ('\n' :: rest) := by
  refine (reads_color hr hg hb _).bind fun color _ => ?_
  have extent : Reads readExtent (tripleText x y z (tripleText x' y' z' ('\n' :: rest)))
      (fun bounds => bounds.isSome = true) ('\n' :: rest) := by
    refine (reads_peekOf (front?_tripleText _ _ _ _) (by decide)).bind fun t is => ?_
    rw [if_pos is.1]
    refine Reads.bind (Q := fun _ => True) ?_ fun _ _ => .pure rfl
    refine (reads_vector hx hy hz _).bind fun _ _ => ?_
    exact (reads_vector hx' hy' hz' _).bind fun _ _ => .pure trivial
  refine extent.bind fun bounds some => ?_
  have flags : Reads (iterate Cursor.unread readFlag? []) ('\n' :: rest) (· = []) ('\n' :: rest) := by
    refine Reads.iterate ((reads_peek (front?_newline rest)).bind fun t is => ?_)
    have other : t.isOneOf [.word, .minus] = false := by
      rw [isOneOf, is.1]
      rfl
    rw [other]
    exact .pure rfl
  exact flags.bind fun _ _ => .pure some

end Header

/-- The header of a definition in front of the rest of its lines. -/
theorem Definition.reads_header {r g b x y z x' y' z' : List Char} (hr : Plain r [])
    (hg : Plain g []) (hb : Plain b []) (hx : Plain x []) (hy : Plain y []) (hz : Plain z [])
    (hx' : Plain x' []) (hy' : Plain y' []) (hz' : Plain z' []) {cs rest : List Char} {name : String}
    (front : front? cs = some ((.word, name), Header.tripleText r g b (Header.tripleText x y z
      (Header.tripleText x' y' z' ('\n' :: rest))))) :
    Reads header cs
      (fun answer => answer.1 = name ∧ ∃ header, answer.2 = some header ∧ header.bounds.isSome = true)
      rest := by
  refine (reads_nextOf front (by decide)).bind fun word named => ?_
  refine (reads_peekOf (Header.front?_tripleText _ _ _ _) (by decide)).bind fun t is => ?_
  dsimp only
  rw [if_pos is.1]
  refine ((Header.reads_box hr hg hb hx hy hz hx' hy' hz' rest).map some).bind ?_
  rintro _ ⟨header, bounds, rfl⟩
  refine (reads_nextOf (front?_newline _) (by decide)).bind fun _ _ => ?_
  exact .pure ⟨named.2, header, rfl, bounds⟩
end Quaked
