import Mathlib.Data.List.Basic
import Quaked.Text.Cursor

/-!
# Places in a text

A cursor keeps an offset, a line and a column side by side and moves each of them on its own. Here
the position at an offset is said of the text alone: `positionAt text k` counts the line breaks in
the first `k` bytes, and the characters behind the last of them. A cursor is `InPlace` if its offset
is where a character starts, what it has left to read stands there, and its position is the one at
that offset. Skipping keeps a cursor in place, hence so does all reading.

* `InPlace.ofString`, `InPlace.skip`: every cursor that is reached is in place.
* `positionAt_precedes`: positions grow with the offset.
-/

namespace Quaked.Text

/-! ### Positions of a text -/

/-- Whether a line ends with the given character of a text, counted from zero: with a line feed, or
with a carriage return that no line feed follows directly. -/
def breaksLine (cs : List Char) (i : Nat) : Bool :=
  cs[i]? = some '\n' || (cs[i]? = some '\r' && cs[i + 1]? ≠ some '\n')

/-- The position behind the first `n` characters: as many lines have begun before as line breaks are
among them, and as many columns as characters are behind the last line break. -/
def positionBehind (cs : List Char) (n : Nat) : Position where
  line := 1 + (List.range n).countP (breaksLine cs)
  column := 1 + ((List.range n).reverse.takeWhile (!breaksLine cs ·)).length

/-- How many characters lie in the first `k` bytes of a text. -/
def charactersIn : List Char → Nat → Nat
  | [], _ => 0
  | ch :: cs, k => if ch.utf8Size ≤ k then charactersIn cs (k - ch.utf8Size) + 1 else 0

/-- The position behind the first `k` bytes of a text. -/
def positionAt (text : String) (k : Nat) : Position :=
  positionBehind text.toList (charactersIn text.toList k)

variable {cs before rest : List Char} {ch : Char} {m n : Nat}

/-- One more character starts a line or takes a column. -/
theorem positionBehind_succ (cs : List Char) (n : Nat) :
    positionBehind cs (n + 1) =
      if breaksLine cs n then ⟨(positionBehind cs n).line + 1, 1⟩
      else ⟨(positionBehind cs n).line, (positionBehind cs n).column + 1⟩ := by
  unfold positionBehind
  rw [List.range_succ, List.countP_append, List.countP_singleton, List.reverse_append]
  cases ends : breaksLine cs n with
  | true => simp [ends, Nat.add_assoc]
  | false => simp [ends, Nat.add_comm]

/-- The character behind the first ones breaks the line by what follows it alone. -/
theorem breaksLine_length (before rest : List Char) (ch : Char) :
    breaksLine (before ++ ch :: rest) before.length = endsLine ch rest := by
  have following : (before ++ ch :: rest)[before.length + 1]? = rest.head? := by
    rw [List.getElem?_append_right (Nat.le_add_right _ 1), Nat.add_sub_cancel_left,
      List.getElem?_cons_succ, List.head?_eq_getElem?]
  unfold breaksLine endsLine
  rw [following, List.getElem?_append_right (Nat.le_refl _), Nat.sub_self,
    List.getElem?_cons_zero]
  simp only [Option.some.injEq]

/-- What a cursor makes of its position in passing a character is the position behind it. -/
theorem positionBehind_after (before rest : List Char) (ch : Char) :
    positionBehind (before ++ ch :: rest) (before.length + 1) =
      (positionBehind (before ++ ch :: rest) before.length).after ch rest := by
  rw [positionBehind_succ, breaksLine_length]
  rfl

/-- As many characters as stand in front of a character lie in the bytes in front of it. -/
theorem charactersIn_width (before rest : List Char) :
    charactersIn (before ++ rest) (width before) = before.length := by
  induction before with
  | nil =>
    cases rest with
    | nil => rfl
    | cons ch rest => exact if_neg (Nat.not_le.2 ch.utf8Size_pos)
  | cons ch before ih =>
    rw [List.cons_append, width, charactersIn, if_pos (Nat.le_add_right _ _),
      Nat.add_sub_cancel_left, ih, List.length_cons]

/-! ### Line breaks -/

/-- How many line breaks a text has. A carriage return with a line feed behind it is one. -/
def lineBreaks (cs : List Char) : Nat := (List.range cs.length).countP (breaksLine cs)

/-- The text is empty or ends in a line feed. -/
def Lined (cs : List Char) : Prop := ∀ ch ∈ cs.getLast?, ch = '\n'

theorem Lined.drop (h : Lined cs) (n : Nat) : Lined (cs.drop n) := by
  intro ch mem
  rw [List.getLast?_drop] at mem
  split at mem
  · cases mem
  · exact h ch mem

/-- Behind such a text a line starts. -/
theorem Lined.positionBehind (h : Lined cs) :
    positionBehind cs cs.length = ⟨1 + lineBreaks cs, 1⟩ := by
  have column : (Text.positionBehind cs cs.length).column = 1 := by
    rcases List.eq_nil_or_concat cs with rfl | ⟨before, ch, rfl⟩
    · rfl
    · rw [List.concat_eq_append] at h ⊢
      obtain rfl : ch = '\n' := h ch List.getLast?_concat
      rw [List.length_append, List.length_singleton, positionBehind_succ, breaksLine_length]
      rfl
  exact congrArg (Position.mk _) column

/-! ### Characters and bytes -/

/-- The first `k` bytes of the text are characters, and `rest` is what stands behind them. -/
def Behind (text : String) (k : Nat) (rest : List Char) : Prop :=
  ∃ before, text.toList = before ++ rest ∧ k = width before

variable {text : String} {j k : Nat}

theorem behind_zero (text : String) : Behind text 0 text.toList := ⟨[], rfl, rfl⟩

theorem positionAt_width (whole : text.toList = before ++ rest) :
    positionAt text (width before) = positionBehind text.toList before.length := by
  rw [positionAt]
  conv => lhs; rw [whole, charactersIn_width, ← whole]

/-- The end of a text starts in one place. -/
theorem Behind.unique (h : Behind text j rest) (h' : Behind text k rest) : j = k := by
  obtain ⟨before, whole, rfl⟩ := h
  obtain ⟨before', whole', rfl⟩ := h'
  rw [whole] at whole'
  rw [List.append_cancel_right whole']

/-- What stands behind a number of bytes is no more than the text. -/
theorem Behind.le (h : Behind text k rest) : k ≤ text.utf8ByteSize := by
  obtain ⟨before, whole, rfl⟩ := h
  rw [← width_toList, whole, width_append]
  exact Nat.le_add_right _ _

/-- Where less is left the place is further on. -/
theorem Behind.lt (h : Behind text j rest) {rest' : List Char} (h' : Behind text k rest')
    (less : rest'.length < rest.length) : j < k := by
  obtain ⟨before, whole, rfl⟩ := h
  obtain ⟨before', whole', rfl⟩ := h'
  rw [whole] at whole'
  rcases List.append_eq_append_iff.1 whole' with ⟨between, rfl, rfl⟩ | ⟨between, rfl, rfl⟩
  · cases between with
    | nil => exact absurd less (Nat.lt_irrefl _)
    | cons ch between =>
      rw [width_append, width]
      have := ch.utf8Size_pos
      omega
  · rw [List.length_append] at less
    exact absurd less (by omega)

/-- Where a character starts, or the text ends, is a place that strings can be cut at. -/
theorem isValid_iff_behind : (⟨k⟩ : String.Pos.Raw).IsValid text ↔ ∃ rest, Behind text k rest := by
  rw [String.Pos.Raw.isValid_iff_exists_append]
  constructor
  · rintro ⟨first, second, rfl, cut⟩
    refine ⟨second.toList, first.toList, String.toList_append, ?_⟩
    rw [width_toList]
    exact congrArg String.Pos.Raw.byteIdx cut
  · rintro ⟨rest, before, whole, rfl⟩
    refine ⟨String.ofList before, String.ofList rest, ?_, ?_⟩
    · rw [← String.ofList_append, ← whole, String.ofList_toList]
    · rw [String.rawEndPos, ← width_toList, String.toList_ofList]

theorem width_take_le (cs : List Char) (h : m ≤ n) : width (cs.take m) ≤ width (cs.take n) := by
  have split := List.take_append_drop m (cs.take n)
  rw [List.take_take, Nat.min_eq_left h] at split
  rw [← split, width_append]
  exact Nat.le_add_right _ _

/-! ### The order of positions -/

/-- A position comes before another: on an earlier line, or on the same line in an earlier
column. -/
def Position.Precedes (p q : Position) : Prop :=
  p.line < q.line ∨ p.line = q.line ∧ p.column < q.column

theorem Position.Precedes.trans {p q r : Position} (first : p.Precedes q) (second : q.Precedes r) :
    p.Precedes r := by
  unfold Precedes at *
  omega

theorem positionBehind_precedes_succ (cs : List Char) (n : Nat) :
    (positionBehind cs n).Precedes (positionBehind cs (n + 1)) := by
  rw [positionBehind_succ]
  split
  · exact .inl (Nat.lt_succ_self _)
  · exact .inr ⟨rfl, Nat.lt_succ_self _⟩

theorem positionBehind_precedes (cs : List Char) (h : m < n) :
    (positionBehind cs m).Precedes (positionBehind cs n) := by
  induction h with
  | refl => exact positionBehind_precedes_succ cs m
  | step _ ih => exact ih.trans (positionBehind_precedes_succ cs _)

/-- Positions grow with the offset, so no two offsets share one. -/
theorem positionAt_precedes (first : (⟨j⟩ : String.Pos.Raw).IsValid text)
    (second : (⟨k⟩ : String.Pos.Raw).IsValid text) (h : j < k) :
    (positionAt text j).Precedes (positionAt text k) := by
  obtain ⟨rest, before, whole, rfl⟩ := isValid_iff_behind.1 first
  obtain ⟨rest', before', whole', rfl⟩ := isValid_iff_behind.1 second
  rw [positionAt_width whole, positionAt_width whole']
  apply positionBehind_precedes
  -- of two beginnings of one text the one with no more characters has no more bytes
  by_contra shorter
  have wider := width_take_le text.toList (Nat.not_lt.1 shorter)
  rw [whole, List.take_left, ← whole, whole', List.take_left] at wider
  exact absurd h (Nat.not_lt.2 wider)

/-! ### Cursors -/

/-- The cursor is a place in the text: its offset is where a character starts or the text ends, what
it has left to read stands there, and its position is the one at that offset. -/
structure InPlace (text : String) (c : Cursor) : Prop where
  behind : Behind text c.offset c.rest
  position : c.position = positionAt text c.offset

namespace InPlace

variable {c : Cursor}

theorem ofString (text : String) : InPlace text (.ofString text) where
  behind := behind_zero text
  position := by
    have start : text.toList = [] ++ text.toList := rfl
    exact (positionAt_width start).symm

theorem advance (h : InPlace text c) : InPlace text c.advance := by
  obtain ⟨before, whole, offset⟩ := h.behind
  have position := h.position
  rw [offset, positionAt_width whole] at position
  unfold Cursor.advance
  split
  · exact h
  · rename_i ch rest left
    rw [left] at whole
    have whole' : text.toList = before ++ [ch] ++ rest := by simp [whole]
    have further : c.offset + ch.utf8Size = width (before ++ [ch]) := by
      rw [offset, width_append]
      rfl
    refine ⟨⟨before ++ [ch], whole', further⟩, ?_⟩
    dsimp only
    rw [position, further, positionAt_width whole', List.length_append, whole]
    exact (positionBehind_after before rest ch).symm

/-- Skipping keeps a cursor in place. -/
theorem skip (h : InPlace text c) (n : Nat) : InPlace text (c.skip n) := by
  induction n generalizing c with
  | zero => exact h
  | succ n ih => exact ih h.advance

/-- The offset of a cursor in place is where a character starts, within the text. -/
theorem isValid (h : InPlace text c) : (⟨c.offset⟩ : String.Pos.Raw).IsValid text :=
  isValid_iff_behind.2 ⟨c.rest, h.behind⟩

end InPlace

/-- The extent starts at the position, not before the cursor `c`, and ends where the cursor `c'`
is. -/
def Occupies (text : String) (c : Cursor) (extent : List Char) (position : Position) (c' : Cursor) :
    Prop :=
  ∃ start, c.offset ≤ start ∧ Behind text start (extent ++ c'.rest) ∧
    c'.offset = start + width extent ∧ position = positionAt text start

/-- What is passed behind a number of characters starts where those end. -/
theorem InPlace.occupies {c : Cursor} {extent : List Char} (h : InPlace text c) {gap : Nat}
    (stands : (c.rest.drop gap).take n = extent) :
    Occupies text c extent (c.skip gap).position ((c.skip gap).skip n) := by
  have start := h.skip gap
  have whole : (c.skip gap).rest = extent ++ ((c.skip gap).skip n).rest := by
    rw [Cursor.rest_skip _ n, Cursor.rest_skip, ← stands, List.take_append_drop]
  refine ⟨(c.skip gap).offset, ?_, ?_, ?_, start.position⟩
  · rw [Cursor.offset_skip]
    exact Nat.le_add_right _ _
  · rw [← whole]
    exact start.behind
  · rw [Cursor.offset_skip, Cursor.rest_skip, stands]

end Quaked.Text
