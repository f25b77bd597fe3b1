/-!
# Positions and cursors

A `Cursor` is a place in a text: how many bytes lie before it, the line and column it has reached,
and the characters that are still unread. It only ever moves by `advance`, one character at a time,
so every reader of this library is a count of characters computed on the unread list followed by
`skip` of that count. What is true after one `advance` is therefore true after any reading.

* `unread_skip`: skipping `n` characters leaves `n` fewer to read.
* `rest_skip`: what is left is the list without its first `n` characters.
* `offset_skip`: the byte offset grows by the width of the characters that were skipped, and
  `width_toList`: the width of all characters is the size of the text.
-/

namespace Quaked.Text

/-- A line and a column, both counted from one. -/
structure Position where
  line : Nat
  column : Nat
deriving DecidableEq, Repr

/-- Where a text begins. -/
def Position.start : Position := ⟨1, 1⟩

/-- Whether the character `c`, followed by `rest`, ends a line. A carriage return in front of a line
feed does not: the pair is one line break, and the line feed is what ends the line. -/
def endsLine (c : Char) (rest : List Char) : Bool :=
  c = '\n' || (c = '\r' && rest.head? ≠ some '\n')

/-- The position after the character `c`, when `rest` follows it. -/
def Position.after (p : Position) (c : Char) (rest : List Char) : Position :=
  if endsLine c rest then ⟨p.line + 1, 1⟩ else ⟨p.line, p.column + 1⟩

/-- A place in a text. -/
structure Cursor where
  /-- Bytes before the cursor, in the text's UTF-8 form. -/
  offset : Nat
  /-- The position of the first unread character. -/
  position : Position
  /-- Bytes in the whole text. -/
  size : Nat
  /-- The characters not read yet. -/
  rest : List Char
deriving DecidableEq, Repr

/-- Behind the longest run at the front of a list stands what the run leaves. -/
theorem drop_length_takeWhile {α : Type} (p : α → Bool) (as : List α) :
    as.drop (as.takeWhile p).length = as.dropWhile p := by
  conv => lhs; rhs; rw [← List.takeWhile_append_dropWhile (p := p) (l := as)]
  exact List.drop_left

namespace Cursor

/-- The cursor at the start of a text. -/
def ofString (text : String) : Cursor :=
  { offset := 0, position := .start, size := text.utf8ByteSize, rest := text.toList }

/-- How many characters are left to read. -/
def unread (c : Cursor) : Nat := c.rest.length

/-- The character under the cursor. -/
def current? (c : Cursor) : Option Char := c.rest.head?

/-- The character after the one under the cursor. -/
def following? (c : Cursor) : Option Char := c.rest.tail.head?

/-- Whether everything has been read. -/
def atEnd (c : Cursor) : Bool := c.rest.isEmpty

/-- Moves past one character; at the end of the text it stays. -/
def advance (c : Cursor) : Cursor :=
  match c.rest with
  | [] => c
  | ch :: rest =>
    { c with
      offset := c.offset + ch.utf8Size
      position := c.position.after ch rest
      rest := rest }

/-- Moves past `n` characters, or to the end if there are fewer. -/
def skip (c : Cursor) : Nat → Cursor
  | 0 => c
  | n + 1 => c.advance.skip n

/-- Moves to the end of the text. -/
def toEnd (c : Cursor) : Cursor := c.skip c.unread

/-- The next `n` characters as text. -/
def text (c : Cursor) (n : Nat) : String := String.ofList (c.rest.take n)

/-- How many unread characters, counted from the cursor, satisfy `p` without a gap. -/
def run (c : Cursor) (p : Char → Bool) : Nat := (c.rest.takeWhile p).length

/-! ### What moving does -/

@[simp] theorem rest_advance (c : Cursor) : c.advance.rest = c.rest.tail := by
  unfold advance
  split <;> simp_all

@[simp] theorem size_advance (c : Cursor) : c.advance.size = c.size := by
  unfold advance
  split <;> rfl

@[simp] theorem skip_zero (c : Cursor) : c.skip 0 = c := rfl

@[simp] theorem skip_succ (c : Cursor) (n : Nat) : c.skip (n + 1) = c.advance.skip n := rfl

@[simp] theorem rest_skip (c : Cursor) (n : Nat) : (c.skip n).rest = c.rest.drop n := by
  induction n generalizing c with
  | zero => simp
  | succ n ih => simp [ih]

@[simp] theorem size_skip (c : Cursor) (n : Nat) : (c.skip n).size = c.size := by
  induction n generalizing c with
  | zero => rfl
  | succ n ih => simp [ih]

@[simp] theorem unread_skip (c : Cursor) (n : Nat) : (c.skip n).unread = c.unread - n := by
  simp [unread]

theorem rest_skip_run (p : Char → Bool) (c : Cursor) :
    (c.skip (c.run p)).rest = c.rest.dropWhile p := by
  rw [rest_skip, run, drop_length_takeWhile]

/-- Skipping in two goes is skipping once. -/
theorem skip_add (c : Cursor) (m n : Nat) : c.skip (m + n) = (c.skip m).skip n := by
  induction m generalizing c with
  | zero => simp
  | succ m ih => simp [Nat.succ_add, ih]

end Cursor

/-- Bytes that a list of characters takes in UTF-8. -/
def width : List Char → Nat
  | [] => 0
  | c :: cs => c.utf8Size + width cs

theorem width_append (a b : List Char) : width (a ++ b) = width a + width b := by
  induction a with
  | nil => simp [width]
  | cons c a ih => simp [width, ih, Nat.add_assoc]

/-- A string takes as many bytes as its characters do. -/
theorem width_toList (s : String) : width s.toList = s.utf8ByteSize := by
  suffices h : ∀ cs : List Char, width cs = (String.ofList cs).utf8ByteSize by
    rw [h, String.ofList_toList]
  intro cs
  induction cs with
  | nil => simp [width]
  | cons c cs ih =>
    have split : String.ofList (c :: cs) = String.singleton c ++ String.ofList cs := by
      rw [String.singleton_eq_ofList, ← String.ofList_append]
      rfl
    rw [width, ih, split, String.utf8ByteSize_append, String.utf8ByteSize_singleton]

/-- The offset moves by the width of what is skipped. -/
theorem Cursor.offset_skip (c : Cursor) (n : Nat) :
    (c.skip n).offset = c.offset + width (c.rest.take n) := by
  induction n generalizing c with
  | zero => simp [width]
  | succ n ih =>
    rw [skip_succ, ih, rest_advance]
    unfold advance
    split
    · rename_i h
      simp [h, width]
    · rename_i h
      simp [h, width, Nat.add_assoc]

end Quaked.Text
