import Quaked.Proofs.Conversion
import Quaked.Proofs.Definition.Termination
import Quaked.Proofs.Entity.Bounds
import Quaked.Proofs.Token.Local

/-!
# Corners in a text

The box of a definition is written as two corners, one behind the other. What a corner says depends neither
on where it stands nor on what follows it, as a parenthesis closes it. So where a definition stands it may
as well stand with its corners in the opposite order: what is in front of them is read as before, and what
is behind them is the same text.

* `Triple.beside`, `Corner.moved`: the same characters are the same corner somewhere else.
* `Corner.numeric`: a corner has a number on each axis.
* `Boxed.swapped`: a definition up to the end of its box.
-/

namespace Quaked

open Text Token

/-- In front of a gap and behind it the same token is next. -/
theorem Token.Gap.next_skip {c : Cursor} {gap rest : List Char} (h : Gap gap rest)
    (here : c.rest = gap ++ rest) (stop : Token.gap rest = 0) : next (c.skip gap.length) = next c := by
  have length : Token.gap c.rest = gap.length := by
    rw [here]
    exact h.eq_length stop
  rw [← length]
  exact next_skip_gap c

/-! ### Corners -/

namespace Header

variable {F : Format} {c c' d : Cursor} {ts ts' : List Token} {v : Number F × Number F × Number F}
  {r r' : List Char}

theorem numberOf_eq {t t' : Token} (same : t'.wording = t.wording) : numberOf F t' = numberOf F t := by
  unfold numberOf
  rw [(Prod.mk.inj same).2]

/-- Three numbers in parentheses are what their tokens say. -/
theorem Triple.of_wording (h : Triple F ts v) (same : ts'.map wording = ts.map wording) :
    Triple F ts' v := by
  obtain ⟨opens, first, second, third, closes⟩ := h
  obtain ⟨opening, _, rfl, sameO, same⟩ := List.map_eq_cons_iff.1 same
  obtain ⟨x, _, rfl, sameX, same⟩ := List.map_eq_cons_iff.1 same
  obtain ⟨y, _, rfl, sameY, same⟩ := List.map_eq_cons_iff.1 same
  obtain ⟨z, _, rfl, sameZ, same⟩ := List.map_eq_cons_iff.1 same
  obtain ⟨closing, _, rfl, sameC, same⟩ := List.map_eq_cons_iff.1 same
  obtain rfl := List.map_eq_nil_iff.1 same
  have kind {t t' : Token} (same : t'.wording = t.wording) : t'.kind = t.kind := (Prod.mk.inj same).1
  rw [← numberOf_eq sameX, ← numberOf_eq sameY, ← numberOf_eq sameZ]
  unfold IsNumber at first second third
  rw [← kind sameX] at first
  rw [← kind sameY] at second
  rw [← kind sameZ] at third
  exact .mk ((kind sameO).trans opens) first second third ((kind sameC).trans closes)

/-- Three numbers in parentheses stand in front of two texts that part behind them. -/
theorem Triple.beside (h : Triple F ts v) (run : Run c ts c') (last : c'.rest = r)
    (beside : Beside r r' c d) : ∃ ts' d', Run d ts' d' ∧ Triple F ts' v ∧ d'.rest = r' := by
  obtain ⟨front, closing, rfl, closes⟩ : ∃ front closing, ts = front ++ [closing] ∧
      closing.kind = .closeParen := by
    cases h with
    | mk _ _ _ _ closes => exact ⟨[_, _, _, _], _, rfl, closes⟩
  obtain ⟨c₁, inside, behind⟩ := InOrder.append_iff.1 run
  obtain ⟨c₂, closed, behind⟩ := InOrder.cons_iff.1 behind
  obtain rfl : c₂ = c' := InOrder.nil_iff.1 behind
  have within : r.length < c₁.unread := by
    rw [← last]
    exact unread_next closed (by simp [closes])
  obtain ⟨front', d₁, inside', same, beside₁⟩ := beside.run inside within
  obtain ⟨closing', d', closed', same', beside'⟩ := beside₁.stands closed (.inr ⟨closes, last⟩)
  refine ⟨front' ++ [closing'], d', inside'.append (.cons closed' (.nil _)), ?_, beside'.rest_eq last⟩
  refine h.of_wording ?_
  rw [List.map_append, List.map_append, same, List.map_singleton, List.map_singleton, same']

/-- No number is missing. -/
theorem isNaN_numberOf {t : Token} (stands : Stands c t c') (number : IsNumber t) :
    (numberOf F t).isNaN = false := by
  have decimal := Token.mem_decimal_of_next stands (by simpa [IsNumber] using number)
  obtain ⟨x, written, number⟩ := Number.ofString?_of_numeral decimal F
  rw [numberOf, written]
  exact number

/-- Behind a gap a corner of a box stands: three numbers in parentheses, written as the characters say. -/
inductive Corner : Cursor → List Char → List Char → Vector → Cursor → Prop where
  | mk {c c' : Cursor} {tokens : List Token} {v : Vector} {gap inner : List Char} (run : Run c tokens c')
    (triple : Triple .double tokens (v.x, v.y, v.z)) (here : c.rest = gap ++ '(' :: (inner ++ c'.rest))
    (between : Gap gap ('(' :: (inner ++ c'.rest))) : Corner c gap ('(' :: inner) v c'

namespace Corner

variable {gap gap' written : List Char} {v : Vector}

/-- Wherever the tokens of a corner stand, a corner does. -/
theorem of_run (run : Run c ts c') (triple : Triple .double ts (v.x, v.y, v.z)) :
    ∃ gap written, Corner c gap written v c' := by
  obtain ⟨opening, tail, rfl, opens⟩ := triple.opens
  obtain ⟨c₁, opened, behind⟩ := InOrder.cons_iff.1 run
  obtain ⟨gap, lexed, here, between, -, n, token, -, rest⟩ := front?_eq_some_iff.1 (front?_of_next opened)
  rw [opens] at token
  obtain ⟨inner, left⟩ := Definition.rest_suffix_of_run behind
  cases shape_of_lexeme token with
  | openParen cs =>
    obtain rfl : c₁.rest = cs := rest
    rw [← left] at here between
    exact ⟨gap, _, .mk run triple here between⟩
  | word word => rcases wordLexeme_kind word with is | is | is <;> cases is

theorem opens (h : Corner c gap written v c') : ∃ inner, written = '(' :: inner := by
  cases h
  exact ⟨_, rfl⟩

theorem here (h : Corner c gap written v c') : c.rest = gap ++ (written ++ c'.rest) := by
  obtain ⟨-, -, here, -⟩ := h
  exact here

theorem between (h : Corner c gap written v c') : Gap gap (written ++ c'.rest) := by
  obtain ⟨-, -, -, between⟩ := h
  exact between

/-- A corner has a number on each axis. -/
theorem numeric (h : Corner c gap written v c') : v.Numeric := by
  obtain ⟨run, triple, -, -⟩ := h
  generalize numbers : (v.x, v.y, v.z) = components at triple
  obtain ⟨-, first, second, third, -⟩ := triple
  simp only [InOrder.cons_iff] at run
  obtain ⟨_, -, _, standsX, _, standsY, _, standsZ, -⟩ := run
  cases v with
  | mk x y z =>
    cases numbers
    exact Vector.numeric_iff.2
      ⟨isNaN_numberOf standsX first, isNaN_numberOf standsY second, isNaN_numberOf standsZ third⟩

/-- The same characters are the same corner, behind any gap and in front of any text. -/
theorem moved (h : Corner c gap written v c') (there : d.rest = gap' ++ (written ++ r'))
    (between' : Gap gap' (written ++ r')) : ∃ d', Corner d gap' written v d' ∧ d'.rest = r' := by
  obtain ⟨run, triple, here, between⟩ := h
  rename_i tokens inner
  obtain ⟨opening, tail, rfl, -⟩ := triple.opens
  obtain ⟨_, first, rest⟩ := InOrder.cons_iff.1 run
  have front : Run (c.skip gap.length) (opening :: tail) c' :=
    .cons ((between.next_skip here rfl).trans first) rest
  have beside : Beside c'.rest r' (c.skip gap.length) (d.skip gap'.length) := by
    refine ⟨'(' :: inner, ?_, ?_⟩
    · rw [Cursor.rest_skip, here, List.drop_left]
      rfl
    · rw [Cursor.rest_skip, there, List.drop_left]
  obtain ⟨_, d', run', triple', rfl⟩ := triple.beside front rfl beside
  obtain ⟨_, _, rfl, -⟩ := triple'.opens
  obtain ⟨_, first', rest'⟩ := InOrder.cons_iff.1 run'
  have opened := (between'.next_skip there rfl).symm.trans first'
  exact ⟨d', .mk (.cons opened rest') triple' there between', rfl⟩

end Corner

end Header

/-! ### Definitions with a box -/

namespace Definition

open Header Entry

variable {settings : Settings} {s s' t : Session} {c c' d : Cursor} {name : String} {color : Color}
  {a b : Vector} {r r' : List Char}

/-- A definition up to its box: its mark, its name and its color. -/
inductive UpToBox : Cursor → String → Color → Cursor → Prop where
  | mk {c c₁ c₂ c' : Cursor} {mark word : Token} {color : List Token} {r g b : Number .single}
    (opened : Opening c mark c₁) (opens : mark.kind = .commentOpen) (named : Stands c₁ word c₂)
    (isWord : word.kind = .word) (colorRun : Run c₂ color c') (colored : Triple .single color (r, g, b)) :
    UpToBox c word.text (.ofComponents r g b) c'

/-- The opening of a definition that ends before two texts part stands in front of both. -/
theorem Opening.beside {t : Token} (h : Opening c t c') (beside : Beside r r' c d)
    (within : r.length < c'.unread) : ∃ t' d', Opening d t' d' ∧ t'.wording = t.wording ∧ Beside r r' c' d' := by
  obtain ⟨run, others, stands, opens⟩ := h
  have less := Nat.lt_of_lt_of_le within (unread_next_le stands)
  obtain ⟨outside, d₁, run', same, beside₁⟩ := beside.run run less
  obtain ⟨t', d', stands', same', beside'⟩ := beside₁.stands stands (.inl within)
  have kind : t'.kind = t.kind := (Prod.mk.inj same').1
  refine ⟨t', d', .mk run' ?_ stands' (kind ▸ opens), same', beside'⟩
  intro u mem
  have among := List.mem_map_of_mem (f := wording) mem
  rw [same] at among
  obtain ⟨u', mem', is⟩ := List.mem_map.1 among
  rw [← (Prod.mk.inj is).1]
  exact others u' mem'

theorem UpToBox.beside (h : UpToBox c name color c') (beside : Beside r r' c d)
    (within : r.length < c'.unread) : ∃ d', UpToBox d name color d' ∧ Beside r r' c' d' := by
  obtain ⟨opened, opens, named, isWord, colorRun, colored⟩ := h
  have behind := Nat.lt_of_lt_of_le within (colorRun.le Cursor.unread unread_next_le)
  obtain ⟨mark, d₁, opened', sameMark, beside₁⟩ :=
    opened.beside beside (Nat.lt_of_lt_of_le behind (unread_next_le named))
  obtain ⟨word, d₂, named', sameWord, beside₂⟩ := beside₁.stands named (.inl behind)
  obtain ⟨tokens, d', colorRun', sameColor, beside'⟩ := beside₂.run colorRun within
  obtain ⟨kind, text⟩ := Prod.mk.inj sameWord
  refine ⟨d', ?_, beside'⟩
  rw [← text]
  exact .mk opened' ((Prod.mk.inj sameMark).1.trans opens) named' (kind.trans isWord) colorRun'
    (colored.of_wording sameColor)

theorem UpToBox.rest_suffix (h : UpToBox c name color c') : c'.rest <:+ c.rest := by
  obtain ⟨⟨run, -, stands, -⟩, -, named, -, colorRun, -⟩ := h
  exact rest_suffix_of_run (run.append (.cons stands (.cons named colorRun)))

/-- A text around the two corners of a box. -/
structure Layout where
  front : List Char
  corner : List Char
  between : List Char
  corner' : List Char
  behind : List Char

namespace Layout

/-- The text as it is laid out. -/
def text (l : Layout) : List Char := l.front ++ (l.corner ++ (l.between ++ (l.corner' ++ l.behind)))

/-- The text with the corners in the opposite order. -/
def swapped (l : Layout) : Layout := { l with corner := l.corner', corner' := l.corner }

end Layout

/-- A definition with a name, a color and a box, whose corners stand in the text as it is laid out. The last
cursor is behind the box. -/
inductive Boxed : Cursor → String → Color → Layout → Vector → Vector → Cursor → Prop where
  | mk {c c₁ c₂ c' : Cursor} {name : String} {color : Color} {a b : Vector}
    {before gap corner between corner' : List Char} (front : UpToBox c name color c₁)
    (here : c.rest = before ++ c₁.rest) (first : Corner c₁ gap corner a c₂)
    (second : Corner c₂ between corner' b c') :
    Boxed c name color ⟨before ++ gap, corner, between, corner', c'.rest⟩ a b c'

namespace Boxed

variable {l : Layout}

theorem rest_eq (h : Boxed c name color l a b c') : c.rest = l.text := by
  obtain ⟨-, here, first, second⟩ := h
  rw [here, first.here, second.here, Layout.text, List.append_assoc]

theorem numeric (h : Boxed c name color l a b c') : a.Numeric ∧ b.Numeric := by
  obtain ⟨-, -, first, second⟩ := h
  exact ⟨first.numeric, second.numeric⟩

/-- With the corners of its box in the opposite order a definition stands there as well, and the same text is
left behind the box. -/
theorem swapped (h : Boxed c name color l a b c') (there : d.rest = l.swapped.text) :
    ∃ d', Boxed d name color l.swapped b a d' ∧ d'.rest = c'.rest := by
  obtain ⟨front, here, first, second⟩ := h
  rename_i c₁ c₂ before gap corner between corner'
  obtain ⟨inner, rfl⟩ := first.opens
  obtain ⟨inner', rfl⟩ := second.opens
  have left : c₁.rest = (gap ++ ['(']) ++ (inner ++ c₂.rest) := by
    rw [first.here, List.append_assoc]
    rfl
  -- both texts have the parenthesis of a corner in common, and part behind it
  have beside : Beside (inner ++ c₂.rest) (inner' ++ (between ++ ('(' :: inner ++ c'.rest))) c d := by
    refine ⟨before ++ (gap ++ ['(']), ?_, ?_⟩
    · simp [here, left]
    · simp [there, Layout.text, Layout.swapped]
  have within : (inner ++ c₂.rest).length < c₁.unread := by
    rw [Cursor.unread, left]
    simp only [List.length_append, List.length_singleton]
    omega
  obtain ⟨d₁, front', common, whole, there₁⟩ := front.beside beside within
  obtain rfl : common = gap ++ ['('] := List.append_cancel_right (whole.symm.trans left)
  rw [List.append_assoc] at there₁
  obtain ⟨d₂, second', there₂⟩ := second.moved there₁ first.between.of_head
  obtain ⟨d', first', behind⟩ := first.moved there₂ second.between.of_head
  refine ⟨d', ?_, behind⟩
  rw [Layout.swapped, ← behind]
  refine .mk front' ?_ second' first'
  simp [there, there₁, Layout.text, Layout.swapped]

end Boxed

end Definition
end Quaked
