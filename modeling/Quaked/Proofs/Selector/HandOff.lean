import Quaked.Proofs.Selector.Layout

/-!
# Handing the cursor on

The grammar of selectors runs on a cursor that others go on with. What it reads there is a selector
as a text of its own: cutting the text behind the last token changes none of the tokens
(`lexeme_of_append`, `Lexes.cut`), and the grammar asks no more of what follows than to start with no
operator. The other way round, a text that is a selector is read in front of a closing parenthesis up
to its trailing white space. `Spans` says which slice of a text lies between two cursors.

* `expression_spans_parsed_slice`: both directions.
-/

namespace Quaked

open Text

namespace Text

/-- Between the cursors stands the slice, and the second is the first behind it. -/
structure Spans (c : Cursor) (slice : String) (c' : Cursor) : Prop where
  rest_eq : c.rest = slice.toList ++ c'.rest
  skip_eq : c' = c.skip slice.length

variable {c c' c'' : Cursor} {slice slice' : String}

/-- A cursor that has passed characters of a text spans them. -/
theorem spans_skip {n : Nat} (bound : n ≤ c.rest.length) : Spans c (c.text n) (c.skip n) := by
  constructor
  · rw [Cursor.text, String.toList_ofList, Cursor.rest_skip, List.take_append_drop]
  · rw [Cursor.text, String.length_ofList, List.length_take_of_le bound]

/-- A cursor in front of a slice spans it, and behind the slice is what stands behind it. -/
theorem spans_of_append {r : List Char} (here : c.rest = slice.toList ++ r) :
    Spans c slice (c.skip slice.length) ∧ (c.skip slice.length).rest = r := by
  have left : (c.skip slice.length).rest = r := by
    rw [Cursor.rest_skip, here, ← String.length_toList, List.drop_left]
  exact ⟨⟨by rw [here, left], rfl⟩, left⟩

/-- The offset grows by the bytes of the slice. -/
theorem Spans.offset_eq (h : Spans c slice c') : c'.offset = c.offset + slice.utf8ByteSize := by
  rw [h.skip_eq, Cursor.offset_skip, h.rest_eq, ← String.length_toList, List.take_left, width_toList]

theorem Spans.trans (first : Spans c slice c') (second : Spans c' slice' c'') :
    Spans c (slice ++ slice') c'' := by
  constructor
  · rw [first.rest_eq, second.rest_eq, String.toList_append, List.append_assoc]
  · rw [second.skip_eq, first.skip_eq, String.length_append, Cursor.skip_add]

end Text

namespace Selector

open TokenSource Selector.Token

/-! ### Cutting a text behind a token -/

variable {cs r rest : List Char} {kind : Kind} {n : Nat}

/-- Cutting a text behind the token at its front leaves the token as it is. -/
theorem front?_of_append {w : Kind × String} (h : front? (cs ++ r) = some (w, rest ++ r))
    (more : w.1 ≠ .endOfInput) : front? cs = some (w, rest) := by
  obtain ⟨kind, text⟩ := w
  obtain ⟨n, lexed, rfl, left⟩ := front?_eq_some_iff.1 h
  obtain ⟨positive, bound⟩ := lexeme_extent lexed more
  have lengths := congrArg List.length left
  rw [List.length_append, List.length_drop] at lengths
  -- the text does not end within the white space, since the token has characters in front of `r`
  have start : (cs ++ r).dropWhile isSpace = cs.dropWhile isSpace ++ r := by
    rw [List.dropWhile_append, if_neg]
    intro empty
    have shorter : (r.dropWhile isSpace).length ≤ r.length := (List.dropWhile_suffix isSpace).length_le
    rw [List.dropWhile_append, if_pos empty] at lengths bound
    omega
  rw [start] at lexed left lengths bound
  rw [List.length_append] at lengths bound
  have inside : n ≤ (cs.dropWhile isSpace).length := by omega
  rw [List.drop_append_of_le_length inside] at left
  refine front?_eq_some_iff.2 ⟨n, lexeme_of_append lexed positive inside, ?_, ?_⟩
  · rw [start, List.take_append_of_le_length inside]
  · exact List.append_cancel_right left

variable {ws : List (Kind × String)}

/-- What is left behind tokens is an end of the text. -/
theorem Lexes.suffix (h : Lexes cs ws rest) : ∃ read, cs = read ++ rest := by
  induction h with
  | nil cs => exact ⟨[], rfl⟩
  | @cons cs cs' rest w ws front more tail ih =>
    obtain ⟨read, rfl⟩ := ih
    obtain ⟨kind, text⟩ := w
    obtain ⟨n, -, -, left⟩ := front?_eq_some_iff.1 front
    obtain ⟨before, whole⟩ := (List.drop_suffix n _).trans (List.dropWhile_suffix isSpace (l := cs))
    refine ⟨before ++ read, ?_⟩
    rw [List.append_assoc, left]
    exact whole.symm

/-- Cutting a text behind tokens leaves all of them as they are. -/
theorem Lexes.cut (h : Lexes (cs ++ r) ws (rest ++ r)) : Lexes cs ws rest := by
  generalize whole : cs ++ r = text at h
  generalize left : rest ++ r = behind at h
  induction h generalizing cs with
  | nil text =>
    rw [← left] at whole
    rw [List.append_cancel_right whole]
    exact .nil rest
  | cons front more tail ih =>
    obtain ⟨read, same⟩ := tail.suffix
    rw [← left, ← List.append_assoc] at same
    rw [← whole, same] at front
    exact .cons (front?_of_append front more) more (ih same.symm left)

/-- A cursor that has read tokens spans them. -/
theorem Yields.spans {c c' : Cursor} {ts : List Token} (h : Yields c ts c') :
    ∃ slice, Spans c slice c' := by
  induction h with
  | nil c => exact ⟨_, spans_skip (n := 0) (Nat.zero_le _)⟩
  | @cons c c₁ c' t ts read more rest ih =>
    obtain ⟨slice, spans⟩ := ih
    obtain ⟨n, lexed, -, moved⟩ := next_eq_ok_iff.1 read
    have bound := (lexeme_extent lexed more).2
    rw [← Cursor.rest_skip_run] at bound
    have space : c.run isSpace ≤ c.rest.length := length_takeWhile_le
    have token := (spans_skip space).trans (spans_skip bound)
    rw [← moved] at token
    exact ⟨_, token.trans spans⟩

/-! ### A selector among other text -/

variable {c c' : Cursor} {e : Selector} {ts : List Token} {slice : String}

/-- A slice of tokens ends with the last of them, and not with white space. -/
theorem exists_last_of_spans (run : Yields c ts c') (some : ts ≠ []) (spans : Spans c slice c') :
    ∃ inside d, slice.toList = inside ++ [d] ∧ isSpace d = false := by
  have lexes : Lexes (slice.toList ++ c'.rest) (ts.map Token.wording) ([] ++ c'.rest) := by
    rw [← spans.rest_eq]
    exact run.lexes
  obtain ⟨inside, d, whole, visible⟩ := lexes.cut.last (by simpa using some)
  rw [List.append_nil] at whole
  exact ⟨inside, d, whole, visible⟩

/-- What has been read as a selector is one as a text of its own. -/
theorem parse_slice (run : Yields c ts c') (derived : Derives ts (.operand 1 e))
    (spans : Spans c slice c') : parse slice = .ok e := by
  have lexes : Lexes (slice.toList ++ c'.rest) (ts.map Token.wording) ([] ++ c'.rest) := by
    rw [← spans.rest_eq]
    exact run.lexes
  obtain ⟨t, us, rfl, -⟩ := derived.starts
  obtain ⟨inside, d, whole, visible⟩ := exists_last_of_spans run nofun spans
  have noSpace : trailingSpace slice.toList = [] := by
    rw [whole, ← List.append_nil (inside ++ [d])]
    exact trailingSpace_append visible nofun
  refine parse_of_lexes ?_ derived
  rw [noSpace]
  exact lexes.cut

/-- The grammar moves the cursor over a slice that is the selector as a text of its own and ends with
the last token that was read. -/
theorem spans_of_expression (read : Grammar.expression c = .ok e c') :
    ∃ slice before last c₁, Spans c slice c' ∧ c.offset < c'.offset ∧ Yields c before c₁ ∧
      Token.next c₁ = .ok last c' ∧ Derives (before ++ [last]) (.operand 1 e) ∧
      parse slice = .ok e := by
  obtain ⟨ts, run, derived⟩ := Grammar.sound_expression read
  obtain ⟨slice, spans⟩ := run.spans
  have parsed := parse_slice run derived spans
  have some : ts ≠ [] := by
    obtain ⟨t, us, rfl, -⟩ := derived.starts
    exact List.cons_ne_nil t us
  obtain ⟨inside, d, whole, -⟩ := exists_last_of_spans run some spans
  have moved : c.offset < c'.offset := by
    have width : 0 < d.utf8Size := Char.utf8Size_pos d
    have size := width_toList slice
    rw [whole, width_append, Text.width, Text.width] at size
    rw [spans.offset_eq]
    omega
  obtain ⟨before, last, rfl⟩ : ∃ before last, ts = before ++ [last] :=
    ⟨_, _, (List.dropLast_concat_getLast some).symm⟩
  obtain ⟨c₁, first, second⟩ := Yields.append_iff.1 run
  exact ⟨slice, before, last, c₁, spans, moved, first, (Yields.single_iff.1 second).1, derived, parsed⟩

/-- In front of a closing parenthesis the cursor is left in front of the white space at the end of a
selector. -/
theorem spans_of_parse {text behind : String} (parsed : parse text = .ok e)
    (closing : behind.toList.head? = some ')') :
    ∃ visible c', Grammar.expression (Cursor.ofString (text ++ behind)) = .ok e c' ∧
      Spans (Cursor.ofString (text ++ behind)) visible c' ∧
      text.toList = visible.toList ++ trailingSpace text.toList := by
  obtain ⟨r, after⟩ : ∃ r, behind.toList = ')' :: r := List.head?_eq_some_iff.1 closing
  have here : (Cursor.ofString (text ++ behind)).rest = text.toList ++ ')' :: r := by
    rw [← after]
    exact String.toList_append
  obtain ⟨_, c', read, rfl, left⟩ := reads_expression parsed r _ here
  obtain ⟨visible, _, _, _, spans, -⟩ := spans_of_expression read
  refine ⟨visible, c', read, spans, ?_⟩
  have whole := spans.rest_eq
  rw [here, left, ← List.append_assoc] at whole
  exact List.append_cancel_right whole

/-- The grammar reads a slice of a text that is the selector by itself, up to the last token of it,
and a text that is a selector is read in front of a closing parenthesis up to its last token. -/
theorem expression_spans_parsed_slice :
    (∀ (text : String) (n : Nat) (e : Selector) (c' : Cursor),
      Grammar.expression ((Cursor.ofString text).skip n) = .ok e c' →
      ∃ slice before last c₁, Spans ((Cursor.ofString text).skip n) slice c' ∧
        ((Cursor.ofString text).skip n).offset < c'.offset ∧
        Yields ((Cursor.ofString text).skip n) before c₁ ∧ Token.next c₁ = .ok last c' ∧
        Derives (before ++ [last]) (.operand 1 e) ∧ parse slice = .ok e) ∧
    ∀ (text : String) (e : Selector), parse text = .ok e →
      ∀ behind : String, behind.toList.head? = some ')' →
        ∃ visible c', Grammar.expression (Cursor.ofString (text ++ behind)) = .ok e c' ∧
          Spans (Cursor.ofString (text ++ behind)) visible c' ∧
          text.toList = visible.toList ++ trailingSpace text.toList := by
  constructor
  · intro text n e c' read
    exact spans_of_expression read
  · intro text e parsed behind closing
    exact spans_of_parse parsed closing

/-- A quoted string with white space around it, and one behind a parenthesis. -/
theorem expression_spans_quoted : ∃ e visible slice c₁ c₂,
    parse " \"a.mdl\"\n" = .ok e ∧
    Grammar.expression (Cursor.ofString (" \"a.mdl\"\n" ++ "); \x7d")) = .ok e c₁ ∧
    Spans (Cursor.ofString (" \"a.mdl\"\n" ++ "); \x7d")) visible c₁ ∧
    Grammar.expression ((Cursor.ofString "(\"a.mdl\" )").skip 1) = .ok e c₂ ∧
    Spans ((Cursor.ofString "(\"a.mdl\" )").skip 1) slice c₂ ∧ parse slice = .ok e := by
  have parsed : parse " \"a.mdl\"\n" = .ok (.string "a.mdl") :=
    parse_string "a.mdl" (by decide) (by decide)
  have alone : parse "\"a.mdl\" " = .ok (.string "a.mdl") :=
    parse_string "a.mdl" (by decide) (by decide)
  have here : ((Cursor.ofString "(\"a.mdl\" )").skip 1).rest = "\"a.mdl\" ".toList ++ [')'] := by
    decide
  obtain ⟨_, c₂, read, rfl, -⟩ := reads_expression alone [] _ here
  obtain ⟨visible, c₁, read', spans', -⟩ :=
    expression_spans_parsed_slice.2 _ _ parsed "); \x7d" (by decide)
  obtain ⟨slice, _, _, _, spans, -, -, -, -, parsed'⟩ :=
    expression_spans_parsed_slice.1 "(\"a.mdl\" )" 1 _ _ read
  exact ⟨_, visible, slice, c₁, c₂, parsed, read', spans', read, spans, parsed'⟩

end Selector
end Quaked
