import Quaked.Proofs.Definition.Exactness
import Quaked.Proofs.Token.Tiling

/-!
# Descriptions are free text

Behind its first line a definition without entries is free text up to `*/`. But a token has to be
made where the text starts, twice, before it is read as it is: to tell whether entries stand there,
and to tell whether the comment ends at once. So the text may be anything if it is `Sayable`, that
is if its first character other than space and tab is no square bracket and no quote that stays
open. Everything behind that character is free.

* `legible_iff_sayable`: when a token can be made where a text starts.
* `free_text_iff`: a definition with a free text is read exactly if the text is sayable.
* `open_quote_rejected`: a text that is not.
-/

namespace Quaked.Definition

open Text Token Header

variable {c c' : Cursor} {cs free behind : List Char}

/-! ### The start of a text -/

/-- A text from its first character other than space and tab on. -/
def unpadded (cs : List Char) : List Char := cs.dropWhile fun ch => ch = ' ' || ch = '\t'

/-- The first character other than space and tab is no square bracket, and a quote only if it is
closed. -/
def Sayable (cs : List Char) : Prop :=
  ∀ ch tail, unpadded cs = ch :: tail → ch ≠ '[' ∧ ch ≠ ']' ∧ (ch = '"' → Closed tail)

theorem unpadded_of_blank {ch : Char} (blank : ch = ' ' ∨ ch = '\t') (cs : List Char) :
    unpadded (ch :: cs) = unpadded cs := by
  rcases blank with rfl | rfl <;> rfl

theorem unpadded_of_other {ch : Char} (other : ¬ (ch = ' ' ∨ ch = '\t')) (cs : List Char) :
    unpadded (ch :: cs) = ch :: cs := by
  unfold unpadded
  rw [List.dropWhile_cons_of_neg]
  simpa using other

theorem unpadded_of_blanks {blanks : List Char} (all : ∀ ch ∈ blanks, ch = ' ' ∨ ch = '\t')
    (cs : List Char) : unpadded (blanks ++ cs) = unpadded cs := by
  induction blanks with
  | nil => rfl
  | cons ch blanks ih =>
    obtain ⟨blank, all⟩ := List.forall_mem_cons.1 all
    rw [List.cons_append, unpadded_of_blank blank, ih all]

/-- A token can be made exactly where a text is sayable. -/
theorem legible_iff_sayable (cs : List Char) : Legible cs ↔ Sayable cs := by
  unfold Legible Sayable
  induction cs with
  | nil => exact ⟨fun _ => nofun, fun _ => nofun⟩
  | cons ch cs ih =>
    by_cases blank : ch = ' ' ∨ ch = '\t'
    · rw [gap, if_pos blank, unpadded_of_blank blank]
      exact ih
    rw [gap, if_neg blank, unpadded_of_other blank]
    split
    -- a comment starts with a slash and ends in front of a line break, so both sides hold
    · rename_i comment
      constructor
      · rintro - _ _ same
        cases same
        rw [comment.1]
        exact ⟨by decide, by decide, fun quote => absurd quote (by decide)⟩
      · intro _ d tail left
        have lineBreak := isLineBreak_behind (ch :: cs) d (by rw [left]; rfl)
        refine ⟨?_, ?_, ?_⟩ <;> rintro rfl <;> cases lineBreak
    · constructor
      · intro legible d tail same
        obtain ⟨noOpen, noClose, closed⟩ := legible d tail same
        exact ⟨noOpen, noClose, fun quote => closed_iff.2 (closed quote)⟩
      · intro sayable d tail same
        obtain ⟨noOpen, noClose, closed⟩ := sayable d tail same
        exact ⟨noOpen, noClose, fun quote => closed_iff.1 (closed quote)⟩

/-! ### The body -/

theorem lexeme_openBrace {n : Nat} (h : lexeme cs = .token .openBrace n) :
    ∃ tail, cs = '{' :: tail := by
  cases shape_of_lexeme h with
  | openBrace tail => exact ⟨tail, rfl⟩
  | word word => rcases wordLexeme_kind word with is | is | is <;> cases is

/-- Entries stand only where the first character other than space and tab is a brace. -/
theorem body_bare (dialect : Dialect) (other : (unpadded c.rest).head? ≠ some '{') :
    Entry.Body dialect c [] c := by
  apply Entry.Body.bare
  rintro t c₁ stands opens
  obtain ⟨kind, n, lexed, rfl, -⟩ := Token.next_eq_ok_iff.1 stands
  obtain rfl : kind = .openBrace := opens
  obtain ⟨tail, brace⟩ := lexeme_openBrace lexed
  have blanks := blank_of_mem_gap brace rfl
  have split := List.take_append_drop (gap c.rest) c.rest
  rw [brace] at split
  apply other
  rw [← split, unpadded_of_blanks blanks]
  rfl

/-- Up to a `*/` that no earlier one precedes the text is the description. -/
theorem remark_of_free (here : c.rest = free ++ '*' :: '/' :: behind)
    (noEnd : ¬ ['*', '/'] <:+: free) :
    Remark c (String.ofList (trim free)) (c.skip (free.length + 2)) := by
  apply Remark.mk here
  intro free' behind' here'
  by_contra shorter
  rw [here] at here'
  rcases List.append_eq_append_iff.1 here' with ⟨more, longer, -⟩ | ⟨more, rfl, rest⟩
  · rw [longer, List.length_append] at shorter
    exact shorter (Nat.le_add_right _ _)
  -- what is between the two ends is empty, a star, or starts with the earlier end
  match more with
  | [] => exact shorter (by simp)
  | [star] => cases rest
  | star :: slash :: more =>
    cases rest
    exact noEnd ⟨free', more, by simp⟩

/-! ### Definitions with a free text -/

/-- A definition is opened and its first line stands behind, with the name and the header. The
second cursor is behind the line break. -/
inductive Headed : Cursor → String → Option Header → Cursor → Prop where
  | mk {c c₁ c₂ c₃ c' : Cursor} {mark word newline : Token} {header : Option Header}
    (opened : Opening c mark c₁) (opens : mark.kind = .commentOpen) (named : Stands c₁ word c₂)
    (isWord : word.kind = .word) (line : Line c₂ header c₃) (ended : Stands c₃ newline c')
    (ends : newline.kind = .newline) : Headed c word.text header c'

variable {name : String} {header : Option Header} {settings : Settings} {s s' : Session}
  {outcome : Outcome}

/-- Where no token can be made behind the first line a definition is rejected. -/
theorem rejected_of_headed (headed : Headed s.cursor name header c) (illegible : ¬ Legible c.rest) :
    ∃ e s', next settings s = .error e s' := by
  obtain ⟨opened, opens, named, isWord, line, ended, ends⟩ := headed
  rename_i c₁ _ _ _ _ _
  obtain ⟨e, c', failed⟩ : ∃ e c', Token.next c = .error e c' := by
    cases read : Token.next c with
    | ok t c' => exact absurd (exists_next_iff.1 ⟨t, c', read⟩) illegible
    | error e c' => exact ⟨e, c', rfl⟩
  let at_ (c : Cursor) : Session := { s with cursor := c }
  have passed : (liftM opening : Parsing Bool) s = .ok true (at_ c₁) :=
    lift_eq_ok_iff.2 ⟨_, opening_eq_ok_iff.2 ⟨_, opened, (decide_eq_true opens).symm⟩, rfl⟩
  have first := header_eq_ok_iff.2 ⟨_, _, _, _, named, isWord, rfl, line, ended, ends⟩
  have lined : (liftM Definition.header : Parsing (String × Option Header)) (at_ c₁) =
      .ok _ (at_ c) := lift_eq_ok_iff.2 ⟨_, first, rfl⟩
  have peeked : (liftM Token.peek : Parsing Token) (at_ c) = .error e (at_ c') := by
    rw [lift_apply, Token.peek, Reading.ahead, failed]
    rfl
  have unentered : entries settings.dialect (at_ c) = .error e (at_ c') := bind_of_error peeked
  have undeclared : declare settings.dialect (at_ c₁) = .error e (at_ c') :=
    (bind_of_ok lined).trans (bind_of_error unentered)
  exact ⟨e, at_ c', (bind_of_ok passed).trans (bind_of_error undeclared)⟩

/-- Where one can the definition is read with what it says. -/
theorem read_of_headed (headed : Headed s.cursor name header c)
    (bare : Entry.Body settings.dialect c [] c) {text : String} (described : Remark c text c')
    (legible : Legible c.rest) :
    let p : Parts := ⟨name, header, [], text⟩
    ∃ outcome s', Concludes s p c' outcome s' ∧ next settings s = .ok outcome s' := by
  intro p
  obtain ⟨opened, opens, named, isWord, line, ended, ends⟩ := headed
  have behind := WrittenBehind.mk named isWord line ended ends bare described
  obtain ⟨outcome, s', concludes, -⟩ := exists_concludes settings s p c'
  have read := next_eq_ok_iff.2 (.inl ⟨p, c, c', .mk opened opens behind, legible, concludes⟩)
  exact ⟨outcome, s', concludes, read⟩

/-- The marker behind a free text keeps a brace from coming first if the text does. -/
theorem head?_unpadded_append (other : (unpadded free).head? ≠ some '{') :
    (unpadded (free ++ '*' :: '/' :: behind)).head? ≠ some '{' := by
  unfold unpadded at other ⊢
  rw [List.dropWhile_append]
  split
  · exact nofun
  · rename_i some
    obtain ⟨ch, tail, whole⟩ :=
      List.exists_cons_of_ne_nil fun none => some (List.isEmpty_iff.2 none)
    rw [whole] at other ⊢
    exact other

/-- A class keeps the description of its parts. -/
theorem Concludes.description_eq {p : Parts} {e : EntityClass}
    (concludes : Concludes s p c (.entity e) s') : e.description = p.description := by
  cases concludes with
  | entity filled presents => rw [presents.description, filled.description, Parts.declaration]

/-- What has a color is a class. -/
theorem exists_concludes_entity {p : Parts} (colored : p.header ≠ none) (s : Session) (c : Cursor) :
    ∃ e s', Concludes s p c (.entity e) s' := by
  obtain ⟨outcome, s', concludes, -⟩ := exists_concludes {} s p c
  obtain ⟨header, headed⟩ := Option.ne_none_iff_exists'.1 colored
  cases concludes with
  | base filled base =>
    rw [filled.color, Parts.declaration, headed] at base
    cases base
  | entity filled presents => exact ⟨_, _, .entity filled presents⟩

/-- A definition whose first line is followed by a text up to the first `*/`, which starts with no
brace, is read exactly if the text is sayable there. Then it comes to what a definition without entries
does that says the text without the white space at its ends, and so does the class it declares; it
declares one if the line goes on behind the name. -/
theorem free_text_iff (settings : Settings) (s : Session) (name : String) (header : Option Header)
    (c : Cursor) (free behind : List Char) (headed : Headed s.cursor name header c)
    (here : c.rest = free ++ '*' :: '/' :: behind) (noEnd : ¬ ['*', '/'] <:+: free)
    (noEntries : (unpadded free).head? ≠ some '{') :
    let p : Parts := ⟨name, header, [], String.ofList (trim free)⟩
    let last := c.skip (free.length + 2)
    (∀ outcome s', next settings s = .ok outcome s' ↔
      Sayable (free ++ '*' :: '/' :: behind) ∧ Concludes s p last outcome s') ∧
    (∀ e s', Concludes s p last (.entity e) s' → e.description = String.ofList (trim free)) ∧
    (header ≠ none → ∃ e s', Concludes s p last (.entity e) s') := by
  intro p last
  have bare : Entry.Body settings.dialect c [] c := by
    apply body_bare
    rw [here]
    exact head?_unpadded_append noEntries
  have described := remark_of_free here noEnd
  have read (legible : Legible c.rest) := read_of_headed headed bare described legible
  refine ⟨?_, fun e s' concludes => concludes.description_eq, ?_⟩
  · intro outcome s'
    rw [← here, ← legible_iff_sayable]
    constructor
    · intro accepted
      by_cases legible : Legible c.rest
      · obtain ⟨outcome', s'', concludes, run⟩ := read legible
        cases run.symm.trans accepted
        exact ⟨legible, concludes⟩
      · obtain ⟨e, s'', rejected⟩ := rejected_of_headed headed legible
        cases rejected.symm.trans accepted
    · rintro ⟨legible, concludes⟩
      obtain ⟨outcome', s'', concludes', run⟩ := read legible
      obtain ⟨rfl, rfl⟩ := concludes.unique concludes'
      exact run
  · exact fun colored => exists_concludes_entity (p := p) colored s last

/-! ### One that is read and one that is not -/

theorem headed_redName {rest : List Char}
    (here : c.rest = '/' :: '*' :: 'Q' :: 'U' :: 'A' :: 'K' :: 'E' :: 'D' :: redName (' ' :: '?' :: '\n' :: rest)) :
    ∃ header, Headed c "n" (some header) (c.skip 21) := by
  have left (k : Nat) : (c.skip k).rest = List.drop k _ := (Cursor.rest_skip c k).trans (congrArg _ here)
  obtain ⟨mark, opened, opens, -⟩ := stands_of_rest .commentOpen 8 here rfl
  obtain ⟨⟨word, named, isWord, name⟩, tokens, r, g, b, colors, colored⟩ := stands_redName (left 8)
  obtain ⟨brush, marked, isBrush, is⟩ := stands_of_rest .word 1 (left 18) rfl
  obtain ⟨newline, ended, ends, -⟩ := stands_of_rest .newline 1 (left 20) rfl
  have line : Line (c.skip 10) (some _) (c.skip 20) :=
    .header (colors.append (InOrder.append (.cons marked (.nil _)) (.nil _)))
      (.mk colored (.mark isBrush is) nofun (by decide))
  have headed : Headed c word.text (some _) (c.skip 21) :=
    .mk (.mk (.nil _) nofun opened (.inl opens)) opens named isWord line ended ends
  exact ⟨_, name ▸ headed⟩

/-- A text that starts with a word and goes on with anything. -/
def sayableText : List Char := " Says [\"\x7b // é\r\n".toList

/-- A definition with that text. -/
def said : String := "/*QUAKED n (1 0 0) ?\n Says [\"\x7b // é\r\n*/"

/-- It is read. -/
theorem free_text_said : ∃ e s', next {} (.ofString said) = .ok (.entity e) s' ∧
    e.description = "Says [\"\x7b // é" := by
  have front : (Cursor.ofString said).rest = _ := rfl
  obtain ⟨header, headed⟩ := headed_redName front
  have here : ((Cursor.ofString said).skip 21).rest = sayableText ++ ['*', '/'] := by decide
  have noEnd : ¬ ['*', '/'] <:+: sayableText := by decide +kernel
  have noEntries : (unpadded sayableText).head? ≠ some '\x7b' := by decide
  obtain ⟨read, description, emitted⟩ := free_text_iff {} (.ofString said) "n" (some header) _
    sayableText [] headed here noEnd noEntries
  obtain ⟨e, s', concludes⟩ := emitted nofun
  have start : (unpadded (sayableText ++ ['*', '/'])).head? = some 'S' := by decide
  have sayable : Sayable (sayableText ++ ['*', '/']) := by
    rintro ch tail same
    rw [same] at start
    cases start
    exact ⟨by decide, by decide, fun quote => absurd quote (by decide)⟩
  have trimmed : trim sayableText = "Says [\"\x7b // é".toList := by decide
  refine ⟨e, s', (read (.entity e) s').2 ⟨sayable, concludes⟩, ?_⟩
  rw [description e s' concludes, trimmed, String.ofList_toList]

/-- A text that starts with a quote and does not close it. -/
def openText : List Char := "\"Left open.\n".toList

/-- A definition with that text. -/
def leftOpen : String := "/*QUAKED n (1 0 0) ?\n\"Left open.\n*/"

/-- It is not read, though its first line and its text are as they may be. -/
theorem open_quote_rejected :
    (∃ header c, Headed (Cursor.ofString leftOpen) "n" (some header) c ∧
      c.rest = openText ++ ['*', '/']) ∧
    ¬ ['*', '/'] <:+: openText ∧ (unpadded openText).head? ≠ some '\x7b' ∧
    ∃ e s', next {} (.ofString leftOpen) = .error e s' := by
  have front : (Cursor.ofString leftOpen).rest = _ := rfl
  obtain ⟨header, headed⟩ := headed_redName front
  have here : ((Cursor.ofString leftOpen).skip 21).rest = openText ++ ['*', '/'] := by
    decide
  have start : unpadded (openText ++ ['*', '/']) = '"' :: "Left open.\n*/".toList := by
    decide
  have endless : ¬ Closed "Left open.\n*/".toList := by
    intro closed
    obtain ⟨n, inner⟩ := closed_iff.1 closed
    have none : interior? "Left open.\n*/".toList = none := by decide
    rw [none] at inner
    cases inner
  have illegible : ¬ Legible ((Cursor.ofString leftOpen).skip 21).rest := by
    rw [here]
    intro legible
    obtain ⟨-, -, closed⟩ := (legible_iff_sayable _).1 legible _ _ start
    exact endless (closed rfl)
  refine ⟨⟨header, _, headed, here⟩, by decide +kernel, by decide, ?_⟩
  exact rejected_of_headed headed illegible

end Quaked.Definition
