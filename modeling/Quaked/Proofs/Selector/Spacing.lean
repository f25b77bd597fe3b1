import Quaked.Proofs.Selector.Layout

/-!
# White space between tokens

The text of a selector is its tokens, with white space in front of each and at the end. `Tile` says so of
one token, and that no longer token could have been read there. Which white space it is does not matter: a
text with other white space in the same places (`Respaced`) has the same tokens and is the same selector.
None may be taken away between two tokens, because what is written together can be a longer token.

* `front?_iff_gap`: the token at the front of a text.
* `Token.ended`: what does not stand behind a token.
* `lexes_iff_tiles`: the tokens of a text.
* `Respaced.lexes`: the tokens under other white space.
* `tiled_and_respaced`: all of this for a whole text.
-/

namespace Quaked.Selector

open Text TokenSource Selector.Token

variable {text : String} {cs cs' rest left gap gap' : List Char} {t : Token} {ts us : List Token}

/-- Nothing but white space. -/
def White (cs : List Char) : Prop := ∀ c ∈ cs, isSpace c = true

instance : Decidable (White cs) := decidable_of_iff (cs.all isSpace = true) List.all_eq_true

/-! ### One token -/

/-- A token does not go on with what stands behind it: a name not with a character of names, a number
neither with a digit nor with a point and a digit, a mark not with a character that makes another mark of
it, and altogether no token is written with more of the text. -/
structure Token.Ended (t : Token) (rest : List Char) : Prop where
  name : t.kind ∈ [.name, .boolean, .null] → ∀ c ∈ rest.head?, continuesName c = false
  digit : t.kind = .number → ∀ c ∈ rest.head?, c.isDigit = false
  point : t.kind = .number → ∀ c tail, rest = '.' :: c :: tail → c.isDigit = false
  mark : ∀ c ∈ rest.head?, ∀ kind, (kind, t.extent ++ [c]) ∉ marks
  longest : Longest t.extent rest

/-- At the front of a text stand white space and the characters of a token, and `rest` behind them. -/
structure Tile (cs : List Char) (t : Token) (rest : List Char) : Prop where
  split : ∃ gap, White gap ∧ cs = gap ++ (t.extent ++ rest)
  some : t.extent ≠ []
  said : t.text = t.kind.textOf t.extent
  spelled : Spells t.kind t.extent
  ended : t.Ended rest

theorem dropWhile_white (white : White gap) (visible : ∀ c ∈ cs.head?, isSpace c = false) :
    (gap ++ cs).dropWhile isSpace = cs := by
  rw [List.dropWhile_append_of_pos white]
  cases cs with
  | nil => rfl
  | cons c cs => simp [visible c rfl]

/-- White space and a visible character behind it part a text in one way. -/
theorem white_unique (white : White gap) (white' : White gap')
    (visible : ∀ c ∈ cs.head?, isSpace c = false) (visible' : ∀ c ∈ cs'.head?, isSpace c = false)
    (same : gap ++ cs = gap' ++ cs') : cs = cs' := by
  rw [← dropWhile_white white visible, same, dropWhile_white white' visible']

/-- The token at the front of a text is the one that stands there behind white space. -/
theorem front?_iff_gap (more : t.kind ≠ .endOfInput) :
    front? cs = some (t.wording, rest) ↔ ∃ gap, White gap ∧ cs = gap ++ (t.extent ++ rest) ∧
      lexeme (t.extent ++ rest) = .token t.kind t.extent.length ∧ t.text = t.kind.textOf t.extent := by
  constructor
  · intro front
    obtain ⟨n, lexed, said, left⟩ := front?_eq_some_iff.1 front
    have extent : t.extent = (cs.dropWhile isSpace).take n := by
      rw [← extent_of_lexeme lexed t.position, ← said]
    have whole : t.extent ++ rest = cs.dropWhile isSpace := by
      rw [extent, left, List.take_append_drop]
    have length : t.extent.length = n := by
      rw [extent, List.length_take_of_le (lexeme_extent lexed more).2]
    refine ⟨cs.takeWhile isSpace, fun c mem => List.all_eq_true.1 List.all_takeWhile c mem, ?_, ?_, ?_⟩
    · rw [whole, List.takeWhile_append_dropWhile]
    · rw [whole, length, lexed]
    · rw [extent, said]
  · rintro ⟨gap, white, rfl, lexed, said⟩
    obtain ⟨spelled, -⟩ := (lexeme_iff_longest more).1 lexed
    have passed : (gap ++ (t.extent ++ rest)).dropWhile isSpace = t.extent ++ rest :=
      dropWhile_white white (spelled.head?_append rest ▸ spelled.head_visible)
    refine front?_eq_some_iff.2 ⟨t.extent.length, ?_, ?_, ?_⟩
    · rw [passed, lexed]
    · rw [passed, List.take_left, said]
    · rw [passed, List.drop_left]

/-- A token that a point does not follow has ended. -/
theorem Token.ended (more : t.kind ≠ .endOfInput)
    (lexed : lexeme (t.extent ++ rest) = .token t.kind t.extent.length) (noPoint : rest.head? ≠ some '.') :
    t.Ended rest := by
  obtain ⟨spelled, longest⟩ := (lexeme_iff_longest more).1 lexed
  have stops {c : Char} {kind : Kind} (first : c ∈ rest.head?) : ¬ Spells kind (t.extent ++ [c]) := by
    obtain ⟨tail, rfl⟩ := List.head?_eq_some_iff.1 first
    exact longest.not_spells
  refine ⟨?_, ?_, ?_, ?_, longest⟩
  · intro word c first
    refine Bool.eq_false_iff.2 fun continues => ?_
    obtain ⟨kind, goesOn⟩ := spelled.word_concat word continues
    exact stops first goesOn
  · intro number c first
    exact Bool.eq_false_iff.2 fun digit => stops first (spelled.number_concat digit number)
  · rintro - c tail rfl
    exact absurd rfl noPoint
  · exact fun c first kind among => stops first (.mark among)

/-! ### Several tokens -/

/-- No token starts with a point, so none stands in front of what is read. -/
theorem Lexes.head_ne_point {ws : List (Kind × String)} (h : Lexes cs ws left) (white : White left) :
    cs.head? ≠ some '.' := by
  intro first
  obtain ⟨tail, rfl⟩ := List.head?_eq_some_iff.1 first
  cases h with
  | nil => exact absurd (white '.' List.mem_cons_self) (by decide)
  | cons front => cases front

/-- Tokens that are read up to white space are tiles, and tiles are read. -/
theorem lexes_iff_tiles (white : White left) :
    Lexes cs (ts.map Token.wording) left ↔ InOrder Tile cs ts left := by
  constructor
  · intro h
    induction ts generalizing cs with
    | nil =>
      cases h
      exact .nil _
    | cons t ts ih =>
      cases h with
      | cons front more tail =>
        obtain ⟨gap, between, rfl, lexed, said⟩ := (front?_iff_gap more).1 front
        obtain ⟨spelled, -⟩ := (lexeme_iff_longest more).1 lexed
        have ended := Token.ended more lexed (tail.head_ne_point white)
        exact .cons ⟨⟨gap, between, rfl⟩, spelled.ne_nil, said, spelled, ended⟩ (ih tail)
  · intro h
    induction h with
    | nil cs => exact .nil cs
    | cons head _ ih =>
      obtain ⟨gap, between, whole⟩ := head.split
      have more := head.spelled.ne_endOfInput
      have lexed := (lexeme_iff_longest more).2 ⟨head.spelled, head.ended.longest⟩
      exact .cons ((front?_iff_gap more).2 ⟨gap, between, whole, lexed, head.said⟩) more (ih white)

/-- Two texts of the same tokens with white space in front of each and behind the last. Where there is some
in the first text there is some in the second, but it can be any. -/
inductive Respaced : List Token → List Char → List Char → Prop where
  | last {gap gap' : List Char} (white : White gap) (white' : White gap') : Respaced [] gap gap'
  | token {gap gap' cs cs' : List Char} {t : Token} {ts : List Token} (white : White gap)
      (white' : White gap') (kept : gap' = [] → gap = []) (behind : Respaced ts cs cs') :
      Respaced (t :: ts) (gap ++ (t.extent ++ cs)) (gap' ++ (t.extent ++ cs'))

namespace Respaced

/-- The second text starts with white space or like the first. -/
theorem head (h : Respaced ts cs cs') (lexes : Lexes cs (ts.map Token.wording) left) :
    ∀ d ∈ cs'.head?, isSpace d = true ∨ cs.head? = some d := by
  intro d first
  cases h with
  | last white white' => exact .inl (white' d (List.mem_of_mem_head? first))
  | @token gap gap' _ _ t _ white white' kept behind =>
    cases gap' with
    | cons c gap' =>
      cases first
      exact .inl (white' d List.mem_cons_self)
    | nil =>
      obtain rfl := kept rfl
      cases lexes with
      | cons front more tail =>
        obtain ⟨-, -, -, lexed, -⟩ := (front?_iff_gap more).1 front
        obtain ⟨spelled, -⟩ := (lexeme_iff_longest more).1 lexed
        rw [List.nil_append, spelled.head?_append] at first ⊢
        exact .inr first

/-- The second text has the tokens of the first. -/
theorem lexes (h : Respaced ts cs cs') (lexes : Lexes cs (ts.map Token.wording) left)
    (white : White left) : ∃ left', White left' ∧ Lexes cs' (ts.map Token.wording) left' := by
  induction h with
  | last white white' => exact ⟨_, white', .nil _⟩
  | @token gap gap' cs cs' t ts between between' kept behind ih =>
    cases lexes with
    | @cons _ rest _ _ _ front more tail =>
      obtain ⟨gap₁, between₁, whole, lexed, said⟩ := (front?_iff_gap more).1 front
      obtain ⟨spelled, -⟩ := (lexeme_iff_longest more).1 lexed
      have visible (r : List Char) : ∀ c ∈ (t.extent ++ r).head?, isSpace c = false :=
        spelled.head?_append r ▸ spelled.head_visible
      obtain rfl : cs = rest := by
        have same := white_unique between between₁ (visible cs) (visible rest) whole
        exact List.append_cancel_left same
      obtain ⟨left', white', lexes'⟩ := ih tail
      -- the token ends where it did, because what stands behind it starts with white space or as before
      have lexed' : lexeme (t.extent ++ cs') = .token t.kind t.extent.length := by
        refine lexeme_of_behind more lexed fun d first => ?_
        rcases behind.head tail d first with space | same
        · exact .inl space
        · refine .inr ⟨same, ?_⟩
          rintro rfl
          exact tail.head_ne_point white same
      have front' := (front?_iff_gap more).2 ⟨gap', between', rfl, lexed', said⟩
      exact ⟨left', white', .cons front' more lexes'⟩

end Respaced

/-! ### A whole text -/

/-- The tokens of a text that is read to its end lead up to the end. -/
theorem exists_end_of_all (all : Token.all text = (us, none)) :
    ∃ ts last, us = ts ++ [last] ∧ last.kind = .endOfInput := by
  obtain ⟨ts, last, same, is⟩ := Reading.exists_last
    (fun read more => LawfulTokenSource.unread_next (σ := Cursor) read (by simpa using more)) all
  exact ⟨ts, last, same, of_decide_eq_true is⟩

/-- They are what is read up to the white space in front of the end. -/
theorem lexes_of_all (all : Token.all text = (us, none)) :
    ∃ ts last left, us = ts ++ [last] ∧ last.wording = (.endOfInput, "") ∧ White left ∧
      Lexes text.toList (ts.map Token.wording) left := by
  obtain ⟨ts, last, rfl, kind⟩ := exists_end_of_all all
  obtain ⟨c, c', run, read, -⟩ := all_eq_iff.1 ⟨all, kind⟩
  obtain ⟨silent, white⟩ := ending_of_next read kind
  exact ⟨ts, last, c.rest, rfl, Prod.ext kind silent, white, run.lexes⟩

/-- Where tokens reach up to white space, a text is read to its end. -/
theorem all_of_lexes {ws : List (Kind × String)} (lexes : Lexes text.toList ws left) (white : White left) :
    ∃ us, Token.all text = (us, none) ∧ us.map Token.wording = ws ++ [(.endOfInput, "")] := by
  obtain ⟨ts, last, c, c', run, read, wording, rfl⟩ := lexes.yields_text white
  obtain ⟨all, -⟩ := all_eq_iff.2 ⟨c, c', run, read, congrArg Prod.fst wording⟩
  exact ⟨ts ++ [last], all, by simp [wording]⟩

/-- A text is the selector that its tokens up to the end derive. -/
theorem parse_iff_derives {last : Token} {e : Selector} (all : Token.all text = (ts ++ [last], none)) :
    parse text = .ok e ↔ Derives ts (.operand 1 e) := by
  constructor
  · intro h
    obtain ⟨ts', last', c, c', run, read, kind, derived⟩ := parse_eq_ok_iff.1 h
    obtain ⟨all', -⟩ := all_eq_iff.2 ⟨c, c', run, read, kind⟩
    obtain ⟨rfl, -⟩ := List.append_inj' (congrArg Prod.fst (all.symm.trans all')) rfl
    exact derived
  · intro derived
    obtain ⟨_, _, same, kind⟩ := exists_end_of_all all
    obtain ⟨rfl, rfl⟩ := List.append_singleton_inj.1 same
    obtain ⟨c, c', run, read, -⟩ := all_eq_iff.1 ⟨all, kind⟩
    exact parse_eq_ok_iff.2 ⟨ts, last, c, c', run, read, kind, derived⟩

/-- Texts whose tokens say the same are the same selector, or neither is one. -/
theorem parse_of_wordings {text' : String} {us' : List Token} (all : Token.all text = (us, none))
    (all' : Token.all text' = (us', none)) (same : us'.map Token.wording = us.map Token.wording)
    (e : Selector) :
    parse text' = .ok e ↔ parse text = .ok e := by
  obtain ⟨ts, last, rfl, -⟩ := exists_end_of_all all
  obtain ⟨ts', last', rfl, -⟩ := exists_end_of_all all'
  rw [parse_iff_derives all, parse_iff_derives all']
  rw [List.map_append, List.map_append] at same
  obtain ⟨tokens, -⟩ := List.append_inj' same rfl
  exact ⟨fun derived => derived.relabel tokens.symm, fun derived => derived.relabel tokens⟩

/-- A text that is read to its end consists of its tokens, which have characters and end where no token
could go on, and of white space around them. With any other white space in the same places the tokens say
the same, and the text is the same selector or none as before. And every text that consists of tokens and
white space in this way is read to its end. -/
theorem tiled_and_respaced :
    (∀ (text : String) (us : List Token), Token.all text = (us, none) →
      ∃ ts last left, us = ts ++ [last] ∧ last.wording = (.endOfInput, "") ∧
        InOrder Tile text.toList ts left ∧ White left ∧
        ∀ text' : String, Respaced ts text.toList text'.toList →
          (∃ us', Token.all text' = (us', none) ∧ us'.map Token.wording = us.map Token.wording) ∧
          ∀ e, parse text' = .ok e ↔ parse text = .ok e) ∧
    ∀ (text : String) (ts : List Token) (left : List Char), InOrder Tile text.toList ts left → White left →
      ∃ us, Token.all text = (us, none) ∧
        us.map Token.wording = ts.map Token.wording ++ [(.endOfInput, "")] := by
  constructor
  · intro text us all
    obtain ⟨ts, last, left, rfl, ending, white, lexes⟩ := lexes_of_all all
    refine ⟨ts, last, left, rfl, ending, (lexes_iff_tiles white).1 lexes, white, ?_⟩
    intro text' respaced
    obtain ⟨left', white', lexes'⟩ := respaced.lexes lexes white
    obtain ⟨us', all', said⟩ := all_of_lexes lexes' white'
    have same : us'.map Token.wording = (ts ++ [last]).map Token.wording := by
      rw [said, List.map_append, List.map_singleton, ending]
    exact ⟨⟨us', all', same⟩, parse_of_wordings all all' same⟩
  · intro text ts left tiles white
    exact all_of_lexes ((lexes_iff_tiles white).2 tiles) white

/-- A minus stays with its digit where white space comes between the tokens, and so does the selector. -/
theorem tiled_and_respaced_minus : ∃ ts last left,
    Token.all "a<-1" = (ts ++ [last], none) ∧ InOrder Tile "a<-1".toList ts left ∧ White left ∧
    (∃ us, Token.all "a<-1" = (us, none) ∧ us.map Token.wording =
      [(.name, "a"), (.less, "<"), (.number, "-1"), (.endOfInput, "")]) ∧
    Respaced ts "a<-1".toList "a <\t-1 ".toList ∧
    (∃ us', Token.all "a <\t-1 " = (us', none) ∧ us'.map Token.wording =
      [(.name, "a"), (.less, "<"), (.number, "-1"), (.endOfInput, "")]) ∧
    ∀ e, parse "a <\t-1 " = .ok e ↔ parse "a<-1" = .ok e := by
  have run : Yields (Cursor.ofString "a<-1")
      [⟨.name, "a", ⟨1, 1⟩⟩, ⟨.less, "<", ⟨1, 2⟩⟩, ⟨.number, "-1", ⟨1, 3⟩⟩]
      (⟨4, ⟨1, 5⟩, 4, []⟩ : Cursor) :=
    .cons rfl (by decide) (.cons rfl (by decide) (.cons rfl (by decide) (.nil _)))
  obtain ⟨all, -⟩ := all_eq_iff.2 ⟨_, _, run, rfl, rfl⟩
  obtain ⟨ts, last, left, same, -, tiles, white, respace⟩ := tiled_and_respaced.1 _ _ all
  obtain ⟨rfl, rfl⟩ := List.append_singleton_inj.1 same
  have none : White [] := by decide
  have space : White [' '] := by decide
  have tab : White ['\t'] := by decide
  have number : Respaced [⟨.number, "-1", ⟨1, 3⟩⟩] "-1".toList "\t-1 ".toList :=
    .token none tab nofun (.last none space)
  have less : Respaced [⟨.less, "<", ⟨1, 2⟩⟩, ⟨.number, "-1", ⟨1, 3⟩⟩] "<-1".toList " <\t-1 ".toList :=
    .token none space nofun number
  have respaced : Respaced _ "a<-1".toList "a <\t-1 ".toList :=
    .token none none (t := ⟨.name, "a", ⟨1, 1⟩⟩) id less
  obtain ⟨tokens, selectors⟩ := respace _ respaced
  exact ⟨_, _, left, all, tiles, white, tiled_and_respaced.2 _ _ _ tiles white, respaced, tokens, selectors⟩

end Quaked.Selector
