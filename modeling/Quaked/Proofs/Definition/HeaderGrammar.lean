import Quaked.Definition.Grammar
import Quaked.Proofs.Token.Runs

/-!
# The grammar of headers

What a header says is read off its tokens. `Header.Written ts h` says that the tokens `ts` are those
of a header behind the name, and what it declares; no line break may stand between them. The reader
succeeds exactly on such tokens, up to the first that is no flag (`Header.read_eq_ok_iff`).

A header goes on behind the name with its color or ends there, and a line break closes it either way
(`Definition.header_eq_ok_iff`).
-/

namespace Quaked

open Text Token

namespace Header

variable {F : Format} {c c' : Cursor} {t : Token} {ts flags : List Token}

/-! ### What tokens say -/

/-- A token that is a number by its kind. -/
def IsNumber (t : Token) : Prop := t.kind = .integer ∨ t.kind = .decimal

/-- The number that a token writes. -/
def numberOf (F : Format) (t : Token) : Number F := (Number.ofString? t.text).getD .nan

/-- Three numbers in parentheses. -/
inductive Triple (F : Format) : List Token → Number F × Number F × Number F → Prop where
  | mk {opening x y z closing : Token} (opens : opening.kind = .openParen) (first : IsNumber x)
    (second : IsNumber y) (third : IsNumber z) (closes : closing.kind = .closeParen) :
    Triple F [opening, x, y, z, closing] (numberOf F x, numberOf F y, numberOf F z)

/-- The tokens of an extent in front of those of the flags: a box, a question mark, or nothing in
front of the name of a flag. -/
inductive Extent : List Token → List Token → Option Bounds → Prop where
  | box {corner corner' flags : List Token} {x y z x' y' z' : Number .double}
    (first : Triple .double corner (x, y, z)) (second : Triple .double corner' (x', y', z')) :
    Extent (corner ++ corner') flags (some (.spanning ⟨x, y, z⟩ ⟨x', y', z'⟩))
  | mark {t : Token} {flags : List Token} (word : t.kind = .word) (is : t.text = "?") :
    Extent [t] flags none
  | nothing {t : Token} {flags : List Token} (word : t.kind = .word) (other : t.text ≠ "?") :
    Extent [] (t :: flags) none

/-- A token that stands for a flag. -/
def IsFlag (t : Token) : Prop := t.kind = .word ∨ t.kind = .minus

/-- The name of a flag, none for a reserved bit. -/
def flagName (t : Token) : String := if t.kind = .word then t.text else ""

/-- The tokens of a header behind the name, and what it declares. -/
inductive Written : List Token → Header → Prop where
  | mk {color extent flags : List Token} {r g b : Number .single} {bounds : Option Bounds}
    (colored : Triple .single color (r, g, b)) (extended : Extent extent flags bounds)
    (flagged : ∀ t ∈ flags, IsFlag t) (limited : flags.length ≤ Attribute.flagLimit) :
    Written (color ++ (extent ++ flags))
      { color := .ofComponents r g b, bounds, flags := flags.map flagName }

/-! ### Numbers -/

theorem readNumber_eq_ok_iff {x : Number F} :
    readNumber F c = .ok x c' ↔ ∃ t, Stands c t c' ∧ IsNumber t ∧ x = numberOf F t := by
  have kinds (t : Token) : t.kind ∈ [Kind.integer, .decimal] ↔ IsNumber t := by simp [IsNumber]
  constructor
  · intro h
    obtain ⟨t, c₁, read, h⟩ := bind_eq_ok_iff.1 h
    obtain ⟨stands, kind⟩ := nextOf_eq_ok_iff.1 read
    obtain ⟨y, written⟩ := number_of_next stands ((kinds t).1 kind) F
    rw [written] at h
    obtain ⟨rfl, rfl⟩ := pure_eq_ok_iff.1 h
    exact ⟨t, stands, (kinds t).1 kind, by rw [numberOf, written]; rfl⟩
  · rintro ⟨t, stands, number, rfl⟩
    refine bind_eq_ok_iff.2 ⟨t, c', nextOf_eq_ok_iff.2 ⟨stands, (kinds t).2 number⟩, ?_⟩
    obtain ⟨y, written⟩ := number_of_next stands number F
    rw [numberOf, written]
    rfl

theorem readTriple_eq_ok_iff {v : Number F × Number F × Number F} :
    readTriple F c = .ok v c' ↔ ∃ ts, Run c ts c' ∧ Triple F ts v := by
  constructor
  · intro h
    obtain ⟨opening, c₁, opened, opens, h⟩ := nextOf_bind_eq_ok_iff.1 h
    obtain ⟨_, c₂, first, h⟩ := bind_eq_ok_iff.1 h
    obtain ⟨x, standsX, isX, rfl⟩ := readNumber_eq_ok_iff.1 first
    obtain ⟨_, c₃, second, h⟩ := bind_eq_ok_iff.1 h
    obtain ⟨y, standsY, isY, rfl⟩ := readNumber_eq_ok_iff.1 second
    obtain ⟨_, c₄, third, h⟩ := bind_eq_ok_iff.1 h
    obtain ⟨z, standsZ, isZ, rfl⟩ := readNumber_eq_ok_iff.1 third
    obtain ⟨closing, c₅, closed, closes, h⟩ := nextOf_bind_eq_ok_iff.1 h
    obtain ⟨rfl, rfl⟩ := pure_eq_ok_iff.1 h
    refine ⟨[opening, x, y, z, closing], ?_, ?_⟩
    · exact .cons opened (.cons standsX (.cons standsY (.cons standsZ (.cons closed (.nil _)))))
    · exact .mk (List.mem_singleton.1 opens) isX isY isZ (List.mem_singleton.1 closes)
  · rintro ⟨_, run, opens, isX, isY, isZ, closes⟩
    simp only [InOrder.cons_iff, InOrder.nil_iff] at run
    obtain ⟨c₁, opened, c₂, standsX, c₃, standsY, c₄, standsZ, _, closed, rfl⟩ := run
    refine nextOf_bind_eq_ok_iff.2 ⟨_, c₁, opened, List.mem_singleton.2 opens, ?_⟩
    refine bind_eq_ok_iff.2 ⟨_, c₂, readNumber_eq_ok_iff.2 ⟨_, standsX, isX, rfl⟩, ?_⟩
    refine bind_eq_ok_iff.2 ⟨_, c₃, readNumber_eq_ok_iff.2 ⟨_, standsY, isY, rfl⟩, ?_⟩
    refine bind_eq_ok_iff.2 ⟨_, c₄, readNumber_eq_ok_iff.2 ⟨_, standsZ, isZ, rfl⟩, ?_⟩
    exact nextOf_bind_eq_ok_iff.2 ⟨_, _, closed, List.mem_singleton.2 closes, rfl⟩

theorem readColor_eq_ok_iff {color : Color} :
    readColor c = .ok color c' ↔
      ∃ ts r g b, Run c ts c' ∧ Triple .single ts (r, g, b) ∧ color = .ofComponents r g b := by
  constructor
  · intro h
    obtain ⟨⟨r, g, b⟩, c₁, read, h⟩ := bind_eq_ok_iff.1 h
    obtain ⟨ts, run, triple⟩ := readTriple_eq_ok_iff.1 read
    obtain ⟨rfl, rfl⟩ := pure_eq_ok_iff.1 h
    exact ⟨ts, r, g, b, run, triple, rfl⟩
  · rintro ⟨ts, r, g, b, run, triple, rfl⟩
    exact bind_eq_ok_iff.2 ⟨_, c', readTriple_eq_ok_iff.2 ⟨ts, run, triple⟩, rfl⟩

theorem readVector_eq_ok_iff {v : Vector} :
    readVector c = .ok v c' ↔ ∃ ts, Run c ts c' ∧ Triple .double ts (v.x, v.y, v.z) := by
  constructor
  · intro h
    obtain ⟨⟨x, y, z⟩, c₁, read, h⟩ := bind_eq_ok_iff.1 h
    obtain ⟨ts, run, triple⟩ := readTriple_eq_ok_iff.1 read
    obtain ⟨rfl, rfl⟩ := pure_eq_ok_iff.1 h
    exact ⟨ts, run, triple⟩
  · rintro ⟨ts, run, triple⟩
    exact bind_eq_ok_iff.2 ⟨_, c', readTriple_eq_ok_iff.2 ⟨ts, run, triple⟩, rfl⟩

theorem readBox_eq_ok_iff {bounds : Bounds} :
    readBox c = .ok bounds c' ↔ ∃ corner corner' a b, Run c (corner ++ corner') c' ∧
      Triple .double corner (a.x, a.y, a.z) ∧ Triple .double corner' (b.x, b.y, b.z) ∧
      bounds = .spanning a b := by
  constructor
  · intro h
    obtain ⟨a, c₁, first, h⟩ := bind_eq_ok_iff.1 h
    obtain ⟨corner, run, triple⟩ := readVector_eq_ok_iff.1 first
    obtain ⟨b, c₂, second, h⟩ := bind_eq_ok_iff.1 h
    obtain ⟨corner', run', triple'⟩ := readVector_eq_ok_iff.1 second
    obtain ⟨rfl, rfl⟩ := pure_eq_ok_iff.1 h
    exact ⟨corner, corner', a, b, run.append run', triple, triple', rfl⟩
  · rintro ⟨corner, corner', a, b, run, first, second, rfl⟩
    obtain ⟨c₁, run, run'⟩ := InOrder.append_iff.1 run
    refine bind_eq_ok_iff.2 ⟨a, c₁, readVector_eq_ok_iff.2 ⟨corner, run, first⟩, ?_⟩
    exact bind_eq_ok_iff.2 ⟨b, c', readVector_eq_ok_iff.2 ⟨corner', run', second⟩, rfl⟩

/-! ### Extents -/

theorem Triple.opens {v : Number F × Number F × Number F} (h : Triple F ts v) :
    ∃ t us, ts = t :: us ∧ t.kind = .openParen := by
  cases h with
  | mk opens => exact ⟨_, _, rfl, opens⟩

/-- What has been read as an extent is one in front of the flags that follow. -/
theorem extent_of_readExtent {bounds : Option Bounds} (h : readExtent c = .ok bounds c') :
    ∃ ts, Run c ts c' ∧ ∀ flags c'' t c₁, Run c' flags c'' → Stands c'' t c₁ → ¬ IsFlag t →
      Extent ts flags bounds := by
  obtain ⟨t, c₁, stands, kind, h⟩ := peekOf_bind_eq_ok_iff.1 h
  split at h
  · obtain ⟨box, c₂, read, h⟩ := bind_eq_ok_iff.1 h
    obtain ⟨corner, corner', a, b, run, first, second, rfl⟩ := readBox_eq_ok_iff.1 read
    obtain ⟨rfl, rfl⟩ := pure_eq_ok_iff.1 h
    exact ⟨corner ++ corner', run, fun _ _ _ _ _ _ _ => .box first second⟩
  rename_i noParen
  have word : t.kind = .word := by simpa [noParen] using kind
  split at h
  · rename_i mark
    obtain ⟨u, c₂, passed, h⟩ := bind_eq_ok_iff.1 h
    obtain ⟨rfl, rfl⟩ := pure_eq_ok_iff.1 h
    obtain ⟨rfl, rfl⟩ := stands.unique passed
    exact ⟨[u], .cons stands (.nil _), fun _ _ _ _ _ _ _ => .mark word mark⟩
  · rename_i noMark
    obtain ⟨rfl, rfl⟩ := pure_eq_ok_iff.1 h
    refine ⟨[], .nil _, ?_⟩
    intro flags c'' u c₂ run behind other
    -- the word that is left is the first flag, so there is one
    cases run with
    | nil =>
      obtain ⟨rfl, rfl⟩ := stands.unique behind
      exact absurd (.inl word) other
    | cons head _ =>
      obtain ⟨rfl, rfl⟩ := stands.unique head
      exact .nothing word noMark

theorem readExtent_of_extent {bounds : Option Bounds} {c'' : Cursor} (extent : Extent ts flags bounds)
    (run : Run c ts c') (behind : Run c' flags c'') : readExtent c = .ok bounds c' := by
  cases extent with
  | box first second =>
    obtain ⟨t, us, rfl, opens⟩ := first.opens
    obtain ⟨c₁, head, -⟩ := InOrder.cons_iff.1 run
    refine peekOf_bind_eq_ok_iff.2 ⟨t, c₁, head, by simp [opens], ?_⟩
    rw [if_pos opens]
    have read := readBox_eq_ok_iff.2 ⟨_, _, ⟨_, _, _⟩, ⟨_, _, _⟩, run, first, second, rfl⟩
    exact bind_eq_ok_iff.2 ⟨_, c', read, rfl⟩
  | @mark t _ word is =>
    obtain ⟨c₁, head, tail⟩ := InOrder.cons_iff.1 run
    obtain rfl := InOrder.nil_iff.1 tail
    refine peekOf_bind_eq_ok_iff.2 ⟨t, c₁, head, by simp [word], ?_⟩
    rw [if_neg (by simp [word]), if_pos is]
    exact bind_eq_ok_iff.2 ⟨t, c₁, head, rfl⟩
  | @nothing t _ word other =>
    obtain rfl := InOrder.nil_iff.1 run
    obtain ⟨c₁, head, -⟩ := InOrder.cons_iff.1 behind
    refine peekOf_bind_eq_ok_iff.2 ⟨t, c₁, head, by simp [word], ?_⟩
    rw [if_neg (by simp [word]), if_neg other]
    rfl

/-! ### Flags -/

theorem isOneOf_flag_iff : t.isOneOf [.word, .minus] = true ↔ IsFlag t := by
  simp [isOneOf, IsFlag]

theorem readFlag?_eq_some_iff {names names' : List String} :
    readFlag? names c = .ok (some names') c' ↔ ∃ t, Stands c t c' ∧ IsFlag t ∧
      names.length < Attribute.flagLimit ∧ names' = names ++ [flagName t] := by
  constructor
  · intro h
    obtain ⟨t, c₁, stands, h⟩ := peek_bind_eq_ok_iff.1 h
    split at h
    · rename_i flag
      obtain ⟨u, c₂, passed, h⟩ := bind_eq_ok_iff.1 h
      obtain ⟨rfl, rfl⟩ := stands.unique passed
      split at h
      · rename_i limited
        obtain ⟨same, rfl⟩ := pure_eq_ok_iff.1 h
        cases same
        exact ⟨u, stands, isOneOf_flag_iff.1 flag, limited, rfl⟩
      · exact absurd h Reading.fail_ne_ok
    · cases (pure_eq_ok_iff.1 h).1
  · rintro ⟨t, stands, flag, limited, rfl⟩
    refine peek_bind_eq_ok_iff.2 ⟨t, c', stands, ?_⟩
    rw [if_pos (isOneOf_flag_iff.2 flag)]
    refine bind_eq_ok_iff.2 ⟨t, c', stands, ?_⟩
    rw [if_pos limited]
    rfl

theorem readFlag?_eq_none_iff {names : List String} :
    readFlag? names c = .ok none c' ↔ c' = c ∧ ∃ t c₁, Stands c t c₁ ∧ ¬ IsFlag t := by
  constructor
  · intro h
    obtain ⟨t, c₁, stands, h⟩ := peek_bind_eq_ok_iff.1 h
    split at h
    · obtain ⟨u, c₂, -, h⟩ := bind_eq_ok_iff.1 h
      split at h
      · cases (pure_eq_ok_iff.1 h).1
      · exact absurd h Reading.fail_ne_ok
    · rename_i other
      obtain ⟨-, rfl⟩ := pure_eq_ok_iff.1 h
      exact ⟨rfl, t, c₁, stands, fun flag => other (isOneOf_flag_iff.2 flag)⟩
  · rintro ⟨rfl, t, c₁, stands, other⟩
    refine peek_bind_eq_ok_iff.2 ⟨t, c₁, stands, ?_⟩
    rw [if_neg fun flag => other (isOneOf_flag_iff.1 flag)]
    rfl

theorem unread_readFlag? {names names' : List String}
    (h : readFlag? names c = .ok (some names') c') : c'.unread < c.unread := by
  obtain ⟨t, stands, flag, -⟩ := readFlag?_eq_some_iff.1 h
  refine unread_next stands ?_
  rcases flag with flag | flag <;> simp [flag]

/-- The flags are all that stand there up to the first token that is none, and there is a bit for
each. -/
theorem readFlags_eq_ok_iff {names names' : List String}
    (limited : names.length ≤ Attribute.flagLimit) :
    iterate Cursor.unread readFlag? names c = .ok names' c' ↔
      ∃ flags, Run c flags c' ∧ (∀ t ∈ flags, IsFlag t) ∧
        names.length + flags.length ≤ Attribute.flagLimit ∧ names' = names ++ flags.map flagName ∧
        ∃ t c₁, Stands c' t c₁ ∧ ¬ IsFlag t := by
  rw [iterate_eq_ok_iff unread_readFlag?]
  constructor
  · intro h
    induction h with
    | last run =>
      obtain ⟨rfl, other⟩ := readFlag?_eq_none_iff.1 run
      exact ⟨[], .nil _, nofun, limited, (List.append_nil _).symm, other⟩
    | @more names _ _ _ _ _ run _ ih =>
      obtain ⟨t, stands, flag, room, rfl⟩ := readFlag?_eq_some_iff.1 run
      have length : (names ++ [flagName t]).length = names.length + 1 := List.length_append
      obtain ⟨flags, order, flagged, room', rfl, other⟩ := ih (by rw [length]; exact room)
      refine ⟨t :: flags, .cons stands order, ?_, ?_, by simp, other⟩
      · intro u mem
        rcases List.mem_cons.1 mem with rfl | mem
        · exact flag
        · exact flagged u mem
      · rw [length] at room'
        rw [List.length_cons]
        omega
  · rintro ⟨flags, order, flagged, room, rfl, other⟩
    induction order generalizing names with
    | nil c =>
      rw [List.map_nil, List.append_nil]
      exact .last (readFlag?_eq_none_iff.2 ⟨rfl, other⟩)
    | @cons c c₁ c' t flags head _ ih =>
      rw [List.length_cons] at room
      have length : (names ++ [flagName t]).length = names.length + 1 := List.length_append
      have rest : Rounds readFlag? (names ++ [flagName t]) c₁ (names ++ [flagName t] ++ _) c' :=
        ih (by omega) (fun u mem => flagged u (List.mem_cons_of_mem t mem)) (by omega) other
      rw [List.append_assoc] at rest
      refine .more (readFlag?_eq_some_iff.2 ⟨t, head, flagged t List.mem_cons_self, ?_, rfl⟩) rest
      omega

/-! ### Headers -/

/-- A header behind the name is read exactly where one is written and a token follows that is no
flag. -/
theorem read_eq_ok_iff {header : Header} :
    Header.read c = .ok header c' ↔
      ∃ ts, Run c ts c' ∧ Written ts header ∧ ∃ t c₁, Stands c' t c₁ ∧ ¬ IsFlag t := by
  have limited : ([] : List String).length ≤ Attribute.flagLimit := Nat.zero_le _
  constructor
  · intro h
    obtain ⟨color, c₁, read, h⟩ := bind_eq_ok_iff.1 h
    obtain ⟨colorTokens, r, g, b, colorRun, colored, rfl⟩ := readColor_eq_ok_iff.1 read
    obtain ⟨bounds, c₂, read, h⟩ := bind_eq_ok_iff.1 h
    obtain ⟨extentTokens, extentRun, extended⟩ := extent_of_readExtent read
    obtain ⟨names, c₃, read, h⟩ := bind_eq_ok_iff.1 h
    obtain ⟨flags, flagRun, flagged, room, rfl, t, c₄, behind, other⟩ :=
      (readFlags_eq_ok_iff limited).1 read
    obtain ⟨rfl, rfl⟩ := pure_eq_ok_iff.1 h
    refine ⟨colorTokens ++ (extentTokens ++ flags), colorRun.append (extentRun.append flagRun), ?_,
      t, c₄, behind, other⟩
    refine .mk colored (extended _ _ _ _ flagRun behind other) flagged ?_
    simpa using room
  · rintro ⟨_, run, ⟨colored, extended, flagged, room⟩, other⟩
    obtain ⟨c₁, colorRun, run⟩ := InOrder.append_iff.1 run
    obtain ⟨c₂, extentRun, flagRun⟩ := InOrder.append_iff.1 run
    refine bind_eq_ok_iff.2 ⟨_, c₁, readColor_eq_ok_iff.2 ⟨_, _, _, _, colorRun, colored, rfl⟩, ?_⟩
    refine bind_eq_ok_iff.2 ⟨_, c₂, readExtent_of_extent extended extentRun flagRun, ?_⟩
    have flags := (readFlags_eq_ok_iff limited).2 ⟨_, flagRun, flagged, by simpa using room, rfl, other⟩
    exact bind_eq_ok_iff.2 ⟨_, c', flags, rfl⟩

theorem Written.opens {header : Header} (h : Written ts header) :
    ∃ t us, ts = t :: us ∧ t.kind = .openParen := by
  cases h with
  | mk colored =>
    obtain ⟨t, us, rfl, opens⟩ := colored.opens
    exact ⟨t, _, rfl, opens⟩

/-- What stands between the name and the end of the line: nothing, or a header. -/
inductive Line : Cursor → Option Header → Cursor → Prop where
  | bare (c : Cursor) : Line c none c
  | header {c c' : Cursor} {ts : List Token} {header : Header} (run : Run c ts c')
    (written : Written ts header) : Line c (some header) c'

theorem Line.unread_le {header? : Option Header} (h : Line c header? c') :
    c'.unread ≤ c.unread := by
  cases h with
  | bare => exact Nat.le_refl _
  | header run => exact run.le Cursor.unread unread_next_le

end Header

/-! ### First lines -/

namespace Definition

open Header

variable {c c' : Cursor}

/-- The first line of a definition is its name, what its header says, and a line break. -/
theorem header_eq_ok_iff {name : String} {header? : Option Header} :
    header c = .ok (name, header?) c' ↔ ∃ word c₁ c₂ newline, Stands c word c₁ ∧
      word.kind = .word ∧ name = word.text ∧ Line c₁ header? c₂ ∧ Stands c₂ newline c' ∧
      newline.kind = .newline := by
  constructor
  · intro h
    obtain ⟨word, c₁, named, isWord, h⟩ := nextOf_bind_eq_ok_iff.1 h
    obtain ⟨t, c₂, next, kind, h⟩ := peekOf_bind_eq_ok_iff.1 h
    have line : ∃ c₃, Line c₁ header? c₃ ∧ name = word.text ∧
        ∃ newline, Stands c₃ newline c' ∧ newline.kind = .newline := by
      split at h
      · obtain ⟨_, c₃, mapped, h⟩ := bind_eq_ok_iff.1 h
        obtain ⟨newline, c₄, ended, ends, h⟩ := nextOf_bind_eq_ok_iff.1 h
        obtain ⟨same, rfl⟩ := pure_eq_ok_iff.1 h
        cases same
        obtain ⟨header, c₅, read, answer⟩ := bind_eq_ok_iff.1 mapped
        obtain ⟨ts, run, written, -⟩ := read_eq_ok_iff.1 read
        obtain ⟨rfl, rfl⟩ := pure_eq_ok_iff.1 answer
        exact ⟨c₅, .header run written, rfl, newline, ended, List.mem_singleton.1 ends⟩
      · obtain ⟨_, c₃, none, h⟩ := bind_eq_ok_iff.1 h
        obtain ⟨newline, c₄, ended, ends, h⟩ := nextOf_bind_eq_ok_iff.1 h
        obtain ⟨same, rfl⟩ := pure_eq_ok_iff.1 h
        cases same
        obtain ⟨rfl, rfl⟩ := pure_eq_ok_iff.1 none
        exact ⟨c₁, .bare c₁, rfl, newline, ended, List.mem_singleton.1 ends⟩
    obtain ⟨c₃, line, rfl, newline, ended, ends⟩ := line
    exact ⟨word, c₁, c₃, newline, named, List.mem_singleton.1 isWord, rfl, line, ended, ends⟩
  · rintro ⟨word, c₁, c₂, newline, named, isWord, rfl, line, ended, ends⟩
    refine nextOf_bind_eq_ok_iff.2 ⟨word, c₁, named, List.mem_singleton.2 isWord, ?_⟩
    cases line with
    | bare =>
      refine peekOf_bind_eq_ok_iff.2 ⟨newline, c', ended, by simp [ends], ?_⟩
      rw [if_neg (by simp [ends])]
      refine bind_eq_ok_iff.2 ⟨none, c₁, rfl, ?_⟩
      exact nextOf_bind_eq_ok_iff.2 ⟨newline, c', ended, List.mem_singleton.2 ends, rfl⟩
    | @header _ _ header run written =>
      obtain ⟨t, us, rfl, opens⟩ := written.opens
      obtain ⟨c₃, head, -⟩ := InOrder.cons_iff.1 run
      have other : ¬ IsFlag newline := by simp [IsFlag, ends]
      have read := read_eq_ok_iff.2 ⟨_, run, written, newline, c', ended, other⟩
      refine peekOf_bind_eq_ok_iff.2 ⟨t, c₃, head, by simp [opens], ?_⟩
      rw [if_pos opens]
      refine bind_eq_ok_iff.2 ⟨some header, c₂, bind_eq_ok_iff.2 ⟨header, c₂, read, rfl⟩, ?_⟩
      exact nextOf_bind_eq_ok_iff.2 ⟨newline, c', ended, List.mem_singleton.2 ends, rfl⟩

/-- Behind a name a parenthesis opens a header. -/
theorem header_of_openParen {c₁ c₂ : Cursor} {word t : Token} (named : Stands c word c₁)
    (isWord : word.kind = .word) (paren : Stands c₁ t c₂) (opens : t.kind = .openParen) :
    header c = (do
      let header ← some <$> Header.read
      let _ ← nextOf [.newline]
      return (word.text, header) : Reading (String × Option Header)) c₁ := by
  have name : nextOf [.word] c = .ok word c₁ :=
    nextOf_eq_ok_iff.2 ⟨named, List.mem_singleton.2 isWord⟩
  have ahead : peekOf [.openParen, .newline] c₁ = .ok t c₁ :=
    peekOf_eq_ok_iff.2 ⟨rfl, ⟨c₂, paren⟩, by simp [opens]⟩
  refine (bind_of_ok name).trans ((bind_of_ok ahead).trans ?_)
  rw [if_pos opens]

end Definition

/-! ### A first line -/

theorem Token.stands_of_rest {c : Cursor} {cs : List Char} (kind : Kind) (n : Nat) (here : c.rest = cs)
    (lexed : lexeme (cs.drop (gap cs)) = .token kind n) :
    ∃ t, Stands c t (c.skip (gap cs + n)) ∧ t.kind = kind ∧
      t.text = kind.textOf ((cs.drop (gap cs)).take n) := by
  subst here
  exact ⟨_, next_eq_ok_iff.2 ⟨kind, n, lexed, rfl, Cursor.skip_add _ _ _⟩, rfl, rfl⟩

namespace Header

/-- The name `n` and the color `(1 0 0)` behind a mark. -/
def redName (rest : List Char) : List Char :=
  ' ' :: 'n' :: ' ' :: '(' :: '1' :: ' ' :: '0' :: ' ' :: '0' :: ')' :: rest

/-- They are read wherever they stand, and whatever stands behind them. -/
theorem stands_redName {c : Cursor} {rest : List Char} (here : c.rest = redName rest) :
    (∃ word, Stands c word (c.skip 2) ∧ word.kind = .word ∧ word.text = "n") ∧
      ∃ tokens r g b, Run (c.skip 2) tokens (c.skip 10) ∧ Triple .single tokens (r, g, b) := by
  have left (k : Nat) : (c.skip k).rest = (redName rest).drop k := by rw [Cursor.rest_skip, here]
  have one : Plain ['1'] [] := .digit (by decide)
  have zero : Plain ['0'] [] := .digit (by decide)
  obtain ⟨opening, opened, opens, -⟩ := stands_of_rest .openParen 1 (left 2) rfl
  obtain ⟨red, standsR, isR, -⟩ := stands_of_rest .integer 1 (left 4) (lexeme_integer one rfl)
  obtain ⟨green, standsG, isG, -⟩ := stands_of_rest .integer 1 (left 5) (lexeme_integer zero rfl)
  obtain ⟨blue, standsB, isB, -⟩ := stands_of_rest .integer 1 (left 7) (lexeme_integer zero rfl)
  obtain ⟨closing, closed, closes, -⟩ := stands_of_rest .closeParen 1 (left 9) rfl
  refine ⟨stands_of_rest .word 1 here rfl, [opening, red, green, blue, closing], _, _, _, ?_,
    .mk opens (.inl isR) (.inl isG) (.inl isB) closes⟩
  exact .cons opened (.cons standsR (.cons standsG (.cons standsB (.cons closed (.nil _)))))

end Header
end Quaked
