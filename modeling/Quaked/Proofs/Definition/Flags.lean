import Quaked.Proofs.Definition.Exactness

/-!
# Flags are numbered

Every word and every minus behind the extent of a header is a flag, up to the first token that is
neither. The flags have the values of bits in order, from the lowest one on, and a reserved bit counts
like any other but has no name. There are 32 bits: the flag behind the last of them is a failure, right
where it stands.

* `readFlags_of_full`: with a flag for each bit one more is a failure.
* `numbered_ofFlagNames`: the options of flags are the bits in order, and each is found by its value.
* `flags_numbered`: so it is in every definition, and a definition with too many flags declares nothing.
-/

namespace Quaked

open Text Token

/-! ### Bits -/

/-- Options for the bits of 32, in order, with the given names, each found by its value. -/
structure Numbered (names : List String) (options : List FlagOption) : Prop where
  length : options.length = names.length
  each : ∀ (i : Nat) (name : String), names[i]? = some name → options[i]? = some ⟨Nat.pow 2 i, name⟩
  found : ∀ i : Nat, i < names.length →
    ∀ value : Nat, FlagOption.find? options value = options[i]? ↔ value = Nat.pow 2 i
  fits : ∀ i : Nat, i < names.length → i < 32 ∧ ((1 : BitVec 32) <<< i).toNat = Nat.pow 2 i

/-- A bit of 32 is not shifted out. -/
theorem toNat_one_shiftLeft {i : Nat} (bit : i < 32) : ((1 : BitVec 32) <<< i).toNat = Nat.pow 2 i := by
  have below : 2 ^ i < 2 ^ 32 := Nat.pow_lt_pow_right (by decide) bit
  rw [BitVec.toNat_shiftLeft, Nat.shiftLeft_eq, Nat.pow_eq]
  simpa using Nat.mod_eq_of_lt below

/-- The option of a bit is the first with its value, as no other bit has it. -/
theorem FlagOption.find?_mapIdx_iff {names : List String} {i : Nat} (within : i < names.length)
    (value : Nat) :
    FlagOption.find? (names.mapIdx fun bit name => FlagOption.mk (Nat.pow 2 bit) name) value =
      (names.mapIdx fun bit name => FlagOption.mk (Nat.pow 2 bit) name)[i]? ↔ value = Nat.pow 2 i := by
  have option : (names.mapIdx fun bit name => FlagOption.mk (Nat.pow 2 bit) name)[i]? =
      some ⟨Nat.pow 2 i, names[i]⟩ := by
    rw [List.getElem?_mapIdx, List.getElem?_eq_getElem within]
    rfl
  rw [option, FlagOption.find?, List.find?_eq_some_iff_getElem]
  constructor
  · rintro ⟨is, -⟩
    exact (of_decide_eq_true is).symm
  · rintro rfl
    refine ⟨decide_eq_true rfl, i, by simpa using within, by simp, ?_⟩
    intro j earlier
    have less : 2 ^ j < 2 ^ i := Nat.pow_lt_pow_right (by decide) earlier
    simpa using Nat.ne_of_lt less

/-- The options of flags are the bits in order. -/
theorem numbered_ofFlagNames {names : List String} (limited : names.length ≤ Attribute.flagLimit) :
    ∃ options, Attribute.ofFlagNames names = .flags Attribute.spawnflags options ∧
      Numbered names options := by
  refine ⟨_, rfl, List.length_mapIdx, ?_, fun i within => FlagOption.find?_mapIdx_iff within, ?_⟩
  · intro i name is
    rw [List.getElem?_mapIdx, is]
    rfl
  · intro i within
    have bit : i < 32 := Nat.lt_of_lt_of_le within limited
    exact ⟨bit, toNat_one_shiftLeft bit⟩

/-- The attribute of a header has an option for each of its flags. -/
theorem Header.numbered_attributes {header : Header} (limited : header.flags.length ≤ Attribute.flagLimit) :
    ∃ options, header.attributes = (if header.flags = [] then [] else [.flags "spawnflags" options]) ∧
      Numbered header.flags options := by
  obtain ⟨options, is, numbered⟩ := numbered_ofFlagNames limited
  refine ⟨options, ?_, numbered⟩
  rw [Header.attributes, is]
  simp [Attribute.spawnflags]

/-- An option has the value of its bit. -/
theorem Numbered.value {names : List String} {options : List FlagOption} (numbered : Numbered names options)
    {bit : Nat} {option : FlagOption} (is : options[bit]? = some option) :
    bit < 32 ∧ option.value = Nat.pow 2 bit := by
  obtain ⟨within, -⟩ := List.getElem?_eq_some_iff.1 is
  rw [numbered.length] at within
  have same := numbered.each bit names[bit] (List.getElem?_eq_getElem within)
  rw [is] at same
  exact ⟨(numbered.fits bit within).1, congrArg FlagOption.value (Option.some.inj same)⟩

/-! ### Too many flags -/

namespace Header

variable {c c' c'' : Cursor} {t : Token} {flags : List Token}

theorem readFlag?_of_full {names : List String} (full : names.length = Attribute.flagLimit)
    (stands : Stands c t c') (flag : IsFlag t) :
    readFlag? names c = .error ⟨.invalid .flagCount, t.position⟩ c' := by
  have peeked : peek c = .ok t c := peek_eq_ok_iff.2 ⟨rfl, c', stands⟩
  refine (bind_of_ok peeked).trans ?_
  rw [if_pos (isOneOf_flag_iff.2 flag)]
  refine (bind_of_ok stands).trans ?_
  rw [if_neg (by omega)]
  rfl

/-- Flags that leave no bit are all read, and the one behind them is a failure. -/
theorem readFlags_of_full {names : List String}
    (full : names.length + flags.length = Attribute.flagLimit) (run : Run c flags c')
    (flagged : ∀ t ∈ flags, IsFlag t) (stands : Stands c' t c'') (flag : IsFlag t) :
    iterate Cursor.unread readFlag? names c = .error ⟨.invalid .flagCount, t.position⟩ c'' := by
  induction run generalizing names with
  | nil c => exact iterate_of_error (readFlag?_of_full full stands flag)
  | @cons c c₁ c' u flags head _ ih =>
    obtain ⟨first, others⟩ := List.forall_mem_cons.1 flagged
    rw [List.length_cons] at full
    have round : readFlag? names c = .ok (some (names ++ [flagName u])) c₁ :=
      readFlag?_eq_some_iff.2 ⟨u, head, first, by omega, rfl⟩
    rw [iterate_of_some round (unread_readFlag? round)]
    refine ih ?_ others stands
    rw [List.length_append, List.length_singleton]
    omega

/-- The tokens of a header up to its flags, which follow. -/
inductive UpToFlags : Cursor → List Token → Cursor → Prop where
  | mk {c c₁ c' : Cursor} {color extent flags : List Token} {r g b : Number .single}
    {bounds : Option Bounds} (colorRun : Run c color c₁) (colored : Triple .single color (r, g, b))
    (extentRun : Run c₁ extent c') (extended : Extent extent flags bounds) : UpToFlags c flags c'

/-- With a bit for each flag the header is read, and its attribute has an option for each. -/
theorem read_of_flags (front : UpToFlags c flags c') (run : Run c' flags c'')
    (flagged : ∀ t ∈ flags, IsFlag t) (ends : ∃ t c₁, Stands c'' t c₁ ∧ ¬ IsFlag t)
    (limited : flags.length ≤ Attribute.flagLimit) :
    ∃ header, Header.read c = .ok header c'' ∧ header.flags = flags.map flagName := by
  obtain ⟨colorRun, colored, extentRun, extended⟩ := front
  have written := Written.mk colored extended flagged limited
  exact ⟨_, read_eq_ok_iff.2 ⟨_, colorRun.append (extentRun.append run), written, ends⟩, rfl⟩

/-- An option of a header that is read has the value of its bit. -/
theorem value_of_read {header : Header} (read : Header.read c = .ok header c') {name : String}
    {options : List FlagOption} (mem : .flags name options ∈ header.attributes) {bit : Nat}
    {option : FlagOption} (is : options[bit]? = some option) :
    bit < 32 ∧ option.value = Nat.pow 2 bit := by
  obtain ⟨_, -, written, -⟩ := read_eq_ok_iff.1 read
  have limited : header.flags.length ≤ Attribute.flagLimit := by
    obtain ⟨_, _, _, limited⟩ := written
    rw [List.length_map]
    exact limited
  obtain ⟨options', attributes, numbered⟩ := numbered_attributes limited
  rw [attributes] at mem
  split at mem
  · cases mem
  · cases List.mem_singleton.1 mem
    exact numbered.value is

/-- Without a bit for it a flag is a failure of the header. -/
theorem read_of_full {behind : List Token} (front : UpToFlags c (flags ++ t :: behind) c')
    (run : Run c' (flags ++ t :: behind) c'') (flagged : ∀ u ∈ flags ++ t :: behind, IsFlag u)
    (full : flags.length = Attribute.flagLimit) :
    ∃ c₁, Header.read c = .error ⟨.invalid .flagCount, t.position⟩ c₁ := by
  obtain ⟨colorRun, colored, extentRun, extended⟩ := front
  obtain ⟨c₁, first, others⟩ := InOrder.append_iff.1 run
  obtain ⟨c₂, stands, -⟩ := InOrder.cons_iff.1 others
  obtain ⟨flagged, flagged'⟩ := List.forall_mem_append.1 flagged
  have flag := flagged' t List.mem_cons_self
  have empty : ([] : List String).length + flags.length = Attribute.flagLimit := by simpa using full
  have failed := readFlags_of_full empty first flagged stands flag
  have color := readColor_eq_ok_iff.2 ⟨_, _, _, _, colorRun, colored, rfl⟩
  refine ⟨c₂, (bind_of_ok color).trans ?_⟩
  exact (bind_of_ok (readExtent_of_extent extended extentRun run)).trans (bind_of_error failed)

end Header

/-! ### Definitions -/

namespace Definition

open Header

variable {settings : Settings} {s s' : Session} {c c₁ c₂ : Cursor} {mark word : Token}

/-- A definition up to its name. -/
inductive Named : Cursor → Cursor → Prop where
  | mk {c c₁ c' : Cursor} {mark word : Token} (opened : Opening c mark c₁)
    (opens : mark.kind = .commentOpen) (named : Stands c₁ word c') (isWord : word.kind = .word) :
    Named c c'

/-- A definition fails with its header. -/
theorem next_of_header_error (named : Named s.cursor c) {flags : List Token}
    (front : UpToFlags c flags c₁) {e : Error} (failed : Header.read c = .error e c₂) :
    next settings s = .error e { s with cursor := c₂ } := by
  obtain ⟨opened, opens, named, isWord⟩ := named
  rename_i c₀ mark word
  obtain ⟨colorRun, colored, -, -⟩ := front
  obtain ⟨t, ts, rfl, opens'⟩ := colored.opens
  obtain ⟨_, paren, -⟩ := InOrder.cons_iff.1 colorRun
  have header : header c₀ = .error e c₂ :=
    (header_of_openParen named isWord paren opens').trans (bind_of_error (bind_of_error failed))
  have lifted : (liftM Definition.header : Parsing (String × Option Header)) { s with cursor := c₀ } =
      .error e { s with cursor := c₂ } := by
    rw [lift_apply, header]
    rfl
  have mark : opening s.cursor = .ok true c₀ :=
    opening_eq_ok_iff.2 ⟨_, opened, (decide_eq_true opens).symm⟩
  refine (lift_bind_of_ok mark).trans ?_
  exact bind_of_error (bind_of_error lifted)

/-- The header of a definition is the one that is read behind its name. -/
theorem header_of_written {dialect : Dialect} {p : Parts} {body c' : Cursor} {flags : List Token}
    {header : Header} (written : Written dialect c p body c') (named : Named c c₁)
    (front : UpToFlags c₁ flags c₂) {c₃ : Cursor} (read : Header.read c₁ = .ok header c₃) :
    p.header = some header := by
  obtain ⟨opened, -, behind⟩ := written
  obtain ⟨opened', -, named', -⟩ := named
  have same :=
    (opening_eq_ok_iff.2 ⟨_, opened, rfl⟩).symm.trans (opening_eq_ok_iff.2 ⟨_, opened', rfl⟩)
  obtain rfl := (EStateM.Result.ok.inj same).2
  obtain ⟨named, -, line, ended, ends, -, -⟩ := behind
  obtain ⟨rfl, rfl⟩ := named'.unique named
  cases line with
  | bare =>
    -- the line would end where the color stands
    obtain ⟨colorRun, colored, -, -⟩ := front
    obtain ⟨t, ts, rfl, opens⟩ := colored.opens
    obtain ⟨_, paren, -⟩ := InOrder.cons_iff.1 colorRun
    obtain ⟨rfl, -⟩ := paren.unique ended
    cases opens.symm.trans ends
  | header run written =>
    have other : ∃ t c, Stands _ t c ∧ ¬ IsFlag t := ⟨_, _, ended, by simp [IsFlag, ends]⟩
    have same := (read_eq_ok_iff.2 ⟨_, run, written, other⟩).symm.trans read
    exact congrArg some (EStateM.Result.ok.inj same).1

/-- A class has the attributes of its header. -/
theorem Concludes.mem_attributes {p : Parts} {header : Header} {e : EntityClass} {a : Attribute}
    (headed : p.header = some header) (mem : a ∈ header.attributes)
    (concludes : Concludes s p c (.entity e) s') : a ∈ e.attributes := by
  have own : a ∈ p.declaration.attributes := by
    simp [Parts.declaration, headed, mem]
  cases concludes with
  | entity filled presents =>
    rw [presents.attributes, filled.attributes]
    exact List.mem_append_right _ own

/-- In every definition the words and minus signs behind the extent are its flags. If there are at most 32,
the header is read up to the first other token and has an option for each of them in its attribute, which
every class that comes of the definition has. If there are more, the definition is refused where the
33rd flag stands. -/
theorem flags_numbered (settings : Settings) (s : Session) {flags : List Token}
    {name start behind : Cursor} (named : Named s.cursor name) (front : UpToFlags name flags start)
    (run : Run start flags behind) (flagged : ∀ t ∈ flags, IsFlag t)
    (ends : ∃ t c, Stands behind t c ∧ ¬ IsFlag t) :
    (flags.length ≤ 32 → ∃ header options, Header.read name = .ok header behind ∧
      header.attributes = (if flags = [] then [] else [.flags "spawnflags" options]) ∧
      Numbered (flags.map flagName) options ∧
      ∀ e s', next settings s = .ok (.entity e) s' → ∀ a ∈ header.attributes, a ∈ e.attributes) ∧
    ∀ t, flags[32]? = some t → ∃ c, Header.read name = .error ⟨.invalid .flagCount, t.position⟩ c ∧
      next settings s = .error ⟨.invalid .flagCount, t.position⟩ { s with cursor := c } := by
  constructor
  · intro limited
    obtain ⟨header, read, names⟩ := read_of_flags front run flagged ends limited
    have length : header.flags.length ≤ Attribute.flagLimit := by
      rw [names, List.length_map]
      exact limited
    obtain ⟨options, attributes, numbered⟩ := numbered_attributes length
    rw [names] at attributes numbered
    refine ⟨header, options, read, ?_, numbered, ?_⟩
    · simpa using attributes
    · intro e s' emitted a mem
      rcases next_eq_ok_iff.1 emitted with ⟨p, body, c, written, -, concludes⟩ | ⟨_, _, -, -, none, -⟩
      · exact concludes.mem_attributes (header_of_written written named front read) mem
      · cases none
  · intro t is
    obtain ⟨within, same⟩ := List.getElem?_eq_some_iff.1 is
    have split : flags = flags.take 32 ++ t :: flags.drop 33 := by
      rw [← same, List.getElem_cons_drop, List.take_append_drop]
    rw [split] at front run flagged
    obtain ⟨c, failed⟩ := read_of_full front run flagged (List.length_take_of_le (Nat.le_of_lt within))
    exact ⟨c, failed, next_of_header_error named front failed⟩

/-- Minus signs with a space in front of each. -/
def reserved : Nat → List Char
  | 0 => []
  | n + 1 => ' ' :: '-' :: reserved n

/-- Minus signs at the end of a line are flags, each of them, up to the line break. -/
theorem run_reserved {rest : List Char} (n : Nat) (here : c.rest = reserved n ++ '\n' :: rest) :
    ∃ flags c', Run c flags c' ∧ flags.length = n ∧ (∀ t ∈ flags, IsFlag t) ∧
      ∃ t c'', Stands c' t c'' ∧ ¬ IsFlag t := by
  induction n generalizing c with
  | zero =>
    have newline : Stands c ⟨.newline, "\n", c.position⟩ (c.skip 1) := by
      refine Token.next_eq_ok_iff.2 ⟨.newline, 1, ?_, ?_, ?_⟩ <;> rw [here] <;> rfl
    exact ⟨[], c, .nil c, rfl, nofun, _, _, newline, by simp [IsFlag]⟩
  | succ n ih =>
    have minus : Stands c ⟨.minus, "-", (c.skip 1).position⟩ (c.skip 2) := by
      refine Token.next_eq_ok_iff.2 ⟨.minus, 1, ?_, ?_, ?_⟩ <;> rw [here]
      · cases n <;> rfl
      · rfl
      · rfl
    have left : (c.skip 2).rest = reserved n ++ '\n' :: rest := by
      rw [Cursor.rest_skip, here]
      rfl
    obtain ⟨flags, c', run, length, flagged, ends⟩ := ih left
    refine ⟨_ :: flags, c', .cons minus run, congrArg Nat.succ length, ?_, ends⟩
    exact List.forall_mem_cons.2 ⟨.inr rfl, flagged⟩

/-- A definition with a flag and some reserved bits. -/
def crowded (n : Nat) : String := "/*QUAKED n (1 0 0) ? a" ++ String.ofList (reserved n) ++ "\n*/"

theorem start_crowded {n : Nat} (size : n = 1 ∨ n = 32) :
    ∃ name start behind flags, Named (Session.ofString (crowded n)).cursor name ∧
      UpToFlags name flags start ∧ Run start flags behind ∧ flags.length = n + 1 ∧
      (∀ t ∈ flags, IsFlag t) ∧ ∃ t c, Stands behind t c ∧ ¬ IsFlag t := by
  let at_ (k : Nat) : Cursor := (Cursor.ofString (crowded n)).skip k
  have line :
      Stands (at_ 0) ⟨.commentOpen, "/*QUAKED", ⟨1, 1⟩⟩ (at_ 8) ∧
      (at_ 8).rest = redName (' ' :: '?' :: ' ' :: 'a' :: (reserved n ++ '\n' :: ['*', '/'])) ∧
      Stands (at_ 18) ⟨.word, "?", ⟨1, 20⟩⟩ (at_ 20) ∧
      Stands (at_ 20) ⟨.word, "a", ⟨1, 22⟩⟩ (at_ 22) ∧
      (at_ 22).rest = reserved n ++ '\n' :: ['*', '/'] := by
    rcases size with rfl | rfl <;> exact ⟨rfl, rfl, rfl, rfl, rfl⟩
  obtain ⟨mark, front, brush, flag, left⟩ := line
  obtain ⟨⟨word, named, isWord, -⟩, tokens, r, g, b, colors, colored⟩ := stands_redName front
  obtain ⟨flags, behind, run, length, minus, ends⟩ := run_reserved n left
  refine ⟨at_ 10, at_ 20, behind, _ :: flags, .mk (.mk (.nil _) nofun mark (.inl rfl)) rfl named isWord, ?_,
    .cons flag run, congrArg Nat.succ length, ?_, ends⟩
  · exact .mk colors colored (.cons brush (.nil _)) (.mark rfl rfl)
  · exact List.forall_mem_cons.2 ⟨.inl rfl, minus⟩

/-- Two flags have an attribute with two options, and of 33 flags the last one is refused. -/
theorem flags_numbered_crowded :
    (∃ name header behind names options, Header.read name = .ok header behind ∧
      header.attributes = [.flags "spawnflags" options] ∧ names.length = 2 ∧ Numbered names options) ∧
    ∃ (t : Token) (s' : Session),
      next {} (.ofString (crowded 32)) = .error ⟨.invalid .flagCount, t.position⟩ s' := by
  constructor
  · obtain ⟨name, start, behind, flags, named, front, run, length, flagged, ends⟩ :=
      start_crowded (.inl rfl)
    obtain ⟨header, options, read, attributes, numbered, -⟩ :=
      (flags_numbered {} (.ofString (crowded 1)) named front run flagged ends).1 (by omega)
    have some : flags ≠ [] := List.length_pos_iff.1 (by omega)
    rw [if_neg some] at attributes
    exact ⟨name, header, behind, _, options, read, attributes, by simpa using length, numbered⟩
  · obtain ⟨name, start, behind, flags, named, front, run, length, flagged, ends⟩ :=
      start_crowded (.inr rfl)
    have within : 32 < flags.length := by omega
    obtain ⟨c, -, refused⟩ := (flags_numbered {} (.ofString (crowded 32)) named front run flagged ends).2
      flags[32] (List.getElem?_eq_getElem within)
    exact ⟨_, _, refused⟩

end Definition
end Quaked
