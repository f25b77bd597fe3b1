import Quaked.Proofs.Number.Spelling
import Quaked.Proofs.Text.Extent

/-!
# Numerals in front of other text

The readers of numerals look no further than the character behind what they take, so a numeral at the
front of a text is one as a text of its own (`Takes`). Whatever the extents of numbers delimit
therefore writes a number (`Number.exists_of_integerExtent?`, `Number.exists_of_decimalExtent?`), and a
text is read as it is by itself if it is followed by a character that no numeral goes on with
(`Numeral.read?_append`, `delimited?_append`).
-/

namespace Quaked

open Text

/-- From the front of `cs` the reader takes `taken` for `a`, and `rest` is left. It does so as well
where the text ends earlier behind what is taken. -/
structure Takes {α : Type} (read : List Char → α) (answer : List Char → α)
    (cs taken rest : List Char) : Prop where
  split : cs = taken ++ rest
  again : ∀ r, r <+: rest → read (taken ++ r) = answer r

namespace Numeral

variable {cs rest : List Char}

theorem takes_sign (cs : List Char) :
    ∃ mark, Takes sign (fun r => ((sign cs).1, r)) cs mark (sign cs).2 := by
  unfold sign
  split
  · exact ⟨['+'], rfl, fun r _ => rfl⟩
  · exact ⟨['-'], rfl, fun r _ => rfl⟩
  · rename_i noPlus noMinus
    refine ⟨[], rfl, ?_⟩
    rintro r ⟨tail, rfl⟩
    rw [List.nil_append]
    split
    · exact absurd rfl (noPlus _)
    · exact absurd rfl (noMinus _)
    · rfl

theorem takes_digits (cs : List Char) :
    Takes digits (fun r => ((digits cs).1, r)) cs (digits cs).1 (digits cs).2 := by
  refine ⟨List.takeWhile_append_dropWhile.symm, ?_⟩
  intro r before
  have all : ∀ c ∈ cs.takeWhile Char.isDigit, c.isDigit = true :=
    List.all_eq_true.1 List.all_takeWhile
  refine digits_append all ?_
  cases r with
  | nil => rfl
  | cons c r =>
    obtain ⟨tail, same⟩ := before
    have stop := List.head?_dropWhile_not Char.isDigit cs
    rw [show cs.dropWhile Char.isDigit = _ from same.symm] at stop
    simpa using stop

theorem takes_fraction (cs : List Char) :
    ∃ places, Takes fraction (fun r => ((fraction cs).1, r)) cs places (fraction cs).2 := by
  unfold fraction
  split
  · rename_i cs
    obtain ⟨split, again⟩ := takes_digits cs
    exact ⟨'.' :: (digits cs).1, congrArg _ split, again⟩
  · rename_i noPoint
    refine ⟨[], rfl, ?_⟩
    rintro r ⟨tail, rfl⟩
    rw [List.nil_append]
    split
    · exact absurd rfl (noPoint _)
    · rfl

theorem takes_readInteger? {n : Int} (h : readInteger? cs = some (n, rest)) :
    ∃ taken, Takes readInteger? (fun r => some (n, r)) cs taken rest := by
  obtain ⟨mark, signed, sign_eq⟩ := takes_sign cs
  obtain ⟨whole, digits_eq⟩ := takes_digits (sign cs).2
  unfold readInteger? at h
  dsimp only at h
  split at h
  · cases h
  rename_i positive
  cases h
  refine ⟨mark ++ (digits (sign cs).2).1, ?_, ?_⟩
  · rw [List.append_assoc, ← whole, ← signed]
  · intro r before
    have within : (digits (sign cs).2).1 ++ r <+: (sign cs).2 := by
      conv => rhs; rw [whole]
      exact (List.prefix_append_right_inj _).2 before
    unfold readInteger?
    rw [List.append_assoc, sign_eq _ within]
    dsimp only
    rw [digits_eq r before]
    exact if_neg positive

theorem takes_readExponent? {n : Int} (h : readExponent? cs = some (n, rest)) :
    ∃ taken, Takes readExponent? (fun r => some (n, r)) cs taken rest := by
  unfold readExponent? at h
  split at h
  · obtain ⟨taken, split, again⟩ := takes_readInteger? h
    exact ⟨'e' :: taken, congrArg _ split, again⟩
  · obtain ⟨taken, split, again⟩ := takes_readInteger? h
    exact ⟨'E' :: taken, congrArg _ split, again⟩
  · rename_i noLower noUpper
    cases h
    refine ⟨[], rfl, ?_⟩
    rintro r ⟨tail, rfl⟩
    rw [List.nil_append]
    unfold readExponent?
    split
    · exact absurd rfl (noLower _)
    · exact absurd rfl (noUpper _)
    · rfl

theorem takes_read? {numeral : Numeral} (h : read? cs = some (numeral, rest)) :
    ∃ taken, Takes read? (fun r => some (numeral, r)) cs taken rest := by
  obtain ⟨mark, signed, sign_eq⟩ := takes_sign cs
  obtain ⟨whole, digits_eq⟩ := takes_digits (sign cs).2
  obtain ⟨point, places, fraction_eq⟩ := takes_fraction (digits (sign cs).2).2
  unfold read? at h
  dsimp only at h
  split at h
  · cases h
  rename_i positive
  obtain ⟨⟨exponent, rest'⟩, read, same⟩ := Option.map_eq_some_iff.1 h
  cases same
  obtain ⟨power, behind, exponent_eq⟩ := takes_readExponent? read
  refine ⟨mark ++ ((digits (sign cs).2).1 ++ (point ++ power)), ?_, ?_⟩
  · rw [List.append_assoc, List.append_assoc, List.append_assoc, ← behind, ← places, ← whole, ← signed]
  · intro r before
    have withinFraction : power ++ r <+: (fraction (digits (sign cs).2).2).2 := by
      rw [behind]
      exact (List.prefix_append_right_inj _).2 before
    have withinDigits : point ++ (power ++ r) <+: (digits (sign cs).2).2 := by
      rw [places]
      exact (List.prefix_append_right_inj _).2 withinFraction
    have withinSign : (digits (sign cs).2).1 ++ (point ++ (power ++ r)) <+: (sign cs).2 := by
      conv => rhs; rw [whole]
      exact (List.prefix_append_right_inj _).2 withinDigits
    unfold read?
    rw [List.append_assoc, List.append_assoc, List.append_assoc, sign_eq _ withinSign]
    dsimp only
    rw [digits_eq _ withinDigits]
    dsimp only
    rw [fraction_eq _ withinFraction]
    dsimp only
    rw [if_neg positive, exponent_eq r before]
    rfl

/-- A whole number is a numeral with no places and no exponent. -/
theorem read?_of_readInteger? {n : Int} (h : readInteger? cs = some (n, [])) :
    ∃ negative size, n = signed negative size ∧ read? cs = some (⟨negative, ⟨size, 0⟩⟩, []) := by
  unfold readInteger? at h
  dsimp only at h
  split at h
  · cases h
  rename_i positive
  obtain ⟨value, none⟩ := Prod.mk.inj (Option.some.inj h)
  refine ⟨(sign cs).1, _, value.symm, ?_⟩
  unfold read?
  dsimp only
  rw [none]
  simp [fraction, readExponent?, positive]

theorem exists_of_readInteger? {n : Int} (h : readInteger? cs = some (n, [])) :
    ∃ numeral, read? cs = some (numeral, []) := by
  obtain ⟨_, _, -, read⟩ := read?_of_readInteger? h
  exact ⟨_, read⟩

/-- All that is read of a whole number is its sign and digits. -/
theorem mem_of_readInteger? {n : Int} (h : readInteger? cs = some (n, [])) :
    cs ≠ [] ∧ ∀ c ∈ cs, c.isDigit = true ∨ c = '+' ∨ c = '-' := by
  unfold readInteger? at h
  dsimp only at h
  split at h
  · cases h
  rename_i positive
  have none : (digits (sign cs).2).2 = [] := (Prod.mk.inj (Option.some.inj h)).2
  have each : ∀ c ∈ (sign cs).2, c.isDigit = true := by
    rw [(takes_digits (sign cs).2).split, none, List.append_nil]
    exact List.all_eq_true.1 List.all_takeWhile
  constructor
  · rintro rfl
    exact positive rfl
  · intro c mem
    unfold sign at each
    split at each
    · exact (List.mem_cons.1 mem).elim (fun is => .inr (.inl is)) fun mem => .inl (each c mem)
    · exact (List.mem_cons.1 mem).elim (fun is => .inr (.inr is)) fun mem => .inl (each c mem)
    · exact .inl (each c mem)

/-! ### Text behind a numeral -/

/-- Whether a numeral can start or go on with a character. -/
def goesOn (c : Char) : Bool := c.isDigit || c ∈ ['+', '-', '.', 'e', 'E']

section Append

variable {r : List Char} (stop : r.head?.all (!goesOn ·) = true)
include stop

theorem stop_of_goesOn {p : Char → Bool} (such : ∀ c, p c = true → goesOn c = true) :
    r.head?.all (!p ·) = true := by
  cases r with
  | nil => rfl
  | cons c r =>
    cases other : p c with
    | false => simpa using other
    | true => simp [such c other] at stop

theorem sign_append (cs : List Char) : sign (cs ++ r) = ((sign cs).1, (sign cs).2 ++ r) := by
  cases cs with
  | nil =>
    unfold sign
    split
    · simp_all [goesOn]
    · simp_all [goesOn]
    · rfl
  | cons c cs =>
    by_cases plus : c = '+'
    · rw [plus]
      rfl
    by_cases minus : c = '-'
    · rw [minus]
      rfl
    have plain (tail : List Char) : sign (c :: tail) = (false, c :: tail) := by simp [sign, plus, minus]
    rw [List.cons_append, plain, plain]
    rfl

theorem digits_append_of_stop (cs : List Char) :
    digits (cs ++ r) = ((digits cs).1, (digits cs).2 ++ r) := by
  have noDigit := stop_of_goesOn stop (p := Char.isDigit) fun c digit => by simp [goesOn, digit]
  unfold digits
  rw [takeWhile_append_of_head noDigit, dropWhile_append_of_head noDigit]

theorem fraction_append (cs : List Char) :
    fraction (cs ++ r) = ((fraction cs).1, (fraction cs).2 ++ r) := by
  cases cs with
  | nil =>
    unfold fraction
    split
    · simp_all [goesOn]
    · rfl
  | cons c cs =>
    by_cases point : c = '.'
    · subst point
      exact digits_append_of_stop stop cs
    have plain (tail : List Char) : fraction (c :: tail) = ([], c :: tail) := by
      simp [fraction, point]
    rw [List.cons_append, plain, plain]
    rfl

theorem readInteger?_append (cs : List Char) :
    readInteger? (cs ++ r) = (readInteger? cs).map fun p => (p.1, p.2 ++ r) := by
  unfold readInteger?
  rw [sign_append stop]
  dsimp only
  rw [digits_append_of_stop stop]
  dsimp only
  split
  · rfl
  · rfl

theorem readExponent?_append (cs : List Char) :
    readExponent? (cs ++ r) = (readExponent? cs).map fun p => (p.1, p.2 ++ r) := by
  cases cs with
  | nil =>
    unfold readExponent?
    split
    · simp_all [goesOn]
    · simp_all [goesOn]
    · rfl
  | cons c cs =>
    by_cases lower : c = 'e'
    · subst lower
      exact readInteger?_append stop cs
    by_cases upper : c = 'E'
    · subst upper
      exact readInteger?_append stop cs
    have plain (tail : List Char) : readExponent? (c :: tail) = some (0, c :: tail) := by
      simp [readExponent?, lower, upper]
    rw [List.cons_append, plain, plain]
    rfl

/-- A numeral at the front of a text stays what it is if the text is followed by what no numeral goes
on with, and if there is none there will be none. -/
theorem read?_append (cs : List Char) :
    read? (cs ++ r) = (read? cs).map fun p => (p.1, p.2 ++ r) := by
  unfold read?
  rw [sign_append stop]
  dsimp only
  rw [digits_append_of_stop stop]
  dsimp only
  rw [fraction_append stop]
  dsimp only
  split
  · rfl
  · rw [readExponent?_append stop, Option.map_map, Option.map_map]
    rfl

end Append

end Numeral

/-! ### Extents -/

namespace Text

variable {α : Type} {isDelimiter : Char → Bool} {read? : List Char → Option (α × List Char)}
  {cs : List Char} {n : Nat}

/-- What an extent delimits is read to its end, and something of it is taken. -/
theorem of_delimited? (empty : read? [] = none)
    (takes : ∀ {a rest}, read? cs = some (a, rest) →
      ∃ taken, Takes read? (fun r => some (a, r)) cs taken rest)
    (h : delimited? isDelimiter read? cs = some n) :
    0 < n ∧ n ≤ cs.length ∧ ∃ a, read? (cs.take n) = some (a, []) := by
  unfold delimited? at h
  split at h
  · rename_i a rest read
    split at h
    · cases h
      obtain ⟨taken, rfl, again⟩ := takes read
      have whole := again [] List.nil_prefix
      rw [List.append_nil] at whole
      have some : taken ≠ [] := by
        rintro rfl
        rw [empty] at whole
        cases whole
      have positive := List.length_pos_iff.2 some
      have extent : (taken ++ rest).length - rest.length = taken.length := by simp
      rw [extent]
      exact ⟨positive, by simp, a, by rw [List.take_left]; exact whole⟩
    · cases h
  · cases h

/-- Behind an extent that is not all of a text there is a delimiter. -/
theorem delimiter_of_delimited?
    (takes : ∀ {a rest}, read? cs = some (a, rest) →
      ∃ taken, Takes read? (fun r => some (a, r)) cs taken rest)
    (h : delimited? isDelimiter read? cs = some n) (less : n < cs.length) :
    ∃ d ∈ cs, isDelimiter d = true := by
  unfold delimited? at h
  split at h
  · rename_i a rest read
    split at h
    · rename_i ended
      cases h
      obtain ⟨taken, rfl, -⟩ := takes read
      cases rest with
      | nil => exact absurd less (by simp)
      | cons d rest => exact ⟨d, by simp, ended⟩
    · cases h
  · cases h

theorem of_integerExtent? (h : integerExtent? isDelimiter cs = some n) :
    0 < n ∧ n ≤ cs.length ∧ ∃ a, Numeral.readInteger? (cs.take n) = some (a, []) :=
  of_delimited? rfl Numeral.takes_readInteger? h

theorem of_decimalExtent? (h : decimalExtent? isDelimiter cs = some n) :
    0 < n ∧ n ≤ cs.length ∧ ∃ a, Numeral.read? (cs.take n) = some (a, []) :=
  of_delimited? rfl Numeral.takes_read? h

/-- Behind a text that a delimiter follows an extent is what it is in the text by itself. -/
theorem delimited?_append {r : List Char}
    (append : read? (cs ++ r) = (read? cs).map fun p => (p.1, p.2 ++ r))
    (ended : atDelimiter isDelimiter r = true) :
    delimited? isDelimiter read? (cs ++ r) = delimited? isDelimiter read? cs := by
  unfold delimited?
  rw [append]
  cases read? cs with
  | none => rfl
  | some p =>
    obtain ⟨a, rest⟩ := p
    have same : atDelimiter isDelimiter (rest ++ r) = atDelimiter isDelimiter rest := by
      cases rest with
      | nil => exact ended
      | cons c rest => rfl
    simp only [Option.map_some, same, List.length_append, Nat.add_sub_add_right]

theorem wordExtent?_append {r : List Char} (ended : atDelimiter isDelimiter r = true) :
    wordExtent? isDelimiter (cs ++ r) = wordExtent? isDelimiter cs := by
  have stop : r.head?.all (!!isDelimiter ·) = true := by simpa [atDelimiter] using ended
  unfold wordExtent?
  rw [takeWhile_append_of_head stop]

theorem of_wordExtent? (h : wordExtent? isDelimiter cs = some n) :
    0 < n ∧ n = (cs.takeWhile (!isDelimiter ·)).length := by
  unfold wordExtent? at h
  split at h
  · cases h
  · rename_i m extent
    cases h
    exact ⟨Nat.succ_pos m, extent.symm⟩

end Text

namespace Number

variable {F : Format} {isDelimiter : Char → Bool} {cs : List Char} {n : Nat}

theorem exists_of_read? {numeral : Numeral} (h : Numeral.read? cs = some (numeral, [])) :
    ∃ x : Number F, ofString? (String.ofList cs) = some x := by
  refine ⟨ofNumeral numeral, ?_⟩
  simp [ofString?, Numeral.ofString?, h]

/-- What is delimited as a whole number writes a number. -/
theorem exists_of_integerExtent? (h : integerExtent? isDelimiter cs = some n) :
    ∃ x : Number F, ofString? (String.ofList (cs.take n)) = some x := by
  obtain ⟨-, -, a, read⟩ := of_integerExtent? h
  obtain ⟨numeral, read⟩ := Numeral.exists_of_readInteger? read
  exact exists_of_read? read

/-- So does what is delimited as a decimal. -/
theorem exists_of_decimalExtent? (h : decimalExtent? isDelimiter cs = some n) :
    ∃ x : Number F, ofString? (String.ofList (cs.take n)) = some x := by
  obtain ⟨-, -, numeral, read⟩ := of_decimalExtent? h
  exact exists_of_read? read

end Number
end Quaked
