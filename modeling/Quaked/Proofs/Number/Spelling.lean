import Quaked.Proofs.Number.Rounding
import Quaked.Value

/-!
# Numbers are read back

A finite number is written as digits with an optional point between them, behind a minus if it is
negative, and never with an exponent (`Plain`). Read again, such a text is the same number, except
that the text of zero has no sign (`ofString?_plain`, `spellNumber_finite`).
-/

namespace Quaked

/-- Digits, at least one, and digits behind the point, perhaps none. -/
structure Plain (whole places : List Char) : Prop where
  some : whole ≠ []
  digits : ∀ c ∈ whole, c.isDigit = true
  digits' : ∀ c ∈ places, c.isDigit = true

theorem Plain.digit {d : Char} (h : d.isDigit = true) : Plain [d] [] where
  some := List.cons_ne_nil _ _
  digits := by simpa using h
  digits' := List.forall_mem_nil _

/-- The decimal that digits with a point between them write. -/
def Decimal.ofPlain (whole places : List Char) : Decimal :=
  ⟨Nat.ofDigitChars 10 (whole ++ places) 0, -(places.length : Int)⟩

namespace Numeral

variable {whole places ds r : List Char}

theorem digits_append (all : ∀ c ∈ ds, c.isDigit = true) (stop : r.head?.all (!Char.isDigit ·) = true) :
    digits (ds ++ r) = (ds, r) := by
  unfold digits
  rw [List.takeWhile_append_of_pos all, List.dropWhile_append_of_pos all]
  cases r with
  | nil => simp
  | cons c r =>
    have : c.isDigit = false := by simpa using stop
    simp [this]

/-- A sign in front of digits is a minus, or nothing. -/
theorem sign_signText (negative : Bool) (plain : Plain whole places) :
    sign (Number.signText negative ++ (whole ++ r)) = (negative, whole ++ r) := by
  cases negative with
  | true => rfl
  | false =>
    obtain ⟨c, cs, rfl⟩ := List.exists_cons_of_ne_nil plain.some
    have digit := plain.digits c List.mem_cons_self
    show sign (c :: (cs ++ r)) = (false, c :: (cs ++ r))
    unfold sign
    split
    · rename_i tail same
      rw [(List.cons.inj same).1] at digit
      exact absurd digit (by decide)
    · rename_i tail same
      rw [(List.cons.inj same).1] at digit
      exact absurd digit (by decide)
    · rfl

theorem read?_plain (negative : Bool) (plain : Plain whole places) :
    read? (Number.signText negative ++ (whole ++ Decimal.optionalPoint places)) =
      some (⟨negative, .ofPlain whole places⟩, []) := by
  have point : (Decimal.optionalPoint places).head?.all (!Char.isDigit ·) = true := by
    unfold Decimal.optionalPoint
    split <;> rfl
  have behind : fraction (Decimal.optionalPoint places) = (places, []) := by
    unfold Decimal.optionalPoint
    by_cases empty : places = []
    · simp [empty, fraction]
    · have := digits_append plain.digits' (r := []) rfl
      simpa [empty, fraction] using this
  unfold read?
  rw [sign_signText negative plain]
  dsimp only
  rw [digits_append plain.digits point]
  dsimp only
  rw [behind]
  simp [plain.some, readExponent?, Decimal.ofPlain]

end Numeral

namespace Decimal

/-! ### Positions -/

theorem trimZeros_append (cs : List Char) :
    ∃ k, cs = trimZeros cs ++ List.replicate k '0' := by
  have parts := List.takeWhile_append_dropWhile (p := (· = '0')) (l := cs.reverse)
  refine ⟨(cs.reverse.takeWhile (· = '0')).length, ?_⟩
  have zeros : cs.reverse.takeWhile (· = '0') =
      List.replicate (cs.reverse.takeWhile (· = '0')).length '0' := by
    rw [List.eq_replicate_iff]
    refine ⟨rfl, ?_⟩
    intro c mem
    simpa using List.all_eq_true.1 List.all_takeWhile c mem
  have reversed := congrArg List.reverse parts
  rw [List.reverse_append, List.reverse_reverse, zeros, List.reverse_replicate] at reversed
  exact reversed.symm

/-- A decimal is worth its significant digits at their place. -/
theorem ofDecimal_digits {d : Decimal} (h : d.coefficient ≠ 0) (F : Format) :
    F.ofDecimal d =
      F.ofDecimal ⟨Nat.ofDigitChars 10 d.digits.1 0, d.digits.2 - d.digits.1.length⟩ := by
  obtain ⟨c, e⟩ := d
  obtain ⟨k, all⟩ := trimZeros_append (Nat.toDigits 10 c)
  have length := congrArg List.length all
  rw [List.length_append, List.length_replicate] at length
  have value : c = Nat.ofDigitChars 10 (trimZeros (Nat.toDigits 10 c)) 0 * 10 ^ k := by
    conv => lhs; rw [← Nat.ofDigitChars_ten_toDigits (n := c), all]
    rw [Nat.ofDigitChars_append, Nat.ofDigitChars_replicate_zero, Nat.mul_comm]
  show F.ofDecimal ⟨c, e⟩ = F.ofDecimal ⟨Nat.ofDigitChars 10 (trimZeros (Nat.toDigits 10 c)) 0,
    ((Nat.toDigits 10 c).length : Int) + e - (trimZeros (Nat.toDigits 10 c)).length⟩
  conv => lhs; rw [value]
  rw [← Nat.pow_eq, F.ofDecimal_shift]
  congr 2
  omega

theorem digits_ne_nil {d : Decimal} (h : d.coefficient ≠ 0) : d.digits.1 ≠ [] := by
  intro empty
  have empty : trimZeros (Nat.toDigits 10 d.coefficient) = [] := empty
  obtain ⟨k, all⟩ := trimZeros_append (Nat.toDigits 10 d.coefficient)
  have value := Nat.ofDigitChars_ten_toDigits (n := d.coefficient)
  rw [all, empty, List.nil_append, Nat.ofDigitChars_replicate_zero, Nat.mul_zero] at value
  exact h value.symm

theorem isDigit_of_mem_digits {d : Decimal} {c : Char} (h : c ∈ d.digits.1) :
    c.isDigit = true := by
  obtain ⟨k, all⟩ := trimZeros_append (Nat.toDigits 10 d.coefficient)
  have mem : c ∈ Nat.toDigits 10 d.coefficient := by
    rw [all]
    exact List.mem_append_left _ h
  exact Nat.isDigit_of_mem_toDigits (by decide) (by decide) mem

/-- Digits are written at their place. -/
theorem place_plain {ds : List Char} (some : ds ≠ []) (all : ∀ c ∈ ds, c.isDigit = true)
    (point : Int) :
    ∃ whole places, Plain whole places ∧
      place ds point optionalPoint = whole ++ optionalPoint places ∧
      ∀ F : Format, F.ofDecimal (ofPlain whole places) =
        F.ofDecimal ⟨Nat.ofDigitChars 10 ds 0, point - ds.length⟩ := by
  have positive := List.length_pos_iff.2 some
  have zeros (n : Nat) : ∀ c ∈ List.replicate n '0', c.isDigit = true := by
    intro c mem
    rw [(List.mem_replicate.1 mem).2]
    rfl
  unfold place
  by_cases small : point ≤ 0
  · refine ⟨['0'], List.replicate (-point).toNat '0' ++ ds, ⟨by simp, by simp, ?_⟩, ?_, ?_⟩
    · intro c mem
      rcases List.mem_append.1 mem with mem | mem
      · exact zeros _ c mem
      · exact all c mem
    · rw [if_pos small]
      rfl
    · intro F
      have value : Nat.ofDigitChars 10 (['0'] ++ (List.replicate (-point).toNat '0' ++ ds)) 0 =
          Nat.ofDigitChars 10 ds 0 := by
        rw [Nat.ofDigitChars_append, Nat.ofDigitChars_append, Nat.ofDigitChars_replicate_zero]
        simp [Nat.ofDigitChars_cons]
      rw [ofPlain, value, List.length_append, List.length_replicate]
      congr 2
      omega
  rw [if_neg small]
  by_cases short : ds.length ≤ point.toNat
  · refine ⟨ds ++ List.replicate (point.toNat - ds.length) '0', [], ⟨by simp [some], ?_, by simp⟩,
      ?_, ?_⟩
    · intro c mem
      rcases List.mem_append.1 mem with mem | mem
      · exact all c mem
      · exact zeros _ c mem
    · rw [if_pos short]
    · intro F
      have shifted := F.ofDecimal_shift (Nat.ofDigitChars 10 ds 0) (point.toNat - ds.length) 0
      rw [ofPlain, List.append_nil, Nat.ofDigitChars_append, Nat.ofDigitChars_replicate_zero,
        Nat.mul_comm]
      refine shifted.trans ?_
      congr 2
      omega
  · refine ⟨ds.take point.toNat, ds.drop point.toNat, ⟨?_, ?_, ?_⟩, ?_, ?_⟩
    · rw [ne_eq, List.take_eq_nil_iff]
      rintro (none | none)
      · omega
      · exact some none
    · exact fun c mem => all c (List.mem_of_mem_take mem)
    · exact fun c mem => all c (List.mem_of_mem_drop mem)
    · rw [if_neg short]
    · intro F
      rw [ofPlain, List.take_append_drop, List.length_drop]
      congr 2
      omega

/-- The plain spelling of a decimal is worth as much as the decimal. -/
theorem positional_plain (d : Decimal) :
    ∃ whole places, Plain whole places ∧ d.positional = whole ++ optionalPoint places ∧
      ∀ F : Format, F.ofDecimal (ofPlain whole places) = F.ofDecimal d := by
  by_cases zero : d.coefficient = 0
  · refine ⟨['0'], [], ⟨by simp, by simp, by simp⟩, ?_, ?_⟩
    · simp [positional, zero, optionalPoint]
    · intro F
      simp [ofPlain, Format.ofDecimal, zero, Nat.ofDigitChars_cons]
  · obtain ⟨whole, places, plain, same, value⟩ :=
      place_plain (digits_ne_nil zero) (fun c => isDigit_of_mem_digits) d.digits.2
    refine ⟨whole, places, plain, ?_, ?_⟩
    · rw [← same, positional, if_neg zero]
    · intro F
      rw [value, ← ofDecimal_digits zero]

end Decimal

/-! ### Numbers -/

namespace Number

/-- Whether a number is finite. -/
def isFinite {F : Format} : Number F → Bool
  | finite _ _ => true
  | _ => false

/-- The number without the sign of zero. -/
def unsignedZero {F : Format} : Number F → Number F
  | finite negative m => finite (negative && m.units ≠ 0) m
  | x => x

/-- The number without the sign of zero equals the number. -/
theorem unsignedZero_beq {F : Format} (negative : Bool) (m : Magnitude F) :
    ((finite negative m).unsignedZero == finite negative m) = true := by
  show compares _ _ _ = true
  unfold compares
  simp only [unsignedZero, rank, decide_eq_true_eq, Numeral.signed]
  by_cases zero : m.units = 0
  · simp [zero]
  · cases negative <;> simp [zero]

/-- A numeral that is worth a magnitude is read as it. -/
theorem ofString?_plain {F : Format} (m : Magnitude F) (negative : Bool) {whole places : List Char}
    (plain : Plain whole places) (value : F.ofDecimal (.ofPlain whole places) = m.units) :
    ofString? (String.ofList (signText negative ++ (whole ++ Decimal.optionalPoint places))) =
      some (finite negative m) := by
  have numeral : Numeral.ofString?
      (String.ofList (signText negative ++ (whole ++ Decimal.optionalPoint places))) =
        some ⟨negative, .ofPlain whole places⟩ := by
    unfold Numeral.ofString?
    rw [String.toList_ofList, Numeral.read?_plain negative plain]
  obtain ⟨n, representable⟩ := m
  unfold ofString?
  rw [numeral]
  simp only [ofNumeral, value, representable.2, dite_true]

end Number

open Number Decimal

theorem Format.one_pos (F : Format) : 0 < F.one := Nat.two_pow_pos _

/-- An integer is written as its digits, behind a minus below zero. -/
theorem Value.spellInteger_signed (negative : Bool) (n : Nat) :
    spellInteger (Numeral.signed negative n) =
      signText (negative && n ≠ 0) ++ Nat.toDigits 10 n := by
  have size : (Numeral.signed negative n).natAbs = n := by
    cases negative <;> simp [Numeral.signed]
  have below : decide (Numeral.signed negative n < 0) = (negative && n ≠ 0) := by
    cases negative <;> simp [Numeral.signed, Nat.pos_iff_ne_zero]
  rw [spellInteger, size, below]

/-- The text of a finite number is digits with an optional point, and is read back as the number. -/
theorem spellNumber_finite (negative : Bool) (m : Magnitude .double) :
    ∃ (sign : Bool) (whole places : List Char), Plain whole places ∧
      Value.spellNumber (finite negative m) = signText sign ++ (whole ++ optionalPoint places) ∧
      Number.ofString? (String.ofList (Value.spellNumber (finite negative m))) =
        some (finite negative m).unsignedZero := by
  by_cases whole : m.units % Format.double.one = 0 ∧
      m.units / Format.double.one < Value.integerBound
  · obtain ⟨n, units⟩ := Nat.dvd_of_mod_eq_zero whole.1
    rw [Nat.mul_comm] at units
    have plain : Plain (Nat.toDigits 10 n) [] :=
      ⟨Nat.toDigits_ne_nil, fun c => Nat.isDigit_of_mem_toDigits (by decide) (by decide), by simp⟩
    have value : Format.double.ofDecimal (.ofPlain (Nat.toDigits 10 n) []) = m.units := by
      rw [ofPlain, List.append_nil, Nat.ofDigitChars_ten_toDigits]
      exact m.ofDecimal_whole units
    have zero : decide (m.units ≠ 0) = decide (n ≠ 0) := by
      rw [units, decide_eq_decide, ne_eq, Nat.mul_eq_zero, not_or]
      exact and_iff_left (Nat.ne_of_gt (Format.one_pos _))
    have spelled : Value.spellNumber (finite negative m) =
        signText (negative && n ≠ 0) ++ (Nat.toDigits 10 n ++ optionalPoint []) := by
      have same : m.units / Format.double.one = n := by
        rw [units]
        exact Nat.mul_div_cancel n (Format.one_pos _)
      rw [Value.spellNumber, integer?]
      rw [if_pos whole, same, optionalPoint]
      simpa using Value.spellInteger_signed negative n
    refine ⟨_, _, _, plain, spelled, ?_⟩
    rw [spelled, ofString?_plain m _ plain value, unsignedZero, zero]
  · obtain ⟨digits, places, plain, same, value⟩ := (m.shortest .up).positional_plain
    have spelled : Value.spellNumber (finite negative m) =
        signText negative ++ (digits ++ optionalPoint places) := by
      rw [Value.spellNumber, integer?]
      rw [if_neg whole]
      simp [text, textWith, same]
    have nonzero : m.units ≠ 0 := by
      intro zero
      rw [zero, Nat.zero_mod, Nat.zero_div] at whole
      exact whole ⟨rfl, by decide⟩
    have read : Format.double.ofDecimal (.ofPlain digits places) = m.units := by
      rw [value, m.ofDecimal_shortest]
    refine ⟨_, _, _, plain, spelled, ?_⟩
    rw [spelled, ofString?_plain m _ plain read, unsignedZero]
    simp [nonzero]

end Quaked
