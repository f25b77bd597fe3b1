import Quaked.Text.Extent

/-!
# Extents in front of other text

How far the front of a text reaches does not depend on what follows the text, if it ends before, or if
what follows starts with a character that ends it.

* `interior?_append`: a quoted string that is closed.
* `takeWhile_append_of_head`, `dropWhile_append_of_head`: a run of characters of one sort.
-/

namespace Quaked.Text

variable {cs r : List Char} {p : Char → Bool} {n : Nat}

/-! ### Quoted strings -/

theorem interior?_le (h : interior? cs = some n) : n < cs.length := by
  fun_induction interior? cs generalizing n with
  | case1 => cases h
  | case2 cs =>
    cases h
    simp
  | case3 c cs ih =>
    obtain ⟨m, inner, rfl⟩ := Option.map_eq_some_iff.1 h
    have := ih inner
    simp only [List.length_cons]
    omega
  | case4 c cs _ _ ih =>
    obtain ⟨m, inner, rfl⟩ := Option.map_eq_some_iff.1 h
    have := ih inner
    simp only [List.length_cons]
    omega

theorem interior?_append (h : interior? cs = some n) : interior? (cs ++ r) = some n := by
  fun_induction interior? cs generalizing n with
  | case1 => cases h
  | case2 cs =>
    cases h
    rfl
  | case3 c cs ih =>
    obtain ⟨m, inner, rfl⟩ := Option.map_eq_some_iff.1 h
    simp [interior?, ih inner]
  | case4 c cs noQuote noEscape ih =>
    obtain ⟨m, inner, rfl⟩ := Option.map_eq_some_iff.1 h
    have step : interior? (c :: (cs ++ r)) = (interior? (cs ++ r)).map (· + 1) := by
      cases cs with
      | nil => cases inner
      | cons d cs => rw [List.cons_append, interior?] <;> simp_all
    rw [List.cons_append, step, ih inner]
    rfl

/-- A string that is closed within a text is closed without what follows. -/
theorem interior?_of_append (h : interior? (cs ++ r) = some n) (inside : n < cs.length) :
    interior? cs = some n := by
  fun_induction interior? cs generalizing n with
  | case1 => simp at inside
  | case2 cs => exact h
  | case3 c cs ih =>
    obtain ⟨m, inner, rfl⟩ := Option.map_eq_some_iff.1 h
    rw [ih inner (by simpa using inside)]
    rfl
  | case4 c cs noQuote noEscape ih =>
    have step : interior? (c :: (cs ++ r)) = (interior? (cs ++ r)).map (· + 1) := by
      rw [interior?]
      · exact noQuote
      · intro d ds escape same
        cases cs with
        | nil =>
          -- the protected character would stand behind the text
          rw [List.cons_append, escape, same, interior?] at h
          obtain ⟨m, -, rfl⟩ := Option.map_eq_some_iff.1 h
          simp at inside
        | cons e es => exact noEscape e es escape rfl
    rw [List.cons_append, step] at h
    obtain ⟨m, inner, rfl⟩ := Option.map_eq_some_iff.1 h
    rw [ih inner (by simpa using inside)]
    rfl

/-! ### Runs -/

/-- A run of characters ends where one follows that does not belong to it. -/
theorem takeWhile_append_of_head (h : r.head?.all (!p ·) = true) :
    (cs ++ r).takeWhile p = cs.takeWhile p := by
  induction cs with
  | nil =>
    cases r with
    | nil => rfl
    | cons c r => simp_all
  | cons c cs ih =>
    rw [List.cons_append, List.takeWhile_cons, List.takeWhile_cons, ih]

theorem dropWhile_append_of_head (h : r.head?.all (!p ·) = true) :
    (cs ++ r).dropWhile p = cs.dropWhile p ++ r := by
  induction cs with
  | nil =>
    cases r with
    | nil => rfl
    | cons c r => simp_all
  | cons c cs ih =>
    rw [List.cons_append, List.dropWhile_cons, List.dropWhile_cons, ih]
    split <;> rfl

/-- A run that ends within a text is the one of the text by itself. -/
theorem takeWhile_of_append {p : Char → Bool}
    (inside : ((cs ++ r).takeWhile p).length ≤ cs.length) :
    (cs ++ r).takeWhile p = cs.takeWhile p := by
  rw [List.takeWhile_append] at inside ⊢
  split
  · rename_i whole
    rw [if_pos whole, List.length_append] at inside
    have none : r.takeWhile p = [] := List.length_eq_zero_iff.1 (by omega)
    have all : cs.takeWhile p = cs := (List.takeWhile_prefix p).eq_of_length whole
    rw [none, all, List.append_nil]
  · rfl

theorem length_takeWhile_le : (cs.takeWhile p).length ≤ cs.length :=
  (List.takeWhile_sublist p).length_le

theorem take_length_takeWhile : cs.take (cs.takeWhile p).length = cs.takeWhile p :=
  (List.prefix_iff_eq_take.1 (List.takeWhile_prefix p)).symm

theorem head?_any_append (ended : r.head?.all (!p ·) = true) :
    (cs ++ r).head?.any p = cs.head?.any p := by
  cases cs with
  | nil => cases r <;> simp_all
  | cons c cs => rfl

end Quaked.Text
