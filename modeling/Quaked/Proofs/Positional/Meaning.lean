import Mathlib.Data.List.Forall2
import Quaked.Proofs.Number.Order
import Quaked.Proofs.Positional
import Quaked.Selector.Model

/-!
# What positional selectors select

Said without a tree and without evaluating one: the first entry that applies to the attributes decides
alone, by its path whether there is a model at all, and by its skin and frame which one. Conditions only
compare, so nothing can be of a wrong type. Skins and frames are moved into range, those that are held by
attributes after their fractions are cut off (`Number.place`).

* `Entry.evaluate_of_applies`, `Entry.evaluate_of_not_applies`: what one entry evaluates to.
* `evaluateFirst_of_first`: entries that do not apply are passed.
* `first_entry_selects`: what a positional selector selects.
-/

namespace Quaked

open Text

namespace Number

/-- The whole number in the range of skins and frames that a number stands for: what is no number or
negative is the first, a fraction is cut off, and what is too large is the last. -/
def place : Number .double → Nat
  | .nan => 0
  | .infinite negative => if negative then 0 else Model.greatestIndex
  | .finite negative m =>
    if negative then 0 else Min.min (m.units / Format.double.one) Model.greatestIndex

theorem toNat_truncate (x : Number .double) :
    (x.truncate 0 Model.greatestIndex).toNat = x.place := by
  cases x with
  | nan => rfl
  | infinite negative => cases negative <;> rfl
  | finite negative m =>
    have least : Numeral.signed true (m.units / Format.double.one) ≤ 0 :=
      Int.neg_nonpos_of_nonneg (Int.natCast_nonneg _)
    have plain : Numeral.signed false (m.units / Format.double.one) =
        (m.units / Format.double.one : Nat) := rfl
    unfold truncate place
    dsimp only
    cases negative with
    | true =>
      generalize Numeral.signed true (m.units / Format.double.one) = whole at least
      have other : ¬ (Model.greatestIndex : Int) < whole := by omega
      rw [if_neg other, if_pos rfl]
      split
      · rfl
      · exact Int.toNat_of_nonpos least
    | false =>
      rw [plain]
      generalize m.units / Format.double.one = whole
      rw [if_neg (by omega), if_neg Bool.false_ne_true]
      split
      · rename_i more
        rw [Int.toNat_natCast, Nat.min_eq_right (by omega)]
      · rw [Int.toNat_natCast, Nat.min_eq_left (by omega)]

/-- A finite number that is not negative has the place of its whole part. -/
theorem place_finite (m : Magnitude .double) {units : Nat} (is : m.units = units) :
    (finite false m).place = Min.min (units / Format.double.one) Model.greatestIndex :=
  is ▸ rfl

/-- An integer has the place in the range that is next to it. -/
theorem place_ofInt (n : Int) : (ofInt n).place = Min.min n.toNat Model.greatestIndex := by
  have room : Format.double.precision + Format.double.scale < Format.double.limit := by decide
  have fits : Model.greatestIndex ≤ Nat.pow 2 Format.double.precision := by decide
  have one : 0 < Format.double.one := Format.double.one_pos
  unfold ofInt ofRatio
  by_cases negative : n < 0
  · rw [decide_eq_true negative, Int.toNat_of_nonpos (by omega), Nat.zero_min]
    split
    · rfl
    · rfl
  rw [decide_eq_false negative, show n.natAbs = n.toNat by omega]
  generalize n.toNat = k
  by_cases large : Model.greatestIndex ≤ k
  -- what is not below the last place is not rounded below it
  · have more := Format.double.nearest_mono 1 (Nat.mul_le_mul_right Format.double.one large)
    rw [(Format.double.nearest_whole room fits).1, ← Nat.le_div_iff_mul_le one] at more
    rw [Nat.min_eq_right large]
    split
    · rw [place_finite _ rfl]
      exact Nat.min_eq_right more
    · rfl
  · have less := Nat.le_of_not_le large
    obtain ⟨whole, bound⟩ := Format.double.nearest_whole room (Nat.le_trans less fits)
    split
    · rw [place_finite _ whole, Nat.mul_div_cancel _ one]
    · rename_i outside
      rw [whole] at outside
      exact absurd bound outside

end Number

namespace Positional

/-- The attributes of an entity. -/
abbrev Attributes := String → Option String

/-- What a selector can look up of them. -/
def Attributes.store (attributes : Attributes) : Store := fun name => (attributes name).map .string

/-- The number that the value of an attribute writes, the white space around it aside. -/
def written? (value : String) : Option (Number .double) :=
  Number.ofString? (String.ofList (trim value.toList))

/-! ### What an entry says -/

/-- Whether the value of an attribute is what a condition compares with: the very string, or any way to
write the number. -/
def Operand.Matches (value : String) : Operand → Prop
  | string s => value = s
  | integer n => ∃ x, written? value = some x ∧ (x == Number.ofInt n) = true

/-- The value that a condition compares with. -/
def Operand.value : Operand → Value
  | string s => .string s
  | integer n => .number (Number.ofInt n)

/-- The condition of an entry. -/
def Entry.condition? : Entry → Option (String × Operand)
  | fixed _ _ _ condition => condition
  | keyed _ _ _ => none

/-- Whether an entry applies: it has no condition, or its attribute is set and matches. -/
def Entry.Applies (attributes : Attributes) (entry : Entry) : Prop :=
  ∀ condition ∈ entry.condition?, ∃ value ∈ attributes condition.1, condition.2.Matches value

/-- A skin or frame that an entry gives itself. -/
def given (n : Option Int) : Nat :=
  match n with
  | some n => Min.min n.toNat Model.greatestIndex
  | none => 0

/-- A skin or frame that an attribute holds, if its name is known and it is set to a number. -/
def held (attributes : Attributes) (name : Option String) : Nat :=
  match (name.bind attributes).bind written? with
  | some x => x.place
  | none => 0

namespace Entry

variable (attributes : Attributes)

/-- The path of an entry. -/
def path? : Entry → Option String
  | fixed path _ _ _ => some path
  | keyed path _ _ => attributes path

/-- The skin of an entry. -/
def skin : Entry → Nat
  | fixed _ skin _ _ => given skin
  | keyed _ skin _ => held attributes skin

/-- The frame of an entry. -/
def frame : Entry → Nat
  | fixed _ _ frame _ => given frame
  | keyed _ _ frame => held attributes frame

/-- The model of an entry, none if its path is missing or empty. -/
def model? (entry : Entry) : Option Model :=
  match entry.path? attributes with
  | some path =>
    if path = "" then none else some ⟨path, entry.skin attributes, entry.frame attributes⟩
  | none => none

end Entry

/-! ### What maps evaluate to -/

section Maps

variable {store : Store}

/-- Whether a field that may be missing evaluates to a value, or to nothing if it is. -/
def Evaluates (store : Store) (e : Option Selector) (v : Option Value) : Prop :=
  Option.Rel (fun e v => e.evaluate store = .ok v) e v

/-- The fields of an evaluated map. -/
def fields (path : Value) (skin frame : Option Value) : List (String × Value) :=
  ("path", path) :: (skin.map (("skin", ·))).toList ++ (frame.map (("frame", ·))).toList

/-- A map evaluates to the values of its fields, in order. -/
theorem evaluateEntries_of_forall {es : List (String × Selector)} {vs : List (String × Value)}
    (h : List.Forall₂ (fun e v => e.1 = v.1 ∧ e.2.evaluate store = .ok v.2) es vs) :
    Selector.evaluateEntries store es = .ok vs := by
  induction h with
  | nil => rfl
  | @cons e v es vs head _ rest =>
    obtain ⟨key, item⟩ := e
    obtain ⟨_, value⟩ := v
    obtain ⟨rfl, evaluated⟩ := head
    rw [Selector.evaluateEntries_cons, evaluated, rest]
    rfl

theorem evaluate_modelMap {path : Selector} {skin frame : Option Selector} {p : Value}
    {s f : Option Value} (hp : path.evaluate store = .ok p) (hs : Evaluates store skin s)
    (hf : Evaluates store frame f) :
    (modelMap path skin frame).evaluate store = .ok (.map (fields p s f)) := by
  have field (key : String) {e : Option Selector} {v : Option Value} (h : Evaluates store e v) :
      List.Forall₂ (fun e v => e.1 = v.1 ∧ e.2.evaluate store = .ok v.2)
        (e.map ((key, ·))).toList (v.map ((key, ·))).toList := by
    cases h with
    | none => exact .nil
    | some h => exact .cons ⟨rfl, h⟩ .nil
  have all : Selector.evaluateEntries store _ = .ok (fields p s f) := evaluateEntries_of_forall
    (List.rel_append (.cons (a := ("path", path)) ⟨rfl, hp⟩ (field "skin" hs)) (field "frame" hf))
  rw [modelMap, Selector.evaluate_map, all]
  rfl

theorem lookup_fields (path : Value) (skin frame : Option Value) :
    (fields path skin frame).lookup "path" = some path ∧
      (fields path skin frame).lookup "skin" = skin ∧
      (fields path skin frame).lookup "frame" = frame := by
  cases skin <;> cases frame <;> exact ⟨rfl, rfl, rfl⟩

/-- The model of an evaluated map. -/
theorem ofValue?_fields (path : Value) (skin frame : Option Value) :
    Model.ofValue? (.map (fields path skin frame)) =
      match path with
      | .string path => if path = "" then none else some ⟨path, Model.index skin, Model.index frame⟩
      | _ => none := by
  obtain ⟨hp, hs, hf⟩ := lookup_fields path skin frame
  rw [Model.ofValue?, hp, hs, hf]
  cases path <;> rfl

theorem evaluate_number (x : Number .double) :
    (Selector.number x).evaluate store = .ok (.number x) := by
  rw [Selector.number, Selector.evaluate_literal]

theorem index_number (x : Number .double) : Model.index (some (.number x)) = x.place :=
  Number.toNat_truncate x

theorem index_string (value : String) :
    Model.index (some (.string value)) = match written? value with
      | some x => x.place
      | none => 0 := by
  rw [Model.index, Option.bind_some, show (Value.string value).asNumber? = written? value from rfl]
  cases written? value with
  | none => rfl
  | some x => exact Number.toNat_truncate x

theorem evaluates_integer (n : Option Int) :
    Evaluates store (n.map (Selector.number <| Number.ofInt ·))
      (n.map (Value.number <| Number.ofInt ·)) := by
  cases n with
  | none => exact .none
  | some n => exact .some (evaluate_number _)

theorem index_integer (n : Option Int) :
    Model.index (n.map (Value.number <| Number.ofInt ·)) = given n := by
  cases n with
  | none => rfl
  | some n => exact (index_number _).trans (Number.place_ofInt n)

end Maps

section Attributes

variable (attributes : Attributes)

/-- The value of an attribute. -/
def Attributes.value (name : String) : Value := ((attributes name).map .string).getD .undefined

theorem evaluates_lookup (name : Option String) :
    Evaluates attributes.store (name.map Selector.lookup) (name.map attributes.value) := by
  cases name with
  | none => exact .none
  | some name => exact .some (by rw [Selector.evaluate_lookup]; rfl)

theorem index_value (name : Option String) :
    Model.index (name.map attributes.value) = held attributes name := by
  cases name with
  | none => rfl
  | some name =>
    rw [Option.map_some, Attributes.value, held, Option.bind_some]
    cases attributes name with
    | none => rfl
    | some value =>
      rw [Option.map_some, Option.getD_some, Option.bind_some]
      exact index_string value

/-! ### What entries evaluate to -/

/-- What is compared with an integer has to count as its number. -/
theorem looselyEquals_number (v : Value) (x : Number .double) :
    v.looselyEquals (.number x) = true ↔ ∃ y, v.asNumber? = some y ∧ (y == x) = true := by
  rw [Value.looselyEquals, show (Value.number x).isNumber = true from rfl, Bool.or_true, if_pos rfl,
    show (Value.number x).asNumber? = some x from rfl]
  cases v.asNumber? with
  | none => simp
  | some y => simp

/-- What is compared with a string is compared as it is, unless it is a number. -/
theorem looselyEquals_string (v : Value) (s : String) (other : v.isNumber = false) :
    v.looselyEquals (.string s) = true ↔ v = .string s := by
  rw [Value.looselyEquals, other, show (Value.string s).isNumber = false from rfl, Bool.or_false,
    if_neg Bool.false_ne_true]
  cases v with
  | string value => simp [BEq.beq, Value.equals]
  | _ => exact ⟨nofun, nofun⟩

/-- Whether an attribute is loosely equal to what a condition compares it with. -/
theorem looselyEquals_iff (name : String) (operand : Operand) :
    (attributes.value name).looselyEquals operand.value = true ↔
      ∃ value ∈ attributes name, operand.Matches value := by
  rw [Attributes.value]
  cases attributes name with
  | none =>
    cases operand with
    | string s => rw [Operand.value, looselyEquals_string _ _ rfl]; simp
    | integer n => rw [Operand.value, looselyEquals_number]; simp [Value.asNumber?]
  | some value =>
    cases operand with
    | string s => rw [Operand.value, looselyEquals_string _ _ rfl]; simp [Operand.Matches]
    | integer n =>
      rw [Operand.value, looselyEquals_number]
      simp [Operand.Matches, Value.asNumber?, written?]

/-- The map of an entry, its condition aside. -/
def Entry.map : Entry → Selector
  | fixed path skin frame _ => modelMap (.string path) (skin.map (.number <| Number.ofInt ·))
      (frame.map (.number <| Number.ofInt ·))
  | keyed path skin frame => modelMap (.lookup path) (skin.map .lookup) (frame.map .lookup)

/-- An entry is its map, under its condition if it has one. -/
theorem Entry.selector_eq (entry : Entry) :
    entry.selector = match entry.condition? with
      | none => entry.map
      | some (name, operand) =>
        .guarded (.binary .equal (.lookup name) operand.selector) entry.map := by
  cases entry with
  | fixed path skin frame condition => cases condition <;> rfl
  | keyed path skin frame => rfl

/-- The map of an entry is one of its model. -/
theorem Entry.evaluate_map (entry : Entry) :
    ∃ fs, entry.map.evaluate attributes.store = .ok (.map fs) ∧
      Model.ofValue? (.map fs) = entry.model? attributes := by
  cases entry with
  | fixed path skin frame condition =>
    refine ⟨_, evaluate_modelMap (p := .string path) ?_ (evaluates_integer skin)
      (evaluates_integer frame), ?_⟩
    · rw [Selector.string, Selector.evaluate_literal]
    · rw [ofValue?_fields, index_integer, index_integer]
      rfl
  | keyed path skin frame =>
    refine ⟨_, evaluate_modelMap (p := attributes.value path) ?_ (evaluates_lookup attributes skin)
      (evaluates_lookup attributes frame), ?_⟩
    · rw [Selector.evaluate_lookup]
      rfl
    · rw [ofValue?_fields, index_value, index_value, Attributes.value]
      simp only [model?, path?]
      cases attributes path <;> rfl

/-- A condition evaluates to whether its attribute matches. -/
theorem evaluate_condition (name : String) (operand : Operand) :
    (Selector.binary .equal (.lookup name) operand.selector).evaluate attributes.store =
      .ok (.boolean ((attributes.value name).looselyEquals operand.value)) := by
  have right : operand.selector.evaluate attributes.store = .ok operand.value := by
    cases operand with
    | string s => rw [Operand.selector, Selector.string, Selector.evaluate_literal]; rfl
    | integer n => exact evaluate_number _
  rw [Selector.evaluate_binary (by decide) (by decide), Selector.evaluate_lookup, right]
  rfl

/-- An entry that applies evaluates to a map of its model. -/
theorem Entry.evaluate_of_applies {entry : Entry} (applies : entry.Applies attributes) :
    ∃ fs, entry.selector.evaluate attributes.store = .ok (.map fs) ∧
      Model.ofValue? (.map fs) = entry.model? attributes := by
  obtain ⟨fs, evaluated, is⟩ := entry.evaluate_map attributes
  refine ⟨fs, ?_, is⟩
  rw [entry.selector_eq]
  cases conditional : entry.condition? with
  | none => exact evaluated
  | some condition =>
    obtain ⟨name, operand⟩ := condition
    have holds := (looselyEquals_iff attributes name operand).2 (applies (name, operand) conditional)
    show (Selector.guarded _ _).evaluate attributes.store = _
    rw [Selector.evaluate_guarded, evaluate_condition, holds]
    exact evaluated

/-- An entry that does not apply evaluates to nothing. -/
theorem Entry.evaluate_of_not_applies {entry : Entry} (other : ¬ entry.Applies attributes) :
    entry.selector.evaluate attributes.store = .ok .undefined := by
  rw [entry.selector_eq]
  cases conditional : entry.condition? with
  | none => exact absurd (fun condition mem => by rw [conditional] at mem; cases mem) other
  | some condition =>
    obtain ⟨name, operand⟩ := condition
    have fails : (attributes.value name).looselyEquals operand.value = false := by
      refine Bool.eq_false_iff.2 fun holds => other fun condition mem => ?_
      cases conditional.symm.trans mem
      exact (looselyEquals_iff attributes name operand).1 holds
    show (Selector.guarded _ _).evaluate attributes.store = _
    rw [Selector.evaluate_guarded, evaluate_condition, fails]
    rfl

/-! ### What lists of entries evaluate to -/

variable {attributes : Attributes} {es before : List Entry}

/-- Entries that do not apply are passed. -/
theorem evaluateFirst_append (others : ∀ entry ∈ before, ¬ entry.Applies attributes) :
    Selector.evaluateFirst attributes.store ((before ++ es).map Entry.selector) =
      Selector.evaluateFirst attributes.store (es.map Entry.selector) := by
  induction before with
  | nil => rfl
  | cons entry before ih =>
    rw [List.cons_append, List.map_cons, Selector.evaluateFirst_cons,
      Entry.evaluate_of_not_applies attributes (others entry List.mem_cons_self)]
    exact ih fun other mem => others other (List.mem_cons_of_mem _ mem)

/-- The first entry that applies is what a choice evaluates to, whatever stands behind it. -/
theorem evaluateFirst_of_first {entry : Entry} (applies : entry.Applies attributes)
    (others : ∀ other ∈ before, ¬ other.Applies attributes) (after : List Entry) :
    ∃ fs, Selector.evaluateFirst attributes.store
        ((before ++ entry :: after).map Entry.selector) = .ok (.map fs) ∧
      Model.ofValue? (.map fs) = entry.model? attributes := by
  obtain ⟨fs, evaluated, is⟩ := Entry.evaluate_of_applies attributes applies
  refine ⟨fs, ?_, is⟩
  rw [evaluateFirst_append others, List.map_cons, Selector.evaluateFirst_cons, evaluated]
  rfl

/-- If no entry applies, a choice evaluates to nothing. -/
theorem evaluateFirst_of_none (others : ∀ entry ∈ es, ¬ entry.Applies attributes) :
    Selector.evaluateFirst attributes.store (es.map Entry.selector) = .ok .undefined := by
  have passed : Selector.evaluateFirst attributes.store ((es ++ []).map Entry.selector) = _ :=
    evaluateFirst_append others
  rwa [List.append_nil] at passed

/-- What a positional selector selects is said by the first of its entries that applies. -/
theorem evaluate_selector_of_first {entry : Entry} {after : List Entry}
    (is : es = before ++ entry :: after) (applies : entry.Applies attributes)
    (others : ∀ other ∈ before, ¬ other.Applies attributes) :
    ∃ fs, (selector es).evaluate attributes.store = .ok (.map fs) ∧
      Model.ofValue? (.map fs) = entry.model? attributes := by
  rcases selector_eq_or es with ⟨lone, alone, -, same⟩ | same
  · -- a lone entry is the first one
    have length : before.length + (after.length + 1) = 1 := by
      have := congrArg List.length (is.symm.trans alone)
      simpa using this
    obtain rfl := List.eq_nil_of_length_eq_zero (l := before) (by omega)
    cases is.symm.trans alone
    rw [same]
    exact Entry.evaluate_of_applies attributes applies
  · subst is
    rw [same, Selector.evaluate_choice]
    exact evaluateFirst_of_first applies others after

/-- A positional selector of which no entry applies evaluates to nothing. -/
theorem evaluate_selector_of_none (others : ∀ entry ∈ es, ¬ entry.Applies attributes) :
    (selector es).evaluate attributes.store = .ok .undefined := by
  rcases selector_eq_or es with ⟨lone, rfl, plain, -⟩ | same
  · refine absurd (fun condition mem => ?_) (others lone List.mem_cons_self)
    -- a lone entry is by itself only if it has no condition
    cases lone with
    | keyed path skin frame => cases mem
    | fixed path skin frame condition? =>
      cases mem
      cases plain
  · rw [same, Selector.evaluate_choice]
    exact evaluateFirst_of_none others

/-- Either no entry applies, or one of them is the first that does. -/
theorem none_or_first (attributes : Attributes) (es : List Entry) :
    (∀ entry ∈ es, ¬ entry.Applies attributes) ∨
      ∃ before entry after, es = before ++ entry :: after ∧
        (∀ other ∈ before, ¬ other.Applies attributes) ∧ entry.Applies attributes := by
  induction es with
  | nil => exact .inl nofun
  | cons entry es ih =>
    by_cases applies : entry.Applies attributes
    · exact .inr ⟨[], entry, es, rfl, nofun, applies⟩
    · refine ih.imp (List.forall_mem_cons.2 ⟨applies, ·⟩) ?_
      rintro ⟨before, first, after, rfl, others, first_applies⟩
      exact ⟨entry :: before, first, after, rfl, List.forall_mem_cons.2 ⟨applies, others⟩,
        first_applies⟩

/-- A positional selector evaluates to a value for any attributes. The model it selects is that of the
first entry that applies, whatever follows it, and there is none if no entry applies. -/
theorem first_entry_selects {c c' : Cursor} {e : Selector} (read : expression c = .ok e c') :
    ∃ es, entries c = .ok es c' ∧ ∀ attributes : Attributes,
      (∃ value, e.evaluate attributes.store = .ok value) ∧
      (∀ before entry after, es = before ++ entry :: after →
        (∀ other ∈ before, ¬ other.Applies attributes) → entry.Applies attributes →
        e.model? attributes.store = .ok (entry.model? attributes)) ∧
      ((∀ entry ∈ es, ¬ entry.Applies attributes) → e.model? attributes.store = .ok none) := by
  obtain ⟨es, c₁, readEntries, same⟩ := bind_eq_ok_iff.1 read
  obtain ⟨rfl, rfl⟩ := pure_eq_ok_iff.1 same
  refine ⟨es, readEntries, fun attributes => ⟨?_, ?_, ?_⟩⟩
  · rcases none_or_first attributes es with others | ⟨before, entry, after, is, others, applies⟩
    · exact ⟨_, evaluate_selector_of_none others⟩
    · obtain ⟨fs, evaluated, -⟩ := evaluate_selector_of_first is applies others
      exact ⟨_, evaluated⟩
  · intro before entry after is others applies
    obtain ⟨fs, evaluated, model⟩ := evaluate_selector_of_first is applies others
    rw [Selector.model?, evaluated, ← model]
    rfl
  · intro others
    rw [Selector.model?, evaluate_selector_of_none others]
    rfl

/-- A model with a style, and one for the other styles. -/
def styled : String := "\"a.mdl\" 1 style = 2, \"b.mdl\""

/-- Any way to write the style selects the first model, and none or another one the second. -/
theorem first_entry_selects_styled :
    ∃ e c', expression (.ofString styled) = .ok e c' ∧
      e.model? (Attributes.store fun _ => some " 2.0 ") = .ok (some ⟨"a.mdl", 1, 0⟩) ∧
      e.model? (Attributes.store fun _ => none) = .ok (some ⟨"b.mdl", 0, 0⟩) ∧
      e.model? (Attributes.store fun _ => some "20") = .ok (some ⟨"b.mdl", 0, 0⟩) := by
  let first : Entry := .fixed "a.mdl" (some 1) none (some ("style", .integer 2))
  let second : Entry := .fixed "b.mdl" none none none
  have written : (match entries (.ofString styled) with
      | .ok es _ => some es
      | .error _ _ => none) = some [first, second] := by decide +kernel
  cases run : entries (.ofString styled) with
  | error e c' =>
    rw [run] at written
    cases written
  | ok es c' =>
    rw [run] at written
    cases written
    have read : expression (.ofString styled) = .ok (selector [first, second]) c' :=
      bind_eq_ok_iff.2 ⟨_, _, run, rfl⟩
    obtain ⟨_, run', selects⟩ := first_entry_selects read
    cases run.symm.trans run'
    have always : ∀ attributes, second.Applies attributes := fun _ => nofun
    refine ⟨_, _, read, ?_, ?_, ?_⟩
    · refine (selects _).2.1 [] first [second] rfl nofun fun condition mem => ?_
      cases mem
      have equal : (written? " 2.0 ").any (· == Number.ofInt 2) = true := by decide +kernel
      obtain ⟨x, is, equal⟩ := Option.any_eq_true .. |>.1 equal
      exact ⟨" 2.0 ", rfl, x, is, equal⟩
    · refine (selects _).2.1 [first] second [] rfl (fun other mem applies => ?_) (always _)
      cases List.mem_singleton.1 mem
      obtain ⟨value, set, -⟩ := applies ("style", .integer 2) rfl
      cases set
    · refine (selects _).2.1 [first] second [] rfl (fun other mem applies => ?_) (always _)
      cases List.mem_singleton.1 mem
      obtain ⟨value, set, x, is, equal⟩ := applies ("style", .integer 2) rfl
      cases set
      have other : (written? "20").any (· == Number.ofInt 2) = false := by decide +kernel
      rw [is, Option.any_some, equal] at other
      cases other

end Attributes
end Positional
end Quaked
