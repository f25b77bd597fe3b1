import Quaked.Positional
import Quaked.Proofs.Number.Integer
import Quaked.Proofs.Reading
import Quaked.Proofs.Selector.Printable

/-!
# What positional selectors stand for

A positional selector stands for a small tree: maps of literals and lookups, perhaps under a
condition each. Its numbers are integers of 64 bits (`inRange_of_entries`), so only the names it
looks up can keep the tree from being written: these come from words and quoted strings of a
definition file, which may hold any characters.

* `printable_selector`: a positional selector can be written if its names are names.
* `reread_selector`: and then it is read back as the same tree.
-/

namespace Quaked.Positional

open Text

/-- An integer of 64 bits. -/
def InRange (n : Int) : Prop := Word.least ≤ n ∧ n ≤ Word.greatest

/-- What a condition compares with is in range if it is an integer. -/
def Operand.InRange : Operand → Prop
  | string _ => True
  | integer n => Positional.InRange n

/-- The integers of an entry are in range. -/
def Entry.InRange : Entry → Prop
  | fixed _ skin frame condition => (∀ n ∈ skin, Positional.InRange n) ∧
      (∀ n ∈ frame, Positional.InRange n) ∧ ∀ c ∈ condition, c.2.InRange
  | keyed _ _ _ => True

/-! ### Trees -/

section Trees

open Selector (Shaped Printable isName)

private abbrev finite : Number .double → Prop := fun x => x.isFinite = true

theorem shaped_integer {n : Int} (h : InRange n) :
    Shaped finite .operand (.number (Number.ofInt n)) :=
  .number (Number.isFinite_ofInt (by decide) h.1 h.2)

/-- A map can be written if what it consists of can. -/
theorem shaped_modelMap {path : Selector} {skin frame : Option Selector}
    (hp : Shaped finite .operand path) (hs : ∀ e ∈ skin, Shaped finite .operand e)
    (hf : ∀ e ∈ frame, Shaped finite .operand e) :
    Shaped finite .operand (modelMap path skin frame) := by
  refine .map fun entry mem => ?_
  rcases List.mem_append.1 mem with mem | mem
  · rcases List.mem_cons.1 mem with rfl | mem
    · exact hp
    · obtain ⟨e, inside, rfl⟩ := by simpa using mem
      exact hs e inside
  · obtain ⟨e, inside, rfl⟩ := by simpa using mem
    exact hf e inside

theorem mem_lookups_modelMap {path : Selector} {skin frame : Option Selector} {name : String} :
    name ∈ (modelMap path skin frame).lookups ↔ name ∈ path.lookups ∨
      (∃ e ∈ skin, name ∈ e.lookups) ∨ ∃ e ∈ frame, name ∈ e.lookups := by
  rw [modelMap, Selector.lookups, Selector.lookupsEntries_eq_flatMap]
  cases skin <;> cases frame <;> simp

/-- An entry whose names are names can be written as an element of a choice, and by itself if it has
no condition. -/
theorem Entry.shaped (entry : Entry) (range : entry.InRange)
    (names : ∀ name ∈ entry.selector.lookups, isName name = true) :
    Shaped finite .element entry.selector ∧
      (entry.isConditional = false → Shaped finite .operand entry.selector) := by
  cases entry with
  | fixed path skin frame condition =>
    obtain ⟨hs, hf, hc⟩ := range
    have number (o : Option Int) (h : ∀ n ∈ o, Positional.InRange n) :
        ∀ e ∈ o.map (Selector.number <| Number.ofInt ·), Shaped finite .operand e := by
      intro e mem
      obtain ⟨n, inside, rfl⟩ := Option.map_eq_some_iff.1 mem
      exact shaped_integer (h n inside)
    have model := shaped_modelMap (.string path) (number skin hs) (number frame hf)
    cases condition with
    | none => exact ⟨.plain model, fun _ => model⟩
    | some c =>
      obtain ⟨name, operand⟩ := c
      refine ⟨.guarded (.binary .equal (.lookup (names name ?_)) ?_) model, nofun⟩
      · simp [Entry.selector, Selector.lookups]
      · cases operand with
        | string s => exact .string s
        | integer n => exact shaped_integer (hc (name, .integer n) rfl)
  | keyed path skin frame =>
    have lookup (o : Option String) (h : ∀ name ∈ o, isName name = true) :
        ∀ e ∈ o.map Selector.lookup, Shaped finite .operand e := by
      intro e mem
      obtain ⟨name, inside, rfl⟩ := Option.map_eq_some_iff.1 mem
      exact .lookup (h name inside)
    have known (name : String) (h : name = path ∨ name ∈ skin ∨ name ∈ frame) :
        isName name = true := by
      refine names name (mem_lookups_modelMap.2 ?_)
      rcases h with rfl | h | h
      · exact .inl List.mem_cons_self
      · exact .inr (.inl ⟨.lookup name, Option.mem_map_of_mem _ h, List.mem_cons_self⟩)
      · exact .inr (.inr ⟨.lookup name, Option.mem_map_of_mem _ h, List.mem_cons_self⟩)
    have model := shaped_modelMap (.lookup (known path (.inl rfl)))
      (lookup skin fun name mem => known name (.inr (.inl mem)))
      (lookup frame fun name mem => known name (.inr (.inr mem)))
    exact ⟨.plain model, fun _ => model⟩

/-- Several entries, or one with a condition, stand in a choice. -/
theorem selector_eq_or (entries : List Entry) :
    (∃ entry, entries = [entry] ∧ entry.isConditional = false ∧ selector entries = entry.selector) ∨
      selector entries = .choice (entries.map Entry.selector) := by
  unfold selector
  split
  · rename_i entry
    cases conditional : entry.isConditional with
    | true => exact .inr rfl
    | false => exact .inl ⟨entry, rfl, conditional, rfl⟩
  · exact .inr rfl

/-- A positional selector can be written if the names it looks up are names. -/
theorem printable_selector {entries : List Entry} (range : ∀ entry ∈ entries, entry.InRange)
    (names : ∀ name ∈ (selector entries).lookups, isName name = true) :
    Printable (selector entries) := by
  rcases selector_eq_or entries with ⟨entry, rfl, plain, same⟩ | same
  · rw [same] at names ⊢
    exact (entry.shaped (range entry List.mem_cons_self) names).2 plain
  · rw [same] at names ⊢
    refine .choice fun e mem => ?_
    obtain ⟨entry, inside, rfl⟩ := List.mem_map.1 mem
    refine (entry.shaped (range entry inside) fun name mem => names name ?_).1
    rw [Selector.lookups, Selector.lookupsAll_eq_flatMap]
    exact List.mem_flatMap.2 ⟨entry.selector, List.mem_map_of_mem inside, mem⟩

/-! ### Reading back -/

open Selector (reread)

theorem reread_integer {n : Int} (h : InRange n) :
    reread (.number (Number.ofInt n)) = .number (Number.ofInt n) := by
  have finite : (Number.ofInt n : Number .double).isFinite = true :=
    Number.isFinite_ofInt (by decide) h.1 h.2
  have unsigned := Number.unsignedZero_ofInt (F := .double) n
  show Selector.rereadNumber (Number.ofInt n) = _
  cases is : (Number.ofInt n : Number .double) with
  | finite negative m =>
    rw [is] at unsigned
    exact congrArg Selector.number unsigned
  | nan =>
    rw [is] at finite
    cases finite
  | infinite negative =>
    rw [is] at finite
    cases finite

theorem reread_modelMap {path : Selector} {skin frame : Option Selector}
    (hp : reread path = path) (hs : ∀ e ∈ skin, reread e = e) (hf : ∀ e ∈ frame, reread e = e) :
    reread (modelMap path skin frame) = modelMap path skin frame := by
  rw [modelMap, reread, Selector.rereadEntries_eq_map]
  cases skin <;> cases frame <;> simp_all

theorem Entry.reread_selector {entry : Entry} (range : entry.InRange) :
    reread entry.selector = entry.selector := by
  cases entry with
  | fixed path skin frame condition =>
    obtain ⟨hs, hf, hc⟩ := range
    have number (o : Option Int) (h : ∀ n ∈ o, Positional.InRange n) :
        ∀ e ∈ o.map (Selector.number <| Number.ofInt ·), reread e = e := by
      intro e mem
      obtain ⟨n, inside, rfl⟩ := Option.map_eq_some_iff.1 mem
      exact reread_integer (h n inside)
    have same : reread (.string path) = .string path := rfl
    have model := reread_modelMap same (number skin hs) (number frame hf)
    cases condition with
    | none => exact model
    | some c =>
      obtain ⟨name, operand⟩ := c
      have same : reread operand.selector = operand.selector := by
        cases operand with
        | string s => rfl
        | integer n => exact reread_integer (hc (name, .integer n) rfl)
      show Selector.guarded (.binary .equal (.lookup name) (reread operand.selector)) _ = _
      rw [same, model]
      rfl
  | keyed path skin frame =>
    refine reread_modelMap rfl ?_ ?_
    · intro e mem
      obtain ⟨name, -, rfl⟩ := Option.map_eq_some_iff.1 mem
      rfl
    · intro e mem
      obtain ⟨name, -, rfl⟩ := Option.map_eq_some_iff.1 mem
      rfl

/-- A positional selector is its own reading: no integer is a zero with a sign. -/
theorem reread_selector {entries : List Entry} (range : ∀ entry ∈ entries, entry.InRange) :
    reread (selector entries) = selector entries := by
  rcases selector_eq_or entries with ⟨entry, rfl, -, same⟩ | same
  · rw [same]
    exact Entry.reread_selector (range entry List.mem_cons_self)
  · rw [same, reread, Selector.rereadAll_eq_map, List.map_map]
    refine congrArg Selector.choice (List.map_congr_left fun entry inside => ?_)
    exact Entry.reread_selector (range entry inside)

end Trees

/-! ### What is read -/

section Reading

variable {c c' : Cursor}

theorem inRange_of_integerOf {t : Token} {n : Int} (h : integerOf t c = .ok n c') : InRange n := by
  unfold integerOf at h
  cases written : Word.ofString? t.text with
  | none => simp [written] at h
  | some m =>
    obtain ⟨rfl, -⟩ := pure_eq_ok_iff.1 (by simpa only [written] using h)
    obtain ⟨-, range⟩ := Option.filter_eq_some_iff.1 written
    simpa [InRange] using range

theorem inRange_of_integer? {o : Option Int} (h : integer? c = .ok o c') : ∀ n ∈ o, InRange n := by
  obtain ⟨t, c₁, -, h⟩ := bind_eq_ok_iff.1 h
  split at h
  · obtain ⟨t', c₂, -, h⟩ := bind_eq_ok_iff.1 h
    obtain ⟨m, c₃, read, h⟩ := bind_eq_ok_iff.1 h
    obtain ⟨rfl, -⟩ := pure_eq_ok_iff.1 h
    intro n mem
    cases mem
    exact inRange_of_integerOf read
  · obtain ⟨rfl, -⟩ := pure_eq_ok_iff.1 h
    intro n mem
    cases mem

theorem inRange_of_operand {o : Operand} (h : operand c = .ok o c') : o.InRange := by
  obtain ⟨t, c₁, -, h⟩ := bind_eq_ok_iff.1 h
  split at h
  · obtain ⟨n, c₂, read, h⟩ := bind_eq_ok_iff.1 h
    obtain ⟨rfl, -⟩ := pure_eq_ok_iff.1 h
    exact inRange_of_integerOf read
  · obtain ⟨rfl, -⟩ := pure_eq_ok_iff.1 h
    trivial

theorem inRange_of_condition? {o : Option (String × Operand)} (h : condition? c = .ok o c') :
    ∀ condition ∈ o, condition.2.InRange := by
  obtain ⟨t, c₁, -, h⟩ := bind_eq_ok_iff.1 h
  split at h
  · obtain ⟨name, c₂, -, h⟩ := bind_eq_ok_iff.1 h
    obtain ⟨_, c₃, -, h⟩ := bind_eq_ok_iff.1 h
    obtain ⟨operand, c₄, read, h⟩ := bind_eq_ok_iff.1 h
    obtain ⟨rfl, -⟩ := pure_eq_ok_iff.1 h
    intro condition mem
    cases mem
    exact inRange_of_operand read
  · obtain ⟨rfl, -⟩ := pure_eq_ok_iff.1 h
    intro condition mem
    cases mem

theorem inRange_of_fixed {e : Entry} (h : fixed c = .ok e c') : e.InRange := by
  obtain ⟨path, c₁, -, h⟩ := bind_eq_ok_iff.1 h
  obtain ⟨skin, c₂, readSkin, h⟩ := bind_eq_ok_iff.1 h
  obtain ⟨frame, c₃, readFrame, h⟩ := bind_eq_ok_iff.1 h
  obtain ⟨condition, c₄, readCondition, h⟩ := bind_eq_ok_iff.1 h
  obtain ⟨rfl, -⟩ := pure_eq_ok_iff.1 h
  exact ⟨inRange_of_integer? readSkin, inRange_of_integer? readFrame,
    inRange_of_condition? readCondition⟩

theorem inRange_of_keyed {e : Entry} (h : keyed c = .ok e c') : e.InRange := by
  obtain ⟨keys, c₁, -, h⟩ := bind_eq_ok_iff.1 h
  cases path : keys.path with
  | none =>
    simp only [path] at h
    obtain ⟨c, c₂, -, h⟩ := bind_eq_ok_iff.1 h
    simp at h
  | some name =>
    simp only [path] at h
    obtain ⟨rfl, -⟩ := pure_eq_ok_iff.1 h
    trivial

theorem inRange_of_entry {e : Entry} (h : entry c = .ok e c') : e.InRange := by
  obtain ⟨_, c₁, -, h⟩ := bind_eq_ok_iff.1 h
  obtain ⟨t, c₂, -, h⟩ := bind_eq_ok_iff.1 h
  split at h
  · exact inRange_of_fixed h
  · exact inRange_of_keyed h

/-- The integers of entries that are read are in range. -/
theorem inRange_of_entries {es : List Entry} (h : entries c = .ok es c') :
    ∀ entry ∈ es, entry.InRange := by
  obtain ⟨first, c₁, read, h⟩ := bind_eq_ok_iff.1 h
  refine iterate_invariant (P := fun es _ => ∀ entry ∈ es, entry.InRange) ?_ ?_ ?_ h
  · intro es es' s s' before step
    obtain ⟨t, s₁, -, step⟩ := bind_eq_ok_iff.1 step
    split at step
    · obtain ⟨_, s₂, -, step⟩ := bind_eq_ok_iff.1 step
      obtain ⟨added, s₃, read, step⟩ := bind_eq_ok_iff.1 step
      obtain ⟨same, -⟩ := pure_eq_ok_iff.1 step
      cases same
      intro entry mem
      rcases List.mem_append.1 mem with mem | mem
      · exact before entry mem
      · rw [List.mem_singleton.1 mem]
        exact inRange_of_entry read
    · cases (pure_eq_ok_iff.1 step).1
  · intro es s s' before _
    exact before
  · intro entry mem
    rw [List.mem_singleton.1 mem]
    exact inRange_of_entry read

/-- What the positional grammar reads stands for entries whose integers are in range. -/
theorem entries_of_expression {e : Selector} (h : expression c = .ok e c') :
    ∃ entries : List Entry, (∀ entry ∈ entries, entry.InRange) ∧ e = selector entries := by
  obtain ⟨es, c₁, read, h⟩ := bind_eq_ok_iff.1 h
  obtain ⟨rfl, -⟩ := pure_eq_ok_iff.1 h
  exact ⟨es, inRange_of_entries read, rfl⟩

end Reading

end Quaked.Positional
