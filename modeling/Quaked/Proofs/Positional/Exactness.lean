import Quaked.Definition.Model
import Quaked.Proofs.Number.Integer
import Quaked.Proofs.Positional
import Quaked.Proofs.Token.Scattered

/-!
# Positional selectors are read exactly

The grammar of positions over tokens, and the tree that each derivation stands for, without a reader:
`EntryDerives` for an entry, `EntriesDerive` for entries with commas between them, `Whole` for what a list
of entries comes to. Each reader is sound (what it has taken, line breaks apart, derives what it answers)
and complete (it takes what derives something in front of a token that ends an entry).

* `sound_entry`, `takes_entry`: one entry.
* `sound_entries`, `takes_entries`: all of them.
* `expression_exact`: the reader succeeds in front of a parenthesis that closes exactly if the tokens up to
  the first one derive its answer, and it leaves the parenthesis.
-/

namespace Quaked.Positional

open Text Token

variable {c c' c₁ : Cursor} {t : Token} {ts us rest : List Token} {n : Int} {e : Selector}

/-! ### The grammar -/

/-- The token writes an integer of 64 bits. -/
structure Writes (t : Token) (n : Int) : Prop where
  isInteger : t.kind = .integer
  value : Numeral.integer? t.text = some n
  least : Word.least ≤ n
  greatest : n ≤ Word.greatest

/-- A skin and a frame behind it, as far as they are there, and their entries in a map. -/
inductive Indices : List Token → List (String × Selector) → Prop where
  | none : Indices [] []
  | skin {t : Token} {n : Int} (skin : Writes t n) :
    Indices [t] [("skin", .number (Number.ofInt n))]
  | both {t u : Token} {n m : Int} (skin : Writes t n) (frame : Writes u m) :
    Indices [t, u] [("skin", .number (Number.ofInt n)), ("frame", .number (Number.ofInt m))]

/-- What the attribute of a condition is compared with. -/
inductive Comparand : Token → Selector → Prop where
  | string {t : Token} (isString : t.kind = .quoted) : Comparand t (.string t.value)
  | integer {t : Token} {n : Int} (written : Writes t n) : Comparand t (.number (Number.ofInt n))

/-- Words to which strings are assigned. -/
inductive Assigned : List Token → List (String × String) → Prop where
  | nil : Assigned [] []
  | cons {word equals name : Token} {ts : List Token} {pairs : List (String × String)}
    (isWord : word.kind = .word) (assigns : equals.kind = .equals) (isName : name.kind = .quoted)
    (others : Assigned ts pairs) :
    Assigned (word :: equals :: name :: ts) ((word.text, name.value) :: pairs)

/-- The keys of an entry that names attributes. -/
def keyNames : List String := ["pathKey", "skinKey", "frameKey"]

/-- What is assigned to a key last. -/
def lastOf (key : String) (pairs : List (String × String)) : Option String := pairs.reverse.lookup key

/-- The entry of a map for what an attribute holds, if one is named. -/
def lookupField (name : String) : Option String → List (String × Selector)
  | some holder => [(name, .lookup holder)]
  | none => []

/-- The tokens of one entry and its tree. -/
inductive EntryDerives : List Token → Selector → Prop where
  | plain {path : Token} {is : List Token} {fields : List (String × Selector)}
    (isPath : path.kind = .quoted) (indices : Indices is fields) :
    EntryDerives (path :: is) (.map (("path", .string path.value) :: fields))
  | conditional {path word equals operand : Token} {is : List Token}
    {fields : List (String × Selector)} {value : Selector} (isPath : path.kind = .quoted)
    (indices : Indices is fields) (isWord : word.kind = .word) (assigns : equals.kind = .equals)
    (compared : Comparand operand value) :
    EntryDerives (path :: is ++ [word, equals, operand])
      (.guarded (.binary .equal (.lookup word.text) value)
        (.map (("path", .string path.value) :: fields)))
  | keyed {ts : List Token} {pairs : List (String × String)} {path : String}
    (assigned : Assigned ts pairs) (known : ∀ pair ∈ pairs, pair.1 ∈ keyNames)
    (hasPath : lastOf "pathKey" pairs = some path) :
    EntryDerives ts (.map (("path", .lookup path) ::
      lookupField "skin" (lastOf "skinKey" pairs) ++ lookupField "frame" (lastOf "frameKey" pairs)))

/-- The tokens of entries with commas between them, and their trees. -/
inductive EntriesDerive : List Token → List Selector → Prop where
  | one {ts : List Token} {e : Selector} (entry : EntryDerives ts e) : EntriesDerive ts [e]
  | cons {ts us : List Token} {comma : Token} {e : Selector} {es : List Selector}
    (entry : EntryDerives ts e) (separates : comma.kind = .comma) (others : EntriesDerive us es) :
    EntriesDerive (ts ++ comma :: us) (e :: es)

/-- What entries come to: a map that is alone is taken itself, anything else is a choice. -/
inductive Whole : List Selector → Selector → Prop where
  | alone (fields : List (String × Selector)) : Whole [.map fields] (.map fields)
  | choice {es : List Selector} (other : ∀ fields, es ≠ [.map fields]) : Whole es (.choice es)

/-! ### Parts of an entry -/

theorem writes_iff : Writes t n ↔ t.kind = .integer ∧ Word.ofString? t.text = some n := by
  rw [Word.ofString?_eq_some_iff]
  constructor
  · rintro ⟨isInteger, value, least, greatest⟩
    exact ⟨isInteger, value, least, greatest⟩
  · rintro ⟨isInteger, value, least, greatest⟩
    exact ⟨isInteger, value, least, greatest⟩

theorem integerOf_eq_ok_iff : integerOf t c = .ok n c' ↔ Word.ofString? t.text = some n ∧ c = c' := by
  unfold integerOf
  cases Word.ofString? t.text with
  | some m => rw [pure_eq_ok_iff, Option.some.injEq]
  | none => simp

theorem integer?_eq_some_iff :
    integer? c = .ok (some n) c' ↔ ∃ t, StandsPast c t c' ∧ Writes t n := by
  refine ifNext_eq_some_iff.trans ?_
  constructor
  · rintro ⟨t, c₁, stands, isInteger, h⟩
    obtain ⟨m, c₂, read, h⟩ := bind_eq_ok_iff.1 h
    obtain ⟨value, rfl⟩ := integerOf_eq_ok_iff.1 read
    obtain ⟨same, rfl⟩ := pure_eq_ok_iff.1 h
    cases same
    exact ⟨t, stands, writes_iff.2 ⟨isInteger, value⟩⟩
  · rintro ⟨t, stands, writes⟩
    obtain ⟨isInteger, value⟩ := writes_iff.1 writes
    exact ⟨t, c', stands, isInteger,
      bind_eq_ok_iff.2 ⟨n, c', integerOf_eq_ok_iff.2 ⟨value, rfl⟩, rfl⟩⟩

theorem integer?_eq_none_iff : integer? c = .ok none c' ↔ Lacks .integer c c' := by
  refine ifNext_eq_none_iff ?_
  intro t c c' h
  obtain ⟨m, c₂, -, h⟩ := bind_eq_ok_iff.1 h
  cases (pure_eq_ok_iff.1 h).1

theorem operand_eq_ok_iff {o : Operand} :
    operand c = .ok o c' ↔ ∃ t, StandsPast c t c' ∧
      (t.kind = .quoted ∧ o = .string t.value ∨ ∃ n, Writes t n ∧ o = .integer n) := by
  refine nextOfPastNewlines_bind_eq_ok_iff.trans ?_
  constructor
  · rintro ⟨t, c₁, stands, kind, h⟩
    split at h
    · rename_i isInteger
      obtain ⟨n, c₂, read, h⟩ := bind_eq_ok_iff.1 h
      obtain ⟨value, rfl⟩ := integerOf_eq_ok_iff.1 read
      obtain ⟨rfl, rfl⟩ := pure_eq_ok_iff.1 h
      exact ⟨t, stands, .inr ⟨n, writes_iff.2 ⟨isInteger, value⟩, rfl⟩⟩
    · rename_i other
      obtain ⟨rfl, rfl⟩ := pure_eq_ok_iff.1 h
      exact ⟨t, stands, .inl ⟨by simpa [other] using kind, rfl⟩⟩
  · rintro ⟨t, stands, ⟨isString, rfl⟩ | ⟨n, writes, rfl⟩⟩
    · refine ⟨t, c', stands, by simp [isString], ?_⟩
      rw [if_neg (by simp [isString])]
      rfl
    · obtain ⟨isInteger, value⟩ := writes_iff.1 writes
      refine ⟨t, c', stands, by simp [isInteger], ?_⟩
      rw [if_pos isInteger]
      exact bind_eq_ok_iff.2 ⟨n, c', integerOf_eq_ok_iff.2 ⟨value, rfl⟩, rfl⟩

theorem condition?_eq_some_iff {name : String} {o : Operand} :
    condition? c = .ok (some (name, o)) c' ↔ ∃ word equals c₁, Spaced c [word, equals] c₁ ∧
      word.kind = .word ∧ equals.kind = .equals ∧ word.text = name ∧ operand c₁ = .ok o c' := by
  refine ifNext_eq_some_iff.trans ?_
  constructor
  · rintro ⟨word, c₁, named, isWord, h⟩
    obtain ⟨equals, c₂, assigned, assigns, h⟩ := nextOfPastNewlines_bind_eq_ok_iff.1 h
    obtain ⟨o', c₃, compared, h⟩ := bind_eq_ok_iff.1 h
    obtain ⟨same, rfl⟩ := pure_eq_ok_iff.1 h
    cases same
    exact ⟨word, equals, c₂, .cons named (.cons assigned (.nil _)), isWord,
      List.mem_singleton.1 assigns, rfl, compared⟩
  · rintro ⟨word, equals, c₂, run, isWord, assigns, rfl, compared⟩
    simp only [InOrder.cons_iff, InOrder.nil_iff] at run
    obtain ⟨c₁, named, _, assigned, rfl⟩ := run
    refine ⟨word, c₁, named, isWord, ?_⟩
    refine nextOfPastNewlines_bind_eq_ok_iff.2 ⟨equals, _, assigned, by simp [assigns], ?_⟩
    exact bind_eq_ok_iff.2 ⟨o, c', compared, rfl⟩

theorem condition?_eq_none_iff : condition? c = .ok none c' ↔ Lacks .word c c' := by
  refine ifNext_eq_none_iff ?_
  intro t c c' h
  obtain ⟨_, _, -, h⟩ := bind_eq_ok_iff.1 h
  obtain ⟨_, _, -, h⟩ := bind_eq_ok_iff.1 h
  cases (pure_eq_ok_iff.1 h).1

theorem key?_eq_some_iff {keys keys' : Keys} :
    key? keys c = .ok (some keys') c' ↔ ∃ word equals name, Spaced c [word, equals, name] c' ∧
      word.kind = .word ∧ equals.kind = .equals ∧ name.kind = .quoted ∧
      keys.set? word.text name.value = some keys' := by
  refine ifNext_eq_some_iff.trans ?_
  constructor
  · rintro ⟨word, c₁, named, isWord, h⟩
    obtain ⟨equals, c₂, assigned, assigns, h⟩ := nextOfPastNewlines_bind_eq_ok_iff.1 h
    obtain ⟨name, c₃, valued, isName, h⟩ := nextOfPastNewlines_bind_eq_ok_iff.1 h
    cases set : keys.set? word.text name.value with
    | some keys₁ =>
      rw [set] at h
      obtain ⟨same, rfl⟩ := pure_eq_ok_iff.1 h
      cases same
      exact ⟨word, equals, name, .cons named (.cons assigned (.cons valued (.nil _))), isWord,
        List.mem_singleton.1 assigns, List.mem_singleton.1 isName, set⟩
    | none =>
      rw [set] at h
      exact absurd h Reading.fail_ne_ok
  · rintro ⟨word, equals, name, run, isWord, assigns, isName, set⟩
    simp only [InOrder.cons_iff, InOrder.nil_iff] at run
    obtain ⟨c₁, named, c₂, assigned, _, valued, rfl⟩ := run
    refine ⟨word, c₁, named, isWord, ?_⟩
    refine nextOfPastNewlines_bind_eq_ok_iff.2 ⟨equals, c₂, assigned, by simp [assigns], ?_⟩
    refine nextOfPastNewlines_bind_eq_ok_iff.2 ⟨name, _, valued, by simp [isName], ?_⟩
    rw [set]
    rfl

theorem key?_eq_none_iff {keys : Keys} : key? keys c = .ok none c' ↔ Lacks .word c c' := by
  refine ifNext_eq_none_iff ?_
  intro word c c' h
  obtain ⟨_, _, -, h⟩ := bind_eq_ok_iff.1 h
  obtain ⟨name, _, -, h⟩ := bind_eq_ok_iff.1 h
  cases set : keys.set? word.text name.value with
  | some keys₁ =>
    rw [set] at h
    cases (pure_eq_ok_iff.1 h).1
  | none =>
    rw [set] at h
    exact absurd h Reading.fail_ne_ok

/-- A key leaves less to read. -/
theorem unread_key? {keys keys' : Keys} (h : key? keys c = .ok (some keys') c') :
    c'.unread < c.unread := by
  obtain ⟨word, equals, name, run, isWord, -⟩ := key?_eq_some_iff.1 h
  obtain ⟨c₁, head, tail⟩ := InOrder.cons_iff.1 run
  exact Nat.lt_of_le_of_lt (tail.le Cursor.unread StandsPast.unread_le)
    (head.unread_lt (by simp [isWord]))

/-! ### Fixed entries -/

/-- The map of a path with what indices give. -/
private abbrev indexed (path : Selector) (skin frame : Option Int) : Selector :=
  modelMap path (skin.map (.number <| Number.ofInt ·)) (frame.map (.number <| Number.ofInt ·))

theorem sound_indices {skin frame : Option Int} (first : integer? c = .ok skin c₁)
    (second : integer? c₁ = .ok frame c') : ∃ ts fields, Scattered c ts c' ∧ Indices ts fields ∧
      ∀ path, indexed path skin frame = .map (("path", path) :: fields) := by
  cases skin with
  | none =>
    have lacks := integer?_eq_none_iff.1 first
    cases frame with
    | none =>
      have lacks' := integer?_eq_none_iff.1 second
      exact ⟨[], [], lacks.scattered.append lacks'.scattered, .none, fun _ => rfl⟩
    | some m =>
      obtain ⟨t, stands, writes⟩ := integer?_eq_some_iff.1 second
      exact absurd writes.isInteger (lacks.kind_ne stands)
  | some n =>
    obtain ⟨t, stands, writes⟩ := integer?_eq_some_iff.1 first
    have taken := Scattered.of_standsPast stands
    cases frame with
    | none =>
      have lacks := integer?_eq_none_iff.1 second
      exact ⟨[t], _, taken.append lacks.scattered, .skin writes, fun _ => rfl⟩
    | some m =>
      obtain ⟨u, stands', writes'⟩ := integer?_eq_some_iff.1 second
      exact ⟨[t, u], _, taken.append (.of_standsPast stands'), .both writes writes', fun _ => rfl⟩

theorem takes_integer? (writes : Writes t n) : Consumes integer? (t :: rest) (some n) rest := by
  refine Consumes.of_spaced [t] fun stands => ?_
  obtain ⟨c₁, head, tail⟩ := InOrder.cons_iff.1 stands
  obtain rfl := InOrder.nil_iff.1 tail
  exact integer?_eq_some_iff.2 ⟨t, head, writes⟩

theorem takes_no_integer (other : t.kind ≠ .integer) :
    Consumes integer? (t :: rest) none (t :: rest) :=
  .of_lacks integer?_eq_none_iff.2 other

theorem takes_indices {fields : List (String × Selector)} (h : Indices ts fields)
    (other : t.kind ≠ .integer) (rest : List Token) :
    ∃ skin frame us, Consumes integer? (ts ++ t :: rest) skin us ∧
      Consumes integer? us frame (t :: rest) ∧
      ∀ path, indexed path skin frame = .map (("path", path) :: fields) := by
  cases h with
  | none => exact ⟨none, none, _, takes_no_integer other, takes_no_integer other, fun _ => rfl⟩
  | skin skin => exact ⟨some _, none, _, takes_integer? skin, takes_no_integer other, fun _ => rfl⟩
  | both skin frame =>
    exact ⟨some _, some _, _, takes_integer? skin, takes_integer? frame, fun _ => rfl⟩

theorem sound_operand {o : Operand} (h : operand c = .ok o c') :
    ∃ t, StandsPast c t c' ∧ Comparand t o.selector := by
  obtain ⟨t, stands, ⟨isString, rfl⟩ | ⟨n, writes, rfl⟩⟩ := operand_eq_ok_iff.1 h
  · exact ⟨t, stands, .string isString⟩
  · exact ⟨t, stands, .integer writes⟩

theorem takes_operand (h : Comparand t e) (rest : List Token) :
    ∃ o : Operand, o.selector = e ∧ Consumes operand (t :: rest) o rest := by
  have one {o : Operand} (is : ∀ {c c'}, StandsPast c t c' → operand c = .ok o c') :
      Consumes operand (t :: rest) o rest := by
    refine Consumes.of_spaced [t] fun stands => ?_
    obtain ⟨c₁, head, tail⟩ := InOrder.cons_iff.1 stands
    obtain rfl := InOrder.nil_iff.1 tail
    exact is head
  cases h with
  | string isString =>
    exact ⟨.string t.value, rfl, one fun head => operand_eq_ok_iff.2 ⟨t, head, .inl ⟨isString, rfl⟩⟩⟩
  | integer writes =>
    exact ⟨.integer _, rfl, one fun head => operand_eq_ok_iff.2 ⟨t, head, .inr ⟨_, writes, rfl⟩⟩⟩

theorem sound_fixed {entry : Entry} (h : fixed c = .ok entry c') :
    ∃ ts, Scattered c ts c' ∧ EntryDerives ts entry.selector := by
  obtain ⟨path, c₁, stands, isPath, h⟩ := nextOfPastNewlines_bind_eq_ok_iff.1 h
  obtain ⟨skin, c₂, first, h⟩ := bind_eq_ok_iff.1 h
  obtain ⟨frame, c₃, second, h⟩ := bind_eq_ok_iff.1 h
  obtain ⟨condition, c₄, conditional, h⟩ := bind_eq_ok_iff.1 h
  obtain ⟨rfl, rfl⟩ := pure_eq_ok_iff.1 h
  have isPath := List.mem_singleton.1 isPath
  obtain ⟨is, fields, taken, indices, same⟩ := sound_indices first second
  have taken := (Scattered.of_standsPast stands).append taken
  cases condition with
  | none =>
    have lacks := condition?_eq_none_iff.1 conditional
    refine ⟨path :: is, by simpa using taken.append lacks.scattered, ?_⟩
    rw [show Entry.selector (.fixed path.value skin frame none) = _ from same _]
    exact .plain isPath indices
  | some condition =>
    obtain ⟨word, equals, c₅, run, isWord, assigns, named, compared⟩ :=
      condition?_eq_some_iff.1 conditional
    obtain ⟨operand, stands, compared⟩ := sound_operand compared
    refine ⟨path :: is ++ [word, equals, operand], ?_, ?_⟩
    · simpa using taken.append ((Scattered.of_spaced run).append (.of_standsPast stands))
    · have guarded : Entry.selector (.fixed path.value skin frame (some condition)) =
          .guarded (.binary .equal (.lookup condition.1) condition.2.selector)
            (indexed (.string path.value) skin frame) := rfl
      rw [guarded, same, ← named]
      exact .conditional isPath indices isWord assigns compared

/-- The token separates entries or closes them. -/
def EndsEntry (t : Token) : Prop := t.kind = .comma ∨ t.kind = .closeParen

theorem EndsEntry.kind_ne (h : EndsEntry t) : t.kind ≠ .integer ∧ t.kind ≠ .word := by
  rcases h with is | is
  · simp [is]
  · simp [is]

theorem takes_plain {path : Token} {fields : List (String × Selector)} (isPath : path.kind = .quoted)
    (indices : Indices ts fields) (ends : EndsEntry t) (rest : List Token) :
    ∃ entry : Entry, entry.selector = .map (("path", .string path.value) :: fields) ∧
      Consumes fixed (path :: ts ++ t :: rest) entry (t :: rest) := by
  obtain ⟨skin, frame, us, first, second, same⟩ := takes_indices indices ends.kind_ne.1 rest
  refine ⟨.fixed path.value skin frame none, same _, ?_⟩
  refine (Consumes.nextOfPastNewlines (by simp [isPath])).bind (first.bind (second.bind ?_))
  exact (Consumes.of_lacks condition?_eq_none_iff.2 ends.kind_ne.2).bind (.pure _ _)

theorem takes_conditional {path word equals operand : Token} {fields : List (String × Selector)}
    {value : Selector} (isPath : path.kind = .quoted) (indices : Indices ts fields)
    (isWord : word.kind = .word) (assigns : equals.kind = .equals)
    (compared : Comparand operand value) (rest : List Token) :
    ∃ entry : Entry, entry.selector = .guarded (.binary .equal (.lookup word.text) value)
        (.map (("path", .string path.value) :: fields)) ∧
      Consumes fixed (path :: ts ++ word :: equals :: operand :: rest) entry rest := by
  obtain ⟨skin, frame, us, first, second, same⟩ :=
    takes_indices (t := word) indices (by simp [isWord]) (equals :: operand :: rest)
  obtain ⟨o, rfl, last⟩ := takes_operand compared rest
  refine ⟨.fixed path.value skin frame (some (word.text, o)), ?_, ?_⟩
  · show Selector.guarded _ (indexed (.string path.value) skin frame) = _
    rw [same]
  refine (Consumes.nextOfPastNewlines (by simp [isPath])).bind (first.bind (second.bind ?_))
  refine Consumes.bind (a := some (word.text, o)) ?_ (.pure _ _)
  intro c c' stands
  obtain ⟨c₁, named, stands⟩ := InOrder.cons_iff.1 stands
  obtain ⟨c₂, assigned, stands⟩ := InOrder.cons_iff.1 stands
  obtain ⟨c₃, read, stands⟩ := last c₂ c' stands
  refine ⟨c₃, condition?_eq_some_iff.2 ?_, stands⟩
  exact ⟨word, equals, c₂, .cons named (.cons assigned (.nil _)), isWord, assigns, rfl, read⟩

/-! ### Entries of keys -/

/-- The keys that assignments come to: of each the last counts. -/
def Keys.ofPairs (pairs : List (String × String)) : Keys :=
  ⟨lastOf "pathKey" pairs, lastOf "skinKey" pairs, lastOf "frameKey" pairs⟩

theorem lastOf_append (key other name : String) (pairs : List (String × String)) :
    lastOf key (pairs ++ [(other, name)]) = if key = other then some name else lastOf key pairs := by
  rw [lastOf, List.reverse_append, List.reverse_singleton, List.singleton_append, List.lookup_cons]
  by_cases same : key = other
  · rw [if_pos same, beq_iff_eq.2 same]
  · rw [if_neg same, beq_eq_false_iff_ne.2 same]
    rfl

/-- One more assignment is one more that counts, if its key is known. -/
theorem Keys.set?_ofPairs (pairs : List (String × String)) (key name : String) :
    (ofPairs pairs).set? key name =
      if key ∈ keyNames then some (ofPairs (pairs ++ [(key, name)])) else none := by
  unfold Keys.set? ofPairs keyNames
  simp only [lastOf_append]
  by_cases path : key = "pathKey"
  · subst path
    rfl
  by_cases skin : key = "skinKey"
  · subst skin
    rfl
  by_cases frame : key = "frameKey"
  · subst frame
    rfl
  rw [if_neg path, if_neg skin, if_neg frame, if_neg (by simp [path, skin, frame])]

/-- What the loop over keys has taken are assignments to known keys. -/
theorem sound_keys {keys keys' : Keys} (before : List (String × String))
    (start : keys = Keys.ofPairs before) (h : Rounds key? keys c keys' c') :
    ∃ ts pairs, Scattered c ts c' ∧ Assigned ts pairs ∧ (∀ pair ∈ pairs, pair.1 ∈ keyNames) ∧
      keys' = Keys.ofPairs (before ++ pairs) := by
  induction h generalizing before with
  | last run =>
    have lacks := key?_eq_none_iff.1 run
    exact ⟨[], [], lacks.scattered, .nil, nofun, by rw [List.append_nil, start]⟩
  | more run _ ih =>
    obtain ⟨word, equals, name, stands, isWord, assigns, isName, set⟩ := key?_eq_some_iff.1 run
    rw [start, Keys.set?_ofPairs, Option.ite_none_right_eq_some, Option.some.injEq] at set
    obtain ⟨known, set⟩ := set
    obtain ⟨ts, pairs, taken, assigned, others, rfl⟩ := ih _ set.symm
    refine ⟨_, (word.text, name.value) :: pairs, (Scattered.of_spaced stands).append taken,
      .cons isWord assigns isName assigned, List.forall_mem_cons.2 ⟨known, others⟩, ?_⟩
    rw [List.append_assoc, List.singleton_append]

/-- The loop over keys takes all assignments to known keys, one a round. -/
theorem takes_keys {pairs : List (String × String)} (before : List (String × String))
    (h : Assigned ts pairs) (known : ∀ pair ∈ pairs, pair.1 ∈ keyNames) (other : t.kind ≠ .word) :
    Consumes (iterate Cursor.unread key? (Keys.ofPairs before)) (ts ++ t :: rest)
      (Keys.ofPairs (before ++ pairs)) (t :: rest) := by
  induction h generalizing before with
  | nil =>
    rw [List.append_nil]
    exact .iterate_none (.of_lacks key?_eq_none_iff.2 other)
  | @cons word equals name ts pairs isWord assigns isName _ ih =>
    obtain ⟨isKnown, others⟩ := List.forall_mem_cons.1 known
    have set := Keys.set?_ofPairs before word.text name.value
    rw [if_pos isKnown] at set
    have behind := ih (before ++ [(word.text, name.value)]) others
    rw [List.append_assoc, List.singleton_append] at behind
    refine .iterate_some unread_key? (.of_spaced [word, equals, name] fun stands => ?_) behind
    exact key?_eq_some_iff.2 ⟨word, equals, name, stands, isWord, assigns, isName, set⟩

theorem modelMap_lookup (path : String) (skin frame : Option String) :
    modelMap (.lookup path) (skin.map .lookup) (frame.map .lookup) =
      .map (("path", .lookup path) :: lookupField "skin" skin ++ lookupField "frame" frame) := by
  cases skin <;> cases frame <;> rfl

theorem sound_keyed {entry : Entry} (h : keyed c = .ok entry c') :
    ∃ ts, Scattered c ts c' ∧ EntryDerives ts entry.selector := by
  obtain ⟨keys, c₁, loop, h⟩ := bind_eq_ok_iff.1 h
  have rounds := (iterate_eq_ok_iff unread_key?).1 loop
  obtain ⟨ts, pairs, taken, assigned, known, rfl⟩ := sound_keys [] rfl rounds
  rw [List.nil_append] at h
  cases hasPath : lastOf "pathKey" pairs with
  | none =>
    simp only [Keys.ofPairs, hasPath] at h
    obtain ⟨_, _, -, h⟩ := bind_eq_ok_iff.1 h
    exact absurd h Reading.fail_ne_ok
  | some path =>
    simp only [Keys.ofPairs, hasPath] at h
    obtain ⟨rfl, rfl⟩ := pure_eq_ok_iff.1 h
    refine ⟨ts, taken, ?_⟩
    rw [show Entry.selector (.keyed path _ _) = _ from modelMap_lookup _ _ _]
    exact .keyed assigned known hasPath

theorem takes_keyed {pairs : List (String × String)} {path : String} (assigned : Assigned ts pairs)
    (known : ∀ pair ∈ pairs, pair.1 ∈ keyNames) (hasPath : lastOf "pathKey" pairs = some path)
    (ends : EndsEntry t) (rest : List Token) :
    Consumes keyed (ts ++ t :: rest)
      (.keyed path (lastOf "skinKey" pairs) (lastOf "frameKey" pairs)) (t :: rest) := by
  refine (takes_keys [] assigned known ends.kind_ne.2).bind ?_
  rw [List.nil_append]
  unfold Keys.ofPairs
  rw [hasPath]
  exact .pure _ _

/-! ### Entries -/

theorem sound_entry {entry : Entry} (h : Positional.entry c = .ok entry c') :
    ∃ ts, Scattered c ts c' ∧ EntryDerives ts entry.selector := by
  obtain ⟨c₀, t, c₁, skipped, -, h⟩ := peekPastNewlines_bind_eq_ok_iff.1 h
  obtain ⟨-, h⟩ := expect_bind_eq_ok_iff.1 h
  have read : ∃ ts, Scattered c₀ ts c' ∧ EntryDerives ts entry.selector := by
    split at h
    · exact sound_fixed h
    · exact sound_keyed h
  obtain ⟨ts, taken, derives⟩ := read
  exact ⟨ts, (Scattered.of_skipNewlines skipped).append taken, derives⟩

/-- In front of a path an entry is a fixed one, in front of a word one of keys. -/
theorem takes_entry_of {reader : Reading Entry} {entry : Entry}
    (kind : t.kind = .quoted ∧ reader = fixed ∨ t.kind = .word ∧ reader = keyed)
    (takes : Consumes reader (t :: us) entry rest) : Consumes Positional.entry (t :: us) entry rest := by
  refine Consumes.peekPastNewlines.bind (Consumes.bind (.expect ?_) ?_)
  · rcases kind with ⟨is, -⟩ | ⟨is, -⟩
    · simp [is]
    · simp [is]
  · rcases kind with ⟨is, rfl⟩ | ⟨is, rfl⟩
    · rw [if_pos is]
      exact takes
    · rw [if_neg (by simp [is])]
      exact takes

theorem takes_entry (h : EntryDerives ts e) (ends : EndsEntry t) (rest : List Token) :
    ∃ entry : Entry, entry.selector = e ∧
      Consumes Positional.entry (ts ++ t :: rest) entry (t :: rest) := by
  cases h with
  | plain isPath indices =>
    obtain ⟨entry, same, takes⟩ := takes_plain isPath indices ends rest
    exact ⟨entry, same, takes_entry_of (.inl ⟨isPath, rfl⟩) takes⟩
  | conditional isPath indices isWord assigns compared =>
    obtain ⟨entry, same, takes⟩ :=
      takes_conditional isPath indices isWord assigns compared (t :: rest)
    refine ⟨entry, same, ?_⟩
    rw [List.append_assoc]
    exact takes_entry_of (.inl ⟨isPath, rfl⟩) takes
  | keyed assigned known hasPath =>
    have takes := takes_keyed assigned known hasPath ends rest
    refine ⟨.keyed _ _ _, modelMap_lookup _ _ _, ?_⟩
    cases assigned with
    | nil => cases hasPath
    | cons isWord => exact takes_entry_of (.inr ⟨isWord, rfl⟩) takes

/-- There is no entry without a token. -/
theorem EntryDerives.ne_nil (h : EntryDerives ts e) : ts ≠ [] := by
  cases h with
  | plain => exact List.cons_ne_nil _ _
  | conditional => simp
  | keyed assigned _ hasPath =>
    cases assigned with
    | nil => cases hasPath
    | cons => exact List.cons_ne_nil _ _

theorem Indices.isInteger {fields : List (String × Selector)} (h : Indices ts fields) :
    ∀ t ∈ ts, t.kind = .integer := by
  cases h with
  | none => nofun
  | skin skin => simpa using skin.isInteger
  | both skin frame => simpa using ⟨skin.isInteger, frame.isInteger⟩

theorem Assigned.kinds {pairs : List (String × String)} (h : Assigned ts pairs) :
    ∀ t ∈ ts, t.kind ∈ [Kind.word, .equals, .quoted] := by
  induction h with
  | nil => nofun
  | cons isWord assigns isName _ ih =>
    intro t mem
    simp only [List.mem_cons] at mem
    rcases mem with rfl | rfl | rfl | mem
    · simp [isWord]
    · simp [assigns]
    · simp [isName]
    · exact ih t mem

/-- The kinds of token that entries consist of. -/
def entryKinds : List Kind := [.quoted, .integer, .word, .equals]

theorem EntryDerives.kinds (h : EntryDerives ts e) : ∀ t ∈ ts, t.kind ∈ entryKinds := by
  cases h with
  | plain isPath indices =>
    refine List.forall_mem_cons.2 ⟨by simp [isPath, entryKinds], fun t mem => ?_⟩
    simp [indices.isInteger t mem, entryKinds]
  | conditional isPath indices isWord assigns compared =>
    have isOperand : ∀ {t v}, Comparand t v → t.kind ∈ entryKinds := by
      intro t v compared
      cases compared with
      | string isString => simp [isString, entryKinds]
      | integer writes => simp [writes.isInteger, entryKinds]
    refine List.forall_mem_cons.2 ⟨by simp [isPath, entryKinds], fun t mem => ?_⟩
    rcases List.mem_append.1 mem with mem | mem
    · simp [indices.isInteger t mem, entryKinds]
    · simp only [List.mem_cons, List.not_mem_nil, or_false] at mem
      rcases mem with rfl | rfl | rfl
      · simp [isWord, entryKinds]
      · simp [assigns, entryKinds]
      · exact isOperand compared
  | keyed assigned =>
    intro t mem
    have kind := assigned.kinds t mem
    simp only [List.mem_cons, List.not_mem_nil, or_false] at kind
    rcases kind with kind | kind | kind
    · simp [kind, entryKinds]
    · simp [kind, entryKinds]
    · simp [kind, entryKinds]

theorem EntriesDerive.kinds {es : List Selector} (h : EntriesDerive ts es) :
    ∀ t ∈ ts, t.kind ∈ Kind.comma :: entryKinds := by
  induction h with
  | one entry => exact fun t mem => List.mem_cons_of_mem _ (entry.kinds t mem)
  | cons entry separates _ ih =>
    intro t mem
    rcases List.mem_append.1 mem with mem | mem
    · exact List.mem_cons_of_mem _ (entry.kinds t mem)
    · rcases List.mem_cons.1 mem with rfl | mem
      · exact List.mem_cons.2 (.inl separates)
      · exact ih t mem

/-- An entry leaves less to read. -/
theorem unread_entry {entry : Entry} (h : Positional.entry c = .ok entry c') :
    c'.unread < c.unread := by
  obtain ⟨ts, taken, derives⟩ := sound_entry h
  obtain ⟨t, mem⟩ := List.exists_mem_of_ne_nil _ derives.ne_nil
  refine taken.unread_lt mem fun atEnd => ?_
  have kind := derives.kinds t mem
  rw [atEnd] at kind
  simp [entryKinds] at kind

/-- One round of the loop over entries: a comma and an entry more, or nothing where there is no comma. -/
def another (entries : List Entry) : Reading (Option (List Entry)) := do
  if (← peekPastNewlines).kind = .comma then
    let _ ← next
    return some (entries ++ [← entry])
  else return none

theorem entries_eq : entries = (do iterate Cursor.unread another [← entry]) := rfl

theorem another_eq_some_iff {es es' : List Entry} :
    another es c = .ok (some es') c' ↔ ∃ entry, (∃ comma c₁, StandsPast c comma c₁ ∧
      comma.kind = .comma ∧ Positional.entry c₁ = .ok entry c') ∧ es' = es ++ [entry] := by
  refine ifNext_eq_some_iff.trans ?_
  constructor
  · rintro ⟨comma, c₁, stands, separates, h⟩
    obtain ⟨entry, c₂, read, h⟩ := bind_eq_ok_iff.1 h
    obtain ⟨same, rfl⟩ := pure_eq_ok_iff.1 h
    cases same
    exact ⟨entry, ⟨comma, c₁, stands, separates, read⟩, rfl⟩
  · rintro ⟨entry, ⟨comma, c₁, stands, separates, read⟩, rfl⟩
    exact ⟨comma, c₁, stands, separates, bind_eq_ok_iff.2 ⟨entry, c', read, rfl⟩⟩

theorem another_eq_none_iff {es : List Entry} : another es c = .ok none c' ↔ Lacks .comma c c' := by
  refine ifNext_eq_none_iff ?_
  intro t c c' h
  obtain ⟨_, _, -, h⟩ := bind_eq_ok_iff.1 h
  cases (pure_eq_ok_iff.1 h).1

/-- One more entry leaves less to read. -/
theorem unread_another {es es' : List Entry} (h : another es c = .ok (some es') c') :
    c'.unread < c.unread := by
  obtain ⟨entry, ⟨comma, c₁, stands, -, read⟩, -⟩ := another_eq_some_iff.1 h
  exact Nat.lt_of_lt_of_le (unread_entry read) stands.unread_le

/-- What the loop has taken are commas with an entry behind each. -/
theorem sound_another {es es' : List Entry} (h : Rounds another es c es' c') :
    (∃ c₀, Lacks .comma c₀ c') ∧ ∃ added, es' = es ++ added ∧ ∀ {ts e c₀}, Scattered c₀ ts c →
      EntryDerives ts e → ∃ us, Scattered c₀ us c' ∧
        EntriesDerive us (e :: added.map Entry.selector) := by
  induction h with
  | last run =>
    have lacks := another_eq_none_iff.1 run
    refine ⟨⟨_, lacks⟩, [], (List.append_nil _).symm, fun {ts _ _} taken derives => ?_⟩
    exact ⟨ts, by simpa using taken.append lacks.scattered, .one derives⟩
  | more run _ ih =>
    obtain ⟨entry, ⟨comma, c₁, stands, separates, read⟩, rfl⟩ := another_eq_some_iff.1 run
    obtain ⟨lacks, added, rfl, others⟩ := ih
    obtain ⟨us, taken, derives⟩ := sound_entry read
    refine ⟨lacks, entry :: added, by simp, fun {ts e c₀} taken' derives' => ?_⟩
    obtain ⟨vs, taken, derives⟩ := others taken derives
    have separated := (taken'.append (.of_standsPast stands)).append taken
    exact ⟨ts ++ comma :: vs, by simpa using separated, .cons derives' separates derives⟩

/-- What is read as entries derives their trees, and then no comma is next. -/
theorem sound_entries {es : List Entry} (h : entries c = .ok es c') :
    (∃ c₀, Lacks .comma c₀ c') ∧
      ∃ ts, Scattered c ts c' ∧ EntriesDerive ts (es.map Entry.selector) := by
  rw [entries_eq] at h
  obtain ⟨first, c₁, read, loop⟩ := bind_eq_ok_iff.1 h
  obtain ⟨lacks, added, rfl, others⟩ := sound_another ((iterate_eq_ok_iff unread_another).1 loop)
  obtain ⟨ts, taken, derives⟩ := sound_entry read
  exact ⟨lacks, others taken derives⟩

/-- The loop takes what derives entries behind a comma. -/
theorem takes_another {trees : List Selector} {comma : Token} (h : EntriesDerive us trees)
    (separates : comma.kind = .comma) (closes : t.kind = .closeParen) (es : List Entry)
    (rest : List Token) :
    ∃ added : List Entry, added.map Entry.selector = trees ∧
      Consumes (iterate Cursor.unread another es) (comma :: us ++ t :: rest) (es ++ added)
        (t :: rest) := by
  have one {entry : Entry} {ts vs : List Token} {es : List Entry} {comma : Token}
      (separates : comma.kind = .comma) (takes : Consumes Positional.entry ts entry vs) :
      Consumes (another es) (comma :: ts) (some (es ++ [entry])) vs := by
    intro c c' stands
    obtain ⟨c₁, head, stands⟩ := InOrder.cons_iff.1 stands
    obtain ⟨c₂, read, stands⟩ := takes c₁ c' stands
    exact ⟨c₂, another_eq_some_iff.2 ⟨entry, ⟨comma, c₁, head, separates, read⟩, rfl⟩, stands⟩
  have last (es : List Entry) : Consumes (iterate Cursor.unread another es) (t :: rest) es (t :: rest) :=
    .iterate_none (.of_lacks another_eq_none_iff.2 (by simp [closes]))
  induction h generalizing comma es with
  | one derives =>
    obtain ⟨entry, rfl, takes⟩ := takes_entry derives (.inr closes) rest
    exact ⟨[entry], rfl, .iterate_some unread_another (one separates takes) (last _)⟩
  | @cons ts us comma' e trees derives separates' _ ih =>
    obtain ⟨entry, rfl, takes⟩ := takes_entry derives (.inl separates') (us ++ t :: rest)
    obtain ⟨added, rfl, others⟩ := ih separates' (es ++ [entry])
    refine ⟨entry :: added, rfl, ?_⟩
    rw [List.append_assoc, List.singleton_append] at others
    rw [List.cons_append, List.append_assoc]
    exact .iterate_some unread_another (one separates takes) others

/-- What derives entries in front of a parenthesis that closes is taken as entries. -/
theorem takes_entries {trees : List Selector} (h : EntriesDerive ts trees)
    (closes : t.kind = .closeParen) (rest : List Token) :
    ∃ es : List Entry, es.map Entry.selector = trees ∧
      Consumes entries (ts ++ t :: rest) es (t :: rest) := by
  rw [entries_eq]
  cases h with
  | one derives =>
    obtain ⟨entry, rfl, takes⟩ := takes_entry derives (.inr closes) rest
    refine ⟨[entry], rfl, takes.bind (.iterate_none ?_)⟩
    exact .of_lacks another_eq_none_iff.2 (by simp [closes])
  | @cons ts us comma e trees derives separates others =>
    obtain ⟨entry, rfl, takes⟩ := takes_entry derives (.inl separates) (us ++ t :: rest)
    obtain ⟨added, rfl, loop⟩ := takes_another others separates closes [entry] rest
    refine ⟨entry :: added, rfl, ?_⟩
    rw [List.append_assoc]
    exact takes.bind loop

/-! ### The whole -/

theorem Entry.isConditional_eq_false_iff {entry : Entry} :
    entry.isConditional = false ↔ ∃ fields, entry.selector = .map fields := by
  cases entry with
  | fixed path skin frame condition =>
    cases condition with
    | none => simp [isConditional, selector, modelMap]
    | some condition => simp [isConditional, selector]
  | keyed => simp [isConditional, selector, modelMap]

/-- What entries mean is what their trees come to. -/
theorem whole_selector {es : List Entry} : Whole (es.map Entry.selector) e ↔ e = selector es := by
  have unique {trees : List Selector} {e e' : Selector} (h : Whole trees e) (h' : Whole trees e') :
      e = e' := by
    cases h with
    | alone fields =>
      cases h' with
      | alone => rfl
      | choice other => exact absurd rfl (other fields)
    | choice other =>
      cases h' with
      | alone fields => exact absurd rfl (other fields)
      | choice => rfl
  have whole : Whole (es.map Entry.selector) (selector es) := by
    unfold selector
    split
    · rename_i entry
      split
      · rename_i conditional
        refine .choice fun fields same => ?_
        have plain := Entry.isConditional_eq_false_iff.2 ⟨fields, List.singleton_inj.1 same⟩
        rw [plain] at conditional
        cases conditional
      · rename_i plain
        obtain ⟨fields, is⟩ := Entry.isConditional_eq_false_iff.1 (by simpa using plain)
        rw [List.map_singleton, is]
        exact .alone fields
    · rename_i several
      refine .choice fun fields same => ?_
      obtain ⟨entry, rfl, -⟩ := List.map_eq_singleton_iff.1 same
      exact several entry rfl
  constructor
  · exact fun h => unique h whole
  · rintro rfl
    exact whole

/-- The grammar of positions reads a selector in front of a parenthesis that closes if and only if the
tokens up to the first such parenthesis, line breaks apart, derive entries whose trees come to it. The
parenthesis is left. -/
theorem expression_exact {c c' : Cursor} {e : Selector} :
    (SelectorGrammar.positional.read c = .ok e c' ∧
      ∃ close behind, Stands c' close behind ∧ close.kind = .closeParen) ↔
    ∃ ts trees close behind, Run c ts c' ∧ (∀ t ∈ ts, t.kind ≠ .closeParen) ∧
      Stands c' close behind ∧ close.kind = .closeParen ∧
      EntriesDerive (ts.filter (·.kind ≠ .newline)) trees ∧ Whole trees e := by
  have sound {c c' : Cursor} {e : Selector} (h : expression c = .ok e c') :
      (∃ c₀, Lacks .comma c₀ c') ∧ ∃ ts trees, Run c ts c' ∧ (∀ t ∈ ts, t.kind ≠ .closeParen) ∧
        EntriesDerive (ts.filter (·.kind ≠ .newline)) trees ∧ Whole trees e := by
    obtain ⟨es, c₁, read, h⟩ := bind_eq_ok_iff.1 h
    obtain ⟨rfl, rfl⟩ := pure_eq_ok_iff.1 h
    obtain ⟨lacks, _, ⟨ts, run, rfl⟩, derives⟩ := sound_entries read
    refine ⟨lacks, ts, _, run, fun t mem closes => ?_, derives, whole_selector.2 rfl⟩
    have kind := derives.kinds t (List.mem_filter.2 ⟨mem, by simp [closes]⟩)
    simp [closes, entryKinds] at kind
  constructor
  · rintro ⟨read, close, behind, stands, closes⟩
    obtain ⟨-, ts, trees, run, none, derives, whole⟩ := sound read
    exact ⟨ts, trees, close, behind, run, none, stands, closes, derives, whole⟩
  · rintro ⟨ts, trees, close, behind, run, none, stands, closes, derives, whole⟩
    have spaced := Scattered.spaced ⟨ts, run, rfl⟩ stands (by simp [closes])
    obtain ⟨es, rfl, takes⟩ := takes_entries derives closes []
    obtain rfl := whole_selector.1 whole
    obtain ⟨c₁, read, left⟩ := takes c behind spaced
    have read : expression c = .ok (selector es) c₁ := bind_eq_ok_iff.2 ⟨es, c₁, read, rfl⟩
    -- the reader has ended where the tokens end: up to the first parenthesis there is one run only
    obtain ⟨⟨c₀, lacks⟩, ts', -, run', none', -⟩ := sound read
    obtain ⟨c₂, head, tail⟩ := InOrder.cons_iff.1 left
    obtain rfl := InOrder.nil_iff.1 tail
    obtain ⟨-, rfl⟩ := run_unique run none stands closes run' none' (lacks.stands head) closes
    exact ⟨read, close, c₂, stands, closes⟩

end Quaked.Positional
