import Quaked.Proofs.Token.Runs

/-!
# Tokens among line breaks

Where line breaks mean nothing, what a reader has taken is the list of the other tokens: `Scattered c us c'`
says that `us` are these up to `c'`. What it takes is said the other way round by `Consumes x us a rest`:
wherever `us` stands up to some place, `x` answers `a` and `rest` is what is left up to that place.

* `Scattered.spaced`: in front of a token that is no line break, the tokens are spaced.
* `ifNext_eq_some_iff`, `ifNext_eq_none_iff`: readers that go on with a token of a kind if one is next.
* `run_unique`: up to the first token of some sort there is only one run.
-/

namespace Quaked.Token

open Text

variable {c c' c'' c₁ c₂ : Cursor} {t u : Token} {ts us vs rest : List Token} {kinds : List Kind}
  {kind : Kind} {α β : Type} {a : α} {b : β}

/-! ### What stands there -/

/-- What stands there but for line breaks, which may be anywhere, also behind the last token. -/
def Scattered (c : Cursor) (us : List Token) (c' : Cursor) : Prop :=
  ∃ ts, Run c ts c' ∧ ts.filter (·.kind ≠ .newline) = us

/-- Behind line breaks, which end at `c'`, the next token is not of the kind. -/
structure Lacks (kind : Kind) (c c' : Cursor) : Prop where
  skipped : skipNewlines c = .ok () c'
  other : ∃ t c₁, Stands c' t c₁ ∧ t.kind ≠ kind

theorem StandsPast.not_newline (h : StandsPast c t c') : t.kind ≠ .newline := by
  induction h with
  | here _ other => exact other
  | behind _ _ _ ih => exact ih

/-- A line break in front of tokens stands in front of the first. -/
theorem Spaced.behind (read : Stands c t c₁) (newline : t.kind = .newline) (h : Spaced c₁ us c')
    (some : us ≠ []) : Spaced c us c' := by
  cases h with
  | nil => exact absurd rfl some
  | cons head tail => exact .cons (.behind read newline head) tail

namespace Scattered

theorem nil (c : Cursor) : Scattered c [] c := ⟨[], .nil c, rfl⟩

theorem append (first : Scattered c us c₁) (second : Scattered c₁ vs c') :
    Scattered c (us ++ vs) c' := by
  obtain ⟨ts, run, rfl⟩ := first
  obtain ⟨ts', run', rfl⟩ := second
  exact ⟨ts ++ ts', run.append run', List.filter_append _ _⟩

theorem of_skipNewlines (h : skipNewlines c = .ok () c') : Scattered c [] c' := by
  obtain ⟨breaks, run, newlines, -⟩ := skipNewlines_eq_ok_iff.1 h
  refine ⟨breaks, run, List.filter_eq_nil_iff.2 fun t mem => ?_⟩
  simp [newlines t mem]

theorem of_standsPast (h : StandsPast c t c') : Scattered c [t] c' := by
  induction h with
  | here read other => exact ⟨[_], .cons read (.nil _), by simp [other]⟩
  | behind read newline _ ih =>
    obtain ⟨ts, run, same⟩ := ih
    refine ⟨_ :: ts, .cons read run, ?_⟩
    rw [List.filter_cons_of_neg (by simp [newline]), same]

theorem of_spaced (h : Spaced c us c') : Scattered c us c' := by
  induction h with
  | nil c => exact .nil c
  | cons head _ ih => exact (of_standsPast head).append ih

theorem unread_lt (h : Scattered c us c') (mem : u ∈ us) (more : u.kind ≠ .endOfFile) :
    c'.unread < c.unread := by
  obtain ⟨ts, run, rfl⟩ := h
  induction run with
  | nil c => cases mem
  | cons head tail ih =>
    rw [List.mem_filter, List.mem_cons] at mem
    obtain ⟨rfl | mem, other⟩ := mem
    · exact Nat.lt_of_le_of_lt (tail.le Cursor.unread unread_next_le) (unread_next head more)
    · exact Nat.lt_of_lt_of_le (ih (List.mem_filter.2 ⟨mem, other⟩)) (unread_next_le head)

/-- In front of a token that is no line break, every line break stands in front of a token. -/
theorem spaced (h : Scattered c us c') (stands : Stands c' t c₁) (other : t.kind ≠ .newline) :
    Spaced c (us ++ [t]) c₁ := by
  obtain ⟨ts, run, rfl⟩ := h
  induction run with
  | nil c => exact .cons (.here stands other) (.nil _)
  | @cons _ _ _ i _ head _ ih =>
    by_cases newline : i.kind = .newline
    · rw [List.filter_cons_of_neg (by simp [newline])]
      exact Spaced.behind head newline (ih stands) (by simp)
    · rw [List.filter_cons_of_pos (by simp [newline])]
      exact .cons (.here head newline) (ih stands)

end Scattered

namespace Lacks

theorem scattered (h : Lacks kind c c') : Scattered c [] c' := .of_skipNewlines h.skipped

/-- What is next is no line break. -/
theorem next_past (h : Lacks kind c c') :
    ∃ t c₁, Stands c' t c₁ ∧ t.kind ≠ kind ∧ t.kind ≠ .newline := by
  obtain ⟨-, -, -, t, c₁, stands, noBreak⟩ := skipNewlines_eq_ok_iff.1 h.skipped
  obtain ⟨u, c₂, stands', other⟩ := h.other
  obtain ⟨rfl, -⟩ := stands.unique stands'
  exact ⟨_, c₁, stands, other, noBreak⟩

/-- What is next behind further line breaks is next: there are none. -/
theorem stands (h : Lacks kind c c') (past : StandsPast c' t c₁) : Stands c' t c₁ := by
  obtain ⟨u, c₂, stands, -, noBreak⟩ := h.next_past
  cases past with
  | here read _ => exact read
  | behind read newline _ =>
    obtain ⟨rfl, -⟩ := stands.unique read
    exact absurd newline noBreak

theorem kind_ne (h : Lacks kind c c') (past : StandsPast c' t c₁) : t.kind ≠ kind := by
  obtain ⟨u, c₂, stands, other, -⟩ := h.next_past
  obtain ⟨rfl, -⟩ := stands.unique (h.stands past)
  exact other

theorem of_standsPast (stands : StandsPast c t c₁) (other : t.kind ≠ kind) :
    ∃ c', Lacks kind c c' ∧ StandsPast c' t c₁ := by
  obtain ⟨c', skipped, stands'⟩ := next_past_eq_ok_iff.2 stands
  exact ⟨c', ⟨skipped, t, c₁, stands', other⟩, .here stands' stands.not_newline⟩

end Lacks

/-- Up to the first token of some sort there is only one run. -/
theorem run_unique {P : Token → Prop} (first : Run c ts c₁) (none : ∀ t ∈ ts, ¬ P t)
    (stands : Stands c₁ t c') (such : P t) (second : Run c us c₂) (none' : ∀ t ∈ us, ¬ P t)
    (stands' : Stands c₂ u c'') (such' : P u) : ts = us ∧ c₁ = c₂ := by
  induction first generalizing us with
  | nil c =>
    cases second with
    | nil => exact ⟨rfl, rfl⟩
    | cons head _ =>
      obtain ⟨rfl, -⟩ := stands.unique head
      exact absurd such (none' _ List.mem_cons_self)
  | cons head _ ih =>
    cases second with
    | nil =>
      obtain ⟨rfl, -⟩ := stands'.unique head
      exact absurd such' (none _ List.mem_cons_self)
    | cons head' tail' =>
      obtain ⟨rfl, rfl⟩ := head.unique head'
      obtain ⟨_, none⟩ := List.forall_mem_cons.1 none
      obtain ⟨_, none'⟩ := List.forall_mem_cons.1 none'
      obtain ⟨rfl, rfl⟩ := ih none stands tail' none'
      exact ⟨rfl, rfl⟩

/-! ### Readers that look past line breaks -/

theorem peekPastNewlines_bind_eq_ok_iff {f : Token → Reading α} :
    (peekPastNewlines >>= f) c = .ok a c' ↔
      ∃ c₀ t c₁, skipNewlines c = .ok () c₀ ∧ Stands c₀ t c₁ ∧ f t c₀ = .ok a c' := by
  constructor
  · intro h
    obtain ⟨t, c₀, peeked, rest⟩ := bind_eq_ok_iff.1 h
    obtain ⟨⟨⟩, _, skipped, peeked⟩ := bind_eq_ok_iff.1 peeked
    obtain ⟨rfl, c₁, stands⟩ := peek_eq_ok_iff.1 peeked
    exact ⟨c₀, t, c₁, skipped, stands, rest⟩
  · rintro ⟨c₀, t, c₁, skipped, stands, rest⟩
    refine bind_eq_ok_iff.2 ⟨t, c₀, bind_eq_ok_iff.2 ⟨(), c₀, skipped, ?_⟩, rest⟩
    exact peek_eq_ok_iff.2 ⟨rfl, c₁, stands⟩

section IfNext

variable {f : Token → Reading (Option α)}

/-- A reader that goes on with a token of a kind, if that is next, has a result where it is. -/
theorem ifNext_eq_some_iff :
    (peekPastNewlines >>= fun t => if t.kind = kind then next >>= f else pure none) c =
        .ok (some a) c' ↔
      ∃ t c₁, StandsPast c t c₁ ∧ t.kind = kind ∧ f t c₁ = .ok (some a) c' := by
  constructor
  · intro h
    obtain ⟨c₀, t, c₁, skipped, stands, h⟩ := peekPastNewlines_bind_eq_ok_iff.1 h
    split at h
    · rename_i is
      obtain ⟨u, c₂, read, h⟩ := bind_eq_ok_iff.1 h
      obtain ⟨rfl, rfl⟩ := stands.unique read
      exact ⟨_, _, next_past_eq_ok_iff.1 ⟨c₀, skipped, stands⟩, is, h⟩
    · cases (pure_eq_ok_iff.1 h).1
  · rintro ⟨t, c₁, stands, is, h⟩
    obtain ⟨c₀, skipped, stands⟩ := next_past_eq_ok_iff.2 stands
    refine peekPastNewlines_bind_eq_ok_iff.2 ⟨c₀, t, c₁, skipped, stands, ?_⟩
    rw [if_pos is]
    exact bind_eq_ok_iff.2 ⟨t, c₁, stands, h⟩

/-- And it has none where it is not, if it always has one where it goes on. -/
theorem ifNext_eq_none_iff (result : ∀ {t c c'}, f t c ≠ .ok none c') :
    (peekPastNewlines >>= fun t => if t.kind = kind then next >>= f else pure none) c =
        .ok none c' ↔ Lacks kind c c' := by
  constructor
  · intro h
    obtain ⟨c₀, t, c₁, skipped, stands, h⟩ := peekPastNewlines_bind_eq_ok_iff.1 h
    split at h
    · obtain ⟨u, c₂, -, h⟩ := bind_eq_ok_iff.1 h
      exact absurd h result
    · rename_i other
      obtain ⟨-, rfl⟩ := pure_eq_ok_iff.1 h
      exact ⟨skipped, t, c₁, stands, other⟩
  · rintro ⟨skipped, t, c₁, stands, other⟩
    refine peekPastNewlines_bind_eq_ok_iff.2 ⟨c', t, c₁, skipped, stands, ?_⟩
    rw [if_neg other]
    rfl

end IfNext

/-! ### Readers in front of given tokens -/

/-- Wherever `us` stands up to some place, the reader answers `a`, and `rest` stands from there up to
the same place. -/
def Consumes (x : Reading α) (us : List Token) (a : α) (rest : List Token) : Prop :=
  ∀ c c', Spaced c us c' → ∃ c₁, x c = .ok a c₁ ∧ Spaced c₁ rest c'

namespace Consumes

variable {x : Reading α} {f : α → Reading β}

theorem pure (a : α) (us : List Token) : Consumes (Pure.pure a) us a us :=
  fun c _ stands => ⟨c, rfl, stands⟩

theorem bind (first : Consumes x us a vs) (second : Consumes (f a) vs b rest) :
    Consumes (x >>= f) us b rest := by
  intro c c' stands
  obtain ⟨c₁, read, stands⟩ := first c c' stands
  obtain ⟨c₂, read', stands⟩ := second c₁ c' stands
  exact ⟨c₂, bind_eq_ok_iff.2 ⟨a, c₁, read, read'⟩, stands⟩

/-- A reader that succeeds where tokens stand takes them. -/
theorem of_spaced (us : List Token) (reads : ∀ {c c'}, Spaced c us c' → x c = .ok a c') :
    Consumes x (us ++ rest) a rest := by
  intro c c' stands
  obtain ⟨c₁, first, rest⟩ := InOrder.append_iff.1 stands
  exact ⟨c₁, reads first, rest⟩

/-- A reader that stops where a kind is lacking takes nothing in front of another. -/
theorem of_lacks (stops : ∀ {c c'}, Lacks kind c c' → x c = .ok a c') (other : t.kind ≠ kind) :
    Consumes x (t :: rest) a (t :: rest) := by
  intro c c' stands
  obtain ⟨c₁, head, tail⟩ := InOrder.cons_iff.1 stands
  obtain ⟨c₂, lacks, head⟩ := Lacks.of_standsPast head other
  exact ⟨c₂, stops lacks, .cons head tail⟩

theorem nextOfPastNewlines (mem : t.kind ∈ kinds) :
    Consumes (nextOfPastNewlines kinds) (t :: rest) t rest := by
  intro c c' stands
  obtain ⟨c₁, head, tail⟩ := InOrder.cons_iff.1 stands
  exact ⟨c₁, nextOfPastNewlines_eq_ok_iff.2 ⟨head, mem⟩, tail⟩

theorem peekPastNewlines : Consumes peekPastNewlines (t :: rest) t (t :: rest) := by
  intro c c' stands
  obtain ⟨c₁, head, tail⟩ := InOrder.cons_iff.1 stands
  obtain ⟨c₀, skipped, stands⟩ := next_past_eq_ok_iff.2 head
  refine ⟨c₀, bind_eq_ok_iff.2 ⟨(), c₀, skipped, peek_eq_ok_iff.2 ⟨rfl, c₁, stands⟩⟩, ?_⟩
  exact .cons (.here stands head.not_newline) tail

theorem expect (mem : t.kind ∈ kinds) : Consumes (expect kinds t) us t us :=
  fun c _ stands => ⟨c, expect_eq_ok_iff.2 ⟨rfl, rfl, mem⟩, stands⟩

section Loop

variable {step : α → Reading (Option α)}

theorem iterate_none (last : Consumes (step a) us none rest) :
    Consumes (iterate Cursor.unread step a) us a rest := by
  intro c c' stands
  obtain ⟨c₁, read, stands⟩ := last c c' stands
  exact ⟨c₁, iterate_of_none read, stands⟩

theorem iterate_some {a' a'' : α}
    (less : ∀ {a b c c'}, step a c = .ok (some b) c' → c'.unread < c.unread)
    (first : Consumes (step a) us (some a') vs)
    (others : Consumes (iterate Cursor.unread step a') vs a'' rest) :
    Consumes (iterate Cursor.unread step a) us a'' rest := by
  intro c c' stands
  obtain ⟨c₁, read, stands⟩ := first c c' stands
  obtain ⟨c₂, read', stands⟩ := others c₁ c' stands
  exact ⟨c₂, (iterate_of_some read (less read)).trans read', stands⟩

end Loop
end Consumes
end Quaked.Token
