import Quaked.Proofs.Definition.Blame
import Quaked.Proofs.Definition.Inheritance
import Quaked.Proofs.Definition.Parser
import Quaked.Proofs.Number.Nearest

/-!
# One call after the other

What a run of calls keeps to, from the start of a text and going on after failures, with a parser that a
failure may leave with a token it has looked at: the cursor never goes back, a call that comes to a
definition ends right behind the `*/` that closes it with no token kept, the end of the text is final, and
only a base changes the bases, in its own place (`calls_advance`). So what a file notes of its progress, the
doubles nearest to the parts that have been read, never falls and is one at the end (`notes_read`).

* `inSession_parserAfter`: the parser is where the calls in a session alone come to.
* `lawful_next`: what one call keeps to.
-/

namespace Quaked

open Text

variable {σ α : Type} {text : String} {P : Cursor → Prop}

/-- Behind a reader in step with itself the state is still related to itself. -/
theorem Text.InStep.of_ok {R : σ → σ → Prop} {E : Error → Error → Prop} {A : α → α → Prop}
    {x : EStateM Error σ α} {s s' : σ} {a : α} (h : InStep R E A x x) (related : R s s)
    (run : x s = .ok a s') : R s' s' := by
  have both := (h s s related).final
  rw [run] at both
  exact both

namespace Definition

variable {settings : Settings} {s s' : Session}

/-- The session after a number of calls from the start of a text, whether they succeed or fail. -/
def sessionAfter (settings : Settings) (text : String) : Nat → Session
  | 0 => .ofString text
  | n + 1 => final (next settings (sessionAfter settings text n))

/-- The parser after a number of calls from the start of a text, whether they succeed or fail. -/
def parserAfter (settings : Settings) (text : String) : Nat → Parser
  | 0 => .ofString text
  | n + 1 => final (Parser.next settings (parserAfter settings text n))

/-- What the parser keeps is always the next token, so each call comes to what it comes to in the
session. -/
theorem inSession_parserAfter (settings : Settings) (text : String) (n : Nat) :
    Parser.InSession (parserAfter settings text n) (sessionAfter settings text n) := by
  induction n with
  | zero => exact Parser.inSession_of_pending rfl
  | succ n ih => exact (Parser.inStep_next settings _ _ ih).final

theorem reached_sessionAfter (settings : Settings) (text : String) (n : Nat) :
    Reached settings text (sessionAfter settings text n) := by
  induction n with
  | zero => exact .start
  | succ n ih => exact ih.call

/-! ### The cursor -/

/-- What skipping keeps is kept by a call. -/
theorem holds_final_next (skips : Skippable P) (settings : Settings) (h : P s.cursor) :
    P (final (next settings s)).cursor := by
  have start : SameSession (Only P) s.warnings s.warnings s s := .of_related ⟨rfl, h⟩ rfl
  exact (inStep_next (aligned_only skips) settings s s start).final.cursor.2

theorem skippable_offset_ge (k : Nat) : Skippable fun c => k ≤ c.offset := by
  intro c n before
  rw [Cursor.offset_skip]
  exact Nat.le_trans before (Nat.le_add_right _ _)

theorem skippable_size (k : Nat) : Skippable fun c => c.size = k := by
  intro c n before
  rw [Cursor.size_skip]
  exact before

/-- No call goes back. -/
theorem offset_le_next (settings : Settings) (s : Session) :
    s.cursor.offset ≤ (final (next settings s)).cursor.offset :=
  holds_final_next (skippable_offset_ge s.cursor.offset) settings (Nat.le_refl _)

theorem offset_mono (settings : Settings) (text : String) {m n : Nat} (h : m ≤ n) :
    (sessionAfter settings text m).cursor.offset ≤ (sessionAfter settings text n).cursor.offset := by
  induction h with
  | refl => exact Nat.le_refl _
  | step _ ih => exact Nat.le_trans ih (offset_le_next settings _)

theorem size_sessionAfter (settings : Settings) (text : String) (n : Nat) :
    (sessionAfter settings text n).cursor.size = text.utf8ByteSize := by
  induction n with
  | zero => rfl
  | succ n ih => exact holds_final_next (skippable_size _) settings ih

/-! ### The end of a definition -/

/-- The session is right behind a `*/` of the text, further on than it was. -/
structure Further (text : String) (s s' : Session) : Prop where
  further : s.cursor.offset < s'.cursor.offset
  behind : ∃ k, Behind text k ('*' :: '/' :: s'.cursor.rest) ∧ s'.cursor.offset = k + 2

/-- A definition that is read ends with the token that closes it. -/
theorem close_of_declare {dialect : Dialect} {d : Declaration} (place : InPlace text s.cursor)
    (run : declare dialect s = .ok d s') :
    ∃ c t, InPlace text c ∧ Token.Stands c t s'.cursor ∧ t.kind = .commentClose := by
  have aligned : Aligned (Only (InPlace text)) := aligned_only Token.skippable_inPlace
  have start : SameSession (Only (InPlace text)) s.warnings s.warnings s s := .of_related ⟨rfl, place⟩ rfl
  obtain ⟨_, s₁, first, run⟩ := bind_eq_ok_iff.1 run
  have start := (inStep_lift (inStep_header aligned)).of_ok start first
  obtain ⟨_, s₂, second, run⟩ := bind_eq_ok_iff.1 run
  have start := (inStep_entries aligned dialect).of_ok start second
  obtain ⟨_, s₃, third, run⟩ := bind_eq_ok_iff.1 run
  have start := (inStep_lift (inStep_description aligned)).of_ok start third
  obtain ⟨t, s₄, last, run⟩ := bind_eq_ok_iff.1 run
  obtain ⟨c, read, rfl⟩ := lift_eq_ok_iff.1 last
  obtain ⟨stands, closes⟩ := Token.nextOf_eq_ok_iff.1 read
  obtain ⟨-, rfl⟩ := pure_eq_ok_iff.1 run
  exact ⟨s₃.cursor, t, start.cursor.2, stands, List.mem_singleton.1 closes⟩

/-- Behind the declaration nothing more is read. -/
theorem cursor_of_conclusion {d : Declaration} {outcome : Outcome}
    (run : (do
      let d ← resolve d
      if d.isBase then keep d else return .entity (d.entityClass settings.defaultColor)) s =
        .ok outcome s') : s'.cursor = s.cursor := by
  obtain ⟨resolved, s₁, first, run⟩ := bind_eq_ok_iff.1 run
  cases first
  split at run
  · cases run
    rfl
  · cases run
    rfl

/-- Wherever it is read, the token that closes a comment is its last two characters. -/
theorem behind_of_close {c c' : Cursor} {t : Token} (place : InPlace text c)
    (stands : Token.Stands c t c') (closes : t.kind = .commentClose) :
    ∃ k, Behind text k ('*' :: '/' :: c'.rest) ∧ c'.offset = k + 2 := by
  obtain ⟨kind, n, lexed, rfl, rfl⟩ := Token.next_eq_ok_iff.1 stands
  obtain rfl : kind = .commentClose := closes
  obtain ⟨behind, close, rfl⟩ := lexeme_commentClose lexed
  have start := place.skip (Token.gap c.rest)
  have here : (c.skip (Token.gap c.rest)).rest = '*' :: '/' :: behind := by
    rw [Cursor.rest_skip, close]
  refine ⟨(c.skip (Token.gap c.rest)).offset, ?_, ?_⟩
  · rw [Cursor.rest_skip, here]
    exact here ▸ start.behind
  · rw [Cursor.offset_skip, here]
    rfl

theorem further_of_next {outcome : Outcome} (place : InPlace text s.cursor)
    (run : next settings s = .ok outcome s') (some : outcome ≠ .finished) : Further text s s' := by
  have place' : InPlace text s'.cursor := by
    have kept := holds_final_next Token.skippable_inPlace settings place
    rw [run] at kept
    exact kept
  have less := unread_next_lt run some
  obtain ⟨opened, s₁, first, run⟩ := bind_eq_ok_iff.1 run
  have aligned : Aligned (Only (InPlace text)) := aligned_only Token.skippable_inPlace
  have start := (inStep_lift (inStep_opening aligned)).of_ok
    (SameSession.of_related ⟨rfl, place⟩ rfl) first
  split at run
  · obtain ⟨d, s₂, declared, run⟩ := bind_eq_ok_iff.1 run
    obtain ⟨c, t, here, stands, closes⟩ := close_of_declare start.cursor.2 declared
    have same := cursor_of_conclusion run
    rw [← same] at stands
    exact ⟨place.behind.lt place'.behind less, behind_of_close here stands closes⟩
  · exact absurd (pure_eq_ok_iff.1 run).1.symm some

/-! ### The end of the text -/

/-- Where nothing is left there is no further definition, and nothing changes. -/
theorem next_of_nil (none : s.cursor.rest = []) : next settings s = .ok .finished s := by
  have stands : Token.Stands s.cursor _ s.cursor := Token.next_of_nil none
  exact next_eq_ok_iff.2 (.inr ⟨_, s.cursor, .mk (.nil _) nofun stands (.inr rfl), rfl, rfl, rfl⟩)

/-- A call that comes to no definition has passed the rest of the text and changed nothing else. -/
theorem end_of_finished (run : next settings s = .ok .finished s') :
    s'.cursor.rest = [] ∧ s' = { s with cursor := s'.cursor } := by
  rcases next_eq_ok_iff.1 run with ⟨p, _, c, -, -, concluded⟩ | ⟨t, c, opening, last, -, rfl⟩
  · exact absurd rfl concluded.ne_finished
  · cases opening with
    | mk _ _ stands => exact ⟨(Token.end_of_next stands last).2.1, rfl⟩

/-! ### One call -/

/-- What a call comes to and what it does: to its outcome belong the place where it ends, the bases it
leaves, that a definition leaves no token behind that has been looked at, and for the end of the text that it
is final. -/
inductive Lawful (settings : Settings) (text : String) (p : Parser) :
    EStateM.Result Error Parser Outcome → Prop where
  | finished {p' : Parser} (offset : p'.session.cursor.offset = text.utf8ByteSize)
    (bases : p'.session.bases = p.session.bases) (silent : p'.session.warnings = p.session.warnings)
    (final : Parser.next settings p' = .ok .finished p') : Lawful settings text p (.ok .finished p')
  | base {name : String} {p' : Parser} (further : Further text p.session p'.session)
    (empty : p'.pending = none) (known : (p'.session.bases.get? name).isSome)
    (others : ∀ other, other ≠ name → p'.session.bases.get? other = p.session.bases.get? other) :
    Lawful settings text p (.ok (.base name) p')
  | entity {e : EntityClass} {p' : Parser} (further : Further text p.session p'.session)
    (empty : p'.pending = none) (bases : p'.session.bases = p.session.bases) :
    Lawful settings text p (.ok (.entity e) p')
  | failed {e : Error} {p' : Parser} (bases : p'.session.bases = p.session.bases) :
    Lawful settings text p (.error e p')

/-- A base has its name from there on, and no other name changes what it means. -/
theorem base_of_next {name : String} (h : s.bases.WellFormed)
    (run : next settings s = .ok (.base name) s') : (s'.bases.get? name).isSome ∧
      ∀ other, other ≠ name → s'.bases.get? other = s.bases.get? other := by
  cases (next_eq_ok_iff_passes h).1 run with
  | @definition p _ _ _ _ _ _ yields =>
    cases yields with
    | base base =>
      have named : (p.completed s.bases).name = p.name := rfl
      refine ⟨?_, fun other different => ?_⟩
      · rw [BaseTable.get?_insert, if_pos named]
        rfl
      · rw [BaseTable.get?_insert, named, if_neg different.symm]

theorem bases_of_entity {e : EntityClass} (h : s.bases.WellFormed)
    (run : next settings s = .ok (.entity e) s') : s'.bases = s.bases := by
  cases (next_eq_ok_iff_passes h).1 run with
  | definition _ _ yields =>
    cases yields with
    | entity => rfl

/-- Behind the end of the text there is no token to keep. -/
theorem Parser.final_of_finished {p : Parser} (empty : p.pending = none)
    (none : p.session.cursor.rest = []) : Parser.next settings p = .ok .finished p :=
  (next_eq_ok_iff (inSession_of_pending empty).2).2 ⟨next_of_nil none, empty⟩

/-- A session that is reached is where a parser comes to that keeps the next token or none, and there the
next call is lawful. -/
theorem lawful_next {p : Parser} (reached : Reached settings text p.session)
    (coherent : p.lexer.Coherent Token.next) :
    Lawful settings text p (Parser.next settings p) := by
  have place : InPlace text p.session.cursor := reached.placed.cursor.2
  have place' := holds_final_next Token.skippable_inPlace settings place
  have both := Parser.inStep_next settings p p.session ⟨rfl, coherent⟩
  cases run : Parser.next settings p with
  | error e p' =>
    rw [run] at both
    obtain ⟨_, _, failed, -, rfl, -⟩ := both.of_error
    exact .failed (bases_of_error failed)
  | ok outcome p' =>
    obtain ⟨read, empty⟩ := (Parser.next_eq_ok_iff coherent).1 run
    rw [read] at place'
    cases outcome with
    | finished =>
      obtain ⟨none, same⟩ := end_of_finished read
      refine .finished (Token.offset_of_nil place' none) ?_ ?_ (Parser.final_of_finished empty none)
      · rw [same]
      · rw [same]
    | base name =>
      obtain ⟨known, others⟩ := base_of_next reached.wellFormed read
      exact .base (further_of_next place read nofun) empty known others
    | entity e =>
      exact .entity (further_of_next place read nofun) empty (bases_of_entity reached.wellFormed read)

/-! ### Progress -/

/-- The part of a text that has been read, in units of the format: one, or rounded to the nearest. -/
theorem progress_eq {c : Cursor} (within : c.offset ≤ c.size) : ∃ m, c.progress = .finite false m ∧
    (c.size = 0 ∧ m.units = Format.double.one ∨
      0 < c.size ∧ m.units = Format.double.nearest (c.offset * Format.double.one) c.size) := by
  have room : Format.double.precision + Format.double.scale < Format.double.limit := by decide
  unfold Cursor.progress
  split
  · rename_i empty
    obtain ⟨m, whole, units⟩ := Number.ofRatio_of_le room Nat.one_pos (Nat.le_refl 1)
    refine ⟨m, whole, .inl ⟨empty, ?_⟩⟩
    exact units.trans (Number.nearest_self room Nat.one_pos).1
  · rename_i some
    obtain ⟨m, part, units⟩ := Number.ofRatio_of_le room (Nat.pos_of_ne_zero some) within
    exact ⟨m, part, .inr ⟨Nat.pos_of_ne_zero some, units⟩⟩

theorem isPart_progress {c : Cursor} (within : c.offset ≤ c.size) :
    c.progress.IsPart c.offset c.size := by
  obtain ⟨m, same, ⟨empty, one⟩ | ⟨some, rounded⟩⟩ := progress_eq within
  · rw [same]
    exact .nothing empty one
  · rw [same]
    exact .part some (Magnitude.isNearest_of_units some rounded)

/-- The part of a text that has been read grows with the offset. -/
theorem ascends_progress {c d : Cursor} (size : c.size = d.size) (offset : c.offset ≤ d.offset)
    (within : d.offset ≤ d.size) : c.progress.Ascends d.progress := by
  obtain ⟨m, same, first⟩ := progress_eq (size ▸ offset.trans within)
  obtain ⟨m', same', second⟩ := progress_eq within
  rw [same, same']
  refine .mk ?_
  rcases first with ⟨empty, one⟩ | ⟨some, rounded⟩
  · rcases second with ⟨-, one'⟩ | ⟨some', -⟩
    · rw [one, one']
    · omega
  · rcases second with ⟨empty', -⟩ | ⟨-, rounded'⟩
    · omega
    · rw [rounded, rounded', size]
      exact Format.double.nearest_mono d.size (Nat.mul_le_mul_right _ offset)

/-- At the end of the text it is one. -/
theorem progress_of_end {c : Cursor} (last : c.offset = c.size) :
    ∃ m, c.progress = .finite false m ∧ m.units = Format.double.one := by
  obtain ⟨m, same, ⟨-, one⟩ | ⟨some, rounded⟩⟩ := progress_eq (Nat.le_of_eq last)
  · exact ⟨m, same, one⟩
  · refine ⟨m, same, ?_⟩
    rw [rounded, last, (Number.nearest_self (by decide) some).1]

/-- What the first calls note of their progress. -/
def progressOf (settings : Settings) (text : String) (calls : Nat) : List (Number .double) :=
  (List.range calls).map fun i => (sessionAfter settings text (i + 1)).cursor.progress

theorem progressOf_succ (settings : Settings) (text : String) (n : Nat) :
    progressOf settings text (n + 1) =
      progressOf settings text n ++ [(sessionAfter settings text (n + 1)).cursor.progress] := by
  unfold progressOf
  rw [List.range_succ, List.map_append, List.map_singleton]

theorem offset_le_size (settings : Settings) (text : String) (n : Nat) :
    (sessionAfter settings text n).cursor.offset ≤ (sessionAfter settings text n).cursor.size := by
  rw [size_sessionAfter]
  exact (reached_sessionAfter settings text n).placed.cursor.2.behind.le

theorem pairwise_progressOf (settings : Settings) (text : String) (n : Nat) :
    (progressOf settings text n).Pairwise Number.Ascends := by
  unfold progressOf
  rw [List.pairwise_map]
  refine List.pairwise_lt_range.imp ?_
  intro i j less
  have offset := offset_mono settings text (Nat.succ_le_succ (Nat.le_of_lt less))
  refine ascends_progress ?_ offset (offset_le_size settings text (j + 1))
  rw [size_sessionAfter, size_sessionAfter]

/-- A call itself notes nothing. -/
theorem keeps_progress (settings : Settings) (noted : List (Number .double)) :
    Keeps (fun s => s.progress = noted) (next settings) := by
  have lasting : Lasting settings.dialect fun s => s.progress = noted :=
    ⟨fun _ _ same => same, fun _ _ same _ => same⟩
  refine (keeps_lift lasting.moved _).bind fun opened => ?_
  split
  · refine (keeps_declare lasting).bind fun d => (keeps_resolve lasting d).bind fun d => ?_
    split
    · exact fun s before => before
    · exact .pure _
  · exact .pure _

/-- Calls that all succeed, one after the other. -/
def Succeed (settings : Settings) (text : String) (calls : Nat) : Prop :=
  ∀ i < calls, ∃ outcome, next settings (sessionAfter settings text i) =
    .ok outcome (sessionAfter settings text (i + 1))

/-- What a file comes to is what its calls come to: some succeed, each noting its progress, up to the
one that finds the end of the text, or the one that fails. -/
inductive Ran (settings : Settings) (text : String) {α : Type} :
    EStateM.Result Error Session α → Prop where
  | ok {a : α} {f : Session} {n : Nat} (succeed : Succeed settings text (n + 1))
    (progress : f.progress = progressOf settings text (n + 1))
    (last : next settings (sessionAfter settings text n) =
      .ok .finished (sessionAfter settings text (n + 1))) : Ran settings text (.ok a f)
  | error {e : Error} {f : Session} {n : Nat} (succeed : Succeed settings text n)
    (progress : f.progress = progressOf settings text n)
    (failed : ∃ s', next settings (sessionAfter settings text n) = .error e s') :
    Ran settings text (.error e f)

theorem Succeed.succ {n : Nat} {outcome : Outcome} (h : Succeed settings text n)
    (last : next settings (sessionAfter settings text n) =
      .ok outcome (sessionAfter settings text (n + 1))) : Succeed settings text (n + 1) := by
  intro i less
  rcases Nat.lt_succ_iff_lt_or_eq.1 less with earlier | rfl
  · exact h i earlier
  · exact ⟨outcome, last⟩

/-- A session of the file is as far as a number of calls: it differs in what has been noted alone. -/
structure AsFar (settings : Settings) (text : String) (n : Nat) (f : Session) : Prop where
  same : SameSession (Only (InPlace text)) [] [] (sessionAfter settings text n) f
  succeed : Succeed settings text n
  progress : f.progress = progressOf settings text n

/-- In the file the next definition comes to what the next call comes to. -/
theorem AsFar.next_eq {n : Nat} {f : Session} (h : AsFar settings text n f) :
    (∃ outcome f', next settings f = .ok outcome f' ∧ AsFar settings text (n + 1) (noted f') ∧
      next settings (sessionAfter settings text n) = .ok outcome (sessionAfter settings text (n + 1))) ∨
    ∃ e f' s', next settings f = .error e f' ∧ f'.progress = progressOf settings text n ∧
      next settings (sessionAfter settings text n) = .error e s' := by
  have aligned : Aligned (Only (InPlace text)) := aligned_only Token.skippable_inPlace
  have both := inStep_next aligned settings _ _ h.same
  have kept := keeps_progress settings _ f h.progress
  cases run : next settings (sessionAfter settings text n) with
  | ok outcome s' =>
    rw [run] at both
    obtain ⟨_, f', run', rfl, same⟩ := both.of_ok
    have behind : sessionAfter settings text (n + 1) = s' := by
      rw [sessionAfter, run]
      rfl
    rw [run'] at kept
    subst behind
    refine .inl ⟨outcome, f', run', ⟨⟨same.cursor, same.bases, same.warnings⟩, h.succeed.succ run, ?_⟩, rfl⟩
    have cursor : f'.cursor = (sessionAfter settings text (n + 1)).cursor := same.cursor.1
    show f'.progress ++ [f'.cursor.progress] = _
    rw [progressOf_succ, cursor]
    exact congrArg (· ++ _) kept
  | error e s' =>
    rw [run] at both
    obtain ⟨e', f', run', blames, -⟩ := both.of_error
    cases blames.eq_of_only
    rw [run'] at kept
    exact .inr ⟨e, f', s', run', kept, rfl⟩

theorem entity?_of_ok {es : List EntityClass} {outcome : Outcome} (run : next settings s = .ok outcome s') :
    entity? settings es s = .ok (adds es outcome) (noted s') := by
  refine (bind_of_ok run).trans ?_
  cases outcome <;> rfl

theorem AsFar.ran {n : Nat} {f : Session} (es : List EntityClass) (h : AsFar settings text n f) :
    Ran settings text (iterate Session.unread (entity? settings) es f) := by
  have call := h.next_eq
  fun_induction iterate Session.unread (entity? settings) es f generalizing n with
  | case1 es f e f' run =>
    rcases call with ⟨outcome, f₁, read, -⟩ | ⟨e₁, f₁, s', failed, progress, failed'⟩
    · cases run.symm.trans (entity?_of_ok read)
    · cases run.symm.trans (bind_of_error failed)
      exact .error h.succeed progress ⟨s', failed'⟩
  | case2 es f f' run =>
    rcases call with ⟨outcome, f₁, read, further, read'⟩ | ⟨e₁, f₁, s', failed, -⟩
    · have answer := run.symm.trans (entity?_of_ok read)
      cases outcome with
      | finished =>
        cases answer
        exact .ok further.succeed further.progress read'
      | base name => cases answer
      | entity e => cases answer
    · cases run.symm.trans (bind_of_error failed)
  | case3 es f es' f' run _ ih =>
    rcases call with ⟨outcome, f₁, read, further, -⟩ | ⟨e₁, f₁, s', failed, -⟩
    · have answer := run.symm.trans (entity?_of_ok read)
      rw [EStateM.Result.ok.injEq] at answer
      obtain ⟨-, rfl⟩ := answer
      exact ih further further.next_eq
    · cases run.symm.trans (bind_of_error failed)
  | case4 es f es' f' run more => exact absurd (unread_entity? run) more

theorem asFar_ofString (settings : Settings) (text : String) :
    AsFar settings text 0 (.ofString text) where
  same := placed_ofString text
  succeed := nofun
  progress := rfl

/-- What the session at the end of a file has noted of its progress: for each call the part of the text
that has been read behind it, none less than the one before, the last of them one where the file is read. -/
structure Notes (settings : Settings) (text : String) (file : File) (calls : Nat) : Prop where
  succeed : Succeed settings text calls
  each : List.Forall₂
    (fun n x => Number.IsPart (sessionAfter settings text (n + 1)).cursor.offset text.utf8ByteSize x)
    (List.range calls) file.session.progress
  ascending : file.session.progress.Pairwise Number.Ascends
  whole : ∀ es, file.result = .ok es →
    (∃ m, file.session.progress.getLast? = some (.finite false m) ∧ m.units = Format.double.one) ∧
      ∃ n s', calls = n + 1 ∧ next settings (sessionAfter settings text n) = .ok .finished s'
  failed : ∀ e, file.result = .error e →
    ∃ s', next settings (sessionAfter settings text calls) = .error e s'

theorem forall₂_progressOf (settings : Settings) (text : String) (calls : Nat) :
    List.Forall₂
      (fun n x => Number.IsPart (sessionAfter settings text (n + 1)).cursor.offset text.utf8ByteSize x)
      (List.range calls) (progressOf settings text calls) := by
  unfold progressOf
  rw [List.forall₂_map_right_iff, List.forall₂_same]
  intro n _
  rw [← size_sessionAfter settings text (n + 1)]
  exact isPart_progress (offset_le_size settings text (n + 1))

/-- At the end of the text all of it has been passed. -/
theorem getLast?_progressOf {n : Nat} (last : next settings (sessionAfter settings text n) =
    .ok .finished (sessionAfter settings text (n + 1))) :
    ∃ m, (progressOf settings text (n + 1)).getLast? = some (.finite false m) ∧
      m.units = Format.double.one := by
  have place := (reached_sessionAfter settings text (n + 1)).placed.cursor.2
  have ends : (sessionAfter settings text (n + 1)).cursor.offset = text.utf8ByteSize :=
    Token.offset_of_nil place (end_of_finished last).1
  obtain ⟨m, same, one⟩ := progress_of_end (ends.trans (size_sessionAfter settings text (n + 1)).symm)
  refine ⟨m, ?_, one⟩
  rw [progressOf_succ, List.getLast?_concat, same]

theorem notes_read (settings : Settings) (text : String) :
    ∃ calls, Notes settings text (File.read settings text) calls := by
  have ran : Ran settings text (entities settings (.ofString text)) :=
    (asFar_ofString settings text).ran []
  unfold File.read
  cases run : entities settings (.ofString text) with
  | ok es f =>
    rw [run] at ran
    cases ran with
    | @ok _ _ n succeed progress last =>
      have whole := getLast?_progressOf last
      rw [← progress] at whole
      exact ⟨n + 1, succeed, progress ▸ forall₂_progressOf settings text (n + 1),
        progress ▸ pairwise_progressOf settings text (n + 1), fun _ _ => ⟨whole, n, _, rfl, last⟩, nofun⟩
  | error e f =>
    rw [run] at ran
    cases ran with
    | @error _ _ n succeed progress failed =>
      refine ⟨n, succeed, progress ▸ forall₂_progressOf settings text n,
        progress ▸ pairwise_progressOf settings text n, nofun, ?_⟩
      intro e' same
      cases same
      exact failed

/-- Any number of calls, whatever they come to, keep to these laws, with a parser that may keep a token from
one call to the next: no call goes back; each comes to what it comes to in the session alone, and lawfully;
behind the end of the text nothing happens any more. And what a file notes of its progress is the part that
has been read, once for each call that succeeds, in ascending order and one at the end. -/
theorem calls_advance (settings : Settings) (text : String) :
    (∀ n, (parserAfter settings text n).session = sessionAfter settings text n ∧
      (parserAfter settings text n).session.cursor.offset ≤
        (parserAfter settings text (n + 1)).session.cursor.offset ∧
      Agree Parser.InSession Eq Eq (Parser.next settings (parserAfter settings text n))
        (next settings (sessionAfter settings text n)) ∧
      Lawful settings text (parserAfter settings text n)
        (Parser.next settings (parserAfter settings text n)) ∧
      ∀ p', Parser.next settings (parserAfter settings text n) = .ok .finished p' →
        ∀ m, n < m → parserAfter settings text m = p' ∧
          Parser.next settings (parserAfter settings text m) = .ok .finished p') ∧
    ∃ calls, Notes settings text (File.read settings text) calls := by
  refine ⟨fun n => ?_, notes_read settings text⟩
  obtain ⟨same, coherent⟩ := inSession_parserAfter settings text n
  have reached := reached_sessionAfter settings text n
  rw [← same] at reached
  have lawful := lawful_next reached coherent
  refine ⟨same, ?_, ?_, lawful, ?_⟩
  · rw [same, (inSession_parserAfter settings text (n + 1)).1]
    exact offset_le_next settings _
  · exact Parser.inStep_next settings _ _ ⟨same, coherent⟩
  · intro p' run m more
    rw [run] at lawful
    cases lawful with
    | finished _ _ _ last =>
      have stays : parserAfter settings text m = p' := by
        induction more with
        | refl => exact congrArg final run
        | step _ ih =>
          show final (Parser.next settings (parserAfter settings text _)) = p'
          rw [ih, last]
          rfl
      rw [stays]
      exact ⟨rfl, last⟩

end Definition
end Quaked
