import Quaked.Definition.File
import Quaked.Proofs.Reading

/-!
# What a session warns about

Reading never takes a warning back, and each warning that suggests a selector suggests one that the
fallback grammar has read (`Warranted`). So whatever further warnings of this kind leave true stays
true of all warnings of a session: over one definition (`keeps_next`), over a whole file
(`keeps_entities`), and also where reading fails. What entries earn is a warning for each selector of
the fallback grammar among them (`replaceable_mem_iff`).
-/

namespace Quaked

open Text

/-! ### Clauses -/

section Clauses

variable {dialect : Dialect} {clause : ModelClause} {c c' : Cursor}

/-- A clause is read by the preferred grammar, or by the other one where the preferred one fails. -/
theorem ModelClause.readEither_eq_ok_iff :
    readEither dialect c = .ok clause c' ↔
      (∃ e, readBy dialect.preferred c = .ok e c' ∧ clause = ⟨e, none⟩) ∨
      (∃ e failure c₁, readBy dialect.preferred c = .error failure c₁ ∧
        readBy dialect.fallback c = .ok e c' ∧ clause = ⟨e, some c.position⟩) := by
  unfold readEither
  cases preferred : readBy dialect.preferred c with
  | ok e c₁ =>
    constructor
    · intro h
      cases h
      exact .inl ⟨e, rfl, rfl⟩
    · rintro (⟨e', same, rfl⟩ | ⟨_, _, _, other, -⟩)
      · cases same
        rfl
      · cases other
  | error failure c₁ =>
    cases fallback : readBy dialect.fallback c with
    | ok e c₂ =>
      constructor
      · intro h
        cases h
        exact .inr ⟨e, failure, c₁, rfl, rfl, rfl⟩
      · rintro (⟨_, other, -⟩ | ⟨e', _, _, -, same, rfl⟩)
        · cases other
        · cases same
          rfl
    | error _ _ =>
      constructor
      · intro h
        cases h
      · rintro (⟨_, other, -⟩ | ⟨_, _, _, -, other, -⟩) <;> cases other

/-- The selector of an outdated clause has been read by the fallback grammar. -/
theorem ModelClause.read_of_outdated {position : Position} (h : read dialect c = .ok clause c')
    (outdated : clause.outdatedAt = some position) :
    ∃ c₁ c₂, dialect.fallback.read c₁ = .ok clause.selector c₂ := by
  obtain ⟨_, c₁, -, h⟩ := bind_eq_ok_iff.1 h
  rcases readEither_eq_ok_iff.1 h with ⟨e, -, rfl⟩ | ⟨e, _, _, -, fallback, rfl⟩
  · cases outdated
  · obtain ⟨e', c₂, read, fallback⟩ := bind_eq_ok_iff.1 fallback
    obtain ⟨_, c₃, -, fallback⟩ := bind_eq_ok_iff.1 fallback
    obtain ⟨rfl, -⟩ := pure_eq_ok_iff.1 fallback
    exact ⟨c₁, c₂, read⟩

end Clauses

/-! ### Entries -/

/-- A warning that suggests a selector suggests one that the fallback grammar has read. -/
def Warning.Warranted (dialect : Dialect) (w : Warning) : Prop :=
  ∀ e, w.notice = .replaceable e → ∃ c c', dialect.fallback.read c = .ok e c'

section Entries

variable {dialect : Dialect} {entry : Entry} {clause : ModelClause} {c c' : Cursor}

/-- Only the word `model` starts a clause. -/
theorem Entry.read_of_model {word : Token}
    (h : readRest dialect word c = .ok (.model clause) c') :
    ∃ c₁ c₂, ModelClause.read dialect c₁ = .ok clause c₂ := by
  unfold readRest at h
  split at h
  · iterate 5 obtain ⟨_, _, -, h⟩ := bind_eq_ok_iff.1 h
    cases (pure_eq_ok_iff.1 h).1
  split at h
  · iterate 3 obtain ⟨_, _, -, h⟩ := bind_eq_ok_iff.1 h
    cases (pure_eq_ok_iff.1 h).1
  split at h
  · iterate 3 obtain ⟨_, _, -, h⟩ := bind_eq_ok_iff.1 h
    cases (pure_eq_ok_iff.1 h).1
  split at h
  · obtain ⟨clause', c₁, read, h⟩ := bind_eq_ok_iff.1 h
    obtain ⟨same, -⟩ := pure_eq_ok_iff.1 h
    cases same
    exact ⟨c, c₁, read⟩
  · cases (pure_eq_ok_iff.1 h).1

/-- What an entry that has been read earns is warranted. -/
theorem warranted_of_readRest {word : Token} (h : Entry.readRest dialect word c = .ok entry c') :
    ∀ w ∈ Definition.warningsOf entry, w.Warranted dialect := by
  cases entry with
  | model clause =>
    obtain ⟨selector, outdatedAt⟩ := clause
    cases outdatedAt with
    | none => simp [Definition.warningsOf]
    | some position =>
      intro w mem e is
      rw [List.mem_singleton.1 mem] at is
      cases is
      obtain ⟨c₁, c₂, read⟩ := Entry.read_of_model h
      exact ModelClause.read_of_outdated read rfl
  | _ => simp [Definition.warningsOf]

end Entries

namespace Definition

/-! ### Sessions -/

section Lift

variable {α : Type} {reader : Reading α} {s s' : Session} {a : α}

/-- A result of reading in a session: the cursor has moved, and nothing else. -/
def within (s : Session) : EStateM.Result Error Cursor α → EStateM.Result Error Session α
  | .ok a c => .ok a { s with cursor := c }
  | .error e c => .error e { s with cursor := c }

theorem lift_apply : (liftM reader : Parsing α) s = within s (reader s.cursor) := rfl

theorem lift_eq_ok_iff : (liftM reader : Parsing α) s = .ok a s' ↔
    ∃ c, reader s.cursor = .ok a c ∧ s' = { s with cursor := c } := by
  rw [lift_apply]
  cases run : reader s.cursor with
  | ok a' c =>
    constructor
    · intro h
      cases h
      exact ⟨c, rfl, rfl⟩
    · rintro ⟨c', same, rfl⟩
      cases same
      rfl
  | error e c =>
    constructor
    · intro h
      cases h
    · rintro ⟨c', same, -⟩
      cases same

/-- A reader in a session, and what goes on behind it. -/
theorem lift_bind_eq_ok_iff {β : Type} {f : α → Parsing β} {b : β} :
    ((liftM reader : Parsing α) >>= f) s = .ok b s' ↔
      ∃ a c, reader s.cursor = .ok a c ∧ f a { s with cursor := c } = .ok b s' := by
  rw [bind_eq_ok_iff]
  constructor
  · rintro ⟨a, _, lifted, rest⟩
    obtain ⟨c, read, rfl⟩ := lift_eq_ok_iff.1 lifted
    exact ⟨a, c, read, rest⟩
  · rintro ⟨a, c, read, rest⟩
    exact ⟨a, _, lift_eq_ok_iff.2 ⟨c, read, rfl⟩, rest⟩

/-- A reader in a session that succeeds is followed by what goes on behind it. -/
theorem lift_bind_of_ok {β : Type} {f : α → Parsing β} {c : Cursor} (h : reader s.cursor = .ok a c) :
    ((liftM reader : Parsing α) >>= f) s = f a { s with cursor := c } :=
  bind_of_ok (lift_eq_ok_iff.2 ⟨c, h, rfl⟩)

theorem keeps_lift {P : Session → Prop} (moved : ∀ s c, P s → P { s with cursor := c })
    (reader : Reading α) : Keeps P (liftM reader : Parsing α) := by
  intro s before
  rw [lift_apply]
  cases reader s.cursor with
  | ok a c => exact moved s c before
  | error e c => exact moved s c before

end Lift

section Invariant

variable {dialect : Dialect} {settings : Settings}

/-- `P` stays true when the cursor moves and when warranted warnings are added. -/
structure Lasting (dialect : Dialect) (P : Session → Prop) : Prop where
  moved : ∀ s c, P s → P { s with cursor := c }
  warned : ∀ s added, P s → (∀ w ∈ added, w.Warranted dialect) →
    P { s with warnings := s.warnings ++ added }

section Parts

variable {P : Session → Prop} (lasting : Lasting dialect P)
include lasting

theorem keeps_warn {added : List Warning} (warranted : ∀ w ∈ added, w.Warranted dialect) :
    Keeps P (warn added) :=
  fun s before => lasting.warned s added before warranted

theorem keeps_readEntry (entries : List Entry) : Keeps P (readEntry dialect entries) := by
  refine (keeps_lift lasting.moved _).bind fun t => ?_
  split
  · exact .pure _
  refine Keeps.bind_of (Q := fun entry => ∀ w ∈ warningsOf entry, w.Warranted dialect)
    (keeps_lift lasting.moved _) ?_ fun entry warranted => ?_
  · intro s entry s' run
    obtain ⟨c, read, -⟩ := lift_eq_ok_iff.1 run
    exact warranted_of_readRest read
  · refine (keeps_warn lasting warranted).bind fun _ => ?_
    exact (keeps_lift lasting.moved _).bind fun _ => .pure _

theorem keeps_entries : Keeps P (entries dialect) := by
  refine (keeps_lift lasting.moved _).bind fun t => ?_
  split
  · exact .pure _
  refine (keeps_lift lasting.moved _).bind fun _ => ?_
  exact Keeps.iterate (keeps_readEntry lasting) []

theorem keeps_declare : Keeps P (declare dialect) := by
  refine (keeps_lift lasting.moved _).bind fun header => ?_
  refine (keeps_entries lasting).bind fun entries => ?_
  refine (keeps_lift lasting.moved _).bind fun description => ?_
  exact (keeps_lift lasting.moved _).bind fun _ => .pure _

/-- A reference to an unknown base suggests no selector. -/
theorem keeps_resolve (d : Declaration) : Keeps P (resolve d) := by
  intro s before
  refine (keeps_warn lasting ?_).bind (fun _ => .pure _) s before
  intro w mem e is
  obtain ⟨_, -, rfl⟩ := List.mem_map.1 mem
  cases is

end Parts

variable {P : List Warning → Prop}

/-- `P` stays true when warranted warnings are added. -/
def Extensible (dialect : Dialect) (P : List Warning → Prop) : Prop :=
  ∀ warnings added, P warnings → (∀ w ∈ added, w.Warranted dialect) → P (warnings ++ added)

theorem Extensible.lasting (extensible : Extensible dialect P) :
    Lasting dialect fun s => P s.warnings where
  moved _ _ before := before
  warned s added before warranted := extensible s.warnings added before warranted

variable (extensible : Extensible settings.dialect P)
include extensible

/-- The end of a definition adds no warnings but those of its references. -/
theorem keeps_conclusion (d : Declaration) :
    Keeps (fun s => P s.warnings) (do
      let d ← resolve d
      if d.isBase then keep d else return .entity (d.entityClass settings.defaultColor)) := by
  refine (keeps_resolve extensible.lasting d).bind fun d => ?_
  split
  · exact fun s before => before
  · exact .pure _

/-- What warranted warnings leave true holds behind a definition. -/
theorem keeps_next : Keeps (fun s => P s.warnings) (next settings) := by
  refine (keeps_lift extensible.lasting.moved _).bind fun opened => ?_
  split
  · exact (keeps_declare extensible.lasting).bind (keeps_conclusion extensible)
  · exact .pure _

theorem keeps_entity? (entities : List EntityClass) :
    Keeps (fun s => P s.warnings) (entity? settings entities) := by
  refine (keeps_next extensible).bind fun outcome => ?_
  refine Keeps.bind (fun s before => before) fun _ => ?_
  cases outcome <;> exact .pure _

/-- What warranted warnings leave true holds behind a file. -/
theorem keeps_entities : Keeps (fun s => P s.warnings) (entities settings) :=
  Keeps.iterate (keeps_entity? extensible) []

end Invariant

theorem warranted_extensible (dialect : Dialect) :
    Extensible dialect fun warnings => ∀ w ∈ warnings, w.Warranted dialect := by
  intro warnings added before warranted w mem
  rcases List.mem_append.1 mem with mem | mem
  · exact before w mem
  · exact warranted w mem

/-- Where something has been warned about, this stays so. -/
theorem ne_nil_extensible (dialect : Dialect) : Extensible dialect (· ≠ []) := by
  intro warnings added before _ none
  exact before (List.append_eq_nil_iff.1 none).1

/-- The warnings of a file are warranted. -/
theorem warranted_of_read (settings : Settings) (text : String) :
    ∀ w ∈ (File.read settings text).session.warnings, w.Warranted settings.dialect := by
  have behind := keeps_entities (warranted_extensible settings.dialect) (.ofString text) nofun
  unfold File.read
  cases run : entities settings (.ofString text) with
  | ok entities s =>
    rw [run] at behind
    exact behind
  | error e s =>
    rw [run] at behind
    exact behind

/-- So are those of one call after the other. -/
theorem warranted_of_calls (settings : Settings) (s : Session) (limit : Nat) :
    ∀ call ∈ File.calls settings s limit, ∀ w ∈ call.warnings, w.Warranted settings.dialect := by
  induction limit generalizing s with
  | zero =>
    intro call mem
    cases mem
  | succ limit ih =>
    have behind := keeps_next (warranted_extensible settings.dialect) { s with warnings := [] } nofun
    intro call mem
    rw [File.calls] at mem
    cases run : next settings { s with warnings := [] } with
    | ok outcome s' =>
      rw [run] at behind mem
      rcases List.mem_cons.1 mem with rfl | mem
      · exact behind
      · exact ih s' call mem
    | error e s' =>
      rw [run] at behind mem
      rcases List.mem_cons.1 mem with rfl | mem
      · exact behind
      · exact ih s' call mem

/-! ### One definition -/

/-- The selector of an entry that is a clause. -/
def selector? : Entry → Option Selector
  | .model clause => some clause.selector
  | _ => none

theorem foldl_add (d : Declaration) (entries : List Entry) :
    (entries.foldl add d).model = ((entries.filterMap selector?).getLast?).or d.model := by
  induction entries generalizing d with
  | nil => rfl
  | cons entry entries ih =>
    rw [List.foldl_cons, ih, List.filterMap_cons]
    cases entry with
    | model clause =>
      simp only [selector?, add]
      cases entries.filterMap selector? with
      | nil => rfl
      | cons e es => simp [List.getLast?_cons]
    | _ => rfl

/-- The warning that an entry earns if it is a selector of the fallback grammar: to write that selector
another way, where it starts. -/
def outdated? : Entry → Option Warning
  | .model ⟨selector, some position⟩ => some ⟨.replaceable selector, position⟩
  | _ => none

theorem flatMap_warningsOf (entries : List Entry) :
    entries.flatMap warningsOf = entries.filterMap outdated? := by
  induction entries with
  | nil => rfl
  | cons entry entries ih =>
    rw [List.flatMap_cons, List.filterMap_cons, ih]
    cases entry with
    | model clause =>
      obtain ⟨selector, outdatedAt⟩ := clause
      cases outdatedAt <;> rfl
    | _ => rfl

/-- What is suggested is suggested for a clause that starts there. -/
theorem replaceable_mem_iff {entries : List Entry} {e : Selector} {position : Position} :
    ⟨.replaceable e, position⟩ ∈ entries.filterMap outdated? ↔
      .model ⟨e, some position⟩ ∈ entries := by
  rw [List.mem_filterMap]
  constructor
  · rintro ⟨entry, mem, is⟩
    cases entry with
    | model clause =>
      obtain ⟨selector, outdatedAt⟩ := clause
      cases outdatedAt with
      | none => cases is
      | some _ =>
        cases is
        exact mem
    | _ => cases is
  · exact fun mem => ⟨_, mem, rfl⟩

end Definition
end Quaked
