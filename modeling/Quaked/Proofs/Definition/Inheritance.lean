import Mathlib.Data.List.Forall2
import Quaked.Definition.File
import Quaked.Proofs.Definition.Bases

/-!
# What a file inherits

What a class takes over can be read off the text alone, without a table that changes on the way: a
reference means the latest declaration before it that has the name and no color, with what that one
takes over itself (`baseNamed`). A later declaration of the same name does not matter, nor does a class
of that name.

* `Knows.of_base`, `Knows.of_entity`: along the definitions of a file the table of bases says just that.
* `File.read_eq_resolved_iff`: a file that is read has the classes and the warnings of its definitions,
  each resolved against the ones before it.
-/

namespace Quaked

open Text Token

/-! ### References -/

/-- The base that a name means behind some declarations, the latest of them first: the first that has
the name and no color, with what it takes over from the bases that its references mean. -/
def baseNamed : List Declaration → String → Option Declaration
  | [], _ => none
  | d :: earlier, name =>
    if d.color.isNone ∧ d.name = name then
      some (d.inheriting (d.bases.filterMap fun reference => baseNamed earlier reference.1))
    else baseNamed earlier name

namespace Declaration

/-- A declaration behind earlier ones, with what it takes over from the bases that its references
mean. -/
def behind (d : Declaration) (earlier : List Declaration) : Declaration :=
  d.inheriting (d.bases.filterMap fun reference => baseNamed earlier reference.1)

/-- The references of a declaration that mean nothing behind earlier ones. -/
def unresolved (d : Declaration) (earlier : List Declaration) : List (String × Position) :=
  d.bases.filter fun reference => (baseNamed earlier reference.1).isNone

end Declaration

namespace Definition

/-- The definitions that stand between a cursor and the end of the file, and nothing else is there but
tokens that open none. -/
inductive Definitions (dialect : Dialect) : Cursor → List Parts → Prop where
  | nil {c c' : Cursor} {t : Token} (opening : Opening c t c') (last : t.kind = .endOfFile) :
    Definitions dialect c []
  | cons {c body c' : Cursor} {p : Parts} {ps : List Parts} (written : Written dialect c p body c')
    (legible : Legible body.rest) (rest : Definitions dialect c' ps) :
    Definitions dialect c (p :: ps)

/-- What definitions declare one after the other behind earlier declarations, each with what it takes
over. -/
def resolvedBehind (earlier : List Declaration) : List Parts → List Declaration
  | [] => []
  | p :: later => p.declaration.behind earlier :: resolvedBehind (p.declaration :: earlier) later

/-- What definitions are warned about one after the other: each selector of the fallback grammar in a
definition, then each of its references that means nothing. -/
def warningsBehind (earlier : List Declaration) : List Parts → List Warning
  | [] => []
  | p :: later =>
    p.entries.filterMap outdated? ++
      (p.declaration.unresolved earlier).map (fun reference => ⟨.unknownBase reference.1, reference.2⟩) ++
      warningsBehind (p.declaration :: earlier) later

/-- The classes present the declarations that have a color, in order and field by field. -/
def Present (es : List EntityClass) (ds : List Declaration) : Prop :=
  List.Forall₂ EntityClass.Presents es (ds.filter fun d => d.color.isSome)

end Definition

/-! ### The table of bases -/

theorem BaseTable.get?_insert (table : BaseTable) (base : Declaration) (name : String) :
    (table.insert base).get? name = if base.name = name then some base else table.get? name := by
  unfold insert get?
  rw [List.lookup_cons]
  by_cases same : base.name = name
  · simp [same]
  · have other : (name == base.name) = false := beq_eq_false_iff_ne.2 (Ne.symm same)
    rw [other, if_neg same]
    dsimp only
    induction table.entries with
    | nil => rfl
    | cons entry entries ih =>
      rw [List.filter_cons, List.lookup_cons]
      split
      · rw [List.lookup_cons, ih]
      · rename_i dropped
        have key : entry.1 = base.name := by simpa using dropped
        rw [ih, key, other]

namespace Definition

variable {settings : Settings} {s s' : Session} {earlier : List Declaration} {p : Parts} {c : Cursor}

/-- A session knows the bases of the declarations that have been read: its table is well formed and
says of every name what it means behind them. -/
structure Knows (s : Session) (earlier : List Declaration) : Prop where
  wellFormed : s.bases.WellFormed
  get? : ∀ name, s.bases.get? name = baseNamed earlier name

theorem Knows.completed_eq (h : Knows s earlier) (p : Parts) :
    p.completed s.bases = p.declaration.behind earlier := by
  unfold Parts.completed BaseTable.basesOf Declaration.behind
  simp only [h.get?]

theorem Knows.warnings_eq (h : Knows s earlier) (p : Parts) :
    p.warnings s.bases = p.entries.filterMap outdated? ++
      (p.declaration.unresolved earlier).map fun reference =>
        ⟨.unknownBase reference.1, reference.2⟩ := by
  unfold Parts.warnings
  simp only [h.get?]
  rfl

/-- Behind a base its name means what it declares, and every other name what it meant before. -/
theorem Knows.of_base (h : Knows s earlier) (base : p.header = none)
    (bases : s'.bases = s.bases.insert (p.completed s.bases)) :
    Knows s' (p.declaration :: earlier) where
  wellFormed := by
    rw [bases]
    exact h.wellFormed.insert (Parts.bare_inheriting base h.wellFormed.bare_of_mem_basesOf)
  get? name := by
    have colorless : p.declaration.color.isNone = true := Parts.isBase_declaration.2 base
    rw [bases, BaseTable.get?_insert, h.get?, h.completed_eq, baseNamed]
    simp only [colorless, true_and]
    rfl

/-- Behind a class every name means what it meant before. -/
theorem Knows.of_entity {header : Header} (h : Knows s earlier) (headed : p.header = some header)
    (bases : s'.bases = s.bases) : Knows s' (p.declaration :: earlier) where
  wellFormed := bases ▸ h.wellFormed
  get? name := by
    have colored : p.declaration.color.isNone = false := by simp [Parts.declaration, headed]
    rw [bases, h.get?, baseNamed, colored]
    simp

/-! ### One definition -/

/-- Some classes with the one that a definition makes, or none if there is no definition. -/
def adds (entities : List EntityClass) : Outcome → Option (List EntityClass)
  | .finished => none
  | .base _ => some entities
  | .entity e => some (entities ++ [e])

/-- A session that has noted how far the file is read. -/
def noted (s : Session) : Session := { s with progress := s.progress ++ [s.cursor.progress] }

@[simp] theorem noted_warnings (s : Session) : (noted s).warnings = s.warnings := rfl

theorem Knows.noted (h : Knows s earlier) : Knows (noted s) earlier := ⟨h.wellFormed, h.get?⟩

theorem entity?_eq_ok_iff {es : List EntityClass} {answer : Option (List EntityClass)}
    (h : s.bases.WellFormed) :
    entity? settings es s = .ok answer s' ↔ ∃ outcome s₁, Passes settings s outcome s₁ ∧
      answer = adds es outcome ∧ s' = noted s₁ := by
  constructor
  · intro run
    obtain ⟨outcome, s₁, read, run⟩ := bind_eq_ok_iff.1 run
    obtain ⟨⟨⟩, s₂, noted, run⟩ := bind_eq_ok_iff.1 run
    cases noted
    refine ⟨outcome, s₁, (next_eq_ok_iff_passes h).1 read, ?_⟩
    cases outcome <;> cases run <;> exact ⟨rfl, rfl⟩
  · rintro ⟨outcome, s₁, passes, rfl, rfl⟩
    refine bind_eq_ok_iff.2 ⟨outcome, s₁, (next_eq_ok_iff_passes h).2 passes, ?_⟩
    refine bind_eq_ok_iff.2 ⟨(), _, rfl, ?_⟩
    cases outcome <;> rfl

/-- A session behind one more definition: it knows what is declared there, and is warned of what there
is to warn about. -/
structure GoesOn (s : Session) (earlier : List Declaration) (p : Parts) (s' : Session) : Prop where
  knows : Knows s' (p.declaration :: earlier)
  warnings : s'.warnings = s.warnings ++ warningsBehind earlier [p]

theorem Yields.goesOn {outcome : Outcome} (h : Knows s earlier)
    (yields : Yields s p c outcome s') : GoesOn s earlier p s' where
  knows := by
    cases yields with
    | base base => exact h.of_base base rfl
    | entity headed => exact h.of_entity headed rfl
  warnings := by
    rw [warningsBehind, warningsBehind, List.append_nil, ← h.warnings_eq]
    cases yields <;> rfl

theorem Yields.cursor_eq {outcome : Outcome} (yields : Yields s p c outcome s') :
    s'.cursor = c := by
  cases yields <;> rfl

/-- The class of a definition presents what it declares behind the earlier ones, if that has a color. -/
theorem Yields.adds_eq {outcome : Outcome} (h : Knows s earlier)
    (yields : Yields s p c outcome s') (es : List EntityClass) :
    ∃ new, adds es outcome = some (es ++ new) ∧ Present new [p.declaration.behind earlier] := by
  cases yields with
  | base base =>
    have colorless : (p.declaration.behind earlier).color = none := Option.map_eq_none_iff.2 base
    refine ⟨[], by rw [adds, List.append_nil], ?_⟩
    rw [Present, List.filter_singleton, colorless]
    exact .nil
  | @entity _ e headed presents =>
    rw [h.completed_eq] at presents
    refine ⟨[e], rfl, ?_⟩
    rw [Present, List.filter_singleton, presents.color]
    exact .cons presents .nil

/-! ### All definitions -/

theorem Present.append {es es' : List EntityClass} {ds ds' : List Declaration} (first : Present es ds)
    (second : Present es' ds') : Present (es ++ es') (ds ++ ds') := by
  rw [Present, List.filter_append]
  exact List.rel_append first second

/-- The classes that present declarations are determined by them. -/
theorem Present.unique {es es' : List EntityClass} {ds : List Declaration} (h : Present es ds)
    (h' : Present es' ds) : es = es' :=
  List.left_unique_forall₂' (fun _ _ _ presents presents' => presents.unique presents') h h'

/-- A class among definitions presents what one of them declares behind those before it. -/
theorem Present.exists_of_mem {ps : List Parts} {es : List EntityClass} {e : EntityClass}
    (h : Present es (resolvedBehind earlier ps)) (mem : e ∈ es) :
    ∃ p ∈ ps, ∃ before, e.Presents (p.declaration.behind before) := by
  induction ps generalizing earlier es with
  | nil =>
    cases List.forall₂_nil_right_iff.1 h
    cases mem
  | cons p later ih =>
    have rest {es : List EntityClass} (h : Present es (resolvedBehind (p.declaration :: earlier) later))
        (mem : e ∈ es) : ∃ q ∈ p :: later, ∃ before, e.Presents (q.declaration.behind before) := by
      obtain ⟨q, among, declared⟩ := ih h mem
      exact ⟨q, List.mem_cons_of_mem p among, declared⟩
    rw [Present, resolvedBehind, List.filter_cons] at h
    split at h
    · obtain ⟨first, others, presents, presents', rfl⟩ := List.forall₂_cons_right_iff.1 h
      rcases List.mem_cons.1 mem with rfl | mem
      · exact ⟨p, List.mem_cons_self, earlier, presents⟩
      · exact rest presents' mem
    · exact rest h mem

theorem warningsBehind_cons (earlier : List Declaration) (p : Parts) (ps : List Parts) :
    warningsBehind earlier (p :: ps) =
      warningsBehind earlier [p] ++ warningsBehind (p.declaration :: earlier) ps := by
  simp [warningsBehind]

/-- A round that goes on has read a definition. -/
theorem next_of_entity? {es es' : List EntityClass}
    (run : entity? settings es s = .ok (some es') s') : ∃ outcome s₁,
      next settings s = .ok outcome s₁ ∧ outcome ≠ .finished ∧ s'.cursor = s₁.cursor := by
  obtain ⟨outcome, s₁, read, run⟩ := bind_eq_ok_iff.1 run
  obtain ⟨⟨⟩, s₂, noted, run⟩ := bind_eq_ok_iff.1 run
  cases noted
  refine ⟨outcome, s₁, read, ?_⟩
  cases outcome with
  | finished => cases (pure_eq_ok_iff.1 run).1
  | base name =>
    cases run
    exact ⟨nofun, rfl⟩
  | entity e =>
    cases run
    exact ⟨nofun, rfl⟩

/-- Each round leaves less to read. -/
theorem unread_entity? {es es' : List EntityClass}
    (run : entity? settings es s = .ok (some es') s') : s'.unread < s.unread := by
  obtain ⟨outcome, s₁, read, declares, behind⟩ := next_of_entity? run
  have less : s₁.unread < s.unread := unread_next_lt read declares
  rw [Session.unread, behind]
  exact less

/-- The rounds over a file read its definitions, and what they come to is what these declare behind
the earlier ones. -/
theorem definitions_of_rounds {es classes : List EntityClass}
    (rounds : Rounds (entity? settings) es s classes s') (h : Knows s earlier) :
    ∃ ps new, Definitions settings.dialect s.cursor ps ∧ classes = es ++ new ∧
      Present new (resolvedBehind earlier ps) ∧ s'.warnings = s.warnings ++ warningsBehind earlier ps := by
  induction rounds generalizing earlier with
  | last run =>
    obtain ⟨outcome, s₁, passes, answer, rfl⟩ := (entity?_eq_ok_iff h.wellFormed).1 run
    cases passes with
    | definition _ _ yields =>
      obtain ⟨_, added, -⟩ := yields.adds_eq h _
      cases answer.trans added
    | finished opening last =>
      exact ⟨[], [], .nil opening last, (List.append_nil _).symm, .nil, (List.append_nil _).symm⟩
  | more run _ ih =>
    obtain ⟨outcome, s₁, passes, answer, rfl⟩ := (entity?_eq_ok_iff h.wellFormed).1 run
    cases passes with
    | @definition p body c _ _ written legible yields =>
      obtain ⟨knows, warnings⟩ := yields.goesOn h
      obtain ⟨first, added, presents⟩ := yields.adds_eq h _
      cases answer.trans added
      obtain ⟨ps, others, rest, rfl, presents', warned⟩ := ih knows.noted
      refine ⟨p :: ps, first ++ others, .cons written legible (yields.cursor_eq ▸ rest), ?_,
        presents.append presents', ?_⟩
      · rw [List.append_assoc]
      · rw [warned, noted_warnings, warnings, warningsBehind_cons earlier p ps, List.append_assoc]
    | finished => cases answer

/-- Definitions that stand up to the end of a file are read, round by round. -/
theorem rounds_of_definitions {ps : List Parts} (es : List EntityClass)
    (definitions : Definitions settings.dialect c ps) (here : s.cursor = c) (h : Knows s earlier) :
    ∃ new s', Rounds (entity? settings) es s (es ++ new) s' ∧ Present new (resolvedBehind earlier ps) ∧
      s'.warnings = s.warnings ++ warningsBehind earlier ps := by
  induction definitions generalizing s earlier es with
  | @nil _ c' _ opening last =>
    subst here
    have run : entity? settings es s = .ok none (noted { s with cursor := c' }) :=
      (entity?_eq_ok_iff h.wellFormed).2 ⟨_, _, .finished opening last, rfl, rfl⟩
    refine ⟨[], noted { s with cursor := c' }, ?_, .nil, (List.append_nil s.warnings).symm⟩
    rw [List.append_nil]
    exact .last run
  | @cons c body c' p ps written legible _ ih =>
    subst here
    obtain ⟨outcome, s₁, concludes, -⟩ := exists_concludes settings s p c'
    have yields := (concludes_iff_yields h.wellFormed).1 concludes
    obtain ⟨knows, warnings⟩ := yields.goesOn h
    obtain ⟨first, added, presents⟩ := yields.adds_eq h es
    have run : entity? settings es s = .ok (some (es ++ first)) (noted s₁) :=
      (entity?_eq_ok_iff h.wellFormed).2 ⟨_, _, .definition written legible yields, added.symm, rfl⟩
    have behind : (noted s₁).cursor = c' := yields.cursor_eq
    obtain ⟨others, s', rounds, presents', warned⟩ := ih (es ++ first) behind knows.noted
    rw [List.append_assoc] at rounds
    refine ⟨first ++ others, s', .more run rounds, presents.append presents', ?_⟩
    rw [warned, noted_warnings, warnings, warningsBehind_cons earlier p ps, List.append_assoc]

/-- Before anything is read no name means anything. -/
theorem knows_ofString (text : String) : Knows (.ofString text) [] where
  wellFormed := wellFormed_ofString text
  get? _ := rfl

end Definition

namespace File

open Definition

theorem read_eq_ok_iff {settings : Settings} {text : String} {classes : List EntityClass}
    {warnings : List Warning} :
    (read settings text).result = .ok classes ∧ (read settings text).session.warnings = warnings ↔
      ∃ s', Rounds (entity? settings) [] (.ofString text) classes s' ∧ s'.warnings = warnings := by
  have loop (s' : Session) : entities settings (.ofString text) = .ok classes s' ↔ _ :=
    iterate_eq_ok_iff unread_entity?
  simp only [← loop]
  unfold read
  cases entities settings (.ofString text) with
  | ok classes' s' =>
    constructor
    · rintro ⟨same, rfl⟩
      cases same
      exact ⟨s', rfl, rfl⟩
    · rintro ⟨_, same, rfl⟩
      cases same
      exact ⟨rfl, rfl⟩
  | error e s' =>
    constructor
    · rintro ⟨same, -⟩
      cases same
    · rintro ⟨_, same, -⟩
      cases same

/-- The classes of a file that is read are those of the definitions in it. -/
theorem definitions_of_read {settings : Settings} {text : String} {classes : List EntityClass}
    (h : (read settings text).result = .ok classes) :
    ∃ ps, Definitions settings.dialect (.ofString text) ps ∧ Present classes (resolvedBehind [] ps) := by
  obtain ⟨s', rounds, -⟩ := read_eq_ok_iff.1 ⟨h, rfl⟩
  obtain ⟨ps, _, definitions, rfl, presents, -⟩ := definitions_of_rounds rounds (knows_ofString text)
  exact ⟨ps, definitions, presents⟩

/-- A file is read exactly if definitions stand in it up to its end. Its classes present what the
definitions with a color declare, in order, each with what it takes over from the latest bases before
it. Its warnings are those of the definitions in order: for each first one for every selector of the
fallback grammar, and then one for every reference that means no base. -/
theorem read_eq_resolved_iff (settings : Settings) (text : String) (classes : List EntityClass)
    (warnings : List Warning) :
    (read settings text).result = .ok classes ∧ (read settings text).session.warnings = warnings ↔
      ∃ ps, Definitions settings.dialect (.ofString text) ps ∧
        Present classes (resolvedBehind [] ps) ∧ warnings = warningsBehind [] ps := by
  rw [read_eq_ok_iff]
  constructor
  · rintro ⟨s', rounds, rfl⟩
    obtain ⟨ps, _, definitions, rfl, presents, warned⟩ :=
      definitions_of_rounds rounds (knows_ofString text)
    exact ⟨ps, definitions, presents, warned⟩
  · rintro ⟨ps, definitions, presents, rfl⟩
    obtain ⟨new, s', rounds, presents', warned⟩ :=
      rounds_of_definitions [] definitions rfl (knows_ofString text)
    cases presents.unique presents'
    exact ⟨s', rounds, warned⟩

end File
end Quaked
