import Quaked.Proofs.Definition.Exactness

/-!
# Bases are bare

A base is what has no color when it is resolved. A box and flags stand behind a color only, so a
declaration without a color has neither, and as no base has them either, it takes over neither. So
every base that is known is `Bare`: choices and perhaps a model are all there is of it. This holds
after any number of calls, whether they succeed or fail (`Reached.wellFormed`), and it is why a class
never owes its color, its box or a flag to a base (`reached_bare_and_own`).
-/

namespace Quaked

open Text

/-- Whether an attribute is a choice. -/
def Attribute.IsChoice : Attribute → Prop
  | .flags _ _ => False
  | .choice _ _ => True

namespace Declaration

/-- A declaration that has nothing to give but choices and a model. -/
structure Bare (d : Declaration) : Prop where
  color : d.color = none
  bounds : d.bounds = none
  bases : d.bases = []
  choices : ∀ a ∈ d.attributes, a.IsChoice

/-- A declaration with the attributes of bases in front of its own, and with the first of their models
if it has none. -/
def inheriting (d : Declaration) (bases : List Declaration) : Declaration :=
  { d with
    attributes := bases.flatMap (·.attributes) ++ d.attributes
    model := d.model <|> bases.findSome? (·.model)
    bases := [] }

/-- Bare bases give attributes and a model. -/
theorem resolve_eq_inheriting {d : Declaration} {table : BaseTable}
    (bare : ∀ base ∈ table.basesOf d, base.Bare) :
    d.resolve table = d.inheriting (table.basesOf d) := by
  have color : (table.basesOf d).findSome? (·.color) = none :=
    List.findSome?_eq_none_iff.2 fun base mem => (bare base mem).color
  have bounds : (table.basesOf d).findSome? (·.bounds) = none :=
    List.findSome?_eq_none_iff.2 fun base mem => (bare base mem).bounds
  unfold resolve inheriting
  simp [color, bounds]

/-- Behind what bare bases give there are only choices if there are only choices to begin with. -/
theorem isChoice_of_inherited {bases : List Declaration} {own : List Attribute}
    (bare : ∀ base ∈ bases, base.Bare) (choices : ∀ a ∈ own, a.IsChoice) :
    ∀ a ∈ bases.flatMap (·.attributes) ++ own, a.IsChoice := by
  intro a mem
  rcases List.mem_append.1 mem with inherited | own
  · obtain ⟨base, among, mem⟩ := List.mem_flatMap.1 inherited
    exact (bare base among).choices a mem
  · exact choices a own

end Declaration

namespace BaseTable

/-- Every base of the table stands under its own name and is bare. -/
def WellFormed (table : BaseTable) : Prop :=
  ∀ entry ∈ table.entries, entry.1 = entry.2.name ∧ entry.2.Bare

variable {table : BaseTable} {name : String} {base : Declaration}

theorem WellFormed.insert (h : table.WellFormed) (bare : base.Bare) :
    (table.insert base).WellFormed := by
  intro entry mem
  rcases List.mem_cons.1 mem with rfl | mem
  · exact ⟨rfl, bare⟩
  · exact h entry (List.mem_filter.1 mem).1

theorem WellFormed.bare_of_get? (h : table.WellFormed) (found : table.get? name = some base) :
    base.Bare := by
  obtain ⟨front, behind, split, -⟩ := List.lookup_eq_some_iff.1 found
  exact (h (name, base) (split ▸ List.mem_append_right front List.mem_cons_self)).2

theorem WellFormed.bare_of_mem_basesOf (h : table.WellFormed) {d : Declaration} :
    ∀ base ∈ table.basesOf d, base.Bare := by
  intro base mem
  obtain ⟨_, -, found⟩ := List.mem_filterMap.1 mem
  exact h.bare_of_get? found

end BaseTable

namespace Definition

open Token Header Entry

variable {settings : Settings} {s s' : Session}

/-! ### One definition -/

/-- The entries of a definition add only choices. -/
theorem isChoice_of_entries (entries : List Entry) :
    ∀ a ∈ entries.filterMap choice?, a.IsChoice := by
  intro a mem
  obtain ⟨entry, -, is⟩ := List.mem_filterMap.1 mem
  cases entry <;> cases is
  trivial

/-- What a definition without a color declares is bare, whatever bare bases it refers to. -/
theorem Parts.bare_inheriting {p : Parts} {bases : List Declaration} (base : p.header = none)
    (bare : ∀ b ∈ bases, b.Bare) : (p.declaration.inheriting bases).Bare where
  color := by simp [Declaration.inheriting, Parts.declaration, base]
  bounds := by simp [Declaration.inheriting, Parts.declaration, base]
  bases := rfl
  choices := by
    refine Declaration.isChoice_of_inherited bare ?_
    rw [Parts.declaration, base]
    exact isChoice_of_entries p.entries

theorem Parts.isBase_declaration {p : Parts} : p.declaration.isBase = true ↔ p.header = none := by
  simp [Declaration.isBase, Parts.declaration]

/-- What a definition declares, with what it takes over from the bases that are known. -/
def Parts.completed (p : Parts) (table : BaseTable) : Declaration :=
  p.declaration.inheriting (table.basesOf p.declaration)

/-- What a definition that ends at the cursor comes to: without a header it is kept as a base, with one
it is a class. -/
inductive Yields (s : Session) (p : Parts) (c : Cursor) : Outcome → Session → Prop where
  | base (base : p.header = none) : Yields s p c (.base p.name)
      { p.passed s c with bases := s.bases.insert (p.completed s.bases) }
  | entity {header : Header} {e : EntityClass} (headed : p.header = some header)
    (presents : e.Presents (p.completed s.bases)) : Yields s p c (.entity e) (p.passed s c)

/-- Where the bases that are known are bare, a definition takes over choices and a model only, so its
header alone decides whether it is a base. -/
theorem concludes_iff_yields (h : s.bases.WellFormed) {p : Parts} {c : Cursor} {outcome : Outcome} :
    Concludes s p c outcome s' ↔ Yields s p c outcome s' := by
  have filled : p.declaration.Filled (p.known s.bases) (p.completed s.bases) := by
    rw [Parts.completed, ← Declaration.resolve_eq_inheriting h.bare_of_mem_basesOf]
    exact p.declaration.filled_resolve s.bases
  have color : (p.completed s.bases).color = p.header.map (·.color) := rfl
  constructor
  · intro concludes
    cases concludes with
    | base filled' base =>
      cases filled.unique filled'
      exact .base (Option.map_eq_none_iff.1 base)
    | entity filled' presents =>
      cases filled.unique filled'
      obtain ⟨header, headed, -⟩ := Option.map_eq_some_iff.1 presents.color
      exact .entity headed presents
  · intro yields
    cases yields with
    | base base => exact .base filled (Option.map_eq_none_iff.2 base)
    | entity headed presents => exact .entity filled presents

/-- What reading the next definition comes to: what the definition yields that is written there, or
nothing if there is none. -/
inductive Passes (settings : Settings) (s : Session) : Outcome → Session → Prop where
  | definition {p : Parts} {body c : Cursor} {outcome : Outcome} {s' : Session}
    (written : Written settings.dialect s.cursor p body c) (legible : Legible body.rest)
    (yields : Yields s p c outcome s') : Passes settings s outcome s'
  | finished {t : Token} {c : Cursor} (opening : Opening s.cursor t c) (last : t.kind = .endOfFile) :
    Passes settings s .finished { s with cursor := c }

theorem next_eq_ok_iff_passes {outcome : Outcome} (h : s.bases.WellFormed) :
    next settings s = .ok outcome s' ↔ Passes settings s outcome s' := by
  rw [next_eq_ok_iff]
  constructor
  · rintro (⟨p, body, c, written, legible, concludes⟩ | ⟨t, c, opening, last, rfl, rfl⟩)
    · exact .definition written legible ((concludes_iff_yields h).1 concludes)
    · exact .finished opening last
  · intro passes
    cases passes with
    | definition written legible yields =>
      exact .inl ⟨_, _, _, written, legible, (concludes_iff_yields h).2 yields⟩
    | finished opening last => exact .inr ⟨_, _, opening, last, rfl, rfl⟩

/-- A definition that fails leaves the bases as they are. -/
theorem bases_of_error {e : Error} (h : next settings s = .error e s') : s'.bases = s.bases := by
  have lasting : Lasting settings.dialect fun s' => s'.bases = s.bases :=
    ⟨fun _ _ same => same, fun _ _ same _ => same⟩
  rcases bind_eq_error_iff.1 h with failed | ⟨opened, s₁, front, h⟩
  · exact (keeps_lift lasting.moved _).of_error rfl failed
  have same : s₁.bases = s.bases := (keeps_lift lasting.moved _).of_ok rfl front
  split at h
  · rcases bind_eq_error_iff.1 h with failed | ⟨d, s₂, declared, h⟩
    · exact (keeps_declare lasting).of_error same failed
    · obtain ⟨p, _, c, -, -, rfl, rfl⟩ := declare_eq_ok_iff.1 declared
      obtain ⟨_, _, -, run⟩ := exists_concludes settings s₁ p c
      cases run.symm.trans h
  · cases h

/-- What the bases are, they are behind one more definition. -/
theorem keeps_wellFormed (settings : Settings) :
    Keeps (fun s => s.bases.WellFormed) (next settings) := by
  intro s before
  cases run : next settings s with
  | error e s' =>
    show s'.bases.WellFormed
    rw [bases_of_error run]
    exact before
  | ok outcome s' =>
    cases (next_eq_ok_iff_passes before).1 run with
    | definition _ _ yields =>
      cases yields with
      | base base => exact before.insert (Parts.bare_inheriting base before.bare_of_mem_basesOf)
      | entity => exact before
    | finished => exact before

/-! ### Any number of definitions -/

/-- The sessions that calls come to one after the other from the start of a text, whether they succeed
or fail. -/
inductive Reached (settings : Settings) (text : String) : Session → Prop where
  | start : Reached settings text (.ofString text)
  | call {s : Session} (before : Reached settings text s) :
    Reached settings text (final (next settings s))

theorem wellFormed_ofString (text : String) : (Session.ofString text).bases.WellFormed :=
  fun _ mem => absurd mem List.not_mem_nil

/-- The bases of every session that is reached are bare. -/
theorem Reached.wellFormed {text : String} (h : Reached settings text s) : s.bases.WellFormed := by
  induction h with
  | start => exact wellFormed_ofString text
  | call _ ih => exact keeps_wellFormed settings _ ih

end Definition

/-- A class shows a header: its color, its box if there is one, and its flags if there are any, between
choices that are taken over and choices of its own. -/
structure EntityClass.Shows (e : EntityClass) (header : Header) (inherited own : List Attribute) :
    Prop where
  color : e.color = header.color
  shape : ∀ bounds, (∃ model, e.shape = .point bounds model) ↔ header.bounds = some bounds
  attributes : e.attributes = inherited ++ header.attributes ++ own
  choices : ∀ a ∈ inherited ++ own, a.IsChoice
  flags : header.attributes = [] ∨
    ∃ options, header.attributes = [.flags Attribute.spawnflags options]

namespace Definition

open Token Header Entry

/-- A class that says what a definition with a header declares shows the header. -/
theorem shows_of_presents {p : Parts} {header : Header} {bases : List Declaration} {e : EntityClass}
    (headed : p.header = some header) (bare : ∀ b ∈ bases, b.Bare)
    (presents : e.Presents (p.declaration.inheriting bases)) :
    e.Shows header (bases.flatMap (·.attributes)) (p.entries.filterMap choice?) where
  color := by
    have color := presents.color
    simp [Declaration.inheriting, Parts.declaration, headed] at color
    exact color.symm
  shape := by
    intro bounds
    simp [presents.shape, Declaration.inheriting, Parts.declaration, headed]
  attributes := by
    simp [presents.attributes, Declaration.inheriting, Parts.declaration, headed]
  choices := Declaration.isChoice_of_inherited bare (isChoice_of_entries p.entries)
  flags := by
    unfold Header.attributes
    split
    · exact .inl rfl
    · exact .inr ⟨_, rfl⟩

/-- In every session that is reached the bases stand under their own names and are bare. So each class
that is read from there shows the header it is written with, and the bases it refers to give it nothing
but choices in front of that. -/
theorem reached_bare_and_own (settings : Settings) (text : String) (s : Session)
    (reached : Reached settings text s) :
    s.bases.WellFormed ∧ ∀ e s', next settings s = .ok (.entity e) s' →
      ∃ p body header, Written settings.dialect s.cursor p body s'.cursor ∧ p.header = some header ∧
        e.Shows header ((s.bases.basesOf p.declaration).flatMap (·.attributes))
          (p.entries.filterMap choice?) := by
  have wellFormed := reached.wellFormed
  refine ⟨wellFormed, ?_⟩
  intro e s' run
  cases (next_eq_ok_iff_passes wellFormed).1 run with
  | definition written _ yields =>
    cases yields with
    | entity headed presents =>
      have shows := shows_of_presents headed wellFormed.bare_of_mem_basesOf presents
      exact ⟨_, _, _, written, headed, shows⟩

/-- A base with a choice, and a class with a flag that refers to it. -/
def family : String :=
  "/*QUAKED b\n\x7b choice \"k\" (); \x7d*/ /*QUAKED n (1 0 0) ? f\n\x7b base(\"b\"); \x7d*/"

/-- What stands behind the mark of the class in the family. -/
def family.referring : List Char := redName " ? f\n\x7b base(\"b\"); \x7d*/".toList

/-- The place behind some characters of the family. -/
def family.behind (n : Nat) : Cursor := (Cursor.ofString family).skip n

/-- The base of the family. -/
def familyBase : Parts := ⟨"b", none, [.choice "k" []], ""⟩

open family in
theorem written_familyBase :
    Written {} (behind 0) familyBase (behind 29) (behind 31) ∧ Legible (behind 29).rest := by
  have mark : Stands (behind 0) ⟨.commentOpen, "/*QUAKED", ⟨1, 1⟩⟩ (behind 8) := rfl
  have word : Stands (behind 8) ⟨.word, "b", ⟨1, 10⟩⟩ (behind 10) := rfl
  have newline : Stands (behind 10) ⟨.newline, "\n", ⟨1, 11⟩⟩ (behind 11) := rfl
  have opening : Stands (behind 11) ⟨.openBrace, "\x7b", ⟨2, 1⟩⟩ (behind 12) := rfl
  have choice : Stands (behind 12) ⟨.word, "choice", ⟨2, 3⟩⟩ (behind 19) := rfl
  have key : Stands (behind 19) ⟨.quoted, "k", ⟨2, 10⟩⟩ (behind 23) := rfl
  have options : Stands (behind 23) ⟨.openParen, "(", ⟨2, 14⟩⟩ (behind 25) := rfl
  have none : Stands (behind 25) ⟨.closeParen, ")", ⟨2, 15⟩⟩ (behind 26) := rfl
  have semicolon : Stands (behind 26) ⟨.semicolon, ";", ⟨2, 16⟩⟩ (behind 27) := rfl
  have closing : Stands (behind 27) ⟨.closeBrace, "\x7d", ⟨2, 18⟩⟩ (behind 29) := rfl
  have close : Stands (behind 29) ⟨.commentClose, "*/", ⟨2, 19⟩⟩ (behind 31) := rfl
  have entry : EntryStands {} (behind 12) (.choice "k" []) (behind 27) :=
    .mk (.here choice nofun) rfl
      (.choice rfl key rfl (.here options nofun) rfl (.nil _) (.here none nofun) rfl)
      (.here semicolon nofun) rfl
  have body := Body.braces opening rfl (.cons entry (.nil _)) (.here closing nofun) rfl
  refine ⟨.mk (.mk (.nil _) nofun mark (.inl rfl)) rfl ?_, exists_next_iff.1 ⟨_, _, close⟩⟩
  exact .mk word rfl (.bare _) newline rfl body (remark_of_close close rfl)

/-- The class is read the same wherever it stands. -/
theorem written_familyClass {c : Cursor} (here : c.rest = family.referring) :
    ∃ p header, p.header = some header ∧ WrittenBehind {} c p (c.skip 29) (c.skip 31) ∧
      Legible (c.skip 29).rest := by
  have left (n : Nat) : (c.skip n).rest = family.referring.drop n := by rw [Cursor.rest_skip, here]
  obtain ⟨⟨word, named, isWord, -⟩, tokens, r, g, b, colors, colored⟩ := stands_redName here
  obtain ⟨brush, brushed, isBrush, mark⟩ := stands_of_rest .word 1 (left 10) rfl
  obtain ⟨flag, flagged, isFlag, -⟩ := stands_of_rest .word 1 (left 12) rfl
  obtain ⟨newline, ended, ends, -⟩ := stands_of_rest .newline 1 (left 14) rfl
  obtain ⟨opening, opened, opens, -⟩ := stands_of_rest .openBrace 1 (left 15) rfl
  obtain ⟨base, based, isBase, is⟩ := stands_of_rest .word 4 (left 16) rfl
  obtain ⟨before, parted, parts, -⟩ := stands_of_rest .openParen 1 (left 21) rfl
  obtain ⟨name, quoted, isName, -⟩ := stands_of_rest .quoted 3 (left 22) rfl
  obtain ⟨after, joined, joins, -⟩ := stands_of_rest .closeParen 1 (left 25) rfl
  obtain ⟨semicolon, stopped, stops, -⟩ := stands_of_rest .semicolon 1 (left 26) rfl
  obtain ⟨closing, closed, closes, -⟩ := stands_of_rest .closeBrace 1 (left 27) rfl
  obtain ⟨close, stands, isClose, -⟩ := stands_of_rest .commentClose 2 (left 29) rfl
  have header : Line (c.skip 2) (some _) (c.skip 14) :=
    .header (colors.append (.append (.cons brushed (.nil _)) (.cons flagged (.nil _))))
      (.mk colored (.mark isBrush mark) (by simp [IsFlag, isFlag])
        (by decide : 1 ≤ Attribute.flagLimit))
  have reference : Spaced (c.skip 21) [before, name, after] (c.skip 26) :=
    .cons (.here parted (by simp [parts])) (.cons (.here quoted (by simp [isName]))
      (.cons (.here joined (by simp [joins])) (.nil _)))
  have entry : EntryStands {} (c.skip 16) (.base name.value base.position) (c.skip 27) :=
    .mk (.here based (by simp [isBase])) isBase (.base is reference parts isName joins)
      (.here stopped (by simp [stops])) stops
  have body := Body.braces opened opens (.cons entry (.nil _)) (.here closed (by simp [closes])) closes
  have written := WrittenBehind.mk named isWord header ended ends body (remark_of_close stands isClose)
  exact ⟨_, _, rfl, written, exists_next_iff.1 ⟨_, _, stands⟩⟩

open family in
theorem reached_bare_and_own_family :
    ∃ s e s', Reached {} family s ∧ next {} s = .ok (.entity e) s' ∧ s.bases.WellFormed ∧
      ∃ p body header, Written {} s.cursor p body s'.cursor ∧ p.header = some header ∧
        e.Shows header ((s.bases.basesOf p.declaration).flatMap (·.attributes))
          (p.entries.filterMap choice?) := by
  obtain ⟨written, legible⟩ := written_familyBase
  have left : (behind 31).rest = " /*QUAKED".toList ++ referring := (Cursor.rest_skip _ _).trans rfl
  obtain ⟨mark, marked, opens, -⟩ := stands_of_rest .commentOpen 8 left rfl
  have inside : ((behind 31).skip 9).rest = referring := by
    rw [Cursor.rest_skip, left]
    rfl
  obtain ⟨p, header, headed, behind', legible'⟩ := written_familyClass inside
  have written' : Written {} (behind 31) p _ _ :=
    .mk (.mk (.nil _) (List.forall_mem_nil _) marked (.inl opens)) opens behind'
  generalize behind 31 = c at written written' legible'
  have unread : Reached {} family _ := .start
  have run : next {} (.ofString family) = .ok (.base _) _ :=
    (next_eq_ok_iff_passes unread.wellFormed).2 (.definition written legible (.base rfl))
  have reached : Reached {} family _ := .call unread
  rw [run] at reached
  have presents (table : BaseTable) : ((p.completed table).entityClass .gray).Presents (p.completed table) :=
    Declaration.presents_entityClass (Option.map_eq_some_iff.2 ⟨header, headed, rfl⟩) .gray
  have run' : next {} _ = .ok (.entity _) _ := (next_eq_ok_iff_passes reached.wellFormed).2
    (.definition written' legible' (.entity headed (presents _)))
  obtain ⟨wellFormed, own⟩ := reached_bare_and_own {} family _ reached
  exact ⟨_, _, _, reached, run', wellFormed, own _ _ run'⟩

end Definition
end Quaked
