import Mathlib.Data.List.Forall2
import Quaked.Proofs.Definition.Warnings
import Quaked.Proofs.Selector.Movement

/-!
# Definitions in step

At aligned cursors the same definition is read, and the same failures and warnings come at positions
of aligned cursors. A position is also kept in a reference to a base and in a selector of the fallback
grammar until they are warned about, so entries, declarations and sessions are related as far as these
positions are: `Refers` and `Opens` say what stands where they point.

* `Definition.inStep_next`, `Definition.inStep_entities`: one definition, and a whole file.
-/

namespace Quaked

open Text Token

variable {R : Cursor → Cursor → Prop} (aligned : Aligned R)

/-! ### Headers -/

namespace Header

include aligned

theorem inStep_readNumber (F : Format) :
    InStep R (Blames R) Eq (readNumber F) (readNumber F) := by
  refine (inStep_nextOf aligned _).bind fun t t' same => ?_
  rw [same.text]
  cases Number.ofString? t.text with
  | some x => exact .pure rfl
  | none => exact .complain _ same.1

theorem inStep_readTriple (F : Format) :
    InStep R (Blames R) Eq (readTriple F) (readTriple F) := by
  have number := inStep_readNumber aligned F
  refine (inStep_nextOf aligned _).bind fun _ _ _ => number.bind_eq fun x => ?_
  refine number.bind_eq fun y => number.bind_eq fun z => ?_
  exact (inStep_nextOf aligned _).bind fun _ _ _ => .pure rfl

theorem inStep_readBox : InStep R (Blames R) Eq readBox readBox := by
  have vector : InStep R (Blames R) Eq readVector readVector :=
    (inStep_readTriple aligned _).bind_eq fun _ => .pure rfl
  exact vector.bind_eq fun a => vector.bind_eq fun b => .pure rfl

theorem inStep_readExtent : InStep R (Blames R) Eq readExtent readExtent := by
  refine (inStep_peekOf aligned _).bind fun t t' same => ?_
  rw [same.kind, same.text]
  split
  · exact (inStep_readBox aligned).bind_eq fun _ => .pure rfl
  split
  · exact (inStep_next aligned).bind fun _ _ _ => .pure rfl
  · exact .pure rfl

theorem inStep_readFlag? (flags : List String) :
    InStep R (Blames R) Eq (readFlag? flags) (readFlag? flags) := by
  refine (inStep_peek aligned).bind fun t t' same => ?_
  rw [same.isOneOf]
  split
  · refine (inStep_next aligned).bind fun u u' same' => ?_
    rw [same'.kind, same'.text]
    dsimp only
    split
    · exact .pure rfl
    · exact .complain _ same'.1
  · exact .pure rfl

theorem inStep_read : InStep R (Blames R) Eq read read := by
  refine InStep.bind_eq ?_ fun color => ?_
  · exact (inStep_readTriple aligned _).bind_eq fun _ => .pure rfl
  refine (inStep_readExtent aligned).bind_eq fun bounds => ?_
  exact (InStep.iterate_eq aligned.unread (inStep_readFlag? aligned) []).bind_eq fun _ => .pure rfl

end Header

/-! ### What positions point at -/

/-- An entry that refers to a base of the name starts at the cursor. -/
inductive Refers (name : String) (c : Cursor) : Prop where
  | mk {word opening quoted closing : Token} {c₁ c₂ : Cursor} (here : word.position = c.position)
    (named : Stands c word c₁) (isWord : word.kind = .word) (is : word.text = "base")
    (run : Spaced c₁ [opening, quoted, closing] c₂) (opens : opening.kind = .openParen)
    (isName : quoted.kind = .quoted) (closes : closing.kind = .closeParen)
    (value : quoted.value = name)

/-- The cursor is right behind the parenthesis of a model, whose word starts at a related one. -/
inductive Opens (R : Cursor → Cursor → Prop) (c : Cursor) : Prop where
  | mk {word opening : Token} {c₀ d₀ c₁ : Cursor} (related : R c₀ d₀) (named : Stands c₀ word c₁)
    (isWord : word.kind = .word) (is : word.text = "model") (opened : Stands c₁ opening c)
    (opens : opening.kind = .openParen)

/-- Entries that say the same, with positions of related cursors. -/
inductive SameEntry (R : Cursor → Cursor → Prop) : Entry → Entry → Prop where
  | idle : SameEntry R .idle .idle
  | base {name : String} {p q : Position} (marks : Marks R (Refers name) p q) :
    SameEntry R (.base name p) (.base name q)
  | choice (name : String) (options : List ChoiceOption) :
    SameEntry R (.choice name options) (.choice name options)
  | preferred (e : Selector) : SameEntry R (.model ⟨e, none⟩) (.model ⟨e, none⟩)
  | fallback (e : Selector) {p q : Position} (marks : Marks R (Opens R) p q) :
    SameEntry R (.model ⟨e, some p⟩) (.model ⟨e, some q⟩)

/-- The same warning at positions of related cursors. -/
inductive SameWarning (R : Cursor → Cursor → Prop) : Warning → Warning → Prop where
  | unknownBase {name : String} {p q : Position} (marks : Marks R (Refers name) p q) :
    SameWarning R ⟨.unknownBase name, p⟩ ⟨.unknownBase name, q⟩
  | replaceable (e : Selector) {p q : Position} (marks : Marks R (Opens R) p q) :
    SameWarning R ⟨.replaceable e, p⟩ ⟨.replaceable e, q⟩

/-- References to the same base at positions of related cursors. -/
def SameReference (R : Cursor → Cursor → Prop) (r r' : String × Position) : Prop :=
  r'.1 = r.1 ∧ Marks R (Refers r.1) r.2 r'.2

/-- Declarations that differ in the positions of their references only, which are those of related
cursors. -/
structure SameDeclaration (R : Cursor → Cursor → Prop) (d d' : Declaration) : Prop where
  bases : List.Forall₂ (SameReference R) d.bases d'.bases
  rest : d' = { d with bases := d'.bases }

/-- Sessions at related cursors with the same bases and the same warnings behind those there were. -/
structure SameSession (R : Cursor → Cursor → Prop) (before before' : List Warning) (s s' : Session) :
    Prop where
  cursor : R s.cursor s'.cursor
  bases : s'.bases = s.bases
  warnings : ∃ added added', s.warnings = before ++ added ∧ s'.warnings = before' ++ added' ∧
    List.Forall₂ (SameWarning R) added added'

theorem SameSession.of_related {s s' : Session} (cursor : R s.cursor s'.cursor)
    (bases : s'.bases = s.bases) : SameSession R s.warnings s'.warnings s s' where
  cursor := cursor
  bases := bases
  warnings := ⟨[], [], (List.append_nil _).symm, (List.append_nil _).symm, .nil⟩

/-! ### Entries -/

namespace Entry

include aligned

theorem inStep_readDefault : InStep R (Blames R) (SameEntry R) readDefault readDefault := by
  iterate 5 refine (inStep_nextOfPastNewlines aligned _).bind fun _ _ _ => ?_
  exact .pure .idle

/-- Behind a word `base` a reference is read that starts there. -/
theorem agree_readBase {word : Token} {c₀ d₀ c d : Cursor} (start : R c₀ d₀)
    (here : word.position = c₀.position) (named : Stands c₀ word c) (isWord : word.kind = .word)
    (is : word.text = "base") (related : R c d) :
    Agree R (Blames R) (SameEntry R) (readBase word.position c) (readBase d₀.position d) := by
  refine (inStep_nextOfPastNewlines aligned _ c d related).bind ?_
  intro opening _ c₁ d₁ read _ _ related₁
  obtain ⟨opened, opens⟩ := nextOfPastNewlines_eq_ok_iff.1 read
  refine (inStep_nextOfPastNewlines aligned _ c₁ d₁ related₁).bind ?_
  intro quoted quoted' c₂ d₂ read _ same related₂
  obtain ⟨named', isName⟩ := nextOfPastNewlines_eq_ok_iff.1 read
  refine (inStep_nextOfPastNewlines aligned _ c₂ d₂ related₂).bind ?_
  intro closing _ c₃ d₃ read _ _ related₃
  obtain ⟨closed, closes⟩ := nextOfPastNewlines_eq_ok_iff.1 read
  have run : Spaced c [opening, quoted, closing] c₃ :=
    .cons opened (.cons named' (.cons closed (.nil _)))
  have refers : Refers quoted.value c₀ :=
    .mk here named isWord is run (List.mem_singleton.1 opens) (List.mem_singleton.1 isName)
      (List.mem_singleton.1 closes) rfl
  rw [same.value]
  exact .ok (.base ⟨c₀, d₀, start, refers, here, rfl⟩) related₃

omit aligned in
theorem inStep_keyOf {t t' : Token} (same : Token.Same R t t') :
    InStep R (Blames R) Eq (keyOf t) (keyOf t') := by
  unfold keyOf
  rw [same.text]
  cases Word.ofString? t.text with
  | some key => exact .pure rfl
  | none => exact .complain _ same.1

theorem inStep_readOption : InStep R (Blames R) Eq readOption readOption := by
  refine (inStep_nextOfPastNewlines aligned _).bind fun t t' same => ?_
  refine (inStep_keyOf same).bind_eq fun key => ?_
  refine (inStep_nextOfPastNewlines aligned _).bind fun _ _ _ => ?_
  refine (inStep_nextOfPastNewlines aligned _).bind fun u u' same' => ?_
  refine (inStep_nextOfPastNewlines aligned _).bind fun _ _ _ => ?_
  rw [same'.value]
  exact .pure rfl

theorem inStep_readOption? (options : List ChoiceOption) :
    InStep R (Blames R) Eq (readOption? options) (readOption? options) := by
  refine (inStep_skipNewlines aligned).bind_eq fun _ => ?_
  refine (inStep_next aligned).bind fun t t' same => ?_
  rw [same.kind]
  split
  · exact (inStep_readOption aligned).bind_eq fun _ => .pure rfl
  · exact (inStep_expect _ same).bind fun _ _ _ => .pure rfl

theorem inStep_readChoice : InStep R (Blames R) (SameEntry R) readChoice readChoice := by
  refine (inStep_nextOf aligned _).bind fun name name' same => ?_
  refine (inStep_nextOfPastNewlines aligned _).bind fun _ _ _ => ?_
  rw [same.value]
  refine (InStep.iterate_eq aligned.unread (inStep_readOption? aligned) []).bind_eq fun options => ?_
  exact .pure (.choice _ _)

end Entry

namespace ModelClause

include aligned

theorem inStep_readBy (grammar : SelectorGrammar) :
    InStep R (Blames R) Eq (readBy grammar) (readBy grammar) :=
  (grammar.inStep_read aligned).bind_eq fun _ =>
    (inStep_nextOf aligned _).bind fun _ _ _ => .pure rfl

/-- Behind the parenthesis of a model the grammars are tried on both sides with the same success, and
where both fail it is with the failure of the same grammar, back at the parenthesis. -/
theorem agree_readEither {dialect : Dialect} {c d : Cursor} (related : R c d) (opens : Opens R c) :
    Agree R (Blames R) (fun a b => SameEntry R (.model a) (.model b)) (readEither dialect c)
      (readEither dialect d) := by
  have preferred := inStep_readBy aligned dialect.preferred c d related
  have fallback := inStep_readBy aligned dialect.fallback c d related
  unfold readEither
  cases run : readBy dialect.preferred c with
  | ok e c₁ =>
    rw [run] at preferred
    obtain ⟨_, d₁, run', rfl, related₁⟩ := preferred.of_ok
    rw [run']
    exact .ok (.preferred e) related₁
  | error e c₁ =>
    rw [run] at preferred
    obtain ⟨e', d₁, run', blames, -⟩ := preferred.of_error
    rw [run']
    dsimp only
    cases other : readBy dialect.fallback c with
    | ok e₂ c₂ =>
      rw [other] at fallback
      obtain ⟨_, d₂, other', rfl, related₂⟩ := fallback.of_ok
      rw [other']
      exact .ok (.fallback e₂ (.of_related related opens)) related₂
    | error e₂ c₂ =>
      rw [other] at fallback
      obtain ⟨e₂', d₂, other', -, -⟩ := fallback.of_error
      rw [other']
      exact .error blames related

end ModelClause

namespace Entry

include aligned

/-- What stands behind the word of an entry is read alike. -/
theorem agree_readRest {dialect : Dialect} {word : Token} {c₀ d₀ c d : Cursor} (start : R c₀ d₀)
    (here : word.position = c₀.position) (named : Stands c₀ word c) (isWord : word.kind = .word)
    (related : R c d) :
    Agree R (Blames R) (SameEntry R) (readRest dialect word c)
      (readRest dialect { word with position := d₀.position } d) := by
  unfold readRest
  dsimp only
  split
  · exact inStep_readDefault aligned c d related
  split
  · rename_i is
    exact agree_readBase aligned start here named isWord is related
  split
  · exact inStep_readChoice aligned c d related
  split
  · rename_i is
    refine Agree.bind (A := fun a b => SameEntry R (.model a) (.model b)) ?_ ?_
    · refine (inStep_nextOf aligned _ c d related).bind ?_
      intro opening _ c₁ d₁ read _ _ related₁
      obtain ⟨opened, opens⟩ := nextOf_eq_ok_iff.1 read
      have behind : Opens R c₁ := .mk start named isWord is opened (List.mem_singleton.1 opens)
      exact ModelClause.agree_readEither aligned related₁ behind
    · intro clause clause' _ _ _ _ same related'
      exact .ok same related'
  · exact .ok .idle related

end Entry

/-! ### Declarations -/

namespace SameDeclaration

variable {d d' : Declaration}

theorem refl_of_none (none : d.bases = []) : SameDeclaration R d d where
  bases := none ▸ .nil
  rest := rfl

/-- The same entry adds the same to both. -/
theorem add (h : SameDeclaration R d d') {entry entry' : Entry} (same : SameEntry R entry entry') :
    SameDeclaration R (Definition.add d entry) (Definition.add d' entry') := by
  have rest := h.rest
  cases same with
  | idle => exact h
  | base marks =>
    refine ⟨List.rel_append h.bases (.cons ⟨rfl, marks⟩ .nil), ?_⟩
    simp only [Definition.add]
    rw [rest]
  | choice name options =>
    refine ⟨h.bases, ?_⟩
    simp only [Definition.add]
    rw [rest]
  | preferred e =>
    refine ⟨h.bases, ?_⟩
    simp only [Definition.add]
    rw [rest]
  | fallback e marks =>
    refine ⟨h.bases, ?_⟩
    simp only [Definition.add]
    rw [rest]

theorem foldl_add (h : SameDeclaration R d d') {entries entries' : List Entry}
    (same : List.Forall₂ (SameEntry R) entries entries') :
    SameDeclaration R (entries.foldl Definition.add d) (entries'.foldl Definition.add d') := by
  induction same generalizing d d' with
  | nil => exact h
  | cons head _ ih => exact ih (h.add head)

theorem basesOf (h : SameDeclaration R d d') (table : BaseTable) :
    table.basesOf d' = table.basesOf d := by
  have same := h.bases
  unfold BaseTable.basesOf
  generalize d.bases = references, d'.bases = references' at same
  induction same with
  | nil => rfl
  | @cons r r' _ _ head _ ih =>
    obtain ⟨name, p⟩ := r
    obtain ⟨_, q⟩ := r'
    obtain ⟨rfl, -⟩ := head
    simp only [List.filterMap_cons, ih]

/-- With the same bases both resolve to the same. -/
theorem resolve (h : SameDeclaration R d d') (table : BaseTable) :
    d'.resolve table = d.resolve table := by
  unfold Declaration.resolve
  rw [h.basesOf, h.rest]

/-- The same references are to unknown bases. -/
theorem unknownBasesOf (h : SameDeclaration R d d') (table : BaseTable) :
    List.Forall₂ (SameReference R) (table.unknownBasesOf d) (table.unknownBasesOf d') := by
  have same := h.bases
  unfold BaseTable.unknownBasesOf
  generalize d.bases = references, d'.bases = references' at same
  induction same with
  | nil => exact .nil
  | @cons r r' _ _ head _ ih =>
    obtain ⟨name, p⟩ := r
    obtain ⟨_, q⟩ := r'
    obtain ⟨rfl, marks⟩ := head
    rw [List.filter_cons, List.filter_cons]
    dsimp only
    split
    · exact .cons ⟨rfl, marks⟩ ih
    · exact ih

end SameDeclaration

namespace Definition

theorem warningsOf_same {entry entry' : Entry} (h : SameEntry R entry entry') :
    List.Forall₂ (SameWarning R) (warningsOf entry) (warningsOf entry') := by
  cases h with
  | fallback e marks => exact .cons (.replaceable e marks) .nil
  | _ => exact .nil

/-! ### Sessions -/

section Sessions

variable {α : Type} {s s' : Session} {ws ws' : List Warning}

theorem agree_moved {A : α → α → Prop} {r r' : EStateM.Result Error Cursor α}
    (same : SameSession R ws ws' s s') (h : Agree R (Blames R) A r r') :
    Agree (SameSession R ws ws') (Blames R) A (within s r) (within s' r') := by
  cases h with
  | ok answers related => exact .ok answers ⟨related, same.bases, same.warnings⟩
  | error failures related => exact .error failures ⟨related, same.bases, same.warnings⟩

/-- A reader in a session is in step if it is. -/
theorem inStep_lift {A : α → α → Prop} {x y : Reading α} (h : InStep R (Blames R) A x y) :
    InStep (SameSession R ws ws') (Blames R) A (liftM x : Parsing α) (liftM y) := by
  intro s s' same
  rw [lift_apply, lift_apply]
  exact agree_moved same (h _ _ same.cursor)

theorem SameSession.warned (same : SameSession R ws ws' s s') {added added' : List Warning}
    (h : List.Forall₂ (SameWarning R) added added') :
    SameSession R ws ws' { s with warnings := s.warnings ++ added }
      { s' with warnings := s'.warnings ++ added' } where
  cursor := same.cursor
  bases := same.bases
  warnings := by
    obtain ⟨earlier, earlier', front, front', such⟩ := same.warnings
    refine ⟨earlier ++ added, earlier' ++ added', ?_, ?_, List.rel_append such h⟩
    · rw [front, List.append_assoc]
    · rw [front', List.append_assoc]

theorem inStep_warn {added added' : List Warning}
    (h : List.Forall₂ (SameWarning R) added added') :
    InStep (SameSession R ws ws') (Blames R) Eq (warn added) (warn added') :=
  fun _ _ same => .ok rfl (SameSession.warned same h)

include aligned

theorem inStep_opening : InStep R (Blames R) Eq opening opening := by
  have front : InStep R (Blames R) Eq
      (do
        if (← Token.peek).isOneOf [.commentOpen, .endOfFile] then return none
        let _ ← Token.next
        return some ())
      (do
        if (← Token.peek).isOneOf [.commentOpen, .endOfFile] then return none
        let _ ← Token.next
        return some ()) := by
    refine (inStep_peek aligned).bind fun t t' same => ?_
    rw [same.isOneOf]
    split
    · exact .pure rfl
    · exact (Token.inStep_next aligned).bind fun _ _ _ => .pure rfl
  refine (InStep.iterate_eq aligned.unread (fun _ => front) ()).bind_eq fun _ => ?_
  refine (Token.inStep_next aligned).bind fun t t' same => ?_
  rw [same.kind]
  exact .pure rfl

theorem inStep_header : InStep R (Blames R) Eq header header := by
  have ending (name : String) (header : Option Header) : InStep R (Blames R) Eq
      (do
        let _ ← Token.nextOf [.newline]
        return (name, header))
      (do
        let _ ← Token.nextOf [.newline]
        return (name, header)) :=
    (inStep_nextOf aligned _).bind fun _ _ _ => .pure rfl
  refine (inStep_nextOf aligned _).bind fun name name' same => ?_
  refine (inStep_peekOf aligned _).bind fun t t' same' => ?_
  rw [same.text, same'.kind]
  split
  · refine InStep.bind_eq ?_ fun header => ending name.text header
    exact (Header.inStep_read aligned).bind_eq fun _ => .pure rfl
  · exact ending name.text none

theorem inStep_description : InStep R (Blames R) Eq description description := by
  refine (inStep_peek aligned).bind fun t t' same => ?_
  rw [same.kind]
  split
  · exact .pure rfl
  · intro c d related
    show Agree R (Blames R) Eq
      (.ok (String.ofList (trim (c.takeBefore "*/").1.toList)) (c.takeBefore "*/").2)
      (.ok (String.ofList (trim (d.takeBefore "*/").1.toList)) (d.takeBefore "*/").2)
    unfold Cursor.takeBefore Cursor.take Cursor.text
    rw [aligned.rest related]
    exact .ok rfl (aligned.skip _ related)

/-- One more entry is read alike, and the same warning comes with it. -/
theorem inStep_readEntry (dialect : Dialect) {before before' : List Entry}
    (same : List.Forall₂ (SameEntry R) before before') :
    InStep (SameSession R ws ws') (Blames R) (Option.Rel (List.Forall₂ (SameEntry R)))
      (readEntry dialect before) (readEntry dialect before') := by
  intro s s' related
  have word := inStep_nextOfPastNewlines aligned [.word, .closeBrace]
  refine (inStep_lift word s s' related).bind ?_
  intro t t' s₁ s₁' lifted lifted' sameToken related₁
  obtain ⟨c₁, read, rfl⟩ := lift_eq_ok_iff.1 lifted
  obtain ⟨d₁, read', rfl⟩ := lift_eq_ok_iff.1 lifted'
  rw [sameToken.kind]
  split
  · exact .ok .none related₁
  rename_i noBrace
  -- the words start at related cursors, where they are read
  obtain ⟨stands, mem⟩ := nextOfPastNewlines_eq_ok_iff.1 read
  have isWord : t.kind = .word := by simpa [noBrace] using mem
  obtain ⟨c₀, d₀, d₁', start, here, named, stands', -⟩ := stands.transfer aligned related.cursor
  cases read'.symm.trans (nextOfPastNewlines_eq_ok_iff.2 ⟨stands', mem⟩)
  refine Agree.bind (A := SameEntry R) ?_ ?_
  · exact agree_moved related₁ (Entry.agree_readRest aligned start here named isWord related₁.cursor)
  intro entry entry' s₂ s₂' _ _ sameEntry related₂
  refine (inStep_warn (warningsOf_same sameEntry) s₂ s₂' related₂).bind ?_
  intro _ _ s₃ s₃' _ _ _ related₃
  refine (inStep_lift (inStep_nextOfPastNewlines aligned _) s₃ s₃' related₃).bind ?_
  intro _ _ _ _ _ _ _ related₄
  exact .ok (.some (List.rel_append same (.cons sameEntry .nil))) related₄

theorem inStep_entries (dialect : Dialect) :
    InStep (SameSession R ws ws') (Blames R) (List.Forall₂ (SameEntry R)) (entries dialect)
      (entries dialect) := by
  refine (inStep_lift (inStep_peek aligned)).bind fun t t' same => ?_
  rw [same.kind]
  split
  · exact .pure .nil
  refine (inStep_lift (Token.inStep_next aligned)).bind fun _ _ _ => ?_
  refine .iterate (fun s s' same => aligned.unread _ _ same.cursor) ?_ .nil
  exact fun _ _ same => inStep_readEntry aligned dialect same

theorem inStep_declare (dialect : Dialect) :
    InStep (SameSession R ws ws') (Blames R) (SameDeclaration R) (declare dialect) (declare dialect) := by
  refine (inStep_lift (inStep_header aligned)).bind_eq fun (name, header) => ?_
  refine (inStep_entries aligned dialect).bind fun entries entries' same => ?_
  refine (inStep_lift (inStep_description aligned)).bind_eq fun description => ?_
  refine (inStep_lift (inStep_nextOf aligned _)).bind fun _ _ _ => .pure ?_
  exact (SameDeclaration.refl_of_none rfl).foldl_add same

omit aligned in
theorem inStep_resolve {d d' : Declaration} (h : SameDeclaration R d d') :
    InStep (SameSession R ws ws') (Blames R) Eq (resolve d) (resolve d') := by
  intro s s' same
  refine .ok ?_ (SameSession.warned same ?_)
  · show d.resolve s.bases = d'.resolve s'.bases
    rw [same.bases, h.resolve]
  · rw [same.bases]
    refine List.rel_map ?_ (h.unknownBasesOf s.bases)
    rintro ⟨name, p⟩ ⟨_, q⟩ ⟨rfl, marks⟩
    exact .unknownBase marks

/-- In related sessions the next definition comes to the same. -/
theorem inStep_next (settings : Settings) :
    InStep (SameSession R ws ws') (Blames R) Eq (next settings) (next settings) := by
  refine (inStep_lift (inStep_opening aligned)).bind_eq fun opened => ?_
  split
  · refine (inStep_declare aligned settings.dialect).bind fun d d' same => ?_
    refine (inStep_resolve same).bind_eq fun d => ?_
    split
    · intro s s' same
      refine .ok rfl ⟨same.cursor, ?_, same.warnings⟩
      show s'.bases.insert d = s.bases.insert d
      rw [same.bases]
    · exact .pure rfl
  · exact .pure rfl

theorem inStep_entity? (settings : Settings) (before : List EntityClass) :
    InStep (SameSession R ws ws') (Blames R) Eq (entity? settings before) (entity? settings before) := by
  refine (inStep_next aligned settings).bind_eq fun outcome => ?_
  refine InStep.bind_eq (fun _ _ same => .ok rfl ⟨same.cursor, same.bases, same.warnings⟩) ?_
  intro _
  cases outcome <;> exact .pure rfl

/-- In related sessions the rest of a file comes to the same. -/
theorem inStep_entities (settings : Settings) :
    InStep (SameSession R ws ws') (Blames R) Eq (entities settings) (entities settings) :=
  .iterate_eq (fun _ _ same => aligned.unread _ _ same.cursor) (inStep_entity? aligned settings) []

end Sessions
end Definition
end Quaked
