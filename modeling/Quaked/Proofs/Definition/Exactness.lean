import Quaked.Proofs.Definition.EntryGrammar
import Quaked.Proofs.Definition.HeaderGrammar

/-!
# Definitions are read exactly

`Written dialect c p body c'` says that a definition stands at the cursor `c`, perhaps behind other
tokens: its mark, its first line, its entries, and from `body` on its description up to the first
`*/`, behind which `c'` is. What it says is `p`, part by part, and `Parts.declaration` what that
declares.

* `Concludes`: what a definition comes to in a session, field by field: `Declaration.Filled` for what
  its bases add, `EntityClass.Presents` for the class, `Parts.warnings` for the warnings.
* `next_eq_ok_iff`: what reading the next definition comes to, at any place.
* `next_declares_iff`: a definition is read exactly where one is written and a token can be made where
  its description starts, and what reading comes to is read off its parts.
* `written_and_rejected`: without such a token what is written is not read.
-/

namespace Quaked

/-! ### Declarations and classes -/

/-- A declaration with what it leaves open filled from bases: a color, a box and a model from the first
base that has one, and the attributes of all bases in front of its own. -/
structure Declaration.Filled (d : Declaration) (bases : List Declaration) (d' : Declaration) : Prop where
  name : d'.name = d.name
  color : d'.color = (d.color <|> bases.findSome? (·.color))
  bounds : d'.bounds = (d.bounds <|> bases.findSome? (·.bounds))
  description : d'.description = d.description
  attributes : d'.attributes = bases.flatMap (·.attributes) ++ d.attributes
  model : d'.model = (d.model <|> bases.findSome? (·.model))
  bases : d'.bases = []

/-- A class says what a declaration with a color says: it is a point exactly if there is a box, and then
it has the model. -/
structure EntityClass.Presents (e : EntityClass) (d : Declaration) : Prop where
  name : e.name = d.name
  color : d.color = some e.color
  description : e.description = d.description
  attributes : e.attributes = d.attributes
  shape : ∀ bounds model, e.shape = .point bounds model ↔ d.bounds = some bounds ∧ d.model = model

theorem Declaration.filled_resolve (d : Declaration) (table : BaseTable) :
    d.Filled (table.basesOf d) (d.resolve table) :=
  ⟨rfl, rfl, rfl, rfl, rfl, rfl, rfl⟩

theorem Declaration.Filled.unique {d d₁ d₂ : Declaration} {bases : List Declaration}
    (h₁ : d.Filled bases d₁) (h₂ : d.Filled bases d₂) : d₁ = d₂ := by
  obtain ⟨name, color, bounds, description, attributes, model, bases⟩ := d₁
  obtain ⟨rfl, rfl, rfl, rfl, rfl, rfl, rfl⟩ := h₁
  cases d₂
  obtain ⟨rfl, rfl, rfl, rfl, rfl, rfl, rfl⟩ := h₂
  rfl

theorem Declaration.presents_entityClass {d : Declaration} {color : Color} (colored : d.color = some color)
    (other : Color) : (d.entityClass other).Presents d where
  name := rfl
  color := by simp [entityClass, colored]
  description := rfl
  attributes := rfl
  shape := by
    intro bounds model
    simp only [entityClass]
    cases d.bounds <;> simp

theorem EntityClass.Presents.unique {e₁ e₂ : EntityClass} {d : Declaration} (h₁ : e₁.Presents d)
    (h₂ : e₂.Presents d) : e₁ = e₂ := by
  have shape : e₁.shape = e₂.shape := by
    cases is : e₁.shape with
    | point bounds model => exact ((h₂.shape bounds model).2 ((h₁.shape bounds model).1 is)).symm
    | brush =>
      cases is' : e₂.shape with
      | point bounds model => cases is.symm.trans ((h₁.shape bounds model).2 ((h₂.shape bounds model).1 is'))
      | brush => rfl
  have color : e₁.color = e₂.color := Option.some.inj (h₁.color.symm.trans h₂.color)
  have description := h₁.description.trans h₂.description.symm
  have attributes := h₁.attributes.trans h₂.attributes.symm
  have name := h₁.name.trans h₂.name.symm
  cases e₁
  cases e₂
  simp_all

namespace Definition

open Text Token Header Entry

variable {dialect : Dialect} {c c' : Cursor} {t : Token}

/-! ### What is written -/

/-- What a definition says, part by part. -/
structure Parts where
  name : String
  header : Option Header
  entries : List Entry
  description : String

/-- The attribute that an entry gives a class. -/
def choice? : Entry → Option Attribute
  | .choice name options => some (.choice name options)
  | _ => none

/-- The base that an entry refers to. -/
def base? : Entry → Option (String × Position)
  | .base name position => some (name, position)
  | _ => none

/-- The attribute of flags with these names, if there are any. The value of a flag is the power of two of
its place. -/
def flagsNamed (names : List String) : List Attribute :=
  if names = [] then []
  else [.flags "spawnflags" (names.mapIdx fun bit name => ⟨Nat.pow 2 bit, name⟩)]

@[simp] theorem flagsNamed_flags (header : Header) : flagsNamed header.flags = header.attributes := by
  simp [flagsNamed, Header.attributes, Attribute.ofFlagNames, Attribute.spawnflags]

@[simp] theorem flagsNamed_nil : flagsNamed [] = [] := rfl

/-- What is declared: the color, the box and the flags of the header, and of the entries the choices
and the bases in order and the last model. -/
def Parts.declaration (p : Parts) : Declaration where
  name := p.name
  color := p.header.map (·.color)
  bounds := p.header.bind (·.bounds)
  description := p.description
  attributes := flagsNamed ((p.header.map (·.flags)).getD []) ++ p.entries.filterMap choice?
  model := (p.entries.filterMap selector?).getLast?
  bases := p.entries.filterMap base?

/-- Tokens that open no definition and are not the end of the file, and the token behind them. -/
inductive Opening : Cursor → Token → Cursor → Prop where
  | mk {c c₁ c' : Cursor} {t : Token} {outside : List Token} (run : Run c outside c₁)
    (others : ∀ u ∈ outside, u.kind ≠ .commentOpen ∧ u.kind ≠ .endOfFile) (stands : Stands c₁ t c')
    (opens : t.kind = .commentOpen ∨ t.kind = .endOfFile) : Opening c t c'

/-- The raw text up to the first `*/`, without white space at its ends. -/
inductive Remark : Cursor → String → Cursor → Prop where
  | mk {c : Cursor} {raw behind : List Char} (here : c.rest = raw ++ '*' :: '/' :: behind)
    (first : ∀ raw' behind', c.rest = raw' ++ '*' :: '/' :: behind' → raw.length ≤ raw'.length) :
    Remark c (String.ofList (trim raw)) (c.skip (raw.length + 2))

/-- A definition behind its mark. The second cursor is where its description starts. -/
inductive WrittenBehind (dialect : Dialect) : Cursor → Parts → Cursor → Cursor → Prop where
  | mk {c c₁ c₂ c₃ body c' : Cursor} {word newline : Token} {header : Option Header}
    {entries : List Entry} {description : String} (named : Stands c word c₁)
    (isWord : word.kind = .word) (line : Line c₁ header c₂) (ended : Stands c₂ newline c₃)
    (ends : newline.kind = .newline) (entered : Body dialect c₃ entries body)
    (described : Remark body description c') :
    WrittenBehind dialect c ⟨word.text, header, entries, description⟩ body c'

/-- A definition with what stands in front of it. -/
inductive Written (dialect : Dialect) : Cursor → Parts → Cursor → Cursor → Prop where
  | mk {c c₁ body c' : Cursor} {mark : Token} {p : Parts} (opened : Opening c mark c₁)
    (opens : mark.kind = .commentOpen) (behind : WrittenBehind dialect c₁ p body c') :
    Written dialect c p body c'

/-! ### How much is left -/

theorem Opening.unread_lt (h : Opening c t c') (opens : t.kind = .commentOpen) :
    c'.unread < c.unread := by
  cases h with
  | mk run _ stands =>
    have less := unread_next stands (by simp [opens])
    exact Nat.lt_of_lt_of_le less (run.le Cursor.unread unread_next_le)

theorem Remark.unread_le {text : String} (h : Remark c text c') : c'.unread ≤ c.unread := by
  cases h with
  | mk =>
    rw [Cursor.unread_skip]
    exact Nat.sub_le _ _

/-- Behind a definition no more is left than behind its mark. -/
theorem WrittenBehind.unread_le {p : Parts} {body : Cursor}
    (h : WrittenBehind dialect c p body c') : c'.unread ≤ c.unread := by
  cases h with
  | mk named _ line ended _ entered described =>
    have first := (unread_next_le ended).trans (line.unread_le.trans (unread_next_le named))
    exact (described.unread_le.trans entered.unread_le).trans first

/-- Behind a definition less is left than in front of it. -/
theorem Written.unread_lt {p : Parts} {body : Cursor} (h : Written dialect c p body c') :
    c'.unread < c.unread := by
  cases h with
  | mk opened opens behind => exact Nat.lt_of_le_of_lt behind.unread_le (opened.unread_lt opens)

/-! ### Openings -/

theorem isOneOf_opening_iff :
    t.isOneOf [.commentOpen, .endOfFile] = true ↔ t.kind = .commentOpen ∨ t.kind = .endOfFile := by
  simp [isOneOf]

/-- Passes one more token, if it opens no definition and is not the end. -/
def passOutside (_ : Unit) : Reading (Option Unit) := do
  if (← Token.peek).isOneOf [.commentOpen, .endOfFile] then return none
  let _ ← Token.next
  return some ()

theorem opening_eq : opening = (do
    iterate Cursor.unread passOutside ()
    return (← Token.next).kind = .commentOpen) := rfl

theorem passOutside_of_other (stands : Stands c t c')
    (other : ¬ (t.kind = .commentOpen ∨ t.kind = .endOfFile)) :
    passOutside () c = .ok (some ()) c' := by
  refine peek_bind_eq_ok_iff.2 ⟨t, c', stands, ?_⟩
  rw [if_neg fun is => other (isOneOf_opening_iff.1 is)]
  exact bind_eq_ok_iff.2 ⟨t, c', stands, rfl⟩

theorem passOutside_of_opening (stands : Stands c t c')
    (is : t.kind = .commentOpen ∨ t.kind = .endOfFile) : passOutside () c = .ok none c := by
  refine peek_bind_eq_ok_iff.2 ⟨t, c', stands, ?_⟩
  rw [if_pos (isOneOf_opening_iff.2 is)]
  rfl

/-- A token that is passed leaves less to read. -/
theorem unread_passOutside {a b : Unit} (h : passOutside a c = .ok (some b) c') :
    c'.unread < c.unread := by
  obtain ⟨t, c₁, stands, -⟩ := peek_bind_eq_ok_iff.1 h
  by_cases is : t.kind = .commentOpen ∨ t.kind = .endOfFile
  · cases h.symm.trans (passOutside_of_opening stands is)
  · cases h.symm.trans (passOutside_of_other stands is)
    exact unread_next stands fun last => is (.inr last)

/-- Everything in front of a mark or the end of the file is passed. -/
theorem opening_eq_ok_iff {opened : Bool} :
    opening c = .ok opened c' ↔ ∃ t, Opening c t c' ∧ opened = decide (t.kind = .commentOpen) := by
  have loop {c c₁ : Cursor} : iterate Cursor.unread passOutside () c = .ok () c₁ ↔
      ∃ ts, Run c ts c₁ ∧ (∀ t ∈ ts, ¬ (t.kind = .commentOpen ∨ t.kind = .endOfFile)) ∧
        ∃ t c₂, Stands c₁ t c₂ ∧ ¬ ¬ (t.kind = .commentOpen ∨ t.kind = .endOfFile) := by
    refine iterate_passing_iff ?_ passOutside_of_other ?_ fun other last => other (.inr last)
    · intro c c' answer h
      obtain ⟨t, c₁, stands, -⟩ := peek_bind_eq_ok_iff.1 h
      exact ⟨t, c₁, stands⟩
    · exact fun stands is => passOutside_of_opening stands (Decidable.not_not.1 is)
  rw [opening_eq]
  refine bind_eq_ok_iff.trans ?_
  constructor
  · rintro ⟨⟨⟩, c₁, passed, h⟩
    obtain ⟨ts, run, others, t, c₂, stands, is⟩ := loop.1 passed
    obtain ⟨u, c₃, read, h⟩ := bind_eq_ok_iff.1 h
    obtain ⟨rfl, rfl⟩ := pure_eq_ok_iff.1 h
    obtain ⟨rfl, rfl⟩ := stands.unique read
    exact ⟨u, .mk run (fun t mem => not_or.1 (others t mem)) stands (Decidable.not_not.1 is), rfl⟩
  · rintro ⟨t, ⟨run, others, stands, is⟩, rfl⟩
    have others := fun t mem => not_or.2 (others t mem)
    refine ⟨(), _, loop.2 ⟨_, run, others, t, c', stands, not_not_intro is⟩, ?_⟩
    exact bind_eq_ok_iff.2 ⟨t, c', stands, rfl⟩

/-! ### Descriptions -/

section Remarks

variable {raw behind cs marker : List Char}

/-- Behind the text before a marker stands the marker, or nothing. -/
theorem drop_markerDistance (marker cs : List Char) :
    marker <+: cs.drop (markerDistance marker cs) ∨ cs.drop (markerDistance marker cs) = [] := by
  induction cs with
  | nil => exact .inr rfl
  | cons ch cs ih =>
    rw [markerDistance]
    split
    · rename_i front
      exact .inl (List.isPrefixOf_iff_prefix.1 front)
    · exact ih

theorem markerDistance_le (some : marker ≠ []) (here : cs = raw ++ (marker ++ behind)) :
    markerDistance marker cs ≤ raw.length := by
  subst here
  induction raw with
  | nil =>
    rw [List.nil_append]
    cases whole : marker ++ behind with
    | nil => exact absurd (List.append_eq_nil_iff.1 whole).1 some
    | cons ch tail =>
      rw [markerDistance, if_pos (List.isPrefixOf_iff_prefix.2 ⟨behind, whole⟩)]
      exact Nat.zero_le _
  | cons ch raw ih =>
    rw [List.cons_append, markerDistance]
    split
    · exact Nat.zero_le _
    · exact Nat.succ_le_succ ih

theorem remark_iff {text : String} :
    Remark c text c' ↔
      (∃ behind, c.rest.drop (markerDistance ['*', '/'] c.rest) = '*' :: '/' :: behind) ∧
        text = String.ofList (trim (c.rest.take (markerDistance ['*', '/'] c.rest))) ∧
        c' = c.skip (markerDistance ['*', '/'] c.rest + 2) := by
  constructor
  · rintro ⟨here, first⟩
    rename_i raw behind
    have most : markerDistance ['*', '/'] c.rest ≤ raw.length := markerDistance_le nofun here
    have more : raw.length < c.rest.length := by simp [here]
    have left : c.rest.drop (markerDistance ['*', '/'] c.rest) ≠ [] := by
      rw [ne_eq, List.drop_eq_nil_iff]
      omega
    obtain ⟨behind', front⟩ := (drop_markerDistance _ _).resolve_right left
    have split := (List.take_append_drop (markerDistance ['*', '/'] c.rest) c.rest).symm
    rw [← front] at split
    have least := Nat.le_trans (first _ behind' split) (List.length_take_le _ _)
    have same : markerDistance ['*', '/'] c.rest = raw.length := Nat.le_antisymm most least
    refine ⟨⟨behind', front.symm⟩, ?_, by rw [same]⟩
    rw [same, here, List.take_left]
  · rintro ⟨⟨behind, front⟩, rfl, rfl⟩
    have split := (List.take_append_drop (markerDistance ['*', '/'] c.rest) c.rest).symm
    rw [front] at split
    have within : markerDistance ['*', '/'] c.rest < c.rest.length := by
      have some := congrArg List.length front
      rw [List.length_drop, List.length_cons, List.length_cons] at some
      omega
    have length : (c.rest.take (markerDistance ['*', '/'] c.rest)).length =
        markerDistance ['*', '/'] c.rest := List.length_take_of_le (Nat.le_of_lt within)
    have remark := Remark.mk split fun raw' behind' here => by
      rw [length]
      exact markerDistance_le nofun here
    rwa [length] at remark

theorem Remark.unique {c₁ c₂ : Cursor} {text text' : String} (h : Remark c text c₁)
    (h' : Remark c text' c₂) : text = text' ∧ c₁ = c₂ := by
  obtain ⟨-, rfl, rfl⟩ := remark_iff.1 h
  obtain ⟨-, rfl, rfl⟩ := remark_iff.1 h'
  exact ⟨rfl, rfl⟩

theorem lexeme_commentClose {n : Nat} (h : lexeme cs = .token .commentClose n) :
    ∃ behind, cs = '*' :: '/' :: behind ∧ n = 2 := by
  cases shape_of_lexeme h with
  | commentClose behind => exact ⟨behind, rfl, rfl⟩
  | word word => rcases wordLexeme_kind word with is | is | is <;> cases is

/-- A gap that ends within a line has no comment. -/
theorem blank_of_mem_gap {d : Char} {tail : List Char} (stop : cs.drop (gap cs) = d :: tail)
    (visible : isLineBreak d = false) : ∀ ch ∈ cs.take (gap cs), ch = ' ' ∨ ch = '\t' := by
  induction cs with
  | nil => cases stop
  | cons ch cs ih =>
    rw [gap] at stop ⊢
    split at stop
    · rename_i blank
      rw [if_pos blank, List.take_succ_cons]
      intro e mem
      rcases List.mem_cons.1 mem with rfl | mem
      · exact blank
      · exact ih stop e mem
    split at stop
    · have lineBreak := isLineBreak_behind (ch :: cs) d (by rw [stop]; rfl)
      rw [visible] at lineBreak
      cases lineBreak
    · rename_i noBlank noComment
      rw [if_neg noBlank, if_neg noComment, List.take_zero]
      exact List.forall_mem_nil _

theorem trim_eq_nil (space : ∀ ch ∈ cs, isSpace ch = true) : trim cs = [] := by
  have none : cs.dropWhile isSpace = [] := by simpa using space
  rw [trim, none]
  rfl

/-- At the end of a comment nothing but blanks is left of the description. -/
theorem remark_of_close (stands : Stands c t c') (closes : t.kind = .commentClose) :
    Remark c "" c' := by
  obtain ⟨kind, n, lexed, rfl, rfl⟩ := next_eq_ok_iff.1 stands
  obtain rfl : kind = .commentClose := closes
  obtain ⟨behind, close, rfl⟩ := lexeme_commentClose lexed
  have blanks := blank_of_mem_gap close rfl
  have split := (List.take_append_drop (gap c.rest) c.rest).symm
  rw [close] at split
  have within : gap c.rest ≤ c.rest.length := by
    have some := congrArg List.length close
    rw [List.length_drop, List.length_cons] at some
    omega
  have length : (c.rest.take (gap c.rest)).length = gap c.rest := List.length_take_of_le within
  have remark := Remark.mk split fun raw' behind' here => by
    refine Nat.le_of_not_lt fun shorter => ?_
    have star : '*' ∈ c.rest.take (gap c.rest) := by
      obtain ⟨k, more⟩ := Nat.exists_eq_add_of_lt (length ▸ shorter)
      rw [here, List.take_append, ← here, more]
      simp [Nat.add_assoc]
    rcases blanks '*' star with is | is <;> exact absurd is (by decide)
  have space : ∀ ch ∈ c.rest.take (gap c.rest), isSpace ch = true := by
    intro ch mem
    rcases blanks ch mem with rfl | rfl <;> decide
  rw [trim_eq_nil space, length, Cursor.skip_add] at remark
  exact remark

theorem stands_close (here : c.rest = '*' :: '/' :: behind) :
    Stands c ⟨.commentClose, "*/", c.position⟩ (c.skip 2) := by
  have none : gap c.rest = 0 := by
    rw [here]
    rfl
  refine next_eq_ok_iff.2 ⟨.commentClose, 2, ?_, ?_, ?_⟩
  · rw [none, here]
    rfl
  · rw [none, here]
    rfl
  · rw [none]
    rfl

theorem description_of_close {c₁ : Cursor} (stands : Stands c t c₁) (closes : t.kind = .commentClose) :
    description c = .ok "" c := by
  refine peek_bind_eq_ok_iff.2 ⟨t, c₁, stands, ?_⟩
  rw [if_pos closes]
  rfl

/-- Where the comment goes on the description is the text before the next marker. -/
theorem description_of_other {c₁ : Cursor} (stands : Stands c t c₁)
    (other : t.kind ≠ .commentClose) :
    description c = .ok (String.ofList (trim (c.rest.take (markerDistance ['*', '/'] c.rest))))
      (c.skip (markerDistance ['*', '/'] c.rest)) := by
  refine peek_bind_eq_ok_iff.2 ⟨t, c₁, stands, ?_⟩
  rw [if_neg other]
  show EStateM.Result.ok (String.ofList (trim (c.takeBefore "*/").1.toList)) (c.takeBefore "*/").2 = _
  simp [Cursor.takeBefore, Cursor.take, Cursor.text]

/-- The description with the end of its comment is the text up to the first `*/`, if a token can be
made where it starts. -/
theorem description_closed_iff {text : String} :
    (∃ c₁ t, description c = .ok text c₁ ∧ Stands c₁ t c' ∧ t.kind = .commentClose) ↔
      (∃ t c₁, Stands c t c₁) ∧ Remark c text c' := by
  constructor
  · rintro ⟨c₁, closing, read, closed, closes⟩
    obtain ⟨t, c₂, stands, -⟩ := peek_bind_eq_ok_iff.1 read
    refine ⟨⟨t, c₂, stands⟩, ?_⟩
    by_cases close : t.kind = .commentClose
    · rw [description_of_close stands close] at read
      cases read
      exact remark_of_close closed closes
    · rw [description_of_other stands close] at read
      cases read
      have left := drop_markerDistance ['*', '/'] c.rest
      rw [← Cursor.rest_skip] at left
      rcases left with ⟨behind, front⟩ | last
      · have moved := ((stands_close front.symm).unique closed).2
        rw [← Cursor.skip_add] at moved
        rw [Cursor.rest_skip] at front
        exact remark_iff.2 ⟨⟨behind, front.symm⟩, rfl, moved⟩
      · obtain ⟨kind, n, lexed, rfl, -⟩ := next_eq_ok_iff.1 closed
        rw [last] at lexed
        cases lexed
        cases closes
  · rintro ⟨⟨t, c₁, stands⟩, remark⟩
    by_cases close : t.kind = .commentClose
    · obtain ⟨rfl, rfl⟩ := (remark_of_close stands close).unique remark
      exact ⟨c, t, description_of_close stands close, stands, close⟩
    · obtain ⟨⟨behind, front⟩, rfl, rfl⟩ := remark_iff.1 remark
      rw [← Cursor.rest_skip] at front
      have closed := stands_close front
      rw [← Cursor.skip_add] at closed
      exact ⟨_, _, description_of_other stands close, closed, rfl⟩

end Remarks

/-! ### Declarations -/

/-- What entries add to a declaration. -/
theorem foldl_add_eq (d : Declaration) (entries : List Entry) :
    entries.foldl add d = { d with
      attributes := d.attributes ++ entries.filterMap choice?
      model := (entries.filterMap selector?).getLast?.or d.model
      bases := d.bases ++ entries.filterMap base? } := by
  have model := foldl_add d entries
  have others : (entries.foldl add d).attributes = d.attributes ++ entries.filterMap choice? ∧
      (entries.foldl add d).bases = d.bases ++ entries.filterMap base? ∧
      (entries.foldl add d).name = d.name ∧ (entries.foldl add d).color = d.color ∧
      (entries.foldl add d).bounds = d.bounds ∧
      (entries.foldl add d).description = d.description := by
    clear model
    induction entries generalizing d with
    | nil => simp
    | cons entry entries ih =>
      rw [List.foldl_cons]
      obtain ⟨attributes, bases, name, color, bounds, description⟩ := ih (add d entry)
      rw [attributes, bases, name, color, bounds, description]
      cases entry <;> simp [add, choice?, base?, List.filterMap_cons]
  obtain ⟨attributes, bases, name, color, bounds, description⟩ := others
  rw [← model, ← attributes, ← bases, ← name, ← color, ← bounds, ← description]

theorem declaration_eq (p : Parts) :
    declaration p.name p.header p.entries p.description = p.declaration := by
  rw [declaration, foldl_add_eq]
  cases header : p.header <;> simp [Parts.declaration, header]

/-- Behind its mark a definition is read where one is written and its description starts with a
token. -/
theorem declare_eq_ok_iff {d : Declaration} {s s' : Session} :
    declare dialect s = .ok d s' ↔ ∃ p body c, WrittenBehind dialect s.cursor p body c ∧
      (∃ t c₁, Stands body t c₁) ∧ d = p.declaration ∧
      s' = { s with cursor := c, warnings := s.warnings ++ p.entries.filterMap outdated? } := by
  simp only [← flatMap_warningsOf]
  constructor
  · intro h
    obtain ⟨⟨name, header⟩, c₁, first, h⟩ := lift_bind_eq_ok_iff.1 h
    obtain ⟨word, c₂, c₃, newline, named, isWord, rfl, line, ended, ends⟩ :=
      header_eq_ok_iff.1 first
    obtain ⟨es, s₁, inside, h⟩ := bind_eq_ok_iff.1 h
    obtain ⟨body, entered, -, rfl⟩ := entries_eq_ok_iff.1 inside
    obtain ⟨text, c₄, read, h⟩ := lift_bind_eq_ok_iff.1 h
    obtain ⟨closing, c₅, closed, h⟩ := lift_bind_eq_ok_iff.1 h
    obtain ⟨closed, closes⟩ := nextOf_eq_ok_iff.1 closed
    obtain ⟨rfl, rfl⟩ := pure_eq_ok_iff.1 h
    obtain ⟨legible, described⟩ :=
      description_closed_iff.1 ⟨c₄, closing, read, closed, List.mem_singleton.1 closes⟩
    let p : Parts := ⟨word.text, header, es, text⟩
    refine ⟨p, body, c₅, ?_, legible, declaration_eq p, rfl⟩
    exact .mk named isWord line ended ends entered described
  · rintro ⟨_, body, c, ⟨named, isWord, line, ended, ends, entered, described⟩, legible, rfl, rfl⟩
    rename_i c₁ c₂ c₃ word newline header entries text
    have first := header_eq_ok_iff.2 ⟨word, c₁, c₂, newline, named, isWord, rfl, line, ended, ends⟩
    refine lift_bind_eq_ok_iff.2 ⟨_, c₃, first, ?_⟩
    have some : ∃ t c₄, Stands c₃ t c₄ := by
      cases entered with
      | braces opened => exact ⟨_, _, opened⟩
      | bare => exact legible
    refine bind_eq_ok_iff.2 ⟨entries, _, entries_eq_ok_iff.2 ⟨body, entered, some, rfl⟩, ?_⟩
    obtain ⟨c₄, closing, read, closed, closes⟩ := description_closed_iff.2 ⟨legible, described⟩
    refine lift_bind_eq_ok_iff.2 ⟨text, c₄, read, ?_⟩
    have closed := nextOf_eq_ok_iff.2 ⟨closed, List.mem_singleton.2 closes⟩
    refine lift_bind_eq_ok_iff.2 ⟨closing, c, closed, ?_⟩
    rw [pure_eq_ok_iff]
    exact ⟨declaration_eq ⟨word.text, header, entries, text⟩, rfl⟩

/-! ### What a definition comes to -/

/-- The bases that a definition refers to, as far as they are known, in order. -/
def Parts.known (p : Parts) (table : BaseTable) : List Declaration :=
  (p.entries.filterMap base?).filterMap fun reference => table.get? reference.1

/-- What a definition earns: a warning for each selector of the fallback grammar, and behind them one for
each reference to a base that is not known. -/
def Parts.warnings (p : Parts) (table : BaseTable) : List Warning :=
  p.entries.filterMap outdated? ++
    ((p.entries.filterMap base?).filter fun reference => (table.get? reference.1).isNone).map
      fun reference => ⟨.unknownBase reference.1, reference.2⟩

/-- A session behind a definition that ends at the cursor, with its warnings. -/
def Parts.passed (p : Parts) (s : Session) (c : Cursor) : Session :=
  { s with cursor := c, warnings := s.warnings ++ p.warnings s.bases }

/-- What a definition that ends at the cursor comes to, filled from the bases that are known: what has no
color even so is kept as the one base of its name, and else it is a class. -/
inductive Concludes (s : Session) (p : Parts) (c : Cursor) : Outcome → Session → Prop where
  | base {d : Declaration} (filled : p.declaration.Filled (p.known s.bases) d) (base : d.color = none) :
    Concludes s p c (.base p.name) { p.passed s c with
      bases := ⟨(p.name, d) :: s.bases.entries.filter fun entry => entry.1 ≠ p.name⟩ }
  | entity {d : Declaration} {e : EntityClass} (filled : p.declaration.Filled (p.known s.bases) d)
    (presents : e.Presents d) : Concludes s p c (.entity e) (p.passed s c)

theorem Concludes.unique {s s₁ s₂ : Session} {p : Parts} {outcome outcome' : Outcome}
    (h₁ : Concludes s p c outcome s₁) (h₂ : Concludes s p c outcome' s₂) :
    outcome = outcome' ∧ s₁ = s₂ := by
  cases h₁ with
  | base filled base =>
    cases h₂ with
    | base filled' => exact ⟨rfl, by rw [filled.unique filled']⟩
    | entity filled' presents =>
      cases filled.unique filled'
      cases base.symm.trans presents.color
  | entity filled presents =>
    cases h₂ with
    | base filled' base =>
      cases filled.unique filled'
      cases base.symm.trans presents.color
    | entity filled' presents' =>
      cases filled.unique filled'
      exact ⟨congrArg _ (presents.unique presents'), rfl⟩

theorem Concludes.cursor_eq {s s' : Session} {p : Parts} {outcome : Outcome}
    (h : Concludes s p c outcome s') : s'.cursor = c := by
  cases h <;> rfl

theorem Concludes.ne_finished {s s' : Session} {p : Parts} {outcome : Outcome}
    (h : Concludes s p c outcome s') : outcome ≠ .finished := by
  cases h <;> nofun

/-- Behind a declaration nothing can fail. -/
theorem exists_concludes (settings : Settings) (s : Session) (p : Parts) (c : Cursor) :
    ∃ outcome s', Concludes s p c outcome s' ∧
      (do
        let d ← resolve p.declaration
        if d.isBase then keep d else return .entity (d.entityClass settings.defaultColor) :
          Parsing Outcome)
        { s with cursor := c, warnings := s.warnings ++ p.entries.filterMap outdated? } =
          .ok outcome s' := by
  have filled : p.declaration.Filled (p.known s.bases) (p.declaration.resolve s.bases) :=
    p.declaration.filled_resolve s.bases
  have warned : resolve p.declaration
      { s with cursor := c, warnings := s.warnings ++ p.entries.filterMap outdated? } =
        .ok (p.declaration.resolve s.bases) (p.passed s c) := by
    unfold Parts.passed Parts.warnings
    rw [← List.append_assoc]
    rfl
  cases color : (p.declaration.resolve s.bases).color with
  | none =>
    refine ⟨_, _, .base filled color, bind_eq_ok_iff.2 ⟨_, _, warned, ?_⟩⟩
    rw [if_pos (by simp [Declaration.isBase, color])]
    rfl
  | some own =>
    have presents := Declaration.presents_entityClass color settings.defaultColor
    refine ⟨_, _, .entity filled presents, bind_eq_ok_iff.2 ⟨_, _, warned, ?_⟩⟩
    rw [if_neg (by simp [Declaration.isBase, color])]
    rfl

/-- The next definition is read where one is written and a token can be made where its description
starts, and it comes to what its parts come to. Else there must be none up to the end of the
file. -/
theorem next_eq_ok_iff {settings : Settings} {s s' : Session} {outcome : Outcome} :
    next settings s = .ok outcome s' ↔
      (∃ p body c, Written settings.dialect s.cursor p body c ∧ Legible body.rest ∧
        Concludes s p c outcome s') ∨
      ∃ t c, Opening s.cursor t c ∧ t.kind = .endOfFile ∧ outcome = .finished ∧
        s' = { s with cursor := c } := by
  constructor
  · intro h
    obtain ⟨opened, c₁, front, h⟩ := lift_bind_eq_ok_iff.1 h
    obtain ⟨mark, opening, rfl⟩ := opening_eq_ok_iff.1 front
    split at h
    · rename_i opens
      obtain ⟨d, s₁, declared, h⟩ := bind_eq_ok_iff.1 h
      obtain ⟨p, body, c, behind, legible, rfl, rfl⟩ := declare_eq_ok_iff.1 declared
      refine .inl ⟨p, body, c, .mk opening (of_decide_eq_true opens) behind,
        exists_next_iff.1 legible, ?_⟩
      obtain ⟨outcome', s₂, concludes, run⟩ := exists_concludes settings s p c
      cases run.symm.trans h
      exact concludes
    · rename_i other
      obtain ⟨rfl, rfl⟩ := pure_eq_ok_iff.1 h
      have last : mark.kind = .endOfFile := by
        cases opening with
        | mk _ _ _ opens => exact opens.resolve_left fun is => other (decide_eq_true is)
      exact .inr ⟨mark, c₁, opening, last, rfl, rfl⟩
  · rintro (⟨p, body, c, ⟨opening, opens, behind⟩, legible, concluded⟩ |
      ⟨mark, c, opening, last, rfl, rfl⟩)
    · rename_i c₁ mark
      obtain ⟨outcome', s₂, concludes, run⟩ := exists_concludes settings s p c
      obtain ⟨rfl, rfl⟩ := concluded.unique concludes
      have front := opening_eq_ok_iff.2 ⟨_, opening, (decide_eq_true opens).symm⟩
      have declared : declare settings.dialect { s with cursor := c₁ } = .ok _ _ :=
        declare_eq_ok_iff.2 ⟨p, body, c, behind, exists_next_iff.2 legible, rfl, rfl⟩
      refine lift_bind_eq_ok_iff.2 ⟨true, c₁, front, ?_⟩
      rw [if_pos rfl, bind_of_ok declared]
      exact run
    · have front := opening_eq_ok_iff.2 ⟨mark, opening, rfl⟩
      refine lift_bind_eq_ok_iff.2 ⟨_, c, front, ?_⟩
      rw [last]
      rfl

/-- Behind a definition that has been read less is left. -/
theorem unread_next_lt {settings : Settings} {s s' : Session} {outcome : Outcome}
    (h : next settings s = .ok outcome s') (declares : outcome ≠ .finished) :
    s'.unread < s.unread := by
  rcases next_eq_ok_iff.1 h with ⟨p, body, c, written, -, concluded⟩ | ⟨_, _, -, -, rfl, -⟩
  · rw [Session.unread, concluded.cursor_eq]
    exact written.unread_lt
  · exact absurd rfl declares

/-- A definition is read exactly where one is written and a token can be made where its description
starts, and it comes to what its parts come to in the session. -/
theorem next_declares_iff (settings : Settings) (s : Session) (outcome : Outcome) (s' : Session) :
    next settings s = .ok outcome s' ∧ outcome ≠ .finished ↔
      ∃ p body c, Written settings.dialect s.cursor p body c ∧ Legible body.rest ∧
        Concludes s p c outcome s' := by
  constructor
  · rintro ⟨read, declares⟩
    rcases next_eq_ok_iff.1 read with written | ⟨_, _, -, -, rfl, -⟩
    · exact written
    · exact absurd rfl declares
  · rintro ⟨p, body, c, written, legible, concludes⟩
    exact ⟨next_eq_ok_iff.2 (.inl ⟨p, body, c, written, legible, concludes⟩), concludes.ne_finished⟩

/-- A definition whose description starts with a bracket. -/
def bracketed : String := "/*QUAKED n (1 0 0) ?\n[text]\n*/"

/-- A description in a bracket is written, but not read. -/
theorem written_and_rejected :
    (∃ p body c, Written {} (Cursor.ofString bracketed) p body c ∧ p.name = "n" ∧
      p.description = "[text]") ∧
    ∃ e s', next {} (.ofString bracketed) = .error e s' := by
  let at_ (n : Nat) : Cursor := (Cursor.ofString bracketed).skip n
  have mark : Stands (at_ 0) ⟨.commentOpen, "/*QUAKED", ⟨1, 1⟩⟩ (at_ 8) := rfl
  have front : (at_ 8).rest = redName _ := rfl
  obtain ⟨⟨word, named, isWord, name⟩, tokens, r, g, b, colors, colored⟩ := stands_redName front
  have brush : Stands (at_ 18) ⟨.word, "?", ⟨1, 20⟩⟩ (at_ 20) := rfl
  have newline : Stands (at_ 20) ⟨.newline, "\n", ⟨1, 21⟩⟩ (at_ 21) := rfl
  have bracket : ∃ e c, Token.next (at_ 21) = .error e c := ⟨_, _, rfl⟩
  have unread : ∀ t c, ¬ Stands (at_ 21) t c := by
    intro t c stands
    obtain ⟨e, c', failed⟩ := bracket
    cases stands.symm.trans failed
  have line : Line (at_ 10) _ (at_ 20) :=
    .header (colors.append (InOrder.append (.cons brush (.nil _)) (.nil _)))
      (.mk colored (.mark rfl rfl) nofun (by decide))
  have opened : Opening (at_ 0) _ (at_ 8) := .mk (.nil _) nofun mark (.inl rfl)
  constructor
  · have described : Remark (at_ 21) "[text]" (at_ 30) := remark_iff.2 ⟨⟨[], rfl⟩, rfl, rfl⟩
    have bare : Body {} (at_ 21) [] (at_ 21) := .bare fun t c stands => absurd stands (unread t c)
    have behind := WrittenBehind.mk named isWord line newline rfl bare described
    exact ⟨_, at_ 21, at_ 30, .mk opened rfl behind, name, rfl⟩
  · obtain ⟨e, c, failed⟩ := bracket
    let s (c : Cursor) : Session := { Session.ofString bracketed with cursor := c }
    have front := opening_eq_ok_iff.2 ⟨_, opened, rfl⟩
    have passed : (liftM opening : Parsing Bool) (s (at_ 0)) = .ok true (s (at_ 8)) :=
      lift_eq_ok_iff.2 ⟨_, front, rfl⟩
    have first := header_eq_ok_iff.2 ⟨_, _, _, _, named, isWord, rfl, line, newline, rfl⟩
    have named : (liftM header : Parsing (String × Option Header)) (s (at_ 8)) = .ok _ (s (at_ 21)) :=
      lift_eq_ok_iff.2 ⟨_, first, rfl⟩
    have peeked : (liftM Token.peek : Parsing Token) (s (at_ 21)) = .error e (s c) := by
      rw [lift_apply, Token.peek, Reading.ahead, failed]
      rfl
    have unentered : entries {} (s (at_ 21)) = .error e (s c) := bind_of_error peeked
    have undeclared : declare {} (s (at_ 8)) = .error e (s c) :=
      (bind_of_ok named).trans (bind_of_error unentered)
    exact ⟨e, s c, (bind_of_ok passed).trans (bind_of_error undeclared)⟩

end Definition
end Quaked
