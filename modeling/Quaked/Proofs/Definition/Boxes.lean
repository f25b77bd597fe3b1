import Quaked.Proofs.Definition.Corners

/-!
# Boxes are in order

A class has the box that the two corners in its own header span, as no base has one to give. On each axis
one of their two numbers is the lower end and the other one the upper end, and both are numbers. Which corner
comes first makes no difference to the box, and to nothing else that is read: behind the box a definition
comes to the same at two places where the same text is left (`inStep_concludeBy`).

* `boxed_of_next`: a class with a box has two corners behind its name and its color.
* `next_swapped`: what is read with the corners in the opposite order.
* `point_bounds_ordered`: so it is with every class that is read from a text.
-/

namespace Quaked.Definition

open Text Token Header Entry

variable {settings : Settings} {s s' t : Session} {c c' : Cursor} {name : String} {color : Color}
  {a b : Vector}

/-! ### The box of a class -/

/-- A class with a box has one behind its name and its color, as no base gives it any. -/
theorem boxed_of_next {e : EntityClass} {bounds : Bounds} {model : Option Selector}
    (wellFormed : s.bases.WellFormed) (run : next settings s = .ok (.entity e) s')
    (point : e.shape = .point bounds model) : ∃ l a b c, Boxed s.cursor e.name e.color l a b c := by
  cases (next_eq_ok_iff_passes wellFormed).1 run with
  | definition written _ yields =>
    cases yields with
    | entity headed presents =>
      obtain ⟨opened, opens, named, isWord, line, -, -, -, -⟩ := written
      cases line with
      | bare => cases headed
      | header tokens written =>
        obtain ⟨colored, extended, -, -⟩ := written
        obtain ⟨c₁, colorRun, extentAndFlags⟩ := InOrder.append_iff.1 tokens
        obtain ⟨c₂, extentRun, -⟩ := InOrder.append_iff.1 extentAndFlags
        have front := UpToBox.mk opened opens named isWord colorRun colored
        have color := Option.some.inj presents.color
        obtain ⟨box, -⟩ := (presents.shape bounds model).1 point
        cases extended with
        | @box _ _ _ x y z x' y' z' first second =>
          obtain ⟨c₃, run, run'⟩ := InOrder.append_iff.1 extentRun
          obtain ⟨before, here⟩ := front.rest_suffix
          obtain ⟨gap, corner, first⟩ := Corner.of_run (v := ⟨x, y, z⟩) run first
          obtain ⟨between, corner', second⟩ := Corner.of_run (v := ⟨x', y', z'⟩) run' second
          rw [presents.name, ← color]
          exact ⟨_, _, _, _, .mk front here.symm first second⟩
        | mark => cases box
        | nothing => cases box

/-! ### From behind the box on -/

/-- A header from behind its box on. -/
def readBehind (color : Color) (bounds : Bounds) : Reading Header := do
  let flags ← iterate Cursor.unread readFlag? []
  return { color, bounds, flags }

/-- The first line of a definition from behind the box on. -/
def headerBehind (name : String) (color : Color) (bounds : Bounds) : Reading (String × Option Header) := do
  let header ← some <$> readBehind color bounds
  let _ ← Token.nextOf [.newline]
  return (name, header)

/-- A definition whose first line is read in some way. -/
def declareBy (dialect : Dialect) (header : Reading (String × Option Header)) : Parsing Declaration := do
  let (name, header) ← header
  let entries ← entries dialect
  let description ← description
  let _ ← Token.nextOf [.commentClose]
  return declaration name header entries description

/-- What such a definition comes to. -/
def concludeBy (settings : Settings) (header : Reading (String × Option Header)) : Parsing Outcome := do
  let d ← resolve (← declareBy settings.dialect header)
  if d.isBase then keep d else return .entity (d.entityClass settings.defaultColor)

/-- Of what stands in front of the end of a box only what it says counts. -/
theorem header_of_box {c₁ c₂ : Cursor} {word : Token} {tokens corner corner' : List Token}
    {r g b : Number .single} {v w : Vector} (named : Stands c word c₁) (isWord : word.kind = .word)
    (colorRun : Run c₁ tokens c₂) (colored : Triple .single tokens (r, g, b))
    (run : Run c₂ (corner ++ corner') c') (first : Triple .double corner (v.x, v.y, v.z))
    (second : Triple .double corner' (w.x, w.y, w.z)) :
    header c = headerBehind word.text (.ofComponents r g b) (.spanning v w) c' := by
  obtain ⟨t, ts, rfl, opens⟩ := colored.opens
  obtain ⟨_, paren, -⟩ := InOrder.cons_iff.1 colorRun
  have color := readColor_eq_ok_iff.2 ⟨_, _, _, _, colorRun, colored, rfl⟩
  have box := readExtent_of_extent (.box first second) run (.nil c')
  have read : Header.read c₁ = readBehind (.ofComponents r g b) (.spanning v w) c' :=
    (bind_of_ok color).trans (bind_of_ok box)
  exact (header_of_openParen named isWord paren opens).trans (bind_of_same (bind_of_same read))

theorem next_eq_concludeBy {l : Layout} (h : Boxed s.cursor name color l a b c) :
    next settings s =
      concludeBy settings (headerBehind name color (.spanning a b)) { s with cursor := c } := by
  obtain ⟨front, -, first, second⟩ := h
  obtain ⟨opened, opens, named, isWord, colorRun, colored⟩ := front
  obtain ⟨run, triple, -, -⟩ := first
  obtain ⟨run', triple', -, -⟩ := second
  have mark := opening_eq_ok_iff.2 ⟨_, opened, (decide_eq_true opens).symm⟩
  have line := header_of_box named isWord colorRun colored (run.append run') triple triple'
  refine (lift_bind_of_ok mark).trans ?_
  rw [if_pos rfl]
  refine bind_of_same (bind_of_same ?_)
  rw [lift_apply, lift_apply, line]
  dsimp only
  cases headerBehind _ _ _ c <;> rfl

/-! ### Another box -/

/-- What entries add does not depend on the box. -/
theorem foldl_add_bounds (d : Declaration) (entries : List Entry) (bounds : Option Bounds) :
    { entries.foldl add d with bounds } = entries.foldl add { d with bounds } := by
  rw [foldl_add_eq, foldl_add_eq]

/-- The second declaration has another box, and refers to the same bases at related cursors. -/
structure Reboxed (R : Cursor → Cursor → Prop) (bounds bounds' : Bounds) (d d' : Declaration) : Prop where
  bounds : d.bounds = some bounds
  colored : d.color.isSome = true
  same : SameDeclaration R { d with bounds := some bounds' } d'

/-- The second outcome is the class of the first one with another box. -/
inductive Redrawn (bounds bounds' : Bounds) : Outcome → Outcome → Prop where
  | mk {e : EntityClass} {model : Option Selector} (shape : e.shape = .point bounds model) :
    Redrawn bounds bounds' (.entity e) (.entity { e with shape := .point bounds' model })

section Sessions

variable {R : Cursor → Cursor → Prop} {ws ws' : List Warning} {bounds bounds' : Bounds}

theorem reboxed_declaration (name : String) (color : Color) (flags : List String) (description : String)
    {entries entries' : List Entry} (same : List.Forall₂ (SameEntry R) entries entries') :
    Reboxed R bounds bounds' (declaration name (some ⟨color, bounds, flags⟩) entries description)
      (declaration name (some ⟨color, bounds', flags⟩) entries' description) := by
  unfold declaration
  constructor
  · rw [foldl_add_eq]
    rfl
  · rw [foldl_add_eq]
    rfl
  · rw [foldl_add_bounds]
    exact (SameDeclaration.refl_of_none rfl).foldl_add same

theorem inStep_resolve_reboxed {d d' : Declaration} (h : Reboxed R bounds bounds' d d') :
    InStep (SameSession R ws ws') (Blames R)
      (fun r r' => r.bounds = some bounds ∧ r.color.isSome = true ∧ r' = { r with bounds := some bounds' })
      (resolve d) (resolve d') := by
  intro s s' same
  obtain ⟨r', s₁, run, rfl, related⟩ := (inStep_resolve h.same s s' same).of_ok
  obtain ⟨color, colored⟩ := Option.isSome_iff_exists.1 h.colored
  rw [run]
  refine .ok ⟨?_, ?_, rfl⟩ related
  · show (d.bounds <|> _) = some bounds
    rw [h.bounds]
    rfl
  · show (d.color <|> _).isSome = true
    rw [colored]
    rfl

/-- The first lines that are read differ in the box. -/
theorem inStep_headerBehind (aligned : Aligned R) (name : String) (color : Color)
    (bounds bounds' : Bounds) :
    InStep R (Blames R)
      (fun line line' => ∃ flags, line = (name, some ⟨color, bounds, flags⟩) ∧
        line' = (name, some ⟨color, bounds', flags⟩))
      (headerBehind name color bounds) (headerBehind name color bounds') := by
  have flags := InStep.iterate_eq aligned.unread (inStep_readFlag? aligned) []
  have headers : InStep R (Blames R)
      (fun header header' => ∃ flags, header = some ⟨color, bounds, flags⟩ ∧
        header' = some ⟨color, bounds', flags⟩)
      (some <$> readBehind color bounds) (some <$> readBehind color bounds') := by
    refine InStep.bind (A := fun header header' => ∃ flags, header = ⟨color, bounds, flags⟩ ∧
      header' = ⟨color, bounds', flags⟩) ?_ ?_
    · exact flags.bind_eq fun flags => .pure ⟨flags, rfl, rfl⟩
    · rintro _ _ ⟨flags, rfl, rfl⟩
      exact .pure ⟨flags, rfl, rfl⟩
  refine headers.bind ?_
  rintro _ _ ⟨flags, rfl, rfl⟩
  exact (inStep_nextOf aligned _).bind fun _ _ _ => .pure ⟨flags, rfl, rfl⟩

theorem inStep_concludeBy (aligned : Aligned R) (settings : Settings) (name : String) (color : Color)
    (bounds bounds' : Bounds) :
    InStep (SameSession R ws ws') (Blames R) (Redrawn bounds bounds')
      (concludeBy settings (headerBehind name color bounds))
      (concludeBy settings (headerBehind name color bounds')) := by
  refine InStep.bind (A := Reboxed R bounds bounds') ?_ ?_
  · refine (inStep_lift (inStep_headerBehind aligned name color bounds bounds')).bind ?_
    rintro _ _ ⟨flags, rfl, rfl⟩
    refine (inStep_entries aligned settings.dialect).bind fun entries entries' same => ?_
    refine (inStep_lift (inStep_description aligned)).bind_eq fun description => ?_
    refine (inStep_lift (inStep_nextOf aligned _)).bind fun _ _ _ => .pure ?_
    exact reboxed_declaration name color flags description same
  · intro d d' same
    refine (inStep_resolve_reboxed same).bind ?_
    rintro r _ ⟨box, colored, rfl⟩
    obtain ⟨color, is⟩ := Option.isSome_iff_exists.1 colored
    have noBase : ¬ r.isBase = true := by simp [Declaration.isBase, is]
    have noBase' : ¬ ({ r with bounds := some bounds' } : Declaration).isBase = true := noBase
    have shape : (r.entityClass settings.defaultColor).shape = .point bounds r.model := by
      unfold Declaration.entityClass
      rw [box]
    rw [if_neg noBase, if_neg noBase']
    exact .pure (.mk shape)

end Sessions

/-! ### Classes -/

/-- Where the corners of its box stand in the opposite order the same class is read, with the box that they
span in that order. -/
theorem next_swapped {l : Layout} {e : EntityClass} (boxed : Boxed s.cursor name color l a b c)
    (run : next settings s = .ok (.entity e) s') (there : t.cursor.rest = l.swapped.text)
    (bases : t.bases = s.bases) :
    ∃ model t', e.shape = .point (.spanning a b) model ∧
      next settings t = .ok (.entity { e with shape := .point (.spanning b a) model }) t' ∧
      t'.cursor.rest = s'.cursor.rest := by
  obtain ⟨d, boxed', behind⟩ := boxed.swapped there
  have level : Aligned fun c d : Cursor => d.rest = c.rest :=
    ⟨id, fun n same => by rw [Cursor.rest_skip, Cursor.rest_skip, same]⟩
  have start : SameSession (fun c d : Cursor => d.rest = c.rest) s.warnings t.warnings
      { s with cursor := c } { t with cursor := d } :=
    ⟨behind, bases, [], [], (List.append_nil _).symm, (List.append_nil _).symm, .nil⟩
  have both := inStep_concludeBy level settings name color (.spanning a b) (.spanning b a) _ _ start
  rw [← next_eq_concludeBy boxed, ← next_eq_concludeBy boxed', run] at both
  obtain ⟨_, t', run', ⟨shape⟩, related⟩ := both.of_ok
  exact ⟨_, t', shape, run', related.cursor⟩

/-- **A box is in order, in whatever order its corners stand.** A class that is read from a text and has a
box has two corners in its own header, behind its name and its color. On each axis the ends of its box are the
two numbers of the corners, the lesser one below, both of them numbers, and putting the box in order once more
changes nothing. Wherever the same text is left except that the corners stand in the opposite order, and the
same bases are known, the same class is read with an equal box, and the same text is left behind it. -/
theorem point_bounds_ordered {text : String} {e : EntityClass} {bounds : Bounds} {model : Option Selector}
    (reached : Reached settings text s) (run : next settings s = .ok (.entity e) s')
    (point : e.shape = .point bounds model) :
    bounds.repair = bounds ∧ (∃ l a b c, Boxed s.cursor e.name e.color l a b c) ∧
    ∀ l a b c, Boxed s.cursor e.name e.color l a b c → s.cursor.rest = l.text ∧
      (∀ axis ∈ Vector.axes, Number.Ends (axis bounds.min) (axis bounds.max) (axis a) (axis b)) ∧
      ∀ t : Session, t.cursor.rest = l.swapped.text → t.bases = s.bases →
        ∃ bounds' t', next settings t = .ok (.entity { e with shape := .point bounds' model }) t' ∧
          (bounds == bounds') = true ∧ t'.cursor.rest = s'.cursor.rest := by
  have spans {l : Layout} {a b : Vector} {c : Cursor} (boxed : Boxed s.cursor e.name e.color l a b c) :
      bounds = .spanning a b := by
    -- whatever text has the corners in the opposite order
    let t : Session := { s with cursor := { s.cursor with rest := l.swapped.text } }
    obtain ⟨model', -, shape, -⟩ := next_swapped (t := t) boxed run rfl rfl
    cases point.symm.trans shape
    rfl
  obtain ⟨l, a, b, c, boxed⟩ := boxed_of_next reached.wellFormed run point
  refine ⟨?_, ⟨l, a, b, c, boxed⟩, ?_⟩
  · obtain ⟨first, second⟩ := boxed.numeric
    rw [spans boxed]
    exact Bounds.repair_spanning first second
  · intro l a b c boxed
    obtain ⟨first, second⟩ := boxed.numeric
    obtain rfl := spans boxed
    refine ⟨boxed.rest_eq, fun axis mem => Bounds.ends_spanning first second mem, ?_⟩
    intro t there bases
    obtain ⟨model', t', shape, run', behind⟩ := next_swapped boxed run there bases
    cases point.symm.trans shape
    exact ⟨_, t', run', Bounds.spanning_comm first second, behind⟩

/-- A definition with a box between two corners. -/
def crossed (corner corner' : String) : String :=
  "/*QUAKED n (1 0 0) " ++ corner ++ " " ++ corner' ++ "\n*/"

/-- Of two corners neither need be the lower one on each axis, and the sign of a zero may differ. -/
theorem point_bounds_ordered_crossed :
    ∃ e s' bounds, next {} (.ofString (crossed "(8 -8 0)" "(-8 8 -0)")) = .ok (.entity e) s' ∧
      e.shape = .point bounds none ∧ bounds.repair = bounds ∧
      ∃ bounds' t', next {} (.ofString (crossed "(-8 8 -0)" "(8 -8 0)")) =
        .ok (.entity { e with shape := .point bounds' none }) t' ∧ (bounds == bounds') = true := by
  let at_ (n : Nat) : Cursor := (Cursor.ofString (crossed "(8 -8 0)" "(-8 8 -0)")).skip n
  have mark : Stands (at_ 0) ⟨.commentOpen, "/*QUAKED", ⟨1, 1⟩⟩ (at_ 8) := rfl
  have front : (at_ 8).rest = redName _ := rfl
  obtain ⟨⟨word, named, isWord, -⟩, tokens, r, g, b, colors, colored⟩ := stands_redName front
  have opening₂ : Stands (at_ 18) ⟨.openParen, "(", ⟨1, 20⟩⟩ (at_ 20) := rfl
  have x : Stands (at_ 20) ⟨.integer, "8", ⟨1, 21⟩⟩ (at_ 21) := rfl
  have y : Stands (at_ 21) ⟨.integer, "-8", ⟨1, 23⟩⟩ (at_ 24) := rfl
  have z : Stands (at_ 24) ⟨.integer, "0", ⟨1, 26⟩⟩ (at_ 26) := rfl
  have closing₂ : Stands (at_ 26) ⟨.closeParen, ")", ⟨1, 27⟩⟩ (at_ 27) := rfl
  have opening₃ : Stands (at_ 27) ⟨.openParen, "(", ⟨1, 29⟩⟩ (at_ 29) := rfl
  have x' : Stands (at_ 29) ⟨.integer, "-8", ⟨1, 30⟩⟩ (at_ 31) := rfl
  have y' : Stands (at_ 31) ⟨.integer, "8", ⟨1, 33⟩⟩ (at_ 33) := rfl
  have z' : Stands (at_ 33) ⟨.integer, "-0", ⟨1, 35⟩⟩ (at_ 36) := rfl
  have closing₃ : Stands (at_ 36) ⟨.closeParen, ")", ⟨1, 37⟩⟩ (at_ 37) := rfl
  have newline : Stands (at_ 37) ⟨.newline, "\n", ⟨1, 38⟩⟩ (at_ 38) := rfl
  have close : Stands (at_ 38) ⟨.commentClose, "*/", ⟨2, 1⟩⟩ (at_ 40) := rfl
  obtain ⟨_, corner, x, y, z, first⟩ : ∃ tokens, Run (at_ 18) tokens (at_ 27) ∧
      ∃ x y z, Triple .double tokens (x, y, z) :=
    ⟨_, .cons opening₂ (.cons x (.cons y (.cons z (.cons closing₂ (.nil _))))), _, _, _,
      .mk rfl (.inl rfl) (.inl rfl) (.inl rfl) rfl⟩
  obtain ⟨_, corner', x', y', z', second⟩ : ∃ tokens, Run (at_ 27) tokens (at_ 37) ∧
      ∃ x y z, Triple .double tokens (x, y, z) :=
    ⟨_, .cons opening₃ (.cons x' (.cons y' (.cons z' (.cons closing₃ (.nil _))))), _, _, _,
      .mk rfl (.inl rfl) (.inl rfl) (.inl rfl) rfl⟩
  have opened : Opening (at_ 0) _ (at_ 8) := .mk (.nil _) nofun mark (.inl rfl)
  have line := Line.header (colors.append ((corner.append corner').append (.nil _)))
    (.mk colored (.box first second) nofun (by decide))
  have bare : Body {} (at_ 38) [] (at_ 38) := by
    refine .bare fun t c stands => ?_
    obtain ⟨rfl, -⟩ := close.unique stands
    nofun
  have written := WrittenBehind.mk named isWord line newline rfl bare (remark_of_close close rfl)
  have unread : Reached {} (crossed "(8 -8 0)" "(-8 8 -0)") _ := .start
  have run : next {} (.ofString (crossed "(8 -8 0)" "(-8 8 -0)")) = .ok (.entity _) _ :=
    (next_eq_ok_iff_passes unread.wellFormed).2
      (.definition (.mk opened rfl written) (exists_next_iff.1 ⟨_, _, close⟩)
        (.entity rfl (Declaration.presents_entityClass rfl .gray)))
  obtain ⟨ordered, -, own⟩ := point_bounds_ordered unread run rfl
  have blank {rest : List Char} : Gap [' '] rest := .blank (.inl rfl) (.nil rest)
  have boxed : Boxed (at_ 0) word.text (.ofComponents r g b) ⟨"/*QUAKED n (1 0 0)".toList ++ [' '],
      ['(', '8', ' ', '-', '8', ' ', '0', ')'], [' '],
      ['(', '-', '8', ' ', '8', ' ', '-', '0', ')'], (at_ 37).rest⟩ ⟨x, y, z⟩ ⟨x', y', z'⟩ (at_ 37) :=
    .mk (.mk opened rfl named isWord colors colored) rfl (.mk corner first rfl blank)
      (.mk corner' second rfl blank)
  obtain ⟨-, -, swap⟩ := own _ _ _ _ boxed
  obtain ⟨bounds', t', run', same, -⟩ := swap (.ofString (crossed "(-8 8 -0)" "(8 -8 0)")) rfl rfl
  exact ⟨_, _, _, run, rfl, ordered, bounds', t', run', same⟩

end Quaked.Definition
