import Quaked.CommandLine
import Quaked.Proofs.Definition.Calls

/-!
# The default color

Settings have a color for classes that declare none, but there are no such classes: a declaration that
has no color when it is resolved is kept as a base, and only then is the color of a class asked for. So
reading is the same whatever the default color is (`next_eq_of_dialect`), and every class is drawn in
the color of its own header.
-/

namespace Quaked

open Text

/-- A declaration that is no base makes the same class with any default color. -/
theorem Declaration.entityClass_eq {d : Declaration} (h : d.isBase = false) (first second : Color) :
    d.entityClass first = d.entityClass second := by
  cases color : d.color with
  | none => simp [isBase, color] at h
  | some own => simp [entityClass, color]

namespace Definition

variable {a b : Settings} {dialect : Dialect} {earlier : List Declaration} {ps : List Parts}

/-! ### Two readers with one dialect -/

/-- The next definition comes to the same with any default color. -/
theorem next_eq_of_dialect (same : a.dialect = b.dialect) : next a = next b := by
  unfold next
  rw [same]
  refine bind_congr fun opened => ?_
  cases opened with
  | false => rfl
  | true =>
    refine bind_congr fun d => bind_congr fun resolved => ?_
    -- the test stands between the resolution and the color
    cases base : resolved.isBase with
    | true => rfl
    | false => rw [resolved.entityClass_eq base]

theorem entities_eq_of_dialect (same : a.dialect = b.dialect) : entities a = entities b := by
  unfold entities entity?
  rw [next_eq_of_dialect same]

theorem sessionAfter_eq_of_dialect (same : a.dialect = b.dialect) (text : String) (n : Nat) :
    sessionAfter a text n = sessionAfter b text n := by
  induction n with
  | zero => rfl
  | succ n ih => rw [sessionAfter, sessionAfter, ih, next_eq_of_dialect same]

theorem calls_eq_of_dialect (same : a.dialect = b.dialect) (s : Session) (limit : Nat) :
    File.calls a s limit = File.calls b s limit := by
  induction limit generalizing s with
  | zero => rfl
  | succ limit ih =>
    rw [File.calls, File.calls, next_eq_of_dialect same]
    exact congrArg _ (ih _)

theorem read_eq_of_dialect (same : a.dialect = b.dialect) (text : String) :
    File.read a text = File.read b text := by
  unfold File.read
  rw [entities_eq_of_dialect same]

/-! ### Where a color comes from -/

/-- The header of a definition gives the class its color. -/
def Parts.Colors (p : Parts) (e : EntityClass) : Prop :=
  ∃ header, p.header = some header ∧ e.name = p.name ∧ e.color = header.color

theorem Parts.colors_of_presents {p : Parts} {header : Header} {bases : List Declaration} {e : EntityClass}
    (headed : p.header = some header) (presents : e.Presents (p.declaration.inheriting bases)) :
    p.Colors e := by
  have color : p.header.map (·.color) = some e.color := presents.color
  rw [headed] at color
  exact ⟨header, headed, presents.name, (Option.some.inj color).symm⟩

/-- A class among definitions has the color of one of them. -/
theorem colors_of_mem_present {es : List EntityClass} {e : EntityClass}
    (present : Present es (resolvedBehind earlier ps)) (mem : e ∈ es) : ∃ p ∈ ps, p.Colors e := by
  obtain ⟨p, among, before, presents⟩ := present.exists_of_mem mem
  obtain ⟨header, headed, -⟩ := Option.map_eq_some_iff.1 presents.color
  exact ⟨p, among, Parts.colors_of_presents headed presents⟩

theorem colors_of_next {settings : Settings} {s s' : Session} {e : EntityClass}
    (h : s.bases.WellFormed) (run : next settings s = .ok (.entity e) s') :
    ∃ p body, Written settings.dialect s.cursor p body s'.cursor ∧ p.Colors e := by
  cases (next_eq_ok_iff_passes h).1 run with
  | definition written _ yields =>
    cases yields with
    | entity headed presents => exact ⟨_, _, written, Parts.colors_of_presents headed presents⟩

theorem colors_of_read {settings : Settings} {text : String} {es : List EntityClass}
    (run : (File.read settings text).result = .ok es) :
    ∃ ps, Definitions settings.dialect (.ofString text) ps ∧ ∀ e ∈ es, ∃ p ∈ ps, p.Colors e := by
  obtain ⟨ps, definitions, present⟩ := File.definitions_of_read run
  exact ⟨ps, definitions, fun e mem => colors_of_mem_present present mem⟩

/-! ### The command line -/

theorem plan?_withColor (format : Option String) (color : String) :
    (CommandLine.Options.mk format (some color)).plan? = (do
      let plan ← (CommandLine.Options.mk format none).plan?
      let color ← Color.ofString? color
      return { plan with settings.defaultColor := color }) := by
  unfold CommandLine.Options.plan?
  cases format with
  | none => rfl
  | some name =>
    dsimp only
    cases CommandLine.Format.ofString? name <;> rfl

/-- A default color is refused or makes no difference. -/
theorem run_withColor (format : Option String) (color source : String) :
    CommandLine.run ⟨format, some color⟩ source =
      if (Color.ofString? color).isSome then CommandLine.run ⟨format, none⟩ source
      else ⟨2, "", ""⟩ := by
  unfold CommandLine.run
  rw [plan?_withColor]
  cases (CommandLine.Options.mk format none).plan? with
  | none => cases Color.ofString? color <;> rfl
  | some plan =>
    cases Color.ofString? color with
    | none => rfl
    | some color =>
      show CommandLine.Plan.run { plan with settings.defaultColor := color } source = plan.run source
      have same : File.read { plan.settings with defaultColor := color } source =
          File.read plan.settings source := by
        refine read_eq_of_dialect ?_ source
        rfl
      unfold CommandLine.Plan.run
      dsimp only
      rw [same]

/-- The default color makes no difference from any session on, nor to any number of calls, past failures
too, nor to a file that is read, for any dialect: every class is drawn in the color that its own header
declares. On the command line a default color is refused where it writes none, and else changes
nothing. -/
theorem default_color_unseen (dialect : Dialect) (first second : Color) (text : String) :
    (∀ s, next ⟨dialect, first⟩ s = next ⟨dialect, second⟩ s ∧
      entities ⟨dialect, first⟩ s = entities ⟨dialect, second⟩ s) ∧
    (∀ n, sessionAfter ⟨dialect, first⟩ text n = sessionAfter ⟨dialect, second⟩ text n ∧
      next ⟨dialect, first⟩ (sessionAfter ⟨dialect, first⟩ text n) =
        next ⟨dialect, second⟩ (sessionAfter ⟨dialect, second⟩ text n) ∧
      ∀ e s', next ⟨dialect, first⟩ (sessionAfter ⟨dialect, first⟩ text n) = .ok (.entity e) s' →
        ∃ p body, Written dialect (sessionAfter ⟨dialect, first⟩ text n).cursor p body s'.cursor ∧
          p.Colors e) ∧
    (∀ limit, File.calls ⟨dialect, first⟩ (.ofString text) limit =
      File.calls ⟨dialect, second⟩ (.ofString text) limit) ∧
    File.read ⟨dialect, first⟩ text = File.read ⟨dialect, second⟩ text ∧
    (∀ es, (File.read ⟨dialect, first⟩ text).result = .ok es →
      ∃ ps, Definitions dialect (.ofString text) ps ∧ ∀ e ∈ es, ∃ p ∈ ps, p.Colors e) ∧
    ∀ format color, CommandLine.run ⟨format, some color⟩ text =
      if (Color.ofString? color).isSome then CommandLine.run ⟨format, none⟩ text
      else ⟨2, "", ""⟩ := by
  have same : Settings.dialect ⟨dialect, first⟩ = Settings.dialect ⟨dialect, second⟩ := rfl
  refine ⟨fun s => ⟨?_, ?_⟩, fun n => ⟨sessionAfter_eq_of_dialect same text n, ?_, ?_⟩, ?_, ?_, ?_, ?_⟩
  · rw [next_eq_of_dialect same]
  · rw [entities_eq_of_dialect same]
  · rw [sessionAfter_eq_of_dialect same, next_eq_of_dialect same]
  · intro e s' run
    exact colors_of_next (reached_sessionAfter _ text n).wellFormed run
  · exact fun limit => calls_eq_of_dialect same _ limit
  · exact read_eq_of_dialect same text
  · exact fun es run => colors_of_read run
  · exact fun format color => run_withColor format color text

end Definition
end Quaked
