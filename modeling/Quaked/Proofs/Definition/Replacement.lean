import Quaked.Proofs.Definition.Exactness
import Quaked.Proofs.Definition.Single
import Quaked.Proofs.Positional
import Quaked.Proofs.Selector.Layout
import Quaked.Proofs.Selector.RoundTrip
import Quaked.Selector.Model

/-!
# Suggested replacements

A selector of the older grammar earns the warning to write another text instead, which is the text of
the selector it stands for. The advice is good exactly if the names that the selector looks up are
names of the preferred grammar (`replacement_faithful_iff`). The older grammar takes any word for the
attribute of a condition and any quoted string for the attributes that hold a model, so they need not
be.

* `Concludes.holdsModel`: the last selector that is written is the model of what is declared.
* `not_faithful_conditional_true`: a file with one class whose model is not what is suggested.
-/

namespace Quaked

open Text

namespace Selector

/-- The text of a selector is read as its equal, and picks the same models. -/
def Faithful (e : Selector) : Prop :=
  ∃ e', parse e.text = .ok e' ∧ (e' == e) = true ∧ ∀ store, e'.model? store = e.model? store

end Selector

open Selector (Faithful isName)

/-! ### Positional selectors -/

/-- A positional selector is read from its text exactly if its names are names, and then as itself. -/
theorem Positional.faithful_iff {entries : List Entry} (range : ∀ entry ∈ entries, entry.InRange) :
    Faithful (selector entries) ↔ ∀ name ∈ (selector entries).lookups, isName name = true := by
  constructor
  · rintro ⟨e', parsed, same, -⟩
    exact (Selector.printable_of_parse_text parsed same).isName
  · intro names
    have printable := printable_selector range names
    have parsed := printable.readable.parse_text
    rw [reread_selector range] at parsed
    refine ⟨_, parsed, ?_, fun store => rfl⟩
    have same := printable.reread_equals
    rw [reread_selector range] at same
    exact same

namespace Definition

/-- What a warning suggests is faithful exactly if its names are names. -/
theorem faithful_iff_of_warranted {e : Selector} {position : Position}
    (warranted : Warning.Warranted {} ⟨.replaceable e, position⟩) :
    Faithful e ↔ ∀ name ∈ e.lookups, isName name = true := by
  obtain ⟨c, c', read⟩ := warranted e rfl
  obtain ⟨entries, range, rfl⟩ := Positional.entries_of_expression read
  exact Positional.faithful_iff range

/-! ### Where a suggestion comes from -/

section Origin

variable {settings : Settings} {s s' : Session} {p : Parts} {c : Cursor} {outcome : Outcome}

/-- A selector is the model of what has been declared: of the base that is kept, or of the class if that
is a point. -/
def HoldsModel (outcome : Outcome) (s' : Session) (e : Selector) : Prop :=
  match outcome with
  | .finished => False
  | .base name => ∃ d, s'.bases.get? name = some d ∧ d.model = some e
  | .entity class' => ∀ bounds model, class'.shape = .point bounds model → model = some e

theorem Concludes.holdsModel {e : Selector} (h : Concludes s p c outcome s')
    (last : (p.entries.filterMap selector?).getLast? = some e) : HoldsModel outcome s' e := by
  have own : p.declaration.model = some e := last
  cases h with
  | @base d filled =>
    refine ⟨d, List.lookup_cons_self, ?_⟩
    rw [filled.model, own]
    rfl
  | entity filled presents =>
    intro bounds model shape
    rw [← ((presents.shape bounds model).1 shape).2, filled.model, own]
    rfl

theorem Concludes.warnings_eq (h : Concludes s p c outcome s') :
    s'.warnings = s.warnings ++ p.warnings s.bases := by
  cases h <;> rfl

/-- A reference to a base suggests no selector, so what a definition suggests is suggested for its
clauses. -/
theorem Parts.replaceable_mem_warnings_iff {table : BaseTable} {e : Selector} {position : Position} :
    ⟨.replaceable e, position⟩ ∈ p.warnings table ↔ .model ⟨e, some position⟩ ∈ p.entries := by
  rw [← replaceable_mem_iff, Parts.warnings, List.mem_append]
  refine or_iff_left ?_
  intro mem
  obtain ⟨_, -, is⟩ := List.mem_map.1 mem
  cases is

/-- What a definition adds to the warnings of a session is warranted, whatever these are. -/
theorem warranted_of_next {added : List Warning} (run : next settings s = .ok outcome s')
    (warnings : s'.warnings = s.warnings ++ added) : ∀ w ∈ added, w.Warranted settings.dialect := by
  let Further (warnings : List Warning) : Prop :=
    ∃ added, warnings = s.warnings ++ added ∧ ∀ w ∈ added, w.Warranted settings.dialect
  have extensible : Extensible settings.dialect Further := by
    rintro _ later ⟨added, rfl, earlier⟩ warranted
    exact ⟨added ++ later, List.append_assoc _ _ _, List.forall_mem_append.2 ⟨earlier, warranted⟩⟩
  have before : Further s.warnings := ⟨[], (List.append_nil _).symm, List.forall_mem_nil _⟩
  obtain ⟨added', same, warranted⟩ := (keeps_next extensible).of_ok before run
  rw [warnings] at same
  cases List.append_cancel_left same
  exact warranted

end Origin

end Definition

/-! ### A clause with a condition -/

section Conditional

open Token

/-- A positional selector with one entry under a condition. -/
def conditional (name : String) : String := "\"a.mdl\" " ++ name ++ " = 1"

/-- What such a selector stands for. -/
def conditionalSelector (name : String) : Selector :=
  Positional.selector [.fixed "a.mdl" none none (some (name, .integer 1))]

/-- What stands behind the name of such a selector in a clause. -/
def behindName : List Char :=
  ' ' :: '=' :: ' ' :: '1' :: ')' :: Definition.behindClause

/-- The text of such a selector in a clause, and what stands behind it. -/
def conditionalText (name : String) : List Char :=
  '"' :: 'a' :: '.' :: 'm' :: 'd' :: 'l' :: '"' :: ' ' :: (name.toList ++ behindName)

theorem clauseText_conditional (name : String) :
    Definition.clauseText (conditional name) = conditionalText name := by
  unfold conditional
  simp only [Definition.clauseText, String.toList_append, behindName, conditionalText]
  simp

variable {name : String}

variable (word : front? (name.toList ++ behindName) = some ((.word, name), behindName))
include word

theorem front?_afterPath :
    front? (' ' :: (name.toList ++ behindName)) = some ((.word, name), behindName) :=
  (front?_space _).trans word

/-- A word is no skin and no frame. -/
theorem reads_integer?_none : Reads Positional.integer? (' ' :: (name.toList ++ behindName))
    (· = none) (' ' :: (name.toList ++ behindName)) := by
  refine (reads_peekPastNewlines (front?_afterPath word) (by decide)).bind fun t is => ?_
  rw [if_neg (by rw [is.1]; decide)]
  exact .pure rfl

theorem reads_condition : Reads Positional.condition? (' ' :: (name.toList ++ behindName))
    (· = some (name, .integer 1)) (')' :: Definition.behindClause) := by
  have equals : front? behindName =
      some ((.equals, "="), ' ' :: '1' :: ')' :: Definition.behindClause) := rfl
  have one : front? (' ' :: '1' :: ')' :: Definition.behindClause) =
      some ((.integer, "1"), ')' :: Definition.behindClause) := rfl
  refine (reads_peekPastNewlines (front?_afterPath word) (by decide)).bind fun t is => ?_
  rw [if_pos is.1]
  refine (reads_next (front?_afterPath word)).bind fun t named => ?_
  refine (reads_nextOfPastNewlines equals (by decide) (by decide)).bind fun _ _ => ?_
  have operand : Reads Positional.operand (' ' :: '1' :: ')' :: Definition.behindClause)
      (· = .integer 1) (')' :: Definition.behindClause) := by
    refine (reads_nextOfPastNewlines one (by decide) (by decide)).bind fun t is => ?_
    rw [if_pos is.1]
    have written : Word.ofString? t.text = some 1 := by
      rw [is.2]
      decide
    unfold Positional.integerOf
    rw [written]
    exact .pure rfl
  refine operand.bind fun _ is => ?_
  rw [is, named.2]
  exact .pure rfl

theorem reads_fixed : Reads Positional.fixed (conditionalText name)
    (· = .fixed "a.mdl" none none (some (name, .integer 1))) (')' :: Definition.behindClause) := by
  have path : front? (conditionalText name) =
      some ((.quoted, "a.mdl"), ' ' :: (name.toList ++ behindName)) := rfl
  refine (reads_nextOfPastNewlines path (by decide) (by decide)).bind fun t is => ?_
  refine (reads_integer?_none word).bind fun _ skin => ?_
  refine (reads_integer?_none word).bind fun _ frame => ?_
  refine (reads_condition word).bind fun _ condition => ?_
  have value : t.value = "a.mdl" := by
    rw [Token.value, is.2]
    decide
  rw [skin, frame, condition, value]
  exact .pure rfl

/-- The positional grammar reads the selector. -/
theorem reads_conditional : Reads Positional.expression (conditionalText name)
    (· = conditionalSelector name) (')' :: Definition.behindClause) := by
  have path : front? (conditionalText name) =
      some ((.quoted, "a.mdl"), ' ' :: (name.toList ++ behindName)) := rfl
  have closing := front?_closeParen Definition.behindClause
  have entry : Reads Positional.entry (conditionalText name)
      (· = .fixed "a.mdl" none none (some (name, .integer 1))) (')' :: Definition.behindClause) := by
    refine (reads_peekPastNewlines path (by decide)).bind fun t is => ?_
    refine (reads_expect (by decide) is).bind fun t is => ?_
    rw [if_pos is.1]
    exact reads_fixed word
  have entries : Reads Positional.entries (conditionalText name)
      (· = [.fixed "a.mdl" none none (some (name, .integer 1))]) (')' :: Definition.behindClause) := by
    refine entry.bind fun _ is => ?_
    rw [is]
    refine Reads.iterate ((reads_peekPastNewlines closing (by decide)).bind fun t is => ?_)
    rw [if_neg (by rw [is.1]; decide)]
    exact .pure rfl
  refine entries.bind fun _ is => ?_
  rw [is]
  exact .pure rfl

omit word

/-- The preferred grammar takes the path for the selector and does not find the parenthesis behind
it. -/
theorem readBy_conditional {w : Selector.Token.Kind × String} {rest : List Char}
    (word : front? (name.toList ++ behindName) = some ((.word, name), behindName))
    (token : Selector.Token.front? (' ' :: (name.toList ++ behindName)) = some (w, rest))
    (stop : w.1.stops 1) {c : Cursor} (here : c.rest = conditionalText name) :
    ∃ failure c', ModelClause.readBy .expression c = .error failure c' := by
  have path : Selector.Token.front? (conditionalText name) =
      some ((.string, "a.mdl"), ' ' :: (name.toList ++ behindName)) := rfl
  obtain ⟨_, c₁, read, -, left⟩ := Selector.reads_of_lexes (Selector.lexes_string path)
    (Selector.derives_string "a.mdl") token stop c here
  have other : Kind.word ∉ [Kind.closeParen] := by decide
  obtain ⟨failure, c₂, closing⟩ := nextOf_eq_error (front?_afterPath word) left other
  refine ⟨failure, c₂, ?_⟩
  unfold ModelClause.readBy
  rw [bind_of_ok (show SelectorGrammar.read .expression c = _ from read), bind_of_error closing]

/-- So the clause is read by the fallback grammar. -/
theorem readEither_conditional {w : Selector.Token.Kind × String} {rest : List Char}
    (word : front? (name.toList ++ behindName) = some ((.word, name), behindName))
    (token : Selector.Token.front? (' ' :: (name.toList ++ behindName)) = some (w, rest))
    (stop : w.1.stops 1) :
    Reads (ModelClause.readEither {}) (conditionalText name)
      (fun clause => ∃ position, clause = ⟨conditionalSelector name, some position⟩)
      Definition.behindClause := by
  intro c here
  obtain ⟨failure, c₁, preferred⟩ := readBy_conditional word token stop here
  have fallback : Reads (ModelClause.readBy .positional) (conditionalText name)
      (· = conditionalSelector name) Definition.behindClause := by
    refine (reads_conditional word).bind fun _ is => ?_
    exact (reads_nextOf (front?_closeParen _) (by decide)).bind fun _ _ => .pure is
  obtain ⟨_, c₂, read, rfl, left⟩ := fallback c here
  refine ⟨_, c₂, ModelClause.readEither_eq_ok_iff.2 (.inr ?_), ⟨c.position, rfl⟩, left⟩
  exact ⟨_, failure, c₁, preferred, read, rfl⟩

/-- A file with such a clause has one class, which has the selector as its model, and one warning, which
suggests the selector. -/
theorem read_conditional {w : Selector.Token.Kind × String} {rest : List Char}
    (word : front? (name.toList ++ behindName) = some ((.word, name), behindName))
    (token : Selector.Token.front? (' ' :: (name.toList ++ behindName)) = some (w, rest))
    (stop : w.1.stops 1) (settings : Settings) (dialect : settings.dialect = {}) :
    ∃ class' bounds position,
      (File.read settings (Definition.singleClause (conditional name))).result = .ok [class'] ∧
      class'.shape = .point bounds (some (conditionalSelector name)) ∧
      (File.read settings (Definition.singleClause (conditional name))).session.warnings =
        [⟨.replaceable (conditionalSelector name), position⟩] := by
  have clause : Reads (ModelClause.readEither settings.dialect)
      (Definition.clauseText (conditional name))
      (fun clause => ∃ position, clause = ⟨conditionalSelector name, some position⟩)
      Definition.behindClause := by
    rw [clauseText_conditional, dialect]
    exact readEither_conditional word token stop
  obtain ⟨_, class', bounds, result, shape, ⟨position, rfl⟩, warnings⟩ :=
    Definition.read_singleClause clause
  exact ⟨class', bounds, position, result, shape, warnings⟩

end Conditional

namespace Definition

/-! ### Faithful suggestions -/

/-- Whatever a file is warned to replace, and whatever a definition is in one of several calls, the
suggestion is faithful exactly if the names in it are names. What is written in a definition that is read
says what is suggested: the selectors of its clauses in the fallback grammar, each where it starts. The
selector of its last clause is the model of what it declares. -/
theorem replacement_faithful_iff (color : Color) :
    (∀ text e position,
      ⟨.replaceable e, position⟩ ∈ (File.read ⟨{}, color⟩ text).session.warnings →
        (Faithful e ↔ ∀ name ∈ e.lookups, isName name = true)) ∧
    (∀ s limit, ∀ call ∈ File.calls ⟨{}, color⟩ s limit, ∀ e position,
      ⟨.replaceable e, position⟩ ∈ call.warnings →
        (Faithful e ↔ ∀ name ∈ e.lookups, isName name = true)) ∧
    ∀ s outcome s', next ⟨{}, color⟩ s = .ok outcome s' → outcome ≠ .finished →
      ∃ p body, Written {} s.cursor p body s'.cursor ∧
        s'.warnings = s.warnings ++ p.warnings s.bases ∧
        (∀ e position, ⟨.replaceable e, position⟩ ∈ p.warnings s.bases ↔
          .model ⟨e, some position⟩ ∈ p.entries) ∧
        (∀ e position, .model ⟨e, some position⟩ ∈ p.entries →
          (Faithful e ↔ ∀ name ∈ e.lookups, isName name = true)) ∧
        ∀ e, (p.entries.filterMap selector?).getLast? = some e → HoldsModel outcome s' e := by
  refine ⟨?_, ?_, ?_⟩
  · intro text e position mem
    exact faithful_iff_of_warranted (warranted_of_read ⟨{}, color⟩ text _ mem)
  · intro s limit call mem e position mem'
    exact faithful_iff_of_warranted (warranted_of_calls ⟨{}, color⟩ s limit call mem _ mem')
  · intro s outcome s' run declares
    obtain ⟨p, body, c, written, -, concludes⟩ :=
      (next_declares_iff ⟨{}, color⟩ s outcome s').1 ⟨run, declares⟩
    rw [← concludes.cursor_eq] at written
    have warranted := warranted_of_next run concludes.warnings_eq
    refine ⟨p, body, written, concludes.warnings_eq, ?_, ?_, fun e last => concludes.holdsModel last⟩
    · exact fun e position => Parts.replaceable_mem_warnings_iff
    · intro e position mem
      exact faithful_iff_of_warranted (warranted _ (Parts.replaceable_mem_warnings_iff.2 mem))

/-- A condition on an attribute with a name can be replaced as suggested. -/
theorem faithful_conditional_style : ∃ class' bounds e position,
    (File.read ⟨{}, .gray⟩ (singleClause (conditional "style"))).result = .ok [class'] ∧
    class'.shape = .point bounds (some e) ∧
    (File.read ⟨{}, .gray⟩ (singleClause (conditional "style"))).session.warnings =
      [⟨.replaceable e, position⟩] ∧
    Faithful e := by
  have stop : Selector.Token.Kind.stops 1 .name := by
    intro op is
    cases op <;> cases is
  have token : Selector.Token.front? (' ' :: ("style".toList ++ behindName)) =
      some ((.name, "style"), behindName) := by decide
  obtain ⟨class', bounds, position, result, shape, warnings⟩ :=
    read_conditional (by decide) token stop ⟨{}, .gray⟩ rfl
  have names : ∀ name ∈ (conditionalSelector "style").lookups, isName name = true := by
    decide
  have faithful : Faithful (conditionalSelector "style") := by
    refine ((replacement_faithful_iff .gray).1 (singleClause (conditional "style")) _ position ?_).2 names
    rw [warnings]
    exact List.mem_singleton_self _
  exact ⟨class', bounds, _, position, result, shape, warnings, faithful⟩

/-- A condition on the attribute `true` cannot: the suggestion compares the value `true`, and the model
of the class compares what the attribute says. -/
theorem not_faithful_conditional_true : ∃ class' bounds e position,
    (File.read ⟨{}, .gray⟩ (singleClause (conditional "true"))).result = .ok [class'] ∧
    class'.shape = .point bounds (some e) ∧
    (File.read ⟨{}, .gray⟩ (singleClause (conditional "true"))).session.warnings =
      [⟨.replaceable e, position⟩] ∧
    ¬ Faithful e := by
  have stop : Selector.Token.Kind.stops 1 .boolean := by
    intro op is
    cases op <;> cases is
  have token : Selector.Token.front? (' ' :: ("true".toList ++ behindName)) =
      some ((.boolean, "true"), behindName) := by decide
  obtain ⟨class', bounds, position, result, shape, warnings⟩ :=
    read_conditional (by decide) token stop ⟨{}, .gray⟩ rfl
  have warranted := warranted_of_read ⟨{}, .gray⟩ (singleClause (conditional "true"))
  rw [warnings] at warranted
  refine ⟨class', bounds, _, position, result, shape, warnings, fun faithful => ?_⟩
  have names := faithful_iff_of_warranted (warranted _ (List.mem_singleton_self _))
  exact absurd (names.1 faithful "true" (by decide)) (by decide)

end Definition
end Quaked
