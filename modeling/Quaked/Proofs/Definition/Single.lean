import Quaked.Proofs.Definition.Header
import Quaked.Proofs.Definition.Warnings

/-!
# A definition of one clause

`singleClause` is the text of a definition of a point class whose only entry gives its model. What
reading it comes to depends on the clause alone: if the clause is read, the file has one class with
the model and the warnings of the clause (`read_singleClause`). If the file has one class and no
warnings, the clause has been read by the preferred grammar (`clause_of_singleClause`).
-/

namespace Quaked.Definition

open Text Token

/-- The text of a definition whose only entry gives the model by a selector. -/
def singleClause (selector : String) : String :=
  "/*QUAKED n (1 0 0) (0 0 0) (8 8 8)\n\x7b model(" ++ selector ++ "); \x7d\n*/"

/-- What stands behind the selector of a single clause and its parenthesis. -/
def behindClause : List Char := [';', ' ', '}', '\n', '*', '/']

/-! ### Readers in a session -/

section Runs

variable {α : Type} {reader : Reading α} {cs rest : List Char} {Q : α → Prop}
variable {s s' : Session} {a : α}

theorem runs_of_reads (h : Reads reader cs Q rest) (here : s.cursor.rest = cs) :
    ∃ a c, (liftM reader : Parsing α) s = .ok a { s with cursor := c } ∧ Q a ∧ c.rest = rest := by
  obtain ⟨a, c, read, holds, left⟩ := h s.cursor here
  exact ⟨a, c, lift_eq_ok_iff.2 ⟨c, read, rfl⟩, holds, left⟩

/-- What a reader answers is settled by what is left to read. -/
theorem of_runs (h : Reads reader cs Q rest) (here : s.cursor.rest = cs)
    (run : (liftM reader : Parsing α) s = .ok a s') :
    Q a ∧ ∃ c, s' = { s with cursor := c } ∧ c.rest = rest := by
  obtain ⟨a', c, run', holds, left⟩ := runs_of_reads h here
  rw [run] at run'
  cases run'
  exact ⟨holds, c, rfl, left⟩

end Runs

/-! ### Parts -/

section Parts

variable {dialect : Dialect} {s : Session} {cs : List Char} {Q : ModelClause → Prop}

/-- The entries up to the parenthesis of a clause. -/
def beforeClause (cs : List Char) : List Char :=
  '{' :: ' ' :: 'm' :: 'o' :: 'd' :: 'e' :: 'l' :: '(' :: cs

theorem reads_opening {kind : Token.Kind} {text : String} {rest : List Char}
    (front : front? cs = some ((kind, text), rest)) (stop : kind ∈ [.commentOpen, .endOfFile]) :
    Reads opening cs (· = decide (kind = .commentOpen)) rest := by
  refine Reads.bind (Reads.iterate ((reads_peek front).bind fun t is => ?_)) fun _ _ => ?_
  · have among : t.isOneOf [.commentOpen, .endOfFile] = true := by
      rw [isOneOf, is.1]
      exact decide_eq_true stop
    rw [if_pos among]
    exact .pure rfl
  · refine (reads_next front).bind fun t is => ?_
    rw [is.1]
    exact .pure rfl

/-- The word `model` starts a clause. -/
theorem reads_readRest {rest : List Char} {t : Token}
    (clause : Reads (ModelClause.readEither dialect) cs Q rest) (word : t.text = "model") :
    Reads (Entry.readRest dialect t) ('(' :: cs) (fun e => ∃ clause, Q clause ∧ e = .model clause)
      rest := by
  have front : front? ('(' :: cs) = some ((.openParen, "("), cs) := rfl
  unfold Entry.readRest
  rw [word, if_neg (by decide), if_neg (by decide), if_neg (by decide), if_pos rfl]
  refine Reads.bind (Q := Q) ?_ fun clause holds => .pure ⟨clause, holds, rfl⟩
  exact (reads_nextOf front (by decide)).bind fun _ _ => clause

theorem reads_model (cs : List Char) : Reads (nextOfPastNewlines [.word, .closeBrace])
    (' ' :: 'm' :: 'o' :: 'd' :: 'e' :: 'l' :: '(' :: cs)
    (fun t => t.kind = .word ∧ t.text = "model") ('(' :: cs) :=
  reads_nextOfPastNewlines rfl (by decide) (by decide)

/-- The entry of a clause, and the warnings it earns. -/
theorem readEntry_of_clause
    (clause : Reads (ModelClause.readEither dialect) cs Q behindClause)
    (here : s.cursor.rest = ' ' :: 'm' :: 'o' :: 'd' :: 'e' :: 'l' :: '(' :: cs) (es : List Entry) :
    ∃ clause c, readEntry dialect es s = .ok (some (es ++ [.model clause]))
      { s with cursor := c, warnings := s.warnings ++ warningsOf (.model clause) } ∧
        Q clause ∧ c.rest = behindClause.tail := by
  obtain ⟨t, c₁, word, is, left⟩ := runs_of_reads (reads_model cs) here
  obtain ⟨_, c₂, entry, ⟨clause, holds, rfl⟩, left⟩ :=
    runs_of_reads (s := { s with cursor := c₁ }) (reads_readRest clause is.2) left
  have semicolon : Reads (nextOfPastNewlines [.semicolon]) behindClause _ behindClause.tail :=
    reads_nextOfPastNewlines rfl (by decide) (by decide)
  let warned : Session :=
    { s with cursor := c₂, warnings := s.warnings ++ warningsOf (.model clause) }
  obtain ⟨_, c₃, closed, -, left⟩ := runs_of_reads (s := warned) semicolon left
  refine ⟨clause, c₃, ?_, holds, left⟩
  refine bind_eq_ok_iff.2 ⟨t, _, word, ?_⟩
  rw [if_neg (by rw [is.1]; decide)]
  refine bind_eq_ok_iff.2 ⟨_, _, entry, ?_⟩
  refine bind_eq_ok_iff.2 ⟨(), warned, rfl, ?_⟩
  exact bind_eq_ok_iff.2 ⟨_, _, closed, rfl⟩

/-- Behind a single clause the entries are closed. -/
theorem readEntry_of_behind (here : s.cursor.rest = behindClause.tail) (es : List Entry) :
    ∃ c, readEntry dialect es s = .ok none { s with cursor := c } ∧ c.rest = ['\n', '*', '/'] := by
  have brace : Reads (nextOfPastNewlines [.word, .closeBrace]) behindClause.tail
      (fun t => t.kind = .closeBrace ∧ t.text = "\x7d") ['\n', '*', '/'] :=
    reads_nextOfPastNewlines rfl (by decide) (by decide)
  obtain ⟨t, c, closed, is, left⟩ := runs_of_reads brace here
  refine ⟨c, bind_eq_ok_iff.2 ⟨t, _, closed, ?_⟩, left⟩
  rw [if_pos is.1]
  rfl

theorem entries_of_clause (clause : Reads (ModelClause.readEither dialect) cs Q behindClause)
    (here : s.cursor.rest = beforeClause cs) :
    ∃ clause c, entries dialect s = .ok [.model clause]
      { s with cursor := c, warnings := s.warnings ++ warningsOf (.model clause) } ∧
        Q clause ∧ c.rest = ['\n', '*', '/'] := by
  have brace : front? (beforeClause cs) =
      some ((.openBrace, "\x7b"), (beforeClause cs).tail) := rfl
  obtain ⟨t, c₀, peeked, is, left⟩ := runs_of_reads (reads_peek brace) here
  obtain ⟨_, c₁, passed, -, left⟩ :=
    runs_of_reads (s := { s with cursor := c₀ }) (reads_next brace) left
  obtain ⟨clause, c₂, entry, holds, left'⟩ :=
    readEntry_of_clause (s := { s with cursor := c₁ }) clause left []
  let warned : Session :=
    { s with cursor := c₂, warnings := s.warnings ++ warningsOf (.model clause) }
  obtain ⟨c₃, closed, left''⟩ := readEntry_of_behind (s := warned) left' [.model clause]
  refine ⟨clause, c₃, ?_, holds, left''⟩
  refine bind_eq_ok_iff.2 ⟨t, _, peeked, ?_⟩
  rw [if_neg (by rw [is.1]; decide)]
  refine bind_eq_ok_iff.2 ⟨_, _, passed, ?_⟩
  have less : c₂.rest.length < c₁.rest.length := by
    rw [left, left']
    simp [beforeClause, behindClause]
  exact (iterate_of_some entry less).trans (iterate_of_none closed)

theorem reads_description :
    Reads description ['\n', '*', '/'] (fun _ => True) ['*', '/'] := by
  have newline : front? ['\n', '*', '/'] = some ((.newline, "\n"), ['*', '/']) := rfl
  refine (reads_peek newline).bind fun t is => ?_
  rw [if_neg (by rw [is.1]; decide)]
  intro c here
  refine ⟨_, c.skip (markerDistance "*/".toList c.rest), rfl, trivial, ?_⟩
  rw [Cursor.rest_skip, here]
  rfl

/-- The header of a single clause. -/
def headerText (cs : List Char) : List Char :=
  ' ' :: 'n' :: Header.tripleText ['1'] ['0'] ['0'] (Header.tripleText ['0'] ['0'] ['0']
    (Header.tripleText ['8'] ['8'] ['8'] ('\n' :: cs)))

theorem reads_headerText (cs : List Char) :
    Reads header (headerText cs) (fun answer => answer.1 = "n" ∧
      ∃ header, answer.2 = some header ∧ header.bounds.isSome = true) cs := by
  have zero : Plain ['0'] [] := .digit (by decide)
  have one : Plain ['1'] [] := .digit (by decide)
  have eight : Plain ['8'] [] := .digit (by decide)
  exact reads_header one zero zero zero zero zero eight eight eight rfl

/-- The declaration of a single clause. -/
theorem declare_of_clause (clause : Reads (ModelClause.readEither dialect) cs Q behindClause)
    (here : s.cursor.rest = headerText (beforeClause cs)) :
    ∃ clause d c, declare dialect s = .ok d
      { s with cursor := c, warnings := s.warnings ++ warningsOf (.model clause) } ∧
        Q clause ∧ c.rest = [] ∧ d.color.isSome = true ∧ d.bounds.isSome = true ∧
        d.model = some clause.selector ∧ d.bases = [] := by
  obtain ⟨⟨name, header⟩, c₁, read, ⟨named, header, is, bounds⟩, left⟩ :=
    runs_of_reads (reads_headerText _) here
  obtain ⟨clause, c₂, entries, holds, left⟩ :=
    entries_of_clause (s := { s with cursor := c₁ }) clause left
  let warned (c : Cursor) : Session :=
    { s with cursor := c, warnings := s.warnings ++ warningsOf (.model clause) }
  obtain ⟨text, c₃, described, -, left⟩ := runs_of_reads (s := warned c₂) reads_description left
  have closing : Reads (nextOf [.commentClose]) ['*', '/']
      (fun t => t.kind = .commentClose ∧ t.text = "*/") [] := reads_nextOf rfl (by decide)
  obtain ⟨_, c₄, closed, -, left⟩ := runs_of_reads (s := warned c₃) closing left
  dsimp only at is
  subst is
  have run : declare dialect s =
      .ok (declaration name (some header) [.model clause] text) (warned c₄) := by
    refine bind_eq_ok_iff.2 ⟨_, _, read, ?_⟩
    refine bind_eq_ok_iff.2 ⟨_, _, entries, ?_⟩
    refine bind_eq_ok_iff.2 ⟨_, _, described, ?_⟩
    exact bind_eq_ok_iff.2 ⟨_, _, closed, rfl⟩
  exact ⟨clause, _, c₄, run, holds, left, rfl, bounds, rfl, rfl⟩

/-- A declaration without references stays as it is. -/
theorem resolve_of_nil {d : Declaration} (none : d.bases = []) (table : BaseTable) :
    d.resolve table = d := by
  obtain ⟨name, color, bounds, description, attributes, model, bases⟩ := d
  cases none
  simp [Declaration.resolve, BaseTable.basesOf]

/-- The mark that opens a definition. -/
def markText (cs : List Char) : List Char :=
  '/' :: '*' :: 'Q' :: 'U' :: 'A' :: 'K' :: 'E' :: 'D' :: cs

theorem reads_markText (cs : List Char) :
    Reads opening (markText (headerText cs)) (· = true) (headerText cs) := by
  have front : front? (markText (headerText cs)) =
      some ((.commentOpen, "/*QUAKED"), headerText cs) := rfl
  exact reads_opening front (by decide)

/-- The class of a single clause. -/
theorem next_of_clause {settings : Settings}
    (clause : Reads (ModelClause.readEither settings.dialect) cs Q behindClause)
    (here : s.cursor.rest = markText (headerText (beforeClause cs))) :
    ∃ clause class' bounds c, next settings s = .ok (.entity class')
      { s with cursor := c, warnings := s.warnings ++ warningsOf (.model clause) } ∧
        Q clause ∧ c.rest = [] ∧ class'.shape = .point bounds (some clause.selector) := by
  obtain ⟨opened, c₁, mark, is, left⟩ := runs_of_reads (reads_markText _) here
  obtain ⟨clause, d, c₂, declared, holds, left, color, bounds, model, bases⟩ :=
    declare_of_clause (s := { s with cursor := c₁ }) clause left
  obtain ⟨bounds, box⟩ := Option.isSome_iff_exists.1 bounds
  let warned : Session :=
    { s with cursor := c₂, warnings := s.warnings ++ warningsOf (.model clause) }
  have resolved : resolve d warned = .ok d warned := by
    show EStateM.Result.ok (d.resolve warned.bases)
      { warned with warnings := warned.warnings ++ (warned.bases.unknownBasesOf d).map _ } = _
    rw [resolve_of_nil bases, BaseTable.unknownBasesOf, bases]
    simp
  have entity : d.isBase = false := by
    rw [Declaration.isBase, ← Option.not_isSome, color]
    rfl
  refine ⟨clause, d.entityClass settings.defaultColor, bounds, c₂, ?_, holds, left, ?_⟩
  · refine bind_eq_ok_iff.2 ⟨opened, _, mark, ?_⟩
    rw [if_pos is]
    refine bind_eq_ok_iff.2 ⟨d, _, declared, ?_⟩
    refine bind_eq_ok_iff.2 ⟨d, _, resolved, ?_⟩
    rw [entity]
    rfl
  · rw [Declaration.entityClass, box, model]

/-! ### What a run without warnings has read -/

/-- A clause has been read from some characters on, and there are warnings if it is outdated. -/
def HasRead (dialect : Dialect) (cs : List Char) (s' : Session) : Prop :=
  ∃ c clause c', c.rest = cs ∧ ModelClause.readEither dialect c = .ok clause c' ∧
    (clause.outdatedAt ≠ none → s'.warnings ≠ [])

theorem warningsOf_ne_nil {clause : ModelClause} (outdated : clause.outdatedAt ≠ none) :
    warningsOf (.model clause) ≠ [] := by
  obtain ⟨selector, outdatedAt⟩ := clause
  cases outdatedAt with
  | none => exact absurd rfl outdated
  | some position => exact List.cons_ne_nil _ _

theorem hasRead_of_readEntry {s' : Session} {es : List Entry} {answer : Option (List Entry)}
    (here : s.cursor.rest = ' ' :: 'm' :: 'o' :: 'd' :: 'e' :: 'l' :: '(' :: cs)
    (run : readEntry dialect es s = .ok answer s') : HasRead dialect cs s' := by
  obtain ⟨t, s₁, word, run⟩ := bind_eq_ok_iff.1 run
  obtain ⟨is, c₁, rfl, left⟩ := of_runs (reads_model cs) here word
  rw [if_neg (by rw [is.1]; decide)] at run
  obtain ⟨entry, s₂, read, run⟩ := bind_eq_ok_iff.1 run
  obtain ⟨c₂, whole, rfl⟩ := lift_eq_ok_iff.1 read
  unfold Entry.readRest at whole
  rw [is.2, if_neg (by decide), if_neg (by decide), if_neg (by decide), if_pos rfl] at whole
  obtain ⟨clause, c₃, inside, same⟩ := bind_eq_ok_iff.1 whole
  obtain ⟨rfl, rfl⟩ := pure_eq_ok_iff.1 same
  obtain ⟨_, c₄, opening, either⟩ := bind_eq_ok_iff.1 inside
  have front : front? ('(' :: cs) = some ((.openParen, "("), cs) := rfl
  have paren : Reads (nextOf [.openParen]) ('(' :: cs) _ cs := reads_nextOf front (by decide)
  obtain ⟨_, c₅, opening', -, left⟩ := paren c₁ left
  rw [opening] at opening'
  cases opening'
  refine ⟨c₄, clause, c₃, left, either, ?_⟩
  intro outdated
  obtain ⟨_, s₃, warned, run⟩ := bind_eq_ok_iff.1 run
  cases warned
  obtain ⟨_, s₄, closed, run⟩ := bind_eq_ok_iff.1 run
  obtain ⟨c₆, -, rfl⟩ := lift_eq_ok_iff.1 closed
  obtain ⟨-, rfl⟩ := pure_eq_ok_iff.1 run
  exact List.append_ne_nil_of_right_ne_nil _ (warningsOf_ne_nil outdated)

theorem hasRead_of_entries {s' : Session} {es : List Entry}
    (here : s.cursor.rest = beforeClause cs) (run : entries dialect s = .ok es s') :
    HasRead dialect cs s' := by
  have brace : front? (beforeClause cs) =
      some ((.openBrace, "\x7b"), (beforeClause cs).tail) := rfl
  obtain ⟨t, s₁, peeked, run⟩ := bind_eq_ok_iff.1 run
  obtain ⟨is, c₁, rfl, left⟩ := of_runs (reads_peek brace) here peeked
  rw [if_neg (by rw [is.1]; decide)] at run
  obtain ⟨_, s₂, passed, run⟩ := bind_eq_ok_iff.1 run
  obtain ⟨-, c₂, rfl, left⟩ := of_runs (reads_next brace) left passed
  have keeps := keeps_readEntry (ne_nil_extensible dialect).lasting
  obtain ⟨answer, s₃, first, later⟩ := Keeps.of_iterate keeps run
  obtain ⟨c, clause, c', start, read, warned⟩ := hasRead_of_readEntry left first
  exact ⟨c, clause, c', start, read, fun outdated => later (warned outdated)⟩

theorem hasRead_of_declare {s' : Session} {d : Declaration}
    (here : s.cursor.rest = headerText (beforeClause cs)) (run : declare dialect s = .ok d s') :
    HasRead dialect cs s' := by
  obtain ⟨_, s₁, read, run⟩ := bind_eq_ok_iff.1 run
  obtain ⟨-, c₁, rfl, left⟩ := of_runs (reads_headerText _) here read
  obtain ⟨es, s₂, inside, run⟩ := bind_eq_ok_iff.1 run
  obtain ⟨_, s₃, described, run⟩ := bind_eq_ok_iff.1 run
  obtain ⟨c₃, -, rfl⟩ := lift_eq_ok_iff.1 described
  obtain ⟨_, s₄, closed, run⟩ := bind_eq_ok_iff.1 run
  obtain ⟨c₄, -, rfl⟩ := lift_eq_ok_iff.1 closed
  obtain ⟨-, rfl⟩ := pure_eq_ok_iff.1 run
  have clause : HasRead dialect cs s₂ := hasRead_of_entries left inside
  exact clause

theorem hasRead_of_next {settings : Settings} {s' : Session} {outcome : Outcome}
    (here : s.cursor.rest = markText (headerText (beforeClause cs)))
    (run : next settings s = .ok outcome s') : HasRead settings.dialect cs s' := by
  obtain ⟨opened, s₁, mark, run⟩ := bind_eq_ok_iff.1 run
  obtain ⟨is, c₁, rfl, left⟩ := of_runs (reads_markText _) here mark
  rw [if_pos is] at run
  obtain ⟨d, s₂, declared, run⟩ := bind_eq_ok_iff.1 run
  obtain ⟨c, clause, c', start, read, warned⟩ := hasRead_of_declare left declared
  refine ⟨c, clause, c', start, read, fun outdated => ?_⟩
  exact (keeps_conclusion (ne_nil_extensible settings.dialect) d).of_ok (warned outdated) run

end Parts

/-! ### The file -/

section File

variable {settings : Settings} {t : String} {Q : ModelClause → Prop}

/-- The text of a clause from the selector on. -/
def clauseText (selector : String) : List Char := selector.toList ++ ')' :: behindClause

theorem toList_singleClause (selector : String) :
    (singleClause selector).toList =
      markText (headerText (beforeClause (clauseText selector))) := by
  unfold singleClause
  simp only [String.toList_append, markText, headerText, Header.tripleText, beforeClause,
    clauseText, behindClause]
  simp

/-- A file of a single clause that is read has one class, with the model and the warnings of the
clause. -/
theorem read_singleClause
    (clause : Reads (ModelClause.readEither settings.dialect) (clauseText t) Q behindClause) :
    ∃ clause class' bounds, (File.read settings (singleClause t)).result = .ok [class'] ∧
      class'.shape = .point bounds (some clause.selector) ∧ Q clause ∧
      (File.read settings (singleClause t)).session.warnings = warningsOf (.model clause) := by
  let start : Session := .ofString (singleClause t)
  have here : start.cursor.rest = markText (headerText (beforeClause (clauseText t))) :=
    toList_singleClause t
  obtain ⟨clause, class', bounds, c₁, first, holds, left, shape⟩ := next_of_clause clause here
  let second : Session := { start with
    cursor := c₁, warnings := warningsOf (.model clause), progress := [c₁.progress] }
  have end' : front? [] = some ((.endOfFile, ""), []) := rfl
  obtain ⟨closed, c₂, ending, is, left'⟩ :=
    runs_of_reads (s := second) (reads_opening end' (by decide)) left
  have one : entity? settings [] start = .ok (some [class']) second :=
    bind_eq_ok_iff.2 ⟨_, _, first, rfl⟩
  have finished : next settings second = .ok .finished { second with cursor := c₂ } := by
    refine bind_eq_ok_iff.2 ⟨closed, _, ending, ?_⟩
    rw [if_neg (by rw [is]; decide)]
    rfl
  let last : Session := { second with cursor := c₂, progress := [c₁.progress, c₂.progress] }
  have two : entity? settings [class'] second = .ok none last :=
    bind_eq_ok_iff.2 ⟨_, _, finished, rfl⟩
  have less : c₁.rest.length < start.cursor.rest.length := by
    rw [left, here]
    exact Nat.succ_pos _
  have run : entities settings start = .ok [class'] last :=
    (iterate_of_some one less).trans (iterate_of_none two)
  have file : File.read settings (singleClause t) = ⟨.ok [class'], last⟩ := by
    unfold File.read
    rw [show entities settings (.ofString (singleClause t)) = _ from run]
    rfl
  rw [file]
  exact ⟨clause, class', bounds, rfl, shape, holds, rfl⟩

/-- A file of a single clause without failure and warnings has read the clause by the preferred
grammar. -/
theorem clause_of_singleClause {classes : List EntityClass}
    (result : (File.read settings (singleClause t)).result = .ok classes)
    (silent : (File.read settings (singleClause t)).session.warnings = []) :
    ∃ c e c', c.rest = clauseText t ∧
      ModelClause.readBy settings.dialect.preferred c = .ok e c' := by
  let start : Session := .ofString (singleClause t)
  unfold File.read at result silent
  cases run : entities settings start with
  | error e s =>
    rw [show entities settings (.ofString (singleClause t)) = _ from run] at result
    cases result
  | ok es s =>
    rw [show entities settings (.ofString (singleClause t)) = _ from run] at silent
    have keeps := keeps_entity? (ne_nil_extensible settings.dialect)
    obtain ⟨answer, s₁, first, later⟩ := Keeps.of_iterate keeps run
    obtain ⟨outcome, s₂, first, noted⟩ := bind_eq_ok_iff.1 first
    obtain ⟨c, clause, c', start, read, warned⟩ := hasRead_of_next (toList_singleClause t) first
    have same : s₁.warnings = s₂.warnings := by
      cases outcome <;> cases noted <;> rfl
    rcases ModelClause.readEither_eq_ok_iff.1 read with ⟨e, read, -⟩ | ⟨e, _, _, -, -, rfl⟩
    · exact ⟨c, e, c', start, read⟩
    · refine absurd silent (later ?_)
      rw [same]
      exact warned nofun

end File

end Quaked.Definition
