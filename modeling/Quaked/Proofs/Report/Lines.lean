import Quaked.CommandLine
import Quaked.Proofs.Definition.Inheritance
import Quaked.Proofs.Number.Spelling

/-!
# The lines of a summary

A summary is meant to have a line for each class, but nothing keeps a line from being broken: the names of
attributes, and the strings, keys and names in a model, are written as they are, and they come from quoted
strings, which may go on over lines. These are the `quotes` of a class. Nothing else of a class can break
its line: its own name is a word, and numbers are written in digits.

* `Summary.lineFeeds_line`: a line is broken exactly as often as the name and the quotes of its class are.
* `CommandLine.summary_lines_iff`: a summary has a line for each class if and only if no quote of a class
  has a line feed.
* `CommandLine.summary_broken`: a file with one class and a summary of two lines.
-/

namespace Quaked

open Text

/-! ### Line feeds -/

/-- How many line feeds a text has. -/
def lineFeeds (s : String) : Nat := s.toList.count '\n'

/-- How many line feeds texts have together. -/
def lineFeedsIn : List String → Nat
  | [] => 0
  | s :: ss => lineFeeds s + lineFeedsIn ss

@[simp] theorem lineFeeds_append (s s' : String) :
    lineFeeds (s ++ s') = lineFeeds s + lineFeeds s' := by
  rw [lineFeeds, String.toList_append, List.count_append]
  rfl

/-- Texts that are fixed have no line feed, and this can be seen by looking through them. -/
theorem lineFeeds_of_all {s : String} (plain : s.toList.all (· != '\n') = true) : lineFeeds s = 0 := by
  refine List.count_eq_zero.2 fun feed => ?_
  have other := List.all_eq_true.1 plain '\n' feed
  cases other

@[simp] theorem lineFeeds_ofList (cs : List Char) : lineFeeds (String.ofList cs) = cs.count '\n' := by
  rw [lineFeeds, String.toList_ofList]

@[simp] theorem lineFeedsIn_nil : lineFeedsIn [] = 0 := rfl

@[simp] theorem lineFeedsIn_cons (s : String) (ss : List String) :
    lineFeedsIn (s :: ss) = lineFeeds s + lineFeedsIn ss := rfl

@[simp] theorem lineFeedsIn_append (ss ss' : List String) :
    lineFeedsIn (ss ++ ss') = lineFeedsIn ss + lineFeedsIn ss' := by
  induction ss with
  | nil => rw [List.nil_append, lineFeedsIn_nil, Nat.zero_add]
  | cons s ss ih => rw [List.cons_append, lineFeedsIn_cons, lineFeedsIn_cons, ih, Nat.add_assoc]

theorem lineFeedsIn_eq_zero_iff {ss : List String} :
    lineFeedsIn ss = 0 ↔ ∀ s ∈ ss, '\n' ∉ s.toList := by
  induction ss with
  | nil => exact ⟨fun _ => List.forall_mem_nil _, fun _ => rfl⟩
  | cons s ss ih =>
    rw [lineFeedsIn_cons, Nat.add_eq_zero_iff, lineFeeds, List.count_eq_zero, ih,
      List.forall_mem_cons]

/-- If each text has as many line feeds as its parts, all texts have as many as all parts. -/
theorem lineFeedsIn_map {α : Type} {f : α → String} {g : α → List String} {as : List α}
    (each : ∀ a ∈ as, lineFeeds (f a) = lineFeedsIn (g a)) :
    lineFeedsIn (as.map f) = lineFeedsIn (as.flatMap g) := by
  induction as with
  | nil => rfl
  | cons a as ih =>
    obtain ⟨first, others⟩ := List.forall_mem_cons.1 each
    rw [List.map_cons, lineFeedsIn_cons, List.flatMap_cons, lineFeedsIn_append, first, ih others]

/-- The text consists of the lines, each ended by a line feed and without another. -/
structure Lines (text : String) (lines : List String) : Prop where
  joined : text = String.join (lines.map (· ++ "\n"))
  single : ∀ line ∈ lines, lineFeeds line = 0

theorem lineFeeds_join (lines : List String) :
    lineFeeds (String.join (lines.map (· ++ "\n"))) = lineFeedsIn lines + lines.length := by
  induction lines with
  | nil => rfl
  | cons line lines ih =>
    rw [List.map_cons, String.join_cons, lineFeeds_append, lineFeeds_append, ih, lineFeedsIn_cons,
      List.length_cons, show lineFeeds "\n" = 1 from rfl]
    omega

/-- A text has as many lines as line feeds. -/
theorem Lines.lineFeeds {text : String} {lines : List String} (h : Lines text lines) :
    Quaked.lineFeeds text = lines.length := by
  have none : lineFeedsIn lines = 0 :=
    lineFeedsIn_eq_zero_iff.2 fun line among => List.count_eq_zero.1 (h.single line among)
  rw [h.joined, lineFeeds_join, none, Nat.zero_add]

/-! ### Texts of numbers -/

section Number

variable {F : Format}

theorem count_digits {cs : List Char} (digits : ∀ c ∈ cs, c.isDigit = true) : cs.count '\n' = 0 := by
  refine List.count_eq_zero.2 fun mem => ?_
  have digit := digits '\n' mem
  cases digit

theorem count_toDigits (n : Nat) : (Nat.toDigits 10 n).count '\n' = 0 :=
  count_digits fun _ => Nat.isDigit_of_mem_toDigits (by decide) (by decide)

@[simp] theorem lineFeeds_repr (n : Nat) : lineFeeds n.repr = 0 := by
  rw [Nat.repr_eq_ofList_toDigits, lineFeeds_ofList, count_toDigits]

theorem count_signText (negative : Bool) : (Number.signText negative).count '\n' = 0 := by
  cases negative <;> rfl

theorem lineFeeds_textWith {body : Magnitude F → List Char} (plain : ∀ m, (body m).count '\n' = 0)
    (x : Number F) : lineFeeds (x.textWith body) = 0 := by
  unfold Number.textWith
  rw [lineFeeds_ofList]
  cases x with
  | nan => rfl
  | infinite negative => cases negative <;> rfl
  | finite negative m =>
    dsimp only
    rw [List.count_append, count_signText, plain]

theorem count_positional (d : Decimal) : d.positional.count '\n' = 0 := by
  obtain ⟨whole, places, plain, same, -⟩ := d.positional_plain
  rw [same, List.count_append, count_digits plain.digits, Nat.zero_add, Decimal.optionalPoint]
  split
  · rfl
  · rw [List.count_cons, count_digits plain.digits']
    rfl

@[simp] theorem lineFeeds_text (x : Number F) : lineFeeds x.text = 0 :=
  lineFeeds_textWith (fun _ => count_positional _) x

@[simp] theorem lineFeeds_textInHundredths (x : Number F) : lineFeeds x.textInHundredths = 0 := by
  refine lineFeeds_textWith (fun _ => ?_) x
  have digit (n : Nat) : Nat.digitChar n ≠ '\n' := Nat.digitChar_ne '\n' (by decide)
  simp [count_toDigits, digit]

theorem count_spellNumber (x : Number .double) : (Value.spellNumber x).count '\n' = 0 := by
  unfold Value.spellNumber
  split
  · rw [Value.spellInteger, List.count_append, count_signText, count_toDigits]
  · exact lineFeeds_text x

end Number

/-! ### Texts of models -/

theorem count_escape (cs : List Char) : (escape cs).count '\n' = cs.count '\n' := by
  induction cs with
  | nil => rfl
  | cons c cs ih =>
    rw [escape]
    split
    · simp [List.count_cons, ih]
    · simp [List.count_cons, ih]

theorem count_commaSeparated (pieces : List (List Char)) :
    (Value.commaSeparated pieces).count '\n' = pieces.flatten.count '\n' := by
  induction pieces with
  | nil => rfl
  | cons piece pieces ih =>
    cases pieces with
    | nil => simp [Value.commaSeparated]
    | cons second pieces =>
      have several : Value.commaSeparated (piece :: second :: pieces) =
          piece ++ ',' :: ' ' :: Value.commaSeparated (second :: pieces) := rfl
      rw [several, List.count_append, List.flatten_cons, List.count_append, ← ih]
      simp

@[simp] theorem count_spellString (s : String) :
    (Value.spellString s).count '\n' = lineFeeds s := by
  simp [Value.spellString, count_escape, lineFeeds]

@[simp] theorem count_spellArray (items : List (List Char)) :
    (Value.spellArray items).count '\n' = items.flatten.count '\n' := by
  simp [Value.spellArray, count_commaSeparated]

@[simp] theorem count_spellMap (entries : List (List Char)) :
    (Value.spellMap entries).count '\n' = entries.flatten.count '\n' := by
  simp [Value.spellMap, count_commaSeparated]

@[simp] theorem count_spellEntry (key : String) (value : List Char) :
    (Value.spellEntry key value).count '\n' = lineFeeds key + value.count '\n' := by
  simp [Value.spellEntry]

namespace Value

mutual

/-- The strings and the keys in a value. -/
def quotes : Value → List String
  | string s => [s]
  | array items => quotesOfAll items
  | map entries => quotesOfEntries entries
  | _ => []

/-- The strings and the keys in the items of a list. -/
def quotesOfAll : List Value → List String
  | [] => []
  | item :: items => quotes item ++ quotesOfAll items

/-- The keys of entries, and the strings and the keys in their values. -/
def quotesOfEntries : List (String × Value) → List String
  | [] => []
  | (key, value) :: entries => key :: quotes value ++ quotesOfEntries entries

end

mutual

theorem count_spell (v : Value) : v.spell.count '\n' = lineFeedsIn v.quotes := by
  cases v with
  | undefined => rfl
  | null => rfl
  | boolean b => cases b <;> rfl
  | number x => exact count_spellNumber x
  | string s => simp [spell, quotes]
  | array items => rw [spell, quotes, count_spellArray, count_spellItems items]
  | map entries => rw [spell, quotes, count_spellMap, count_spellEntries entries]

theorem count_spellItems (items : List Value) :
    (spellItems items).flatten.count '\n' = lineFeedsIn (quotesOfAll items) := by
  cases items with
  | nil => rfl
  | cons item items =>
    rw [spellItems, quotesOfAll, List.flatten_cons, List.count_append, count_spell item, count_spellItems items,
      lineFeedsIn_append]

theorem count_spellEntries (entries : List (String × Value)) :
    (spellEntries entries).flatten.count '\n' = lineFeedsIn (quotesOfEntries entries) := by
  cases entries with
  | nil => rfl
  | cons entry entries =>
    obtain ⟨key, value⟩ := entry
    rw [spellEntries, quotesOfEntries, List.flatten_cons, List.count_append, count_spellEntry,
      count_spell value, count_spellEntries entries, List.cons_append, lineFeedsIn_cons,
      lineFeedsIn_append, Nat.add_assoc]

end

end Value

namespace Selector

theorem count_parenthesizedIf (needed : Bool) (piece : List Char) :
    (parenthesizedIf needed piece).count '\n' = piece.count '\n' := by
  cases needed with
  | true => simp [parenthesizedIf, parenthesized]
  | false => rfl

theorem count_unarySymbol (op : UnaryOp) : op.symbol.toList.count '\n' = 0 := by
  cases op <;> decide

theorem count_binarySymbol (op : BinaryOp) : op.symbol.toList.count '\n' = 0 := by
  cases op <;> decide

mutual

/-- The strings, the keys and the names in a selector. -/
def quotes : Selector → List String
  | literal value => value.quotes
  | lookup name => [name]
  | array items => quotesOfAll items
  | map entries => quotesOfEntries entries
  | unary _ operand => quotes operand
  | binary _ left right => quotes left ++ quotes right
  | guarded condition value => quotes condition ++ quotes value
  | choice elements => quotesOfAll elements

/-- The strings, the keys and the names in the items of a list. -/
def quotesOfAll : List Selector → List String
  | [] => []
  | item :: items => quotes item ++ quotesOfAll items

/-- The keys of entries, and the strings, the keys and the names in their values. -/
def quotesOfEntries : List (String × Selector) → List String
  | [] => []
  | (key, value) :: entries => key :: quotes value ++ quotesOfEntries entries

end

mutual

/-- The spelling of a selector has the line feeds of its quotes. -/
theorem count_spell (e : Selector) : e.spell.count '\n' = lineFeedsIn e.quotes := by
  cases e with
  | literal value => exact value.count_spell
  | lookup name => simp [spell, quotes, lineFeeds]
  | array items => rw [spell, quotes, count_spellArray, count_spellItems items]
  | map entries => rw [spell, quotes, count_spellMap, count_spellEntries entries]
  | unary op operand =>
    rw [spell, quotes, List.count_append, count_unarySymbol, count_parenthesizedIf, Nat.zero_add,
      count_spell operand]
  | binary op left right =>
    rw [quotes, lineFeedsIn_append, ← count_spell left, ← count_spell right]
    simp [spell, count_parenthesizedIf, count_binarySymbol]
  | guarded condition value =>
    rw [quotes, lineFeedsIn_append, ← count_spell condition, ← count_spell value]
    simp [spell]
  | choice elements =>
    rw [quotes, ← count_spellItems elements]
    simp [spell, spellChoice, count_commaSeparated]

theorem count_spellItems (items : List Selector) :
    (spellItems items).flatten.count '\n' = lineFeedsIn (quotesOfAll items) := by
  cases items with
  | nil => rfl
  | cons item items =>
    rw [spellItems, quotesOfAll, List.flatten_cons, List.count_append, count_spell item, count_spellItems items,
      lineFeedsIn_append]

theorem count_spellEntries (entries : List (String × Selector)) :
    (spellEntries entries).flatten.count '\n' = lineFeedsIn (quotesOfEntries entries) := by
  cases entries with
  | nil => rfl
  | cons entry entries =>
    obtain ⟨key, value⟩ := entry
    rw [spellEntries, quotesOfEntries, List.flatten_cons, List.count_append, count_spellEntry,
      count_spell value, count_spellEntries entries, List.cons_append, lineFeedsIn_cons,
      lineFeedsIn_append, Nat.add_assoc]

end

end Selector

/-! ### Lines of classes -/

/-- The names of attributes, and the strings, the keys and the names in a model. -/
def EntityClass.quotes (e : EntityClass) : List String :=
  e.attributes.map Attribute.name ++
    match e.shape with
    | .point _ (some model) => model.quotes
    | _ => []

namespace Summary

theorem lineFeeds_padded (width : Nat) (text : String) :
    lineFeeds (padded width text) = lineFeeds text := by
  have filled (n : Nat) : (List.replicate n ' ').count '\n' = 0 := by simp [List.count_replicate]
  rw [padded, lineFeeds_append, lineFeeds_ofList, filled, Nat.add_zero]

theorem lineFeeds_attributeText (a : Attribute) : lineFeeds (attributeText a) = lineFeeds a.name := by
  cases a with
  | flags name options =>
    simp (disch := decide) [attributeText, Attribute.name, lineFeeds_of_all]
  | choice name options =>
    simp (disch := decide) [attributeText, Attribute.name, lineFeeds_of_all]

theorem lineFeeds_intercalate (texts : List String) :
    lineFeeds (String.intercalate ", " texts) = lineFeedsIn texts := by
  induction texts with
  | nil => rfl
  | cons text texts ih =>
    cases texts with
    | nil => simp [lineFeedsIn]
    | cons second texts =>
      have several : String.intercalate ", " (text :: second :: texts) =
          text ++ ", " ++ String.intercalate ", " (second :: texts) := by simp
      rw [several, lineFeeds_append, lineFeeds_append, ih]
      rfl

theorem lineFeeds_attributesText (as : List Attribute) :
    lineFeeds (attributesText as) = lineFeedsIn (as.map Attribute.name) := by
  have names : lineFeedsIn (as.map attributeText) = lineFeedsIn (as.map Attribute.name) := by
    rw [lineFeedsIn_map (g := fun a => [a.name]) fun a _ => lineFeeds_attributeText a,
      List.map_eq_flatMap]
  unfold attributesText
  split
  · rename_i none
    rw [List.isEmpty_iff.1 none]
    rfl
  · simp (disch := decide) [lineFeeds_intercalate, names, lineFeeds_of_all]

theorem lineFeeds_vectorText (v : Vector) : lineFeeds v.text = 0 := by
  simp (disch := decide) [Vector.text, lineFeeds_of_all]

theorem lineFeeds_shapeText (shape : Shape) : lineFeeds (shapeText shape) =
    lineFeedsIn (match shape with
      | .point _ (some model) => model.quotes
      | _ => []) := by
  cases shape with
  | brush => rfl
  | point bounds model =>
    cases model with
    | none => simp (disch := decide) [shapeText, lineFeeds_vectorText, lineFeeds_of_all]
    | some model =>
      have spelled : lineFeeds model.text = lineFeedsIn model.quotes := by
        rw [Selector.text, lineFeeds_ofList, model.count_spell]
      simp (disch := decide) [shapeText, lineFeeds_vectorText, spelled, lineFeeds_of_all]

/-- A line is broken as often as the name and the quotes of its class are. -/
theorem lineFeeds_line (e : EntityClass) :
    lineFeeds (line e) = lineFeeds e.name + lineFeedsIn e.quotes := by
  have kind : lineFeeds e.kindName = 0 := by
    unfold EntityClass.kindName
    split
    · rfl
    · rfl
  have color : lineFeeds (colorText e.color) = 0 := by
    simp (disch := decide) [colorText, lineFeeds_of_all]
  simp (disch := decide) only [line, EntityClass.quotes, lineFeeds_append, lineFeedsIn_append,
    lineFeeds_padded, kind, color, lineFeeds_shapeText, lineFeeds_attributesText, lineFeeds_of_all]
  omega

end Summary

/-! ### Names of classes -/

namespace Definition

/-- Each definition of a file stands somewhere in it. -/
theorem Definitions.written {dialect : Dialect} {c : Cursor} {ps : List Parts} {p : Parts}
    (h : Definitions dialect c ps) (mem : p ∈ ps) : ∃ c₁ body c', Written dialect c₁ p body c' := by
  induction h with
  | nil => cases mem
  | cons written _ _ ih =>
    rcases List.mem_cons.1 mem with rfl | mem
    · exact ⟨_, _, _, written⟩
    · exact ih mem

/-- The name of a class is a word, so it has no line feed. -/
theorem lineFeeds_name {settings : Settings} {source : String} {es : List EntityClass}
    (read : (File.read settings source).result = .ok es) {e : EntityClass} (mem : e ∈ es) :
    lineFeeds e.name = 0 := by
  obtain ⟨ps, definitions, present⟩ := File.definitions_of_read read
  obtain ⟨p, among, before, presents⟩ := present.exists_of_mem mem
  obtain ⟨c, body, c', written⟩ := definitions.written among
  rw [presents.name]
  cases written with
  | mk _ _ behind =>
    cases behind with
    | mk named isWord =>
      refine List.count_eq_zero.2 fun feed => ?_
      have delimiter : Token.isWordDelimiter '\n' = true := rfl
      rw [Token.isWordDelimiter_of_mem named isWord feed] at delimiter
      cases delimiter

end Definition

/-! ### Summaries of files -/

namespace CommandLine

open Summary

/-- The summary of a file that is read ends each line of a class, and says how many there are. Its line
feeds are as many as the classes and the line feeds of their quotes. So it consists of the lines of its
classes, one each, if and only if no quote of a class has a line feed. -/
theorem summary_lines_iff {options : Options} {settings : Settings} {source : String}
    {es : List EntityClass} (planned : options.plan? = some ⟨.summary, settings⟩)
    (read : (File.read settings source).result = .ok es) :
    run options source = ⟨0, Summary.lines es,
        closing es.length (File.read settings source).session.warnings.length⟩ ∧
      lineFeeds (run options source).output = es.length + lineFeedsIn (es.flatMap EntityClass.quotes) ∧
      (Lines (run options source).output (es.map line) ↔ ∀ e ∈ es, ∀ s ∈ e.quotes, '\n' ∉ s.toList) ∧
      (lineFeeds (run options source).output = es.length ↔
        ∀ e ∈ es, ∀ s ∈ e.quotes, '\n' ∉ s.toList) := by
  have result : run options source = ⟨0, Summary.lines es,
      closing es.length (File.read settings source).session.warnings.length⟩ := by
    simp only [run, planned, Plan.run, read]
  have lines_eq : Summary.lines es = String.join ((es.map line).map (· ++ "\n")) := by
    rw [Summary.lines, List.map_map]
    rfl
  have each (e : EntityClass) (mem : e ∈ es) : lineFeeds (line e) = lineFeedsIn e.quotes := by
    rw [lineFeeds_line, Definition.lineFeeds_name read mem, Nat.zero_add]
  have total : lineFeedsIn (es.map line) = lineFeedsIn (es.flatMap EntityClass.quotes) :=
    lineFeedsIn_map each
  have count : lineFeeds (Summary.lines es) =
      es.length + lineFeedsIn (es.flatMap EntityClass.quotes) := by
    rw [lines_eq, lineFeeds_join, total, List.length_map, Nat.add_comm]
  have unbroken : lineFeedsIn (es.flatMap EntityClass.quotes) = 0 ↔
      ∀ e ∈ es, ∀ s ∈ e.quotes, '\n' ∉ s.toList := by
    rw [lineFeedsIn_eq_zero_iff, List.forall_mem_flatMap]
  refine ⟨result, ?_, ?_, ?_⟩
  · rw [result]
    exact count
  · rw [result, ← unbroken]
    constructor
    · intro h
      have same := h.lineFeeds
      rw [count, List.length_map] at same
      omega
    · intro none
      refine ⟨lines_eq, fun text mem => ?_⟩
      obtain ⟨e, among, rfl⟩ := List.mem_map.1 mem
      rw [each e among]
      exact lineFeedsIn_eq_zero_iff.2 (unbroken.1 none e among)
  · rw [result, ← unbroken]
    dsimp only
    rw [count]
    omega

/-- A file with a model and an attribute in a line of its own. -/
def oneLine : String :=
  "/*QUAKED n (1 0 0) (0 0 0) (8 8 8)\n\x7b model(\"a.mdl\"); choice \"a\" (); \x7d\n*/"

/-- A class whose quotes have no line feed has a summary of one line. -/
theorem summary_lines_model : ∃ es, (File.read {} oneLine).result = .ok es ∧ es.length = 1 ∧
    Lines (run {} oneLine).output (es.map line) := by
  have isOk : (File.read {} oneLine).result.toBool = true := by decide +kernel
  have quotes : ((File.read {} oneLine).result.map (·.map EntityClass.quotes)).toOption =
      some [["a", "a.mdl"]] := by decide +kernel
  cases read : (File.read {} oneLine).result with
  | error e =>
    rw [read] at isOk
    cases isOk
  | ok es =>
    rw [read] at quotes
    obtain ⟨e, rfl, quoted⟩ := List.map_eq_singleton_iff.1 (Option.some.inj quotes)
    refine ⟨[e], rfl, rfl, ?_⟩
    have planned : Options.plan? {} = some ⟨.summary, {}⟩ := rfl
    refine (summary_lines_iff planned read).2.2.1.2 fun _ among => ?_
    rw [List.mem_singleton.1 among, quoted]
    decide

/-- One class, with an attribute whose name goes on in the next line. -/
def twoLines : String := "/*QUAKED n (1 0 0) ?\n\x7b choice \"a\nb\" (); \x7d\n*/"

/-- A line feed in the name of an attribute breaks the line of its class, so the summary of one class has
two lines. -/
theorem summary_broken :
    run {} twoLines = ⟨0, "brush n                        (1.00 0.00 0.00) \x7ba\nb<0>\x7d\n",
      "1 entity classes, 0 warnings"⟩ ∧
    Lines (run {} twoLines).output
      ["brush n                        (1.00 0.00 0.00) \x7ba", "b<0>\x7d"] ∧
    ¬ ∃ text, Lines (run {} twoLines).output [text] := by
  have result : run {} twoLines =
      ⟨0, "brush n                        (1.00 0.00 0.00) \x7ba\nb<0>\x7d\n",
        "1 entity classes, 0 warnings"⟩ := by decide +kernel
  have lines : Lines (run {} twoLines).output
      ["brush n                        (1.00 0.00 0.00) \x7ba", "b<0>\x7d"] := by
    rw [result]
    exact ⟨by decide, by decide⟩
  refine ⟨result, lines, ?_⟩
  rintro ⟨text, single⟩
  have two := lines.lineFeeds
  rw [single.lineFeeds] at two
  cases two

end CommandLine
end Quaked
