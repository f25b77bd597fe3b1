import Quaked.Definition.Grammar
import Quaked.Proofs.Token.Looking

/-!
# Definitions with a lexer that keeps a token

The parts of a definition, read with a lexer that keeps what it has looked at. Each part looks and consumes
where the reader of that part does, so each comes to the same (`Looks`): the first line (`looks_header`),
the entries that are no selectors (`silent_readPlain`), and the description (`looks_description`).
-/

namespace Quaked

open Text Definition

namespace Looking

/-! ### Headers -/

/-- A number of a format. -/
def readNumber (F : Format) : Looking (Number F) := do
  let t ← nextOf [.integer, .decimal]
  match Number.ofString? t.text with
  | some x => return x
  | none => Reading.fail (.invalid (.number t.text)) t.position

/-- Three numbers in parentheses. -/
def readTriple (F : Format) : Looking (Number F × Number F × Number F) := do
  let _ ← nextOf [.openParen]
  let x ← readNumber F
  let y ← readNumber F
  let z ← readNumber F
  let _ ← nextOf [.closeParen]
  return (x, y, z)

/-- A color. -/
def readColor : Looking Color := do
  let (red, green, blue) ← readTriple .single
  return .ofComponents red green blue

/-- A point in space. -/
def readVector : Looking Vector := do
  let (x, y, z) ← readTriple .double
  return ⟨x, y, z⟩

/-- A box by two of its corners. -/
def readBox : Looking Bounds := do
  let a ← readVector
  let b ← readVector
  return .spanning a b

/-- A box, or none in front of a word. The word is passed if it is a question mark, and else kept. -/
def readExtent : Looking (Option Bounds) := do
  let t ← peekOf [.openParen, .word]
  if t.kind = .openParen then return some (← readBox)
  if t.text = "?" then let _ ← next
  return none

/-- One more flag, if the next token is one. -/
def readFlag? (flags : List String) : Looking (Option (List String)) := do
  if (← peek).isOneOf [.word, .minus] then
    let t ← next
    let name := if t.kind = .word then t.text else ""
    if flags.length < Attribute.flagLimit then return some (flags ++ [name])
    else Reading.fail (.invalid .flagCount) t.position
  else return none

/-- What follows the name, up to the end of the line, which is kept. -/
def readLine : Looking Header := do
  let color ← readColor
  let bounds ← readExtent
  let flags ← iterate (·.cursor.unread) readFlag? []
  return { color, bounds, flags }

/-- The name of a definition, the rest of its header, and the end of the line. -/
def header : Looking (String × Option Header) := do
  let name ← nextOf [.word]
  let t ← peekOf [.openParen, .newline]
  let header ← if t.kind = .openParen then some <$> readLine else pure none
  let _ ← nextOf [.newline]
  return (name.text, header)

theorem looks_fail {α : Type} (cause : Cause) (position : Position) :
    Looks (Reading.fail cause position : Looking α) (Reading.fail cause position) :=
  looks_throw _

theorem looks_readNumber (F : Format) : Looks (readNumber F) (Header.readNumber F) := by
  refine (looks_nextOf _).bind_eq fun t => ?_
  cases Number.ofString? t.text with
  | some x => exact .pure rfl
  | none => exact looks_fail _ _

theorem looks_readTriple (F : Format) : Looks (readTriple F) (Header.readTriple F) := by
  have number := looks_readNumber F
  refine (looks_nextOf _).bind_eq fun _ => number.bind_eq fun x => ?_
  refine number.bind_eq fun y => number.bind_eq fun z => ?_
  exact (looks_nextOf _).bind_eq fun _ => .pure rfl

theorem looks_readBox : Looks readBox Header.readBox := by
  have vector : Looks readVector Header.readVector :=
    (looks_readTriple _).bind_eq fun _ => .pure rfl
  exact vector.bind_eq fun a => vector.bind_eq fun b => .pure rfl

theorem looks_readExtent : Looks readExtent Header.readExtent := by
  refine (looks_peekOf _).bind_eq fun t => ?_
  split
  · exact looks_readBox.bind_eq fun _ => .pure rfl
  split
  · exact looks_next.bind_eq fun _ => .pure rfl
  · exact .pure rfl

theorem looks_readFlag? (flags : List String) : Looks (readFlag? flags) (Header.readFlag? flags) := by
  refine looks_peek.bind_eq fun t => ?_
  split
  · refine looks_next.bind_eq fun u => ?_
    dsimp only
    split
    · exact .pure rfl
    · exact looks_fail _ _
  · exact .pure rfl

theorem looks_readLine : Looks readLine Header.read := by
  refine InStep.bind_eq ?_ fun color => ?_
  · exact (looks_readTriple _).bind_eq fun _ => .pure rfl
  refine looks_readExtent.bind_eq fun bounds => ?_
  exact (InStep.iterate_eq AtCursor.unread looks_readFlag? []).bind_eq fun _ => .pure rfl

theorem looks_header : Looks header Definition.header := by
  refine (looks_nextOf _).bind_eq fun name => ?_
  refine (looks_peekOf _).bind_eq fun t => ?_
  split
  · refine InStep.bind_eq (looks_readLine.bind_eq fun _ => .pure rfl) fun _ => ?_
    exact (looks_nextOf _).bind_eq fun _ => .pure rfl
  · exact (looks_nextOf _).bind_eq fun _ => .pure rfl

/-! ### Entries -/

/-- A default, which is not kept. -/
def readDefault : Looking Entry := do
  let _ ← nextOfPastNewlines [.openParen]
  let _ ← nextOfPastNewlines [.quoted]
  let _ ← nextOfPastNewlines [.comma]
  let _ ← nextOfPastNewlines [.quoted]
  let _ ← nextOfPastNewlines [.closeParen]
  return .idle

/-- The reference to a base that starts at a position. -/
def readBase (position : Position) : Looking Entry := do
  let _ ← nextOfPastNewlines [.openParen]
  let name ← nextOfPastNewlines [.quoted]
  let _ ← nextOfPastNewlines [.closeParen]
  return .base name.value position

/-- The key that a token writes. -/
def keyOf (t : Token) : Looking Int :=
  match Word.ofString? t.text with
  | some key => return key
  | none => Reading.fail (.invalid (.choiceKey t.text)) t.position

/-- The rest of an option behind its parenthesis. -/
def readOption : Looking ChoiceOption := do
  let key ← keyOf (← nextOfPastNewlines [.integer])
  let _ ← nextOfPastNewlines [.comma]
  let description ← nextOfPastNewlines [.quoted]
  let _ ← nextOfPastNewlines [.closeParen]
  return ⟨key, description.value⟩

/-- One more option, or none at the parenthesis that closes the choice. Both are consumed. -/
def readOption? (options : List ChoiceOption) : Looking (Option (List ChoiceOption)) := do
  skipNewlines
  let t ← next
  if t.kind = .openParen then return some (options ++ [← readOption])
  let _ ← expect [.closeParen] t
  return none

/-- A choice. -/
def readChoice : Looking Entry := do
  let name ← nextOf [.quoted]
  let _ ← nextOfPastNewlines [.openParen]
  return .choice name.value (← iterate (·.cursor.unread) readOption? [])

/-- The rest of an entry behind its word, which is not `model`. -/
def readPlain (word : Token) : Looking Entry :=
  if word.text = "default" then readDefault
  else if word.text = "base" then readBase word.position
  else if word.text = "choice" then readChoice
  else return .idle

/-- Both are the same entry, and it earns no warning. -/
def Silent (entry entry' : Entry) : Prop := entry = entry' ∧ warningsOf entry' = []

theorem silent_readDefault : InStep AtCursor Eq Silent readDefault Entry.readDefault := by
  iterate 5 refine (looks_nextOfPastNewlines _).bind_eq fun _ => ?_
  exact .pure ⟨rfl, rfl⟩

theorem silent_readBase (position : Position) :
    InStep AtCursor Eq Silent (readBase position) (Entry.readBase position) := by
  iterate 3 refine (looks_nextOfPastNewlines _).bind_eq fun _ => ?_
  exact .pure ⟨rfl, rfl⟩

theorem looks_keyOf (t : Token) : Looks (keyOf t) (Entry.keyOf t) := by
  unfold keyOf Entry.keyOf
  cases Word.ofString? t.text with
  | some key => exact .pure rfl
  | none => exact looks_fail _ _

theorem looks_readOption : Looks readOption Entry.readOption := by
  refine (looks_nextOfPastNewlines _).bind_eq fun t => (looks_keyOf t).bind_eq fun key => ?_
  iterate 3 refine (looks_nextOfPastNewlines _).bind_eq fun _ => ?_
  exact .pure rfl

theorem looks_readOption? (options : List ChoiceOption) :
    Looks (readOption? options) (Entry.readOption? options) := by
  refine looks_skipNewlines.bind_eq fun _ => ?_
  refine looks_next.bind_eq fun t => ?_
  split
  · exact looks_readOption.bind_eq fun _ => .pure rfl
  · exact (looks_expect _ t).bind_eq fun _ => .pure rfl

theorem silent_readChoice : InStep AtCursor Eq Silent readChoice Entry.readChoice := by
  refine (looks_nextOf _).bind_eq fun name => ?_
  refine (looks_nextOfPastNewlines _).bind_eq fun _ => ?_
  refine (InStep.iterate_eq AtCursor.unread looks_readOption? []).bind_eq fun options => ?_
  exact .pure ⟨rfl, rfl⟩

/-- Only selectors earn warnings, so an entry behind another word is all that there is of it. -/
theorem silent_readPlain {dialect : Dialect} {word : Token} (other : word.text ≠ "model") :
    InStep AtCursor Eq Silent (readPlain word) (Entry.readRest dialect word) := by
  unfold readPlain Entry.readRest
  rw [if_neg other]
  split
  · exact silent_readDefault
  split
  · exact silent_readBase _
  split
  · exact silent_readChoice
  · exact .pure ⟨rfl, rfl⟩

/-! ### The rest of a definition -/

/-- Passes everything in front of the next definition, and the mark it starts with. There is none at
the end of the file. -/
def opening : Looking Bool := do
  iterate (·.cursor.unread)
    (fun _ => do
      if (← peek).isOneOf [.commentOpen, .endOfFile] then return none
      let _ ← next
      return some ())
    ()
  return (← next).kind = .commentOpen

/-- The text up to the end of the comment, without white space at its ends. -/
def description : Looking String := do
  if (← peek).kind = .commentClose then return ""
  return String.ofList (trim (← takeBefore "*/").toList)

theorem looks_opening : Looks opening Definition.opening := by
  refine InStep.bind_eq (.iterate_eq AtCursor.unread (fun _ => ?_) ()) fun _ => ?_
  · refine looks_peek.bind_eq fun t => ?_
    split
    · exact .pure rfl
    · exact looks_next.bind_eq fun _ => .pure rfl
  · exact looks_next.bind_eq fun _ => .pure rfl

/-- The mark of a definition has been consumed, and so has the end of the file. -/
theorem pending_of_opening {opened : Bool} {l l' : Lookahead Token} (run : opening l = .ok opened l') :
    l'.pending = none := by
  obtain ⟨_, l₁, -, run⟩ := bind_eq_ok_iff.1 run
  obtain ⟨t, l₂, last, run⟩ := bind_eq_ok_iff.1 run
  obtain ⟨-, rfl⟩ := pure_eq_ok_iff.1 run
  exact pending_of_next last

/-- The token that has been looked at is put down in front of the raw text. -/
theorem looks_description : Looks description Definition.description := by
  refine looks_peek.bind_eq fun t => ?_
  split
  · exact .pure rfl
  · exact (looks_takeBefore "*/").bind_eq fun _ => .pure rfl

end Looking
end Quaked
