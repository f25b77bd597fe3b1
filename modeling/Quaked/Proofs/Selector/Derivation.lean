import Quaked.Selector.Grammar

/-!
# Derivations of selectors

What it means that a sequence of tokens is a selector, said without reading it. `Derives ts φ` holds
if the tokens `ts` derive the phrase `φ`. Operands have six levels:

    1  or          = and | or "||" and
    2  and         = comparison | and "&&" comparison
    3  comparison  = bitwise | bitwise ("==" | "!=" | "<" | "<=" | ">" | ">=") bitwise
    4  bitwise     = unary | bitwise ("&" | "|") unary
    5  unary       = primary | ("!" | "-") unary
    6  primary     = literal | name | "(" or ")" | array | map | choice

and an expression is an operand of level 1. The levels of a rule show how its operators group: with
an operand of the result's own level on the left they group to the left, and a comparison has such an
operand on neither side.

* `Derives.starts`, `Derives.kind_ne_endOfInput`: a phrase has a token, and the end is none of them.
* `Derives.mem_starters`: the kinds of token that a phrase can start with.
* `Derives.relabel`: of its tokens a phrase takes the kinds and the texts, never the positions.
-/

namespace Quaked

/-- The mark that writes an operator with one operand. -/
def UnaryOp.kind : UnaryOp → Selector.Token.Kind
  | not => .not
  | negate => .minus

theorem UnaryOp.kind_ne_endOfInput (op : UnaryOp) : op.kind ≠ .endOfInput := by
  cases op <;> decide

namespace BinaryOp

/-- The mark that writes an operator with two operands. -/
def kind : BinaryOp → Selector.Token.Kind
  | or => .or
  | and => .and
  | equal => .equal
  | notEqual => .notEqual
  | less => .less
  | lessOrEqual => .lessOrEqual
  | greater => .greater
  | greaterOrEqual => .greaterOrEqual
  | bitAnd => .bitAnd
  | bitOr => .bitOr

theorem kind_ne_endOfInput (op : BinaryOp) : op.kind ≠ .endOfInput := by
  cases op <;> decide

/-- The operators that compare. -/
def comparisons : List BinaryOp := [equal, notEqual, less, lessOrEqual, greater, greaterOrEqual]

end BinaryOp

namespace Selector

open Grammar (unquoted)

/-- What a grammar takes of a token: its kind and its text. -/
def Token.wording (t : Token) : Token.Kind × String := (t.kind, t.text)

/-- A part of the grammar, with what it stands for. -/
inductive Phrase where
  /-- An operand of a level. -/
  | operand (level : Nat) (e : Selector)
  /-- Expressions with commas between them. -/
  | items (es : List Selector)
  /-- A key and its value. -/
  | entry (key : String) (e : Selector)
  /-- Entries with commas between them. -/
  | entries (es : List (String × Selector))
  /-- An element of a choice. -/
  | element (e : Selector)
  /-- Elements with commas between them. -/
  | elements (es : List Selector)

/-- Whether a phrase can start with a kind of token: entries start with a key, and nothing else starts
with the bracket that closes an array, a map or a choice. -/
def Phrase.starts : Phrase → Token.Kind → Prop
  | entry _ _, kind => kind = .string
  | entries _, kind => kind = .string
  | _, kind => kind ≠ .closeBracket ∧ kind ≠ .closeBrace

/-- The kinds of token that an operand can start with. -/
def Token.Kind.starters : List Token.Kind :=
  [string, number, boolean, null, name, openParen, openBracket, openBrace, not, minus]

/-- The tokens derive the phrase. -/
inductive Derives : List Token → Phrase → Prop where
  | level {p : Nat} {ts : List Token} {e : Selector} (positive : 0 < p)
      (tighter : Derives ts (.operand (p + 1) e)) : Derives ts (.operand p e)
  | or {as bs : List Token} {t : Token} {a b : Selector} (left : Derives as (.operand 1 a))
      (mark : t.kind = .or) (right : Derives bs (.operand 2 b)) :
      Derives (as ++ t :: bs) (.operand 1 (.binary .or a b))
  | and {as bs : List Token} {t : Token} {a b : Selector} (left : Derives as (.operand 2 a))
      (mark : t.kind = .and) (right : Derives bs (.operand 3 b)) :
      Derives (as ++ t :: bs) (.operand 2 (.binary .and a b))
  | comparison {op : BinaryOp} {as bs : List Token} {t : Token} {a b : Selector}
      (comparing : op ∈ BinaryOp.comparisons) (left : Derives as (.operand 4 a))
      (mark : t.kind = op.kind) (right : Derives bs (.operand 4 b)) :
      Derives (as ++ t :: bs) (.operand 3 (.binary op a b))
  | bitwise {op : BinaryOp} {as bs : List Token} {t : Token} {a b : Selector}
      (bits : op = .bitAnd ∨ op = .bitOr) (left : Derives as (.operand 4 a))
      (mark : t.kind = op.kind) (right : Derives bs (.operand 5 b)) :
      Derives (as ++ t :: bs) (.operand 4 (.binary op a b))
  | unary {op : UnaryOp} {ts : List Token} {t : Token} {e : Selector} (mark : t.kind = op.kind)
      (operand : Derives ts (.operand 5 e)) : Derives (t :: ts) (.operand 5 (.unary op e))
  | string {t : Token} (kind : t.kind = .string) :
      Derives [t] (.operand 6 (.string (unquoted t)))
  | number {t : Token} {x : Number .double} (kind : t.kind = .number)
      (text : Number.ofString? t.text = some x) : Derives [t] (.operand 6 (.number x))
  | boolean {t : Token} (kind : t.kind = .boolean) :
      Derives [t] (.operand 6 (.literal (.boolean (t.text = "true"))))
  | null {t : Token} (kind : t.kind = .null) : Derives [t] (.operand 6 (.literal .null))
  | lookup {t : Token} (kind : t.kind = .name) : Derives [t] (.operand 6 (.lookup t.text))
  | parentheses {ts : List Token} {t u : Token} {e : Selector} (opened : t.kind = .openParen)
      (inside : Derives ts (.operand 1 e)) (closed : u.kind = .closeParen) :
      Derives (t :: ts ++ [u]) (.operand 6 e)
  | emptyArray {t u : Token} (opened : t.kind = .openBracket) (closed : u.kind = .closeBracket) :
      Derives [t, u] (.operand 6 (.array []))
  | array {ts : List Token} {t u : Token} {es : List Selector} (opened : t.kind = .openBracket)
      (inside : Derives ts (.items es)) (closed : u.kind = .closeBracket) :
      Derives (t :: ts ++ [u]) (.operand 6 (.array es))
  | emptyMap {t u : Token} (opened : t.kind = .openBrace) (closed : u.kind = .closeBrace) :
      Derives [t, u] (.operand 6 (.map []))
  | map {ts : List Token} {t u : Token} {es : List (String × Selector)}
      (opened : t.kind = .openBrace) (inside : Derives ts (.entries es))
      (closed : u.kind = .closeBrace) : Derives (t :: ts ++ [u]) (.operand 6 (.map es))
  | emptyChoice {t t' u u' : Token} (opened : t.kind = .openBrace) (opened' : t'.kind = .openBrace)
      (closed : u.kind = .closeBrace) (closed' : u'.kind = .closeBrace) :
      Derives [t, t', u, u'] (.operand 6 (.choice []))
  | choice {ts : List Token} {t t' u u' : Token} {es : List Selector}
      (opened : t.kind = .openBrace) (opened' : t'.kind = .openBrace)
      (inside : Derives ts (.elements es)) (closed : u.kind = .closeBrace)
      (closed' : u'.kind = .closeBrace) :
      Derives (t :: t' :: ts ++ [u, u']) (.operand 6 (.choice es))
  | item {ts : List Token} {e : Selector} (only : Derives ts (.operand 1 e)) :
      Derives ts (.items [e])
  | items {ts us : List Token} {t : Token} {es : List Selector} {e : Selector}
      (before : Derives ts (.items es)) (comma : t.kind = .comma)
      (last : Derives us (.operand 1 e)) : Derives (ts ++ t :: us) (.items (es ++ [e]))
  | keyed {ts : List Token} {t u : Token} {e : Selector} (key : t.kind = .string)
      (colon : u.kind = .colon) (value : Derives ts (.operand 1 e)) :
      Derives (t :: u :: ts) (.entry (unquoted t) e)
  | entry {ts : List Token} {key : String} {e : Selector} (only : Derives ts (.entry key e)) :
      Derives ts (.entries [(key, e)])
  | entries {ts us : List Token} {t : Token} {es : List (String × Selector)} {key : String}
      {e : Selector} (before : Derives ts (.entries es)) (comma : t.kind = .comma)
      (last : Derives us (.entry key e)) : Derives (ts ++ t :: us) (.entries (es ++ [(key, e)]))
  | unconditional {ts : List Token} {e : Selector} (value : Derives ts (.operand 1 e)) :
      Derives ts (.element e)
  | guarded {ts us : List Token} {t : Token} {c e : Selector}
      (condition : Derives ts (.operand 1 c)) (arrow : t.kind = .arrow)
      (value : Derives us (.operand 1 e)) : Derives (ts ++ t :: us) (.element (.guarded c e))
  | element {ts : List Token} {e : Selector} (only : Derives ts (.element e)) :
      Derives ts (.elements [e])
  | elements {ts us : List Token} {t : Token} {es : List Selector} {e : Selector}
      (before : Derives ts (.elements es)) (comma : t.kind = .comma)
      (last : Derives us (.element e)) : Derives (ts ++ t :: us) (.elements (es ++ [e]))

namespace Derives

variable {ts us : List Token} {φ : Phrase} {e : Selector}

/-- What a phrase starts with. -/
theorem starts (h : Derives ts φ) : ∃ t us, ts = t :: us ∧ φ.starts t.kind := by
  induction h with
  | @unary op => cases op <;> simp_all [Phrase.starts, UnaryOp.kind]
  | level | or | and | comparison | bitwise | item | items | entry | entries | unconditional
  | guarded | element | elements => grind [Phrase.starts]
  | _ => simp_all [Phrase.starts]

/-- No phrase starts with a token of another kind than an operand does. -/
theorem mem_starters (h : Derives ts φ) :
    ∃ t us, ts = t :: us ∧ t.kind ∈ Token.Kind.starters := by
  induction h with
  | @unary op => cases op <;> simp_all [Token.Kind.starters, UnaryOp.kind]
  | level | or | and | comparison | bitwise | item | items | entry | entries | unconditional
  | guarded | element | elements => grind
  | _ => simp_all [Token.Kind.starters]

/-- The end of the input is in no phrase. -/
theorem kind_ne_endOfInput (h : Derives ts φ) : ∀ t ∈ ts, t.kind ≠ .endOfInput := by
  induction h with
  | @comparison op => grind [op.kind_ne_endOfInput]
  | @bitwise op => grind [op.kind_ne_endOfInput]
  | @unary op => grind [op.kind_ne_endOfInput]
  | _ => grind

section Relabel

variable {t u : Token} {as bs : List Token}

private theorem wording_eq (same : t.wording = u.wording) : t.kind = u.kind ∧ t.text = u.text := by
  simpa [Token.wording] using same

/-- A sequence worded like one with a token between two parts has such parts itself. -/
private theorem split_of_wording
    (same : us.map Token.wording = (as ++ t :: bs).map Token.wording) :
    ∃ as' t' bs', us = as' ++ t' :: bs' ∧ as'.map Token.wording = as.map Token.wording ∧
      (t'.kind = t.kind ∧ t'.text = t.text) ∧ bs'.map Token.wording = bs.map Token.wording := by
  rw [List.map_append, List.map_cons, List.map_eq_append_iff] at same
  obtain ⟨as', rest, rfl, left, right⟩ := same
  obtain ⟨t', bs', rfl, mark, right⟩ := List.map_eq_cons_iff.1 right
  exact ⟨as', t', bs', rfl, left, wording_eq mark, right⟩

/-- A sequence worded like one that starts with a token starts with such a token itself. -/
private theorem cons_of_wording (same : us.map Token.wording = (t :: bs).map Token.wording) :
    ∃ t' bs', us = t' :: bs' ∧ (t'.kind = t.kind ∧ t'.text = t.text) ∧
      bs'.map Token.wording = bs.map Token.wording := by
  obtain ⟨t', bs', rfl, mark, rest⟩ := List.map_eq_cons_iff.1 same
  exact ⟨t', bs', rfl, wording_eq mark, rest⟩

/-- A sequence worded like one token is one token. -/
private theorem single_of_wording (same : us.map Token.wording = [t].map Token.wording) :
    ∃ t', us = [t'] ∧ t'.kind = t.kind ∧ t'.text = t.text := by
  obtain ⟨t', us, rfl, mark, rest⟩ := cons_of_wording same
  rw [List.map_eq_nil_iff.1 rest]
  exact ⟨t', rfl, mark⟩

/-- A sequence worded like one between two brackets stands between such brackets itself. -/
private theorem enclosed_of_wording
    (same : us.map Token.wording = (t :: (as ++ [u])).map Token.wording) :
    ∃ t' as' u', us = t' :: (as' ++ [u']) ∧ t'.kind = t.kind ∧
      as'.map Token.wording = as.map Token.wording ∧ u'.kind = u.kind := by
  obtain ⟨t', rest, rfl, ⟨kind, -⟩, same⟩ := cons_of_wording same
  obtain ⟨as', u', bs', rfl, inside, ⟨kind', -⟩, rest⟩ := split_of_wording same
  rw [List.map_eq_nil_iff.1 rest]
  exact ⟨t', as', u', rfl, kind, inside, kind'⟩

end Relabel

/-- Tokens of the same kinds and texts derive the same phrases. -/
theorem relabel (h : Derives ts φ) (same : us.map Token.wording = ts.map Token.wording) :
    Derives us φ := by
  induction h generalizing us with
  | level positive _ ih => exact .level positive (ih same)
  | item _ ih => exact .item (ih same)
  | entry _ ih => exact .entry (ih same)
  | unconditional _ ih => exact .unconditional (ih same)
  | element _ ih => exact .element (ih same)
  | or _ mark _ ihl ihr =>
    obtain ⟨as, t, bs, rfl, left, ⟨kind, -⟩, right⟩ := split_of_wording same
    exact .or (ihl left) (kind.trans mark) (ihr right)
  | and _ mark _ ihl ihr =>
    obtain ⟨as, t, bs, rfl, left, ⟨kind, -⟩, right⟩ := split_of_wording same
    exact .and (ihl left) (kind.trans mark) (ihr right)
  | comparison comparing _ mark _ ihl ihr =>
    obtain ⟨as, t, bs, rfl, left, ⟨kind, -⟩, right⟩ := split_of_wording same
    exact .comparison comparing (ihl left) (kind.trans mark) (ihr right)
  | bitwise bits _ mark _ ihl ihr =>
    obtain ⟨as, t, bs, rfl, left, ⟨kind, -⟩, right⟩ := split_of_wording same
    exact .bitwise bits (ihl left) (kind.trans mark) (ihr right)
  | items _ comma _ ihl ihr =>
    obtain ⟨as, t, bs, rfl, left, ⟨kind, -⟩, right⟩ := split_of_wording same
    exact .items (ihl left) (kind.trans comma) (ihr right)
  | entries _ comma _ ihl ihr =>
    obtain ⟨as, t, bs, rfl, left, ⟨kind, -⟩, right⟩ := split_of_wording same
    exact .entries (ihl left) (kind.trans comma) (ihr right)
  | elements _ comma _ ihl ihr =>
    obtain ⟨as, t, bs, rfl, left, ⟨kind, -⟩, right⟩ := split_of_wording same
    exact .elements (ihl left) (kind.trans comma) (ihr right)
  | guarded _ arrow _ ihl ihr =>
    obtain ⟨as, t, bs, rfl, left, ⟨kind, -⟩, right⟩ := split_of_wording same
    exact .guarded (ihl left) (kind.trans arrow) (ihr right)
  | unary mark _ ih =>
    obtain ⟨t, ts, rfl, ⟨kind, -⟩, rest⟩ := cons_of_wording same
    exact .unary (kind.trans mark) (ih rest)
  | string is =>
    obtain ⟨t, rfl, kind, text⟩ := single_of_wording same
    rw [unquoted, ← text]
    exact .string (kind.trans is)
  | number is reads =>
    obtain ⟨t, rfl, kind, text⟩ := single_of_wording same
    exact .number (kind.trans is) (text ▸ reads)
  | boolean is =>
    obtain ⟨t, rfl, kind, text⟩ := single_of_wording same
    rw [← text]
    exact .boolean (kind.trans is)
  | null is =>
    obtain ⟨t, rfl, kind, -⟩ := single_of_wording same
    exact .null (kind.trans is)
  | lookup is =>
    obtain ⟨t, rfl, kind, text⟩ := single_of_wording same
    rw [← text]
    exact .lookup (kind.trans is)
  | parentheses opened _ closed ih =>
    obtain ⟨t, ts, u, rfl, kind, inside, kind'⟩ := enclosed_of_wording same
    exact .parentheses (kind.trans opened) (ih inside) (kind'.trans closed)
  | emptyArray opened closed =>
    obtain ⟨t, rest, rfl, ⟨kind, -⟩, same⟩ := cons_of_wording same
    obtain ⟨u, rfl, kind', -⟩ := single_of_wording same
    exact .emptyArray (kind.trans opened) (kind'.trans closed)
  | array opened _ closed ih =>
    obtain ⟨t, ts, u, rfl, kind, inside, kind'⟩ := enclosed_of_wording same
    exact .array (kind.trans opened) (ih inside) (kind'.trans closed)
  | emptyMap opened closed =>
    obtain ⟨t, rest, rfl, ⟨kind, -⟩, same⟩ := cons_of_wording same
    obtain ⟨u, rfl, kind', -⟩ := single_of_wording same
    exact .emptyMap (kind.trans opened) (kind'.trans closed)
  | map opened _ closed ih =>
    obtain ⟨t, ts, u, rfl, kind, inside, kind'⟩ := enclosed_of_wording same
    exact .map (kind.trans opened) (ih inside) (kind'.trans closed)
  | keyed key colon _ ih =>
    obtain ⟨t, rest, rfl, ⟨kind, text⟩, same⟩ := cons_of_wording same
    obtain ⟨u, ts, rfl, ⟨kind', -⟩, rest⟩ := cons_of_wording same
    rw [unquoted, ← text]
    exact .keyed (kind.trans key) (kind'.trans colon) (ih rest)
  | emptyChoice opened opened' closed closed' =>
    obtain ⟨t, rest, rfl, ⟨kind, -⟩, same⟩ := cons_of_wording same
    obtain ⟨t', rest, rfl, ⟨kind', -⟩, same⟩ := cons_of_wording same
    obtain ⟨u, rest, rfl, ⟨kind₁, -⟩, same⟩ := cons_of_wording same
    obtain ⟨u', rfl, kind₂, -⟩ := single_of_wording same
    exact .emptyChoice (kind.trans opened) (kind'.trans opened') (kind₁.trans closed)
      (kind₂.trans closed')
  | choice opened opened' _ closed closed' ih =>
    obtain ⟨t, rest, rfl, ⟨kind, -⟩, same⟩ := cons_of_wording same
    obtain ⟨t', rest, rfl, ⟨kind', -⟩, same⟩ := cons_of_wording same
    obtain ⟨ts, u, rest, rfl, inside, ⟨kind₁, -⟩, same⟩ := split_of_wording same
    obtain ⟨u', rfl, kind₂, -⟩ := single_of_wording same
    exact .choice (kind.trans opened) (kind'.trans opened') (ih inside) (kind₁.trans closed)
      (kind₂.trans closed')

end Derives
end Selector
end Quaked
