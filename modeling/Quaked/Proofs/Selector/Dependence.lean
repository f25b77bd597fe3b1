import Mathlib.Data.List.Forall2
import Quaked.Proofs.Selector.Mismatch
import Quaked.Selector.Model

/-!
# What a selector depends on

A selector asks a store for the attributes it names and for nothing else, and of its parts it asks for
those that are needed: not for the right side of `||` and `&&` where the left side decides, not for a
value whose condition does not hold, and for no element behind one that is defined. Both are said by one
relation of two selectors with a store each: `Alike` goes through the parts that are needed, where the
stores have to give the same for a name, and takes anything for the others.

* `evaluate_eq_of_alike`: selectors that are alike come to the same, each with its store.
* `alike_of_agree`: a selector is like itself where both stores give the same for the names in it.
* `names_and_needs_decide`: so no other attribute matters, and no part that is not needed.
-/

namespace Quaked.Selector

/-- Two selectors, each with a store, are the same as far as evaluation needs their parts. -/
inductive Alike (store store' : Store) : Selector → Selector → Prop where
  | literal (v : Value) : Alike store store' (.literal v) (.literal v)
  | lookup {name : String} (same : store name = store' name) :
    Alike store store' (.lookup name) (.lookup name)
  | array {items items' : List Selector} (length : items.length = items'.length)
    (each : ∀ p ∈ items.zip items', Alike store store' p.1 p.2) :
    Alike store store' (.array items) (.array items')
  | map {entries entries' : List (String × Selector)}
    (keys : entries.map (·.1) = entries'.map (·.1))
    (each : ∀ p ∈ entries.zip entries', Alike store store' p.1.2 p.2.2) :
    Alike store store' (.map entries) (.map entries')
  | unary (op : UnaryOp) {e e' : Selector} (operand : Alike store store' e e') :
    Alike store store' (.unary op e) (.unary op e')
  | binary (op : BinaryOp) {a a' b b' : Selector} (left : Alike store store' a a')
    (right : Alike store store' b b') : Alike store store' (.binary op a b) (.binary op a' b')
  /-- Where the left side holds any right side will do for `||`. -/
  | or {a a' : Selector} {v : Value} (left : Alike store store' a a')
    (evaluated : a.evaluate store = .ok v) (holds : v.isTruthy = true) (b b' : Selector) :
    Alike store store' (.binary .or a b) (.binary .or a' b')
  /-- Where the left side does not hold any right side will do for `&&`. -/
  | and {a a' : Selector} {v : Value} (left : Alike store store' a a')
    (evaluated : a.evaluate store = .ok v) (fails : v.isTruthy = false) (b b' : Selector) :
    Alike store store' (.binary .and a b) (.binary .and a' b')
  | guarded {c c' v v' : Selector} (condition : Alike store store' c c')
    (value : Alike store store' v v') : Alike store store' (.guarded c v) (.guarded c' v')
  /-- Under a condition that does not hold any value will do. -/
  | withheld {c c' : Selector} {w : Value} (condition : Alike store store' c c')
    (evaluated : c.evaluate store = .ok w) (fails : w.isTruthy = false) (v v' : Selector) :
    Alike store store' (.guarded c v) (.guarded c' v')
  | choice {elements elements' : List Selector} (length : elements.length = elements'.length)
    (each : ∀ p ∈ elements.zip elements', Alike store store' p.1 p.2) :
    Alike store store' (.choice elements) (.choice elements')
  /-- Behind an element that is defined any elements will do. -/
  | chosen {front front' : List Selector} {e e' : Selector} {v : Value}
    (length : front.length = front'.length)
    (each : ∀ p ∈ front.zip front', Alike store store' p.1 p.2) (element : Alike store store' e e')
    (evaluated : e.evaluate store = .ok v) (defined : v ≠ .undefined) (rest rest' : List Selector) :
    Alike store store' (.choice (front ++ e :: rest)) (.choice (front' ++ e' :: rest'))

variable {store store' : Store} {e e' : Selector}

/-! ### Lists -/

/-- Two selectors come to the same, each with its store. -/
abbrev ComeToSame (store store' : Store) (e e' : Selector) : Prop :=
  e.evaluate store = e'.evaluate store'

theorem evaluateAll_eq {items items' : List Selector}
    (same : List.Forall₂ (ComeToSame store store') items items') :
    evaluateAll store items = evaluateAll store' items' := by
  induction same with
  | nil => rfl
  | cons first _ ih => rw [evaluateAll_cons, evaluateAll_cons, first, ih]

theorem evaluateEntries_eq {entries entries' : List (String × Selector)}
    (keys : entries.map (·.1) = entries'.map (·.1))
    (each : ∀ p ∈ entries.zip entries', ComeToSame store store' p.1.2 p.2.2) :
    evaluateEntries store entries = evaluateEntries store' entries' := by
  induction entries generalizing entries' with
  | nil =>
    obtain rfl := List.map_eq_nil_iff.1 keys.symm
    rfl
  | cons entry entries ih =>
    obtain ⟨entry', others', rfl, key, others⟩ := List.map_eq_cons_iff.1 keys.symm
    obtain ⟨first, more⟩ := List.forall_mem_cons.1 each
    obtain ⟨name, item⟩ := entry
    obtain ⟨_, item'⟩ := entry'
    obtain rfl : _ = name := key
    rw [evaluateEntries_cons, evaluateEntries_cons, show item.evaluate store = _ from first,
      ih others.symm more]

/-- Elements that come to the same decide alike, whatever stands behind them. -/
theorem evaluateFirst_append_eq {front front' rest rest' : List Selector}
    (same : List.Forall₂ (ComeToSame store store') front front')
    (behind : evaluateFirst store rest = evaluateFirst store' rest') :
    evaluateFirst store (front ++ rest) = evaluateFirst store' (front' ++ rest') := by
  induction same with
  | nil => exact behind
  | @cons a b _ _ first _ ih =>
    rw [List.cons_append, List.cons_append, evaluateFirst_cons, evaluateFirst_cons, first, ih]

/-- An element that is defined is the one that is chosen. -/
theorem evaluateFirst_of_defined {v : Value} (evaluated : e.evaluate store = .ok v)
    (defined : v ≠ .undefined) (rest : List Selector) :
    evaluateFirst store (e :: rest) = .ok v := by
  rw [evaluateFirst_cons, evaluated]
  cases v with
  | undefined => exact absurd rfl defined
  | _ => rfl

/-! ### Operators and conditions that decide -/

theorem evaluate_or_of_holds {v : Value} (evaluated : e.evaluate store = .ok v)
    (holds : v.isTruthy = true) (b : Selector) :
    (binary .or e b).evaluate store = .ok (.boolean true) := by
  rw [evaluate_or, evaluated]
  exact if_pos holds

theorem evaluate_and_of_fails {v : Value} (evaluated : e.evaluate store = .ok v)
    (fails : v.isTruthy = false) (b : Selector) :
    (binary .and e b).evaluate store = .ok (.boolean false) := by
  rw [evaluate_and, evaluated]
  exact if_neg (Bool.eq_false_iff.1 fails)

theorem evaluate_guarded_of_fails {w : Value} (evaluated : e.evaluate store = .ok w)
    (fails : w.isTruthy = false) (v : Selector) :
    (guarded e v).evaluate store = .ok .undefined := by
  rw [evaluate_guarded, evaluated]
  exact if_neg (Bool.eq_false_iff.1 fails)

/-! ### Selectors -/

/-- Operators come to the same if both sides do. -/
theorem evaluate_binary_eq (op : BinaryOp) {a a' b b' : Selector}
    (left : ComeToSame store store' a a') (right : ComeToSame store store' b b') :
    ComeToSame store store' (.binary op a b) (.binary op a' b') := by
  show evaluate store _ = evaluate store' _
  by_cases isOr : op = .or
  · rw [isOr, evaluate_or, evaluate_or, left, right]
  by_cases isAnd : op = .and
  · rw [isAnd, evaluate_and, evaluate_and, left, right]
  · rw [evaluate_binary isOr isAnd, evaluate_binary isOr isAnd, left, right]

/-- Selectors that are alike come to the same. -/
theorem evaluate_eq_of_alike (h : Alike store store' e e') : ComeToSame store store' e e' := by
  show evaluate store _ = evaluate store' _
  induction h with
  | literal v => rw [evaluate_literal, evaluate_literal]
  | lookup same => rw [evaluate_lookup, evaluate_lookup, same]
  | array length _ each =>
    have same := List.forall₂_iff_zip.2 ⟨length, fun {_ _} mem => each _ mem⟩
    rw [evaluate_array, evaluate_array, evaluateAll_eq same]
  | map keys _ each => rw [evaluate_map, evaluate_map, evaluateEntries_eq keys each]
  | unary op _ operand => rw [evaluate_unary, evaluate_unary, operand]
  | binary op _ _ left right => exact evaluate_binary_eq op left right
  | or _ evaluated holds b b' left =>
    rw [evaluate_or_of_holds evaluated holds, evaluate_or_of_holds (left ▸ evaluated) holds]
  | and _ evaluated fails b b' left =>
    rw [evaluate_and_of_fails evaluated fails, evaluate_and_of_fails (left ▸ evaluated) fails]
  | guarded _ _ condition value => rw [evaluate_guarded, evaluate_guarded, condition, value]
  | withheld _ evaluated fails v v' condition =>
    rw [evaluate_guarded_of_fails evaluated fails,
      evaluate_guarded_of_fails (condition ▸ evaluated) fails]
  | choice length _ each =>
    have same := List.forall₂_iff_zip.2 ⟨length, fun {_ _} mem => each _ mem⟩
    have none : evaluateFirst store [] = evaluateFirst store' [] := rfl
    have decided := evaluateFirst_append_eq same none
    rw [List.append_nil, List.append_nil] at decided
    rw [evaluate_choice, evaluate_choice, decided]
  | chosen length _ _ evaluated defined rest rest' each element =>
    have same := List.forall₂_iff_zip.2 ⟨length, fun {_ _} mem => each _ mem⟩
    rw [evaluate_choice, evaluate_choice, evaluateFirst_append_eq same]
    rw [evaluateFirst_of_defined evaluated defined,
      evaluateFirst_of_defined (element ▸ evaluated) defined]

/-- So the same model is picked. -/
theorem model?_eq_of_alike (h : Alike store store' e e') : e.model? store = e'.model? store' := by
  rw [model?, model?, evaluate_eq_of_alike h]

/-- Items stand opposite themselves. -/
theorem fst_eq_snd_of_mem_zip_self {α : Type} {as : List α} {p : α × α} (h : p ∈ as.zip as) :
    p.1 ∈ as ∧ p.2 = p.1 := by
  rw [List.zip_eq_zipWith, List.zipWith_self] at h
  obtain ⟨a, mem, rfl⟩ := List.mem_map.1 h
  exact ⟨mem, rfl⟩

/-- A selector is like itself for two stores that agree on the names that occur in it. -/
theorem alike_of_agree (agree : ∀ name, PartOf (.lookup name) e → store name = store' name) :
    Alike store store' e e := by
  induction e using induction_on_parts with
  | literal v => exact .literal v
  | lookup name => exact .lookup (agree name .self)
  | array items ih =>
    refine .array rfl ?_
    intro p mem
    obtain ⟨mem, same⟩ := fst_eq_snd_of_mem_zip_self mem
    rw [same]
    exact ih p.1 mem fun name inside => agree name (.item mem inside)
  | map entries ih =>
    refine .map rfl ?_
    intro p mem
    obtain ⟨mem, same⟩ := fst_eq_snd_of_mem_zip_self mem
    rw [same]
    exact ih p.1 mem fun name inside => agree name (.entry mem inside)
  | unary op e ih => exact .unary op (ih fun name inside => agree name (.operand inside))
  | binary op a b left right =>
    exact .binary op (left fun name inside => agree name (.left inside))
      (right fun name inside => agree name (.right inside))
  | guarded c v condition value =>
    exact .guarded (condition fun name inside => agree name (.condition inside))
      (value fun name inside => agree name (.value inside))
  | choice elements ih =>
    refine .choice rfl ?_
    intro p mem
    obtain ⟨mem, same⟩ := fst_eq_snd_of_mem_zip_self mem
    rw [same]
    exact ih p.1 mem fun name inside => agree name (.element mem inside)

/-! ### Main statement -/

/-- A selector depends only on the attributes it names: with two stores that agree on these it has the
same value, or fails alike, and picks the same model. And of its parts it depends only on those that are
needed: what is short-circuited, held back by a condition or behind the chosen element may be replaced by
anything, at any depth. -/
theorem names_and_needs_decide (e : Selector) (store : Store) :
    (∀ store' : Store, (∀ name, PartOf (.lookup name) e → store name = store' name) →
      e.evaluate store' = e.evaluate store ∧ e.model? store' = e.model? store) ∧
    ∀ e' : Selector, Alike store store e e' →
      e'.evaluate store = e.evaluate store ∧ e'.model? store = e.model? store := by
  constructor
  · intro store' agree
    have alike : Alike store store' e e := alike_of_agree agree
    exact ⟨(evaluate_eq_of_alike alike).symm, (model?_eq_of_alike alike).symm⟩
  · intro e' alike
    exact ⟨(evaluate_eq_of_alike alike).symm, (model?_eq_of_alike alike).symm⟩

/-- The path in an attribute, behind a style that is not set and in front of what cannot be evaluated. -/
def pathOrStyle : Selector :=
  .choice [.guarded (.lookup "style") (.lookup "skin"), .lookup "model", .unary .negate (.string "x")]

theorem mem_names_of_pathOrStyle {name : String} (inside : PartOf (.lookup name) pathOrStyle) :
    name ∈ ["style", "skin", "model"] := by
  cases inside with
  | element mem inside =>
    simp only [List.mem_cons, List.not_mem_nil, or_false] at mem
    rcases mem with rfl | rfl | rfl
    · cases inside with
      | condition inside =>
        cases inside
        decide
      | value inside =>
        cases inside
        decide
    · cases inside
      decide
    · cases inside with
      | operand inside => cases inside

/-- An attribute more makes no difference to the path, nor what stands for the skin and behind the path. -/
theorem names_and_needs_decide_path :
    let store := Store.ofPairs [("style", ""), ("model", "a.mdl")]
    let more := Store.ofPairs [("target", "t1"), ("style", ""), ("model", "a.mdl")]
    let other : Selector :=
      .choice [.guarded (.lookup "style") (.unary .negate (.string "y")), .lookup "model"]
    (pathOrStyle.evaluate more = pathOrStyle.evaluate store ∧
      pathOrStyle.model? more = .ok (some ⟨"a.mdl", 0, 0⟩)) ∧
      other.evaluate store = pathOrStyle.evaluate store ∧
      other.model? store = .ok (some ⟨"a.mdl", 0, 0⟩) := by
  intro store more other
  have picked : pathOrStyle.model? store = .ok (some ⟨"a.mdl", 0, 0⟩) := rfl
  obtain ⟨named, needed⟩ := names_and_needs_decide pathOrStyle store
  have agree : ∀ name, PartOf (.lookup name) pathOrStyle → store name = more name := by
    intro name inside
    have among := mem_names_of_pathOrStyle inside
    simp only [List.mem_cons, List.not_mem_nil, or_false] at among
    rcases among with rfl | rfl | rfl <;> rfl
  have guarded : Alike store store (.guarded (.lookup "style") (.lookup "skin"))
      (.guarded (.lookup "style") (.unary .negate (.string "y"))) :=
    .withheld (.lookup rfl) rfl rfl _ _
  have each : ∀ p ∈ List.zip [_] [_], Alike store store p.1 p.2 := List.forall_mem_singleton.2 guarded
  have path : (lookup "model").evaluate store = .ok (.string "a.mdl") := rfl
  have alike : Alike store store (.choice ([_] ++ .lookup "model" :: _))
      (.choice ([_] ++ .lookup "model" :: [])) :=
    .chosen (Eq.refl 1) each (.lookup rfl) path nofun [.unary .negate (.string "x")] []
  obtain ⟨evaluated, model⟩ := named more agree
  obtain ⟨evaluated', model'⟩ := needed other alike
  exact ⟨⟨evaluated, model.trans picked⟩, evaluated', model'.trans picked⟩

end Quaked.Selector
