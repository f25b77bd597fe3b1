import Quaked.Proofs.Number.Spelling
import Quaked.Selector.Lexer
import Quaked.Selector.Spelling

/-!
# Selectors that can be written

Trees are more than texts: a name may hold any characters, a literal may be a list, a number may be
none, and a condition may stand where it has no place. `Shaped` says which trees some text stands
for, up to what it allows of the numbers, and `Printable` which trees their own text stands for. A
tree that is shaped but for its numbers is still read from its text, as the tree `reread`.

* `Shaped.of_equals`: equal trees are shaped alike.
* `Shaped.reread_equals`, `Shaped.finite_of_reread_equals`: reading back gives an equal tree exactly
  if the numbers are finite.
-/

namespace Quaked

namespace Selector

/-- Whether a text is a name: a letter or an underscore and then letters, numerals and underscores,
and no word of the language. -/
def isName (name : String) : Bool :=
  match name.toList with
  | [] => false
  | c :: cs => Token.startsName c && cs.all Token.continuesName &&
      name ∉ ["true", "false", "null"]

/-- Where a selector stands: as an operand, an item or a whole, or as an element of a choice. -/
inductive Place where
  | operand
  | element

/-- The selector can be written where it stands, if its numbers are as given. -/
inductive Shaped (number : Number .double → Prop) : Place → Selector → Prop where
  | null : Shaped number .operand (.literal .null)
  | boolean (b : Bool) : Shaped number .operand (.literal (.boolean b))
  | number {x : Number .double} (fits : number x) :
      Shaped number .operand (.literal (.number x))
  | string (s : String) : Shaped number .operand (.literal (.string s))
  | lookup {name : String} (is : isName name = true) : Shaped number .operand (.lookup name)
  | array {items : List Selector} (each : ∀ e ∈ items, Shaped number .operand e) :
      Shaped number .operand (.array items)
  | map {entries : List (String × Selector)}
      (each : ∀ entry ∈ entries, Shaped number .operand entry.2) :
      Shaped number .operand (.map entries)
  | unary (op : UnaryOp) {e : Selector} (operand : Shaped number .operand e) :
      Shaped number .operand (.unary op e)
  | binary (op : BinaryOp) {a b : Selector} (left : Shaped number .operand a)
      (right : Shaped number .operand b) : Shaped number .operand (.binary op a b)
  | choice {elements : List Selector} (each : ∀ e ∈ elements, Shaped number .element e) :
      Shaped number .operand (.choice elements)
  | guarded {c v : Selector} (condition : Shaped number .operand c)
      (value : Shaped number .operand v) : Shaped number .element (.guarded c v)
  | plain {e : Selector} (operand : Shaped number .operand e) : Shaped number .element e

/-- The selector can be written: its numbers are finite, its names are names, its literals are
single values, and conditions stand directly in choices. -/
def Printable (e : Selector) : Prop := Shaped (fun x => x.isFinite = true) .operand e

/-- The selector can be written but for its numbers. -/
def Readable (e : Selector) : Prop := Shaped (fun _ => True) .operand e

variable {number number' : Number .double → Prop} {place : Place} {e e' : Selector}

theorem Shaped.imp (h : Shaped number place e) (imp : ∀ x, number x → number' x) :
    Shaped number' place e := by
  induction h with
  | null => exact .null
  | boolean b => exact .boolean b
  | number fits => exact .number (imp _ fits)
  | string s => exact .string s
  | lookup is => exact .lookup is
  | array _ ih => exact .array ih
  | map _ ih => exact .map ih
  | unary op _ ih => exact .unary op ih
  | binary op _ _ ihl ihr => exact .binary op ihl ihr
  | choice _ ih => exact .choice ih
  | guarded _ _ ihc ihv => exact .guarded ihc ihv
  | plain _ ih => exact .plain ih

theorem Printable.readable (h : Printable e) : Readable e := h.imp fun _ _ => trivial

/-! ### Names -/

mutual

/-- The names that a selector looks up. -/
def lookups : Selector → List String
  | literal _ => []
  | lookup name => [name]
  | array items => lookupsAll items
  | map entries => lookupsEntries entries
  | unary _ operand => lookups operand
  | binary _ left right => lookups left ++ lookups right
  | guarded condition value => lookups condition ++ lookups value
  | choice elements => lookupsAll elements

/-- The names that the items of a list look up. -/
def lookupsAll : List Selector → List String
  | [] => []
  | item :: items => lookups item ++ lookupsAll items

/-- The names that the values of entries look up. -/
def lookupsEntries : List (String × Selector) → List String
  | [] => []
  | (_, value) :: entries => lookups value ++ lookupsEntries entries

end

theorem lookupsAll_eq_flatMap (items : List Selector) : lookupsAll items = items.flatMap lookups := by
  induction items with
  | nil => rfl
  | cons item items ih => rw [lookupsAll, ih, List.flatMap_cons]

theorem lookupsEntries_eq_flatMap (entries : List (String × Selector)) :
    lookupsEntries entries = entries.flatMap fun entry => lookups entry.2 := by
  induction entries with
  | nil => rfl
  | cons entry entries ih => rw [lookupsEntries, ih, List.flatMap_cons]

/-- What can be written looks up names only. -/
theorem Shaped.isName (h : Shaped number place e) : ∀ name ∈ e.lookups, isName name = true := by
  induction h with
  | lookup is =>
    intro name mem
    rw [List.mem_singleton.1 mem]
    exact is
  | array _ ih =>
    rw [lookups, lookupsAll_eq_flatMap]
    intro name mem
    obtain ⟨e, inside, mem⟩ := List.mem_flatMap.1 mem
    exact ih e inside name mem
  | map _ ih =>
    rw [lookups, lookupsEntries_eq_flatMap]
    intro name mem
    obtain ⟨entry, inside, mem⟩ := List.mem_flatMap.1 mem
    exact ih entry inside name mem
  | choice _ ih =>
    rw [lookups, lookupsAll_eq_flatMap]
    intro name mem
    obtain ⟨e, inside, mem⟩ := List.mem_flatMap.1 mem
    exact ih e inside name mem
  | unary _ _ ih => exact ih
  | plain _ ih => exact ih
  | binary _ _ _ ihl ihr | guarded _ _ ihl ihr =>
    intro name mem
    rcases List.mem_append.1 mem with mem | mem
    · exact ihl name mem
    · exact ihr name mem
  | _ => simp [lookups]

/-! ### Reading back -/

/-- What the text of a number is read as: what is not finite is a name there. -/
def rereadNumber : Number .double → Selector
  | .nan => .lookup "NaN"
  | .infinite false => .lookup "inf"
  | .infinite true => .unary .negate (.lookup "inf")
  | .finite negative m => .number (Number.finite negative m).unsignedZero

mutual

/-- What the text of a readable selector is read as. -/
def reread : Selector → Selector
  | literal (.number x) => rereadNumber x
  | literal value => literal value
  | lookup name => lookup name
  | array items => array (rereadAll items)
  | map entries => map (rereadEntries entries)
  | unary op operand => unary op (reread operand)
  | binary op left right => binary op (reread left) (reread right)
  | guarded condition value => guarded (reread condition) (reread value)
  | choice elements => choice (rereadAll elements)

/-- Item by item. -/
def rereadAll : List Selector → List Selector
  | [] => []
  | item :: items => reread item :: rereadAll items

/-- Entry by entry. -/
def rereadEntries : List (String × Selector) → List (String × Selector)
  | [] => []
  | (key, value) :: entries => (key, reread value) :: rereadEntries entries

end

theorem rereadAll_eq_map (items : List Selector) : rereadAll items = items.map reread := by
  induction items with
  | nil => rfl
  | cons item items ih => rw [rereadAll, ih, List.map_cons]

theorem rereadEntries_eq_map (entries : List (String × Selector)) :
    rereadEntries entries = entries.map fun entry => (entry.1, reread entry.2) := by
  induction entries with
  | nil => rfl
  | cons entry entries ih => rw [rereadEntries, ih, List.map_cons]

/-! ### Equality -/

theorem exists_of_allEqual {as bs : List Selector} (h : allEqual as bs = true) {b : Selector}
    (mem : b ∈ bs) : ∃ a ∈ as, a.equals b = true := by
  induction as generalizing bs with
  | nil =>
    cases bs with
    | nil => cases mem
    | cons => cases h
  | cons a as ih =>
    cases bs with
    | nil => cases mem
    | cons b' bs =>
      obtain ⟨first, tail⟩ := Bool.and_eq_true_iff.1 h
      rcases List.mem_cons.1 mem with rfl | mem
      · exact ⟨a, List.mem_cons_self, first⟩
      · obtain ⟨a', mem', same⟩ := ih tail mem
        exact ⟨a', List.mem_cons_of_mem a mem', same⟩

theorem exists_of_allEntriesEqual {as bs : List (String × Selector)}
    (h : allEntriesEqual as bs = true) {b : String × Selector} (mem : b ∈ bs) :
    ∃ a ∈ as, a.2.equals b.2 = true := by
  induction as generalizing bs with
  | nil =>
    cases bs with
    | nil => cases mem
    | cons => cases h
  | cons a as ih =>
    cases bs with
    | nil => cases mem
    | cons b' bs =>
      obtain ⟨first, tail⟩ := Bool.and_eq_true_iff.1 h
      rcases List.mem_cons.1 mem with rfl | mem
      · exact ⟨a, List.mem_cons_self, (Bool.and_eq_true_iff.1 first).2⟩
      · obtain ⟨a', mem', same⟩ := ih tail mem
        exact ⟨a', List.mem_cons_of_mem a mem', same⟩

theorem allEqual_rereadAll_iff {items : List Selector} :
    allEqual (rereadAll items) items = true ↔ ∀ e ∈ items, (reread e).equals e = true := by
  induction items with
  | nil => simp [rereadAll, allEqual]
  | cons e items ih => simp [rereadAll, allEqual, ih]

theorem allEntriesEqual_rereadEntries_iff {entries : List (String × Selector)} :
    allEntriesEqual (rereadEntries entries) entries = true ↔
      ∀ entry ∈ entries, (reread entry.2).equals entry.2 = true := by
  induction entries with
  | nil => simp [rereadEntries, allEntriesEqual]
  | cons entry entries ih => simp [rereadEntries, allEntriesEqual, ih]

/-- Equal trees are shaped alike, but for their numbers. -/
theorem Shaped.of_equals (h : Shaped (fun _ => True) place e) (same : e.equals e' = true) :
    Shaped (fun _ => True) place e' := by
  induction h generalizing e' with
  | null =>
    cases e' with
    | literal value => cases value <;> first | exact .null | cases same
    | _ => cases same
  | boolean b =>
    cases e' with
    | literal value => cases value <;> first | exact .boolean _ | cases same
    | _ => cases same
  | number fits =>
    cases e' with
    | literal value => cases value <;> first | exact .number trivial | cases same
    | _ => cases same
  | string s =>
    cases e' with
    | literal value => cases value <;> first | exact .string _ | cases same
    | _ => cases same
  | lookup is =>
    cases e' with
    | lookup name =>
      obtain rfl := of_decide_eq_true same
      exact .lookup is
    | _ => cases same
  | array _ ih =>
    cases e' with
    | array items =>
      refine .array fun e mem => ?_
      obtain ⟨a, mem', same⟩ := exists_of_allEqual same mem
      exact ih a mem' same
    | _ => cases same
  | map _ ih =>
    cases e' with
    | map entries =>
      refine .map fun entry mem => ?_
      obtain ⟨a, mem', same⟩ := exists_of_allEntriesEqual same mem
      exact ih a mem' same
    | _ => cases same
  | unary op _ ih =>
    cases e' with
    | unary op' e' =>
      obtain ⟨-, operand⟩ := Bool.and_eq_true_iff.1 same
      exact .unary op' (ih operand)
    | _ => cases same
  | binary op _ _ ihl ihr =>
    cases e' with
    | binary op' a b =>
      obtain ⟨first, right⟩ := Bool.and_eq_true_iff.1 same
      obtain ⟨-, left⟩ := Bool.and_eq_true_iff.1 first
      exact .binary op' (ihl left) (ihr right)
    | _ => cases same
  | choice _ ih =>
    cases e' with
    | choice elements =>
      refine .choice fun e mem => ?_
      obtain ⟨a, mem', same⟩ := exists_of_allEqual same mem
      exact ih a mem' same
    | _ => cases same
  | guarded _ _ ihc ihv =>
    cases e' with
    | guarded c v =>
      obtain ⟨condition, value⟩ := Bool.and_eq_true_iff.1 same
      exact .guarded (ihc condition) (ihv value)
    | _ => cases same
  | plain _ ih => exact .plain (ih same)

/-- A selector whose numbers are finite is read back as its equal. -/
theorem Shaped.reread_equals (h : Shaped (fun x => x.isFinite = true) place e) :
    (reread e).equals e = true := by
  induction h with
  | null => rfl
  | boolean b => exact decide_eq_true rfl
  | @number x fits =>
    cases x with
    | finite negative m => exact Number.unsignedZero_beq negative m
    | _ => cases fits
  | string s => exact decide_eq_true rfl
  | lookup _ => exact decide_eq_true rfl
  | array _ ih => exact allEqual_rereadAll_iff.2 ih
  | map _ ih => exact allEntriesEqual_rereadEntries_iff.2 ih
  | unary op _ ih => exact Bool.and_eq_true_iff.2 ⟨decide_eq_true rfl, ih⟩
  | binary op _ _ ihl ihr =>
    exact Bool.and_eq_true_iff.2 ⟨Bool.and_eq_true_iff.2 ⟨decide_eq_true rfl, ihl⟩, ihr⟩
  | choice _ ih => exact allEqual_rereadAll_iff.2 ih
  | guarded _ _ ihc ihv => exact Bool.and_eq_true_iff.2 ⟨ihc, ihv⟩
  | plain _ ih => exact ih

/-- A selector that is read back as its equal has finite numbers only. -/
theorem Shaped.finite_of_reread_equals (h : Shaped number place e)
    (same : (reread e).equals e = true) : Shaped (fun x => x.isFinite = true) place e := by
  induction h with
  | null => exact .null
  | boolean b => exact .boolean b
  | @number x _ =>
    cases x with
    | nan => cases same
    | infinite negative => cases negative <;> cases same
    | finite negative m => exact .number rfl
  | string s => exact .string s
  | lookup is => exact .lookup is
  | array _ ih =>
    have each := allEqual_rereadAll_iff.1 same
    exact .array fun e mem => ih e mem (each e mem)
  | map _ ih =>
    have each := allEntriesEqual_rereadEntries_iff.1 same
    exact .map fun entry mem => ih entry mem (each entry mem)
  | unary op _ ih =>
    obtain ⟨-, operand⟩ := Bool.and_eq_true_iff.1 same
    exact .unary op (ih operand)
  | binary op _ _ ihl ihr =>
    obtain ⟨first, right⟩ := Bool.and_eq_true_iff.1 same
    obtain ⟨-, left⟩ := Bool.and_eq_true_iff.1 first
    exact .binary op (ihl left) (ihr right)
  | choice _ ih =>
    have each := allEqual_rereadAll_iff.1 same
    exact .choice fun e mem => ih e mem (each e mem)
  | guarded _ _ ihc ihv =>
    obtain ⟨condition, value⟩ := Bool.and_eq_true_iff.1 same
    exact .guarded (ihc condition) (ihv value)
  | plain _ ih => exact .plain (ih same)

end Selector
end Quaked
