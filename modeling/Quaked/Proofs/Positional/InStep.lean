import Quaked.Positional
import Quaked.Proofs.Token.InStep

/-!
# Positional selectors in step

At aligned cursors the grammar of positions reads the same selector, or fails for the same cause at
positions of aligned cursors.
-/

namespace Quaked.Positional

open Text Token

variable {R : Cursor → Cursor → Prop} (aligned : Aligned R)

theorem inStep_integerOf {t t' : Token} (same : Token.Same R t t') :
    InStep R (Blames R) Eq (integerOf t) (integerOf t') := by
  unfold integerOf
  rw [same.text]
  cases Word.ofString? t.text with
  | some n => exact .pure rfl
  | none => exact .complain _ same.1

include aligned

theorem inStep_integer? : InStep R (Blames R) Eq integer? integer? := by
  refine (inStep_peekPastNewlines aligned).bind fun t t' same => ?_
  rw [same.kind]
  split
  · refine (inStep_next aligned).bind fun u u' same' => ?_
    exact (inStep_integerOf same').bind_eq fun _ => .pure rfl
  · exact .pure rfl

theorem inStep_operand : InStep R (Blames R) Eq operand operand := by
  refine (inStep_nextOfPastNewlines aligned _).bind fun t t' same => ?_
  rw [same.kind, same.value]
  split
  · exact (inStep_integerOf same).bind_eq fun _ => .pure rfl
  · exact .pure rfl

theorem inStep_condition? : InStep R (Blames R) Eq condition? condition? := by
  refine (inStep_peekPastNewlines aligned).bind fun t t' same => ?_
  rw [same.kind]
  split
  · refine (inStep_next aligned).bind fun name name' same' => ?_
    refine (inStep_nextOfPastNewlines aligned _).bind fun _ _ _ => ?_
    rw [same'.text]
    exact (inStep_operand aligned).bind_eq fun _ => .pure rfl
  · exact .pure rfl

theorem inStep_fixed : InStep R (Blames R) Eq fixed fixed := by
  refine (inStep_nextOfPastNewlines aligned _).bind fun path path' same => ?_
  rw [same.value]
  refine (inStep_integer? aligned).bind_eq fun skin => ?_
  refine (inStep_integer? aligned).bind_eq fun frame => ?_
  exact (inStep_condition? aligned).bind_eq fun _ => .pure rfl

theorem inStep_key? (keys : Keys) : InStep R (Blames R) Eq (key? keys) (key? keys) := by
  refine (inStep_peekPastNewlines aligned).bind fun t t' same => ?_
  rw [same.kind]
  split
  · refine (inStep_next aligned).bind fun key key' same' => ?_
    refine (inStep_nextOfPastNewlines aligned _).bind fun _ _ _ => ?_
    refine (inStep_nextOfPastNewlines aligned _).bind fun name name' same'' => ?_
    rw [same'.text, same''.value]
    cases keys.set? key.text name.value with
    | some keys => exact .pure rfl
    | none => exact .complain _ same'.1
  · exact .pure rfl

theorem inStep_keyed : InStep R (Blames R) Eq keyed keyed := by
  refine (InStep.iterate_eq aligned.unread (inStep_key? aligned) {}).bind_eq fun keys => ?_
  cases keys.path with
  | some path => exact .pure rfl
  | none =>
    exact fun c d related => .error (.of_found (.of_related related (.invalid .missingPath))) related

theorem inStep_entry : InStep R (Blames R) Eq entry entry := by
  refine (inStep_peekPastNewlines aligned).bind fun t t' same => ?_
  refine (inStep_expect _ same).bind fun u u' same' => ?_
  rw [same'.kind]
  split
  · exact inStep_fixed aligned
  · exact inStep_keyed aligned

theorem inStep_entries : InStep R (Blames R) Eq entries entries := by
  refine (inStep_entry aligned).bind_eq fun first => ?_
  refine .iterate_eq aligned.unread (fun entries => ?_) [first]
  refine (inStep_peekPastNewlines aligned).bind fun t t' same => ?_
  rw [same.kind]
  split
  · refine (inStep_next aligned).bind fun _ _ _ => ?_
    exact (inStep_entry aligned).bind_eq fun _ => .pure rfl
  · exact .pure rfl

theorem inStep_expression : InStep R (Blames R) Eq expression expression :=
  (inStep_entries aligned).bind_eq fun _ => .pure rfl

end Quaked.Positional
