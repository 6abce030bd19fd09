import Aavishield.Basic
import Mathlib.Data.List.Range
import Mathlib.Tactic.Common

/-!
# The text of an identifier
-/

namespace Aavishield

/-- The hexadecimal digits of `UUID.text`. -/
def hexDigit (value : ℕ) : Char := "0123456789abcdef".toList.getD value '0'

theorem hexDigit_ne_hyphen {value : ℕ} (small : value < 16) : hexDigit value ≠ '-' := by
  revert value
  decide

theorem hexDigit_injective {first second : ℕ} (small : first < 16) (smaller : second < 16)
    (same : hexDigit first = hexDigit second) : first = second := by
  have table : ∀ left < 16, ∀ right < 16, hexDigit left = hexDigit right → left = right := by
    decide
  exact table first small second smaller same

theorem mod_pow_eq {first second count : ℕ}
    (same : ∀ index < count, first / 16 ^ index % 16 = second / 16 ^ index % 16) :
    first % 16 ^ count = second % 16 ^ count := by
  induction count with
  | zero => simp [Nat.mod_one]
  | succ count ih =>
    have lower := ih fun index below => same index (by omega)
    have digit := same count (by omega)
    rw [Nat.mod_pow_succ, Nat.mod_pow_succ, lower, digit]

theorem UUID.filter_text (id : UUID) :
    id.text.toList.filter (· ≠ '-') =
      (List.range 32).map fun index => hexDigit (id.bits.toNat / 16 ^ (31 - index) % 16) := by
  simp only [UUID.text, String.toList_ofList, List.filter_flatMap, List.map_eq_flatMap]
  congr 1
  funext index
  have isDigit := hexDigit_ne_hyphen
    (Nat.mod_lt (id.bits.toNat / 16 ^ (31 - index)) (by omega : 16 > 0))
  change List.filter _ (if index ∈ [8, 12, 16, 20] then ['-', hexDigit _] else [hexDigit _]) = _
  split_ifs
  · simp [isDigit]
  · simp [isDigit]

theorem UUID.text_injective {first second : UUID} (same : first.text = second.text) :
    first = second := by
  have digits := first.filter_text.symm.trans ((congrArg (·.toList.filter (· ≠ '-')) same).trans
    second.filter_text)
  have numbers : first.bits.toNat % 16 ^ 32 = second.bits.toNat % 16 ^ 32 := by
    apply mod_pow_eq
    intro index below
    have equal := List.map_inj_left.mp digits (31 - index) (by simp; omega)
    rw [show 31 - (31 - index) = index by omega] at equal
    exact hexDigit_injective (Nat.mod_lt _ (by omega)) (Nat.mod_lt _ (by omega)) equal
  have bits : first.bits = second.bits := by
    apply BitVec.eq_of_toNat_eq
    have := first.bits.isLt
    have := second.bits.isLt
    omega
  cases first
  cases second
  exact congrArg UUID.mk bits

end Aavishield
