import Mathlib.Algebra.GroupWithZero.Nat
import Mathlib.Algebra.Ring.Int.Defs
import Mathlib.Logic.Function.Basic

/-!
# Identifiers and instants
-/

namespace Aavishield

/-- A 128-bit identifier (`uuid.UUID`). -/
structure UUID where
  bits : BitVec 128
  deriving DecidableEq

/-- The all-zero identifier (`uuid.Nil`), which Go gives to an unset field. -/
def UUID.zero : UUID := ⟨0⟩

/-- The canonical text of an identifier (`uuid.UUID.String`). -/
def UUID.text (id : UUID) : String :=
  String.ofList <| (List.range 32).flatMap fun index =>
    let digit := "0123456789abcdef".toList.getD (id.bits.toNat / 16 ^ (31 - index) % 16) '0'
    if index ∈ [8, 12, 16, 20] then ['-', digit] else [digit]

/-- An instant, in nanoseconds from Go's zero time on. -/
abbrev Time := ℤ

/-- Whether an instant is Go's zero time, the value of an unset field (`time.Time.IsZero`). -/
def Time.isZero (time : Time) : Bool := decide (time = 0)

end Aavishield
