import Mathlib.Data.Int.Notation
import Mathlib.Data.Option.Basic
import Mathlib.Tactic.Common

/-!
# Time zones as tables of periods

A zone says which offset from UTC is in force at an instant, and from when until when.  A local
time is read by the offset in force, which near a jump of the clock is a guess: there may be no
instant at which the clock shows the time, or two of them.
-/

namespace Aavishield.Zones

structure Period where
  offset : ℤ
  start : Option ℤ
  finish : Option ℤ

def Period.covers (period : Period) (time : ℤ) : Bool :=
  period.start.all (· ≤ time) && period.finish.all (time < ·)

/-- A time zone by the periods of one offset that it is made of. -/
structure Zone where
  lookup : ℤ → Period
  covers_lookup : ∀ time, (lookup time).covers time = true
  lookup_eq : ∀ time other, (lookup time).covers other = true → lookup other = lookup time

namespace Zone

variable (zone : Zone)

def offset (time : ℤ) : ℤ := (zone.lookup time).offset

def wall (time : ℤ) : ℤ := time + zone.offset time

def reading (wall : ℤ) : ℤ :=
  let offset := zone.offset wall
  if offset = 0 ∨ (zone.lookup wall).covers (wall - offset) then offset
  else zone.offset (wall - offset)

def instant (wall : ℤ) : ℤ := wall - zone.reading wall

variable {zone} {time wall : ℤ}

def fixed (offset : ℤ) : Zone where
  lookup _ := ⟨offset, none, none⟩
  covers_lookup _ := rfl
  lookup_eq _ _ _ := rfl

def jumping (jump before after : ℤ) : Zone where
  lookup time := if time < jump then ⟨before, none, some jump⟩ else ⟨after, some jump, none⟩
  covers_lookup time := by
    split_ifs with early
    · simpa [Period.covers] using early
    · simpa [Period.covers] using early
  lookup_eq time other := by
    split_ifs with early late late
    · simp
    · intro covered
      simp only [Period.covers, Option.all_none, Option.all_some, Bool.true_and,
        decide_eq_true_eq] at covered
      exact absurd covered late
    · intro covered
      simp only [Period.covers, Option.all_none, Option.all_some, Bool.and_true,
        decide_eq_true_eq] at covered
      omega
    · simp

end Zone

end Aavishield.Zones
