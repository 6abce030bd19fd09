import Mathlib.Data.List.Basic

/-!
# Positive formulas

Conditions put together from atoms with "all of" and "any of".  Negation stays inside the
atoms, so that a formula may be read with three truth values as well as with two: it has
the value true exactly when it holds of the atoms that have the value true.
-/

universe u v

inductive Formula (Atom : Type u) where
  | atom (leaf : Atom)
  | all (parts : List (Formula Atom))
  | any (alternatives : List (Formula Atom))

namespace Formula

variable {Atom : Type u}

mutual

def holds (sat : Atom → Bool) : Formula Atom → Bool
  | .atom leaf => sat leaf
  | .all parts => holdsAll sat parts
  | .any alternatives => holdsAny sat alternatives

def holdsAll (sat : Atom → Bool) : List (Formula Atom) → Bool
  | [] => true
  | part :: rest => part.holds sat && holdsAll sat rest

def holdsAny (sat : Atom → Bool) : List (Formula Atom) → Bool
  | [] => false
  | alternative :: rest => alternative.holds sat || holdsAny sat rest

end

/-- The truth values of three-valued logic, `none` for unknown. -/
abbrev Truth := Option Bool

namespace Truth

def and : Truth → Truth → Truth
  | some false, _ => some false
  | _, some false => some false
  | some true, other => other
  | none, _ => none

def or : Truth → Truth → Truth
  | some true, _ => some true
  | _, some true => some true
  | some false, other => other
  | none, _ => none

theorem and_eq_true (first second : Truth) :
    and first second = some true ↔ first = some true ∧ second = some true := by
  rcases first with _ | _ | _ <;> rcases second with _ | _ | _ <;> simp [and]

theorem or_eq_true (first second : Truth) :
    or first second = some true ↔ first = some true ∨ second = some true := by
  rcases first with _ | _ | _ <;> rcases second with _ | _ | _ <;> simp [or]

end Truth

mutual

def truth (value : Atom → Truth) : Formula Atom → Truth
  | .atom leaf => value leaf
  | .all parts => truthAll value parts
  | .any alternatives => truthAny value alternatives

def truthAll (value : Atom → Truth) : List (Formula Atom) → Truth
  | [] => some true
  | part :: rest => Truth.and (part.truth value) (truthAll value rest)

def truthAny (value : Atom → Truth) : List (Formula Atom) → Truth
  | [] => some false
  | alternative :: rest => Truth.or (alternative.truth value) (truthAny value rest)

end

mutual

theorem truth_eq_true (value : Atom → Truth) (formula : Formula Atom) :
    formula.truth value = some true ↔
      formula.holds (fun leaf => decide (value leaf = some true)) = true := by
  cases formula with
  | atom leaf => simp [truth, holds]
  | all parts => simpa [truth, holds] using truthAll_eq_true value parts
  | any alternatives => simpa [truth, holds] using truthAny_eq_true value alternatives

theorem truthAll_eq_true (value : Atom → Truth) (parts : List (Formula Atom)) :
    truthAll value parts = some true ↔
      holdsAll (fun leaf => decide (value leaf = some true)) parts = true := by
  cases parts with
  | nil => simp [truthAll, holdsAll]
  | cons part rest =>
    rw [truthAll, Truth.and_eq_true, truth_eq_true value part, truthAll_eq_true value rest,
      holdsAll, Bool.and_eq_true]

theorem truthAny_eq_true (value : Atom → Truth) (alternatives : List (Formula Atom)) :
    truthAny value alternatives = some true ↔
      holdsAny (fun leaf => decide (value leaf = some true)) alternatives = true := by
  cases alternatives with
  | nil => simp [truthAny, holdsAny]
  | cons alternative rest =>
    rw [truthAny, Truth.or_eq_true, truth_eq_true value alternative,
      truthAny_eq_true value rest, holdsAny, Bool.or_eq_true]

end

section Holds

variable {sat : Atom → Bool}

@[simp]
theorem holds_atom (leaf : Atom) : (Formula.atom leaf).holds sat = sat leaf := by
  simp [holds]

@[simp]
theorem holds_all (parts : List (Formula Atom)) :
    (Formula.all parts).holds sat = true ↔ ∀ part ∈ parts, part.holds sat = true := by
  rw [holds]
  induction parts with
  | nil => simp [holdsAll]
  | cons part rest ih => simp [holdsAll, ih]

@[simp]
theorem holds_any (alternatives : List (Formula Atom)) :
    (Formula.any alternatives).holds sat = true ↔ ∃ part ∈ alternatives, part.holds sat = true := by
  rw [holds]
  induction alternatives with
  | nil => simp [holdsAny]
  | cons part rest ih => simp [holdsAny, ih]

end Holds

def partIf (asked : Bool) (part : Formula Atom) : List (Formula Atom) :=
  if asked then [part] else []

@[simp]
theorem forall_mem_partIf {asked : Bool} {part : Formula Atom} {sat : Atom → Bool} :
    (∀ other ∈ partIf asked part, other.holds sat = true) ↔
      (asked = true → part.holds sat = true) := by
  cases asked <;> simp [partIf]

def partFor {Value : Type v} (given : Option Value) (part : Value → Formula Atom) :
    List (Formula Atom) :=
  (given.map part).toList

@[simp]
theorem forall_mem_partFor {Value : Type v} {given : Option Value} {part : Value → Formula Atom}
    {sat : Atom → Bool} :
    (∀ other ∈ partFor given part, other.holds sat = true) ↔
      ∀ value, given = some value → (part value).holds sat = true := by
  cases given <;> simp [partFor]

end Formula
