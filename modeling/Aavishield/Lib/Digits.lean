import Mathlib.Algebra.GroupWithZero.Nat
import Mathlib.Data.List.Induction

/-!
# Digits

Numbers as lists of a fixed length of digits, the most significant one first, and as what is
written for them.
-/

namespace Digits

def digits (base : ℕ) : ℕ → ℕ → List ℕ
  | 0, _ => []
  | count + 1, number => digits base count (number / base) ++ [number % base]

def value (base : ℕ) (digits : List ℕ) : ℕ :=
  digits.foldl (fun number digit => number * base + digit) 0

def digitValue (letter : Char) : Option ℕ :=
  if '0' ≤ letter ∧ letter ≤ '9' then some (letter.toNat - 48)
  else if 'a' ≤ letter ∧ letter ≤ 'f' then some (letter.toNat - 87)
  else if 'A' ≤ letter ∧ letter ≤ 'F' then some (letter.toNat - 55)
  else none

def addDigit (base number : ℕ) (letter : Char) : Option ℕ :=
  ((digitValue letter).filter (· < base)).map fun digit => number * base + digit

def readNumber (base : ℕ) (letters : List Char) : Option ℕ :=
  letters.foldlM (addDigit base) 0

variable {base count number : ℕ}

@[simp]
theorem value_append_singleton (front : List ℕ) (digit : ℕ) :
    value base (front ++ [digit]) = value base front * base + digit := by
  simp [value]

@[simp]
theorem length_digits : (digits base count number).length = count := by
  induction count generalizing number with
  | zero => rfl
  | succ count ih => simp [digits, ih]

theorem value_digits (fits : number < base ^ count) : value base (digits base count number) = number := by
  induction count generalizing number with
  | zero =>
    simp only [Nat.pow_zero, Nat.lt_one_iff] at fits
    simp [digits, value, fits]
  | succ count ih =>
    have above : number / base < base ^ count := by
      apply Nat.div_lt_of_lt_mul
      rwa [Nat.pow_succ'] at fits
    simp only [digits, value_append_singleton, ih above]
    exact Nat.div_add_mod' number base

theorem digits_value {list : List ℕ} (small : ∀ digit ∈ list, digit < base) :
    digits base list.length (value base list) = list := by
  induction list using List.reverseRecOn with
  | nil => rfl
  | append_singleton front last ih =>
    have isDigit : last < base := small last (by simp)
    have above : (value base front * base + last) / base = value base front := by
      simp [Nat.mul_comm, Nat.mul_add_div (by omega : base > 0), Nat.div_eq_of_lt isDigit]
    have kept := ih fun digit mem => small digit (by simp [mem])
    simp [digits, above, kept, Nat.mod_eq_of_lt isDigit]

theorem value_lt {list : List ℕ} (small : ∀ digit ∈ list, digit < base) :
    value base list < base ^ list.length := by
  induction list using List.reverseRecOn with
  | nil => simp [value]
  | append_singleton front last ih =>
    have isDigit : last < base := small last (by simp)
    have above := ih fun digit mem => small digit (by simp [mem])
    have whole : (value base front + 1) * base ≤ base ^ front.length * base :=
      Nat.mul_le_mul_right base above
    simp only [Nat.add_mul, Nat.one_mul] at whole
    simp only [value_append_singleton, List.length_append, List.length_singleton, Nat.pow_succ]
    omega

theorem lt_of_mem_digits (positive : 0 < base) : ∀ digit ∈ digits base count number, digit < base := by
  induction count generalizing number with
  | zero => simp [digits]
  | succ count ih =>
    intro digit mem
    simp only [digits, List.mem_append, List.mem_singleton] at mem
    rcases mem with above | rfl
    · exact ih digit above
    · exact Nat.mod_lt number positive

theorem mapM_map_eq_some {α β : Type} {write : α → β} {read : β → Option α} {items : List α}
    (reads : ∀ item ∈ items, read (write item) = some item) :
    (items.map write).mapM read = some items := by
  induction items with
  | nil => rfl
  | cons item rest ih =>
    simp only [List.map_cons, List.mapM_cons, reads item List.mem_cons_self,
      ih fun other mem => reads other (List.mem_cons_of_mem item mem), Option.bind_eq_bind,
      Option.bind_some]
    rfl

theorem digitValue_digitChar : ∀ digit < 16, digitValue (Nat.digitChar digit) = some digit := by
  decide

theorem readNumber_toDigits (large : 1 < base) (small : base ≤ 16) (number : ℕ) :
    readNumber base (Nat.toDigits base number) = some number := by
  induction number using Nat.strongRecOn with
  | ind number ih =>
    have last : ∀ digit < base, ∀ front, addDigit base front (Nat.digitChar digit) =
        some (front * base + digit) := by
      intro digit isDigit front
      simp [addDigit, digitValue_digitChar digit (by omega), isDigit]
    by_cases single : number < base
    · simp [Nat.toDigits_of_lt_base single, readNumber, last number single]
    · have shorter : number / base < number := Nat.div_lt_self (by omega) large
      have above := ih (number / base) shorter
      simp only [readNumber] at above
      simp only [Nat.toDigits_of_base_le large (by omega : base ≤ number), readNumber,
        List.foldlM_append, above, Option.bind_eq_bind, Option.bind_some, List.foldlM_cons,
        last (number % base) (Nat.mod_lt _ (by omega)), List.foldlM_nil]
      exact congrArg some (Nat.div_add_mod' number base)

theorem exists_digitChar_of_mem (large : 1 < base) {letter : Char}
    (mem : letter ∈ Nat.toDigits base number) : ∃ digit < base, letter = Nat.digitChar digit := by
  induction number using Nat.strongRecOn with
  | ind number ih =>
    by_cases single : number < base
    · simp only [Nat.toDigits_of_lt_base single, List.mem_singleton] at mem
      exact ⟨number, single, mem⟩
    · have shorter : number / base < number := Nat.div_lt_self (by omega) large
      simp only [Nat.toDigits_of_base_le large (by omega : base ≤ number), List.mem_append,
        List.mem_singleton] at mem
      rcases mem with above | last
      · exact ih (number / base) shorter above
      · exact ⟨number % base, Nat.mod_lt _ (by omega), last⟩

theorem not_mem_toDigits (large : 1 < base) (small : base ≤ 16) {mark : Char}
    (isMark : mark ∈ ['.', ':', '%', '[', ']']) : mark ∉ Nat.toDigits base number := by
  intro mem
  rcases exists_digitChar_of_mem large mem with ⟨digit, isDigit, rfl⟩
  have plain : ∀ digit < 16, Nat.digitChar digit ∉ ['.', ':', '%', '[', ']'] := by decide
  exact plain digit (by omega) isMark

end Digits
