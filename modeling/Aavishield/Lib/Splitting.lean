import Mathlib.Algebra.GroupWithZero.Nat
import Mathlib.Data.List.Infix

/-!
# Cutting at a mark

A list is cut wherever a mark of several letters stands in it.  The cut is where the mark stands
for the first time, so the piece before it is the one that was written there only if the mark
does not begin earlier.
-/

namespace Splitting

universe u

variable {Letter : Type u} {mark front rest text : List Letter}

theorem prefix_of_prefix_append_cons {separator : Letter} (foreign : separator ∉ mark)
    (isPrefix : mark <+: front ++ separator :: rest) : mark <+: front := by
  by_cases short : mark.length ≤ front.length
  · exact List.prefix_of_prefix_length_le isPrefix (List.prefix_append _ _) short
  · have through : front ++ [separator] <+: mark := by
      apply List.prefix_of_prefix_length_le (List.prefix_append_right_inj front |>.mpr _) isPrefix
      · simp only [List.length_append, List.length_singleton]
        omega
      · exact List.prefix_append [separator] rest
    exact absurd (through.subset (by simp)) foreign

theorem infix_of_infix_append_cons {separator : Letter} (foreign : separator ∉ mark)
    (isInfix : mark <:+: front ++ separator :: rest) : mark <:+: front ∨ mark <:+: rest := by
  induction front with
  | nil =>
    rcases List.infix_cons_iff.mp isInfix with isPrefix | inRest
    · left
      exact (@prefix_of_prefix_append_cons _ mark [] rest separator foreign isPrefix).isInfix
    · exact Or.inr inRest
  | cons letter front ih =>
    rcases List.infix_cons_iff.mp isInfix with isPrefix | inTail
    · left
      exact (@prefix_of_prefix_append_cons _ mark (letter :: front) rest separator foreign
        isPrefix).isInfix
    · rcases ih inTail with inFront | inRest
      · exact Or.inl (inFront.trans (List.suffix_cons letter front).isInfix)
      · exact Or.inr inRest

variable [DecidableEq Letter]

def find (haystack needle : List Letter) : Option ℕ :=
  haystack.tails.findIdx? needle.isPrefixOf

theorem find_of_start (isPrefix : mark <+: text) : find text mark = some 0 := by
  have first : mark.isPrefixOf text = true := List.isPrefixOf_iff_prefix.mpr isPrefix
  cases text with
  | nil => simp [find, first]
  | cons letter text => simp [find, List.findIdx?_cons, first]

theorem find_cons {letter : Letter} (other : ¬mark <+: letter :: text) :
    find (letter :: text) mark = (find text mark).map (· + 1) := by
  have first : mark.isPrefixOf (letter :: text) = false := by
    rw [Bool.eq_false_iff, ne_eq, List.isPrefixOf_iff_prefix]
    exact other
  simp [find, List.findIdx?_cons, first]

theorem find_eq_none (absent : ¬mark <:+: text) : find text mark = none := by
  induction text with
  | nil =>
    have first : mark.isPrefixOf ([] : List Letter) = false := by
      rw [Bool.eq_false_iff, ne_eq, List.isPrefixOf_iff_prefix]
      exact fun isPrefix => absent isPrefix.isInfix
    simp [find, first]
  | cons letter text ih =>
    rw [List.infix_cons_iff, not_or] at absent
    rw [find_cons absent.1, ih absent.2, Option.map_none]

theorem infix_of_find {start : ℕ} (found : find text mark = some start) : mark <:+: text := by
  by_contra absent
  rw [find_eq_none absent] at found
  cases found

theorem not_infix_take_of_find {start : ℕ} (nonempty : mark ≠ [])
    (found : find text mark = some start) : ¬mark <:+: text.take start := by
  induction text generalizing start with
  | nil =>
    intro isInfix
    rw [List.take_nil, List.infix_nil] at isInfix
    exact nonempty isInfix
  | cons letter text ih =>
    by_cases isPrefix : mark <+: letter :: text
    · rw [find_of_start isPrefix] at found
      cases found
      simpa using nonempty
    · rw [find_cons isPrefix, Option.map_eq_some_iff] at found
      obtain ⟨before, found, rfl⟩ := found
      rw [List.take_succ_cons, List.infix_cons_iff, not_or]
      constructor
      · intro early
        exact isPrefix (early.trans (List.prefix_cons_inj letter |>.mpr (List.take_prefix _ _)))
      · exact ih found

theorem find_append (unmarked : ¬mark <:+: (front ++ mark).dropLast) (rest : List Letter) :
    find (front ++ mark ++ rest) mark = some front.length := by
  induction front with
  | nil => exact find_of_start (List.prefix_append mark rest)
  | cons letter front ih =>
    have more : front ++ mark ≠ [] := by
      intro empty
      apply unmarked
      rw [(List.append_eq_nil_iff.mp empty).2]
      exact List.nil_infix
    rw [List.cons_append, List.dropLast_cons_of_ne_nil more] at unmarked
    have other : ¬mark <+: letter :: (front ++ mark ++ rest) := by
      intro isPrefix
      apply unmarked
      have early : letter :: (front ++ mark).dropLast <+: letter :: (front ++ mark ++ rest) :=
        List.prefix_cons_inj letter |>.mpr
          ((List.dropLast_prefix _).trans (List.prefix_append _ _))
      apply (List.prefix_of_prefix_length_le isPrefix early _).isInfix
      simp only [List.length_cons, List.length_dropLast, List.length_append]
      omega
    rw [List.infix_cons_iff, not_or] at unmarked
    rw [List.cons_append, List.cons_append, find_cons other, ih unmarked.2]
    rfl

def split (mark : List Letter) : ℕ → List Letter → List (List Letter)
  | 0, text => [text]
  | count + 1, text =>
    match find text mark with
    | none => [text]
    | some start => text.take start :: split mark count (text.drop (start + mark.length))

variable {count : ℕ}

theorem split_ne_nil : split mark count text ≠ [] := by
  cases count with
  | zero => simp [split]
  | succ count =>
    rw [split]
    split <;> simp

theorem split_of_absent (absent : ¬mark <:+: text) :
    split mark count text = [text] := by
  cases count with
  | zero => rfl
  | succ count => rw [split, find_eq_none absent]

theorem split_append (unmarked : ¬mark <:+: (front ++ mark).dropLast) :
    split mark (count + 1) (front ++ mark ++ rest) = front :: split mark count rest := by
  have before : (front ++ mark ++ rest).take front.length = front := by
    rw [List.append_assoc, List.take_left]
  have after : (front ++ mark ++ rest).drop (front.length + mark.length) = rest := by
    rw [← List.length_append, List.drop_left]
  simp only [split, find_append unmarked, before, after]

theorem ended_of_mem_split {piece : List Letter} (nonempty : mark ≠ [])
    (pieceMem : piece ∈ (split mark count text).dropLast) :
    piece <:+: text ∧ ¬mark <:+: piece := by
  induction count generalizing text with
  | zero => simp [split] at pieceMem
  | succ count ih =>
    rw [split] at pieceMem
    split at pieceMem
    next => simp at pieceMem
    next start found =>
      rw [List.dropLast_cons_of_ne_nil split_ne_nil, List.mem_cons] at pieceMem
      rcases pieceMem with rfl | pieceMem
      · exact ⟨(List.take_prefix _ _).isInfix, not_infix_take_of_find nonempty found⟩
      · obtain ⟨inRest, unmarked⟩ := ih pieceMem
        exact ⟨inRest.trans (List.drop_suffix _ _).isInfix, unmarked⟩

theorem sum_length_split :
    ((split mark count text).map List.length).sum ≤ text.length := by
  induction count generalizing text with
  | zero => simp [split]
  | succ count ih =>
    rw [split]
    split
    next => simp
    next start found =>
      have rest := @ih (text.drop (start + mark.length))
      rw [List.length_drop] at rest
      rw [List.map_cons, List.sum_cons, List.length_take]
      omega

end Splitting
