import Mathlib.Data.List.DropRight
import Mathlib.Data.List.Infix

/-!
# Searching a stream

A text that is read block by block is searched in one pass: what is carried from one block to the
next is one letter shorter than what is looked for, so that no place of it is missed where blocks
meet and none is found that was not there.
-/

namespace StreamSearch

universe u

variable {Letter Failure : Type u} {needle seen block : List Letter}

theorem rtake_append (count : ℕ) (front back : List Letter) :
    (front ++ back).rtake count = (front.rtake count ++ back).rtake count := by
  simp only [List.rtake_eq_reverse_take_reverse, List.reverse_append, List.reverse_reverse,
    List.take_append, List.take_take]
  congr 3
  omega

theorem rdrop_append_rtake (count : ℕ) (text : List Letter) :
    text.rdrop count ++ text.rtake count = text := by
  rw [List.rdrop, List.rtake, List.take_append_drop]

theorem infix_of_append {front back : List Letter} (absent : ¬needle <:+: front ++ back)
    (short : front = [] ∨ needle.length - 1 ≤ back.length)
    (place : needle <:+: front ++ back ++ block) : needle <:+: back ++ block := by
  obtain ⟨before, after, whole⟩ := place
  rw [List.append_assoc front] at whole
  have isBefore : before ++ needle <+: front ++ (back ++ block) := ⟨after, whole⟩
  have late : front.length + back.length < before.length + needle.length := by
    by_contra inside
    apply absent
    have isText : front ++ back <+: front ++ (back ++ block) :=
      ⟨block, List.append_assoc front back block⟩
    have within : before ++ needle <+: front ++ back := by
      apply List.prefix_of_prefix_length_le isBefore isText
      simpa using inside
    exact (List.suffix_append before needle).isInfix.trans within.isInfix
  have start : front <+: before := by
    apply List.prefix_of_prefix_length_le (List.prefix_append _ _)
      ((List.prefix_append _ _).trans isBefore)
    rcases short with rfl | long
    · exact Nat.zero_le _
    · omega
  obtain ⟨rest, rfl⟩ := start
  refine ⟨rest, after, ?_⟩
  rw [List.append_assoc, List.append_assoc] at whole
  rw [List.append_assoc]
  exact List.append_cancel_left whole

theorem infix_append_iff (absent : ¬needle <:+: seen) :
    needle <:+: seen ++ block ↔ needle <:+: seen.rtake (needle.length - 1) ++ block := by
  have split := rdrop_append_rtake (needle.length - 1) seen
  constructor
  · intro place
    rw [← split] at absent place
    apply infix_of_append absent _ place
    rw [List.rdrop, List.rtake, List.take_eq_nil_iff, List.length_drop]
    omega
  · intro carried
    rw [← split, List.append_assoc]
    exact carried.trans (List.suffix_append _ _).isInfix

end StreamSearch
