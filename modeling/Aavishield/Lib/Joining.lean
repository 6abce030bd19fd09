import Mathlib.Data.List.Infix
import Mathlib.Data.List.TakeWhile

/-!
# Pieces joined by a mark

When pieces are written one after the other with a mark between them, what they make without
the mark still stands in one place only if at most one of them has anything but marks.
-/

namespace Joining

universe u

section Lengths

variable {Letter : Type u} {mark : Letter}

theorem intercalate_append_cons (mark : Letter) (before : List (List Letter)) (piece : List Letter)
    (after : List (List Letter)) :
    [mark].intercalate (before ++ piece :: after) =
      before.flatMap (· ++ [mark]) ++ piece ++ after.flatMap (mark :: ·) := by
  induction before generalizing piece with
  | nil =>
    induction after generalizing piece with
    | nil => simp
    | cons next after ih =>
      have rest := ih next
      simp only [List.nil_append, List.flatMap_nil] at rest ⊢
      rw [List.intercalate_cons_of_ne_nil (List.cons_ne_nil next after), rest]
      simp
  | cons earlier before ih =>
    rw [List.cons_append, List.intercalate_cons_of_ne_nil (by simp), ih]
    simp

theorem mem_intercalate {letter : Letter} {pieces : List (List Letter)}
    (mem : letter ∈ [mark].intercalate pieces) : letter = mark ∨ ∃ piece ∈ pieces, letter ∈ piece := by
  cases pieces with
  | nil => cases mem
  | cons first rest =>
    have joined := intercalate_append_cons mark [] first rest
    rw [List.nil_append] at joined
    rw [joined] at mem
    simp only [List.flatMap_nil, List.nil_append, List.mem_append, List.mem_flatMap,
      List.mem_cons] at mem
    rcases mem with inFirst | ⟨piece, pieceMem, isMark | inPiece⟩
    · exact .inr ⟨first, List.mem_cons_self, inFirst⟩
    · exact .inl isMark
    · exact .inr ⟨piece, List.mem_cons_of_mem first pieceMem, inPiece⟩

theorem mem_intercalate_of_mem {letter : Letter} {piece : List Letter} {pieces : List (List Letter)}
    (pieceMem : piece ∈ pieces) (inPiece : letter ∈ piece) : letter ∈ [mark].intercalate pieces := by
  rcases List.append_of_mem pieceMem with ⟨before, after, rfl⟩
  rw [intercalate_append_cons]
  exact List.mem_append_left _ (List.mem_append_right _ inPiece)

variable (mark) in
theorem length_ahead (pieces : List (List Letter)) :
    (pieces.flatMap (· ++ [mark])).length = pieces.flatten.length + pieces.length := by
  induction pieces with
  | nil => rfl
  | cons piece rest ih =>
    simp only [List.flatMap_cons, List.length_append, List.length_cons, List.length_nil, ih,
      List.flatten_cons]
    omega

variable (mark) in
theorem length_behind (pieces : List (List Letter)) :
    (pieces.flatMap (mark :: ·)).length = pieces.flatten.length + pieces.length := by
  induction pieces with
  | nil => rfl
  | cons piece rest ih =>
    simp only [List.flatMap_cons, List.length_append, List.length_cons, ih, List.flatten_cons]
    omega

end Lengths

variable {Letter : Type u} [DecidableEq Letter] (mark : Letter)

def inked (piece : List Letter) : Bool := piece.any (· ≠ mark)

def core (text : List Letter) : List Letter :=
  (((text.dropWhile (· = mark)).reverse).dropWhile (· = mark)).reverse

variable {mark} {first last piece text : List Letter} {before after pieces : List (List Letter)}

theorem not_inked_iff : inked mark piece = false ↔ ∀ letter ∈ piece, letter = mark := by
  simp [inked]

theorem inked_append : inked mark (first ++ last) = (inked mark first || inked mark last) := by
  simp [inked]

theorem eq_replicate_of_not_inked (plain : inked mark piece = false) :
    piece = List.replicate piece.length mark :=
  List.eq_replicate_of_mem (not_inked_iff.mp plain)

section

variable (plain : ∀ piece ∈ pieces, inked mark piece = false)

include plain

theorem not_inked_flatten :
    inked mark pieces.flatten = false := by
  rw [not_inked_iff]
  intro letter letterMem
  rcases List.mem_flatten.mp letterMem with ⟨piece, pieceMem, inPiece⟩
  exact not_inked_iff.mp (plain piece pieceMem) letter inPiece

theorem not_inked_ahead :
    inked mark (pieces.flatMap (· ++ [mark])) = false := by
  rw [not_inked_iff]
  intro letter letterMem
  rcases List.mem_flatMap.mp letterMem with ⟨piece, pieceMem, inPiece⟩
  rcases List.mem_append.mp inPiece with inPiece | isMark
  · exact not_inked_iff.mp (plain piece pieceMem) letter inPiece
  · exact List.mem_singleton.mp isMark

theorem not_inked_behind :
    inked mark (pieces.flatMap (mark :: ·)) = false := by
  rw [not_inked_iff]
  intro letter letterMem
  rcases List.mem_flatMap.mp letterMem with ⟨piece, pieceMem, inPiece⟩
  rcases List.mem_cons.mp inPiece with isMark | inPiece
  · exact isMark
  · exact not_inked_iff.mp (plain piece pieceMem) letter inPiece

end

theorem dropWhile_append_of_inked (isInked : inked mark first = true) (rest : List Letter) :
    (first ++ rest).dropWhile (· = mark) = first.dropWhile (· = mark) ++ rest := by
  induction first with
  | nil => simp [inked] at isInked
  | cons letter first ih =>
    by_cases isMark : letter = mark
    · have further : inked mark first = true := by simpa [inked, isMark] using isInked
      simp [isMark, ih further]
    · simp [isMark]

theorem core_append_left (plain : inked mark first = false) (text : List Letter) :
    core mark (first ++ text) = core mark text := by
  have marks : ∀ letter ∈ first, decide (letter = mark) = true := by
    simpa using not_inked_iff.mp plain
  rw [core, core, List.dropWhile_append_of_pos marks]

theorem core_append_right (plain : inked mark last = false) (isInked : inked mark text = true) :
    core mark (text ++ last) = core mark text := by
  have marks : ∀ letter ∈ last.reverse, decide (letter = mark) = true := by
    simpa using not_inked_iff.mp plain
  rw [core, core, dropWhile_append_of_inked isInked, List.reverse_append,
    List.dropWhile_append_of_pos marks]

theorem core_sandwich (firstInked : inked mark first = true) (lastInked : inked mark last = true)
    (middle : List Letter) : core mark (first ++ middle ++ last) =
      first.dropWhile (· = mark) ++ middle ++ (last.reverse.dropWhile (· = mark)).reverse := by
  have reversed : inked mark last.reverse = true := by simpa [inked] using lastInked
  rw [core, List.append_assoc, dropWhile_append_of_inked firstInked, ← List.append_assoc,
    List.reverse_append, dropWhile_append_of_inked reversed]
  simp

theorem core_eq_of_infix (isInfix : first <:+: text) (isInked : inked mark first = true)
    (sameInk : text.countP (· ≠ mark) = first.countP (· ≠ mark)) :
    core mark text = core mark first := by
  rcases isInfix with ⟨before, after, rfl⟩
  simp only [List.countP_append] at sameInk
  have noInk : ∀ part : List Letter, part.countP (· ≠ mark) = 0 → inked mark part = false := by
    intro part none
    rw [not_inked_iff]
    simpa using List.countP_eq_zero.mp none
  rw [core_append_right (noInk after (by omega)) (by simp [inked_append, isInked]),
    core_append_left (noInk before (by omega))]

theorem countP_intercalate (pieces : List (List Letter)) :
    ([mark].intercalate pieces).countP (· ≠ mark) = pieces.flatten.countP (· ≠ mark) := by
  induction pieces with
  | nil => simp
  | cons piece rest ih =>
    rcases rest with _ | ⟨next, rest⟩
    · simp
    · rw [List.intercalate_cons_of_ne_nil (List.cons_ne_nil next rest)]
      simp only [List.countP_append, List.flatten_cons, ih]
      simp

theorem exists_two_inked (two : 2 ≤ pieces.countP (inked mark)) :
    ∃ before first middle last after, pieces = before ++ first :: (middle ++ last :: after) ∧
      (∀ piece ∈ before, inked mark piece = false) ∧ inked mark first = true ∧
      inked mark last = true ∧ ∀ piece ∈ after, inked mark piece = false := by
  have firstOf : ∀ others : List (List Letter), 1 ≤ others.countP (inked mark) →
      ∃ front piece rest, others = front ++ piece :: rest ∧
        (∀ piece ∈ front, inked mark piece = false) ∧ inked mark piece = true := by
    intro others one
    rcases List.countP_pos_iff.mp one with ⟨piece, pieceMem, isInked⟩
    rcases List.find?_eq_some_iff_append.mp
      (Option.some_get (List.find?_isSome.mpr ⟨piece, pieceMem, isInked⟩)).symm with
      ⟨isInked, front, rest, isOthers, plain⟩
    exact ⟨front, _, rest, isOthers, by simpa using plain, isInked⟩
  rcases firstOf pieces (by omega) with ⟨before, first, rest, rfl, plain, firstInked⟩
  have none : before.countP (inked mark) = 0 := by
    apply List.countP_eq_zero.mpr
    simpa using plain
  have another : 1 ≤ rest.reverse.countP (inked mark) := by
    rw [List.countP_append, List.countP_cons, none] at two
    rw [List.countP_reverse]
    simp only [firstInked, if_true] at two
    omega
  rcases firstOf rest.reverse another with ⟨after, last, middle, isRest, afterPlain, lastInked⟩
  refine ⟨before, first, middle.reverse, last, after.reverse, ?_, plain, firstInked, lastInked, ?_⟩
  · have back := congrArg List.reverse isRest
    rw [List.reverse_reverse] at back
    simp [back]
  · simpa using afterPlain

theorem not_infix_of_two_inked (two : 2 ≤ pieces.countP (inked mark)) :
    ¬pieces.flatten <:+: [mark].intercalate pieces := by
  intro isInfix
  rcases exists_two_inked two with
    ⟨before, first, middle, last, after, rfl, beforePlain, firstInked, lastInked, afterPlain⟩
  have isFlat : (before ++ first :: (middle ++ last :: after)).flatten =
      before.flatten ++ (first ++ middle.flatten ++ last ++ after.flatten) := by
    simp
  have isJoined : [mark].intercalate (before ++ first :: (middle ++ last :: after)) =
      before.flatMap (· ++ [mark]) ++ (first ++ (middle.flatMap (mark :: ·) ++ [mark]) ++ last ++
        after.flatMap (mark :: ·)) := by
    rw [intercalate_append_cons]
    simp
  have flatInked : inked mark (before ++ first :: (middle ++ last :: after)).flatten = true := by
    rw [isFlat]
    simp [inked_append, firstInked]
  have same := core_eq_of_infix isInfix flatInked (countP_intercalate _)
  rw [isFlat, isJoined, core_append_left (not_inked_flatten beforePlain),
    core_append_left (not_inked_ahead beforePlain),
    core_append_right (not_inked_flatten afterPlain) (by simp [inked_append, firstInked]),
    core_append_right (not_inked_behind afterPlain) (by simp [inked_append, firstInked]),
    core_sandwich firstInked lastInked, core_sandwich firstInked lastInked] at same
  have lengths := congrArg List.length same
  have between := length_behind mark middle
  simp only [List.length_append, List.length_cons, List.length_nil] at lengths
  omega

theorem suffix_of_not_inked (plain : inked mark first = false) (lastPlain : inked mark last = false)
    (shorter : first.length ≤ last.length) : first <:+ last := by
  rw [eq_replicate_of_not_inked plain, eq_replicate_of_not_inked lastPlain]
  refine ⟨List.replicate (last.length - first.length) mark, ?_⟩
  rw [List.replicate_append_replicate]
  congr 1
  omega

theorem prefix_of_not_inked (plain : inked mark first = false) (lastPlain : inked mark last = false)
    (shorter : first.length ≤ last.length) : first <+: last := by
  rw [eq_replicate_of_not_inked plain, eq_replicate_of_not_inked lastPlain]
  refine ⟨List.replicate (last.length - first.length) mark, ?_⟩
  rw [List.replicate_append_replicate]
  congr 1
  omega

theorem infix_of_one_inked (beforePlain : ∀ piece ∈ before, inked mark piece = false)
    (afterPlain : ∀ piece ∈ after, inked mark piece = false) (piece : List Letter) :
    (before ++ piece :: after).flatten <:+: [mark].intercalate (before ++ piece :: after) := by
  have longer := length_ahead mark before
  have ahead : before.flatten <:+ before.flatMap (· ++ [mark]) :=
    suffix_of_not_inked (not_inked_flatten beforePlain) (not_inked_ahead beforePlain) (by omega)
  have longerBehind := length_behind mark after
  have behind : after.flatten <+: after.flatMap (mark :: ·) :=
    prefix_of_not_inked (not_inked_flatten afterPlain) (not_inked_behind afterPlain) (by omega)
  rcases ahead with ⟨more, isAhead⟩
  rcases behind with ⟨rest, isBehind⟩
  refine ⟨more, rest, ?_⟩
  rw [intercalate_append_cons, ← isAhead, ← isBehind]
  simp

theorem flatten_infix_intercalate_iff :
    pieces.flatten <:+: [mark].intercalate pieces ↔ pieces.countP (inked mark) ≤ 1 := by
  constructor
  · intro isInfix
    by_contra more
    exact not_infix_of_two_inked (by omega) isInfix
  · intro one
    rcases Nat.eq_zero_or_pos (pieces.countP (inked mark)) with none | some
    · have plain : ∀ piece ∈ pieces, inked mark piece = false := by
        simpa using List.countP_eq_zero.mp none
      rcases pieces with _ | ⟨piece, after⟩
      · simp
      · have none : ∀ piece ∈ ([] : List (List Letter)), inked mark piece = false := by simp
        exact infix_of_one_inked none
          (fun other otherMem => plain other (List.mem_cons_of_mem _ otherMem)) piece
    · rcases List.countP_pos_iff.mp some with ⟨piece, pieceMem, isInked⟩
      rcases List.append_of_mem pieceMem with ⟨before, after, rfl⟩
      rw [List.countP_append, List.countP_cons_of_pos isInked] at one
      have beforeNone : before.countP (inked mark) = 0 := by omega
      have afterNone : after.countP (inked mark) = 0 := by omega
      apply infix_of_one_inked
      · simpa using List.countP_eq_zero.mp beforeNone
      · simpa using List.countP_eq_zero.mp afterNone

end Joining
