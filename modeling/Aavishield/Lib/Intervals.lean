import Mathlib.Data.List.Pairwise
import Mathlib.Order.Bounds.Basic
import Mathlib.Order.MinMax

/-!
# Unions of intervals

Half-open intervals of a linear order.  Intervals sorted by their starts are collapsed into
separated ones that cover the same points, and on separated intervals it is seen where a
point leaves the union and where it comes into it.
-/

namespace Intervals

universe u

variable {Point : Type u}

structure Interval (Point : Type u) where
  start : Point
  finish : Point

variable [LinearOrder Point]

def Interval.Contains (interval : Interval Point) (point : Point) : Prop :=
  interval.start ≤ point ∧ point < interval.finish

instance (interval : Interval Point) (point : Point) : Decidable (interval.Contains point) :=
  inferInstanceAs (Decidable (_ ∧ _))

def Covered (intervals : List (Interval Point)) (point : Point) : Prop :=
  ∃ interval ∈ intervals, interval.Contains point

def collapse : Interval Point → List (Interval Point) → List (Interval Point)
  | last, [] => [last]
  | last, next :: rest =>
    if next.start ≤ last.finish then collapse ⟨last.start, max last.finish next.finish⟩ rest
    else last :: collapse next rest

def Separated (intervals : List (Interval Point)) : Prop :=
  intervals.Pairwise fun first second => first.finish < second.start

def Sorted (intervals : List (Interval Point)) : Prop :=
  intervals.Pairwise fun first second => first.start ≤ second.start

def Proper (intervals : List (Interval Point)) : Prop :=
  ∀ interval ∈ intervals, interval.start < interval.finish

variable {intervals rest : List (Interval Point)} {last interval : Interval Point} {now point : Point}

theorem covered_cons :
    Covered (interval :: rest) point ↔ interval.Contains point ∨ Covered rest point := by
  simp [Covered]

theorem contains_hull {first second : Interval Point} (sorted : first.start ≤ second.start)
    (touching : second.start ≤ first.finish) :
    Interval.Contains ⟨first.start, max first.finish second.finish⟩ point ↔
      first.Contains point ∨ second.Contains point := by
  constructor
  · rintro ⟨started, unfinished⟩
    rcases lt_or_ge point first.finish with inFirst | pastFirst
    · left
      exact ⟨started, inFirst⟩
    · right
      refine ⟨touching.trans pastFirst, ?_⟩
      rcases lt_max_iff.mp unfinished with inFirst | inSecond
      · exact absurd inFirst pastFirst.not_gt
      · exact inSecond
  · rintro (⟨started, unfinished⟩ | ⟨started, unfinished⟩)
    · exact ⟨started, lt_max_of_lt_left unfinished⟩
    · exact ⟨sorted.trans started, lt_max_of_lt_right unfinished⟩

theorem Sorted.hull {next : Interval Point} (sorted : Sorted (last :: next :: rest)) :
    Sorted (⟨last.start, max last.finish next.finish⟩ :: rest) := by
  rcases List.pairwise_cons.mp sorted with ⟨lastFirst, restSorted⟩
  refine List.pairwise_cons.mpr ⟨fun later laterMem => ?_, (List.pairwise_cons.mp restSorted).2⟩
  exact lastFirst later (List.mem_cons_of_mem _ laterMem)

theorem covered_collapse (sorted : Sorted (last :: rest)) :
    Covered (collapse last rest) point ↔ Covered (last :: rest) point := by
  induction rest generalizing last with
  | nil => rfl
  | cons next rest ih =>
    rcases List.pairwise_cons.mp sorted with ⟨lastFirst, restSorted⟩
    rw [collapse]
    split
    · rename_i touching
      rw [ih sorted.hull, covered_cons, covered_cons, covered_cons,
        contains_hull (lastFirst next List.mem_cons_self) touching, or_assoc]
    · simp only [covered_cons, ih restSorted]

theorem start_le_of_mem_collapse (sorted : Sorted (last :: rest))
    (intervalMem : interval ∈ collapse last rest) : last.start ≤ interval.start := by
  induction rest generalizing last with
  | nil =>
    rw [List.mem_singleton.mp intervalMem]
  | cons next rest ih =>
    rcases List.pairwise_cons.mp sorted with ⟨lastFirst, restSorted⟩
    rw [collapse] at intervalMem
    split at intervalMem
    · have started := ih sorted.hull intervalMem
      exact started
    · rcases List.mem_cons.mp intervalMem with rfl | intervalMem
      · exact le_rfl
      · exact (lastFirst next List.mem_cons_self).trans (ih restSorted intervalMem)

theorem separated_collapse (sorted : Sorted (last :: rest)) : Separated (collapse last rest) := by
  induction rest generalizing last with
  | nil => exact List.pairwise_singleton _ _
  | cons next rest ih =>
    rcases List.pairwise_cons.mp sorted with ⟨lastFirst, restSorted⟩
    rw [collapse]
    split
    · exact ih sorted.hull
    · rename_i apart
      refine List.pairwise_cons.mpr ⟨fun later laterMem => ?_, ih restSorted⟩
      exact (lt_of_not_ge apart).trans_le (start_le_of_mem_collapse restSorted laterMem)

theorem proper_collapse (proper : Proper (last :: rest)) : Proper (collapse last rest) := by
  induction rest generalizing last with
  | nil => exact proper
  | cons next rest ih =>
    have lastProper := proper last List.mem_cons_self
    have restProper : Proper (next :: rest) := fun interval intervalMem =>
      proper interval (List.mem_cons_of_mem _ intervalMem)
    rw [collapse]
    split
    · apply ih
      intro interval intervalMem
      rcases List.mem_cons.mp intervalMem with rfl | intervalMem
      · exact lt_max_of_lt_left lastProper
      · exact restProper interval (List.mem_cons_of_mem _ intervalMem)
    · intro interval intervalMem
      rcases List.mem_cons.mp intervalMem with rfl | intervalMem
      · exact lastProper
      · exact ih restProper interval intervalMem

theorem exists_ends_of_mem_collapse (intervalMem : interval ∈ collapse last rest) :
    (∃ first ∈ last :: rest, first.start = interval.start) ∧
      ∃ second ∈ last :: rest, second.finish = interval.finish := by
  induction rest generalizing last with
  | nil =>
    rw [List.mem_singleton.mp intervalMem]
    exact ⟨⟨last, List.mem_cons_self, rfl⟩, ⟨last, List.mem_cons_self, rfl⟩⟩
  | cons next rest ih =>
    rw [collapse] at intervalMem
    split at intervalMem
    · rcases ih intervalMem with ⟨⟨first, firstMem, isStart⟩, ⟨second, secondMem, isFinish⟩⟩
      constructor
      · rcases List.mem_cons.mp firstMem with rfl | firstMem
        · exact ⟨last, List.mem_cons_self, isStart⟩
        · exact ⟨first, List.mem_cons_of_mem _ (List.mem_cons_of_mem _ firstMem), isStart⟩
      · rcases List.mem_cons.mp secondMem with rfl | secondMem
        · rcases max_choice last.finish next.finish with isLast | isNext
          · exact ⟨last, List.mem_cons_self, isLast.symm.trans isFinish⟩
          · exact ⟨next, List.mem_cons_of_mem _ List.mem_cons_self, isNext.symm.trans isFinish⟩
        · exact ⟨second, List.mem_cons_of_mem _ (List.mem_cons_of_mem _ secondMem), isFinish⟩
    · rcases List.mem_cons.mp intervalMem with rfl | intervalMem
      · exact ⟨⟨interval, List.mem_cons_self, rfl⟩, ⟨interval, List.mem_cons_self, rfl⟩⟩
      · rcases ih intervalMem with ⟨⟨first, firstMem, isStart⟩, ⟨second, secondMem, isFinish⟩⟩
        exact ⟨⟨first, List.mem_cons_of_mem _ firstMem, isStart⟩,
          ⟨second, List.mem_cons_of_mem _ secondMem, isFinish⟩⟩

theorem Separated.eq_or_apart (separated : Separated intervals) {other : Interval Point}
    (intervalMem : interval ∈ intervals) (otherMem : other ∈ intervals) :
    interval = other ∨ interval.finish < other.start ∨ other.finish < interval.start := by
  rcases List.append_of_mem intervalMem with ⟨before, after, rfl⟩
  rcases List.pairwise_append.mp separated with ⟨-, later, earlier⟩
  rcases List.mem_append.mp otherMem with inBefore | otherMem
  · right
    right
    exact earlier other inBefore interval List.mem_cons_self
  · rcases List.mem_cons.mp otherMem with rfl | inAfter
    · left
      rfl
    · right
      left
      exact (List.pairwise_cons.mp later).1 other inAfter

theorem Separated.isLeast_finish (separated : Separated intervals)
    (intervalMem : interval ∈ intervals) (inside : interval.Contains now) :
    IsLeast {point | now < point ∧ ¬Covered intervals point} interval.finish := by
  refine ⟨⟨inside.2, ?_⟩, ?_⟩
  · rintro ⟨other, otherMem, started, unfinished⟩
    rcases separated.eq_or_apart intervalMem otherMem with rfl | before | after
    · exact lt_irrefl _ unfinished
    · exact absurd started before.not_ge
    · exact lt_irrefl _ ((inside.1.trans_lt inside.2).trans (unfinished.trans after))
  · rintro point ⟨later, uncovered⟩
    by_contra earlier
    exact uncovered ⟨interval, intervalMem, inside.1.trans later.le, lt_of_not_ge earlier⟩

theorem Separated.isLeast_start (separated : Separated intervals) (proper : Proper intervals)
    (outside : ¬Covered intervals now)
    (found : intervals.find? (fun interval => decide (now < interval.start)) = some interval) :
    IsLeast {point | now < point ∧ Covered intervals point} interval.start := by
  rcases List.find?_eq_some_iff_append.mp found with ⟨later, before, after, rfl, past⟩
  have intervalMem : interval ∈ before ++ interval :: after :=
    List.mem_append_right _ List.mem_cons_self
  refine ⟨⟨of_decide_eq_true later, interval, intervalMem, le_rfl, proper interval intervalMem⟩, ?_⟩
  rintro point ⟨isLater, other, otherMem, started, unfinished⟩
  have future : now < other.start := by
    by_contra isPast
    exact outside ⟨other, otherMem, le_of_not_gt isPast, isLater.trans unfinished⟩
  rcases List.mem_append.mp otherMem with inBefore | otherMem
  · have isPast := past other inBefore
    rw [decide_eq_true future] at isPast
    cases isPast
  · rcases List.mem_cons.mp otherMem with rfl | inAfter
    · exact started
    · have gap := (List.pairwise_cons.mp (List.pairwise_append.mp separated).2.1).1 other inAfter
      exact ((proper interval intervalMem).trans gap).le.trans started

theorem not_covered_of_find?_eq_none (outside : ¬Covered intervals now)
    (none : intervals.find? (fun interval => decide (now < interval.start)) = none)
    (later : now < point) : ¬Covered intervals point := by
  rintro ⟨interval, intervalMem, started, unfinished⟩
  have past := List.find?_eq_none.mp none interval intervalMem
  apply outside
  refine ⟨interval, intervalMem, le_of_not_gt fun future => past (decide_eq_true future), ?_⟩
  exact later.trans unfinished

end Intervals
