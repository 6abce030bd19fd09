import Mathlib.Data.List.Perm.Basic
import Mathlib.Order.Lattice

/-!
# Lists that decide

In a table of rules the first element that satisfies a condition decides.  Dropping later
elements of the same kind leaves the first match as it is; and the first match has a property
in every order of the list exactly if all matches have it.

Elsewhere the strongest decides: a walk keeps the stronger of what it holds and what it meets,
and ends after the first element that makes the rest unnecessary.
-/

namespace FirstMatch

universe u

variable {α : Type u}

def keepFirst (same : α → α → Bool) (list : List α) : List α :=
  list.foldl (fun kept element => if kept.any (same element) then kept else kept ++ [element]) []

variable {same : α → α → Bool} {picks : α → Bool} {list kept : List α} {element : α}

theorem find?_foldl_keepFirst
    (respects : ∀ first second, same first second = true → picks first = picks second) :
    (list.foldl (fun kept element => if kept.any (same element) then kept else kept ++ [element])
      kept).find? picks = (kept ++ list).find? picks := by
  induction list generalizing kept with
  | nil => simp
  | cons element rest hypothesis =>
    rw [List.foldl_cons, hypothesis]
    split_ifs with seen
    · rcases List.any_eq_true.mp seen with ⟨earlier, earlierMem, isSame⟩
      rw [List.find?_append, List.find?_append, List.find?_cons]
      -- an earlier element of the kind matches if this one does
      rcases isMatch : picks element with _ | _
      · rfl
      · have found : (kept.find? picks).isSome = true := by
          rw [List.find?_isSome]
          exact ⟨earlier, earlierMem, (respects element earlier isSame).symm.trans isMatch⟩
        rcases Option.isSome_iff_exists.mp found with ⟨first, isFirst⟩
        rw [isFirst]
        rfl
    · rw [List.append_assoc]
      rfl

theorem find?_keepFirst
    (respects : ∀ first second, same first second = true → picks first = picks second) :
    (keepFirst same list).find? picks = list.find? picks :=
  find?_foldl_keepFirst respects

theorem mem_of_mem_foldl_keepFirst (elementMem : element ∈ list.foldl
    (fun kept element => if kept.any (same element) then kept else kept ++ [element]) kept) :
    element ∈ kept ++ list := by
  induction list generalizing kept with
  | nil => simpa using elementMem
  | cons first rest hypothesis =>
    have inRest := hypothesis elementMem
    dsimp only at inRest
    split_ifs at inRest
    · rcases List.mem_append.mp inRest with inKept | inRest
      · exact List.mem_append_left _ inKept
      · exact List.mem_append_right _ (List.mem_cons_of_mem first inRest)
    · simpa using inRest

theorem mem_of_mem_keepFirst (elementMem : element ∈ keepFirst same list) : element ∈ list :=
  mem_of_mem_foldl_keepFirst elementMem

theorem exists_perm_find? (elementMem : element ∈ list) (isPicked : picks element = true) :
    ∃ order : List α, order.Perm list ∧ order.find? picks = some element := by
  rcases List.append_of_mem elementMem with ⟨front, back, rfl⟩
  exact ⟨element :: (front ++ back), List.perm_middle.symm, List.find?_cons_of_pos isPicked⟩

section Ranked

variable {β : Type u} [LinearOrder β] {rank : α → β} {order : List α}

def leading (rank : α → β) (picks : α → Bool) (list : List α) : List α :=
  (list.filter picks).filter fun element =>
    (list.filter picks).all fun other => rank element ≤ rank other

theorem mem_leading : element ∈ leading rank picks list ↔
    (element ∈ list ∧ picks element = true) ∧
      ∀ other ∈ list, picks other = true → rank element ≤ rank other := by
  simp only [leading, List.mem_filter, List.all_eq_true, decide_eq_true_eq, and_imp]

theorem mem_leading_filter {keeps : α → Bool} : element ∈ leading rank picks (list.filter keeps) ↔
    element ∈ leading rank (fun other => keeps other && picks other) list := by
  simp only [mem_leading, List.mem_filter, Bool.and_eq_true]
  grind

theorem mem_leading_of_find? (sorted : order.Pairwise fun first second => rank first ≤ rank second)
    (perm : order.Perm list) (found : order.find? picks = some element) :
    element ∈ leading rank picks list := by
  rcases List.find?_eq_some_iff_append.mp found with ⟨isPicked, front, back, rfl, passed⟩
  refine mem_leading.mpr ⟨⟨perm.mem_iff.mp (by simp), isPicked⟩, ?_⟩
  intro other otherMem otherPicked
  rcases List.mem_append.mp (perm.mem_iff.mpr otherMem) with inFront | inRest
  · have notPicked := passed other inFront
    simp [otherPicked] at notPicked
  · rcases List.mem_cons.mp inRest with rfl | inBack
    · exact le_refl _
    · exact (List.pairwise_cons.mp (List.pairwise_append.mp sorted).2.1).1 other inBack

theorem exists_ranked_perm_find?
    (sorted : list.Pairwise fun first second => rank first ≤ rank second)
    (isLeading : element ∈ leading rank picks list) :
    ∃ order : List α, order.Perm list ∧
      (order.Pairwise fun first second => rank first ≤ rank second) ∧
        order.find? picks = some element := by
  rcases mem_leading.mp isLeading with ⟨⟨elementMem, isPicked⟩, least⟩
  rcases List.append_of_mem elementMem with ⟨front, back, rfl⟩
  let isLower : α → Bool := fun other => rank other < rank element
  let lower := (front ++ back).filter isLower
  let upper := (front ++ back).filter fun other => !isLower other
  have restSublist : (front ++ back).Sublist (front ++ element :: back) :=
    (List.Sublist.refl front).append (List.sublist_cons_self element back)
  have restSorted := sorted.sublist restSublist
  have below : ∀ other ∈ lower, rank other < rank element := fun other otherMem =>
    of_decide_eq_true (List.mem_filter.mp otherMem).2
  have above : ∀ other ∈ upper, rank element ≤ rank other := by
    intro other otherMem
    have notLower := (List.mem_filter.mp otherMem).2
    simpa [isLower] using notLower
  refine ⟨lower ++ element :: upper, ?_, ?_, ?_⟩
  · have split : (lower ++ upper).Perm (front ++ back) := List.filter_append_perm isLower _
    exact List.perm_middle.trans ((split.cons element).trans List.perm_middle.symm)
  · apply List.pairwise_append.mpr
    refine ⟨restSorted.sublist List.filter_sublist, ?_, ?_⟩
    · exact List.pairwise_cons.mpr ⟨above, restSorted.sublist List.filter_sublist⟩
    · intro first firstMem second secondMem
      rcases List.mem_cons.mp secondMem with rfl | inUpper
      · exact le_of_lt (below first firstMem)
      · exact le_trans (le_of_lt (below first firstMem)) (above second inUpper)
  · have nonePicked : lower.find? picks = none := by
      apply List.find?_eq_none.mpr
      intro other otherMem otherPicked
      have inList := restSublist.subset (List.mem_of_mem_filter otherMem)
      exact absurd (least other inList otherPicked) (not_le_of_gt (below other otherMem))
    rw [List.find?_append, nonePicked, List.find?_cons_of_pos isPicked]
    rfl

end Ranked

end FirstMatch

namespace Strongest

universe u v

variable {Value : Type u} {Strength : Type v} [LinearOrder Strength]
variable (strength : Value → Strength) (ends : Value → Bool)

def stronger (held other : Value) : Value :=
  if strength held < strength other then other else held

def takeThrough : List Value → List Value
  | [] => []
  | value :: rest => value :: if ends value then [] else takeThrough rest

variable {strength ends} {held value : Value} {others : List Value}

theorem takeThrough_subset : ∀ value ∈ takeThrough ends others, value ∈ others := by
  induction others with
  | nil => simp [takeThrough]
  | cons first rest ih =>
    intro value valueMem
    rw [takeThrough] at valueMem
    rcases List.mem_cons.mp valueMem with rfl | valueMem
    · simp
    · split at valueMem
      · simp at valueMem
      · exact List.mem_cons_of_mem _ (ih value valueMem)

theorem takeThrough_map {Source : Type*} (source : Source → Value) (sources : List Source) :
    takeThrough ends (sources.map source) =
      (takeThrough (fun value => ends (source value)) sources).map source := by
  induction sources with
  | nil => rfl
  | cons first rest ih =>
    rw [List.map_cons, takeThrough, takeThrough, List.map_cons, ih]
    split <;> simp

theorem mem_takeThrough_or_ends (ends : Value → Bool) (value : Value) (before after : List Value) :
    value ∈ takeThrough ends (before ++ value :: after) ∨
      ∃ earlier ∈ before, ends earlier = true ∧
        earlier ∈ takeThrough ends (before ++ value :: after) := by
  induction before with
  | nil => exact .inl (by simp [takeThrough])
  | cons first rest ih =>
    rw [List.cons_append, takeThrough]
    cases isEnd : ends first with
    | true => exact .inr ⟨first, by simp, isEnd, by simp⟩
    | false =>
      rcases ih with reached | ⟨earlier, earlierMem, isEnd, reached⟩
      · exact .inl (by simp [reached])
      · exact .inr ⟨earlier, by simp [earlierMem], isEnd, by simp [reached]⟩

theorem foldl_stronger_mem (strength : Value → Strength) (held : Value) (others : List Value) :
    others.foldl (stronger strength) held ∈ held :: others := by
  induction others generalizing held with
  | nil => simp
  | cons other rest ih =>
    rw [List.foldl_cons]
    rcases List.mem_cons.mp (ih (stronger strength held other)) with isHeld | isRest
    · rw [isHeld, stronger]
      split <;> simp
    · simp [isRest]

theorem le_stronger_left : strength held ≤ strength (stronger strength held value) := by
  rw [stronger]
  split
  · exact le_of_lt ‹_›
  · exact le_refl _

theorem le_stronger_right : strength value ≤ strength (stronger strength held value) := by
  rw [stronger]
  split
  · exact le_refl _
  · exact not_lt.mp ‹_›

theorem le_foldl_stronger (held : Value) (others : List Value) :
    ∀ value ∈ held :: others, strength value ≤ strength (others.foldl (stronger strength) held) := by
  induction others generalizing held with
  | nil => simp
  | cons other rest ih =>
    intro value valueMem
    rw [List.foldl_cons]
    have step := ih (stronger strength held other)
    have first := step _ List.mem_cons_self
    rcases List.mem_cons.mp valueMem with rfl | valueMem
    · exact le_trans le_stronger_left first
    · rcases List.mem_cons.mp valueMem with rfl | valueMem
      · exact le_trans le_stronger_right first
      · exact step value (List.mem_cons_of_mem _ valueMem)

end Strongest
