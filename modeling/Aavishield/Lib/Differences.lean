import Mathlib.Data.List.Basic

/-!
# Lists that differ in some elements only

Two lists of rows that are the same but for rows of no concern to a reader, and what a reader
makes of both alike.
-/

namespace Differences

universe u v

variable {α : Type u} {β : Type v}

inductive SameBut (elsewhere : α → Prop) : List α → List α → Prop
  | nil : SameBut elsewhere [] []
  | keep {left right : List α} (element : α) (same : SameBut elsewhere left right) :
      SameBut elsewhere (element :: left) (element :: right)
  | onLeft {left right : List α} {element : α} (isElsewhere : elsewhere element)
      (same : SameBut elsewhere left right) : SameBut elsewhere (element :: left) right
  | onRight {left right : List α} {element : α} (isElsewhere : elsewhere element)
      (same : SameBut elsewhere left right) : SameBut elsewhere left (element :: right)

namespace SameBut

variable {elsewhere : α → Prop} {left right : List α}

theorem refl (list : List α) : SameBut elsewhere list list := by
  induction list with
  | nil => exact nil
  | cons element rest ih => exact keep element ih

theorem prepend {more : List α} (areElsewhere : ∀ element ∈ more, elsewhere element)
    (same : SameBut elsewhere left right) : SameBut elsewhere left (more ++ right) := by
  induction more with
  | nil => exact same
  | cons element rest ih =>
    apply onRight (areElsewhere element List.mem_cons_self)
    exact ih fun later mem => areElsewhere later (List.mem_cons_of_mem element mem)

theorem filter_left (list : List α) {keeps : α → Bool}
    (drops : ∀ element, keeps element = false → elsewhere element) :
    SameBut elsewhere list (list.filter keeps) := by
  induction list with
  | nil => exact nil
  | cons element rest ih =>
    cases kept : keeps element with
    | true =>
      rw [List.filter_cons_of_pos kept]
      exact keep element ih
    | false =>
      rw [List.filter_cons_of_neg (by simp [kept])]
      exact onLeft (drops element kept) ih

section

variable (same : SameBut elsewhere left right)

include same

theorem mem_of_mem {element : α} (mem : element ∈ left)
    (here : ¬elsewhere element) : element ∈ right := by
  induction same with
  | nil => exact mem
  | keep other _ ih =>
    rcases List.mem_cons.mp mem with rfl | later
    · exact List.mem_cons_self
    · exact List.mem_cons_of_mem other (ih later)
  | onLeft isElsewhere _ ih =>
    rcases List.mem_cons.mp mem with rfl | later
    · exact absurd isElsewhere here
    · exact ih later
  | onRight _ _ ih => exact List.mem_cons_of_mem _ (ih mem)

theorem imp {other : α → Prop}
    (implies : ∀ element, element ∈ left ∨ element ∈ right → elsewhere element → other element) :
    SameBut other left right := by
  induction same with
  | nil => exact nil
  | keep element _ ih =>
    apply keep
    apply ih
    rintro later (onLeft | onRight)
    · exact implies later (.inl (List.mem_cons_of_mem element onLeft))
    · exact implies later (.inr (List.mem_cons_of_mem element onRight))
  | onLeft isElsewhere _ ih =>
    apply onLeft (implies _ (.inl List.mem_cons_self) isElsewhere)
    apply ih
    rintro later (onLeft | onRight)
    · exact implies later (.inl (List.mem_cons_of_mem _ onLeft))
    · exact implies later (.inr onRight)
  | onRight isElsewhere _ ih =>
    apply onRight (implies _ (.inr List.mem_cons_self) isElsewhere)
    apply ih
    rintro later (onLeft | onRight)
    · exact implies later (.inl onLeft)
    · exact implies later (.inr (List.mem_cons_of_mem _ onRight))

theorem eq_of_nowhere
    (nowhere : ∀ element, element ∈ left ∨ element ∈ right → ¬elsewhere element) : left = right := by
  induction same with
  | nil => rfl
  | keep element _ ih =>
    rw [ih]
    rintro later (onLeft | onRight)
    · exact nowhere later (.inl (List.mem_cons_of_mem element onLeft))
    · exact nowhere later (.inr (List.mem_cons_of_mem element onRight))
  | onLeft isElsewhere => exact absurd isElsewhere (nowhere _ (.inl List.mem_cons_self))
  | onRight isElsewhere => exact absurd isElsewhere (nowhere _ (.inr List.mem_cons_self))

theorem map {elsewhere' : β → Prop} {image : α → β}
    (implies : ∀ element, elsewhere element → elsewhere' (image element)) :
    SameBut elsewhere' (left.map image) (right.map image) := by
  induction same with
  | nil => exact nil
  | keep element _ ih => exact keep (image element) ih
  | onLeft isElsewhere _ ih => exact onLeft (implies _ isElsewhere) ih
  | onRight isElsewhere _ ih => exact onRight (implies _ isElsewhere) ih

theorem filterMap_eq_of_views {view view' : α → Option β}
    (unseen : ∀ element, elsewhere element → view element = none ∧ view' element = none)
    (seen : ∀ element ∈ left, element ∈ right → view element = view' element) :
    left.filterMap view = right.filterMap view' := by
  induction same with
  | nil => rfl
  | keep element _ ih =>
    rw [List.filterMap_cons, List.filterMap_cons, seen element List.mem_cons_self List.mem_cons_self,
      ih]
    intro later onLeft onRight
    exact seen later (List.mem_cons_of_mem element onLeft) (List.mem_cons_of_mem element onRight)
  | onLeft isElsewhere _ ih =>
    rw [List.filterMap_cons_none (unseen _ isElsewhere).1, ih]
    intro later onLeft onRight
    exact seen later (List.mem_cons_of_mem _ onLeft) onRight
  | onRight isElsewhere _ ih =>
    rw [List.filterMap_cons_none (unseen _ isElsewhere).2, ih]
    intro later onLeft onRight
    exact seen later onLeft (List.mem_cons_of_mem _ onRight)

theorem filterMap_eq {view : α → Option β}
    (unseen : ∀ element, elsewhere element → view element = none) :
    left.filterMap view = right.filterMap view :=
  same.filterMap_eq_of_views (fun element isElsewhere =>
    ⟨unseen element isElsewhere, unseen element isElsewhere⟩) fun _ _ _ => rfl

theorem filter_eq {picks : α → Bool}
    (unseen : ∀ element, elsewhere element → picks element = false) :
    left.filter picks = right.filter picks := by
  rw [← List.filterMap_eq_filter, same.filterMap_eq]
  intro element isElsewhere
  exact Option.guard_eq_none_iff.mpr (unseen element isElsewhere)

theorem find?_eq {picks : α → Bool}
    (unseen : ∀ element, elsewhere element → picks element = false) :
    left.find? picks = right.find? picks := by
  rw [← List.head?_filter, ← List.head?_filter, same.filter_eq unseen]

end

end SameBut

end Differences
