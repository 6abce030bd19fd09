import Mathlib.Data.List.Infix

/-!
# Names made of labels

A name is a sequence of labels with a separator between them, and the names above it are
what is left when labels are taken from its front.  The separator is a parameter.
-/

namespace Labels

universe u

variable {Letter : Type u} {dot : Letter} {name other above : List Letter}

def Under (dot : Letter) (name above : List Letter) : Prop := name = above ∨ dot :: above <:+ name

theorem Under.refl (name : List Letter) : Under dot name name := .inl rfl

theorem Under.trans {middle : List Letter} (first : Under dot name middle)
    (second : Under dot middle above) : Under dot name above := by
  rcases first with rfl | first
  · exact second
  · right
    rcases second with rfl | second
    · exact first
    · exact (second.trans (List.suffix_cons dot middle)).trans first

variable [DecidableEq Letter]

instance (name above : List Letter) : Decidable (Under dot name above) :=
  inferInstanceAs (Decidable (name = above ∨ dot :: above <:+ name))

def afters (dot : Letter) : List Letter → List (List Letter)
  | [] => []
  | letter :: rest => if letter = dot then rest :: afters dot rest else afters dot rest

theorem mem_afters : other ∈ afters dot name ↔ dot :: other <:+ name := by
  induction name with
  | nil => simp [afters]
  | cons letter rest ih =>
    rw [List.suffix_cons_iff, ← ih, afters]
    split
    · rename_i isDot
      simp [isDot]
    · rename_i notDot
      simp [Ne.symm notDot]

theorem pairwise_afters (dot : Letter) (name : List Letter) :
    (name :: afters dot name).Pairwise fun longer shorter => shorter.length < longer.length := by
  induction name with
  | nil => simp [afters]
  | cons letter rest ih =>
    rw [List.pairwise_cons]
    refine ⟨fun other mem => ?_, ?_⟩
    · have shorter := (mem_afters.1 mem).length_le
      simp only [List.length_cons] at shorter ⊢
      omega
    · rw [afters]
      split_ifs
      · exact ih
      · exact ih.tail

theorem eq_afters_of_append {nearer farther : List (List Letter)}
    (split : afters dot name = nearer ++ other :: farther) : farther = afters dot other := by
  induction name generalizing nearer with
  | nil => cases nearer <;> cases split
  | cons letter rest ih =>
    rw [afters] at split
    split_ifs at split with isDot
    · cases nearer with
      | nil =>
        cases split
        rfl
      | cons near nearer =>
        cases (List.cons.inj split).1
        exact ih (List.cons.inj split).2
    · exact ih split

theorem map_intercalate_drop_splitOn (name : List Letter) :
    (List.range' 1 ((name.splitOn dot).length - 1)).map
      (fun index => [dot].intercalate ((name.splitOn dot).drop index)) = afters dot name := by
  induction name with
  | nil => simp [afters]
  | cons letter rest ih =>
    rcases List.exists_cons_of_ne_nil (List.splitOn_ne_nil dot rest) with ⟨first, labels, split⟩
    have joined : [dot].intercalate (first :: labels) = rest := by
      rw [← split]
      exact List.intercalate_splitOn dot
    rw [split] at ih
    rw [List.splitOn_cons_eq_if_modifyHead, split, afters]
    by_cases isDot : letter = dot
    · subst isDot
      rw [if_pos rfl, ← ih, ← joined]
      simp only [beq_self_eq_true, if_true, List.length_cons, Nat.add_sub_cancel]
      rw [List.range'_succ, List.map_cons, List.drop_one, List.tail_cons, joined, ← joined]
      congr 1
      rw [← List.map_add_range', List.map_map]
      simp [Function.comp_def, Nat.add_comm 1]
    · rw [if_neg isDot, ← ih]
      simp only [beq_iff_eq, isDot, if_false, List.modifyHead_cons, List.length_cons]
      apply List.map_congr_left
      intro index indexMem
      rcases Nat.exists_eq_succ_of_ne_zero
        (Nat.one_le_iff_ne_zero.mp (List.mem_range'_1.mp indexMem).1) with ⟨before, rfl⟩
      rfl

end Labels
