import Aavishield.Dlp.Parts
import Aavishield.Dlp.Steps

/-!
# Accounting for leaves

A walk accounts for a leaf if an item tells of it, as long as there is room for the pictures
and scanned pages among its leaves.  The rules say for which leaves a walk accounts, and at what
cost, by the steps it is made of.
-/

namespace Aavishield.Dlp

open Effects Text Walk

/-- What a walk never takes back. -/
structure Grows (ctx after : Ctx) : Prop where
  limits : after.limits = ctx.limits
  items : ctx.items <+: after.items
  stopped : ctx.stopped = true → after.stopped = true

instance : Std.Refl Grows := ⟨fun _ => ⟨rfl, List.prefix_rfl, id⟩⟩

instance : IsTrans Ctx Grows where
  trans _ _ _ first second :=
    { limits := second.limits.trans first.limits
      items := first.items.trans second.items
      stopped := fun stopped => second.stopped (first.stopped stopped) }

theorem Grows.told {ctx after : Ctx} {leaf : Leaf} (grows : Grows ctx after)
    (told : Told ctx.items leaf) : Told after.items leaf := by
  rcases told with ⟨item, itemMem, tells⟩
  exact ⟨item, grows.items.subset itemMem, tells⟩

/-- The pictures shown and the scanned pages read so far. -/
def Ctx.spent (ctx : Ctx) : ℕ × ℕ := (ctx.imagesEmitted, ctx.ocrPages)

/-- A walk tells of its leaves, but for those that are overlooked, if there is room for them. -/
structure Accounts {Value : Type} (limits : Limits) (leaves : Leaf → Prop) (cost : ℕ × ℕ)
    (brings : Value → Prop) (walk : Walk Value) : Prop where
  grows : ∀ ctx, ctx.limits = limits → Grows ctx (walk ctx).2
  spends : ∀ ctx, ctx.limits = limits → (walk ctx).2.spent ≤ ctx.spent + cost
  brought : ∀ ctx value after, ctx.limits = limits → walk ctx = (.ok value, after) →
    brings value
  accounted : ∀ ctx value after, ctx.limits = limits → ctx.spent + cost ≤ limits.room →
    walk ctx = (.ok value, after) → after.stopped = false →
      ∀ leaf, leaves leaf → leaf.content ≠ .overlooked → Told after.items leaf

abbrev Silent (limits : Limits) (leaves : Leaf → Prop) (cost : ℕ × ℕ) (walk : Walk Unit) : Prop :=
  Accounts limits leaves cost (fun _ => True) walk

namespace Accounts

variable {Value Other Element : Type} {limits : Limits} {leaves others : Leaf → Prop}
variable {cost more : ℕ × ℕ}
variable {brings : Value → Prop} {bringsOther : Other → Prop} {walk : Walk Value}

theorem congr {same : Leaf → Prop} {weaker : Value → Prop}
    (accounts : Accounts limits leaves cost brings walk)
    (leavesIff : ∀ leaf, leaf.content ≠ .overlooked → same leaf → leaves leaf)
    (costs : cost ≤ more) (implies : ∀ value, brings value → weaker value) :
    Accounts limits same more weaker walk where
  grows := accounts.grows
  spends ctx limited := (accounts.spends ctx limited).trans (add_le_add_right costs ctx.spent)
  brought ctx value after limited ran := implies value (accounts.brought ctx value after limited ran)
  accounted ctx value after limited room ran going leaf isLeaf looked :=
    accounts.accounted ctx value after limited ((add_le_add_right costs ctx.spent).trans room) ran
      going leaf (leavesIff leaf looked isLeaf) looked

theorem quiet (keeps : ∀ ctx, Grows ctx (walk ctx).2 ∧ (walk ctx).2.spent ≤ ctx.spent + cost)
    (brought : ∀ ctx value after, ctx.limits = limits → walk ctx = (.ok value, after) →
      brings value) : Accounts limits (fun _ => False) cost brings walk where
  grows ctx _ := (keeps ctx).1
  spends ctx _ := (keeps ctx).2
  brought := brought
  accounted _ _ _ _ _ _ _ _ isLeaf := absurd isLeaf id

theorem pure (value : Value) : Accounts limits (fun _ => False) 0 (· = value) (pure value) := by
  apply quiet
  · intro ctx
    exact ⟨refl_of Grows ctx, le_rfl⟩
  · intro ctx other after _ ran
    simp only [pure_apply, Prod.mk.injEq, Except.ok.injEq] at ran
    exact ran.1.symm

theorem get : Accounts limits (fun _ => False) 0 (fun ctx => ctx.limits = limits) get := by
  apply quiet
  · intro ctx
    exact ⟨refl_of Grows ctx, le_rfl⟩
  · intro ctx other after limited ran
    simp only [Effects.get, Prod.mk.injEq, Except.ok.injEq] at ran
    rwa [← ran.1]

variable {next : Value → Walk Other}

theorem bind (first : Accounts limits leaves cost brings walk)
    (second : ∀ value, brings value → Accounts limits others more bringsOther (next value)) :
    Accounts limits (fun leaf => leaves leaf ∨ others leaf) (cost + more) bringsOther
      (walk >>= next) where
  grows ctx limited := by
    have step := first.grows ctx limited
    rcases ran : walk ctx with ⟨failure | value, middle⟩
    · rw [bind_of_error ran]
      rwa [ran] at step
    · rw [bind_of_ok ran]
      rw [ran] at step
      have middleLimited := step.limits.trans limited
      exact trans_of Grows step
        ((second value (first.brought ctx value middle limited ran)).grows middle middleLimited)
  spends ctx limited := by
    have step := first.grows ctx limited
    have spends := first.spends ctx limited
    rw [← add_assoc]
    rcases ran : walk ctx with ⟨failure | value, middle⟩
    · rw [ran] at spends
      rw [bind_of_error ran]
      exact spends.trans le_self_add
    · rw [ran] at step spends
      rw [bind_of_ok ran]
      have last := second value (first.brought ctx value middle limited ran)
      exact (last.spends middle (step.limits.trans limited)).trans (add_le_add_left spends more)
  brought ctx value after limited ranBoth := by
    have step := first.grows ctx limited
    rcases ran : walk ctx with ⟨failure | between, middle⟩
    · rw [bind_of_error ran] at ranBoth
      simp at ranBoth
    · rw [bind_of_ok ran] at ranBoth
      rw [ran] at step
      have last := second between (first.brought ctx between middle limited ran)
      exact last.brought middle value after (step.limits.trans limited) ranBoth
  accounted ctx value after limited room ranBoth going leaf isLeaf looked := by
    have step := first.grows ctx limited
    have spends := first.spends ctx limited
    rw [← add_assoc] at room
    rcases ran : walk ctx with ⟨failure | between, middle⟩
    · rw [bind_of_error ran] at ranBoth
      simp at ranBoth
    · rw [bind_of_ok ran] at ranBoth
      rw [ran] at step spends
      have middleLimited := step.limits.trans limited
      have last := second between (first.brought ctx between middle limited ran)
      have grows := last.grows middle middleLimited
      rw [ranBoth] at grows
      rcases isLeaf with isLeaf | isLeaf
      · have middleGoing : middle.stopped = false := by
          rcases stopped : middle.stopped with _ | _
          · rfl
          · have stays : after.stopped = true := grows.stopped stopped
            rw [stays] at going
            exact going
        exact grows.told (first.accounted ctx between middle limited (le_self_add.trans room) ran
          middleGoing leaf isLeaf looked)
      · exact last.accounted middle value after middleLimited
          ((add_le_add_left spends more).trans room) ranBoth going leaf isLeaf looked

theorem bringing {value : Value} (first : Accounts limits leaves cost (· = value) walk)
    (second : Accounts limits others more bringsOther (next value)) :
    Accounts limits (fun leaf => leaves leaf ∨ others leaf) (cost + more) bringsOther
      (walk >>= next) :=
  first.bind fun found isFound => by rwa [isFound]

theorem quietly (first : Accounts limits leaves cost brings walk)
    (second : ∀ value, brings value → Accounts limits (fun _ => False) 0 bringsOther (next value)) :
    Accounts limits leaves cost bringsOther (walk >>= next) :=
  (first.bind second).congr (fun _ _ => Or.inl) (add_zero cost).le fun _ => id

theorem after {first : Walk Other} {next : Other → Walk Value}
    (quiet : Accounts limits (fun _ => False) 0 bringsOther first)
    (second : ∀ value, bringsOther value → Accounts limits leaves cost brings (next value)) :
    Accounts limits leaves cost brings (first >>= next) :=
  (quiet.bind second).congr (fun _ _ => Or.inr) (zero_add cost).le fun _ => id

theorem quietened {walk : Walk Unit} (silent : Silent limits leaves cost walk) :
    Silent limits (fun _ => False) cost walk :=
  silent.congr (fun _ _ => False.elim) le_rfl fun _ => id

/-- What is done next may depend on the room that is left. -/
theorem roomy {next : Ctx → Walk Unit} (quiet : ∀ ctx, ctx.limits = limits →
      Silent limits (fun _ => False) cost (next ctx))
    (inRoom : ∀ ctx, ctx.limits = limits → ctx.spent + cost ≤ limits.room →
      Silent limits leaves cost (next ctx)) : Silent limits leaves cost (Effects.get >>= next) where
  grows ctx limited := (quiet ctx limited).grows ctx limited
  spends ctx limited := (quiet ctx limited).spends ctx limited
  brought _ _ _ _ _ := trivial
  accounted ctx value after limited room :=
    (inRoom ctx limited room).accounted ctx value after limited room

theorem checkBudget (added : ℕ) :
    Silent limits (fun _ => False) 0 (checkBudget added) := by
  apply quiet
  · intro ctx
    simp only [Walk.checkBudget]
    split_ifs <;> exact ⟨⟨rfl, List.prefix_rfl, id⟩, le_rfl⟩
  · intros
    trivial

theorem emit {item : Item} (tells : ∀ leaf, leaves leaf → item.Tells leaf) :
    Silent limits leaves 0 (emit item) where
  grows ctx _ := by
    simp only [Walk.emit]
    split_ifs with stopped accepted
    · exact refl_of Grows ctx
    · exact ⟨rfl, List.prefix_append _ _, id⟩
    · exact ⟨rfl, List.prefix_rfl, fun _ => rfl⟩
  spends ctx _ := by
    simp only [Walk.emit]
    split_ifs <;> exact le_rfl
  brought _ _ _ _ _ := trivial
  accounted ctx value after _ _ ran going leaf isLeaf _ := by
    simp only [Walk.emit] at ran
    split_ifs at ran with stopped accepted
    · simp only [Prod.mk.injEq, true_and] at ran
      rw [← ran, stopped] at going
      exact absurd going (by decide)
    · simp only [Prod.mk.injEq, true_and] at ran
      rw [← ran]
      exact ⟨item, List.mem_append_right _ (List.mem_singleton.mpr rfl), tells leaf isLeaf⟩
    · simp only [Prod.mk.injEq, true_and] at ran
      rw [← ran] at going
      simp at going

theorem unscannable {part : List Char} (reason detail : String)
    (names : ∀ leaf, leaves leaf → Names part leaf.part) :
    Silent limits leaves 0 (unscannable part reason detail) :=
  emit names

theorem opens (opening : Option Opening) : Silent limits (fun _ => False) 0 (opens opening) := by
  apply quiet
  · intro ctx
    exact ⟨⟨rfl, List.prefix_rfl, id⟩, le_rfl⟩
  · intros
    trivial

theorem countImage : Silent limits (fun _ => False) (1, 0) countImage := by
  apply quiet
  · intro ctx
    exact ⟨⟨rfl, List.prefix_rfl, id⟩, le_rfl⟩
  · intros
    trivial

theorem done : Silent limits (fun _ => False) 0 (Pure.pure ()) :=
  (pure ()).congr (fun _ _ => id) le_rfl fun _ _ => trivial

theorem unlessStopped {walk : Walk Unit} (inside : Silent limits leaves cost walk) :
    Silent limits leaves cost (unlessStopped walk) where
  grows ctx limited := by
    rcases stopped : ctx.stopped with _ | _
    · rw [unlessStopped_of_going stopped]
      exact inside.grows ctx limited
    · rw [unlessStopped_of_stopped stopped]
      exact refl_of Grows ctx
  spends ctx limited := by
    rcases stopped : ctx.stopped with _ | _
    · rw [unlessStopped_of_going stopped]
      exact inside.spends ctx limited
    · rw [unlessStopped_of_stopped stopped]
      exact le_self_add
  brought _ _ _ _ _ := trivial
  accounted ctx value after limited room ran going leaf isLeaf looked := by
    rcases stopped : ctx.stopped with _ | _
    · rw [unlessStopped_of_going stopped] at ran
      exact inside.accounted ctx value after limited room ran going leaf isLeaf looked
    · rw [unlessStopped_of_stopped stopped] at ran
      simp only [Prod.mk.injEq, true_and] at ran
      rw [← ran, stopped] at going
      exact absurd going (by decide)

theorem reporting {walk : Walk Unit} {part : List Char} (inside : Silent limits leaves cost walk)
    (names : ∀ leaf, leaves leaf → Names part leaf.part) :
    Silent limits leaves cost (reporting part walk) := by
  have answer : ∀ exceeded : BudgetExceeded, Silent limits leaves 0
      (Walk.unscannable part exceeded.reason exceeded.detail) :=
    fun exceeded => unscannable _ _ names
  constructor
  · intro ctx limited
    have step := inside.grows ctx limited
    rw [Walk.reporting, recover]
    rcases ran : walk ctx with ⟨failure | value, middle⟩
    · rw [ran] at step
      exact trans_of Grows step ((answer failure).grows middle (step.limits.trans limited))
    · rwa [ran] at step
  · intro ctx limited
    have step := inside.grows ctx limited
    have spends := inside.spends ctx limited
    rw [Walk.reporting, recover]
    rcases ran : walk ctx with ⟨failure | value, middle⟩
    · rw [ran] at step spends
      exact ((answer failure).spends middle (step.limits.trans limited)).trans spends
    · rwa [ran] at spends
  · intros
    trivial
  · intro ctx value after limited room ranBoth going leaf isLeaf looked
    have step := inside.grows ctx limited
    have spends := inside.spends ctx limited
    rw [Walk.reporting, recover] at ranBoth
    rcases ran : walk ctx with ⟨failure | between, middle⟩
    · rw [ran] at step spends ranBoth
      exact (answer failure).accounted middle value after (step.limits.trans limited)
        (spends.trans room) ranBoth going leaf isLeaf looked
    · rw [ran] at ranBoth
      simp only [Prod.mk.injEq, true_and] at ranBoth
      rw [ranBoth] at ran
      exact inside.accounted ctx between after limited room ran going leaf isLeaf looked

variable {leavesOf : Element → Leaf → Prop}

theorem forEach {visit : Element → Walk Unit} {elements : List Element}
    {costOf : Element → ℕ × ℕ}
    (each : ∀ element ∈ elements, Silent limits (leavesOf element) (costOf element) (visit element)) :
    Silent limits (fun leaf => ∃ element ∈ elements, leavesOf element leaf)
      (elements.map costOf).sum (forEach visit elements) := by
  induction elements with
  | nil => exact done.congr (fun _ _ => by simp) le_rfl fun _ => id
  | cons element rest ih =>
    have first := each element List.mem_cons_self
    have others := ih fun other otherMem => each other (List.mem_cons_of_mem _ otherMem)
    exact (first.bind fun _ _ => others).congr (fun _ _ => by simp) (by simp) fun _ => id

theorem forEachQuietly {visit : Element → Walk Unit} {elements : List Element}
    (each : ∀ element ∈ elements, Silent limits (fun _ => False) 0 (visit element)) :
    Silent limits (fun _ => False) 0 (Effects.forEach visit elements) := by
  induction elements with
  | nil => exact done
  | cons element rest ih =>
    have others := ih fun other otherMem => each other (List.mem_cons_of_mem _ otherMem)
    exact (each element List.mem_cons_self).quietly fun _ _ => others

theorem collect {visit : Element → Walk (List Value)} {elements : List Element}
    {value : Element → List Value} (each : ∀ element ∈ elements,
      Accounts limits (leavesOf element) 0 (· = value element) (visit element)) :
    Accounts limits (fun leaf => ∃ element ∈ elements, leavesOf element leaf) 0
      (· = elements.flatMap value) (collect visit elements) := by
  induction elements with
  | nil => exact (pure []).congr (fun _ _ => by simp) le_rfl fun _ => id
  | cons element rest ih =>
    have first := each element List.mem_cons_self
    have others := ih fun other otherMem => each other (List.mem_cons_of_mem _ otherMem)
    refine (first.bind fun found isFound => others.quietly fun more isMore => ?_).congr
      (fun _ _ => by simp) (add_zero 0).le fun _ => id
    exact (pure _).congr (fun _ _ => id) le_rfl fun _ same => by
      rw [same, isFound, isMore, List.flatMap_cons]

end Accounts

end Aavishield.Dlp
