import Aavishield.Dataplane.Record
import Mathlib.Algebra.BigOperators.Group.List.Basic
import Mathlib.Tactic.Ring

/-!
# No report is lost in folding
-/

namespace Aavishield.Dataplane.Record

open TransitionSystem

def repeatSum (rows : List ActivityEvent) (key : EventKey) : ℤ :=
  (rows.map fun row => if keyOf row = key then repeatCount row.metadata else 0).sum

def Near (row : ActivityEvent) (reportedAt : Time) (window : ℤ) : Prop :=
  reportedAt - window ≤ lastSeen row ∧ row.timestamp ≤ reportedAt + window

/-- The update moves the row forward, and folds into it a report made near it. -/
structure Update.Sound (update : Update) : Prop where
  forward : lastSeen update.before ≤ lastSeen update.after
  worst : update.merge = .keepWorstDLP → update.before.riskScore ≤ update.after.riskScore
  near : Near update.before update.reportedAt update.window

/-- The rows count every report, and updates move them forward only. -/
structure Faithful (state : State) : Prop where
  counted : ∀ key, repeatSum state.rows key = state.reports.count key
  updates : ∀ update ∈ state.updates, update.Sound

/-- Every run counts every report, and only ever moves rows forward. -/
def FoldsFaithfully (store : Store) : Prop :=
  ∀ trace state, exec (step store) .initial trace = some state → Faithful state

/--
A report that becomes a row carries no count of its own.  One that is folded goes to
a row of its own key, is not older than the last report folded there, and is at most
the window older than the row itself.
-/
def InOrder (store : Store) (state : State) : Action → Prop
  | .record event _ _ => repeatCount event.metadata = 1
  | .recordDeduped report fresh now found updated =>
    let event := report.completed store now
    match report.kept store state.rows now found, updated with
    | some kept, true => keyOf kept = keyOf (store.prepareEvent fresh now event) ∧
        lastSeen kept ≤ event.timestamp ∧ kept.timestamp ≤ event.timestamp + report.window
    | _, _ => repeatCount event.metadata = 1

theorem copy_of_not_mem {names : List String} (next kept : Metadata) {name : String}
    (other : name ∉ names) : Metadata.copy names next kept name = kept name := by
  induction names generalizing kept with
  | nil => rfl
  | cons first rest ih =>
    simp only [List.mem_cons, not_or] at other
    rcases other with ⟨differs, other⟩
    rw [Metadata.copy, List.foldl_cons, ← Metadata.copy, ih _ other]
    cases next first with
    | none => rfl
    | some value => exact Metadata.set_of_ne kept value differs

theorem apply_frame (merge : Merge) (kept next : ActivityEvent) :
    (merge.apply kept next).metadata "repeat_count" = kept.metadata "repeat_count" ∧
    (merge.apply kept next).metadata "last_seen_at" = kept.metadata "last_seen_at" ∧
    (merge.apply kept next).id = kept.id ∧ keyOf (merge.apply kept next) = keyOf kept ∧
    kept.riskScore ≤ (merge.apply kept next).riskScore := by
  cases merge with
  | none => exact ⟨rfl, rfl, rfl, rfl, le_rfl⟩
  | fillTarget filename =>
    simp only [Merge.apply, fillTarget]
    split <;> exact ⟨rfl, rfl, rfl, rfl, le_rfl⟩
  | keepWorstDLP =>
    simp only [Merge.apply, keepWorstDLP]
    split
    · exact ⟨rfl, rfl, rfl, rfl, le_rfl⟩
    · rename_i worse
      refine ⟨copy_of_not_mem _ _ (by decide), copy_of_not_mem _ _ (by decide), rfl, rfl, ?_⟩
      exact (not_le.mp worse).le
  | mergeExtensionProfiles =>
    refine ⟨?_, ?_, rfl, rfl, le_rfl⟩ <;>
      simp [Merge.apply, mergeExtensionProfiles]

theorem fold_frame (report : Report) (event kept : ActivityEvent) :
    repeatCount (report.fold event kept).metadata = repeatCount kept.metadata + 1 ∧
    lastSeen (report.fold event kept) = event.timestamp ∧
    (report.fold event kept).id = kept.id ∧ keyOf (report.fold event kept) = keyOf kept ∧
    kept.riskScore ≤ (report.fold event kept).riskScore := by
  have frame := apply_frame report.merge
    { kept with
      metadata := (kept.metadata.set "repeat_count" (.number (repeatCount kept.metadata + 1))).set
        "last_seen_at" (.time event.timestamp) } event
  rcases frame with ⟨count, seen, id, key, risk⟩
  refine ⟨?_, ?_, id, key, risk⟩
  · simp only [Report.fold, repeatCount] at count ⊢
    rw [count]
    simp
  · simp only [Report.fold, lastSeen] at seen ⊢
    rw [seen]
    simp

/-- What holds of the table in every run: ids are distinct and no action is empty. -/
structure WellFormed (rows : List ActivityEvent) : Prop where
  ids : (rows.map (·.id)).Nodup
  actions : ∀ row ∈ rows, row.action ≠ ""

variable {store : Store} {rows : List ActivityEvent} {event : ActivityEvent} {fresh : UUID}
  {now : Time}

theorem WellFormed.cons (wellFormed : WellFormed rows)
    (unused : ∀ row ∈ rows, row.id ≠ (store.prepareEvent fresh now event).id) :
    WellFormed (store.prepareEvent fresh now event :: rows) where
  ids := by
    rw [List.map_cons, List.nodup_cons]
    refine ⟨fun used => ?_, wellFormed.ids⟩
    rcases List.mem_map.mp used with ⟨row, rowMem, same⟩
    exact unused row rowMem same
  actions := by
    rw [List.forall_mem_cons]
    refine ⟨?_, wellFormed.actions⟩
    simp only [Store.prepareEvent]
    split
    · decide
    · assumption

theorem WellFormed.updateEvent (wellFormed : WellFormed rows)
    (changed : ActivityEvent) : WellFormed (updateEvent rows changed) where
  ids := by
    have ids : (Record.updateEvent rows changed).map (·.id) = rows.map (·.id) := by
      simp only [Record.updateEvent, List.map_map]
      apply List.map_congr_left
      intro row _
      simp only [Function.comp_apply]
      split <;> rfl
    rw [ids]
    exact wellFormed.ids
  actions := by
    simp only [Record.updateEvent, List.forall_mem_map]
    intro row rowMem
    have nonempty := wellFormed.actions row rowMem
    split <;> exact nonempty

theorem repeatSum_cons (row : ActivityEvent) (rows : List ActivityEvent) (key : EventKey) :
    repeatSum (row :: rows) key =
      (if keyOf row = key then repeatCount row.metadata else 0) + repeatSum rows key := by
  simp [repeatSum]

theorem updateEvent_of_not_mem {changed : ActivityEvent}
    (absent : changed.id ∉ rows.map (·.id)) : updateEvent rows changed = rows := by
  have unchanged : ∀ row ∈ rows, row.id ≠ changed.id :=
    fun row rowMem same => absent (List.mem_map.mpr ⟨row, rowMem, same⟩)
  rw [updateEvent, ← List.map_id rows, List.map_map]
  apply List.map_congr_left
  intro row rowMem
  simp [unchanged row rowMem]

theorem repeatSum_updateEvent {kept changed : ActivityEvent}
    (ids : (rows.map (·.id)).Nodup) (keptMem : kept ∈ rows) (id : changed.id = kept.id)
    (count : repeatCount changed.metadata = repeatCount kept.metadata + 1) (key : EventKey) :
    repeatSum (updateEvent rows changed) key =
      repeatSum rows key + if keyOf kept = key then 1 else 0 := by
  induction rows with
  | nil => cases keptMem
  | cons row rest ih =>
    rw [List.map_cons, List.nodup_cons] at ids
    have unfolded : updateEvent (row :: rest) changed =
        updateEvent [row] changed ++ updateEvent rest changed := rfl
    by_cases isKept : row = kept
    · subst row
      have others : updateEvent rest changed = rest :=
        updateEvent_of_not_mem (by rw [id]; exact ids.1)
      have first : updateEvent [kept] changed =
          [{ kept with
              metadata := changed.metadata
              riskScore := changed.riskScore
              target := changed.target
              policyID := changed.policyID
              policyName := changed.policyName }] := by
        simp [updateEvent, id]
      rw [unfolded, others, first, List.singleton_append, repeatSum_cons, repeatSum_cons]
      have sameKey : keyOf
          { kept with
            metadata := changed.metadata
            riskScore := changed.riskScore
            target := changed.target
            policyID := changed.policyID
            policyName := changed.policyName } = keyOf kept := rfl
      rw [sameKey]
      split
      · rw [count]
        ring
      · ring
    · have keptMem : kept ∈ rest := (List.mem_cons.mp keptMem).resolve_left (Ne.symm isKept)
      have differs : row.id ≠ changed.id := by
        intro same
        exact ids.1 (List.mem_map.mpr ⟨kept, keptMem, by rw [same, id]⟩)
      have first : updateEvent [row] changed = [row] := by simp [updateEvent, differs]
      rw [unfolded, first, List.singleton_append, repeatSum_cons, repeatSum_cons,
        ih ids.2 keptMem]
      ring

theorem kept_mem {report : Report} {found : Bool} {kept : ActivityEvent}
    (isKept : report.kept store rows now found = some kept) :
    kept ∈ rows ∧ store.isCandidate (report.completed store now) kept ∧
      (report.completed store now).timestamp - report.window < lastSeen kept := by
  simp only [Report.kept] at isKept
  split at isKept
  · cases isKept
  · have isCandidate := List.mem_of_find?_eq_some isKept
    have recent := List.find?_some isKept
    have sorted := List.mem_of_mem_take isCandidate
    rcases List.mem_filter.mp ((List.mem_insertionSort _).mp sorted) with ⟨rowMem, isCandidate⟩
    exact ⟨rowMem, isCandidate, of_decide_eq_true recent⟩

structure Kept (state : State) : Prop where
  wellFormed : WellFormed state.rows
  faithful : Faithful state

variable {state next : State}

theorem recordEvents_eq_some (recorded : state.recordEvents store event fresh now = some next) :
    (∀ row ∈ state.rows, row.id ≠ (store.prepareEvent fresh now event).id) ∧
      next = { state with
        rows := store.prepareEvent fresh now event :: state.rows
        reports := keyOf (store.prepareEvent fresh now event) :: state.reports } := by
  simp only [State.recordEvents] at recorded
  split at recorded
  · cases recorded
  · rename_i unused
    cases recorded
    simp only [List.any_eq_true, decide_eq_true_eq, not_exists, not_and] at unused
    exact ⟨unused, rfl⟩

theorem counted_cons (faithful : Faithful state) (row : ActivityEvent) :
    (∀ key, repeatSum (row :: state.rows) key = (keyOf row :: state.reports).count key) ↔
      repeatCount row.metadata = 1 := by
  have counts (key : EventKey) :
      repeatSum (row :: state.rows) key = (keyOf row :: state.reports).count key ↔
        (keyOf row = key → repeatCount row.metadata = 1) := by
    rw [repeatSum_cons, faithful.counted, List.count_cons]
    by_cases same : keyOf row = key
    · simp only [same, if_true, beq_self_eq_true, Nat.cast_add, Nat.cast_one, true_implies]
      omega
    · simp [same]
  constructor
  · intro all
    exact (counts (keyOf row)).mp (all (keyOf row)) rfl
  · intro single key
    exact (counts key).mpr fun _ => single

theorem kept_recordEvents (kept : Kept state)
    (recorded : state.recordEvents store event fresh now = some next) :
    Faithful next ↔ repeatCount event.metadata = 1 := by
  rcases recordEvents_eq_some recorded with ⟨_, rfl⟩
  have single := counted_cons kept.faithful (store.prepareEvent fresh now event)
  exact ⟨fun faithful => single.mp faithful.counted,
    fun count => ⟨single.mpr count, kept.faithful.updates⟩⟩

theorem counted_updateEvent {kept changed : ActivityEvent}
    (invariant : Kept state) (keptMem : kept ∈ state.rows) (id : changed.id = kept.id)
    (count : repeatCount changed.metadata = repeatCount kept.metadata + 1) (reported : EventKey) :
    (∀ key, repeatSum (updateEvent state.rows changed) key = (reported :: state.reports).count key) ↔
      keyOf kept = reported := by
  have counts (key : EventKey) :
      repeatSum (updateEvent state.rows changed) key = (reported :: state.reports).count key ↔
        (keyOf kept = key ↔ reported = key) := by
    rw [repeatSum_updateEvent invariant.wellFormed.ids keptMem id count,
      invariant.faithful.counted, List.count_cons]
    by_cases keptKey : keyOf kept = key <;> by_cases reportedKey : reported = key <;>
      simp [keptKey, reportedKey]
  constructor
  · intro all
    exact ((counts (keyOf kept)).mp (all (keyOf kept))).mp rfl |>.symm
  · rintro rfl key
    exact (counts key).mpr Iff.rfl

theorem faithful_fold {report : Report}
    {found : Bool} {kept : ActivityEvent} (invariant : Kept state)
    (isKept : report.kept store state.rows now found = some kept) :
    Faithful {
        rows := updateEvent state.rows (report.fold (report.completed store now) kept)
        reports := keyOf (store.prepareEvent fresh now (report.completed store now)) :: state.reports
        updates := ⟨kept, report.fold (report.completed store now) kept,
          (report.completed store now).timestamp, report.window, report.merge⟩ :: state.updates } ↔
      keyOf kept = keyOf (store.prepareEvent fresh now (report.completed store now)) ∧
        lastSeen kept ≤ (report.completed store now).timestamp ∧
          kept.timestamp ≤ (report.completed store now).timestamp + report.window := by
  rcases fold_frame report (report.completed store now) kept with ⟨count, seen, id, _, risk⟩
  rcases kept_mem isKept with ⟨keptMem, _, recent⟩
  have counted := counted_updateEvent invariant keptMem id count
    (keyOf (store.prepareEvent fresh now (report.completed store now)))
  constructor
  · intro faithful
    have sound := faithful.updates _ List.mem_cons_self
    refine ⟨counted.mp faithful.counted, ?_, sound.near.2⟩
    rw [← seen]
    exact sound.forward
  · rintro ⟨sameKey, forward, near⟩
    refine ⟨counted.mpr sameKey, ?_⟩
    rw [List.forall_mem_cons]
    refine ⟨⟨?_, fun _ => risk, recent.le, near⟩, invariant.faithful.updates⟩
    rw [seen]
    exact forward

theorem faithful_iff_inOrder {action : Action}
    (invariant : Kept state) (stepped : step store state action = some next) :
    Faithful next ↔ InOrder store state action := by
  cases action with
  | record event fresh now => exact kept_recordEvents invariant stepped
  | recordDeduped report fresh now found updated =>
    simp only [step, State.recordDeduped] at stepped
    simp only [InOrder]
    cases isKept : report.kept store state.rows now found with
    | none =>
      simp only [isKept] at stepped
      exact kept_recordEvents invariant stepped
    | some kept =>
      simp only [isKept] at stepped
      cases updated with
      | true =>
        cases stepped
        exact faithful_fold invariant isKept
      | false => exact kept_recordEvents invariant stepped

theorem Kept.step {action : Action} (kept : Kept state)
    (inOrder : InOrder store state action) (stepped : step store state action = some next) :
    Kept next := by
  refine ⟨?_, (faithful_iff_inOrder kept stepped).mpr inOrder⟩
  have recorded {event : ActivityEvent} {fresh : UUID} {now : Time}
      (recorded : state.recordEvents store event fresh now = some next) : WellFormed next.rows := by
    rcases recordEvents_eq_some recorded with ⟨unused, rfl⟩
    exact kept.wellFormed.cons unused
  cases action with
  | record event fresh now => exact recorded stepped
  | recordDeduped report fresh now found updated =>
    simp only [Record.step, State.recordDeduped] at stepped
    split at stepped
    · exact recorded stepped
    · split at stepped
      · cases stepped
        exact kept.wellFormed.updateEvent _
      · exact recorded stepped

theorem Kept.initial : Kept .initial where
  wellFormed := ⟨by simp [State.initial], by simp [State.initial]⟩
  faithful := ⟨fun _ => rfl, by simp [State.initial]⟩

/--
A run counts every report and only ever moves rows forward exactly when its reports
come in order: whatever is folded goes to a row of its own key that was not reported
any later.
-/
theorem faithful_iff_allInOrder (store : Store) {trace : List Action} {state : State}
    (executed : exec (step store) .initial trace = some state) :
    (∀ reached, Visits (step store) .initial trace reached → Faithful reached) ↔
      AllSteps (step store) (InOrder store) .initial trace :=
  forall_visits_iff_allSteps (fun _ => Kept.faithful)
    (fun _ _ _ kept inOrder stepped => kept.step inOrder stepped)
    (fun _ _ _ kept stepped faithful => (faithful_iff_inOrder kept stepped).mp faithful)
    Kept.initial executed

def exactStore : Store where
  round := id
  sameText first second := first == second
  shortKey := id

def reportAt (seconds : ℤ) : Action :=
  .recordDeduped
    { event :=
        { id := UUID.zero
          orgID := ⟨9⟩
          employeeID := none
          deviceID := some ⟨7⟩
          eventType := "web_request"
          action := "blocked"
          target := ""
          targetDomain := "example.com"
          operation := ""
          category := ""
          processName := ""
          policyID := none
          policyName := ""
          riskScore := 0
          aiExplanation := ""
          ipAddress := ""
          geoCountry := ""
          geoCity := ""
          metadata := fun _ => none
          dedupeKey := ""
          timestamp := seconds * 10 ^ 9
          createdAt := 0 }
      key := "web|example.com"
      window := 60 * 10 ^ 9
      merge := .none }
    ⟨1⟩ 1 true true

theorem reportsInOrder_faithful :
    AllSteps (step exactStore) (InOrder exactStore) .initial [reportAt 100, reportAt 130] ∧
      ∀ reached, Visits (step exactStore) .initial [reportAt 100, reportAt 130] reached →
        Faithful reached := by
  have inOrder : AllSteps (step exactStore) (InOrder exactStore) .initial
      [reportAt 100, reportAt 130] := by
    refine ⟨rfl, fun _ first => ?_⟩
    cases first
    refine ⟨⟨rfl, ?_, ?_⟩, fun _ _ => trivial⟩ <;> decide
  rcases (⟨_, rfl⟩ : ∃ state, exec (step exactStore) .initial [reportAt 100, reportAt 130] =
    some state) with ⟨state, executed⟩
  exact ⟨inOrder, (faithful_iff_allInOrder exactStore executed).mpr inOrder⟩

/-- A report that an agent delivers ten seconds late takes the row back in time. -/
theorem not_foldsFaithfully : ¬FoldsFaithfully exactStore := by
  intro folds
  rcases (⟨_, rfl⟩ : ∃ state, exec (step exactStore) .initial [reportAt 100, reportAt 90] =
    some state) with ⟨state, executed⟩
  have updates := (folds _ _ executed).updates
  cases executed
  have forward := (updates _ List.mem_cons_self).forward
  exact absurd forward (by decide)

end Aavishield.Dataplane.Record
