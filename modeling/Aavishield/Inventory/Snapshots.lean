import Aavishield.Inventory.Report
import Aavishield.Lib.TransitionSystem

/-!
# The last snapshot

What the rows of a device should say follows from the reports alone: the entries of the last
one are installed, and what an earlier one held is gone since the first report without it.
The rows say just that as long as their writes succeed, but for one column: the link to the
catalogue of an application that no longer matches anything is never taken back.
-/

namespace Aavishield.Inventory

open TransitionSystem

variable (env : Primitives)

def InventoryItem.Has (item : InventoryItem) (identifier : List Char) : Prop :=
  inventoryIdentifier env item = identifier ∧ identifier ≠ [] ∧ Text.trimSpace item.name ≠ []

instance (item : InventoryItem) (identifier : List Char) :
    Decidable (item.Has env identifier) := inferInstanceAs (Decidable (_ ∧ _))

def entryAmong (items : List InventoryItem) (identifier : List Char) : Option InventoryItem :=
  items.find? fun item => item.Has env identifier

inductive Observed where
  | installed (version : List Char) (applicationID : Option UUID) (category : List Char)
  | removed (since : Option Time)
  deriving DecidableEq

def InstalledApplication.observed (row : InstalledApplication) : Observed :=
  if row.removed then .removed row.removedAt
  else .installed row.version row.applicationID row.category

namespace Report

def entry (report : Report) (identifier : List Char) : Option InventoryItem :=
  entryAmong env report.capped identifier

def Holds (report : Report) (identifier : List Char) : Prop :=
  (report.entry env identifier).isSome = true

instance (report : Report) (identifier : List Char) :
    Decidable (report.Holds env identifier) := inferInstanceAs (Decidable (_ = _))

def HoldsAny (report : Report) : Prop :=
  ∃ item ∈ report.capped, item.Has env (inventoryIdentifier env item)

instance (report : Report) : Decidable (report.HoldsAny env) :=
  inferInstanceAs (Decidable (∃ item ∈ report.capped, _))

def described (report : Report) (item : InventoryItem) (identifier : List Char) : Observed :=
  .installed (Text.trimSpace item.version) (report.matched env item identifier).appID
    (report.matched env item identifier).category

end Report

def Observed.gone (now : Time) : Observed → Observed
  | .installed _ _ _ => .removed (some now)
  | .removed since => .removed since

def expected (identifier : List Char) : List Report → Option Observed
  | [] => none
  | report :: earlier =>
    match report.entry env identifier with
    | some item => some (report.described env item identifier)
    | none => (expected identifier earlier).map (Observed.gone report.now)

def installTimes (identifier : List Char) : List Report → List Time
  | [] => []
  | report :: earlier =>
    installTimes identifier earlier ++
      if report.Holds env identifier ∧ (∀ before ∈ earlier,
          ¬before.Holds env identifier) ∧ ∃ before ∈ earlier, before.HoldsAny env
      then [report.now] else []

/-- The rows and events, with the reports for the record. -/
structure State where
  rows : Rows
  events : List Report.InstallEvent
  history : List Report

def State.initial : State := ⟨∅, [], []⟩

def State.step (state : State) (report : Report) : Option State :=
  let applied := report.apply env state.rows
  some ⟨applied.1, state.events ++ applied.2, report :: state.history⟩

/-- Rows and events are as the reports say. -/
structure State.Faithful (state : State) : Prop where
  rows : ∀ identifier, (state.rows.lookup identifier).map InstalledApplication.observed =
    expected env identifier state.history
  events : ∀ identifier,
    (state.events.filter fun event => event.row.identifier = identifier).map (·.timestamp) =
      installTimes env identifier state.history

/--
The write of an entry succeeds or would change nothing that is observed, and the link of a row
need not be taken back; and the rows that have to be marked removed can be.
-/
def Report.Careful (report : Report) (rows : Rows) (identifier : List Char) : Prop :=
  match report.entry env identifier, rows.lookup identifier with
  | some _, none => report.fails identifier = false
  | some item, some prev =>
    if report.fails identifier then
      prev.observed = report.described env item identifier
    else (report.matched env item identifier).appID = none → prev.applicationID = none
  | none, none => True
  | none, some prev => prev.removed = true ∨ report.failsRemoval = false

variable {env} {report : Report} {item : InventoryItem} {identifier : List Char}
  {existing rows : Rows} {row : InstalledApplication}

namespace Report

def stored (env : Primitives) (report : Report) (item : InventoryItem)
    (identifier : List Char) : Option InstalledApplication → Option InstalledApplication
  | some prev =>
    some (if report.fails identifier then prev
      else report.updatedRow env item identifier prev)
  | none =>
    if report.fails identifier then none else some (report.newRow env item identifier)

def fresh (env : Primitives) (report : Report) (item : InventoryItem)
    (identifier : List Char) : Option InstalledApplication → List InstalledApplication
  | some _ => []
  | none => if report.fails identifier then [] else [report.newRow env item identifier]

def Progress.view (progress : Progress) (identifier : List Char) :
    Bool × Option InstalledApplication × List InstalledApplication :=
  (decide (identifier ∈ progress.seen), progress.rows.lookup identifier,
    progress.newlyInstalled.filter fun row => row.identifier = identifier)

theorem view_handle {progress : Progress} (untouched : identifier ∉ progress.seen →
      progress.rows.lookup identifier = existing.lookup identifier) :
    (report.handle env item existing progress).view identifier =
      if item.Has env identifier ∧ identifier ∉ progress.seen then
        (true, report.stored env item identifier (existing.lookup identifier),
          (progress.view identifier).2.2 ++
            report.fresh env item identifier (existing.lookup identifier))
      else progress.view identifier := by
  by_cases same : inventoryIdentifier env item = identifier
  · subst same
    by_cases passed : inventoryIdentifier env item = [] ∨ Text.trimSpace item.name = [] ∨
        inventoryIdentifier env item ∈ progress.seen
    · rw [if_neg]
      · simp [handle, passed]
      · rintro ⟨⟨-, named, hasName⟩, isNew⟩
        tauto
    · have isNew : item.Has env (inventoryIdentifier env item) ∧
          inventoryIdentifier env item ∉ progress.seen := by
        simp only [not_or] at passed
        exact ⟨⟨rfl, passed.1, passed.2.1⟩, passed.2.2⟩
      rw [if_pos isNew]
      have before := untouched isNew.2
      cases found : existing.lookup (inventoryIdentifier env item) with
      | none =>
        by_cases fails : report.fails (inventoryIdentifier env item) = true
        · simp [handle, passed, found, fails, Progress.view, stored, fresh, before]
        · simp [handle, passed, found, fails, Progress.view, stored, fresh, newRow]
      | some prev =>
        by_cases fails : report.fails (inventoryIdentifier env item) = true
        · simp [handle, passed, found, fails, Progress.view, stored, fresh, before]
        · simp [handle, passed, found, fails, Progress.view, stored, fresh]
  · have apart : identifier ≠ inventoryIdentifier env item := fun h => same h.symm
    rw [if_neg (fun isNew => same isNew.1.1)]
    unfold handle
    dsimp only
    split
    · rfl
    · split
      · split
        · simp [Progress.view, apart]
        · simp [Progress.view, apart, AList.lookup_insert_ne apart]
      · split
        · simp [Progress.view, apart]
        · simp [Progress.view, apart, AList.lookup_insert_ne apart, newRow, same]

theorem view_foldl {items : List InventoryItem} {progress : Progress}
    (untouched : identifier ∉ progress.seen →
      progress.rows.lookup identifier = existing.lookup identifier) :
    (items.foldl (fun progress item => report.handle env item existing progress)
        progress).view identifier =
      if identifier ∈ progress.seen then progress.view identifier
      else match entryAmong env items identifier with
        | some item =>
          (true, report.stored env item identifier (existing.lookup identifier),
            (progress.view identifier).2.2 ++
              report.fresh env item identifier (existing.lookup identifier))
        | none => progress.view identifier := by
  induction items generalizing progress with
  | nil => simp [entryAmong]
  | cons item rest ih =>
    have handled := @view_handle env report item identifier existing progress untouched
    rw [List.foldl_cons]
    by_cases isSeen : identifier ∈ progress.seen
    · rw [if_neg (fun isNew => isNew.2 isSeen)] at handled
      have stillSeen : identifier ∈
          (report.handle env item existing progress).seen := by
        have first := congrArg Prod.fst handled
        simpa [Progress.view, isSeen] using first
      rw [ih (fun unseen => absurd stillSeen unseen), if_pos stillSeen, handled, if_pos isSeen]
    · rw [if_neg isSeen]
      by_cases has : item.Has env identifier
      · rw [if_pos ⟨has, isSeen⟩] at handled
        have nowSeen : identifier ∈
            (report.handle env item existing progress).seen := by
          have first := congrArg Prod.fst handled
          simpa [Progress.view] using first
        rw [ih (fun unseen => absurd nowSeen unseen), if_pos nowSeen, handled]
        simp [entryAmong, has]
      · rw [if_neg (fun isNew => has isNew.1)] at handled
        have notYet : identifier ∉
            (report.handle env item existing progress).seen := by
          have first := congrArg Prod.fst handled
          simpa [Progress.view, isSeen] using first
        have kept := congrArg (·.2.1) handled
        rw [ih (fun _ => kept.trans (untouched isSeen)), if_neg notYet, handled]
        simp [entryAmong, has]

theorem view_handleAll :
    (report.handleAll env existing).view identifier =
      match report.entry env identifier with
      | some item =>
        (true, report.stored env item identifier (existing.lookup identifier),
          report.fresh env item identifier (existing.lookup identifier))
      | none => (false, existing.lookup identifier, []) := by
  have folded := @view_foldl env report identifier existing report.capped
    ⟨existing, [], []⟩ fun _ => rfl
  rw [if_neg List.not_mem_nil] at folded
  exact folded

def missing (report : Report) (row : InstalledApplication) : InstalledApplication :=
  if row.removed = true ∨ report.failsRemoval = true then row
  else { row with removed := true, removedAt := some report.now }

theorem lookup_markRemoved {gone : List (List Char)} (works : report.failsRemoval = false) :
    (report.markRemoved rows gone).lookup identifier =
      if identifier ∈ gone then (rows.lookup identifier).map fun row =>
        { row with removed := true, removedAt := some report.now }
      else rows.lookup identifier := by
  simp only [markRemoved, works, Bool.false_eq_true, if_false]
  induction gone generalizing rows with
  | nil => simp
  | cons first rest ih =>
    rw [List.foldl_cons, ih]
    by_cases same : identifier = first
    · subst same
      cases found : rows.lookup identifier with
      | none => simp [found]
      | some row => simp
    · cases found : rows.lookup first with
      | none => simp [same]
      | some row => simp [same, AList.lookup_insert_ne same]

theorem mem_removedIDs {seen : List (List Char)} :
    identifier ∈ removedIDs existing seen ↔
      identifier ∉ seen ∧ ∃ row, existing.lookup identifier = some row ∧ row.removed = false := by
  simp only [removedIDs, List.mem_filter, decide_eq_true_eq, Option.any_eq_true, Bool.not_eq_true']
  constructor
  · exact And.right
  · rintro ⟨unseen, row, found, isThere⟩
    refine ⟨?_, unseen, row, found, isThere⟩
    rw [← AList.mem_keys, ← AList.lookup_isSome, found]
    rfl

theorem lookup_apply :
    (report.apply env existing).1.lookup identifier =
      match report.entry env identifier with
      | some item => report.stored env item identifier (existing.lookup identifier)
      | none => (existing.lookup identifier).map report.missing := by
  have viewed := @view_handleAll env report identifier existing
  simp only [apply]
  cases listed : report.entry env identifier with
  | some item =>
    simp only [listed, Progress.view, Prod.mk.injEq, decide_eq_true_eq] at viewed
    rcases viewed with ⟨isSeen, found, -⟩
    by_cases works : report.failsRemoval = true
    · simp [markRemoved, works, found]
    · rw [lookup_markRemoved (Bool.eq_false_iff.mpr works), if_neg, found]
      intro gone
      exact (mem_removedIDs.mp gone).1 isSeen
  | none =>
    simp only [listed, Progress.view, Prod.mk.injEq, decide_eq_false_iff_not] at viewed
    rcases viewed with ⟨unseen, found, -⟩
    by_cases works : report.failsRemoval = true
    · have kept : report.missing = id := funext fun row => by simp [missing, works]
      simp [markRemoved, works, found, kept]
    · rw [lookup_markRemoved (Bool.eq_false_iff.mpr works), found]
      cases stood : existing.lookup identifier with
      | none => simp
      | some row =>
        by_cases isRemoved : row.removed = true
        · rw [if_neg]
          · simp [missing, isRemoved]
          · intro gone
            rcases mem_removedIDs.mp gone with ⟨-, other, same, isThere⟩
            cases stood.symm.trans same
            simp [isRemoved] at isThere
        · rw [if_pos (mem_removedIDs.mpr
            ⟨unseen, row, stood, Bool.eq_false_iff.mpr isRemoved⟩)]
          simp [missing, isRemoved, works]

theorem events_apply :
    ((report.apply env existing).2.filter fun event =>
        event.row.identifier = identifier).map (·.timestamp) =
      if existing.keys = [] then []
      else match report.entry env identifier with
        | some item =>
          (report.fresh env item identifier (existing.lookup identifier)).map
            fun _ => report.now
        | none => [] := by
  simp only [apply]
  split
  · rfl
  · have viewed := @view_handleAll env report identifier existing
    have added : (report.handleAll env existing).newlyInstalled.filter
        (fun row => row.identifier = identifier) =
          match report.entry env identifier with
          | some item => report.fresh env item identifier (existing.lookup identifier)
          | none => [] := by
      have third := congrArg (·.2.2) viewed
      cases listed : report.entry env identifier with
      | some item | none => simpa [listed, Progress.view] using third
    rw [List.filter_map, List.map_map]
    simp only [Function.comp_def]
    rw [added]
    cases report.entry env identifier with
    | some item => rfl
    | none => rfl

end Report

variable {history : List Report}

theorem observed_updatedRow {prev : InstalledApplication} :
    (report.updatedRow env item identifier prev).observed =
        report.described env item identifier ↔
      ((report.matched env item identifier).appID = none → prev.applicationID = none) := by
  cases matched : (report.matched env item identifier).appID with
  | none | some appID =>
    simp [Report.updatedRow, InstalledApplication.observed, Report.described, matched]

theorem observed_missing :
    (report.missing row).observed = row.observed.gone report.now ↔
      row.removed = true ∨ report.failsRemoval = false := by
  by_cases isRemoved : row.removed = true
  · simp [Report.missing, InstalledApplication.observed, isRemoved, Observed.gone]
  · by_cases works : report.failsRemoval = true
    · simp [Report.missing, InstalledApplication.observed, isRemoved, works, Observed.gone]
    · simp [Report.missing, InstalledApplication.observed, isRemoved, works, Observed.gone]

theorem observed_apply_iff (isExpected : (rows.lookup identifier).map InstalledApplication.observed =
      expected env identifier history) :
    ((report.apply env rows).1.lookup identifier).map InstalledApplication.observed =
        expected env identifier (report :: history) ↔
      report.Careful env rows identifier := by
  rw [Report.lookup_apply]
  cases listed : report.entry env identifier with
  | some item =>
    cases found : rows.lookup identifier with
    | none =>
      by_cases fails : report.fails identifier = true
      · simp [expected, Report.Careful, listed, found, Report.stored, fails]
      · simp [expected, Report.Careful, listed, found, Report.stored, fails, Report.newRow,
          InstalledApplication.observed, Report.described]
    | some prev =>
      by_cases fails : report.fails identifier = true
      · simp [expected, Report.Careful, listed, found, Report.stored, fails]
      · simpa [expected, Report.Careful, listed, found, Report.stored, fails]
          using observed_updatedRow
  | none =>
    cases found : rows.lookup identifier with
    | none =>
      rw [found] at isExpected
      simp [expected, Report.Careful, listed, found, ← isExpected]
    | some prev =>
      rw [found] at isExpected
      simpa [expected, Report.Careful, listed, found, ← isExpected] using observed_missing

theorem expected_eq_none :
    expected env identifier history = none ↔
      ∀ before ∈ history, ¬before.Holds env identifier := by
  induction history with
  | nil => simp [expected]
  | cons report earlier ih =>
    rw [List.forall_mem_cons, ← ih]
    cases listed : report.entry env identifier with
    | none | some item => simp [expected, listed, Report.Holds]

theorem Report.holdsAny_iff :
    report.HoldsAny env ↔ ∃ identifier, report.Holds env identifier := by
  constructor
  · rintro ⟨item, mem, has⟩
    refine ⟨inventoryIdentifier env item, ?_⟩
    simp only [Report.Holds, Report.entry, entryAmong, List.find?_isSome]
    exact ⟨item, mem, by simpa using has⟩
  · rintro ⟨identifier, holds⟩
    simp only [Report.Holds, Report.entry, entryAmong, List.find?_isSome] at holds
    rcases holds with ⟨item, mem, has⟩
    have has := of_decide_eq_true has
    exact ⟨item, mem, has.1 ▸ has⟩

theorem keys_eq_nil_iff (areExpected : ∀ identifier,
      (rows.lookup identifier).map InstalledApplication.observed =
        expected env identifier history) :
    rows.keys = [] ↔ ¬∃ before ∈ history, before.HoldsAny env := by
  have absent : rows.keys = [] ↔ ∀ identifier, rows.lookup identifier = none := by
    simp only [List.eq_nil_iff_forall_not_mem, AList.lookup_eq_none, AList.mem_keys]
  have never : ∀ identifier, rows.lookup identifier = none ↔
      ∀ before ∈ history, ¬before.Holds env identifier := by
    intro identifier
    rw [← expected_eq_none, ← areExpected identifier, Option.map_eq_none_iff]
  simp only [absent, never, Report.holdsAny_iff]
  constructor
  · rintro nowhere ⟨before, mem, identifier, holds⟩
    exact nowhere identifier before mem holds
  · intro nothing identifier before mem holds
    exact nothing ⟨before, mem, identifier, holds⟩

variable {state next : State}

theorem State.Faithful.step (faithful : state.Faithful env)
    (careful : ∀ identifier, report.Careful env state.rows identifier)
    (stepped : state.step env report = some next) : next.Faithful env := by
  cases stepped
  constructor
  · intro identifier
    exact (observed_apply_iff (faithful.rows identifier)).mpr (careful identifier)
  · intro identifier
    dsimp only
    rw [List.filter_append, List.map_append, faithful.events identifier, Report.events_apply,
      installTimes]
    congr 1
    have isKnown : state.rows.lookup identifier = none ↔
        ∀ before ∈ state.history, ¬before.Holds env identifier := by
      rw [← expected_eq_none, ← faithful.rows identifier, Option.map_eq_none_iff]
    by_cases isFirst : state.rows.keys = []
    · have nothing := (keys_eq_nil_iff faithful.rows).mp isFirst
      rw [if_pos isFirst, if_neg (fun announced => nothing announced.2.2)]
    · have something := not_not.mp fun nothing =>
        isFirst ((keys_eq_nil_iff faithful.rows).mpr nothing)
      rw [if_neg isFirst]
      have isCareful := careful identifier
      cases listed : report.entry env identifier with
      | none => simp [Report.Holds, listed]
      | some item =>
        have holds : report.Holds env identifier := by simp [Report.Holds, listed]
        cases found : state.rows.lookup identifier with
        | none =>
          simp only [Report.Careful, listed, found] at isCareful
          rw [if_pos ⟨holds, isKnown.mp found, something⟩]
          simp [Report.fresh, isCareful]
        | some prev =>
          rw [if_neg]
          · rfl
          · rintro ⟨-, unknown, -⟩
            rw [isKnown.mpr unknown] at found
            cases found

theorem State.faithful_initial : State.initial.Faithful env where
  rows _ := rfl
  events _ := rfl

/--
After every report of a run the rows and the events are those that the reports ask for, exactly
when each report is careful about all the rows.
-/
theorem faithful_iff_careful (env : Primitives) (trace : List Report) :
    (∀ reached, Visits (State.step env) .initial trace reached →
        reached.Faithful env) ↔
      AllSteps (State.step env)
        (fun state report => ∀ identifier, report.Careful env state.rows identifier)
        .initial trace := by
  have total : ∃ final, exec (State.step env) State.initial trace = some final :=
    exec_of_total (fun _ _ => ⟨_, rfl⟩) trace
  rcases total with ⟨final, executed⟩
  apply forall_visits_iff_allSteps (fun _ faithful => faithful) _ _ State.faithful_initial executed
  · intro state report next faithful careful stepped
    exact faithful.step careful stepped
  · intro state report next faithful stepped after identifier
    cases stepped
    exact (observed_apply_iff (faithful.rows identifier)).mp (after.rows identifier)

structure InstalledApplication.Dated (row : InstalledApplication) (identifier : List Char)
    (now : Time) : Prop where
  own : row.identifier = identifier
  marked : row.removed = row.removedAt.isSome
  since : row.firstSeenAt ≤ row.lastSeenAt
  seen : row.lastSeenAt ≤ now
  gone : ∀ time ∈ row.removedAt, row.lastSeenAt ≤ time ∧ time ≤ now

/-- The times of every row fit each other. -/
def State.Dated (state : State) : Prop :=
  ∀ now, (∀ report ∈ state.history, report.now ≤ now) → ∀ identifier row,
    state.rows.lookup identifier = some row → row.Dated identifier now

/-- No report is handled after a later one. -/
def InOrder (state : State) (report : Report) : Prop :=
  ∀ earlier ∈ state.history, earlier.now ≤ report.now

theorem State.Dated.step (dated : state.Dated) (inOrder : InOrder state report)
    (stepped : state.step env report = some next) : next.Dated := by
  cases stepped
  intro now bound identifier row found
  obtain ⟨reported, earlier⟩ := List.forall_mem_cons.mp bound
  have kept := dated now earlier identifier
  have before := dated report.now inOrder identifier
  replace found := Report.lookup_apply.symm.trans found
  cases stood : state.rows.lookup identifier with
  | none =>
    rcases listed : report.entry env identifier with _ | item
    · simp [listed, stood] at found
    · simp only [listed, stood, Report.stored, Option.ite_none_left_eq_some] at found
      cases found.2
      exact ⟨rfl, rfl, Int.le_refl _, reported, fun _ never => by cases never⟩
  | some prev =>
    obtain ⟨own, marked, since, seen, -⟩ := before prev stood
    rcases listed : report.entry env identifier with _ | item
    · simp only [listed, stood, Option.map_some, Option.some.injEq, Report.missing] at found
      split_ifs at found
      · exact found ▸ kept prev stood
      · cases found
        refine ⟨own, rfl, since, Int.le_trans seen reported, fun time isTime => ?_⟩
        cases isTime
        exact ⟨seen, reported⟩
    · simp only [listed, stood, Report.stored, Option.some.injEq] at found
      split_ifs at found
      · exact found ▸ kept prev stood
      · cases found
        have present : (if prev.removed then none else prev.removedAt) = none := by
          split_ifs with isRemoved
          · rfl
          · simpa [isRemoved] using marked
        have began : (if prev.removed then report.now else prev.firstSeenAt) ≤ report.now := by
          split_ifs
          · exact Int.le_refl _
          · exact Int.le_trans since seen
        exact ⟨own, congrArg Option.isSome present.symm, began, reported,
          fun _ isTime => by cases present.symm.trans isTime⟩

/-- Whatever the database refuses, a row is marked as removed exactly while it has the time. -/
theorem dated_of_inOrder {trace : List Report} {final : State}
    (inOrder : AllSteps (State.step env) InOrder .initial trace)
    (executed : exec (State.step env) .initial trace = some final) : final.Dated :=
  invariant_of_allSteps (fun _ _ _ dated allowed stepped => State.Dated.step dated allowed stepped)
    (fun _ _ _ _ found => by cases found) inOrder executed

def asciiPrimitives : Primitives where
  toLower := List.map Char.toLower
  equalFold first second := first.map Char.toLower == second.map Char.toLower
  parseTime _ _ := none

def notesItem (name : String) : InventoryItem :=
  ⟨"com.notes".toList, name.toList, "1".toList, [], [], [], []⟩

def notesReport (name : String) (now : Time) : Report where
  applications := [notesItem name]
  employeeID := none
  catalog := [⟨⟨1⟩, "Notes".toList, [], [], [], "productivity".toList, 10⟩]
  now := now
  fails _ := false
  failsRemoval := false

theorem dated_notes : ∃ final, exec (State.step asciiPrimitives) .initial
    [notesReport "Notes" 0, notesReport "Diary" 1] = some final ∧ final.Dated := by
  refine ⟨_, rfl, @dated_of_inOrder _ [notesReport "Notes" 0, notesReport "Diary" 1] _ ?_ rfl⟩
  refine (allSteps_cons rfl).mpr ⟨fun _ never => (by cases never), ?_⟩
  refine (allSteps_cons rfl).mpr ⟨?_, trivial⟩
  intro earlier isFirst
  cases List.mem_singleton.mp isFirst
  decide

/-- Under its new name the application has nothing to do with the catalogue's. -/
theorem not_alwaysFaithful :
    ¬∀ (env : Primitives) (trace : List Report) (reached : State),
      Visits (State.step env) .initial trace reached → reached.Faithful env := by
  intro always
  have faithful := always asciiPrimitives [notesReport "Notes" 0, notesReport "Diary" 1] _
    ⟨_, List.prefix_rfl, rfl⟩
  exact absurd (faithful.rows "com.notes".toList) (by decide +kernel)

end Aavishield.Inventory
