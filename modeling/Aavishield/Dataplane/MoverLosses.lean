import Aavishield.Dataplane.MoverRows

/-!
# The screenshots behind a crowd

A run to the company's database that repeats an earlier one, which got no further than the
screenshots.  Every event and session is there already, and every write comes out as well
as it can.  When an instant is crowded the run all the same comes to its delete step with
a screenshot that it has not copied.
-/

namespace Aavishield.Dataplane.Mover

open Paging TransitionSystem

section Rerun

variable (source : Tables)

def rerun (screenshots : Table Screenshot) (run : Run) : State where
  source := source
  destination := { source with screenshots }
  primaryFiles := []
  tenantFiles := []
  run := some run
  original := source
  toDatabase := true
  removing := false

def copying (phase : Phase) (batch : List ActivityEvent) : Run where
  toDatabase := true
  moveImages := false
  phase := phase
  batch := batch
  position := ⟨0, []⟩
  movedKeys := []

def paging (phase : Phase) (position : Position UUID Time) : Run where
  toDatabase := true
  moveImages := false
  phase := phase
  batch := []
  position := position
  movedKeys := []

variable {source} {screenshots : Table Screenshot}

variable {next : Option Keyset}

theorem reachable_flushingEach {rows pending batch : List ActivityEvent}
    (there : ∀ event ∈ rows, source.events.Holds event.id) :
    Reachable step (rerun source screenshots (copying (.flushingEach rows pending next) batch))
      (rerun source screenshots (copying (.events pending next) [])) := by
  induction rows with
  | nil => exact .head .takeEvent rfl (.refl _)
  | cons event rest ih =>
    refine Reachable.head (.flushOne (.duplicateKey 0)) ?_
      (ih fun other otherMem => there other (List.mem_cons_of_mem event otherMem))
    have held : source.events.Holds (HasID.id event) := there event List.mem_cons_self
    have possible : (Write.duplicateKey 0).possible source.events [event] = true := by
      simp [Write.possible, held]
    simp [step, rerun, copying, possible, State.flushOne, State.goto, Write.apply,
      Table.insertAll]

variable {pending batch : List ActivityEvent}

theorem reachable_flushing
    (nonempty : batch ≠ []) (there : ∀ event ∈ batch, source.events.Holds event.id) :
    Reachable step (rerun source screenshots (copying (.flushing pending next) batch))
      (rerun source screenshots (copying (.events pending next) [])) := by
  rcases List.exists_mem_of_ne_nil batch nonempty with ⟨event, eventMem⟩
  have possible : (Write.duplicateKey 0).possible source.events batch = true := by
    simp only [Write.possible, List.any_eq_true, decide_eq_true_eq]
    exact ⟨event, eventMem, there event eventMem⟩
  have each : Reachable step
      (rerun source screenshots (copying (.flushingEach batch pending next) batch))
      (rerun source screenshots (copying (.events pending next) [])) :=
    reachable_flushingEach there
  refine Reachable.head (.flush (.duplicateKey 0)) ?_ each
  simp [step, rerun, copying, possible, State.flush, State.goto, Write.apply, Table.insertAll]

theorem reachable_page (there : ∀ event ∈ batch ++ pending, source.events.Holds event.id) :
    ∃ rest, (∀ event ∈ rest, source.events.Holds event.id) ∧
      Reachable step (rerun source screenshots (copying (.events pending next) batch))
        (rerun source screenshots (copying (.events [] next) rest)) := by
  induction pending generalizing batch with
  | nil => exact ⟨batch, by simpa using there, .refl _⟩
  | cons event rest ih =>
    by_cases isFull : (batch ++ [event]).length = batchSize
    · have inBatch : ∀ other ∈ batch ++ [event], source.events.Holds other.id := by
        intro other otherMem
        apply there other
        simp only [List.mem_append, List.mem_cons] at otherMem ⊢
        tauto
      have later : ∀ other ∈ [] ++ rest, source.events.Holds other.id := by
        intro other otherMem
        apply there other
        simp only [List.nil_append] at otherMem
        simp [otherMem]
      rcases ih later with ⟨remaining, held, reached⟩
      refine ⟨remaining, held, Reachable.head .takeEvent ?_
        ((reachable_flushing (by simp) inBatch).trans reached)⟩
      simp only [step, rerun, copying, State.takeEvent, State.goto, isFull, if_true]
    · have later : ∀ other ∈ (batch ++ [event]) ++ rest, source.events.Holds other.id := by
        simpa using there
      rcases ih later with ⟨remaining, held, reached⟩
      refine ⟨remaining, held, Reachable.head .takeEvent ?_ reached⟩
      simp only [step, rerun, copying, State.takeEvent, State.goto, isFull, if_false]

theorem fewer_ahead {events : Table ActivityEvent} {last : Keyset} {final : ActivityEvent}
    (onPage : final ∈ eventPage events last) :
    (events.rows.filter (follows (some final.orderKey))).length <
      (events.rows.filter (follows last)).length := by
  have finalMem : final ∈ events.rows ∧ follows last final = true := by
    simpa using List.mem_of_mem_take onPage
  have sub : (final :: events.rows.filter (follows (some final.orderKey))).Subperm
      (events.rows.filter (follows last)) := by
    apply List.subperm_of_subset
    · apply List.nodup_cons.mpr
      exact ⟨by simp [follows], events.nodup.filter _⟩
    · apply List.cons_subset.mpr
      refine ⟨List.mem_filter.mpr finalMem, ?_⟩
      intro event eventMem
      rcases List.mem_filter.mp eventMem with ⟨there, later⟩
      refine List.mem_filter.mpr ⟨there, ?_⟩
      cases last with
      | none => rfl
      | some key =>
        simp only [follows, decide_eq_true_eq] at later finalMem ⊢
        exact finalMem.2.trans later
  exact sub.length_le

theorem nextPage_cases {page : List ActivityEvent}
    (identified : ∀ event ∈ page, event.id ≠ UUID.zero) :
    nextPage page = none ∨ ∃ last ∈ page, nextPage page = some (some last.orderKey) := by
  unfold nextPage
  split_ifs with short
  · exact .inl rfl
  · right
    have nonempty : page ≠ [] := by
      rintro rfl
      simp [eachBatch] at short
    have lastMem := List.getLast_mem nonempty
    refine ⟨page.getLast nonempty, lastMem, ?_⟩
    rw [List.getLast?_eq_some_getLast nonempty, Option.map_some, if_neg (identified _ lastMem)]

theorem reachable_readingSessions (identified : ∀ event ∈ source.events.rows, event.id ≠ UUID.zero)
    {last : Keyset} {batch : List ActivityEvent}
    (there : ∀ event ∈ batch, source.events.Holds event.id) :
    Reachable step (rerun source screenshots (copying (.eventPage last) batch))
      (rerun source screenshots (copying .readingSessions [])) := by
  -- by induction on the number of events past the start of the page
  induction counted : (source.events.rows.filter (follows last)).length
    using Nat.strong_induction_on generalizing last batch with
  | _ ahead ih =>
  have rows : ∀ event ∈ eventPage source.events last, event ∈ source.events.rows := by
    intro event eventMem
    have selected := (List.mem_insertionSort _).mp (List.mem_of_mem_take eventMem)
    exact (List.mem_filter.mp selected).1
  have taken : ∀ event ∈ batch ++ eventPage source.events last, source.events.Holds event.id := by
    intro event eventMem
    rcases List.mem_append.mp eventMem with inBatch | onPage
    · exact there event inBatch
    · exact Table.holds_of_mem (rows event onPage)
  have emptyHanded : Reachable step (rerun source screenshots (copying (.events [] none) []))
      (rerun source screenshots (copying .readingSessions [])) := .head .takeEvent rfl (.refl _)
  have read : step (rerun source screenshots (copying (.eventPage last) batch)) (.readEvents true) =
      some (rerun source screenshots (copying (.events (eventPage source.events last)
        (nextPage (eventPage source.events last))) batch)) := rfl
  apply Reachable.head _ read
  rcases nextPage_cases fun event eventMem => identified event (rows event eventMem) with
    isLast | ⟨final, finalMem, isNext⟩
  · rw [isLast]
    rcases reachable_page taken with ⟨rest, held, reached⟩
    apply Reachable.trans reached
    by_cases empty : rest = []
    · subst empty
      exact emptyHanded
    · refine Reachable.head .takeEvent ?_ ((reachable_flushing empty held).trans emptyHanded)
      simp [step, rerun, copying, State.takeEvent, State.goto, empty]
  · rw [isNext]
    rcases reachable_page taken with ⟨rest, held, reached⟩
    apply Reachable.trans reached
    apply Reachable.head .takeEvent rfl
    exact ih _ (counted ▸ fewer_ahead finalMem) held rfl

theorem reachable_sessions {pending : List WorkSession}
    (there : ∀ session ∈ pending, source.sessions.Holds session.id) :
    Reachable step (rerun source screenshots (copying (.sessions pending) []))
      (rerun source screenshots (paging .shotPage ⟨0, []⟩)) := by
  induction pending with
  | nil => exact .head .endPage rfl (.refl _)
  | cons session rest ih =>
    have held : source.sessions.Holds (HasID.id session) := there session List.mem_cons_self
    have possible : (Write.duplicateKey 0).possible source.sessions [session] = true := by
      simp [Write.possible, held]
    refine Reachable.head (.copySession (.duplicateKey 0)) ?_
      (ih fun other otherMem => there other (List.mem_cons_of_mem session otherMem))
    simp [step, rerun, copying, possible, State.copySession, State.goto, Write.apply,
      Table.insertAll]

theorem reachable_shotPage (identified : ∀ event ∈ source.events.rows, event.id ≠ UUID.zero) :
    Reachable step (rerun source screenshots (copying .counting []))
      (rerun source screenshots (paging .shotPage ⟨0, []⟩)) := by
  apply Reachable.head (.count true) rfl
  apply Reachable.trans (reachable_readingSessions identified fun _ none => by cases none)
  apply Reachable.head (.readSessions true) rfl
  exact reachable_sessions fun session sessionMem => Table.holds_of_mem sessionMem

theorem State.moveImage_gone (state : State) (run : Run) (shot : Screenshot) :
    state.moveImage run shot .gone = some (state, run, shot.storageKey) := by
  unfold State.moveImage
  cases shot.storageKey with
  | tenant key => rfl
  | primary key =>
    simp only
    split_ifs <;> rfl

variable {full progressed : Bool} {position : Position UUID Time}

theorem step_takeShot {shot : Screenshot} {rest : List Screenshot}
    (unseen : shot.id ∉ position.seen) :
    ∃ write, step (rerun source screenshots (paging (.shots (shot :: rest) full progressed) position))
        (.takeShot .gone write false) =
      some (rerun source (screenshots.insert shot) (paging (.shots rest full true)
        (position.visit Screenshot.id Screenshot.capturedAt shot))) := by
  by_cases held : screenshots.Holds (HasID.id shot)
  · have same : screenshots.insert shot = screenshots := by simp [Table.insert, held]
    have possible : (Write.duplicateKey 0).possible screenshots [shot] = true := by
      simp [Write.possible, held]
    refine ⟨.duplicateKey 0, ?_⟩
    simp [step, rerun, paging, State.canTake, possible, State.takeShot, unseen,
      State.moveImage_gone, State.recordShot, State.goto, Write.apply, Table.insertAll, same]
  · have possible : Write.ok.possible screenshots [shot] = true := by
      simp [Write.possible, held]
    refine ⟨.ok, ?_⟩
    simp [step, rerun, paging, State.canTake, possible, State.takeShot, unseen,
      State.moveImage_gone, State.recordShot, State.goto, Write.apply, Table.insertAll]

theorem step_skipShot {shot : Screenshot} {rest : List Screenshot}
    (seen : shot.id ∈ position.seen) :
    step (rerun source screenshots (paging (.shots (shot :: rest) full progressed) position))
        (.takeShot .gone (.failed 0) false) =
      some (rerun source screenshots (paging (.shots rest full progressed) position)) := by
  simp [step, rerun, paging, State.canTake, Write.possible, State.takeShot, seen, State.goto]

theorem reachable_shots {pending : List Screenshot}
    (fresh : progressed = true ∨ ∃ shot ∈ pending, shot.id ∉ position.seen) :
    ∃ copied : Table Screenshot,
      Reachable step
        (rerun source screenshots (paging (.shots pending full progressed) position))
        (rerun source copied (paging (.shots [] full true)
          (position.passAll Screenshot.id Screenshot.capturedAt pending))) ∧
      ∀ id, copied.Holds id → screenshots.Holds id ∨ id ∈ pending.map Screenshot.id := by
  induction pending generalizing screenshots progressed position with
  | nil =>
    have isTrue := fresh.resolve_right (by simp)
    rw [isTrue]
    exact ⟨screenshots, .refl _, fun id held => .inl held⟩
  | cons shot rest ih =>
    have passed : ∀ position : Position UUID Time,
        position.passAll Screenshot.id Screenshot.capturedAt (shot :: rest) =
          (position.pass Screenshot.id Screenshot.capturedAt shot).passAll Screenshot.id
            Screenshot.capturedAt rest := fun _ => rfl
    by_cases seen : shot.id ∈ position.seen
    · have stillFresh : progressed = true ∨ ∃ other ∈ rest, other.id ∉ position.seen := by
        rcases fresh with already | ⟨other, otherMem, unseen⟩
        · exact .inl already
        · rcases List.mem_cons.mp otherMem with rfl | later
          · exact absurd seen unseen
          · exact .inr ⟨other, later, unseen⟩
      rcases ih stillFresh with ⟨copied, reached, onPages⟩
      refine ⟨copied, ?_, ?_⟩
      · apply Reachable.head _ (step_skipShot seen)
        simpa only [passed, Position.pass, seen, if_true] using reached
      · intro id held
        rcases onPages id held with before | onPage
        · exact .inl before
        · exact .inr (List.mem_cons_of_mem _ onPage)
    · rcases step_takeShot seen with ⟨write, stepped⟩
      rcases ih (.inl rfl) with ⟨copied, reached, onPages⟩
      refine ⟨copied, ?_, ?_⟩
      · apply Reachable.head _ stepped
        simpa only [passed, Position.pass, seen, if_false] using reached
      · intro id held
        rcases onPages id held with before | onPage
        · rcases Table.holds_insert.mp before with rfl | earlier
          · exact .inr List.mem_cons_self
          · exact .inl earlier
        · exact .inr (List.mem_cons_of_mem _ onPage)

theorem reachable_seenShots {pending : List Screenshot}
    (seen : ∀ shot ∈ pending, shot.id ∈ position.seen) :
    Reachable step (rerun source screenshots (paging (.shots pending full progressed) position))
      (rerun source screenshots (paging (.shots [] full progressed) position)) := by
  induction pending with
  | nil => exact .refl _
  | cons shot rest ih =>
    apply Reachable.head _ (step_skipShot (seen shot List.mem_cons_self))
    exact ih fun other otherMem => seen other (List.mem_cons_of_mem shot otherMem)

def inOrder (source : Tables) : List Screenshot :=
  source.screenshots.rows.insertionSort (·.capturedAt ≤ ·.capturedAt)

theorem pairwise_inOrder : (inOrder source).Pairwise (·.capturedAt ≤ ·.capturedAt) :=
  List.pairwise_insertionSort
    (fun first second : Screenshot => first.capturedAt ≤ second.capturedAt) _

theorem perm_inOrder : (inOrder source).Perm source.screenshots.rows :=
  List.perm_insertionSort _ _

theorem step_readShots (dated : ∀ shot ∈ source.screenshots.rows, 0 ≤ shot.capturedAt)
    (position : Position UUID Time) :
    step (rerun source screenshots (paging .shotPage position))
        (.readShots (some ((inOrder source).filter (position.cursor ≤ ·.capturedAt)))) =
      some (rerun source screenshots (paging
        (.shots (pageFrom Screenshot.capturedAt shotPage (inOrder source) position.cursor)
          (decide ((pageFrom Screenshot.capturedAt shotPage (inOrder source)
            position.cursor).length = shotPage)) false) position)) := by
  have sameSelection : source.screenshots.rows.filter (capturedSince position.cursor) =
      source.screenshots.rows.filter (position.cursor ≤ ·.capturedAt) := by
    apply List.filter_congr
    intro shot shotMem
    by_cases atZero : position.cursor = 0
    · simp [capturedSince, atZero, dated shot shotMem]
    · simp [capturedSince, atZero]
  have answered : ordered source.screenshots.rows position.cursor
      ((inOrder source).filter (position.cursor ≤ ·.capturedAt)) = true := by
    rw [ordered, sameSelection, Bool.and_eq_true, decide_eq_true_eq, decide_eq_true_eq]
    exact ⟨perm_inOrder.filter _, pairwise_inOrder.filter _⟩
  simp [step, rerun, paging, answered, State.readShots, State.goto, pageFrom]

theorem reachable_turns (dated : ∀ shot ∈ source.screenshots.rows, 0 ≤ shot.capturedAt)
    {position final : Position UUID Time} {pages : List (List Screenshot)}
    (turns : Turns Screenshot.id Screenshot.capturedAt shotPage (inOrder source) position pages
      final) :
    ∃ copied : Table Screenshot,
      Reachable step (rerun source screenshots (paging .shotPage position))
        (rerun source copied (paging .shotPage final)) ∧
      ∀ id, copied.Holds id → screenshots.Holds id ∨
        ∃ page ∈ pages, id ∈ page.map Screenshot.id := by
  induction turns generalizing screenshots with
  | done position => exact ⟨screenshots, .refl _, fun id held => .inl held⟩
  | turn full fresh rest ih =>
    rcases reachable_shots (.inr fresh) with ⟨afterPage, passed, onPage⟩
    rcases @ih afterPage with ⟨copied, reached, onPages⟩
    refine ⟨copied, ?_, ?_⟩
    · apply Reachable.head _ (step_readShots dated _)
      apply passed.trans
      refine Reachable.head .endPage ?_ reached
      simp [step, rerun, paging, State.endPage, State.goto, full]
    · intro id held
      rcases onPages id held with before | ⟨page, pageMem, there⟩
      · rcases onPage id before with earlier | there
        · exact .inl earlier
        · exact .inr ⟨_, List.mem_cons_self, there⟩
      · exact .inr ⟨page, List.mem_cons_of_mem _ pageMem, there⟩

theorem not_movesWithoutLoss_of_crowded
    (identified : ∀ event ∈ source.events.rows, event.id ≠ UUID.zero)
    (dated : ∀ shot ∈ source.screenshots.rows, 0 ≤ shot.capturedAt)
    (crowded : CrowdedInstant source) : ¬MovesWithoutLoss source := by
  intro claimed
  rcases crowded with ⟨shot, shotMem, fills, more⟩
  have distinct : ((inOrder source).map Screenshot.id).Nodup :=
    (perm_inOrder.map _).nodup_iff.mpr source.screenshots.distinct
  rw [← (perm_inOrder.filter _).length_eq] at fills more
  have tracks : Tracks Screenshot.id Screenshot.capturedAt (inOrder source) ⟨0, []⟩ := by
    intro other _ seen
    cases seen
  rcases exists_turns_stuck pairwise_inOrder distinct fills more tracks (dated shot shotMem) with
    ⟨pages, final, lost, turns, stuck, lostMem, absent, -⟩
  rcases @reachable_turns source .empty dated _ _ _ turns with ⟨copied, turned, onPages⟩
  have deleting : Reachable step (rerun source copied (paging .shotPage final))
      { rerun source copied (paging .deletingEvents final) with removing := true } := by
    apply Reachable.head _ (step_readShots dated final)
    apply Reachable.trans (reachable_seenShots stuck.2)
    exact .head .endPage (by simp [step, rerun, paging, State.endPage, State.goto]) (.refl _)
  have initially : Reachable step (State.initial source { source with screenshots := .empty } [] [])
      (rerun source .empty (copying .counting [])) :=
    .head (.start true false) rfl (.refl _)
  rcases ((initially.trans (reachable_shotPage identified)).trans turned).trans deleting with
    ⟨trace, executed⟩
  have covered := (claimed _ _ _ _ _ executed).covered _ rfl rfl
  have there := covered.screenshots lost (perm_inOrder.mem_iff.mp lostMem)
  rcases onPages lost.id there with before | ⟨page, pageMem, onPage⟩
  · exact Table.not_holds_empty before
  · rcases List.mem_map.mp onPage with ⟨other, otherMem, sameId⟩
    -- one identifier, one screenshot
    have otherRow : other ∈ inOrder source := turns_mem turns page pageMem other otherMem
    rw [List.inj_on_of_nodup_map distinct otherRow lostMem sameId] at otherMem
    exact absent page pageMem otherMem

end Rerun

/--
A move loses nothing when no instant is crowded.  With a crowded instant it may, for
events that have an identifier and screenshots taken after the zero time.
-/
theorem movesWithoutLoss_iff_not_crowded (source : Tables) :
    (¬CrowdedInstant source → MovesWithoutLoss source) ∧
      ((∀ event ∈ source.events.rows, event.id ≠ UUID.zero) →
        (∀ shot ∈ source.screenshots.rows, 0 ≤ shot.capturedAt) →
          MovesWithoutLoss source → ¬CrowdedInstant source) := by
  constructor
  · exact movesWithoutLoss_of_not_crowded
  · intro identified dated claimed crowded
    exact not_movesWithoutLoss_of_crowded identified dated crowded claimed

def burst : Tables where
  events := .empty
  sessions := .empty
  screenshots :=
    { rows := (List.range 201).map fun number => ⟨⟨BitVec.ofNat 128 number⟩, 1, .primary ""⟩
      distinct := by
        rw [List.map_map]
        apply List.Nodup.map_on _ List.nodup_range
        intro first firstMem second secondMem same
        simp only [List.mem_range] at firstMem secondMem
        have bits := congrArg (fun id : UUID => id.bits.toNat) same
        simp [HasID.id, BitVec.toNat_ofNat] at bits
        omega }

theorem crowdedInstant_burst : CrowdedInstant burst := by
  refine ⟨⟨⟨BitVec.ofNat 128 0⟩, 1, .primary ""⟩, ?_, ?_, ?_⟩
  · simp only [burst, List.mem_map, List.mem_range]
    exact ⟨0, by simp⟩
  · simp [burst, List.filter_map, Function.comp_def, shotPage]
  · simp [burst, List.filter_map, Function.comp_def, shotPage]

/-- The last of them is deleted without having been copied. -/
theorem not_forall_movesWithoutLoss : ¬∀ source, MovesWithoutLoss source := by
  intro claimed
  apply not_movesWithoutLoss_of_crowded _ _ crowdedInstant_burst (claimed burst)
  · intro event none
    cases none
  · intro shot shotMem
    simp only [burst, List.mem_map] at shotMem
    rcases shotMem with ⟨number, -, rfl⟩
    simp

end Aavishield.Dataplane.Mover
