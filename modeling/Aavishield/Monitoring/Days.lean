import Aavishield.Lib.Zones
import Aavishield.Monitoring.Ingest
import Aavishield.Schedule.Evaluate
import Mathlib.Data.List.Chain

/-!
# Days of screenshots

The dashboard shows the screenshots of one employee and one day.  A day begins some hours after
the midnight of its date and is over 24 hours later.  Two days that follow each other part the
time between them as long as the clock reads both midnights by the same offset.
-/

namespace Aavishield.Monitoring

open Dataplane (HasID)
open Schedule (dayLength)
open Zones (Zone)

def hour : ℤ := 3600000000000

def midnight (date : ℤ) : ℤ := date * dayLength

structure DayRequest where
  tz : Option Zone := none
  date : Option ℤ := none
  dayReset : Option ℤ := none

def DayRequest.on (zone : Zone) (dayReset date : ℤ) : DayRequest where
  tz := some zone
  date := some date
  dayReset := some dayReset

structure DayWindow where
  start : Time
  finish : Time
  dayReset : ℤ

def DayRequest.window (request : DayRequest) (now : Time) : DayWindow :=
  let loc := request.tz.getD (.fixed 0)
  let asked := request.dayReset.getD 0
  let dayReset := if asked < 0 ∨ 23 < asked then 0 else asked
  let base := loc.instant (midnight (request.date.getD (loc.wall now / dayLength)))
  let start := base + dayReset * hour
  ⟨start, start + 24 * hour, dayReset⟩

/-- A time of one state. -/
structure TimelineSegment where
  start : Time
  finish : Time
  state : ActivityState

def TimelineSegment.extend : List TimelineSegment → Screenshot → List TimelineSegment
  | runs, shot =>
    if shot.intervalEnd ≤ shot.intervalStart then runs
    else match runs with
    | last :: earlier =>
      if last.state = shot.state ∧ shot.intervalStart - last.finish ≤ 90 * 10 ^ 9 then
        { last with finish := max last.finish shot.intervalEnd } :: earlier
      else ⟨shot.intervalStart, shot.intervalEnd, shot.state⟩ :: last :: earlier
    | [] => [⟨shot.intervalStart, shot.intervalEnd, shot.state⟩]

/-- The segments that shots in order make up. -/
def buildTimeline (shots : List Screenshot) : List TimelineSegment :=
  (shots.foldl TimelineSegment.extend []).reverse

section View

variable (orgID employeeID : UUID)

def inWindow (window : DayWindow) : ScreenshotQuery where
  orgID
  employeeID := some employeeID
  capturedSince := window.start
  capturedBefore := window.finish

def dayShots (request : DayRequest) (now : Time) (store : Store) : List Screenshot :=
  store.findScreenshots (inWindow orgID employeeID (request.window now))

end View

/-- Where one day ends the next one begins, and what was captured in the two is in one of them. -/
structure Parted (zone : Zone) (dayReset date : ℤ) : Prop where
  adjoin : ∀ now, ((DayRequest.on zone dayReset date).window now).finish =
    ((DayRequest.on zone dayReset (date + 1)).window now).start
  once : ∀ (orgID employeeID : UUID) (store : Store) (now : Time),
    ∀ shot ∈ store.screenshots.rows, shot.orgID = orgID → shot.employeeID = some employeeID →
      ((DayRequest.on zone dayReset date).window now).start ≤ shot.capturedAt →
      shot.capturedAt < ((DayRequest.on zone dayReset (date + 1)).window now).finish →
        (shot ∈ dayShots orgID employeeID (.on zone dayReset date) now store ↔
          shot ∉ dayShots orgID employeeID (.on zone dayReset (date + 1)) now store)

variable {orgID employeeID : UUID} {request : DayRequest} {store : Store} {shot : Screenshot}
  {zone : Zone} {dayReset date : ℤ} {now : Time}

theorem mem_findScreenshots {query : ScreenshotQuery} (unlimited : query.limit = 0) :
    shot ∈ store.findScreenshots query ↔
      shot ∈ store.screenshots.rows ∧ query.selects shot = true := by
  simp [Store.findScreenshots, unlimited]

theorem mem_dayShots (stored : shot ∈ store.screenshots.rows) (ofOrg : shot.orgID = orgID)
    (ofEmployee : shot.employeeID = some employeeID) :
    shot ∈ dayShots orgID employeeID request now store ↔
      ((request.window now).finish = 0 ∨ shot.capturedAt < (request.window now).finish) ∧
        ((request.window now).start = 0 ∨ (request.window now).start ≤ shot.capturedAt) := by
  rw [dayShots, mem_findScreenshots rfl, ScreenshotQuery.selects_iff]
  simp [inWindow, stored, ofOrg, ofEmployee]

def resetOf (dayReset : ℤ) : ℤ := if dayReset < 0 ∨ 23 < dayReset then 0 else dayReset

/-- The instant at which a date starts in a zone. -/
def dayStart (zone : Zone) (dayReset date : ℤ) : Time :=
  midnight date - zone.reading (midnight date) + resetOf dayReset * hour

theorem window_on : (DayRequest.on zone dayReset date).window now =
    ⟨dayStart zone dayReset date, dayStart zone dayReset date + dayLength, resetOf dayReset⟩ := rfl

theorem adjoin_iff : dayStart zone dayReset date + dayLength = dayStart zone dayReset (date + 1) ↔
    zone.reading (midnight date) = zone.reading (midnight (date + 1)) := by
  have next : midnight (date + 1) = midnight date + dayLength := by
    simp [midnight, Int.add_mul]
  simp only [dayStart, next, Time]
  omega

def shotAt (orgID employeeID : UUID) (capturedAt : Time) : Screenshot where
  id := .zero
  orgID
  employeeID := some employeeID
  deviceID := none
  sessionID := none
  capturedAt
  intervalStart := capturedAt
  intervalEnd := capturedAt
  storageKey := ""
  bytes := 1
  activityPercent := 0
  activeSeconds := 0
  intervalSeconds := 0
  state := .idle

theorem mem_insertScreenshot_empty (shot : Screenshot) :
    shot ∈ (Store.empty.insertScreenshot shot).screenshots.rows := by
  have isNew : ¬(Dataplane.Table.empty : Dataplane.Table Screenshot).Holds (HasID.id shot) := by
    simp [Dataplane.Table.Holds, Dataplane.Table.empty]
  change shot ∈ (Dataplane.Table.empty.insert shot).rows
  rw [Dataplane.Table.insert, dif_neg isNew]
  exact List.mem_cons_self

theorem Parted.dayStart_ne_zero (parted : Parted zone dayReset date) :
    dayStart zone dayReset (date + 1) ≠ 0 := by
  intro unset
  have adjoin := parted.adjoin 0
  obtain ⟨shot, ofOrg, ofEmployee, captured⟩ : ∃ shot : Screenshot, shot.orgID = .zero ∧
      shot.employeeID = some .zero ∧ shot.capturedAt = 0 := ⟨shotAt .zero .zero 0, rfl, rfl, rfl⟩
  have stored := mem_insertScreenshot_empty shot
  have once := parted.once .zero .zero _ 0 shot stored ofOrg ofEmployee
  simp only [mem_dayShots stored ofOrg ofEmployee, window_on, captured, unset] at once adjoin
  have earlier : dayStart zone dayReset date ≤ 0 := by
    simp only [dayLength, Time] at adjoin ⊢
    omega
  simp only [adjoin, earlier, or_true, and_true, true_or, true_iff] at once
  apply once trivial
  · decide
  · right
    decide

/-- At Go's zero time a bound is taken for one that is not set. -/
theorem parted_iff (zone : Zone) (dayReset date : ℤ) : Parted zone dayReset date ↔
    zone.reading (midnight date) = zone.reading (midnight (date + 1)) ∧
      dayStart zone dayReset (date + 1) ≠ 0 := by
  constructor
  · intro parted
    exact ⟨adjoin_iff.1 (parted.adjoin 0), parted.dayStart_ne_zero⟩
  · rintro ⟨sameReading, isSet⟩
    have adjoin := (@adjoin_iff _ dayReset _).2 sameReading
    constructor
    · intro now
      exact adjoin
    · intro orgID employeeID store now shot stored ofOrg ofEmployee since before
      simp only [mem_dayShots stored ofOrg ofEmployee, window_on, adjoin, isSet,
        false_or] at since before ⊢
      simp [since, before]

section Timeline

variable {shots : List Screenshot} {shot : Screenshot} {runs earlier : List TimelineSegment}
  {last : TimelineSegment}

/-- The segments, the latest first: each runs from the start of a shot to the end of one. -/
structure Covers (shots : List Screenshot) (runs : List TimelineSegment) : Prop where
  bounds : ∀ run ∈ runs, run.start < run.finish ∧ ∃ first ∈ shots, ∃ last ∈ shots,
    first.state = last.state ∧ run = ⟨first.intervalStart, last.intervalEnd, last.state⟩
  parted : runs.IsChain fun later earlier =>
    ¬(earlier.state = later.state ∧ later.start - earlier.finish ≤ 90 * 10 ^ 9)
  covered : ∀ shot ∈ shots, shot.intervalStart < shot.intervalEnd → ∃ run ∈ runs,
    run.state = shot.state ∧ run.start ≤ shot.intervalStart ∧ shot.intervalEnd ≤ run.finish

theorem Covers.append (covers : Covers shots runs) : ∀ run ∈ runs, run.start < run.finish ∧
    ∃ first ∈ shots ++ [shot], ∃ last ∈ shots ++ [shot],
      first.state = last.state ∧ run = ⟨first.intervalStart, last.intervalEnd, last.state⟩ := by
  intro run runMem
  obtain ⟨nonempty, first, firstMem, last, lastMem, bounds⟩ := covers.bounds run runMem
  exact ⟨nonempty, first, List.mem_append_left _ firstMem, last, List.mem_append_left _ lastMem, bounds⟩

theorem Covers.push (covers : Covers shots runs) (longer : shot.intervalStart < shot.intervalEnd)
    (apart : ∀ last ∈ runs.head?,
      ¬(last.state = shot.state ∧ shot.intervalStart - last.finish ≤ 90 * 10 ^ 9)) :
    Covers (shots ++ [shot]) (⟨shot.intervalStart, shot.intervalEnd, shot.state⟩ :: runs) where
  bounds := List.forall_mem_cons.mpr
    ⟨⟨longer, shot, by simp, shot, by simp, rfl, rfl⟩, covers.append⟩
  parted := List.isChain_cons.mpr ⟨apart, covers.parted⟩
  covered other otherMem otherLonger := by
    rcases List.mem_append.mp otherMem with otherMem | isShot
    · obtain ⟨run, runMem, rest⟩ := covers.covered other otherMem otherLonger
      exact ⟨run, List.mem_cons_of_mem _ runMem, rest⟩
    · rw [List.mem_singleton.mp isShot]
      exact ⟨_, List.mem_cons_self, rfl, le_rfl, le_rfl⟩

theorem Covers.widen (covers : Covers shots (last :: earlier)) (same : last.state = shot.state)
    (latest : ∀ other ∈ shots, other.intervalStart ≤ shot.intervalStart) :
    Covers (shots ++ [shot])
      ({ last with finish := max last.finish shot.intervalEnd } :: earlier) := by
  obtain ⟨nonempty, first, firstMem, final, finalMem, states, rfl⟩ := covers.bounds last List.mem_cons_self
  refine ⟨List.forall_mem_cons.mpr ⟨⟨lt_max_of_lt_left nonempty, first, by simp [firstMem], ?_⟩,
    fun run runMem => covers.append run (List.mem_cons_of_mem _ runMem)⟩,
    List.isChain_cons.mpr (List.isChain_cons.mp covers.parted), ?_⟩
  · rcases le_total final.intervalEnd shot.intervalEnd with later | sooner
    · exact ⟨shot, by simp, states.trans same, by simpa [later] using same⟩
    · exact ⟨final, by simp [finalMem], states, by simp [sooner]⟩
  · intro other otherMem longer
    rcases List.mem_append.mp otherMem with otherMem | isShot
    · obtain ⟨run, runMem, isState, since, til⟩ := covers.covered other otherMem longer
      rcases List.mem_cons.mp runMem with rfl | runMem
      · exact ⟨_, List.mem_cons_self, isState, since, le_max_of_le_left til⟩
      · exact ⟨run, List.mem_cons_of_mem _ runMem, isState, since, til⟩
    · rw [List.mem_singleton.mp isShot]
      exact ⟨_, List.mem_cons_self, same, latest first firstMem, le_max_right _ _⟩

/-- The timeline shows all that was captured, in runs that are as long as they can be. -/
theorem covers_buildTimeline
    (sorted : shots.Pairwise fun first second => first.intervalStart ≤ second.intervalStart) :
    Covers shots (buildTimeline shots).reverse := by
  rw [buildTimeline, List.reverse_reverse]
  induction shots using List.reverseRecOn with
  | nil => exact ⟨by simp, .nil, by simp⟩
  | append_singleton shots shot ih =>
    obtain ⟨sortedShots, -, latest⟩ := List.pairwise_append.mp sorted
    have covers := ih sortedShots
    rw [List.foldl_append, List.foldl_cons, List.foldl_nil]
    generalize shots.foldl TimelineSegment.extend [] = runs at covers ⊢
    by_cases longer : shot.intervalStart < shot.intervalEnd
    · rcases runs with _ | ⟨last, earlier⟩
      · simp only [TimelineSegment.extend, if_neg (not_le.mpr longer)]
        exact covers.push longer (by simp)
      · simp only [TimelineSegment.extend, if_neg (not_le.mpr longer)]
        split_ifs with merges
        · exact covers.widen merges.1 fun other otherMem =>
            latest other otherMem shot (List.mem_singleton_self shot)
        · exact covers.push longer (by simpa using merges)
    · have passed : TimelineSegment.extend runs shot = runs := if_pos (not_lt.mp longer)
      rw [passed]
      refine ⟨covers.append, covers.parted, ?_⟩
      intro other otherMem otherLonger
      rcases List.mem_append.mp otherMem with otherMem | isShot
      · exact covers.covered other otherMem otherLonger
      · exact absurd (List.mem_singleton.mp isShot ▸ otherLonger) longer

theorem covers_twoShots :
    Covers [{ shotAt .zero .zero 0 with intervalEnd := 60 }, { shotAt .zero .zero 60 with intervalEnd := 90 }]
      [⟨0, 90, .idle⟩] := covers_buildTimeline (by decide)

end Timeline

def march7 : ℤ := 739681

def newYork : Zone := .jumping (midnight (march7 + 1) + 7 * hour) (-5 * hour) (-4 * hour)

/-- The clock skips an hour on the date. -/
theorem not_parted_spring : ¬Parted newYork 4 (march7 + 1) := by
  rw [parted_iff]
  rintro ⟨sameReading, -⟩
  revert sameReading
  decide

end Aavishield.Monitoring
