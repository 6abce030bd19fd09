import Aavishield.Schedule.Evaluate
import Mathlib.Data.List.Sort

/-!
# The calendar of a schedule

What a schedule means: a week of windows that comes again for ever, without those of the
holidays.  `evaluate` looks at eleven days of it, so it answers for the calendar as long as
the next change comes within these days and the clock does not jump over a time that the
windows name.
-/

namespace Aavishield.Schedule

open Intervals

variable (env : Primitives) (spec : Spec) (now : Time)

def Window.clocks (window : Window) : Option (ℤ × ℤ) := do
  let start ← parseHM window.start
  let finish ← parseHM window.finish
  some (start, finish)

def occurrence (location : Location) (day : ℤ) (clocks : ℤ × ℤ) : Interval where
  start := location.date day clocks.1
  finish := location.date (if clocks.1 < clocks.2 then day else day + 1) clocks.2

def Falls (day : ℤ) (clocks : ℤ × ℤ) : Prop :=
  formatDate day ∉ spec.holidaySet ∧
    ∃ window ∈ spec.windows, weekday day = window.day ∧ window.clocks = some clocks

def InHours (time : Time) : Prop :=
  ∃ day clocks, Falls spec day clocks ∧
    (occurrence (spec.zone env) day clocks).Contains time

def Changes (time : Time) : Prop :=
  now < time ∧ ¬(InHours env spec time ↔ InHours env spec now)

/-- What `evaluate` answers is what the calendar says. -/
structure Means : Prop where
  active : (evaluate env (some spec) now).active = true ↔ InHours env spec now
  changes : ∀ time, (evaluate env (some spec) now).untilTime = some time →
    IsLeast {later | Changes env spec now later} time
  never : (evaluate env (some spec) now).untilTime = none →
    ∀ time, ¬Changes env spec now time

/-- A schedule that is on and was validated. -/
structure Valid : Prop where
  enabled : spec.enabled = true
  validated : validate env spec.timezone spec.windows spec.holidays = none

/-- Every answer for a schedule in use is what its calendar says. -/
def AlwaysMeans : Prop := ∀ spec now, Valid env spec → Means env spec now

def today : ℤ := (spec.zone env).day now

def LookedAt (day : ℤ) : Prop :=
  today env spec now - 2 ≤ day ∧ day ≤ today env spec now + 8

def Location.Shows (location : Location) (day clock : ℤ) : Prop :=
  ∃ time, location.day time = day ∧ location.clock time = clock

/-- The clock does not jump over the times that are used, nor back from the end to the start. -/
structure Regular : Prop where
  /-- The first day that is looked at is the one two days before. -/
  before : (spec.zone env).day ((spec.zone env).addDays now (-2)) =
    today env spec now - 2
  midnight : ∀ day, LookedAt env spec now day → (spec.zone env).Shows day 0
  finish : ∀ day clocks, LookedAt env spec now day → Falls spec day clocks →
    clocks.2 ≤ clocks.1 → (spec.zone env).Shows day clocks.2 ∧
      (spec.zone env).date day clocks.2 ≤ (spec.zone env).date day clocks.1
  proper : ∀ day clocks, LookedAt env spec now day → Falls spec day clocks →
    (occurrence (spec.zone env) day clocks).start <
      (occurrence (spec.zone env) day clocks).finish
  order : ∀ day clocks later laterClocks, LookedAt env spec now day →
    today env spec now + 8 < later → Falls spec day clocks →
      Falls spec later laterClocks →
        (occurrence (spec.zone env) day clocks).start ≤
          (occurrence (spec.zone env) later laterClocks).start

/--
The next change comes with a window of a day no later than eight days after today, or
enforcement is off for ever.
-/
def Foreseen : Prop :=
  (∃ time, IsLeast {later | Changes env spec now later} time ∧
    ∃ day clocks, day ≤ today env spec now + 8 ∧ Falls spec day clocks ∧
      (time = (occurrence (spec.zone env) day clocks).start ∨
        time = (occurrence (spec.zone env) day clocks).finish)) ∨
    ∀ time, now ≤ time → ¬InHours env spec time

variable {env} {spec} {now} {location : Location} {day clock : ℤ} {clocks : ℤ × ℤ}
  {interval : Interval} {time : Time}

theorem Location.Shows.date (shows : location.Shows day clock) :
    location.day (location.date day clock) = day ∧
      location.clock (location.date day clock) = clock := by
  rcases shows with ⟨time, rfl, rfl⟩
  have found := location.date_shows time
  simp only [day, Location.clock, wall] at found ⊢
  rw [found]
  exact ⟨rfl, rfl⟩

theorem Location.date_bounds (location : Location) (day : ℤ) {clock : ℤ} (first : 0 ≤ clock)
    (last : clock < dayLength) :
    (day - 1) * dayLength ≤ location.date day clock ∧
      location.date day clock < (day + 2) * dayLength := by
  rcases location.date_near day clock with ⟨near, -, nominal⟩
  have bounded := location.within_offset near
  generalize location.date day clock = found at nominal ⊢
  simp only [Within, dayLength, Time] at *
  omega

theorem Location.date_le_of_day_lt (earlier : day < location.day now - 1) (first : 0 ≤ clock)
    (last : clock < dayLength) : location.date day clock ≤ now := by
  rcases location.date_near day clock with ⟨near, isNear, nominal⟩
  have bounds := location.date_bounds day first last
  have bounded := location.within_offset now
  have shown : location.day now * dayLength ≤ now + location.offset now :=
    Int.ediv_mul_le _ (by decide)
  have steady := location.within_offsets near now
  generalize location.date day clock = found at *
  simp only [Within, dayLength, Time] at *
  by_contra future
  omega

theorem parseHM_bounds {text : List Char} (parsed : parseHM text = some clock) :
    0 ≤ clock ∧ clock < dayLength := by
  simp only [parseHM, bind, Option.bind_eq_some_iff] at parsed
  rcases parsed with ⟨minutes, -, hour, -, minute, -, parsed⟩
  split at parsed
  · cases parsed
  · cases parsed
    simp only [clockTime, dayLength]
    omega

theorem Falls.bounds (falls : Falls spec day clocks) :
    (0 ≤ clocks.1 ∧ clocks.1 < dayLength) ∧ 0 ≤ clocks.2 ∧ clocks.2 < dayLength := by
  rcases falls with ⟨-, window, -, -, isClocks⟩
  simp only [Window.clocks, bind, Option.bind_eq_some_iff] at isClocks
  rcases isClocks with ⟨start, isStart, finish, isFinish, isPair⟩
  cases isPair
  exact ⟨parseHM_bounds isStart, parseHM_bounds isFinish⟩

theorem Falls.past (falls : Falls spec day clocks) (earlier : day < today env spec now - 2) :
    (occurrence (spec.zone env) day clocks).start ≤ now ∧
      (occurrence (spec.zone env) day clocks).finish ≤ now := by
  rcases falls.bounds with ⟨⟨startFirst, startLast⟩, finishFirst, finishLast⟩
  constructor
  · apply Location.date_le_of_day_lt _ startFirst startLast
    simp only [today] at earlier
    omega
  · apply Location.date_le_of_day_lt _ finishFirst finishLast
    simp only [today] at earlier
    split <;> omega

theorem Falls.ahead (falls : Falls spec day clocks) (later : today env spec now + 8 < day) :
    now < (occurrence (spec.zone env) day clocks).start := by
  rcases falls.bounds.1 with ⟨first, last⟩
  have bounds := (spec.zone env).date_bounds day first last
  have bounded := (spec.zone env).within_offset now
  have shown : now + (spec.zone env).offset now <
      ((spec.zone env).day now + 1) * dayLength :=
    Int.lt_ediv_add_one_mul_self ((spec.zone env).wall now) (by decide)
  simp only [occurrence, today] at *
  generalize (spec.zone env).date day clocks.1 = found at *
  generalize (spec.zone env).day now = present at *
  simp only [Within, dayLength, Time] at *
  omega

theorem Regular.day_addDays (regular : Regular env spec now) {index : ℕ} (inside : index < 11) :
    (spec.zone env).day ((spec.zone env).addDays
      ((spec.zone env).date ((spec.zone env).day
        ((spec.zone env).addDays now (-2))) 0) index) =
      today env spec now - 2 + index := by
  have first := (regular.midnight (today env spec now - 2) ⟨by omega, by omega⟩).date
  have current := (regular.midnight (today env spec now - 2 + index)
    ⟨by omega, by omega⟩).date
  rw [regular.before, Location.addDays, first.1, first.2, current.1]

theorem Regular.on_eq_some_iff (regular : Regular env spec now)
    (looked : LookedAt env spec now day)
    (workday : formatDate day ∉ spec.holidaySet) {window : Window}
    (windowMem : window ∈ spec.windows) :
    window.on (spec.zone env) day = some interval ↔
      ∃ clocks, weekday day = window.day ∧ window.clocks = some clocks ∧
        interval = occurrence (spec.zone env) day clocks := by
  have same : ∀ clocks, weekday day = window.day → window.clocks = some clocks →
      (⟨(spec.zone env).date day clocks.1,
        if (spec.zone env).date day clocks.1 < (spec.zone env).date day clocks.2 then
          (spec.zone env).date day clocks.2
        else (spec.zone env).addDays ((spec.zone env).date day clocks.2) 1⟩ :
          Interval) = occurrence (spec.zone env) day clocks := by
    intro clocks isDay isClocks
    have falls : Falls spec day clocks := ⟨workday, window, windowMem, isDay, isClocks⟩
    have proper := regular.proper day clocks looked falls
    simp only [occurrence] at proper ⊢
    by_cases sameDay : clocks.1 < clocks.2
    · rw [if_pos sameDay] at proper ⊢
      rw [if_pos proper]
    · rcases regular.finish day clocks looked falls (Int.not_lt.mp sameDay) with ⟨shown, past⟩
      rw [if_neg sameDay, if_neg past.not_gt, Location.addDays, shown.date.1, shown.date.2]
  constructor
  · intro isInterval
    rw [Window.on] at isInterval
    split at isInterval
    · cases isInterval
    · rename_i isDay
      simp only [bind, Option.bind_eq_some_iff] at isInterval
      rcases isInterval with ⟨start, isStart, finish, isFinish, isInterval⟩
      cases isInterval
      have isClocks : window.clocks = some (start, finish) := by
        simp [Window.clocks, isStart, isFinish]
      exact ⟨(start, finish), not_ne_iff.mp isDay, isClocks, same _ (not_ne_iff.mp isDay) isClocks⟩
  · rintro ⟨clocks, isDay, isClocks, rfl⟩
    rw [← same clocks isDay isClocks, Window.on, if_neg (not_ne_iff.mpr isDay)]
    simp only [Window.clocks, bind, Option.bind_eq_some_iff] at isClocks
    rcases isClocks with ⟨start, isStart, finish, isFinish, isPair⟩
    cases isPair
    simp [isStart, isFinish]

theorem Regular.mem_intervals (regular : Regular env spec now) :
    interval ∈ spec.intervals env now ↔
      ∃ day clocks, LookedAt env spec now day ∧ Falls spec day clocks ∧
        interval = occurrence (spec.zone env) day clocks := by
  simp only [Spec.intervals, expand, List.mem_flatMap, List.mem_range]
  constructor
  · rintro ⟨index, inside, intervalMem⟩
    rw [regular.day_addDays inside] at intervalMem
    have looked : LookedAt env spec now (today env spec now - 2 + index) :=
      ⟨by omega, by omega⟩
    split at intervalMem
    · cases intervalMem
    · rename_i workday
      rcases List.mem_filterMap.mp intervalMem with ⟨window, windowMem, isInterval⟩
      rcases (regular.on_eq_some_iff looked workday windowMem).mp isInterval with
        ⟨clocks, isDay, isClocks, rfl⟩
      exact ⟨_, clocks, looked, ⟨workday, window, windowMem, isDay, isClocks⟩, rfl⟩
  · rintro ⟨day, clocks, looked, ⟨workday, window, windowMem, isDay, isClocks⟩, rfl⟩
    rcases Int.eq_ofNat_of_zero_le (Int.sub_nonneg_of_le looked.1) with ⟨index, isIndex⟩
    have inside : index < 11 := by
      have last := looked.2
      omega
    have isDate : today env spec now - 2 + index = day := by omega
    refine ⟨index, inside, ?_⟩
    rw [regular.day_addDays inside, isDate, if_neg workday]
    apply List.mem_filterMap.mpr
    refine ⟨window, windowMem, (regular.on_eq_some_iff looked workday windowMem).mpr ?_⟩
    exact ⟨clocks, isDay, isClocks, rfl⟩

variable {intervals : List Interval}

theorem merge_eq (env : Primitives) (intervals : List Interval) : merge env intervals = intervals ∧
      intervals.length < 2 ∨
    ∃ first rest, merge env intervals = collapse first rest ∧ Sorted (first :: rest) ∧
      (first :: rest).Perm intervals := by
  rw [merge]
  split
  · rename_i short
    exact .inl ⟨rfl, short⟩
  · rename_i long
    right
    have perm := env.sortByStart_perm intervals
    have sorted := env.sorted_sortByStart intervals
    split
    · rename_i empty
      rw [empty] at perm
      rw [← perm.length_eq] at long
      exact absurd (by decide) long
    · rename_i first rest isSorted
      rw [isSorted] at perm sorted
      exact ⟨first, rest, rfl, sorted, perm⟩

theorem covered_merge : Covered (merge env intervals) time ↔ Covered intervals time := by
  rcases merge_eq env intervals with ⟨isSame, -⟩ | ⟨first, rest, isMerge, sorted, perm⟩
  · rw [isSame]
  · rw [isMerge, covered_collapse sorted]
    simp only [Covered, perm.mem_iff]

theorem separated_merge : Separated (merge env intervals) := by
  rcases merge_eq env intervals with
    ⟨isSame, short⟩ | ⟨first, rest, isMerge, sorted, -⟩
  · rw [isSame]
    rcases intervals with _ | ⟨first, _ | ⟨second, rest⟩⟩
    · exact List.Pairwise.nil
    · exact List.pairwise_singleton _ _
    · simp only [List.length_cons] at short
      omega
  · rw [isMerge]
    exact separated_collapse sorted

theorem proper_merge (proper : Proper intervals) : Proper (merge env intervals) := by
  rcases merge_eq env intervals with ⟨isSame, -⟩ | ⟨first, rest, isMerge, -, perm⟩
  · rw [isSame]
    exact proper
  · rw [isMerge]
    apply proper_collapse
    intro interval intervalMem
    exact proper interval (perm.mem_iff.mp intervalMem)

theorem exists_ends_of_mem_merge (intervalMem : interval ∈ merge env intervals) :
    (∃ first ∈ intervals, first.start = interval.start) ∧
      ∃ second ∈ intervals, second.finish = interval.finish := by
  rcases merge_eq env intervals with ⟨isSame, -⟩ | ⟨first, rest, isMerge, -, perm⟩
  · rw [isSame] at intervalMem
    exact ⟨⟨interval, intervalMem, rfl⟩, ⟨interval, intervalMem, rfl⟩⟩
  · rw [isMerge] at intervalMem
    rcases exists_ends_of_mem_collapse intervalMem with
      ⟨⟨first, firstMem, isStart⟩, ⟨second, secondMem, isFinish⟩⟩
    exact ⟨⟨first, perm.mem_iff.mp firstMem, isStart⟩, ⟨second, perm.mem_iff.mp secondMem, isFinish⟩⟩

theorem Valid.windows_ne_nil (valid : Valid env spec) : spec.windows.isEmpty = false := by
  have validated := valid.validated
  rw [validate] at validated
  split at validated
  · cases validated
  · split at validated
    · cases validated
    · rename_i nonempty
      exact Bool.eq_false_iff.mpr nonempty

theorem Valid.evaluate_of_some (valid : Valid env spec)
    (found : (merge env (spec.intervals env now)).find?
      (fun interval => interval.Contains now) = some interval) :
    (evaluate env (some spec) now).active = true ∧
      (evaluate env (some spec) now).untilTime = some interval.finish := by
  simp [evaluate, valid.enabled, valid.windows_ne_nil, found]

theorem Valid.evaluate_of_none (valid : Valid env spec)
    (notFound : (merge env (spec.intervals env now)).find?
      (fun interval => interval.Contains now) = none) :
    (evaluate env (some spec) now).active = false ∧
      (evaluate env (some spec) now).untilTime =
        ((merge env (spec.intervals env now)).find?
          fun interval => now < interval.start).map Intervals.Interval.start := by
  simp only [evaluate, valid.enabled, valid.windows_ne_nil, Bool.not_true, Bool.or_self,
    Bool.false_eq_true, if_false, notFound]
  split
  · rename_i isNext
    rw [isNext]
    exact ⟨rfl, rfl⟩
  · rename_i noNext
    rw [noNext]
    exact ⟨rfl, rfl⟩

section

variable (regular : Regular env spec now)

include regular

theorem Regular.proper_intervals :
    Proper (spec.intervals env now) := by
  intro interval intervalMem
  rcases regular.mem_intervals.mp intervalMem with ⟨day, clocks, looked, falls, rfl⟩
  exact regular.proper day clocks looked falls

theorem Regular.inHours_of_covered
    (covered : Covered (spec.intervals env now) time) : InHours env spec time := by
  rcases covered with ⟨interval, intervalMem, contains⟩
  rcases regular.mem_intervals.mp intervalMem with ⟨day, clocks, -, falls, rfl⟩
  exact ⟨day, clocks, falls, contains⟩

theorem Regular.covered_or_later (notPast : now ≤ time) (inHours : InHours env spec time) :
    Covered (spec.intervals env now) time ∨
      ∃ day clocks, today env spec now + 8 < day ∧ Falls spec day clocks ∧
        (occurrence (spec.zone env) day clocks).start ≤ time := by
  rcases inHours with ⟨day, clocks, falls, contains⟩
  by_cases late : today env spec now + 8 < day
  · right
    exact ⟨day, clocks, late, falls, contains.1⟩
  · left
    by_cases early : day < today env spec now - 2
    · exact absurd (contains.2.trans_le (falls.past early).2) notPast.not_gt
    · refine ⟨_, regular.mem_intervals.mpr ⟨day, clocks, ⟨?_, ?_⟩, falls, rfl⟩, contains⟩
      · exact Int.not_lt.mp early
      · exact Int.not_lt.mp late

theorem Regular.inHours_now_iff :
    InHours env spec now ↔ Covered (spec.intervals env now) now := by
  constructor
  · intro inHours
    rcases regular.covered_or_later le_rfl inHours with covered | ⟨day, clocks, late, falls, started⟩
    · exact covered
    · exact absurd started (falls.ahead late).not_ge
  · exact regular.inHours_of_covered

theorem Regular.lookedAt_of_finish
    (falls : Falls spec day clocks) (inTime : day ≤ today env spec now + 8)
    (notOver : now < (occurrence (spec.zone env) day clocks).start ∨
      now < (occurrence (spec.zone env) day clocks).finish) :
    occurrence (spec.zone env) day clocks ∈ spec.intervals env now := by
  refine regular.mem_intervals.mpr ⟨day, clocks, ⟨?_, inTime⟩, falls, rfl⟩
  by_contra early
  rcases falls.past (Int.not_le.mp early) with ⟨started, finished⟩
  rcases notOver with future | future
  · exact absurd started future.not_ge
  · exact absurd finished future.not_ge

end

/-- The end that is found is the end of hours, provided these end with a window that is looked at. -/
theorem Regular.isLeast_of_foreseen (regular : Regular env spec now)
    (foreseen : Foreseen env spec now)
    (intervalMem : interval ∈ merge env (spec.intervals env now))
    (contains : interval.Contains now) :
    IsLeast {later | Changes env spec now later} interval.finish := by
  have inHours : InHours env spec now :=
    regular.inHours_now_iff.mpr (covered_merge.mp ⟨interval, intervalMem, contains⟩)
  have leaves := separated_merge.isLeast_finish intervalMem contains
  rcases foreseen with ⟨time, least, day, clocks, inTime, falls, isEnd⟩ | off
  · have outside : ¬InHours env spec time := fun isIn =>
      least.1.2 (iff_of_true isIn inHours)
    have isFinish : time = (occurrence (spec.zone env) day clocks).finish := by
      rcases isEnd with isStart | isFinish
      · have looked := regular.lookedAt_of_finish falls inTime (.inl (isStart ▸ least.1.1))
        refine absurd ⟨day, clocks, falls, isStart.ge, ?_⟩ outside
        exact isStart ▸ regular.proper_intervals _ looked
      · exact isFinish
    have looked := regular.lookedAt_of_finish falls inTime (.inr (isFinish ▸ least.1.1))
    have finishLe : interval.finish ≤ time := by
      apply leaves.2
      exact ⟨least.1.1, fun covered => outside (regular.inHours_of_covered (covered_merge.mp covered))⟩
    rcases finishLe.lt_or_eq with earlier | isSame
    · -- then a later day's window would have started before this one
      have stillIn : InHours env spec interval.finish := by
        by_contra isOut
        exact (least.2 ⟨leaves.1.1, fun same => isOut (same.mpr inHours)⟩).not_gt earlier
      rcases regular.covered_or_later leaves.1.1.le stillIn with covered | ⟨later, laterClocks, late, laterFalls, started⟩
      · exact absurd (covered_merge.mpr covered) leaves.1.2
      · have lookedDay : LookedAt env spec now day := by
          refine ⟨?_, inTime⟩
          by_contra early
          exact absurd (falls.past (Int.not_le.mp early)).2 (isFinish ▸ least.1.1).not_ge
        have startLe := (regular.order day clocks later laterClocks lookedDay late falls laterFalls).trans
          started
        refine absurd (covered_merge.mpr ⟨_, looked, startLe, ?_⟩) leaves.1.2
        exact isFinish ▸ earlier
    · rw [isSame]
      exact least
  · exact absurd inHours (off now le_rfl)

theorem Regular.foreseen_of_finish (regular : Regular env spec now)
    (intervalMem : interval ∈ merge env (spec.intervals env now))
    (least : IsLeast {later | Changes env spec now later} interval.finish) :
    Foreseen env spec now := by
  left
  rcases (exists_ends_of_mem_merge intervalMem).2 with ⟨second, secondMem, isFinish⟩
  rcases regular.mem_intervals.mp secondMem with ⟨day, clocks, looked, falls, rfl⟩
  exact ⟨_, least, day, clocks, looked.2, falls, .inr isFinish.symm⟩

section

variable (regular : Regular env spec now)

include regular

section

variable (outside : ¬InHours env spec now)

include outside

/-- When hours next begin with a window that is looked at, it covers that instant. -/
theorem Regular.covered_of_isLeast
    (least : IsLeast {later | Changes env spec now later} time)
    (falls : Falls spec day clocks) (inTime : day ≤ today env spec now + 8)
    (isEnd : time = (occurrence (spec.zone env) day clocks).start ∨
      time = (occurrence (spec.zone env) day clocks).finish) :
    Covered (spec.intervals env now) time := by
  rcases isEnd with isStart | isFinish
  · have looked := regular.lookedAt_of_finish falls inTime (.inl (isStart ▸ least.1.1))
    exact ⟨_, looked, isStart.ge, isStart ▸ regular.proper_intervals _ looked⟩
  · -- hours would have begun with the start of that window
    have looked := regular.lookedAt_of_finish falls inTime (.inr (isFinish ▸ least.1.1))
    have proper := regular.proper_intervals _ looked
    have future : now < (occurrence (spec.zone env) day clocks).start := by
      by_contra started
      apply outside
      exact ⟨day, clocks, falls, Int.not_lt.mp started, isFinish ▸ least.1.1⟩
    have begins : Changes env spec now (occurrence (spec.zone env) day clocks).start :=
      ⟨future, fun same => outside (same.mp ⟨day, clocks, falls, le_rfl, proper⟩)⟩
    exact absurd (isFinish ▸ proper) (least.2 begins).not_gt

theorem Regular.not_covered :
    ¬Covered (merge env (spec.intervals env now)) now := fun covered =>
  outside (regular.inHours_of_covered (covered_merge.mp covered))

theorem Regular.isLeast_start_of_foreseen (foreseen : Foreseen env spec now)
    (found : (merge env (spec.intervals env now)).find?
      (fun interval => now < interval.start) = some interval) :
    IsLeast {later | Changes env spec now later} interval.start := by
  have comes := separated_merge.isLeast_start (proper_merge regular.proper_intervals)
    (regular.not_covered outside) found
  have comesIn : InHours env spec interval.start :=
    regular.inHours_of_covered (covered_merge.mp comes.1.2)
  rcases foreseen with ⟨time, least, day, clocks, inTime, falls, isEnd⟩ | off
  · have covered := regular.covered_of_isLeast outside least falls inTime isEnd
    have startLe := comes.2 ⟨least.1.1, covered_merge.mpr covered⟩
    have leStart := least.2 ⟨comes.1.1, fun same => outside (same.mp comesIn)⟩
    rw [le_antisymm startLe leStart]
    exact least
  · exact absurd comesIn (off _ comes.1.1.le)

theorem Regular.not_inHours_of_foreseen (foreseen : Foreseen env spec now)
    (noNext : (merge env (spec.intervals env now)).find?
      (fun interval => now < interval.start) = none) (notPast : now ≤ time) :
    ¬InHours env spec time := by
  rcases foreseen with ⟨first, least, day, clocks, inTime, falls, isEnd⟩ | off
  · have covered := regular.covered_of_isLeast outside least falls inTime isEnd
    exact absurd (covered_merge.mpr covered)
      (not_covered_of_find?_eq_none (regular.not_covered outside) noNext least.1.1)
  · exact off time notPast

end

end

/-- `evaluate` says what the calendar says exactly when the next change is foreseen. -/
theorem means_iff (valid : Valid env spec) (regular : Regular env spec now) :
    Means env spec now ↔ Foreseen env spec now := by
  cases found : (merge env (spec.intervals env now)).find?
      (fun interval => interval.Contains now) with
  | some interval =>
    rcases valid.evaluate_of_some found with ⟨isActive, isUntil⟩
    have intervalMem := List.mem_of_find?_eq_some found
    have isIn := List.find?_some found
    have contains : interval.Contains now := of_decide_eq_true isIn
    have inHours : InHours env spec now :=
      regular.inHours_now_iff.mpr (covered_merge.mp ⟨interval, intervalMem, contains⟩)
    constructor
    · intro isMeant
      exact regular.foreseen_of_finish intervalMem (isMeant.changes _ isUntil)
    · intro foreseen
      refine ⟨iff_of_true isActive inHours, ?_, ?_⟩
      · intro time isTime
        cases isUntil.symm.trans isTime
        exact regular.isLeast_of_foreseen foreseen intervalMem contains
      · intro noTime
        cases isUntil.symm.trans noTime
  | none =>
    rcases valid.evaluate_of_none found with ⟨isPaused, isUntil⟩
    have outside : ¬InHours env spec now := by
      intro inHours
      rcases covered_merge.mpr (regular.inHours_now_iff.mp inHours) with
        ⟨interval, intervalMem, contains⟩
      exact List.find?_eq_none.mp found interval intervalMem (decide_eq_true contains)
    cases next : (merge env (spec.intervals env now)).find?
        (fun interval => now < interval.start) with
    | some interval =>
      rw [next] at isUntil
      constructor
      · intro isMeant
        left
        rcases (exists_ends_of_mem_merge (List.mem_of_find?_eq_some next)).1 with
          ⟨first, firstMem, isStart⟩
        rcases regular.mem_intervals.mp firstMem with ⟨day, clocks, looked, falls, rfl⟩
        exact ⟨_, isMeant.changes _ isUntil, day, clocks, looked.2, falls, .inl isStart.symm⟩
      · intro foreseen
        refine ⟨iff_of_false (by rw [isPaused]; decide) outside, ?_, ?_⟩
        · intro time isTime
          cases isUntil.symm.trans isTime
          exact regular.isLeast_start_of_foreseen outside foreseen next
        · intro noTime
          cases isUntil.symm.trans noTime
    | none =>
      rw [next] at isUntil
      constructor
      · intro isMeant
        right
        intro time notPast inHours
        rcases notPast.lt_or_eq with later | rfl
        · exact isMeant.never isUntil time ⟨later, fun same => outside (same.mp inHours)⟩
        · exact outside inHours
      · intro foreseen
        refine ⟨iff_of_false (by rw [isPaused]; decide) outside, ?_, ?_⟩
        · intro time isTime
          cases isUntil.symm.trans isTime
        · rintro - time ⟨later, change⟩
          apply change
          exact iff_of_false (regular.not_inHours_of_foreseen outside foreseen next later.le) outside

variable {offset : ℤ} {bounded : Within dayLength offset 0} {name : String}

theorem Location.shows_fixed (first : 0 ≤ clock) (last : clock < dayLength) :
    (Location.fixed offset bounded name).Shows day clock := by
  refine ⟨(Location.fixed offset bounded name).date day clock, ?_, ?_⟩
  · simp only [Location.day, wall, fixed, Int.sub_add_cancel]
    rw [Int.add_comm, Int.add_mul_ediv_right _ _ (by decide), Int.ediv_eq_zero_of_lt first last,
      Int.zero_add]
  · simp only [Location.clock, wall, fixed, Int.sub_add_cancel]
    rw [Int.add_comm, Int.add_mul_emod_self_right, Int.emod_eq_of_lt first last]

theorem regular_of_fixed (isFixed : spec.zone env = .fixed offset bounded name) :
    Regular env spec now where
  before := by
    have shows : (spec.zone env).Shows (today env spec now - 2)
        ((spec.zone env).clock now) := by
      rw [isFixed]
      exact Location.shows_fixed (Int.emod_nonneg _ (by decide)) (Int.emod_lt_of_pos _ (by decide))
    exact shows.date.1
  midnight day _ := by
    rw [isFixed]
    exact Location.shows_fixed le_rfl (by decide)
  finish day clocks _ falls overnight := by
    rw [isFixed]
    refine ⟨Location.shows_fixed falls.bounds.2.1 falls.bounds.2.2, ?_⟩
    simp only [Location.fixed, Time]
    omega
  proper day clocks _ falls := by
    have bounds := falls.bounds
    rw [isFixed]
    simp only [occurrence, Location.fixed, dayLength, Time] at bounds ⊢
    split <;> omega
  order day clocks later laterClocks looked late falls laterFalls := by
    have bounds := falls.bounds
    have laterBounds := laterFalls.bounds
    have inTime := looked.2
    rw [isFixed]
    simp only [occurrence, Location.fixed, dayLength, Time] at bounds laterBounds ⊢
    omega

def startsFirst (first second : Interval) : Prop := first.start ≤ second.start

instance : DecidableRel startsFirst := fun first second =>
  inferInstanceAs (Decidable (first.start ≤ second.start))

instance : Std.Total startsFirst := ⟨fun first second => le_total first.start second.start⟩

instance : IsTrans Interval startsFirst := ⟨fun _ _ _ => le_trans⟩

def onlyUTC : Primitives where
  loadLocation name := if name = "UTC" then some .utc else none
  sortByStart := List.insertionSort startsFirst
  sortByStart_perm := List.perm_insertionSort _
  sorted_sortByStart := List.pairwise_insertionSort startsFirst

def monday : ℤ := 739830

def mondays (holidays : List String) : Spec where
  timezone := "UTC"
  windows := [⟨1, "09:00".toList, "17:00".toList⟩]
  holidays := holidays.map String.toList
  offHoursMode := "full_pause"
  enabled := true
  source := "org"

theorem valid_mondays : Valid onlyUTC (mondays []) := ⟨rfl, by decide⟩

theorem valid_mondays_holiday : Valid onlyUTC (mondays ["2026-08-10"]) := ⟨rfl, by decide⟩

def nine : ℤ := clockTime 9 0

def five : ℤ := clockTime 17 0

theorem falls_mondays {holidays : List String} (isMonday : weekday day = 1)
    (workday : formatDate day ∉ (mondays holidays).holidaySet) :
    Falls (mondays holidays) day (nine, five) :=
  ⟨workday, ⟨1, "09:00".toList, "17:00".toList⟩, List.mem_singleton_self _, isMonday, by decide⟩

theorem clocks_of_falls {holidays : List String} (falls : Falls (mondays holidays) day clocks) :
    clocks = (nine, five) := by
  rcases falls with ⟨-, window, windowMem, -, isClocks⟩
  rw [List.mem_singleton.mp windowMem] at isClocks
  have parsed : Window.clocks ⟨1, "09:00".toList, "17:00".toList⟩ = some (nine, five) := by decide
  exact Option.some.inj (isClocks.symm.trans parsed)

/-- On a Monday at ten, hours end at five. -/
theorem monday_means : Means onlyUTC (mondays []) (Location.utc.date monday (clockTime 10 0)) := by
  have falls : Falls (mondays []) monday (nine, five) := falls_mondays (by decide) (by decide)
  have inHours : InHours onlyUTC (mondays []) (Location.utc.date monday (clockTime 10 0)) :=
    ⟨monday, (nine, five), falls, by decide⟩
  refine (means_iff valid_mondays (regular_of_fixed rfl)).mpr (.inl ?_)
  refine ⟨Location.utc.date monday five, ⟨⟨by decide, fun same => ?_⟩, ?_⟩, monday, (nine, five), ?_⟩
  · rcases same.mpr inHours with ⟨day, clocks, otherFalls, started, unfinished⟩
    cases clocks_of_falls otherFalls
    have startLe : day * 86400000000000 + 32400000000000 - 0 ≤
      739830 * 86400000000000 + 61200000000000 - (0 : ℤ) := started
    have ltFinish : 739830 * 86400000000000 + 61200000000000 - (0 : ℤ) <
      day * 86400000000000 + 61200000000000 - 0 := unfinished
    omega
  · rintro time ⟨later, change⟩
    by_contra early
    apply change
    refine iff_of_true ⟨monday, (nine, five), falls, ?_, Int.not_le.mp early⟩ inHours
    exact le_trans (by decide) later.le
  · exact ⟨by decide, falls, .inr rfl⟩

/-- After a Monday before a holiday, hours begin again, and the answer says never. -/
theorem not_alwaysMeans : ¬AlwaysMeans onlyUTC := by
  intro always
  have isMeant := always (mondays ["2026-08-10"]) (Location.utc.date monday (clockTime 18 0))
    valid_mondays_holiday
  have noUntil : (evaluate onlyUTC (some (mondays ["2026-08-10"]))
      (Location.utc.date monday (clockTime 18 0))).untilTime = none := by decide
  have isPaused : (evaluate onlyUTC (some (mondays ["2026-08-10"]))
      (Location.utc.date monday (clockTime 18 0))).active = false := by decide
  apply isMeant.never noUntil (Location.utc.date (monday + 14) nine)
  refine ⟨by decide, fun same => ?_⟩
  have inHours : InHours onlyUTC (mondays ["2026-08-10"]) (Location.utc.date (monday + 14) nine) :=
    ⟨monday + 14, (nine, five), falls_mondays (by decide) (by decide), by decide⟩
  have active := isMeant.active.mpr (same.mp inHours)
  rw [isPaused] at active
  cases active

end Aavishield.Schedule
