import Aavishield.Basic
import Aavishield.Lib.Intervals
import Aavishield.Lib.Text

/-!
# Working hours

A device enforces during the windows of its schedule.  `evaluate` says whether it does at an
instant and until when, from the windows of some days around the instant.
-/

namespace Aavishield.Schedule

open Intervals Text

def dayLength : ℤ := 86400000000000

def Within (distance first second : ℤ) : Prop :=
  first - second ≤ distance ∧ second - first ≤ distance

/--
A time zone.  Its clock shows, at an instant, the day (counted from that of Go's zero time)
and the nanoseconds since midnight.
-/
structure Location where
  offset : Time → ℤ
  /-- `time.Date`: when the clock shows a time of a day. -/
  date : ℤ → ℤ → Time
  zoneName : Time → String
  within_offset : ∀ time, Within dayLength (offset time) 0
  within_offsets : ∀ time other, Within (4 * dayLength) time other →
    Within dayLength (offset time) (offset other)
  /-- The instant is right by the clock of one of the zones in use around it. -/
  date_near : ∀ day clock, ∃ near, Within (2 * dayLength) near (date day clock) ∧
    date day clock + offset near = day * dayLength + clock
  date_shows : ∀ time, let wall := time + offset time
    let found := date (wall / dayLength) (wall % dayLength)
    found + offset found = wall

variable (location : Location)

def Location.wall (time : Time) : ℤ := time + location.offset time

def Location.day (time : Time) : ℤ := location.wall time / dayLength

def Location.clock (time : Time) : ℤ := location.wall time % dayLength

def Location.addDays (time : Time) (days : ℤ) : Time :=
  location.date (location.day time + days) (location.clock time)

def weekday (day : ℤ) : ℤ := (day + 1) % 7

def Location.fixed (offset : ℤ) (bounded : Within dayLength offset 0) (name : String) : Location where
  offset _ := offset
  date day clock := day * dayLength + clock - offset
  zoneName _ := name
  within_offset _ := bounded
  within_offsets _ _ _ := by
    constructor <;> simp [dayLength]
  date_near day clock := by
    refine ⟨day * dayLength + clock - offset, ?_, Int.sub_add_cancel _ _⟩
    constructor <;> simp [dayLength]
  date_shows time := by
    simp only [Int.sub_add_cancel]
    exact Int.ediv_mul_add_emod _ _

def Location.utc : Location := .fixed 0 (by constructor <;> decide) "UTC"

structure Window where
  day : ℤ
  start : List Char
  finish : List Char

/-- A schedule with its fallback mode. -/
structure Spec where
  timezone : String
  windows : List Window
  holidays : List (List Char)
  offHoursMode : String
  enabled : Bool
  source : String

structure State where
  active : Bool
  mode : String
  reason : String
  untilTime : Option Time
  source : String
  timezone : String

abbrev Interval := Intervals.Interval Time

structure Primitives where
  loadLocation : String → Option Location
  /-- `sort.Slice` by the starts. -/
  sortByStart : List Interval → List Interval
  sortByStart_perm : ∀ intervals, (sortByStart intervals).Perm intervals
  sorted_sortByStart : ∀ intervals, Sorted (sortByStart intervals)

variable (env : Primitives)

/-- `strconv.Atoi`, but for the numbers that are too large, which are no hours anyway. -/
def atoi (text : List Char) : Option ℤ :=
  let digits := match text with
    | '-' :: rest => rest
    | '+' :: rest => rest
    | _ => text
  let number : ℤ := digits.foldl (fun number digit => 10 * number + (digit.toNat - 48)) 0
  if digits ≠ [] ∧ digits.all Char.isDigit then
    some (if text.head? = some '-' then -number else number)
  else none

def clockTime (hour minute : ℤ) : ℤ := (60 * hour + minute) * 60000000000

def parseHM (text : List Char) : Option ℤ := do
  let text := trimSpace text
  let minutes ← afterFirst [':'] text
  let hour ← atoi (text.takeWhile (· ≠ ':'))
  let minute ← atoi minutes
  if hour < 0 ∨ hour > 23 ∨ minute < 0 ∨ minute > 59 then none
  else some (clockTime hour minute)

def twoDigits (number : ℤ) : String :=
  if number < 10 then "0" ++ toString number else toString number

def formatClock (clock : ℤ) : String :=
  twoDigits (clock / 3600000000000) ++ ":" ++ twoDigits (clock / 60000000000 % 60)

def formatWeekday (day : ℤ) : String :=
  ["Sun", "Mon", "Tue", "Wed", "Thu", "Fri", "Sat"].getD (weekday day).toNat ""

def civilDate (day : ℤ) : ℤ × ℤ × ℤ :=
  let sinceMarch := day + 306
  let ofCycle := sinceMarch % 146097
  let year := (ofCycle - ofCycle / 1460 + ofCycle / 36524 - ofCycle / 146096) / 365
  let ofYear := ofCycle - (365 * year + year / 4 - year / 100)
  let month := (5 * ofYear + 2) / 153
  let ofMonth := ofYear - (153 * month + 2) / 5 + 1
  if month < 10 then (sinceMarch / 146097 * 400 + year, month + 3, ofMonth)
  else (sinceMarch / 146097 * 400 + year + 1, month - 9, ofMonth)

def formatDate (day : ℤ) : List Char :=
  let date := civilDate day
  let year := (toString date.1).toList
  List.replicate (4 - year.length) '0' ++ year ++ '-' :: (twoDigits date.2.1).toList ++
    '-' :: (twoDigits date.2.2).toList

def daysIn (year month : ℤ) : ℤ :=
  if month = 2 then if year % 4 = 0 ∧ (year % 100 ≠ 0 ∨ year % 400 = 0) then 29 else 28
  else if month ∈ [4, 6, 9, 11] then 30
  else 31

/-- Whether `time.Parse` reads the text by the layout `2006-01-02`. -/
def isDate (text : List Char) : Bool :=
  match text with
  | [y₁, y₂, y₃, y₄, '-', m₁, m₂, '-', d₁, d₂] =>
    [y₁, y₂, y₃, y₄, m₁, m₂, d₁, d₂].all Char.isDigit &&
      ((atoi [y₁, y₂, y₃, y₄]).bind fun year => (atoi [m₁, m₂]).bind fun month =>
        (atoi [d₁, d₂]).map fun day =>
          decide (1 ≤ month ∧ month ≤ 12 ∧ 1 ≤ day ∧ day ≤ daysIn year month)).getD false
  | _ => false

def Window.on (window : Window) (day : ℤ) : Option Interval :=
  if weekday day ≠ window.day then none
  else do
    let startClock ← parseHM window.start
    let finishClock ← parseHM window.finish
    let start := location.date day startClock
    let finish := location.date day finishClock
    -- a window that has not ended after its start crosses midnight
    some ⟨start, if start < finish then finish else location.addDays finish 1⟩

def expand (windows : List Window) (holidays : List (List Char)) (since : Time) (days : ℕ) :
    List Interval :=
  let first := location.date (location.day since) 0
  (List.range days).flatMap fun (index : ℕ) =>
    let day := location.day (location.addDays first index)
    if formatDate day ∈ holidays then []
    else windows.filterMap fun window => window.on location day

def merge (intervals : List Interval) : List Interval :=
  if intervals.length < 2 then intervals
  else match env.sortByStart intervals with
    | [] => []
    | first :: rest => collapse first rest

def Spec.holidaySet (spec : Spec) : List (List Char) :=
  (spec.holidays.map trimSpace).filter (· ≠ [])

def Spec.zone (spec : Spec) : Location :=
  (env.loadLocation spec.timezone).getD .utc

/-- The intervals around an instant that `evaluate` looks at. -/
def Spec.intervals (spec : Spec) (now : Time) : List Interval :=
  let location := spec.zone env
  expand location spec.windows spec.holidaySet (location.addDays now (-2)) 11

def evaluate (spec : Option Spec) (now : Time) : State :=
  match spec with
  | none => ⟨true, "full", "No working-hours schedule — enforcing continuously", none, "", ""⟩
  | some spec =>
    if !spec.enabled || spec.windows.isEmpty then
      ⟨true, "full", "No working-hours schedule — enforcing continuously", none, "", ""⟩
    else
      let location := spec.zone env
      let intervals := merge env (spec.intervals env now)
      match intervals.find? fun interval => interval.Contains now with
      | some interval =>
        { active := true
          mode := "full"
          reason := "Within working hours (until " ++ formatClock (location.clock interval.finish) ++
            " " ++ location.zoneName interval.finish ++ ")"
          untilTime := some interval.finish
          source := spec.source
          timezone := spec.timezone }
      | none =>
        let mode := if spec.offHoursMode = "security_only" then "security_only" else "paused"
        let reason :=
          if spec.offHoursMode = "security_only" then
            "Outside working hours — malware protection only, no monitoring"
          else "Outside working hours — monitoring paused"
        match intervals.find? fun interval => now < interval.start with
        | some interval =>
          { active := false
            mode := mode
            reason := reason ++ " until " ++ formatWeekday (location.day interval.start) ++ " " ++
              formatClock (location.clock interval.start)
            untilTime := some interval.start
            source := spec.source
            timezone := spec.timezone }
        | none => ⟨false, mode, reason, none, spec.source, spec.timezone⟩

def validate (timezone : String) (windows : List Window) (holidays : List (List Char)) :
    Option String :=
  let windowError (window : Window) : Option String :=
    if window.day < 0 ∨ window.day > 6 then
      some ("day must be 0 (Sunday) to 6 (Saturday), got " ++ toString window.day)
    else if parseHM window.start = none then
      some ("invalid start time " ++ (String.ofList window.start).quote ++ " — use HH:MM")
    else if parseHM window.finish = none then
      some ("invalid end time " ++ (String.ofList window.finish).quote ++ " — use HH:MM")
    else none
  let holidayError (holiday : List Char) : Option String :=
    let holiday := trimSpace holiday
    if holiday = [] ∨ isDate holiday then none
    else some ("invalid holiday " ++ (String.ofList holiday).quote ++ " — use YYYY-MM-DD")
  if (env.loadLocation timezone).isNone then some ("unknown timezone " ++ timezone.quote)
  else if windows.isEmpty then some "add at least one working-hours window"
  else (windows.findSome? windowError).or (holidays.findSome? holidayError)

end Aavishield.Schedule
