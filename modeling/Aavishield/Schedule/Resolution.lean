import Aavishield.Dataplane.Tables
import Aavishield.Schedule.Calendar
import Mathlib.Data.List.MinMax

/-!
# The schedule of a device

Of the schedules of an organisation the one of a device goes before the one of its team, and that
before the one of the organisation.  The agent is told what the schedule comes to, and the
dashboard shows it.
-/

namespace Aavishield.EnforcementSchedules

open Dataplane (HasID Table)
open Schedule

structure EnforcementSchedule where
  id : UUID
  orgID : UUID
  scope : String
  teamID : Option UUID
  deviceID : Option UUID
  timezone : String
  windows : List Window
  holidays : List (List Char)
  offHoursMode : String
  enabled : Bool
  note : String

def EnforcementSchedule.spec (row : EnforcementSchedule) : Spec :=
  ⟨row.timezone, row.windows, row.holidays, row.offHoursMode, row.enabled, row.scope⟩

structure Employee where
  id : UUID
  teamID : Option UUID

def ownershipCompany : String := "company"

def ownershipPersonal : String := "personal"

structure Device where
  id : UUID
  orgID : UUID
  employeeID : Option UUID
  ownership : String

instance : HasID Employee := ⟨Employee.id⟩
instance : HasID Device := ⟨Device.id⟩

structure Database where
  schedules : List EnforcementSchedule
  devices : Table Device
  employees : Table Employee

/-- What the loop of `resolveSchedule` has seen. -/
structure Picked where
  org : Option EnforcementSchedule
  team : Option EnforcementSchedule
  device : Option EnforcementSchedule

def Picked.next (deviceID teamID : Option UUID) (picked : Picked) (row : EnforcementSchedule) :
    Picked :=
  if row.scope = "device" then
    if deviceID.isSome ∧ row.deviceID = deviceID then { picked with device := some row } else picked
  else if row.scope = "team" then
    if teamID.isSome ∧ row.teamID = teamID then { picked with team := some row } else picked
  else if row.scope = "org" then { picked with org := some row }
  else picked

namespace Database

variable (env : Primitives) (db : Database) (orgID : UUID) (deviceID teamID : Option UUID)
  (now : Time)

def enabledRows : List EnforcementSchedule :=
  db.schedules.filter fun row => row.orgID = orgID ∧ row.enabled = true

def resolveSchedule : Option EnforcementSchedule :=
  let picked := (db.enabledRows orgID).foldl (Picked.next deviceID teamID) ⟨none, none, none⟩
  picked.device.or (picked.team.or picked.org)

def deviceEnforcement : State :=
  let state := evaluate env ((db.resolveSchedule orgID deviceID teamID).map (·.spec)) now
  match deviceID with
  | none => state
  | some id =>
    if state.mode = "full" then state
    else
      match db.devices.rows.find? (·.id = id) with
      | none => state
      | some dev =>
        if dev.ownership = ownershipPersonal then state
        else
          { state with
            active := true
            mode := "full"
            reason := "Company-owned device — enforced continuously"
            untilTime := none }

def teamOf (employeeID : Option UUID) : Option UUID :=
  employeeID.bind fun id => (db.employees.rows.find? (·.id = id)).bind (·.teamID)

def teamIDForDevice (dev : Option Device) : Option UUID :=
  match dev with
  | none => none
  | some dev => db.teamOf dev.employeeID

def enforcementFor (deviceID orgID : UUID) (empID : Option UUID) : State :=
  db.deviceEnforcement env orgID (some deviceID) (db.teamOf empID) now

structure Shown where
  deviceID : UUID
  ownership : String
  state : State
  hasOverride : Bool
  inherited : Option EnforcementSchedule
  override : Option EnforcementSchedule

/-- `GetDeviceEnforcement`, which finds no device of another organisation. -/
def getDeviceEnforcement (id : UUID) : Option Shown :=
  (db.devices.rows.find? fun dev => dev.id = id ∧ dev.orgID = orgID).map fun dev =>
    let teamID := db.teamIDForDevice (some dev)
    let resolved := db.resolveSchedule orgID (some dev.id) teamID
    let override := (db.schedules.filter fun row =>
      row.orgID = orgID ∧ row.scope = "device" ∧ row.deviceID = some dev.id).argmin (·.id.bits.toNat)
    { deviceID := dev.id
      ownership := dev.ownership
      state := evaluate env (resolved.map (·.spec)) now
      hasOverride := override.isSome
      inherited := resolved
      override := override }

def deviceRows (id : UUID) : List EnforcementSchedule :=
  (db.enabledRows orgID).filter fun row => row.scope = "device" ∧ row.deviceID = some id

def teamRows : List EnforcementSchedule :=
  (db.enabledRows orgID).filter fun row =>
    row.scope = "team" ∧ teamID.isSome ∧ row.teamID = teamID

def orgRows : List EnforcementSchedule :=
  (db.enabledRows orgID).filter fun row => row.scope = "org"

def governing (id : UUID) : List EnforcementSchedule :=
  if db.deviceRows orgID id ≠ [] then db.deviceRows orgID id
  else if db.teamRows orgID teamID ≠ [] then db.teamRows orgID teamID
  else db.orgRows orgID

def verdicts (device : Device) : List State :=
  match db.governing device.orgID (db.teamOf device.employeeID) device.id with
  | [] => [evaluate env none now]
  | rows => rows.map fun row => evaluate env (some row.spec) now

end Database

def Device.excepted (device : Device) (state : State) : State :=
  if state.mode = "full" ∨ device.ownership = ownershipPersonal then state
  else ⟨true, "full", "Company-owned device — enforced continuously", none, state.source,
    state.timezone⟩

variable (env : Primitives) (db : Database) (device : Device) (now : Time)

/-- Whatever order the schedules are read in, the page shows what the agent is told, and that is
what the most specific schedule comes to for the device. -/
def Database.ShowsWhatIsTold : Prop :=
  ∃ verdict ∈ db.verdicts env now device, ∀ rows, rows.Perm db.schedules →
    let read : Database := { db with schedules := rows }
    (read.getDeviceEnforcement env device.orgID now device.id).map (·.state) =
        some (device.excepted verdict) ∧
      read.enforcementFor env now device.id device.orgID device.employeeID =
        device.excepted verdict

variable {env db device now}

theorem foldl_eq_getLast? {Row Seen : Type} {next : Seen → Row → Seen} {field : Seen → Option Row}
    {picks : Row → Bool}
    (step : ∀ seen row, field (next seen row) = if picks row then some row else field seen)
    (rows : List Row) (seen : Seen) :
    field (rows.foldl next seen) = ((rows.filter picks).getLast?).or (field seen) := by
  induction rows generalizing seen with
  | nil => rfl
  | cons row rest ih =>
    rw [List.foldl_cons, ih, step]
    cases picked : picks row with
    | false => simp [picked]
    | true =>
      rw [List.filter_cons_of_pos picked, List.getLast?_cons]
      cases (rest.filter picks).getLast? <;> rfl

theorem resolveSchedule_eq (db : Database) (orgID id : UUID) (teamID : Option UUID) :
    db.resolveSchedule orgID (some id) teamID = (db.governing orgID teamID id).getLast? := by
  have device : ∀ seen, (((db.enabledRows orgID).foldl (Picked.next (some id) teamID) seen)).device =
      ((db.deviceRows orgID id).getLast?).or seen.device := by
    apply foldl_eq_getLast?
    intro seen row
    rw [Picked.next]
    split_ifs <;> simp_all
  have team : ∀ seen, (((db.enabledRows orgID).foldl (Picked.next (some id) teamID) seen)).team =
      ((db.teamRows orgID teamID).getLast?).or seen.team := by
    apply foldl_eq_getLast?
    intro seen row
    rw [Picked.next]
    split_ifs <;> simp_all
  have org : ∀ seen, (((db.enabledRows orgID).foldl (Picked.next (some id) teamID) seen)).org =
      ((db.orgRows orgID).getLast?).or seen.org := by
    apply foldl_eq_getLast?
    intro seen row
    rw [Picked.next]
    split_ifs <;> simp_all
  rw [Database.resolveSchedule, device, team, org, Database.governing]
  simp only [Option.or_none]
  split_ifs with noDevice noTeam
  · rw [List.getLast?_eq_some_getLast noDevice, Option.some_or]
  · rw [not_ne_iff.mp noDevice, List.getLast?_eq_some_getLast noTeam]
    rfl
  · rw [not_ne_iff.mp noDevice, not_ne_iff.mp noTeam]
    rfl

abbrev Database.reading (db : Database) (rows : List EnforcementSchedule) : Database :=
  { db with schedules := rows }

theorem exists_governing_eq_filter (db : Database) (orgID id : UUID) (teamID : Option UUID) :
    ∃ picks : EnforcementSchedule → Bool, ∀ rows, rows.Perm db.schedules →
      (db.reading rows).governing orgID teamID id = rows.filter picks := by
  have enabled : ∀ rows, rows.Perm db.schedules →
      ((db.reading rows).enabledRows orgID).Perm (db.enabledRows orgID) :=
    fun rows perm => perm.filter _
  have noDevice : ∀ rows, rows.Perm db.schedules →
      ((db.reading rows).deviceRows orgID id = [] ↔ db.deviceRows orgID id = []) := by
    intro rows perm
    have sameLength := ((enabled rows perm).filter fun row =>
      row.scope = "device" ∧ row.deviceID = some id).length_eq
    rw [Database.deviceRows, Database.deviceRows, ← List.length_eq_zero_iff, sameLength,
      List.length_eq_zero_iff]
  have noTeam : ∀ rows, rows.Perm db.schedules →
      ((db.reading rows).teamRows orgID teamID = [] ↔ db.teamRows orgID teamID = []) := by
    intro rows perm
    have sameLength := ((enabled rows perm).filter fun row =>
      row.scope = "team" ∧ teamID.isSome ∧ row.teamID = teamID).length_eq
    rw [Database.teamRows, Database.teamRows, ← List.length_eq_zero_iff, sameLength,
      List.length_eq_zero_iff]
  by_cases ofDevice : db.deviceRows orgID id = []
  · by_cases ofTeam : db.teamRows orgID teamID = []
    · refine ⟨fun row => decide (row.scope = "org") &&
        decide (row.orgID = orgID ∧ row.enabled = true), fun rows perm => ?_⟩
      rw [Database.governing, if_neg (not_ne_iff.mpr ((noDevice rows perm).mpr ofDevice)),
        if_neg (not_ne_iff.mpr ((noTeam rows perm).mpr ofTeam))]
      exact List.filter_filter
    · refine ⟨fun row => decide (row.scope = "team" ∧ teamID.isSome ∧ row.teamID = teamID) &&
        decide (row.orgID = orgID ∧ row.enabled = true), fun rows perm => ?_⟩
      rw [Database.governing, if_neg (not_ne_iff.mpr ((noDevice rows perm).mpr ofDevice)),
        if_pos (mt (noTeam rows perm).mp ofTeam)]
      exact List.filter_filter
  · refine ⟨fun row => decide (row.scope = "device" ∧ row.deviceID = some id) &&
      decide (row.orgID = orgID ∧ row.enabled = true), fun rows perm => ?_⟩
    rw [Database.governing, if_pos (mt (noDevice rows perm).mp ofDevice)]
    exact List.filter_filter

def Database.resolved (env : Primitives) (db : Database) (now : Time) (device : Device) :
    State :=
  evaluate env ((db.resolveSchedule device.orgID (some device.id)
    (db.teamOf device.employeeID)).map (·.spec)) now

variable {rows : List EnforcementSchedule}

theorem teamOf_reading (employeeID : Option UUID) :
    (db.reading rows).teamOf employeeID = db.teamOf employeeID := rfl

theorem mem_verdicts {verdict : State} : verdict ∈ db.verdicts env now device ↔
    (db.governing device.orgID (db.teamOf device.employeeID) device.id = [] ∧
        verdict = evaluate env none now) ∨
      ∃ row ∈ db.governing device.orgID (db.teamOf device.employeeID) device.id,
        verdict = evaluate env (some row.spec) now := by
  rw [Database.verdicts]
  cases db.governing device.orgID (db.teamOf device.employeeID) device.id with
  | nil => simp
  | cons row rest => simp [eq_comm]

theorem resolved_mem_verdicts (perm : rows.Perm db.schedules) :
    (db.reading rows).resolved env now device ∈ db.verdicts env now device := by
  obtain ⟨picks, governing⟩ :=
    exists_governing_eq_filter db device.orgID device.id (db.teamOf device.employeeID)
  have here : db.governing device.orgID (db.teamOf device.employeeID) device.id =
      db.schedules.filter picks := governing db.schedules (.refl _)
  have same : (rows.filter picks).Perm
      (db.governing device.orgID (db.teamOf device.employeeID) device.id) := by
    rw [here]
    exact perm.filter picks
  rw [Database.resolved, resolveSchedule_eq, teamOf_reading, governing rows perm, mem_verdicts]
  cases found : (rows.filter picks).getLast? with
  | none =>
    rw [List.getLast?_eq_none_iff.mp found] at same
    exact .inl ⟨List.nil_perm.mp same, rfl⟩
  | some row => exact .inr ⟨row, same.subset (List.mem_of_getLast? found), rfl⟩

theorem exists_resolved {verdict : State} (mem : verdict ∈ db.verdicts env now device) :
    ∃ rows, rows.Perm db.schedules ∧
      (db.reading rows).resolved env now device = verdict := by
  obtain ⟨picks, governing⟩ :=
    exists_governing_eq_filter db device.orgID device.id (db.teamOf device.employeeID)
  have here : db.governing device.orgID (db.teamOf device.employeeID) device.id =
      db.schedules.filter picks := governing db.schedules (.refl _)
  rcases mem_verdicts.mp mem with ⟨none, rfl⟩ | ⟨row, governs, rfl⟩
  · refine ⟨db.schedules, .refl _, ?_⟩
    rw [Database.resolved, resolveSchedule_eq, none]
    rfl
  · rw [here] at governs
    obtain ⟨rowMem, picked⟩ := List.mem_filter.mp governs
    obtain ⟨front, back, split⟩ := List.append_of_mem rowMem
    have perm : (front ++ back ++ [row]).Perm db.schedules := by
      rw [split, List.append_assoc]
      exact List.perm_append_comm.append_left front
    refine ⟨front ++ back ++ [row], perm, ?_⟩
    rw [Database.resolved, resolveSchedule_eq, teamOf_reading, governing _ perm, List.filter_append,
      List.filter_cons_of_pos picked, List.filter_nil, List.getLast?_concat]
    rfl

theorem find?_device (mem : device ∈ db.devices.rows) (also : Device → Prop) [DecidablePred also]
    (isSo : also device) :
    db.devices.rows.find? (fun dev => decide (dev.id = device.id ∧ also dev)) = some device := by
  cases found : db.devices.rows.find? (fun dev => decide (dev.id = device.id ∧ also dev)) with
  | none =>
    have missed := List.find?_eq_none.mp found device mem
    simp [isSo] at missed
  | some other =>
    have isOther := List.find?_some found
    rw [decide_eq_true_eq] at isOther
    rw [Table.eq_of_id_eq (List.mem_of_find?_eq_some found) mem isOther.1]

theorem shown_eq (mem : device ∈ db.devices.rows) :
    (db.getDeviceEnforcement env device.orgID now device.id).map (·.state) =
      some (db.resolved env now device) := by
  rw [Database.getDeviceEnforcement, find?_device mem (fun dev => dev.orgID = device.orgID) rfl]
  rfl

theorem told_eq (mem : device ∈ db.devices.rows) :
    db.enforcementFor env now device.id device.orgID device.employeeID =
      device.excepted (db.resolved env now device) := by
  have found := find?_device mem (fun _ => True) trivial
  simp only [and_true] at found
  simp only [Database.enforcementFor, Database.deviceEnforcement, found, Device.excepted]
  change (if (db.resolved env now device).mode = "full" then
    db.resolved env now device else _) = _
  by_cases full : (db.resolved env now device).mode = "full"
  · rw [if_pos full, if_pos (.inl full)]
  · by_cases personal : device.ownership = ownershipPersonal
    · rw [if_neg full, if_pos personal, if_pos (.inr personal)]
      rfl
    · rw [if_neg full, if_neg personal, if_neg (not_or.mpr ⟨full, personal⟩)]
      rfl

theorem excepted_eq_self {state : State} :
    device.excepted state = state ↔ state.mode = "full" ∨ device.ownership = ownershipPersonal := by
  rw [Device.excepted]
  split_ifs with spared
  · exact iff_of_true rfl spared
  · refine iff_of_false (fun same => ?_) spared
    exact spared (.inl (by rw [← same]))

/-- All schedules for the device say the same, and what the exceptions say. -/
def Database.Agrees (env : Primitives) (db : Database) (now : Time) (device : Device) : Prop :=
  (∀ verdict ∈ db.verdicts env now device, ∀ other ∈ db.verdicts env now device,
      verdict = other) ∧
    (device.ownership = ownershipPersonal ∨
      ∀ verdict ∈ db.verdicts env now device, verdict.mode = "full")

theorem showsWhatIsTold_of_agrees (mem : device ∈ db.devices.rows)
    (agrees : db.Agrees env now device) : db.ShowsWhatIsTold env device now := by
  have isVerdict : db.resolved env now device ∈ db.verdicts env now device :=
    resolved_mem_verdicts (.refl db.schedules)
  have notExcepted : device.excepted (db.resolved env now device) =
      db.resolved env now device := by
    apply excepted_eq_self.mpr
    rcases agrees.2 with personal | full
    · exact .inr personal
    · exact .inl (full _ isVerdict)
  refine ⟨db.resolved env now device, isVerdict, fun rows perm => ?_⟩
  have same : (db.reading rows).resolved env now device = db.resolved env now device :=
    agrees.1 _ (resolved_mem_verdicts perm) _ isVerdict
  constructor
  · calc ((db.reading rows).getDeviceEnforcement env device.orgID now device.id).map (·.state)
      _ = some ((db.reading rows).resolved env now device) := shown_eq mem
      _ = some (device.excepted (db.resolved env now device)) := by rw [same, notExcepted]
  · calc (db.reading rows).enforcementFor env now device.id device.orgID device.employeeID
      _ = device.excepted ((db.reading rows).resolved env now device) := told_eq mem
      _ = device.excepted (db.resolved env now device) := by rw [same]

theorem agrees_of_showsWhatIsTold (mem : device ∈ db.devices.rows)
    (showsTold : db.ShowsWhatIsTold env device now) : db.Agrees env now device := by
  rcases showsTold with ⟨told, -, always⟩
  -- each verdict is shown in some order, and told with the exception
  have isTold : ∀ verdict ∈ db.verdicts env now device,
      verdict = device.excepted told ∧ device.excepted verdict = device.excepted told := by
    intro verdict verdictMem
    rcases exists_resolved verdictMem with ⟨rows, perm, rfl⟩
    have shows : ((db.reading rows).getDeviceEnforcement env device.orgID now device.id).map
        (·.state) = some ((db.reading rows).resolved env now device) := shown_eq mem
    have tells : (db.reading rows).enforcementFor env now device.id device.orgID
        device.employeeID = device.excepted ((db.reading rows).resolved env now device) :=
      told_eq mem
    rcases always rows perm with ⟨isShown, isTold⟩
    exact ⟨Option.some.inj (shows.symm.trans isShown), tells.symm.trans isTold⟩
  constructor
  · intro verdict verdictMem other otherMem
    exact (isTold verdict verdictMem).1.trans (isTold other otherMem).1.symm
  · by_cases personal : device.ownership = ownershipPersonal
    · exact .inl personal
    · right
      intro verdict verdictMem
      rcases isTold verdict verdictMem with ⟨isShown, isExcepted⟩
      rcases excepted_eq_self.mp (isExcepted.trans isShown.symm) with full | owned
      · exact full
      · exact absurd owned personal

/-- The page shows what the agent is told just when nothing is left to the order or the exception. -/
theorem showsWhatIsTold_iff_agrees (env : Primitives) (db : Database) (device : Device)
    (now : Time) (mem : device ∈ db.devices.rows) :
    db.ShowsWhatIsTold env device now ↔ db.Agrees env now device :=
  ⟨agrees_of_showsWhatIsTold mem, showsWhatIsTold_of_agrees mem⟩

def organisation : UUID := ⟨1⟩

def organisationSchedule : EnforcementSchedule where
  id := ⟨2⟩
  orgID := organisation
  scope := "org"
  teamID := none
  deviceID := none
  timezone := "UTC"
  windows := [⟨1, "09:00".toList, "17:00".toList⟩]
  holidays := []
  offHoursMode := "full_pause"
  enabled := true
  note := ""

def laptop (ownership : String) : Device := ⟨⟨3⟩, organisation, none, ownership⟩

def withLaptop (ownership : String) : Database where
  schedules := [organisationSchedule]
  devices := ⟨[laptop ownership], List.nodup_singleton _⟩
  employees := .empty

def evening : Time := Location.utc.date monday (clockTime 18 0)

theorem verdicts_withLaptop (ownership : String) :
    (withLaptop ownership).verdicts onlyUTC evening (laptop ownership) =
      [evaluate onlyUTC (some organisationSchedule.spec) evening] := rfl

theorem showsWhatIsTold_personal :
    (withLaptop ownershipPersonal).ShowsWhatIsTold onlyUTC (laptop ownershipPersonal) evening := by
  apply (showsWhatIsTold_iff_agrees onlyUTC (withLaptop ownershipPersonal) (laptop ownershipPersonal)
    evening (List.mem_singleton_self _)).mpr
  refine ⟨?_, .inl rfl⟩
  rw [verdicts_withLaptop]
  intro verdict verdictMem other otherMem
  rw [List.mem_singleton.mp verdictMem, List.mem_singleton.mp otherMem]

/-- What the company owns is shown as paused outside the hours, and is told to go on. -/
theorem not_showsWhatIsTold_company :
    ¬(withLaptop ownershipCompany).ShowsWhatIsTold onlyUTC (laptop ownershipCompany) evening := by
  intro showsTold
  rcases (agrees_of_showsWhatIsTold (List.mem_singleton_self _) showsTold).2 with personal | full
  · exact absurd personal (by decide)
  · have isFull := full _ (by rw [verdicts_withLaptop]; exact List.mem_singleton_self _)
    exact absurd isFull (by decide)

end Aavishield.EnforcementSchedules
