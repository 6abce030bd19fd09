import Aavishield.Enforcement.AppFamilies
import Aavishield.Enforcement.Gate

/-!
# The application watcher

The agent stops the processes of applications that the rules block.  A sweep goes through all the
processes that run, the launch guard through those that are new, and both mark in one table
which application a process id was handled for.  Their steps interleave, and between any two of
them processes start, change and end.
-/

namespace Aavishield.AppWatch

open Enforcement Text

structure Matcher where
  appID : String
  name : String
  action : String
  processNames : List (List Char)
  bundleIDs : List (List Char)
  pathPatterns : List (List Char)
  deriving DecidableEq

def Matcher.blocks (matcher : Matcher) : Bool := decide (matcher.action ≠ "alert")

def fileName (path : List Char) : List Char :=
  (path.reverse.takeWhile fun letter => letter ≠ '/' ∧ letter ≠ '\\').reverse

def Machine.pathPatternMatches (machine : Machine) (pathLower pattern : List Char) : Bool :=
  let pattern := machine.toLowercase (trimSpace pattern)
  if pattern = [] then false
  else if ".app".toList.isSuffixOf pattern then
    decide (pathLower = pattern) || contains pathLower (pattern ++ ['/'])
  else contains pathLower pattern

def Machine.matches (machine : Machine) (exePath : List Char) (matcher : Matcher) : Bool :=
  let pathLower := machine.toLowercase exePath
  matcher.processNames.any (fun name =>
      decide (machine.toLowercase (trimSpace name) = fileName pathLower)) ||
    matcher.pathPatterns.any (machine.pathPatternMatches pathLower) ||
    match machine.bundleIdentifier exePath with
    | some id => matcher.bundleIDs.any fun given =>
      decide (machine.toLowercase (trimSpace given) = machine.toLowercase id)
    | none => false

structure Incarnation where
  pid : Pid
  generation : ℕ
  deriving DecidableEq

structure Sighting where
  process : Incarnation
  path : List Char
  deriving DecidableEq

structure Hit extends Sighting where
  matcher : Matcher
  deriving DecidableEq

def Machine.hit (machine : Machine) (matchers : List Matcher) (seen : Sighting) : Option Hit :=
  (matchers.find? (machine.matches seen.path)).map fun matcher => ⟨seen, matcher⟩

/-- What a loop does with a hit: it has frozen the process, or is to terminate these ids and
then to report.  For an `alert` rule there are none to terminate. -/
inductive Stage where
  | idle
  | frozen (hit : Hit)
  | terminating (hit : Hit) (ids : List Pid) (terminated : Bool) (related : List Incarnation)
  deriving DecidableEq

structure Worker where
  pending : List Hit
  stage : Stage
  deriving DecidableEq

def Worker.free : Worker := ⟨[], .idle⟩

inductive Loop where
  | sweep
  | guard
  deriving DecidableEq

structure Claim where
  process : Incarnation
  appID : String
  action : String
  deriving DecidableEq

def Hit.claim (hit : Hit) : Claim := ⟨hit.process, hit.matcher.appID, hit.matcher.action⟩

structure Attempt where
  process : Incarnation
  matcher : Matcher
  died : Bool
  deriving DecidableEq

structure BlockReport where
  appID : String
  appName : String
  processName : List Char
  pid : Pid
  path : List Char
  action : String
  terminated : Bool
  deriving DecidableEq

/-- The body that `report` posts. -/
def Hit.report (hit : Hit) (terminated : Bool) : BlockReport where
  appID := hit.matcher.appID
  appName := hit.matcher.name
  processName := fileName hit.path
  pid := hit.process.pid
  path := hit.path.take 500
  action := if terminated then "blocked" else "alerted"
  terminated := terminated

structure Sweep where
  listed : List Sighting
  matchers : List Matcher
  begun : ℕ

/-- What a process runs, and for whom. -/
structure Image where
  ppid : Pid
  path : List Char
  permitted : Bool

/-- The processes, and what the watcher's loops know of them. -/
structure State where
  live : Pid → Option Image
  generation : Pid → ℕ
  gate : Gate
  matchers : List Matcher
  reported : Pid → Option String
  known : List Pid
  recent : Pid → Option (List Char × ℕ)
  worker : Loop → Worker
  sweep : Option Sweep
  claims : List Claim
  attempts : List Attempt
  reports : List (Claim × BlockReport)

def State.initial (live : Pid → Option Image) : State where
  live := live
  generation _ := 0
  gate := .initial
  matchers := []
  reported _ := none
  known := []
  recent _ := none
  worker _ := .free
  sweep := none
  claims := []
  attempts := []
  reports := []

/-- A step of the system or of a loop. -/
inductive Label where
  | start (pid : Pid) (image : Image)
  | become (pid : Pid) (image : Image)
  | exit (pid : Pid)
  | gate (gate : Gate)
  | refresh (applications : List Matcher)
  | sweep (listing : List Pid)
  | guardPass (current unreadable : List Pid)
  | next (loop : Loop)
  | family (loop : Loop) (listing : List Pid)
  | terminate (loop : Loop) (dies : Bool)
  | finish (loop : Loop)
  | sweepEnd

namespace State

variable (machine : Machine) (state : State)

def setWorker (loop : Loop) (worker : Worker) : State :=
  { state with worker := Function.update state.worker loop worker }

def incarnation (pid : Pid) : Incarnation := ⟨pid, state.generation pid⟩

/-- `list_processes`: those of the ids that run. -/
def listProcesses (listing : List Pid) : List Proc :=
  listing.filterMap fun pid => (state.live pid).map fun image => ⟨pid, image.ppid, image.path⟩

def sighting (process : Proc) : Sighting := ⟨state.incarnation process.pid, process.path⟩

/-- The environment's part: a process starts under an id that is free, or a running one changes. -/
def start (pid : Pid) (image : Image) : Option State :=
  if (state.live pid).isNone then
    some { state with
      live := Function.update state.live pid (some image)
      generation := Function.update state.generation pid (state.generation pid + 1) }
  else none

def become (pid : Pid) (image : Image) : Option State :=
  if (state.live pid).isSome then
    some { state with live := Function.update state.live pid (some image) }
  else none

def exit (pid : Pid) : State := { state with live := Function.update state.live pid none }

/-- `refresh`, which the loop of the sweeps does between them. -/
def refresh (applications : List Matcher) : Option State :=
  if state.sweep.isNone then some { state with matchers := applications } else none

/-- The first half of `sweep`. -/
def beginSweep (listing : List Pid) : Option State :=
  if state.sweep.isNone ∧ state.worker .sweep = .free then
    if state.gate.enforcesAppControl = false ∨ state.matchers = [] then some state
    else
      let listed := (state.listProcesses listing).map state.sighting
      let others := listed.filter fun seen => seen.process.pid ≠ machine.ownPid
      some { state.setWorker .sweep ⟨others.filterMap (machine.hit state.matchers), .idle⟩ with
        sweep := some ⟨listed, state.matchers, state.attempts.length⟩ }
  else none

def endSweep : Option State :=
  match state.sweep with
  | some sweep =>
    if state.worker .sweep = .free then
      let alive := sweep.listed.map (·.process.pid)
      some { state with
        reported := fun pid => if pid ∈ alive then state.reported pid else none
        sweep := none }
    else none
  | none => none

def guardRecheckPasses : ℕ := 3

/-- `native::pid_path`, which fails on some of the ids. -/
def pidPath (unreadable : List Pid) (pid : Pid) : Option (List Char) :=
  if pid ∈ unreadable then none else (state.live pid).map (·.path)

def freshCandidates (current unreadable : List Pid) : List (Pid × List Char) :=
  (current.filter (· ∉ state.known)).filterMap fun pid =>
    if pid ≤ 1 ∨ pid = machine.ownPid then none
    else (state.pidPath unreadable pid).map fun path => (pid, path)

def changedCandidates (recent : Pid → Option (List Char × ℕ)) (current unreadable : List Pid) :
    List (Pid × List Char) :=
  current.filterMap fun pid => do
    let (seen, left) ← recent pid
    if left = guardRecheckPasses then none
    else
      let path ← state.pidPath unreadable pid
      if path ≠ seen then some (pid, path) else none

def recheck (recent : Pid → Option (List Char × ℕ)) (unreadable : List Pid) (pid : Pid) :
    Option (List Char × ℕ) := do
  let (seen, left) ← recent pid
  let after :=
    if left = guardRecheckPasses then (seen, left - 1)
    else ((state.pidPath unreadable pid).getD seen, left - 1)
  if 0 < after.2 then some after else none

/-- A pass of `guard_new_processes`, up to where it goes through its candidates. -/
def guardPass (current unreadable : List Pid) : Option State :=
  if state.worker .guard = .free ∧ current.Nodup then
    if current = [] then some state
    else
      let kept pid := if pid ∈ current then state.recent pid else none
      if state.known = [] then some { state with known := current, recent := kept }
      else
        let fresh := state.freshCandidates machine current unreadable
        let recent pid := match fresh.lookup pid with
          | some path => some (path, guardRecheckPasses)
          | none => kept pid
        let candidates := fresh ++ state.changedCandidates recent current unreadable
        let looked := { state with
          known := current
          recent := state.recheck recent unreadable }
        if candidates = [] ∨ state.gate.enforcesAppControl = false ∨ state.matchers = [] then
          some looked
        else
          let hits := candidates.filterMap fun candidate =>
            machine.hit state.matchers ⟨state.incarnation candidate.1, candidate.2⟩
          some (looked.setWorker .guard ⟨hits, .idle⟩)
  else none

/-- `is_alive`: an id without a process answers as one does that is not the agent's to signal. -/
def isAlive (pid : Pid) : Bool := (state.live pid).any (·.permitted)

/-- `claim` says no: the table has the id under this application. -/
def Handled (hit : Hit) : Prop := state.reported hit.process.pid = some hit.matcher.appID

instance (hit : Hit) : Decidable (state.Handled hit) := inferInstanceAs (Decidable (_ = _))

def Skips (loop : Loop) (hit : Hit) : Prop :=
  loop = .sweep ∧ state.isAlive hit.process.pid = false ∨ state.Handled hit

instance (loop : Loop) (hit : Hit) : Decidable (state.Skips loop hit) :=
  inferInstanceAs (Decidable (_ ∨ _))

/-- What `claim` marks when it says yes. -/
def claim (hit : Hit) : State :=
  { state with
    reported := Function.update state.reported hit.process.pid (some hit.matcher.appID)
    claims := hit.claim :: state.claims }

def next (loop : Loop) : Option State :=
  match state.worker loop with
  | ⟨hit :: pending, .idle⟩ =>
    if state.Skips loop hit then some (state.setWorker loop ⟨pending, .idle⟩)
    else
      let stage := if hit.matcher.blocks then .frozen hit else .terminating hit [] false []
      some { (state.claim hit).setWorker loop ⟨pending, stage⟩ with
        recent := if loop = .guard then Function.update state.recent hit.process.pid none
          else state.recent }
  | _ => none

/-- `stop_application` finds out what else belongs to the process that it has frozen. -/
def family (loop : Loop) (listing : List Pid) : Option State :=
  match state.worker loop with
  | ⟨pending, .frozen hit⟩ =>
    let pid := hit.process.pid
    let family := appFamily machine pid hit.path (state.listProcesses listing)
    let ids := pid :: family.filter (· ≠ pid)
    some (state.setWorker loop ⟨pending, .terminating hit ids false []⟩)
  | _ => none

/-- `terminate` of one id: it may fail, and does where nothing runs or may be signalled. -/
def terminate (loop : Loop) (dies : Bool) : Option State :=
  match state.worker loop with
  | ⟨pending, .terminating hit (pid :: rest) terminated related⟩ =>
    match state.live pid with
    | none => some (state.setWorker loop ⟨pending, .terminating hit rest terminated related⟩)
    | some image =>
      let died := dies && image.permitted
      let stage :=
        if pid = hit.process.pid then .terminating hit rest died related
        else .terminating hit rest terminated
          (if died then related ++ [state.incarnation pid] else related)
      some { state.setWorker loop ⟨pending, stage⟩ with
        live := if died then Function.update state.live pid none else state.live
        attempts := state.attempts ++ [⟨state.incarnation pid, hit.matcher, died⟩] }
  | _ => none

def finish (loop : Loop) : Option State :=
  match state.worker loop with
  | ⟨pending, .terminating hit [] terminated related⟩ =>
    some { state.setWorker loop ⟨pending, .idle⟩ with
      reported := fun pid =>
        if pid ∈ related.map (·.pid) then some hit.matcher.appID else state.reported pid
      reports := state.reports ++ [(hit.claim, hit.report terminated)] }
  | _ => none

/-- Processes come and go between any two steps of the loops. -/
def step : Label → Option State
  | .start pid image => state.start pid image
  | .become pid image => state.become pid image
  | .exit pid => some (state.exit pid)
  | .gate gate => some { state with gate := gate }
  | .refresh applications => state.refresh applications
  | .sweep listing => state.beginSweep machine listing
  | .guardPass current unreadable => state.guardPass machine current unreadable
  | .next loop => state.next loop
  | .family loop listing => state.family machine loop listing
  | .terminate loop dies => state.terminate loop dies
  | .finish loop => state.finish loop
  | .sweepEnd => state.endSweep

end State

end Aavishield.AppWatch
