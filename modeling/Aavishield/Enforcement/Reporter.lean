import Aavishield.Enforcement.Gate
import Aavishield.Lib.TransitionSystem
import Aavishield.Policy.PolicyCache

/-!
# The activity reporter

The agent queues an event for what it blocks or alerts on, and uploads its queue in batches.
An event that the gate does not log is dropped, and so is one that repeats another of
moments before.  Events carry the number of their recording, by which they are told apart.
-/

namespace Aavishield.Enforcement

open DomainRules (folded)

def activityDedupWindow : ℤ := 8 * 10 ^ 9

def activityMaxQueue : ℕ := 2000

structure RuleLike where
  category : String
  reason : String
  riskScore : ℤ
  deriving DecidableEq

structure Event where
  eventType : String
  action : String
  target : List Char
  targetDomain : List Char
  category : String
  policyName : String
  riskScore : ℤ
  timestamp : Time
  deriving DecidableEq

/-- A call of `record`, at an instant of the monotonic clock and one of the wall clock. -/
structure Recording where
  targetURL : List Char
  domain : List Char
  action : String
  rule : Option RuleLike
  eventType : String
  kind : Kind
  now : Time
  wallClock : Time

abbrev Entry := ℕ × Event

/-- The events to send, and those just seen. -/
structure Reporter where
  queue : List Entry
  recent : List ((List Char × String) × Time)

def Reporter.empty : Reporter := ⟨[], []⟩

variable (env : DomainRules.Primitives)

def Recording.key (recording : Recording) : List Char × String :=
  (folded env recording.domain, recording.action)

def Recording.event (recording : Recording) : Event where
  eventType := recording.eventType
  action := recording.action
  target := recording.targetURL
  targetDomain := folded env recording.domain
  category := (recording.rule.map RuleLike.category).getD ""
  policyName := (recording.rule.map RuleLike.reason).getD ""
  riskScore := (recording.rule.map RuleLike.riskScore).getD 0
  timestamp := recording.wallClock

/-- What `record` makes of its arguments. -/
inductive Outcome where
  | dropped
  | folded
  | queued
  deriving DecidableEq

def Reporter.outcome (reporter : Reporter) (gate : Gate) (recording : Recording) : Outcome :=
  if recording.action = "allowed" then .dropped
  else if !gate.logs recording.kind then .dropped
  else
    match reporter.recent.lookup (recording.key env) with
    | some last => if recording.now - last < activityDedupWindow then .folded else .queued
    | none => .queued

def Reporter.remember (reporter : Reporter) (recording : Recording) :
    List ((List Char × String) × Time) :=
  let key := recording.key env
  let recent := (key, recording.now) :: reporter.recent.filter fun entry => entry.1 ≠ key
  if recent.length > 512 then
    recent.filter fun entry => recording.now - activityDedupWindow ≤ entry.2
  else recent

/-- `record`, of an event that gets the number. -/
def Reporter.record (reporter : Reporter) (gate : Gate) (number : ℕ) (recording : Recording) :
    Reporter :=
  match reporter.outcome env gate recording with
  | .dropped | .folded => reporter
  | .queued =>
    { queue := reporter.queue ++ [(number, recording.event env)]
      recent := reporter.remember env recording }

def Reporter.requeue (reporter : Reporter) (batch : List Entry) : Reporter :=
  { reporter with queue := (batch ++ reporter.queue).take activityMaxQueue }

def Reporter.overCap (reporter : Reporter) (batch : List Entry) : List Entry :=
  (batch ++ reporter.queue).drop activityMaxQueue

end Aavishield.Enforcement
