import Aavishield.Schedule.Evaluate

/-!
# The working-hours gate

The server evaluates a device's schedule, and every heartbeat's answer carries the verdict with
the instant at which it ends.  The agent keeps the last verdict, and whatever it does
asks the gate.
-/

namespace Aavishield.Enforcement

inductive Mode where
  | full
  | securityOnly
  | paused
  deriving DecidableEq

def Mode.ofText (text : String) : Mode :=
  if text = "security_only" then .securityOnly else if text = "paused" then .paused else .full

def Mode.Relaxed (mode : Mode) : Prop := mode ≠ .full

instance (mode : Mode) : Decidable mode.Relaxed := inferInstanceAs (Decidable (_ ≠ _))

/-- What an event is about: ordinary browsing, or a malware or threat-intelligence block. -/
inductive Kind where
  | activity
  | security
  deriving DecidableEq

abbrev Stamp := Option Time

structure Payload where
  mode : Option String
  active : Option Bool
  reason : Option String
  untilText : Option Stamp
  source : Option String

/-- What is enforced, and until when. -/
structure Gate where
  mode : Mode
  reason : String
  expiresAt : Option Time
  untilText : Option Stamp
  source : String

namespace Gate

def initial : Gate := ⟨.full, "Enforcing continuously", none, none, ""⟩

variable (gate : Gate)

def intercepts : Bool := decide (gate.mode ≠ .paused)

def enforcesPolicy : Bool := decide (gate.mode = .full)

def enforcesAppControl : Bool := decide (gate.mode = .full)

def checksThreatIntel : Bool := decide (gate.mode = .full ∨ gate.mode = .securityOnly)

def logs (kind : Kind) : Bool :=
  match gate.mode with
  | .full => true
  | .securityOnly => decide (kind = .security)
  | .paused => false

end Gate

def Payload.verdict (payload : Payload) : Mode :=
  match payload.mode with
  | some text => .ofText text
  | none => if payload.active.getD true then .full else .paused

/-- `seconds_between`: from the server's now, or the device's, to a later instant. -/
def secondsBetween (serverTime : Option Stamp) (wallClock : Time) (untilText : Stamp) : Option ℤ :=
  untilText.map fun finish => finish - (serverTime.join).getD wallClock

/-- `apply`, at an instant of the monotonic clock; the new mode is returned if it changed. -/
def Gate.apply (gate : Gate) (payload : Payload) (serverTime : Option Stamp) (wallClock now : Time) :
    Gate × Option Mode :=
  let mode := payload.verdict
  let remaining := payload.untilText.bind (secondsBetween serverTime wallClock)
  ({ mode := mode
     reason := payload.reason.getD ""
     expiresAt := (remaining.filter fun left => decide (0 < left)).map fun left => now + left
     untilText := payload.untilText
     source := payload.source.getD "" },
    if mode ≠ gate.mode then some mode else none)

def payloadOf (state : Schedule.State) : Payload where
  mode := some state.mode
  active := some state.active
  reason := some state.reason
  untilText := state.untilTime.map some
  source := if state.source = "" then none else some state.source

theorem lt_until_of_evaluate {env : Schedule.Primitives} {spec : Option Schedule.Spec}
    {now finish : Time} (ends : (Schedule.evaluate env spec now).untilTime = some finish) :
    now < finish := by
  rcases spec with _ | spec
  · cases ends
  · simp only [Schedule.evaluate] at ends
    split at ends
    · cases ends
    · split at ends
      · rename_i interval found
        cases ends
        have contains := List.find?_some found
        exact (of_decide_eq_true contains).2
      · split at ends
        · rename_i interval found
          cases ends
          have isLater := List.find?_some found
          exact of_decide_eq_true isLater
        · cases ends

end Aavishield.Enforcement
