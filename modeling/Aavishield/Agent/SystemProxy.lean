import Aavishield.Basic
import Aavishield.Lib.TransitionSystem

/-!
# The system proxy and the tasks that change it

Startup, the heartbeat, the watchdog, the command loop and an authorised uninstall are
tasks of one process that take the proxy up and down.  A step of the model is one OS
command of a task, or the moment at which a task takes the `CHANGE` lock; between any two
steps of a task every other task may move, and the OS settings may change from outside.

The last fields of a state are ghosts: they say which decision the agent has last seen
through, so that what it does afterwards can be compared with it.
-/

namespace Aavishield.SystemProxy

inductive Mode where
  | full
  | securityOnly
  | paused
  deriving DecidableEq

inductive Platform where
  | macos
  | windows
  | linux

/-- A network service of macOS; elsewhere the only one is `"system"`. -/
abbrev Service := String

inductive Setting where
  | webServer (service : Service)
  | webState (service : Service)
  | secureWebServer (service : Service)
  | secureWebState (service : Service)
  | proxyServer
  /-- The text of the proxy server holds the agent's port, at whatever host. -/
  | serverPort
  | proxyEnable
  | mode
  | manual (schema key : String)
  deriving DecidableEq

/-- What the OS lists, and which of its settings point at the agent. -/
structure OS where
  services : List Service
  setting : Setting → Bool

/-- What one command writes, in order. -/
abbrev Command := List (Setting × Bool)

def Command.points (command : Command) : Bool := command.any (·.2)

/-- A command that may fail after some of what it writes. -/
def OS.execute (os : OS) (command : Command) (written : ℕ) : OS :=
  { os with setting := (command.take written).foldl (fun setting write =>
      Function.update setting write.1 write.2) os.setting }

/-- What `system_proxy_active` and `services_missing_proxy` ask about one service, by command. -/
def Platform.reads : Platform → Service → List (List Setting)
  | .macos, service =>
    [[.webState service, .webServer service], [.secureWebState service, .secureWebServer service]]
  | .windows, _ => [[.proxyEnable, .serverPort]]
  | .linux, _ => [[.mode]]

/-- `apply_os_proxy` for one service. -/
def Platform.applyCommands : Platform → Service → List Command
  | .macos, service =>
    [[(.webServer service, true), (.webState service, true)], [(.webState service, true)],
      [(.secureWebServer service, true), (.secureWebState service, true)],
      [(.secureWebState service, true)], []]
  | .windows, _ => [[(.proxyServer, true), (.serverPort, true), (.proxyEnable, true)]]
  | .linux, _ =>
    [[(.mode, true)], [(.manual "http" "host", true)], [(.manual "http" "port", true)],
      [(.manual "https" "host", true)], [(.manual "https" "port", true)]]

/-- What has to point at the agent for a service to have the proxy. -/
def Platform.settings (platform : Platform) (service : Service) : List Setting :=
  (platform.applyCommands service).flatten.map (·.1)

/-- What `services_missing_proxy` leaves out. -/
def Platform.unread (platform : Platform) (service : Service) : List Setting :=
  (platform.settings service).filter fun setting => setting ∉ (platform.reads service).flatten

/-- `clear_system_proxy` for one service. -/
def Platform.clearCommands : Platform → Service → List Command
  | .macos, service => [[(.webState service, false)], [(.secureWebState service, false)]]
  | .windows, _ => [[(.proxyEnable, false)]]
  | .linux, _ => [[(.mode, false)]]

/-- `macos_network_services`, empty when the command fails. -/
def Platform.networkServices (platform : Platform) (os : OS) (succeeds : Bool) : List Service :=
  match platform with
  | .macos => if succeeds then os.services else []
  | _ => ["system"]

inductive Change where
  | apply
  | clear
  deriving DecidableEq

def Platform.commands (platform : Platform) (change : Change) (service : Service) : List Command :=
  match change with
  | .apply => platform.applyCommands service
  | .clear => platform.clearCommands service

/-- What of the process runs beside the rest; an authorised uninstall is a task of its own. -/
inductive Task where
  | main
  | heartbeat
  | watchdog
  | commands
  | uninstall (id : ℕ)
  deriving DecidableEq

/-- Why the settings are read: before a transition, in a watchdog pass, in `apply_locked`. -/
inductive Probe where
  | paused
  | enforcing
  | pass
  | wasOff
  deriving DecidableEq

/-- `system_proxy_active` stops at the first service that points here. -/
def Probe.stopsAtActive : Probe → Bool
  | .paused | .wasOff => true
  | .enforcing | .pass => false

/-- How far a task has read: the services left, the answers about the first, those found missing. -/
structure Reading where
  pending : List Service
  answers : List Bool
  missing : List Service

/-- Where a task stands.  `issued` is a ghost: the commands of this change so far. -/
inductive Pc where
  | idle
  | listing (probe : Probe)
  | reading (probe : Probe) (reading : Reading)
  | waiting (change : Change)
  | listingFor (change : Change)
  | writing (change : Change) (listed : List Service) (issued remaining : List Command)

/-- The change whose lock section a task is in. -/
def Pc.inside : Pc → Option Change
  | .idle | .waiting _ => none
  | .listing probe | .reading probe _ =>
    match probe with
    | .paused | .enforcing => none
    | .pass | .wasOff => some .apply
  | .listingFor change | .writing change _ _ _ => some change

inductive Phase where
  | seeding
  | starting
  | serving
  | ended
  deriving DecidableEq

/-- The process, the OS under it, and the ghosts. -/
structure State where
  os : OS
  mode : Mode
  heldOff : Bool
  lock : Option Task
  pc : Task → Pc
  phase : Phase
  alive : Bool
  /-- A stand-down has completed, and no transition to an enforcing mode began since. -/
  stoodDown : Bool
  /-- A transition to an enforcing mode has completed, and no stand-down began since. -/
  armed : Bool
  /-- The stand-down of a disconnect or an uninstall has completed. -/
  retired : Bool

/-- A decision that reaches the process, a step of one of its tasks, or a change from outside. -/
inductive Action where
  | seed (verdict : Option Mode)
  | startup
  | heartbeat (verdict : Mode)
  | disconnect
  | uninstallAuthorized (id : ℕ)
  | listenerDied
  | acquire (task : Task)
  | advance (task : Task) (effect : ℕ)
  | outside (os : OS)
  | shutdown

variable (platform : Platform)

def State.moveTo (state : State) (task : Task) (pc : Pc) : State :=
  { state with pc := Function.update state.pc task pc }

def State.beginStandDown (state : State) (task : Task) : State :=
  { state.moveTo task (.waiting .clear) with armed := false }

def State.completeStandDown (state : State) (task : Task) : State :=
  let final := match task with
    | .commands | .uninstall _ => true
    | _ => state.retired
  { state.moveTo task .idle with stoodDown := true, armed := false, retired := final }

def State.completeEnforcing (state : State) (task : Task) : State :=
  { state.moveTo task .idle with
    stoodDown := if task = .main then state.stoodDown else false
    armed := true
    phase := if task = .main then .serving else state.phase }

/-- `apply_enforcement_transition` begins. -/
def State.beginTransition (state : State) (mode : Mode) : State :=
  if mode = .paused then
    { state.moveTo .heartbeat (.listing .paused) with mode, armed := false }
  else { state.moveTo .heartbeat (.listing .enforcing) with mode, stoodDown := false }

/-- What a task does once it knows the services. -/
def State.conclude (state : State) (task : Task) (probe : Probe) (active : Bool)
    (missing : List Service) : State :=
  match probe with
  | .paused =>
    if active then state.moveTo task (.waiting .clear) else state.completeStandDown task
  | .enforcing =>
    if missing = [] then state.completeEnforcing task else state.moveTo task (.waiting .apply)
  | .pass =>
    if missing = [] then { state.moveTo task .idle with lock := none }
    else { state.moveTo task (.listing .wasOff) with heldOff := false }
  | .wasOff => state.moveTo task (.listingFor .apply)

/-- One command of `services_missing_proxy` or `system_proxy_active`. -/
def State.read (state : State) (task : Task) (probe : Probe) (reading : Reading)
    (succeeds : Bool) : State :=
  match reading.pending with
  | [] => state.conclude task probe false reading.missing
  | service :: rest =>
    let reads := platform.reads service
    let asked := reads.getD reading.answers.length []
    let answers := reading.answers ++ [succeeds && asked.all state.os.setting]
    if answers.length < reads.length then
      state.moveTo task (.reading probe { reading with answers })
    else if probe.stopsAtActive then
      if answers.headD false then state.conclude task probe true []
      else state.moveTo task (.reading probe ⟨rest, [], reading.missing⟩)
    else
      let missing := if answers.all id then reading.missing else reading.missing ++ [service]
      state.moveTo task (.reading probe ⟨rest, [], missing⟩)

/-- The end of `apply_system_proxy`, `clear_system_proxy` or a pass. -/
def State.release (state : State) (task : Task) (change : Change) : State :=
  let released := { state with lock := none }
  match change, task with
  | .clear, _ => released.completeStandDown task
  | .apply, .watchdog => released.moveTo task .idle
  | .apply, _ => released.completeEnforcing task

/-- The next command of a task; `effect` is how much of it the OS carries out. -/
def State.advance (state : State) (task : Task) (effect : ℕ) : Option State :=
  match state.pc task with
  | .idle | .waiting _ => none
  | .listing probe =>
    let services := platform.networkServices state.os (effect ≠ 0)
    some (state.moveTo task (.reading probe ⟨services, [], []⟩))
  | .reading probe reading => some (state.read platform task probe reading (effect ≠ 0))
  | .listingFor change =>
    let services := platform.networkServices state.os (effect ≠ 0)
    some (state.moveTo task
      (.writing change services [] (services.flatMap (platform.commands change))))
  | .writing change _ _ [] => some (state.release task change)
  | .writing change listed issued (command :: rest) =>
    some { state.moveTo task (.writing change listed (issued ++ [command]) rest) with
      os := state.os.execute command effect }

/-- `CHANGE.lock()`, and the store or load of `HELD_OFF` right after it. -/
def State.acquire (state : State) (task : Task) : Option State :=
  if state.lock ≠ none then none
  else match state.pc task with
    | .waiting .apply =>
      some { state.moveTo task (.listing .wasOff) with
        lock := some task
        heldOff := false
        stoodDown := if task = .main then state.stoodDown else false }
    | .waiting .clear =>
      some { state.moveTo task (.listingFor .clear) with
        lock := some task, heldOff := true, armed := false }
    | .idle =>
      if task = .watchdog ∧ state.phase ∈ [.serving, .ended] then
        if state.heldOff then some state
        else some { state.moveTo task (.listing .pass) with lock := some task }
      else none
    | _ => none

/-- `seed_enforcement`, after which the other tasks are spawned. -/
def State.seed (state : State) (verdict : Option Mode) : Option State :=
  if state.phase = .seeding then
    some { state with mode := verdict.getD state.mode, phase := .starting }
  else none

/-- `if gate.intercepts() { apply_system_proxy().await }`; then the watchdog is spawned. -/
def State.startup (state : State) : Option State :=
  match state.phase, state.pc .main with
  | .starting, .idle =>
    if state.mode = .paused then some { state with phase := .serving }
    else some (state.moveTo .main (.waiting .apply))
  | _, _ => none

/-- `send`, once the server's verdict has arrived. -/
def State.heartbeat (state : State) (verdict : Mode) : Option State :=
  match state.phase, state.pc .heartbeat with
  | .seeding, _ => none
  | _, .idle => if verdict = state.mode then some state else some (state.beginTransition verdict)
  | _, _ => none

/-- `handle_disconnect`, or the task that an authorised uninstall spawns. -/
def State.standDownFor (state : State) (task : Task) : Option State :=
  match state.phase, state.pc task with
  | .serving, .idle | .ended, .idle => some (state.beginStandDown task)
  | _, _ => none

/-- `proxy::run` returns an error to the main task. -/
def State.listenerDied (state : State) : Option State :=
  match state.phase, state.pc .main with
  | .serving, .idle => some { state.beginStandDown .main with phase := .ended }
  | _, _ => none

def State.whenAlive (state : State) (next : Option State) : Option State :=
  if state.alive then next else none

/-- A dead process takes no step; the user and the system still do. -/
def step (state : State) : Action → Option State
  | .seed verdict => state.whenAlive (state.seed verdict)
  | .startup => state.whenAlive state.startup
  | .heartbeat verdict => state.whenAlive (state.heartbeat verdict)
  | .disconnect => state.whenAlive (state.standDownFor .commands)
  | .uninstallAuthorized id => state.whenAlive (state.standDownFor (.uninstall id))
  | .listenerDied => state.whenAlive state.listenerDied
  | .acquire task => state.whenAlive (state.acquire task)
  | .advance task effect => state.whenAlive (state.advance platform task effect)
  | .outside os => some { state with os }
  | .shutdown => some { state with alive := false }

/-- A process that starts on any OS settings; `HELD_OFF` starts true, the mode as full. -/
def State.initial (os : OS) : State where
  os := os
  mode := .full
  heldOff := true
  lock := none
  pc := fun _ => .idle
  phase := .seeding
  alive := true
  stoodDown := false
  armed := false
  retired := false

end Aavishield.SystemProxy
