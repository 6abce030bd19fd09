import Aavishield.Auth.Jwt
import Aavishield.Dataplane.Event
import Aavishield.Lib.Identifiers
import Aavishield.Lib.TransitionSystem
import Mathlib.Data.Finset.Basic

/-!
# The live feed

The hub holds the WebSocket connections in one room an organisation.  A broadcast takes the map
of its room under the lock and then, without the lock, sends to one client after the other, while
readers, writers and other broadcasts unregister clients and close their channels.
-/

namespace Aavishield.Live

open Dataplane (ActivityEvent)

inductive Notice (Payload : Type) where
  | toOrg (orgID : String) (msgType : String) (payload : Payload)
  | activity (event : ActivityEvent)
  | toEmployee (orgID employeeID : UUID) (msgType : String) (payload : Payload)

variable {Payload : Type}

def Notice.orgID : Notice Payload → String
  | .toOrg orgID _ _ => orgID
  | .activity event => event.orgID.text
  | .toEmployee orgID _ _ _ => orgID.text

def Notice.addresses (employeeID : Option UUID) : Notice Payload → Bool
  | .toOrg _ _ _ => employeeID.isNone
  | .activity event => employeeID.isNone || event.employeeID == employeeID
  | .toEmployee _ addressee _ _ => employeeID == some addressee

def Notice.about : Notice Payload → Option UUID
  | .toOrg _ _ _ => none
  | .activity event => event.employeeID
  | .toEmployee _ employeeID _ _ => some employeeID

/-- What is put into a client's channel. -/
inductive WSMessage (Payload : Type) where
  | connected (orgID : String)
  | notice (number : ℕ) (content : Notice Payload)

/-- A connection with its channel. -/
structure WSClient (Payload : Type) where
  orgID : String
  employeeID : Option UUID
  waiting : List (WSMessage Payload)
  /-- Every message that was ever put into the channel, latest first. -/
  received : List (WSMessage Payload)
  closes : ℕ
  /-- The first message is out and the reader and the writer run. -/
  serving : Bool

structure Room where
  ref : ℕ
  members : Finset ℕ

inductive Doing where
  | ranging
  | sending (client : ℕ)
  | dropping (client : ℕ)
  | done
  deriving DecidableEq

structure Broadcast (Payload : Type) where
  notice : Notice Payload
  room : Option ℕ
  taken : Finset ℕ
  seen : Finset ℕ
  doing : Doing

/-- The rooms, every client that there ever was and the broadcasts under way. -/
structure WebSocketHub (Payload : Type) where
  rooms : String → Option Room
  clients : ℕ → Option (WSClient Payload)
  broadcasts : ℕ → Option (Broadcast Payload)
  nextRef : ℕ
  /-- A goroutine sent on a closed channel or closed one twice, which ends the process. -/
  crashed : Bool

/-- The hub of a server that starts (`NewWebSocketHub`). -/
def newWebSocketHub : WebSocketHub Payload where
  rooms _ := none
  clients _ := none
  broadcasts _ := none
  nextRef := 0
  crashed := false

def sendBuffer : ℕ := 256

variable (hub : WebSocketHub Payload)

def WebSocketHub.members (orgID : String) : Finset ℕ :=
  (hub.rooms orgID).elim ∅ Room.members

def WebSocketHub.produces (broadcast : Broadcast Payload) : Finset ℕ :=
  match hub.rooms broadcast.notice.orgID with
  | some room => if broadcast.room = some room.ref then room.members else ∅
  | none => ∅

def WebSocketHub.register (number : ℕ) (client : WSClient Payload) : WebSocketHub Payload :=
  let room := (hub.rooms client.orgID).getD ⟨hub.nextRef, ∅⟩
  { hub with
    rooms := Function.update hub.rooms client.orgID
      (some { room with members := insert number room.members })
    clients := Function.update hub.clients number (some client)
    nextRef := hub.nextRef + 1 }

def Room.without (room : Room) (number : ℕ) : Option Room :=
  if room.members.erase number = ∅ then none
  else some { room with members := room.members.erase number }

def WebSocketHub.unregister (number : ℕ) (client : WSClient Payload) : WebSocketHub Payload :=
  match hub.rooms client.orgID with
  | none => hub
  | some room =>
    if number ∈ room.members then
      { hub with
        rooms := Function.update hub.rooms client.orgID (room.without number)
        clients := Function.update hub.clients number
          (some { client with closes := client.closes + 1 })
        crashed := hub.crashed || decide (0 < client.closes) }
    else hub

def WebSocketHub.withBroadcast (number : ℕ) (broadcast : Broadcast Payload) :
    WebSocketHub Payload :=
  { hub with broadcasts := Function.update hub.broadcasts number (some broadcast) }

def WebSocketHub.withClient (number : ℕ) (client : WSClient Payload) : WebSocketHub Payload :=
  { hub with clients := Function.update hub.clients number (some client) }

def WSClient.receive (client : WSClient Payload) (message : WSMessage Payload) :
    WSClient Payload :=
  { client with
    waiting := client.waiting ++ [message]
    received := message :: client.received }

/-- The room of a token's bearer. -/
def orgIDOf (claims : Auth.Claims) : String :=
  claims.orgID.elim "superadmin" UUID.text

/-- The client that `Serve` builds for a token. -/
def WSClient.ofClaims (claims : Auth.Claims) : WSClient Payload where
  orgID := orgIDOf claims
  employeeID := claims.employeeID
  waiting := []
  received := []
  closes := 0
  serving := false

inductive Action (Payload : Type) where
  /-- `Serve` registers a new connection. -/
  | register (client : ℕ) (claims : Auth.Claims)
  /-- `Serve` sends the first message and starts the reader and the writer. -/
  | greet (client : ℕ)
  | write (client : ℕ)
  | unregister (client : ℕ)
  | take (broadcast : ℕ) (notice : Notice Payload)
  | pick (broadcast client : ℕ)
  /-- The `select`: send, or find the buffer full. -/
  | send (broadcast : ℕ)
  | drop (broadcast : ℕ)
  | finish (broadcast : ℕ)

def greet (number : ℕ) (client : WSClient Payload) : Option (WebSocketHub Payload) :=
  if client.serving then none
  else if 0 < client.closes then some { hub with crashed := true }
  else if client.waiting.length < sendBuffer then
    some (hub.withClient number
      { client.receive (.connected client.orgID) with serving := true })
  else none

def take (number : ℕ) (notice : Notice Payload) : WebSocketHub Payload :=
  hub.withBroadcast number
    { notice, room := (hub.rooms notice.orgID).map Room.ref, taken := hub.members notice.orgID,
      seen := ∅, doing := .ranging }

def pick (number : ℕ) (broadcast : Broadcast Payload) (picked : ℕ) (client : WSClient Payload) :
    Option (WebSocketHub Payload) :=
  if broadcast.doing = .ranging ∧ picked ∈ hub.produces broadcast \ broadcast.seen then
    some (hub.withBroadcast number
      { broadcast with
        seen := insert picked broadcast.seen
        doing := if broadcast.notice.addresses client.employeeID then .sending picked
          else .ranging })
  else none

def send (number : ℕ) (broadcast : Broadcast Payload) (picked : ℕ) (client : WSClient Payload) :
    WebSocketHub Payload :=
  if 0 < client.closes then { hub with crashed := true }
  else if client.waiting.length < sendBuffer then
    (hub.withClient picked (client.receive (.notice number broadcast.notice))).withBroadcast number
      { broadcast with doing := .ranging }
  else hub.withBroadcast number { broadcast with doing := .dropping picked }

def drop (number : ℕ) (broadcast : Broadcast Payload) (picked : ℕ) (client : WSClient Payload) :
    WebSocketHub Payload :=
  (hub.unregister picked client).withBroadcast number { broadcast with doing := .ranging }

def finish (number : ℕ) (broadcast : Broadcast Payload) : Option (WebSocketHub Payload) :=
  if broadcast.doing = .ranging ∧ hub.produces broadcast ∩ broadcast.taken ⊆ broadcast.seen then
    some (hub.withBroadcast number { broadcast with doing := .done })
  else none

def step : Action Payload → Option (WebSocketHub Payload)
  | action =>
    if hub.crashed then none
    else match action with
      | .register number claims =>
        match hub.clients number with
        | some _ => none
        | none => some (hub.register number (WSClient.ofClaims claims))
      | .greet number => do
        let client ← hub.clients number
        greet hub number client
      | .write number => do
        let client ← hub.clients number
        if client.serving ∧ client.waiting ≠ [] then
          some (hub.withClient number { client with waiting := client.waiting.tail })
        else none
      | .unregister number => do
        let client ← hub.clients number
        if client.serving then some (hub.unregister number client) else none
      | .take number notice =>
        match hub.broadcasts number with
        | some _ => none
        | none => some (take hub number notice)
      | .pick number picked => do
        let broadcast ← hub.broadcasts number
        let client ← hub.clients picked
        pick hub number broadcast picked client
      | .send number => do
        let broadcast ← hub.broadcasts number
        match broadcast.doing with
        | .sending picked => do
          let client ← hub.clients picked
          some (send hub number broadcast picked client)
        | _ => none
      | .drop number => do
        let broadcast ← hub.broadcasts number
        match broadcast.doing with
        | .dropping picked => do
          let client ← hub.clients picked
          some (drop hub number broadcast picked client)
        | _ => none
      | .finish number => do
        let broadcast ← hub.broadcasts number
        finish hub number broadcast

theorem superadmin_ne_text (id : UUID) : "superadmin" ≠ id.text := by
  intro same
  have digits := congrArg (·.toList.filter (· ≠ '-')) same
  have lengths := congrArg List.length (digits.trans id.filter_text)
  simp at lengths

theorem orgIDOf_eq_text {claims : Auth.Claims} {orgID : UUID} :
    orgIDOf claims = orgID.text ↔ claims.orgID = some orgID := by
  unfold orgIDOf
  cases claims.orgID with
  | none => simpa using superadmin_ne_text orgID
  | some own =>
    simp only [Option.elim_some, Option.some.injEq]
    exact ⟨UUID.text_injective, congrArg UUID.text⟩

variable {hub}

@[simp]
theorem members_register (number : ℕ) (client : WSClient Payload) (orgID : String) :
    (hub.register number client).members orgID =
      if orgID = client.orgID then insert number (hub.members orgID) else hub.members orgID := by
  unfold WebSocketHub.members WebSocketHub.register
  by_cases same : orgID = client.orgID
  · subst same
    cases hub.rooms client.orgID <;> simp
  · simp [same]

theorem members_without (room : Room) (number : ℕ) :
    (room.without number).elim ∅ Room.members = room.members.erase number := by
  unfold Room.without
  split_ifs with last
  · simp [last]
  · rfl

@[simp]
theorem members_unregister (number : ℕ) (client : WSClient Payload) (orgID : String) :
    (hub.unregister number client).members orgID =
      if orgID = client.orgID then (hub.members orgID).erase number else hub.members orgID := by
  unfold WebSocketHub.members WebSocketHub.unregister
  by_cases same : orgID = client.orgID
  · subst same
    cases found : hub.rooms client.orgID with
    | none => simp [found]
    | some room =>
      by_cases inside : number ∈ room.members
      · simp [inside, members_without]
      · simp [inside, found]
  · cases hub.rooms client.orgID with
    | none => simp [same]
    | some room => by_cases inside : number ∈ room.members <;> simp [inside, same]

theorem clients_unregister (number : ℕ) (client : WSClient Payload) :
    (hub.unregister number client).clients =
      if number ∈ hub.members client.orgID then
        Function.update hub.clients number (some { client with closes := client.closes + 1 })
      else hub.clients := by
  unfold WebSocketHub.members WebSocketHub.unregister
  cases hub.rooms client.orgID with
  | none => simp
  | some room => by_cases inside : number ∈ room.members <;> simp [inside]

variable {number : ℕ} {client : WSClient Payload}

theorem unregister_of_notMem
    (outside : number ∉ hub.members client.orgID) : hub.unregister number client = hub := by
  unfold WebSocketHub.members at outside
  unfold WebSocketHub.unregister
  cases room : hub.rooms client.orgID with
  | none => rfl
  | some left =>
    simp only [room, Option.elim_some] at outside
    simp [outside]

theorem crashed_unregister (number : ℕ) (client : WSClient Payload) :
    (hub.unregister number client).crashed =
      (hub.crashed || decide (number ∈ hub.members client.orgID ∧ 0 < client.closes)) := by
  unfold WebSocketHub.members WebSocketHub.unregister
  cases hub.rooms client.orgID with
  | none => simp
  | some room => by_cases inside : number ∈ room.members <;> simp [inside]

@[simp]
theorem broadcasts_unregister (number : ℕ) (client : WSClient Payload) :
    (hub.unregister number client).broadcasts = hub.broadcasts := by
  unfold WebSocketHub.unregister
  cases hub.rooms client.orgID with
  | none => rfl
  | some room => by_cases inside : number ∈ room.members <;> simp [inside]

variable {broadcast : Broadcast Payload}

theorem mem_produces :
    number ∈ hub.produces broadcast ↔
      ∃ room, hub.rooms broadcast.notice.orgID = some room ∧ broadcast.room = some room.ref ∧
        number ∈ room.members := by
  unfold WebSocketHub.produces
  cases hub.rooms broadcast.notice.orgID with
  | none => simp
  | some room => by_cases same : broadcast.room = some room.ref <;> simp [same]

theorem mem_members_of_mem_produces
    (produced : number ∈ hub.produces broadcast) : number ∈ hub.members broadcast.notice.orgID := by
  rcases mem_produces.mp produced with ⟨room, found, -, inside⟩
  simpa [WebSocketHub.members, found] using inside

theorem produces_register {number other : ℕ} (produced : other ∈ hub.produces broadcast) :
    other ∈ (hub.register number client).produces broadcast := by
  rcases mem_produces.mp produced with ⟨room, found, same, inside⟩
  apply mem_produces.mpr
  by_cases own : broadcast.notice.orgID = client.orgID
  · rw [own] at found ⊢
    exact ⟨{ room with members := insert number room.members },
      by simp [WebSocketHub.register, found], same, Finset.mem_insert_of_mem inside⟩
  · exact ⟨room, by simpa [WebSocketHub.register, own] using found, same, inside⟩

theorem produces_unregister {number other : ℕ} (produced : other ∈ hub.produces broadcast)
    (another : other ≠ number) : other ∈ (hub.unregister number client).produces broadcast := by
  rcases mem_produces.mp produced with ⟨room, found, same, inside⟩
  apply mem_produces.mpr
  by_cases own : broadcast.notice.orgID = client.orgID
  · rw [own] at found ⊢
    have remains : other ∈ room.members.erase number := Finset.mem_erase.mpr ⟨another, inside⟩
    by_cases present : number ∈ room.members
    · refine ⟨{ room with members := room.members.erase number }, ?_, same, remains⟩
      simp [WebSocketHub.unregister, found, present, Room.without, Finset.ne_empty_of_mem remains]
    · exact ⟨room, by simp [WebSocketHub.unregister, found, present], same, inside⟩
  · refine ⟨room, ?_, same, inside⟩
    unfold WebSocketHub.unregister
    cases hub.rooms client.orgID with
    | none => exact found
    | some left => by_cases present : number ∈ left.members <;> simp [present, own, found]

end Aavishield.Live
