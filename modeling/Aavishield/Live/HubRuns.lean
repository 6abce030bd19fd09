import Aavishield.Live.Hub

/-!
# Runs of the live feed

A channel is closed when its client is unregistered.  The file shows that this is the only thing
that can go wrong: as long as nobody unregisters a client that another goroutine is about to send
to, every message arrives where it belongs and nowhere else, and the first time somebody does,
that goroutine's next step ends the process.
-/

namespace Aavishield.Live

open TransitionSystem

variable {Payload : Type} {hub next : WebSocketHub Payload}

inductive Advance (hub : WebSocketHub Payload) : Action Payload → WebSocketHub Payload → Prop where
  | register {number : ℕ} {claims : Auth.Claims} (absent : hub.clients number = none) :
      Advance hub (.register number claims) (hub.register number (WSClient.ofClaims claims))
  | greet {number : ℕ} {client : WSClient Payload} (found : hub.clients number = some client)
      (silent : client.serving = false) (isOpen : client.closes = 0) :
      Advance hub (.greet number)
        (hub.withClient number { client.receive (.connected client.orgID) with serving := true })
  | write {number : ℕ} {client : WSClient Payload} (found : hub.clients number = some client) :
      Advance hub (.write number)
        (hub.withClient number { client with waiting := client.waiting.tail })
  | unregister {number : ℕ} {client : WSClient Payload} (found : hub.clients number = some client)
      (serving : client.serving = true) :
      Advance hub (.unregister number) (hub.unregister number client)
  | take {number : ℕ} {notice : Notice Payload} (absent : hub.broadcasts number = none) :
      Advance hub (.take number notice) (take hub number notice)
  | pick {number picked : ℕ} {broadcast : Broadcast Payload} {client : WSClient Payload}
      (found : hub.broadcasts number = some broadcast) (known : hub.clients picked = some client)
      (ranging : broadcast.doing = .ranging) (produced : picked ∈ hub.produces broadcast) :
      Advance hub (.pick number picked)
        (hub.withBroadcast number
          { broadcast with
            seen := insert picked broadcast.seen
            doing := if broadcast.notice.addresses client.employeeID then .sending picked
              else .ranging })
  | send {number picked : ℕ} {broadcast : Broadcast Payload} {client : WSClient Payload}
      (found : hub.broadcasts number = some broadcast) (known : hub.clients picked = some client)
      (sending : broadcast.doing = .sending picked) (isOpen : client.closes = 0) :
      Advance hub (.send number)
        ((hub.withClient picked
          (client.receive (.notice number broadcast.notice))).withBroadcast number
            { broadcast with doing := .ranging })
  | full {number picked : ℕ} {broadcast : Broadcast Payload} {client : WSClient Payload}
      (found : hub.broadcasts number = some broadcast) (known : hub.clients picked = some client)
      (sending : broadcast.doing = .sending picked) :
      Advance hub (.send number)
        (hub.withBroadcast number { broadcast with doing := .dropping picked })
  | drop {number picked : ℕ} {broadcast : Broadcast Payload} {client : WSClient Payload}
      (found : hub.broadcasts number = some broadcast) (known : hub.clients picked = some client)
      (dropping : broadcast.doing = .dropping picked) :
      Advance hub (.drop number)
        ((hub.unregister picked client).withBroadcast number { broadcast with doing := .ranging })
  | finish {number : ℕ} {broadcast : Broadcast Payload}
      (found : hub.broadcasts number = some broadcast) (ranging : broadcast.doing = .ranging)
      (complete : hub.produces broadcast ∩ broadcast.taken ⊆ broadcast.seen) :
      Advance hub (.finish number) (hub.withBroadcast number { broadcast with doing := .done })
  | greetClosed {number : ℕ} {client : WSClient Payload} (found : hub.clients number = some client)
      (silent : client.serving = false) (isClosed : 0 < client.closes) :
      Advance hub (.greet number) { hub with crashed := true }
  | sendClosed {number picked : ℕ} {broadcast : Broadcast Payload} {client : WSClient Payload}
      (found : hub.broadcasts number = some broadcast) (known : hub.clients picked = some client)
      (sending : broadcast.doing = .sending picked) (isClosed : 0 < client.closes) :
      Advance hub (.send number) { hub with crashed := true }

variable {client : WSClient Payload} {number : ℕ}

theorem advance_of_greet
    (found : hub.clients number = some client) (greeted : greet hub number client = some next) :
    Advance hub (.greet number) next := by
  unfold greet at greeted
  split_ifs at greeted with serving closed room
  · cases greeted
    exact .greetClosed found (by simpa using serving) closed
  · cases greeted
    exact .greet found (by simpa using serving) (by omega)

variable {broadcast : Broadcast Payload} {picked : ℕ}

theorem advance_send
    (found : hub.broadcasts number = some broadcast) (known : hub.clients picked = some client)
    (sending : broadcast.doing = .sending picked) :
    Advance hub (.send number) (send hub number broadcast picked client) := by
  unfold send
  split_ifs with closed room
  · exact .sendClosed found known sending closed
  · exact .send found known sending (by omega)
  · exact .full found known sending

variable {action : Action Payload}

theorem advance_of_step (stepped : step hub action = some next) :
    hub.crashed = false ∧ Advance hub action next := by
  unfold step at stepped
  split_ifs at stepped with crashed
  refine ⟨by simpa using crashed, ?_⟩
  cases action with
  | register number claims =>
    cases found : hub.clients number with
    | some client => simp [found] at stepped
    | none =>
      simp only [found, Option.some.injEq] at stepped
      exact stepped ▸ .register found
  | greet number =>
    rcases Option.bind_eq_some_iff.mp stepped with ⟨client, found, greeted⟩
    exact advance_of_greet found greeted
  | write number =>
    rcases Option.bind_eq_some_iff.mp stepped with ⟨client, found, written⟩
    split_ifs at written
    cases written
    exact .write found
  | unregister number =>
    rcases Option.bind_eq_some_iff.mp stepped with ⟨client, found, left⟩
    split_ifs at left with serving
    cases left
    exact .unregister found serving
  | take number notice =>
    cases found : hub.broadcasts number with
    | some broadcast => simp [found] at stepped
    | none =>
      simp only [found, Option.some.injEq] at stepped
      exact stepped ▸ .take found
  | pick number picked =>
    rcases Option.bind_eq_some_iff.mp stepped with ⟨broadcast, found, rest⟩
    rcases Option.bind_eq_some_iff.mp rest with ⟨client, known, came⟩
    obtain ⟨⟨ranging, produced⟩, came⟩ := Option.ite_none_right_eq_some.mp came
    cases came
    exact .pick found known ranging (Finset.mem_sdiff.mp produced).1
  | send number =>
    rcases Option.bind_eq_some_iff.mp stepped with ⟨broadcast, found, rest⟩
    split at rest
    · rename_i picked sending
      rcases Option.bind_eq_some_iff.mp rest with ⟨client, known, sent⟩
      cases sent
      exact advance_send found known sending
    · cases rest
  | drop number =>
    rcases Option.bind_eq_some_iff.mp stepped with ⟨broadcast, found, rest⟩
    split at rest
    · rename_i picked dropping
      rcases Option.bind_eq_some_iff.mp rest with ⟨client, known, dropped⟩
      cases dropped
      exact .drop found known dropping
    · cases rest
  | finish number =>
    rcases Option.bind_eq_some_iff.mp stepped with ⟨broadcast, found, finished⟩
    unfold finish at finished
    split_ifs at finished with complete
    cases finished
    exact .finish found complete.1 complete.2

/-- A goroutine is about to send to the client: `Serve`, or a broadcast that came to it. -/
def InHand (hub : WebSocketHub Payload) (number : ℕ) : Prop :=
  (∃ client, hub.clients number = some client ∧ client.serving = false) ∨
    ∃ other broadcast, hub.broadcasts other = some broadcast ∧ broadcast.doing = .sending number

/-- Nobody is unregistered whom a broadcast is about to send to. -/
def Careful (hub : WebSocketHub Payload) : Action Payload → Prop
  | .unregister number => ¬InHand hub number
  | .drop number => ∀ broadcast picked, hub.broadcasts number = some broadcast →
      broadcast.doing = .dropping picked → ¬InHand hub picked
  | _ => True

def WSMessage.orgID : WSMessage Payload → String
  | .connected orgID => orgID
  | .notice _ content => content.orgID

def WSMessage.IsAbout (employeeID : UUID) : WSMessage Payload → Prop
  | .connected _ => True
  | .notice _ content => content.about = some employeeID

structure Sound (hub : WebSocketHub Payload) : Prop where
  /-- No message was sent on a closed channel, and none is about to be. -/
  running : hub.crashed = false ∧
    ∀ action next, step hub action = some next → next.crashed = false
  closedOnce : ∀ number client, hub.clients number = some client → client.closes ≤ 1
  ownOrg : ∀ number client, hub.clients number = some client →
    ∀ message ∈ client.received, message.orgID = client.orgID
  ownEmployee : ∀ number client employeeID, hub.clients number = some client →
    client.employeeID = some employeeID → ∀ message ∈ client.received, message.IsAbout employeeID
  delivered : ∀ number broadcast, hub.broadcasts number = some broadcast → broadcast.doing = .done →
    ∀ picked ∈ broadcast.taken, ∀ client, hub.clients picked = some client → client.closes = 0 →
      broadcast.notice.addresses client.employeeID = true →
        .notice number broadcast.notice ∈ client.received

/-- The rooms hold the clients whose channel is open. -/
structure Registered (hub : WebSocketHub Payload) : Prop where
  members : ∀ orgID number, number ∈ hub.members orgID ↔
    ∃ client, hub.clients number = some client ∧ client.orgID = orgID ∧ client.closes = 0
  closedOnce : ∀ number client, hub.clients number = some client → client.closes ≤ 1
  silent : ∀ number client, hub.clients number = some client → client.serving = false →
    client.closes = 0

section

variable (registered : Registered hub)

include registered

theorem Registered.mem {number : ℕ} {client : WSClient Payload}
    (found : hub.clients number = some client) (isOpen : client.closes = 0) :
    number ∈ hub.members client.orgID :=
  (registered.members _ _).mpr ⟨client, found, rfl, isOpen⟩

theorem Registered.isOpen {number : ℕ} {client : WSClient Payload}
    (found : hub.clients number = some client) (inside : number ∈ hub.members client.orgID) :
    client.closes = 0 := by
  rcases (registered.members _ _).mp inside with ⟨same, foundSame, -, isOpen⟩
  rw [found] at foundSame
  exact Option.some.inj foundSame ▸ isOpen

theorem registered_register {number : ℕ} {claims : Auth.Claims}
    (absent : hub.clients number = none) :
    Registered (hub.register number (WSClient.ofClaims claims)) where
  members orgID other := by
    rw [members_register]
    by_cases new : other = number
    · subst new
      have outside : other ∉ hub.members orgID := by
        intro inside
        rcases (registered.members _ _).mp inside with ⟨client, found, -⟩
        simp [absent] at found
      by_cases own : orgID = (WSClient.ofClaims claims : WSClient Payload).orgID
      · simp [WebSocketHub.register, own, WSClient.ofClaims]
      · simp [WebSocketHub.register, own, outside, Ne.symm own]
    · have same : other ∈ hub.members orgID ↔
          other ∈ insert number (hub.members orgID) := by simp [new]
      have kept := registered.members orgID other
      split_ifs <;> simpa [WebSocketHub.register, new] using kept
  closedOnce other client found := by
    rcases party_update found with ⟨-, rfl⟩ | ⟨-, found⟩
    · simp [WSClient.ofClaims]
    · exact registered.closedOnce other client found
  silent other client found := by
    rcases party_update found with ⟨-, rfl⟩ | ⟨-, found⟩
    · simp [WSClient.ofClaims]
    · exact registered.silent other client found

theorem registered_withClient {number : ℕ} {before after : WSClient Payload}
    (found : hub.clients number = some before)
    (sameOrg : after.orgID = before.orgID) (sameCloses : after.closes = before.closes)
    (serves : after.serving = false → before.serving = false) :
    Registered (hub.withClient number after) where
  members orgID other := by
    have kept := registered.members orgID other
    by_cases moved : other = number
    · subst moved
      rw [found] at kept
      simpa [WebSocketHub.withClient, WebSocketHub.members, sameOrg, sameCloses] using kept
    · simpa [WebSocketHub.withClient, WebSocketHub.members, moved] using kept
  closedOnce other client known := by
    rcases party_update known with ⟨-, rfl⟩ | ⟨-, known⟩
    · exact sameCloses ▸ registered.closedOnce number before found
    · exact registered.closedOnce other client known
  silent other client known silent := by
    rcases party_update known with ⟨-, rfl⟩ | ⟨-, known⟩
    · exact sameCloses ▸ registered.silent number before found (serves silent)
    · exact registered.silent other client known silent

theorem registered_unregister {number : ℕ} {client : WSClient Payload}
    (found : hub.clients number = some client)
    (serving : client.serving = true) : Registered (hub.unregister number client) := by
  by_cases inside : number ∈ hub.members client.orgID
  · have isOpen := registered.isOpen found inside
    constructor
    · intro orgID other
      rw [members_unregister, clients_unregister, if_pos inside]
      have kept := registered.members orgID other
      by_cases moved : other = number
      · subst moved
        have elsewhere : orgID ≠ client.orgID → other ∉ hub.members orgID := by
          intro differs present
          rcases kept.mp present with ⟨same, foundSame, sameOrg, -⟩
          rw [found] at foundSame
          exact differs (Option.some.inj foundSame ▸ sameOrg.symm)
        by_cases own : orgID = client.orgID
        · simp [own]
        · simp [own, elsewhere own]
      · split_ifs <;> simpa [moved] using kept
    · intro other after known
      rw [clients_unregister, if_pos inside] at known
      rcases party_update known with ⟨-, rfl⟩ | ⟨-, known⟩
      · simp [isOpen]
      · exact registered.closedOnce other after known
    · intro other after known silent
      rw [clients_unregister, if_pos inside] at known
      rcases party_update known with ⟨-, rfl⟩ | ⟨-, known⟩
      · simp [serving] at silent
      · exact registered.silent other after known silent
  · exact (unregister_of_notMem inside).symm ▸ registered

theorem closes_unregister {number : ℕ} {client after : WSClient Payload}
    (found : hub.clients number = some client)
    (known : (hub.unregister number client).clients number = some after) : 0 < after.closes := by
  rw [clients_unregister] at known
  split_ifs at known with inside
  · simp only [Function.update_self, Option.some.injEq] at known
    simp [← known]
  · rw [found] at known
    cases known
    exact Nat.pos_of_ne_zero fun isOpen => inside (registered.mem found isOpen)

theorem Registered.withBroadcast {number : ℕ} {broadcast : Broadcast Payload}
    : Registered (hub.withBroadcast number broadcast) :=
  ⟨registered.members, registered.closedOnce, registered.silent⟩

end

structure Fair (hub : WebSocketHub Payload) (number : ℕ) (broadcast : Broadcast Payload) :
    Prop where
  ofRoom : ∀ picked ∈ broadcast.taken ∪ broadcast.seen, ∃ client,
    hub.clients picked = some client ∧ client.orgID = broadcast.notice.orgID
  produced : ∀ picked ∈ broadcast.taken, ∀ client, hub.clients picked = some client →
    client.closes = 0 → picked ∈ hub.produces broadcast
  handled : ∀ picked ∈ broadcast.seen, ∀ client, hub.clients picked = some client →
    client.closes = 0 → broadcast.notice.addresses client.employeeID = true →
      broadcast.doing = .sending picked ∨ broadcast.doing = .dropping picked ∨
        .notice number broadcast.notice ∈ client.received
  sending : ∀ picked, broadcast.doing = .sending picked → picked ∈ broadcast.seen ∧
    ∃ client, hub.clients picked = some client ∧ client.closes = 0 ∧
      broadcast.notice.addresses client.employeeID = true
  dropping : ∀ picked, broadcast.doing = .dropping picked → picked ∈ broadcast.seen
  complete : broadcast.doing = .done → ∀ picked ∈ broadcast.taken, ∀ client,
    hub.clients picked = some client → client.closes = 0 → picked ∈ broadcast.seen

structure Grows (hub next : WebSocketHub Payload) : Prop where
  kept : ∀ number client, hub.clients number = some client → ∃ after,
    next.clients number = some after ∧ after.orgID = client.orgID ∧
      after.employeeID = client.employeeID ∧ client.closes ≤ after.closes ∧
        client.received ⊆ after.received
  produced : ∀ (broadcast : Broadcast Payload) number client, number ∈ hub.produces broadcast →
    next.clients number = some client → client.closes = 0 → number ∈ next.produces broadcast

variable {before after : WSClient Payload}

theorem Grows.earlier (grows : Grows hub next)
    (found : hub.clients number = some before) (known : next.clients number = some after) :
    after.orgID = before.orgID ∧ after.employeeID = before.employeeID ∧
      before.closes ≤ after.closes ∧ before.received ⊆ after.received := by
  rcases grows.kept number before found with ⟨same, foundSame, kept⟩
  rw [known] at foundSame
  cases foundSame
  exact kept

theorem Fair.grow (fair : Fair hub number broadcast)
    (grows : Grows hub next) (stillOpen : ∀ picked client, broadcast.doing = .sending picked →
      next.clients picked = some client → client.closes = 0) : Fair next number broadcast where
  ofRoom picked mem := by
    rcases fair.ofRoom picked mem with ⟨client, found, own⟩
    rcases grows.kept picked client found with ⟨after, known, sameOrg, -⟩
    exact ⟨after, known, sameOrg.trans own⟩
  produced picked mem client known isOpen := by
    rcases fair.ofRoom picked (Finset.mem_union_left _ mem) with ⟨before, found, -⟩
    obtain ⟨-, -, closes, -⟩ := grows.earlier found known
    have inside := fair.produced picked mem before found (by omega)
    exact grows.produced broadcast picked client inside known isOpen
  handled picked mem client known isOpen addressed := by
    rcases fair.ofRoom picked (Finset.mem_union_right _ mem) with ⟨before, found, -⟩
    obtain ⟨-, employee, closes, received⟩ := grows.earlier found known
    rw [employee] at addressed
    rcases fair.handled picked mem before found (by omega) addressed with sending | dropping | got
    · exact .inl sending
    · exact .inr (.inl dropping)
    · exact .inr (.inr (received got))
  sending picked sending := by
    rcases fair.sending picked sending with ⟨mem, before, found, -, addressed⟩
    rcases grows.kept picked before found with ⟨after, known, -, employee, -, -⟩
    exact ⟨mem, after, known, stillOpen picked after sending known, employee ▸ addressed⟩
  dropping := fair.dropping
  complete done picked mem client known isOpen := by
    rcases fair.ofRoom picked (Finset.mem_union_left _ mem) with ⟨before, found, -⟩
    obtain ⟨-, -, closes, -⟩ := grows.earlier found known
    exact fair.complete done picked mem before found (by omega)

theorem grows_register
    (absent : hub.clients number = none) : Grows hub (hub.register number client) where
  kept other before found := by
    have differs : other ≠ number := by
      intro same
      simp [same, absent] at found
    refine ⟨before, ?_, rfl, rfl, le_refl _, fun _ mem => mem⟩
    simpa [WebSocketHub.register, differs] using found
  produced _ _ _ inside _ _ := produces_register inside

theorem grows_withClient
    (found : hub.clients number = some before) (sameOrg : after.orgID = before.orgID)
    (sameEmployee : after.employeeID = before.employeeID)
    (sameCloses : after.closes = before.closes) (received : before.received ⊆ after.received) :
    Grows hub (hub.withClient number after) where
  kept other client known := by
    by_cases same : other = number
    · subst same
      rw [found] at known
      cases known
      exact ⟨after, by simp [WebSocketHub.withClient], sameOrg, sameEmployee, sameCloses.ge, received⟩
    · refine ⟨client, ?_, rfl, rfl, le_refl _, fun _ mem => mem⟩
      simpa [WebSocketHub.withClient, same] using known
  produced _ _ _ inside _ _ := inside

theorem grows_unregister
    (found : hub.clients number = some client) : Grows hub (hub.unregister number client) where
  kept other before known := by
    rw [clients_unregister]
    split_ifs
    · by_cases same : other = number
      · subst same
        rw [found] at known
        cases known
        exact ⟨{ client with closes := client.closes + 1 }, by simp, rfl, rfl, by simp,
          fun _ mem => mem⟩
      · exact ⟨before, by simpa [same] using known, rfl, rfl, le_refl _, fun _ mem => mem⟩
    · exact ⟨before, known, rfl, rfl, le_refl _, fun _ mem => mem⟩
  produced broadcast other after inside known isOpen := by
    by_cases same : other = number
    · subst same
      rw [clients_unregister] at known
      split_ifs at known with present
      · simp only [Function.update_self, Option.some.injEq] at known
        simp [← known] at isOpen
      · exact (unregister_of_notMem present).symm ▸ inside
    · exact produces_unregister inside same

section Others

variable {other : ℕ} (fair : Fair hub number broadcast)
include fair

theorem Fair.register {client : WSClient Payload} (absent : hub.clients other = none) :
    Fair (hub.register other client) number broadcast := by
  apply fair.grow (grows_register absent)
  intro picked after sending known
  obtain ⟨-, before, found, isOpen, -⟩ := fair.sending picked sending
  rcases party_update known with ⟨rfl, -⟩ | ⟨-, known⟩
  · simp [absent] at found
  · rw [found] at known
    exact Option.some.inj known ▸ isOpen

theorem Fair.withClient {before after : WSClient Payload}
    (found : hub.clients other = some before) (sameOrg : after.orgID = before.orgID)
    (sameEmployee : after.employeeID = before.employeeID)
    (sameCloses : after.closes = before.closes) (received : before.received ⊆ after.received) :
    Fair (hub.withClient other after) number broadcast := by
  apply fair.grow (grows_withClient found sameOrg sameEmployee sameCloses received)
  intro picked client sending known
  obtain ⟨-, same, foundSame, isOpen, -⟩ := fair.sending picked sending
  rcases party_update known with ⟨rfl, rfl⟩ | ⟨-, known⟩
  · rw [found] at foundSame
    cases foundSame
    exact sameCloses.trans isOpen
  · rw [foundSame] at known
    exact Option.some.inj known ▸ isOpen

theorem Fair.unregister {client : WSClient Payload} (found : hub.clients other = some client)
    (spared : broadcast.doing ≠ .sending other) :
    Fair (hub.unregister other client) number broadcast := by
  apply fair.grow (grows_unregister found)
  intro picked after sending known
  obtain ⟨-, before, foundBefore, isOpen, -⟩ := fair.sending picked sending
  have differs : picked ≠ other := by
    rintro rfl
    exact spared sending
  rw [clients_unregister] at known
  split_ifs at known
  · simp only [Function.update_of_ne differs, foundBefore, Option.some.injEq] at known
    exact known ▸ isOpen
  · rw [foundBefore] at known
    exact Option.some.inj known ▸ isOpen

theorem Fair.withBroadcast {another : Broadcast Payload} :
    Fair (hub.withBroadcast other another) number broadcast :=
  ⟨fair.ofRoom, fair.produced, fair.handled, fair.sending, fair.dropping, fair.complete⟩

end Others

theorem fair_take (registered : Registered hub) (number : ℕ) (notice : Notice Payload) :
    Fair hub number
      { notice, room := (hub.rooms notice.orgID).map Room.ref, taken := hub.members notice.orgID,
        seen := ∅, doing := .ranging } where
  ofRoom picked mem := by
    have inside : picked ∈ hub.members notice.orgID := by simpa using mem
    rcases (registered.members _ _).mp inside with ⟨client, found, own, -⟩
    exact ⟨client, found, own⟩
  produced picked mem _ _ _ := by
    apply mem_produces.mpr
    unfold WebSocketHub.members at mem
    cases found : hub.rooms notice.orgID with
    | none => simp [found] at mem
    | some room => exact ⟨room, rfl, rfl, by simpa [found] using mem⟩
  handled picked mem := by simp at mem
  sending picked sending := by cases sending
  dropping picked dropping := by cases dropping
  complete done := by cases done

section Own

variable
  (fair : Fair hub number broadcast)
include fair

theorem Fair.handled_of_ranging (ranging : broadcast.doing = .ranging) {other : ℕ}
    {after : WSClient Payload} (mem : other ∈ broadcast.seen)
    (known : hub.clients other = some after) (isOpen : after.closes = 0)
    (addressed : broadcast.notice.addresses after.employeeID = true) :
    .notice number broadcast.notice ∈ after.received := by
  rcases fair.handled other mem after known isOpen addressed with sending | dropping | received
  · simp [ranging] at sending
  · simp [ranging] at dropping
  · exact received

theorem Fair.pick (registered : Registered hub) (known : hub.clients picked = some client)
    (ranging : broadcast.doing = .ranging) (produced : picked ∈ hub.produces broadcast) :
    Fair hub number
      { broadcast with
        seen := insert picked broadcast.seen
        doing := if broadcast.notice.addresses client.employeeID then .sending picked
          else .ranging } := by
  obtain ⟨same, foundSame, own, isOpen⟩ :=
    (registered.members _ _).mp (mem_members_of_mem_produces produced)
  rw [known] at foundSame
  cases foundSame
  constructor
  · intro other mem
    have cases : other = picked ∨ other ∈ broadcast.taken ∪ broadcast.seen := by
      simpa [or_left_comm] using mem
    rcases cases with rfl | mem
    · exact ⟨client, known, own⟩
    · exact fair.ofRoom other mem
  · exact fair.produced
  · intro other mem after found stillOpen addressed
    rcases Finset.mem_insert.mp mem with rfl | mem
    · rw [known] at found
      cases found
      exact .inl (by simpa using addressed)
    · exact .inr (.inr (fair.handled_of_ranging ranging mem found stillOpen addressed))
  · intro other sending
    by_cases addressed : broadcast.notice.addresses client.employeeID = true
    · simp only [addressed, if_true, Doing.sending.injEq] at sending
      subst sending
      exact ⟨Finset.mem_insert_self _ _, client, known, isOpen, addressed⟩
    · simp [addressed] at sending
  · intro other dropping
    by_cases addressed : broadcast.notice.addresses client.employeeID = true <;>
      simp [addressed] at dropping
  · intro done
    by_cases addressed : broadcast.notice.addresses client.employeeID = true <;>
      simp [addressed] at done

theorem Fair.send (known : hub.clients picked = some client)
    (sending : broadcast.doing = .sending picked) :
    Fair (hub.withClient picked (client.receive (.notice number broadcast.notice))) number
      { broadcast with doing := .ranging } := by
  have others : Fair (hub.withClient picked
      (client.receive (.notice number broadcast.notice))) number broadcast :=
    fair.withClient known rfl rfl rfl (List.subset_cons_self _ _)
  refine ⟨others.ofRoom, others.produced, ?_, by simp, by simp, by simp⟩
  intro other mem after found isOpen addressed
  rcases others.handled other mem after found isOpen addressed with now | dropping | received
  · rw [sending, Doing.sending.injEq] at now
    subst now
    simp only [WebSocketHub.withClient, Function.update_self, Option.some.injEq] at found
    subst found
    exact .inr (.inr (List.mem_cons_self))
  · simp [sending] at dropping
  · exact .inr (.inr received)

theorem Fair.full (sending : broadcast.doing = .sending picked) :
    Fair hub number { broadcast with doing := .dropping picked } := by
  refine ⟨fair.ofRoom, fair.produced, ?_, by simp, ?_, by simp⟩
  · intro other mem after found isOpen addressed
    rcases fair.handled other mem after found isOpen addressed with now | dropping | received
    · rw [sending, Doing.sending.injEq] at now
      exact .inr (.inl (congrArg Doing.dropping now))
    · simp [sending] at dropping
    · exact .inr (.inr received)
  · intro other dropping
    cases dropping
    exact (fair.sending picked sending).1

theorem Fair.drop (registered : Registered hub) (known : hub.clients picked = some client)
    (dropping : broadcast.doing = .dropping picked) :
    Fair (hub.unregister picked client) number { broadcast with doing := .ranging } := by
  have others := fair.unregister known (by simp [dropping])
  refine ⟨others.ofRoom, others.produced, ?_, by simp, by simp, by simp⟩
  intro other mem after found isOpen addressed
  rcases others.handled other mem after found isOpen addressed with sending | now | received
  · simp [dropping] at sending
  · rw [dropping, Doing.dropping.injEq] at now
    subst now
    exact absurd isOpen (closes_unregister registered known found).ne'
  · exact .inr (.inr received)

theorem Fair.finish (ranging : broadcast.doing = .ranging)
    (complete : hub.produces broadcast ∩ broadcast.taken ⊆ broadcast.seen) :
    Fair hub number { broadcast with doing := .done } := by
  refine ⟨fair.ofRoom, fair.produced, ?_, by simp, by simp, ?_⟩
  · intro other mem after found isOpen addressed
    exact .inr (.inr (fair.handled_of_ranging ranging mem found isOpen addressed))
  · intro _ other mem after found isOpen
    exact complete (Finset.mem_inter.mpr ⟨fair.produced other mem after found isOpen, mem⟩)

end Own

theorem about_of_addresses {notice : Notice Payload} {employeeID : UUID}
    (addressed : notice.addresses (some employeeID) = true) : notice.about = some employeeID := by
  cases notice with
  | toOrg => simp [Notice.addresses] at addressed
  | activity event => simpa [Notice.addresses, Notice.about] using addressed
  | toEmployee orgID addressee =>
    simp only [Notice.addresses, beq_iff_eq] at addressed
    exact addressed.symm

def WSMessage.IsFor (client : WSClient Payload) (message : WSMessage Payload) : Prop :=
  message.orgID = client.orgID ∧
    ∀ employeeID, client.employeeID = some employeeID → message.IsAbout employeeID

structure Kept (hub : WebSocketHub Payload) : Prop where
  running : hub.crashed = false
  registered : Registered hub
  fair : ∀ number broadcast, hub.broadcasts number = some broadcast → Fair hub number broadcast
  confined : ∀ number client, hub.clients number = some client →
    ∀ message ∈ client.received, message.IsFor client

theorem kept_newWebSocketHub : Kept (newWebSocketHub : WebSocketHub Payload) where
  running := rfl
  registered := ⟨by simp [WebSocketHub.members, newWebSocketHub], by simp [newWebSocketHub],
    by simp [newWebSocketHub]⟩
  fair := by simp [newWebSocketHub]
  confined := by simp [newWebSocketHub]

section Moves

theorem Kept.withBroadcast (kept : Kept hub) (fair : Fair hub number broadcast) :
    Kept (hub.withBroadcast number broadcast) where
  running := kept.running
  registered := kept.registered.withBroadcast
  fair other another found := by
    rcases party_update found with ⟨rfl, rfl⟩ | ⟨-, found⟩
    · exact fair.withBroadcast
    · exact (kept.fair other another found).withBroadcast
  confined := kept.confined

theorem Kept.withClient (kept : Kept hub) (found : hub.clients number = some before)
    (sameOrg : after.orgID = before.orgID) (sameEmployee : after.employeeID = before.employeeID)
    (sameCloses : after.closes = before.closes) (received : before.received ⊆ after.received)
    (serves : after.serving = false → before.serving = false)
    (confined : ∀ message ∈ after.received, message.IsFor after) :
    Kept (hub.withClient number after) where
  running := kept.running
  registered := registered_withClient kept.registered found sameOrg sameCloses serves
  fair other broadcast known :=
    (kept.fair other broadcast known).withClient found sameOrg sameEmployee sameCloses received
  confined other client known := by
    rcases party_update known with ⟨-, rfl⟩ | ⟨-, known⟩
    · exact confined
    · exact kept.confined other client known

theorem Kept.receive (kept : Kept hub) (found : hub.clients number = some client)
    {message : WSMessage Payload} (isFor : message.IsFor client) :
    ∀ other ∈ (client.receive message).received, other.IsFor (client.receive message) := by
  intro other mem
  rcases List.mem_cons.mp mem with rfl | mem
  · exact isFor
  · exact kept.confined number client found other mem

theorem Kept.register (kept : Kept hub) {claims : Auth.Claims}
    (absent : hub.clients number = none) :
    Kept (hub.register number (WSClient.ofClaims claims)) where
  running := kept.running
  registered := registered_register kept.registered absent
  fair other broadcast known := (kept.fair other broadcast known).register absent
  confined other client known := by
    rcases party_update known with ⟨-, rfl⟩ | ⟨-, known⟩
    · simp [WSClient.ofClaims]
    · exact kept.confined other client known

theorem serving_of_not_inHand (found : hub.clients number = some client)
    (free : ¬InHand hub number) : client.serving = true := by
  cases serving : client.serving with
  | true => rfl
  | false => exact absurd (.inl ⟨client, found, serving⟩) free

theorem Kept.unregister (kept : Kept hub) (found : hub.clients number = some client)
    (free : ¬InHand hub number) : Kept (hub.unregister number client) where
  running := by
    rw [crashed_unregister, kept.running, Bool.false_or, decide_eq_false_iff_not]
    rintro ⟨inside, closed⟩
    exact closed.ne' (kept.registered.isOpen found inside)
  registered :=
    registered_unregister kept.registered found (serving_of_not_inHand found free)
  fair other broadcast known := by
    rw [broadcasts_unregister] at known
    exact (kept.fair other broadcast known).unregister found fun sending =>
      free (.inr ⟨other, broadcast, known, sending⟩)
  confined other after known := by
    rw [clients_unregister] at known
    split_ifs at known
    · rcases party_update known with ⟨-, rfl⟩ | ⟨-, known⟩
      · exact kept.confined number client found
      · exact kept.confined other after known
    · exact kept.confined other after known

end Moves

theorem Kept.of_sending (kept : Kept hub) (found : hub.broadcasts number = some broadcast)
    (known : hub.clients picked = some client) (sending : broadcast.doing = .sending picked) :
    client.closes = 0 ∧ client.orgID = broadcast.notice.orgID ∧
      broadcast.notice.addresses client.employeeID = true := by
  have fair := kept.fair number broadcast found
  obtain ⟨seen, same, foundSame, isOpen, addressed⟩ := fair.sending picked sending
  obtain ⟨member, foundMember, own⟩ := fair.ofRoom picked (Finset.mem_union_right _ seen)
  rw [known] at foundSame foundMember
  cases foundSame
  cases foundMember
  exact ⟨isOpen, own, addressed⟩

theorem Kept.advance (kept : Kept hub) (careful : Careful hub action)
    (advanced : Advance hub action next) : Kept next := by
  cases advanced with
  | register absent => exact kept.register absent
  | @greet number client found silent isOpen =>
    have isFor : (WSMessage.connected client.orgID).IsFor client := ⟨rfl, fun _ _ => trivial⟩
    exact kept.withClient found rfl rfl rfl (List.subset_cons_self _ _) (by simp)
      (kept.receive found isFor)
  | write found =>
    have confined := kept.confined _ _ found
    exact kept.withClient found rfl rfl rfl (fun _ mem => mem) id confined
  | unregister found serving => exact kept.unregister found careful
  | take absent => exact kept.withBroadcast (fair_take kept.registered _ _)
  | pick found known ranging produced =>
    exact kept.withBroadcast ((kept.fair _ _ found).pick kept.registered known ranging produced)
  | @send number picked broadcast client found known sending isOpen =>
    obtain ⟨-, own, addressed⟩ := kept.of_sending found known sending
    have isFor : (WSMessage.notice number broadcast.notice).IsFor client :=
      ⟨own.symm, fun employeeID portal => about_of_addresses (portal ▸ addressed)⟩
    have sent : Kept (hub.withClient picked
        (client.receive (.notice number broadcast.notice))) :=
      kept.withClient known rfl rfl rfl (List.subset_cons_self _ _) id (kept.receive known isFor)
    exact sent.withBroadcast ((kept.fair _ _ found).send known sending)
  | full found known sending => exact kept.withBroadcast ((kept.fair _ _ found).full sending)
  | drop found known dropping =>
    have free := careful _ _ found dropping
    exact (kept.unregister known free).withBroadcast
      ((kept.fair _ _ found).drop kept.registered known dropping)
  | finish found ranging complete =>
    exact kept.withBroadcast ((kept.fair _ _ found).finish ranging complete)
  | greetClosed found silent isClosed =>
    exact absurd (kept.registered.silent _ _ found silent) isClosed.ne'
  | sendClosed found known sending isClosed =>
    exact absurd (kept.of_sending found known sending).1 isClosed.ne'

theorem Kept.step (kept : Kept hub) (careful : Careful hub action)
    (stepped : step hub action = some next) : Kept next :=
  kept.advance careful (advance_of_step stepped).2

theorem Kept.not_crashed (kept : Kept hub)
    (stepped : Live.step hub action = some next) : next.crashed = false := by
  have unregistered : ∀ {number : ℕ} {client : WSClient Payload},
      hub.clients number = some client → (hub.unregister number client).crashed = false := by
    intro number client found
    rw [crashed_unregister, kept.running, Bool.false_or, decide_eq_false_iff_not]
    rintro ⟨inside, closed⟩
    exact closed.ne' (kept.registered.isOpen found inside)
  cases (advance_of_step stepped).2 with
  | unregister found serving => exact unregistered found
  | drop found known dropping => exact unregistered known
  | greetClosed found silent isClosed =>
    exact absurd (kept.registered.silent _ _ found silent) isClosed.ne'
  | sendClosed found known sending isClosed =>
    exact absurd (kept.of_sending found known sending).1 isClosed.ne'
  | _ => exact kept.running

theorem sound_of_kept (kept : Kept hub) : Sound hub where
  running := ⟨kept.running, fun _ _ stepped => kept.not_crashed stepped⟩
  closedOnce := kept.registered.closedOnce
  ownOrg number client found message mem := (kept.confined number client found message mem).1
  ownEmployee number client employeeID found portal message mem :=
    (kept.confined number client found message mem).2 employeeID portal
  delivered number broadcast found done picked mem client known isOpen addressed := by
    have fair := kept.fair number broadcast found
    have seen := fair.complete done picked mem client known isOpen
    rcases fair.handled picked seen client known isOpen addressed with sending | dropping | received
    · simp [done] at sending
    · simp [done] at dropping
    · exact received

theorem step_greet_of_closed (running : hub.crashed = false)
    (found : hub.clients number = some client) (silent : client.serving = false)
    (isClosed : 0 < client.closes) :
    step hub (.greet number) = some { hub with crashed := true } := by
  simp [step, greet, running, found, silent, isClosed]

theorem step_send_of_closed (running : hub.crashed = false)
    (found : hub.broadcasts number = some broadcast) (sending : broadcast.doing = .sending picked)
    (known : hub.clients picked = some client) (isClosed : 0 < client.closes) :
    step hub (.send number) = some { hub with crashed := true } := by
  simp [step, send, running, found, sending, known, isClosed]

theorem not_sound_of_closed (inHand : InHand hub number)
    (found : hub.clients number = some client) (isClosed : 0 < client.closes) : ¬Sound hub := by
  intro sound
  obtain ⟨running, calm⟩ := sound.running
  rcases inHand with ⟨same, foundSame, silent⟩ | ⟨other, broadcast, known, sending⟩
  · rw [found] at foundSame
    cases foundSame
    exact Bool.noConfusion (calm _ _ (step_greet_of_closed running found silent isClosed))
  · exact Bool.noConfusion (calm _ _ (step_send_of_closed running known sending found isClosed))

theorem not_sound_unregister (kept : Kept hub)
    (found : hub.clients number = some client) (inHand : InHand hub number)
    (sameClients : next.clients = (hub.unregister number client).clients)
    (stillSending : ∀ other broadcast, hub.broadcasts other = some broadcast →
      broadcast.doing = .sending number → next.broadcasts other = some broadcast) :
    ¬Sound next := by
  have isOpen : client.closes = 0 := by
    rcases inHand with ⟨same, foundSame, silent⟩ | ⟨other, broadcast, known, sending⟩
    · rw [found] at foundSame
      cases foundSame
      exact kept.registered.silent number client found silent
    · exact (kept.of_sending known found sending).1
  have closed : next.clients number = some { client with closes := client.closes + 1 } := by
    rw [sameClients, clients_unregister, if_pos (kept.registered.mem found isOpen)]
    exact Function.update_self _ _ _
  refine not_sound_of_closed ?_ closed (Nat.succ_pos _)
  rcases inHand with ⟨same, foundSame, silent⟩ | ⟨other, broadcast, known, sending⟩
  · rw [found] at foundSame
    cases foundSame
    exact .inl ⟨_, closed, silent⟩
  · exact .inr ⟨other, broadcast, stillSending other broadcast known sending, sending⟩

theorem careful_of_sound (kept : Kept hub)
    (stepped : step hub action = some next) (sound : Sound next) : Careful hub action := by
  cases (advance_of_step stepped).2 with
  | unregister found serving =>
    intro inHand
    refine not_sound_unregister kept found inHand rfl ?_ sound
    intro other broadcast known _
    rw [broadcasts_unregister]
    exact known
  | @drop number picked broadcast client found known dropping =>
    intro another other foundAnother droppingOther inHand
    rw [found] at foundAnother
    cases foundAnother
    rw [dropping, Doing.dropping.injEq] at droppingOther
    subst droppingOther
    refine not_sound_unregister kept known inHand ?_ ?_ sound
    · rfl
    intro other another foundOther sending
    have differs : other ≠ number := by
      rintro rfl
      rw [found] at foundOther
      cases foundOther
      simp [dropping] at sending
    simpa [WebSocketHub.withBroadcast, differs] using foundOther
  | _ => trivial

/-- The message is for the client's organisation, and for this client. -/
def WSMessage.Reaches (client : WSClient Payload) : WSMessage Payload → Prop
  | .connected orgID => orgID = client.orgID
  | .notice _ content => content.orgID = client.orgID ∧ content.addresses client.employeeID = true

def WebSocketHub.owner (hub : WebSocketHub Payload) (number : ℕ) : Option (String × Option UUID) :=
  (hub.clients number).map fun client => (client.orgID, client.employeeID)

/-- What holds also when somebody is unregistered too early. -/
structure Held (hub : WebSocketHub Payload) : Prop where
  members : ∀ orgID, ∀ number ∈ hub.members orgID,
    ∃ employeeID, hub.owner number = some (orgID, employeeID)
  aimed : ∀ number broadcast picked, hub.broadcasts number = some broadcast →
    broadcast.doing = .sending picked → ∃ employeeID,
      hub.owner picked = some (broadcast.notice.orgID, employeeID) ∧
        broadcast.notice.addresses employeeID = true
  confined : ∀ number client, hub.clients number = some client →
    ∀ message ∈ client.received, message.Reaches client

theorem Held.withBroadcast (held : Held hub)
    (aimed : ∀ picked, broadcast.doing = .sending picked → ∃ employeeID,
      hub.owner picked = some (broadcast.notice.orgID, employeeID) ∧
        broadcast.notice.addresses employeeID = true) :
    Held (hub.withBroadcast number broadcast) where
  members := held.members
  aimed other another picked found := by
    rcases party_update found with ⟨-, rfl⟩ | ⟨-, found⟩
    · exact aimed picked
    · exact held.aimed other another picked found
  confined := held.confined

theorem Held.move (held : Held hub)
    (clients : next.clients = Function.update hub.clients number (some after))
    (broadcasts : next.broadcasts = hub.broadcasts)
    (members : ∀ orgID, ∀ other ∈ next.members orgID,
      other ∈ hub.members orgID ∨ other = number ∧ after.orgID = orgID)
    (same : ∀ owner ∈ hub.owner number, owner = (after.orgID, after.employeeID))
    (received : ∀ message ∈ after.received, message.Reaches after) : Held next := by
  have kept : ∀ other owner, hub.owner other = some owner → next.owner other = some owner := by
    intro other owner known
    by_cases isMoved : other = number
    · subst isMoved
      simp [WebSocketHub.owner, clients, same owner known]
    · simpa [WebSocketHub.owner, clients, isMoved] using known
  constructor
  · intro orgID other inside
    rcases members orgID other inside with inside | ⟨rfl, rfl⟩
    · exact (held.members orgID other inside).imp fun _ => kept other _
    · exact ⟨after.employeeID, by simp [WebSocketHub.owner, clients]⟩
  · intro other broadcast picked sent sending
    rw [broadcasts] at sent
    exact (held.aimed other broadcast picked sent sending).imp fun _ => .imp_left (kept picked _)
  · intro other client known
    rw [clients] at known
    rcases party_update known with ⟨-, rfl⟩ | ⟨-, known⟩
    · exact received
    · exact held.confined other client known

theorem Held.withClient (held : Held hub) (found : hub.clients number = some before)
    (same : (before.orgID, before.employeeID) = (after.orgID, after.employeeID))
    (received : ∀ message ∈ after.received, message.Reaches after) :
    Held (hub.withClient number after) := by
  refine held.move rfl rfl (fun _ _ inside => .inl inside) ?_ received
  simpa [WebSocketHub.owner, found] using same

theorem Held.unregister (held : Held hub) (found : hub.clients number = some client) :
    Held (hub.unregister number client) := by
  by_cases inside : number ∈ hub.members client.orgID
  · refine held.move ((clients_unregister _ _).trans (if_pos inside)) (broadcasts_unregister _ _) ?_
      (by simp [WebSocketHub.owner, found]) (held.confined number client found)
    intro orgID other still
    rw [members_unregister] at still
    split_ifs at still
    · exact .inl (Finset.mem_of_mem_erase still)
    · exact .inl still
  · rwa [unregister_of_notMem inside]

theorem Held.advance (held : Held hub) (advanced : Advance hub action next) : Held next := by
  cases advanced with
  | register absent =>
    refine held.move rfl rfl ?_ (by simp [WebSocketHub.owner, absent]) (by simp [WSClient.ofClaims])
    intro orgID other inside
    rw [members_register] at inside
    split_ifs at inside with own
    · rcases Finset.mem_insert.mp inside with rfl | inside
      · exact .inr ⟨rfl, own.symm⟩
      · exact .inl inside
    · exact .inl inside
  | greet found silent isOpen =>
    exact held.withClient found rfl (List.forall_mem_cons.mpr ⟨rfl, held.confined _ _ found⟩)
  | write found => exact held.withClient found rfl fun message => held.confined _ _ found message
  | unregister found serving => exact held.unregister found
  | take absent => exact held.withBroadcast fun _ sending => by cases sending
  | @pick number picked broadcast client found known ranging produced =>
    refine held.withBroadcast fun other sending => ?_
    dsimp only at sending
    split_ifs at sending with addressed
    cases sending
    obtain ⟨employeeID, owned⟩ := held.members _ _ (mem_members_of_mem_produces produced)
    simp only [WebSocketHub.owner, known, Option.map_some, Option.some.injEq, Prod.mk.injEq] at owned ⊢
    exact ⟨_, ⟨owned.1, rfl⟩, addressed⟩
  | @send number picked broadcast client found known sending isOpen =>
    obtain ⟨employeeID, owned, addressed⟩ := held.aimed number broadcast picked found sending
    simp only [WebSocketHub.owner, known, Option.map_some, Option.some.injEq, Prod.mk.injEq] at owned
    have sent : Held (hub.withClient picked (client.receive (.notice number broadcast.notice))) :=
      held.withClient known rfl (List.forall_mem_cons.mpr
        ⟨⟨owned.1.symm, owned.2 ▸ addressed⟩, held.confined _ _ known⟩)
    exact sent.withBroadcast fun _ again => by cases again
  | full found known sending => exact held.withBroadcast fun _ again => by cases again
  | drop found known dropping =>
    exact (held.unregister known).withBroadcast fun _ again => by cases again
  | finish found ranging complete => exact held.withBroadcast fun _ again => by cases again
  | greetClosed | sendClosed => exact ⟨held.members, held.aimed, held.confined⟩

/-- Whether or not the process ends, nobody is sent what is not addressed to them. -/
theorem reaches_of_exec {trace : List (Action Payload)} {final : WebSocketHub Payload}
    (executed : exec step newWebSocketHub trace = some final) :
    ∀ number client, final.clients number = some client →
      ∀ message ∈ client.received, message.Reaches client := by
  have initially : Held (newWebSocketHub : WebSocketHub Payload) :=
    ⟨by simp [WebSocketHub.members, newWebSocketHub], by simp [newWebSocketHub],
      by simp [newWebSocketHub]⟩
  have held := invariant_of_exec
    (fun _ _ _ held stepped => Held.advance held (advance_of_step stepped).2) initially executed
  exact held.confined

/--
A room is one organisation's; and a run of the hub is sound throughout exactly
when nobody is unregistered that another goroutine is about to send to.
-/
theorem hub_sound_iff_careful :
    (∀ (claims : Auth.Claims) (orgID : UUID),
      orgIDOf claims = orgID.text ↔ claims.orgID = some orgID) ∧
    ∀ (trace : List (Action Payload)) (final : WebSocketHub Payload),
      exec step newWebSocketHub trace = some final →
        ((∀ reached, Visits step newWebSocketHub trace reached → Sound reached) ↔
          AllSteps step Careful newWebSocketHub trace) := by
  constructor
  · intro claims orgID
    exact orgIDOf_eq_text
  · intro trace final executed
    exact forall_visits_iff_allSteps (fun _ kept => sound_of_kept kept)
      (fun _ _ _ kept careful stepped => kept.step careful stepped)
      (fun _ _ _ kept stepped sound => careful_of_sound kept stepped sound)
      kept_newWebSocketHub executed

def dashboard : Auth.Claims where
  userID := ⟨1⟩
  orgID := some ⟨2⟩
  employeeID := none
  email := "admin@example.com"
  role := "admin"
  superAdminLevel := ""
  tokenID := "dashboard"
  registered := ⟨"", "", none, none, none⟩

def closedTab : List (Action Unit) :=
  [.register 0 dashboard, .greet 0, .take 0 (.toOrg (UUID.text ⟨2⟩) "device_enrolled" ()),
    .pick 0 0, .unregister 0, .send 0]

theorem crashed_closedTab :
    (exec step newWebSocketHub closedTab).any WebSocketHub.crashed = true := by
  decide +kernel

theorem reaches_closedTab : ∃ final, exec step newWebSocketHub closedTab = some final ∧
    final.crashed = true ∧ ∀ number client, final.clients number = some client →
      ∀ message ∈ client.received, message.Reaches client := by
  obtain ⟨final, executed, crashed⟩ := (Option.any_eq_true _ _).mp crashed_closedTab
  exact ⟨final, executed, crashed, reaches_of_exec executed⟩

/-- A client goes between its being picked and its being sent to. -/
theorem not_hub_alwaysSound :
    ¬∀ (trace : List (Action Unit)) (reached : WebSocketHub Unit),
      Visits step newWebSocketHub trace reached → Sound reached := by
  intro always
  obtain ⟨final, executed, crashed⟩ := (Option.any_eq_true _ _).mp crashed_closedTab
  have sound := always closedTab final ⟨closedTab, List.prefix_refl _, executed⟩
  exact Bool.noConfusion (crashed.symm.trans sound.running.1)

end Aavishield.Live
