import Aavishield.Monitoring.Totals

/-!
# Live sessions of a device

An agent that restarts continues its session, and a sweep ends the sessions that nobody continues.
Both go by when a session was last written to.  `StartSession` looks first and inserts in a second
call, the sweep lists sessions and ends them one by one, and uploads write to any session.
-/

namespace Aavishield.Monitoring

open TransitionSystem

def staleSessions (orgID : UUID) (cutoff : Time) : SessionQuery where
  orgID
  stillOpen := some true
  updatedBefore := cutoff

/-- `FindSessions` of the sweep, those that started first. -/
def Store.findStale (store : Store) (orgID : UUID) (cutoff : Time) : List WorkSession :=
  ((store.sessions.rows.filter (staleSessions orgID cutoff).selects).insertionSort
    fun first second => first.startedAt ≤ second.startedAt).take 1000

def stillOpenByID (id : UUID) : SessionQuery where
  ids := [id]
  stillOpen := some true

/-- The row that `StartSession` inserts when there is no session to resume. -/
def newSession (agent : Agent) (around : Surroundings) (request : StartRequest) (id : UUID)
    (insertedAt : Time) : WorkSession where
  id
  orgID := agent.orgID
  employeeID := agent.employeeID
  deviceID := some agent.deviceID
  startedAt := request.startedAt.getD around.now
  endedAt := none
  hostname := request.hostname
  ip := if request.ip = "" then around.clientIP else request.ip
  screenshotCount := 0
  activeSeconds := 0
  trackedSeconds := 0
  avgActivity := 0
  updatedAt := insertedAt

/-- What a request has still to do. -/
inductive Errand where
  | start (agent : Agent) (around : Surroundings) (request : StartRequest)
  | upload (call : Call)
  | sweep (listed : List WorkSession)

/-- The store, the requests under way and, for the record, what ended and what was swept. -/
structure Desk where
  store : Store
  now : Time
  requests : ℕ → Option Errand
  ended : List UUID
  swept : List (Time × WorkSession)

/-- A request that comes in, or a call to the store that it makes. -/
inductive Deed where
  | tick (elapsed : ℕ)
  | startSession (number : ℕ) (agent : Agent) (around : Surroundings) (request : StartRequest)
  | endSession (agent : Agent) (around : Surroundings) (sessionID : Option UUID)
      (endedAt : Option Time)
  | upload (number : ℕ) (shot : Screenshot)
  | sweep (number : ℕ) (orgID : UUID) (cutoff : Time)
  | call (number : ℕ) (succeeds : Bool) (fresh : UUID)

namespace Desk

def start (now : Time) : Desk := ⟨.empty, now, fun _ => none, [], []⟩

def become (desk : Desk) (number : ℕ) (errand : Option Errand) : Desk :=
  { desk with requests := Function.update desk.requests number errand }

/-- The call that an errand makes next, and what is then left of it. -/
def next (desk : Desk) (number : ℕ) (succeeds : Bool) (fresh : UUID) : Errand → Desk
  | .start agent around request =>
    let done := desk.become number none
    if succeeds then
      { done with
        store := desk.store.insertSession (newSession agent around request fresh desk.now) }
    else done
  | .upload call =>
    if succeeds then
      let (store, following) := call.succeed desk.now fresh desk.store
      { desk.become number (following.map .upload) with store }
    else desk.become number (call.fail.map .upload)
  | .sweep [] => desk.become number none
  | .sweep (session :: rest) =>
    let done := desk.become number (some (.sweep rest))
    if succeeds then
      let rows := desk.store.sessions.rows.filter (stillOpenByID session.id).selects
      { done with
        store := desk.store.updateSessions (stillOpenByID session.id)
          (WorkSession.close session.updatedAt desk.now) fun _ => rfl
        swept := rows.map (Prod.mk desk.now) ++ desk.swept }
    else done

/-- What a deed does. -/
def act (desk : Desk) : Deed → Option Desk
  | .tick elapsed => some { desk with now := desk.now + elapsed }
  | .startSession number agent around request =>
    if desk.requests number = none ∧ around.now = desk.now then
      match desk.store.findSessions (resumable agent desk.now) with
      | [] => some (desk.become number (some (.start agent around request)))
      | _ :: _ => some desk
    else none
  | .endSession agent around sessionID endedAt =>
    if around.now = desk.now then
      some { desk with
        store := (Monitoring.endSession agent around sessionID endedAt desk.store).1 }
    else none
  | .upload number shot =>
    if desk.requests number = none then
      some (desk.become number (some (.upload (.insertShot shot))))
    else none
  | .sweep number orgID cutoff =>
    if desk.requests number = none ∧ cutoff ≤ desk.now - staleSessionAfter then
      some (desk.become number (some (.sweep (desk.store.findStale orgID cutoff))))
    else none
  | .call number succeeds fresh => (desk.requests number).map (desk.next number succeeds fresh)

/-- The sessions that have ended are noted. -/
def note (desk : Desk) : Desk :=
  { desk with
    ended := (desk.store.sessions.rows.filter fun session => session.endedAt.isSome).map
      WorkSession.id ++ desk.ended }

def step (desk : Desk) (deed : Deed) : Option Desk := (desk.act deed).map note

end Desk

/-- An open session that was written to lately. -/
def WorkSession.IsLive (session : WorkSession) (now : Time) : Prop :=
  session.endedAt = none ∧ now - staleSessionAfter ≤ session.updatedAt

def WorkSession.SharesDevice (session other : WorkSession) : Prop :=
  session.deviceID.isSome ∧ session.deviceID = other.deviceID ∧ session.orgID = other.orgID

/-- No device has two live sessions. -/
def Single (sessions : List WorkSession) (now : Time) : Prop :=
  ∀ session ∈ sessions, ∀ other ∈ sessions, session.SharesDevice other → session.IsLive now →
    other.IsLive now → session = other

/-- A device has one live session, only stale ones were swept, and what ended stays ended. -/
structure Settled (desk : Desk) : Prop where
  single : Single desk.store.sessions.rows desk.now
  spared : ∀ time session, (time, session) ∈ desk.swept →
    session.updatedAt < time - staleSessionAfter
  closed : ∀ session ∈ desk.store.sessions.rows, session.id ∈ desk.ended → session.endedAt ≠ none

/-- What was looked up still holds, and no upload brings a stale session back beside a live one. -/
def Errand.Careful (desk : Desk) : Errand → Prop
  | .start agent _ _ => desk.store.findSessions (resumable agent desk.now) = []
  | .upload (.writeBack sessionID _) =>
    ∀ session ∈ desk.store.sessions.rows, session.id = sessionID → session.endedAt = none →
      session.IsLive desk.now ∨ ∀ other ∈ desk.store.sessions.rows,
        session.SharesDevice other → ¬other.IsLive desk.now
  | .sweep (listed :: _) =>
    ∀ session ∈ desk.store.sessions.rows, session.id = listed.id → session.endedAt = none →
      session.updatedAt = listed.updatedAt
  | _ => True

/-- A call that succeeds is careful with what was looked up before it. -/
def Deed.Careful (desk : Desk) : Deed → Prop
  | .call number succeeds _ => succeeds = true → ∀ errand, desk.requests number = some errand →
      errand.Careful desk
  | .sweep _ _ cutoff => cutoff ≠ 0
  | _ => True

variable {desk following : Desk} {store : Store} {session other : WorkSession} {now later : Time}
  {sessions : List WorkSession} {query : SessionQuery}

theorem WorkSession.IsLive.of_le (live : session.IsLive later) (earlier : now ≤ later) :
    session.IsLive now :=
  ⟨live.1, (Int.sub_le_sub_right earlier _).trans live.2⟩

theorem Single.of_le (single : Single sessions now) (earlier : now ≤ later) : Single sessions later := by
  intro session mem other otherMem shares live otherLive
  exact single session mem other otherMem shares (live.of_le earlier) (otherLive.of_le earlier)

theorem selects_stillOpenByID {id : UUID} : (stillOpenByID id).selects session = true ↔
    session.id = id ∧ session.endedAt = none := by
  simp [SessionQuery.selects_iff, stillOpenByID]

theorem updatedAt_of_mem_findStale {orgID : UUID} {cutoff : Time} (isSet : cutoff ≠ 0)
    (mem : session ∈ store.findStale orgID cutoff) : session.updatedAt < cutoff := by
  have kept := List.mem_of_mem_take mem
  simp only [List.mem_insertionSort, List.mem_filter, SessionQuery.selects_iff, staleSessions] at kept
  exact kept.2.2.2.2.2.2.2.2.2.1.resolve_left isSet

variable {ended : Time} {keeps : ∀ session, (WorkSession.close ended now session).id = session.id}

theorem mem_close :
    session ∈ (store.updateSessions query (WorkSession.close ended now) keeps).sessions.rows ↔
      (session ∈ store.sessions.rows ∧ query.selects session = false) ∨
        ∃ row ∈ store.sessions.rows, query.selects row = true ∧ row.close ended now = session := by
  rw [Store.mem_updateSessions]
  constructor
  · rintro ⟨row, mem, rfl⟩
    cases selected : query.selects row with
    | true => exact .inr ⟨row, mem, selected, by simp⟩
    | false => exact .inl (by simpa [selected] using mem)
  · rintro (⟨mem, unselected⟩ | ⟨row, mem, selected, rfl⟩)
    · exact ⟨session, mem, by simp [unselected]⟩
    · exact ⟨row, mem, by simp [selected]⟩

theorem mem_of_mem_close
    (mem : session ∈ (store.updateSessions query (WorkSession.close ended now) keeps).sessions.rows)
    (isOpen : session.endedAt = none) : session ∈ store.sessions.rows := by
  rcases mem_close.1 mem with ⟨old, -⟩ | ⟨row, -, -, rfl⟩
  · exact old
  · cases isOpen

def Call.IsUpload (call : Call) : Prop :=
  (∃ shot, call = .insertShot shot) ∨ (∃ id, call = .aggregate id) ∨
    ∃ id totals, call = .writeBack id totals

structure Kept (desk : Desk) : Prop extends Settled desk where
  listed : ∀ number rest, desk.requests number = some (.sweep rest) → ∀ session ∈ rest,
    session.updatedAt < desk.now - staleSessionAfter
  uploads : ∀ number call, desk.requests number = some (.upload call) → call.IsUpload
  held : ∀ id ∈ desk.ended, desk.store.sessions.Holds id

theorem Kept.note (kept : Kept desk) : Kept desk.note where
  single := kept.single
  spared := kept.spared
  closed session mem noted := by
    rcases List.mem_append.1 noted with seen | before
    · obtain ⟨ended, isEnded, same⟩ := List.mem_map.1 seen
      obtain ⟨endedMem, hasEnd⟩ := List.mem_filter.1 isEnded
      have equal : ended = session := desk.store.sessions.eq_of_id_eq endedMem mem same
      rw [← equal]
      exact Option.isSome_iff_ne_none.1 hasEnd
    · exact kept.closed session mem before
  listed := kept.listed
  uploads := kept.uploads
  held id noted := by
    rcases List.mem_append.1 noted with seen | before
    · obtain ⟨session, isEnded, rfl⟩ := List.mem_map.1 seen
      exact Dataplane.Table.holds_of_mem (List.mem_filter.1 isEnded).1
    · exact kept.held id before

variable {number : ℕ}

theorem Kept.become (kept : Kept desk) {errand : Option Errand}
    (listed : ∀ rest, errand = some (.sweep rest) → ∀ session ∈ rest,
      session.updatedAt < desk.now - staleSessionAfter)
    (uploads : ∀ call, errand = some (.upload call) → call.IsUpload) :
    Kept (desk.become number errand) where
  single := kept.single
  spared := kept.spared
  closed := kept.closed
  listed other rest found := by
    by_cases same : other = number
    · subst same
      simp only [Desk.become, Function.update_self] at found
      exact listed rest found
    · simp only [Desk.become, Function.update_of_ne same] at found
      exact kept.listed other rest found
  uploads other call found := by
    by_cases same : other = number
    · subst same
      simp only [Desk.become, Function.update_self] at found
      exact uploads call found
    · simp only [Desk.become, Function.update_of_ne same] at found
      exact kept.uploads other call found
  held := kept.held

theorem Kept.done (kept : Kept desk) : Kept (desk.become number none) :=
  kept.become (fun _ found => by cases found) (fun _ found => by cases found)

theorem Kept.update (kept : Kept desk) {set : WorkSession → WorkSession}
    {keeps : ∀ session, (set session).id = session.id}
    (opens : ∀ session, (set session).endedAt = none → session.endedAt = none)
    (single : Single (desk.store.updateSessions query set keeps).sessions.rows desk.now) :
    Kept { desk with store := desk.store.updateSessions query set keeps } where
  single := single
  spared := kept.spared
  closed session mem noted := by
    intro isOpen
    obtain ⟨row, rowMem, rfl⟩ := (Store.mem_updateSessions keeps).1 mem
    split_ifs at noted isOpen
    · exact kept.closed row rowMem (keeps row ▸ noted) (opens row isOpen)
    · exact kept.closed row rowMem noted isOpen
  listed := kept.listed
  uploads := kept.uploads
  held id noted := by
    simpa only [Store.updateSessions, Dataplane.Table.holds_update] using kept.held id noted

theorem Kept.close (kept : Kept desk) :
    Kept { desk with
      store := desk.store.updateSessions query (WorkSession.close ended now) keeps } := by
  apply kept.update
  · intro session isOpen
    cases isOpen
  · intro session mem other otherMem shares live otherLive
    exact kept.single session (mem_of_mem_close mem live.1) other
      (mem_of_mem_close otherMem otherLive.1) shares live otherLive

variable {fresh : UUID}

theorem Kept.insert (kept : Kept desk) {agent : Agent} {around : Surroundings}
    {request : StartRequest} (none : desk.store.findSessions (resumable agent desk.now) = []) :
    Kept { desk with
      store := desk.store.insertSession (newSession agent around request fresh desk.now) } := by
  have alone : ∀ session ∈ desk.store.sessions.rows, session.IsLive desk.now →
      session.deviceID = some agent.deviceID → session.orgID ≠ agent.orgID := by
    intro session mem live sameDevice sameOrg
    have selected : (resumable agent desk.now).selects session = true := by
      simp [SessionQuery.selects_iff, resumable, sameOrg, sameDevice, live.1, live.2]
    have found : session ∈ desk.store.findSessions (resumable agent desk.now) :=
      (List.mem_insertionSort _).2 (List.mem_filter.2 ⟨mem, selected⟩)
    rw [none] at found
    cases found
  refine { single := ?single, spared := kept.spared, closed := ?closed, listed := kept.listed,
           uploads := kept.uploads, held := ?held }
  case single =>
    intro session mem other otherMem shares live otherLive
    rcases Dataplane.Table.mem_insert mem with ⟨rfl, -⟩ | before
    · rcases Dataplane.Table.mem_insert otherMem with ⟨rfl, -⟩ | otherBefore
      · rfl
      · exact absurd shares.2.2.symm (alone other otherBefore otherLive shares.2.1.symm)
    · rcases Dataplane.Table.mem_insert otherMem with ⟨rfl, -⟩ | otherBefore
      · exact absurd shares.2.2 (alone session before live shares.2.1)
      · exact kept.single session before other otherBefore shares live otherLive
  case closed =>
    intro session mem noted
    rcases Dataplane.Table.mem_insert mem with ⟨rfl, absent⟩ | before
    · exact absurd (kept.held _ noted) absent
    · exact kept.closed session before noted
  case held =>
    intro id noted
    exact Dataplane.Table.holds_insert.2 (.inr (kept.held id noted))

theorem WorkSession.SharesDevice.symm (shares : session.SharesDevice other) :
    other.SharesDevice session :=
  ⟨shares.2.1 ▸ shares.1, shares.2.1.symm, shares.2.2.symm⟩

theorem Kept.writeBack (kept : Kept desk) {sessionID : UUID} {totals : Rollup}
    (careful : Errand.Careful desk (.upload (.writeBack sessionID totals))) :
    Kept { desk with
      store := desk.store.updateSessions (rolledUp sessionID)
        (WorkSession.setTotals totals desk.now) fun _ => rfl } := by
  have apart : ∀ row ∈ desk.store.sessions.rows, row.id = sessionID → row.endedAt = none →
      ∀ other ∈ desk.store.sessions.rows, other.id ≠ sessionID → row.SharesDevice other →
        ¬other.IsLive desk.now := by
    intro row rowMem isRow isOpen other otherMem differs shares otherLive
    rcases careful row rowMem isRow isOpen with live | none
    · have same := kept.single row rowMem other otherMem shares live otherLive
      exact differs (same ▸ isRow)
    · exact none other otherMem shares otherLive
  apply kept.update
  · intro session isOpen
    exact isOpen
  · intro session mem other otherMem shares live otherLive
    obtain ⟨row, rowMem, rfl⟩ := (Store.mem_updateSessions _).1 mem
    obtain ⟨otherRow, otherRowMem, rfl⟩ := (Store.mem_updateSessions _).1 otherMem
    simp only [selects_rolledUp] at shares live otherLive ⊢
    by_cases isRow : row.id = sessionID
    · by_cases isOther : otherRow.id = sessionID
      · have same : row = otherRow :=
          desk.store.sessions.eq_of_id_eq rowMem otherRowMem (isRow.trans isOther.symm)
        rw [same]
      · rw [if_pos isRow, if_neg isOther] at shares
        rw [if_pos isRow] at live
        rw [if_neg isOther] at otherLive
        exact absurd otherLive (apart row rowMem isRow live.1 otherRow otherRowMem isOther shares)
    · rw [if_neg isRow] at shares live ⊢
      by_cases isOther : otherRow.id = sessionID
      · rw [if_pos isOther] at shares otherLive
        exact absurd live (apart otherRow otherRowMem isOther otherLive.1 row rowMem isRow shares.symm)
      · rw [if_neg isOther] at shares otherLive ⊢
        exact kept.single row rowMem otherRow otherRowMem shares live otherLive

section

variable (kept : Kept desk)

include kept

theorem Kept.tick (elapsed : ℕ) : Kept { desk with now := desk.now + elapsed } where
  single := kept.single.of_le (Int.le_add_of_nonneg_right (Int.natCast_nonneg elapsed))
  spared := kept.spared
  closed := kept.closed
  listed number rest found session mem := by
    have stale := kept.listed number rest found session mem
    simp only [Time] at stale ⊢
    omega
  uploads := kept.uploads
  held := kept.held

theorem Kept.sweep {listed : WorkSession} {rest : List WorkSession}
    (found : desk.requests number = some (.sweep (listed :: rest)))
    (careful : Errand.Careful desk (.sweep (listed :: rest))) :
    Kept { desk with
      store := desk.store.updateSessions (stillOpenByID listed.id)
        (WorkSession.close listed.updatedAt desk.now) fun _ => rfl
      swept := (desk.store.sessions.rows.filter (stillOpenByID listed.id).selects).map
        (Prod.mk desk.now) ++ desk.swept } := by
  have closed : Kept { desk with
      store := desk.store.updateSessions (stillOpenByID listed.id)
        (WorkSession.close listed.updatedAt desk.now) fun _ => rfl } := kept.close
  refine { closed with spared := ?_ }
  intro time session mem
  rcases List.mem_append.1 mem with isNew | old
  · obtain ⟨row, isRow, same⟩ := List.mem_map.1 isNew
    cases same
    obtain ⟨rowMem, selected⟩ := List.mem_filter.1 isRow
    obtain ⟨isListed, isOpen⟩ := selects_stillOpenByID.1 selected
    rw [careful session rowMem isListed isOpen]
    exact kept.listed number _ found listed List.mem_cons_self
  · exact kept.spared time session old

theorem Kept.upload {call : Call}
    (isUpload : call.IsUpload) (careful : Errand.Careful desk (.upload call)) :
    Kept (desk.next number true fresh (.upload call)) := by
  rcases isUpload with ⟨shot, rfl⟩ | ⟨id, rfl⟩ | ⟨id, totals, rfl⟩
  · have inserted : Kept { desk with
        store := desk.store.insertScreenshot { shot with id := fresh } } :=
      { kept with }
    apply inserted.become
    · intro rest found
      cases named : shot.sessionID <;> simp [named] at found
    · intro call found
      cases named : shot.sessionID with
      | none => simp [named] at found
      | some id =>
        simp only [named, Option.map_some, Option.some.injEq, Errand.upload.injEq] at found
        exact .inr (.inl ⟨id, found.symm⟩)
  · apply kept.become
    · intro rest found
      simp at found
    · intro call found
      simp only [Option.map_some, Option.some.injEq, Errand.upload.injEq] at found
      exact .inr (.inr ⟨id, _, found.symm⟩)
  · exact (kept.writeBack careful).done

theorem Kept.failed {errand : Errand}
    (found : desk.requests number = some errand) : Kept (desk.next number false fresh errand) := by
  cases errand with
  | start agent around request => exact kept.done
  | upload call =>
    have none : call.fail = none := by
      rcases kept.uploads number call found with ⟨shot, rfl⟩ | ⟨id, rfl⟩ | ⟨id, totals, rfl⟩ <;> rfl
    simp only [Desk.next, none]
    exact kept.done
  | sweep listed =>
    cases listed with
    | nil => exact kept.done
    | cons session rest =>
      apply kept.become
      · rintro _ ⟨⟩ listed mem
        exact kept.listed number _ found listed (List.mem_cons_of_mem _ mem)
      · intro call isUpload
        cases isUpload

theorem Kept.next {errand : Errand}
    (found : desk.requests number = some errand) (careful : errand.Careful desk) :
    Kept (desk.next number true fresh errand) := by
  cases errand with
  | start agent around request => exact (kept.insert careful).done
  | upload call => exact kept.upload (kept.uploads number call found) careful
  | sweep listed =>
    cases listed with
    | nil => exact kept.done
    | cons session rest =>
      apply (kept.sweep found careful).become
      · rintro _ ⟨⟩ listed mem
        exact kept.listed number _ found listed (List.mem_cons_of_mem _ mem)
      · intro call isUpload
        cases isUpload

theorem kept_act {deed : Deed} (careful : deed.Careful desk)
    (acted : desk.act deed = some following) : Kept following := by
  cases deed with
  | tick elapsed =>
    cases acted
    exact kept.tick elapsed
  | startSession number agent around request =>
    simp only [Desk.act] at acted
    split_ifs at acted
    split at acted
    · cases acted
      exact kept.become (fun _ found => by cases found) (fun _ found => by cases found)
    · cases acted
      exact kept
  | endSession agent around sessionID endedAt =>
    simp only [Desk.act] at acted
    split_ifs at acted
    cases acted
    rcases endSession_effect agent around sessionID endedAt desk.store with same | ⟨query, ended, same⟩
    · rw [same]
      exact kept
    · rw [same]
      exact kept.close
  | upload number shot =>
    simp only [Desk.act] at acted
    split_ifs at acted
    cases acted
    apply kept.become
    · intro rest found
      cases found
    · rintro call ⟨⟩
      exact .inl ⟨shot, rfl⟩
  | sweep number orgID cutoff =>
    simp only [Desk.act] at acted
    split_ifs at acted with enabled
    cases acted
    apply kept.become
    · rintro _ ⟨⟩ session mem
      exact (updatedAt_of_mem_findStale careful mem).trans_le enabled.2
    · intro call found
      cases found
  | call number succeeds fresh =>
    obtain ⟨errand, found, rfl⟩ := Option.map_eq_some_iff.1 acted
    cases succeeds with
    | true => exact kept.next found (careful rfl errand found)
    | false => exact kept.failed found

theorem kept_step {deed : Deed} (careful : deed.Careful desk)
    (stepped : desk.step deed = some following) : Kept following := by
  obtain ⟨acted, isNext, rfl⟩ := Option.map_eq_some_iff.1 stepped
  exact (kept_act kept careful isNext).note

end

theorem kept_start (now : Time) : Kept (Desk.start now) where
  single := fun _ mem => absurd mem List.not_mem_nil
  spared _ _ mem := absurd mem List.not_mem_nil
  closed _ mem := absurd mem List.not_mem_nil
  listed _ _ found := by cases found
  uploads _ _ found := by cases found
  held _ mem := absurd mem List.not_mem_nil

/-- In every run of careful deeds, a device has one live session and only stale ones are swept. -/
theorem settled_of_careful {trace : List Deed} {now : Time}
    (careful : AllSteps Desk.step (fun desk deed => deed.Careful desk) (Desk.start now) trace) :
    ∀ reached, Visits Desk.step (Desk.start now) trace reached → Settled reached := by
  rintro reached ⟨seen, ⟨rest, rfl⟩, executed⟩
  have seenCareful := ((allSteps_append executed).1 careful).1
  exact (invariant_of_allSteps (fun _ _ _ kept isCareful stepped => kept_step kept isCareful stepped)
    (kept_start now) seenCareful executed).toSettled

def laptop : Agent where
  deviceID := ⟨1⟩
  orgID := ⟨2⟩
  employeeID := none
  orgID_ne := by decide

def noon : Time := 63000000000 * 10 ^ 9

def asked : StartRequest := ⟨"laptop", "", none⟩

instance : Decidable (session.IsLive now) := inferInstanceAs (Decidable (_ ∧ _))

instance : Decidable (session.SharesDevice other) := inferInstanceAs (Decidable (_ ∧ _ ∧ _))

instance (errand : Errand) : Decidable (errand.Careful desk) :=
  match errand with
  | .start _ _ _ => inferInstanceAs (Decidable (_ = _))
  | .upload (.writeBack _ _) => inferInstanceAs (Decidable (∀ session ∈ desk.store.sessions.rows, _))
  | .sweep (_ :: _) => inferInstanceAs (Decidable (∀ session ∈ desk.store.sessions.rows, _))
  | .upload (.insertShot _) | .upload (.aggregate _) | .upload (.findShot _ _)
  | .upload (.deleteShot _ _ _) | .upload (.findSession _ _) | .upload (.listShots _ _)
  | .upload (.deleteShots _ _) | .upload (.deleteSession _ _) | .upload (.findOld _ _)
  | .upload (.deleteOld _ _ _) | .upload (.deleteEnded _ _) | .sweep [] => isTrue trivial

instance (deed : Deed) : Decidable (deed.Careful desk) :=
  match deed with
  | .call number succeeds _ =>
    decidable_of_iff
      (succeeds = true → (desk.requests number).all fun errand => errand.Careful desk)
      (by simp [Deed.Careful, Option.all_eq_true])
  | .sweep _ _ cutoff => inferInstanceAs (Decidable (cutoff ≠ 0))
  | .tick _ | .startSession _ _ _ _ | .endSession _ _ _ _ | .upload _ _ => isTrue trivial

def noonShot : Screenshot where
  id := .zero
  orgID := ⟨2⟩
  employeeID := none
  deviceID := some ⟨1⟩
  sessionID := some ⟨7⟩
  capturedAt := noon
  intervalStart := noon - 60 * 10 ^ 9
  intervalEnd := noon
  storageKey := ""
  bytes := 1
  activityPercent := 50
  activeSeconds := 30
  intervalSeconds := 60
  state := .active

/-- An agent starts twice and uploads an image, and a sweep comes when its session has gone stale. -/
def workday : List Deed :=
  [.startSession 0 laptop (calm noon) asked, .call 0 true ⟨7⟩,
    .startSession 1 laptop (calm noon) asked, .upload 2 noonShot, .call 2 true ⟨8⟩, .call 2 true ⟨9⟩,
    .call 2 true ⟨10⟩, .tick (16 * 60 * 10 ^ 9), .sweep 3 ⟨2⟩ (noon + 60 * 10 ^ 9), .call 3 true ⟨11⟩,
    .call 3 true ⟨12⟩]

theorem settled_workday :
    (exec Desk.step (Desk.start noon) workday).map (fun desk => desk.swept.map (·.2.id)) =
        some [⟨7⟩] ∧
      ∀ reached, Visits Desk.step (Desk.start noon) workday reached → Settled reached :=
  ⟨by decide +kernel, settled_of_careful (allSteps_of_checkSteps (by decide +kernel))⟩

def restarts : List Deed :=
  [.startSession 0 laptop (calm noon) asked, .startSession 1 laptop (calm noon) asked,
    .call 0 true ⟨7⟩, .call 1 true ⟨8⟩]

/-- Two starts of one device find no session before either inserts its own. -/
theorem not_settled_restarts : ¬∀ reached, Visits Desk.step (Desk.start noon) restarts reached →
    Settled reached := by
  intro always
  have rows : (exec Desk.step (Desk.start noon) restarts).map (fun desk => desk.store.sessions.rows) =
      some [newSession laptop (calm noon) asked ⟨8⟩ noon, newSession laptop (calm noon) asked ⟨7⟩ noon] := by
    decide +kernel
  cases executed : exec Desk.step (Desk.start noon) restarts with
  | none => simp [executed] at rows
  | some reached =>
    simp only [executed, Option.map_some, Option.some.injEq] at rows
    have settled := always reached ⟨_, List.prefix_refl _, executed⟩
    have clock : (exec Desk.step (Desk.start noon) restarts).map Desk.now = some noon := by
      decide +kernel
    simp only [executed, Option.map_some, Option.some.injEq] at clock
    have single := settled.single
    rw [rows, clock] at single
    have same := single _ List.mem_cons_self _ (List.mem_cons_of_mem _ List.mem_cons_self)
      ⟨rfl, rfl, rfl⟩ ⟨rfl, by decide⟩ ⟨rfl, by decide⟩
    cases same

end Aavishield.Monitoring
