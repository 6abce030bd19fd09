import Aavishield.Lib.TransitionSystem
import Aavishield.Policy.PolicyCache

/-!
# Hosts that look pinned

An application that pins a certificate opens inspected connections and leaves them without a
request.  The agent counts such connections for each host in a table, and passes a host through
for a day once enough of them came within two minutes, unless the host was ever used.  The
table is emptied when it has grown too large.
-/

namespace Aavishield.PinnedHosts

open DomainRules (Primitives folded)
open Text TransitionSystem

def emptyWindow : Time := 120 * 10 ^ 9

def emptyLimit : ℕ := 2

def refusedFor : Time := 24 * 3600 * 10 ^ 9

def tableBound : ℕ := 4096

structure Entry where
  count : ℕ
  since : Time
  served : Bool

structure Connection where
  host : List Char
  ended : Time
  served : Bool

/-- What the proxy has seen of its connections. -/
structure State where
  clock : Time
  empty : List (List Char × Entry)
  refused : List (List Char × Time)
  connections : List Connection

def State.initial : State := ⟨0, [], [], []⟩

def insert {Value : Type} (table : List (List Char × Value)) (key : List Char) (value : Value) :
    List (List Char × Value) :=
  (key, value) :: table.filter fun pair => pair.1 ≠ key

inductive Action where
  /-- `note_connection`. -/
  | note (host : List Char) (served : Bool)
  /-- `learn_refused`, called for a handshake that was refused. -/
  | refuse (host : List Char)

structure Step where
  now : Time
  action : Action

section Model

variable (env : Primitives)

def learnRefused (state : State) (now : Time) (host : List Char) : Bool × State :=
  let host := folded env host
  let refused := state.refused.filter fun pair => now - pair.2 < refusedFor
  if tableBound ≤ refused.length then (false, { state with refused := refused })
  else ((refused.lookup host).isNone, { state with refused := insert refused host now })

def State.cleared (state : State) : List (List Char × Entry) :=
  if tableBound < state.empty.length then [] else state.empty

def Entry.counted (entry : Entry) (now : Time) : Entry :=
  let entry := if emptyWindow < now - entry.since then ⟨0, now, entry.served⟩ else entry
  -- a 32-bit counter
  { entry with count := (entry.count + 1) % 2 ^ 32 }

def noteConnection (state : State) (now : Time) (host : List Char) (served : Bool) : Bool × State :=
  let key := folded env host
  let table := state.cleared
  let entry := (table.lookup key).getD ⟨0, now, false⟩
  let connections := state.connections ++ [⟨host, now, served⟩]
  if served then
    (false, { state with
      empty := insert table key { entry with served := true }, connections := connections })
  else
    let entry := entry.counted now
    let state := { state with empty := insert table key entry, connections := connections }
    if entry.served = false ∧ emptyLimit ≤ entry.count then learnRefused env state now key
    else (false, state)

/-- The clock does not run backwards. -/
def step (state : State) (step : Step) : Option State :=
  if step.now < state.clock then none
  else
    let state := { state with clock := step.now }
    match step.action with
    | .note host served => some (noteConnection env state step.now host served).2
    | .refuse host => some (learnRefused env state step.now host).2

def spelled (host : List Char) : List Char := trimSuffix ['.'] (folded env host)

def emptyConnections (connections : List Connection) (now : Time) (host : List Char) :
    List Connection :=
  connections.filter fun connection =>
    folded env connection.host = folded env host ∧ connection.served = false ∧
      now - connection.ended ≤ emptyWindow

/-- A host is reported only for enough unused connections, and never if it was used. -/
def Sound (state : State) (step : Step) : Prop :=
  match step.action with
  | .note host served =>
    (noteConnection env state step.now host served).1 = true →
      emptyLimit ≤ (emptyConnections env
          (state.connections ++ [⟨host, step.now, served⟩]) step.now host).length ∧
        ∀ connection ∈ state.connections,
          spelled env connection.host = spelled env host →
            connection.served = false
  | .refuse _ => True

/--
The table is not emptied while it knows a host that was used, and the host was not used under
the name that differs by the dot at the end.
-/
def Careful (state : State) (step : Step) : Prop :=
  match step.action with
  | .note host _ =>
    (tableBound < state.empty.length → ∀ pair ∈ state.empty, pair.2.served = false) ∧
      ∀ connection ∈ state.connections, connection.served = true →
        spelled env connection.host = spelled env host →
          folded env connection.host = folded env host
  | .refuse _ => True

instance (state : State) (label : Step) : Decidable (Careful env state label) :=
  match label with
  | ⟨_, .note _ _⟩ => inferInstanceAs (Decidable (_ ∧ _))
  | ⟨_, .refuse _⟩ => inferInstanceAs (Decidable True)

end Model

variable {env : Primitives} {state : State} {now : Time} {host key : List Char}
  {served : Bool}

section Tables

variable {Value : Type} {table : List (List Char × Value)} {other : List Char} {value : Value}

@[simp]
theorem lookup_insert_self : (insert table key value).lookup key = some value := by
  simp [insert]

theorem lookup_insert_of_ne (differs : other ≠ key) :
    (insert table key value).lookup other = table.lookup other := by
  have apart : (other == key) = false := by simpa using differs
  rw [insert, List.lookup_cons, apart]
  induction table with
  | nil => rfl
  | cons pair rest ih =>
    by_cases isKey : pair.1 = key
    · rw [List.filter_cons_of_neg (by simpa using isKey), List.lookup_cons, isKey, apart]
      exact ih
    · rw [List.filter_cons_of_pos (by simpa using isKey), List.lookup_cons, List.lookup_cons]
      cases other == pair.1 with
      | true => rfl
      | false => exact ih

theorem length_insert_of_absent (absent : table.lookup key = none) :
    (insert table key value).length = table.length + 1 := by
  have kept : table.filter (fun pair => pair.1 ≠ key) = table := by
    apply List.filter_eq_self.mpr
    intro pair pairMem
    have differs := List.lookup_eq_none_iff.mp absent pair pairMem
    simp only [decide_eq_true_eq]
    rintro rfl
    simp at differs
  rw [insert, kept, List.length_cons]

end Tables

structure Entry.Tells (entry : Entry) (env : Primitives) (connections : List Connection)
    (key : List Char) : Prop where
  counted : entry.count ≤ (connections.filter fun connection =>
    folded env connection.host = key ∧ connection.served = false ∧
      entry.since ≤ connection.ended).length
  unused : entry.served = false → ∀ connection ∈ connections,
    folded env connection.host = key → connection.served = false

def Kept (env : Primitives) (clock : Time) (table : List (List Char × Entry))
    (connections : List Connection) : Prop :=
  ∀ key now, clock ≤ now →
    ((table.lookup key).getD ⟨0, now, false⟩).Tells env connections key ∧
      ((table.lookup key).getD ⟨0, now, false⟩).since ≤ now

variable {connections : List Connection}

theorem Entry.Tells.fresh
    (unused : ∀ connection ∈ connections, folded env connection.host = key →
      connection.served = false) :
    (Entry.mk 0 now false).Tells env connections key :=
  ⟨Nat.zero_le _, fun _ => unused⟩

theorem Kept.cleared (kept : Kept env state.clock state.empty state.connections)
    (careful : tableBound < state.empty.length → ∀ pair ∈ state.empty, pair.2.served = false) :
    Kept env state.clock state.cleared state.connections := by
  rw [State.cleared]
  split_ifs with full
  · intro key now later
    refine ⟨.fresh ?_, Int.le_refl _⟩
    apply (kept key now later).1.unused
    cases found : state.empty.lookup key with
    | none => rfl
    | some entry =>
      have entryMem : (key, entry) ∈ state.empty := by
        rcases List.lookup_eq_some_iff.mp found with ⟨before, after, isSplit, -⟩
        rw [isSplit]
        simp
      exact careful full _ entryMem
  · exact kept

theorem Entry.served_counted (entry : Entry) : (entry.counted now).served = entry.served := by
  unfold Entry.counted
  split_ifs <;> rfl

theorem Entry.since_counted (entry : Entry) (now : Time) :
    now - (entry.counted now).since ≤ emptyWindow := by
  unfold Entry.counted
  split_ifs with late
  · simp [emptyWindow]
  · simpa using late

variable {entry : Entry}

theorem Entry.Tells.counted_append
    (tells : entry.Tells env connections (folded env host))
    (ordered : entry.since ≤ now) :
    (entry.counted now).Tells env (connections ++ [⟨host, now, false⟩])
      (folded env host) := by
  constructor
  · unfold Entry.counted
    split_ifs with late
    · simp [List.filter_append]
    · have := tells.counted
      rw [List.filter_append, List.length_append]
      apply (Nat.mod_le _ _).trans
      simpa [ordered] using this
  · intro unused connection connectionMem isHost
    rw [Entry.served_counted] at unused
    rcases List.mem_append.mp connectionMem with before | last
    · exact tells.unused unused connection before isHost
    · rw [List.mem_singleton] at last
      rw [last]

theorem Entry.Tells.append_other
    (tells : entry.Tells env connections key) (connection : Connection)
    (other : folded env connection.host ≠ key) :
    entry.Tells env (connections ++ [connection]) key := by
  constructor
  · have := tells.counted
    rw [List.filter_append, List.length_append]
    omega
  · intro unused another anotherMem isHost
    rcases List.mem_append.mp anotherMem with before | last
    · exact tells.unused unused another before isHost
    · rw [List.mem_singleton] at last
      exact absurd (last ▸ isHost) other

theorem Entry.Tells.served_append
    (tells : entry.Tells env connections key) (connection : Connection) :
    { entry with served := true }.Tells env (connections ++ [connection]) key := by
  constructor
  · have := tells.counted
    rw [List.filter_append, List.length_append]
    dsimp only
    omega
  · intro unused
    cases unused

theorem Kept.insert {clock : Time} {table : List (List Char × Entry)}
    (kept : Kept env clock table connections) (later : clock ≤ now)
    (tells : entry.Tells env (connections ++ [⟨host, now, served⟩]) (folded env host))
    (ordered : entry.since ≤ now) :
    Kept env now (insert table (folded env host) entry)
      (connections ++ [⟨host, now, served⟩]) := by
  intro key afterwards muchLater
  by_cases isHost : key = folded env host
  · subst isHost
    rw [lookup_insert_self, Option.getD_some]
    exact ⟨tells, Int.le_trans ordered muchLater⟩
  · rw [lookup_insert_of_ne isHost]
    rcases kept key afterwards (Int.le_trans later muchLater) with ⟨tells, ordered⟩
    exact ⟨tells.append_other _ (Ne.symm isHost), ordered⟩

theorem learnRefused_keeps (state : State) (now : Time) (host : List Char) :
    (learnRefused env state now host).2.clock = state.clock ∧
      (learnRefused env state now host).2.empty = state.empty ∧
      (learnRefused env state now host).2.connections = state.connections := by
  simp only [learnRefused]
  split_ifs <;> exact ⟨rfl, rfl, rfl⟩

theorem noteConnection_spec (env : Primitives) (state : State) (now : Time)
    (host : List Char) (served : Bool) :
    let entry := ((state.cleared.lookup (folded env host)).getD ⟨0, now, false⟩)
    let noted := if served then { entry with served := true } else entry.counted now
    (noteConnection env state now host served).2.clock = state.clock ∧
      (noteConnection env state now host served).2.empty =
        insert state.cleared (folded env host) noted ∧
      (noteConnection env state now host served).2.connections =
        state.connections ++ [⟨host, now, served⟩] ∧
      ((noteConnection env state now host served).1 = true →
        served = false ∧ noted.served = false ∧ emptyLimit ≤ noted.count) := by
  intro entry noted
  unfold noteConnection
  cases served with
  | true => exact ⟨rfl, rfl, rfl, fun reported => by cases reported⟩
  | false =>
    simp only [Bool.false_eq_true, if_false]
    split_ifs with pinned
    · rcases @learnRefused_keeps env
        { state with
          empty := PinnedHosts.insert state.cleared (folded env host) noted
          connections := state.connections ++ [⟨host, now, false⟩] } now (folded env host)
        with ⟨sameClock, sameEmpty, sameConnections⟩
      exact ⟨sameClock, sameEmpty, sameConnections, fun _ => ⟨trivial, pinned.1, pinned.2⟩⟩
    · simp [noted, entry]

def State.Kept (env : Primitives) (state : State) : Prop :=
  PinnedHosts.Kept env state.clock state.empty state.connections

theorem State.kept_initial : State.initial.Kept env := by
  intro key now _
  refine ⟨.fresh ?_, Int.le_refl _⟩
  intro connection connectionMem
  cases connectionMem

theorem State.Kept.tells (kept : state.Kept env) (host : List Char) (served : Bool)
    (later : state.clock ≤ now)
    (careful : tableBound < state.empty.length → ∀ pair ∈ state.empty, pair.2.served = false) :
    let entry := ((state.cleared.lookup (folded env host)).getD ⟨0, now, false⟩)
    let noted := if served then { entry with served := true } else entry.counted now
    noted.Tells env (state.connections ++ [⟨host, now, served⟩]) (folded env host) ∧
      noted.since ≤ now := by
  intro entry noted
  rcases Kept.cleared kept careful (folded env host) now later with ⟨tells, ordered⟩
  cases served with
  | true => exact ⟨tells.served_append _, ordered⟩
  | false =>
    refine ⟨tells.counted_append ordered, ?_⟩
    simp only [noted, Bool.false_eq_true, if_false, Entry.counted]
    split_ifs
    · exact Int.le_refl _
    · exact ordered

variable {label : Step}

theorem kept_step {next : State} (kept : state.Kept env)
    (careful : Careful env state label) (stepped : step env state label = some next) :
    next.Kept env := by
  rcases label with ⟨now, action⟩
  unfold step at stepped
  split_ifs at stepped with isPast
  have later : state.clock ≤ now := Int.not_lt.mp isPast
  cases action with
  | note host served =>
    cases stepped
    let ticked : State := { state with clock := now }
    rcases noteConnection_spec env ticked now host served with
      ⟨sameClock, isEmpty, isConnections, -⟩
    rcases kept.tells host served later careful.1 with ⟨tells, ordered⟩
    rw [State.Kept]
    dsimp only
    rw [sameClock, isEmpty, isConnections]
    exact (Kept.cleared kept careful.1).insert later tells ordered
  | refuse host =>
    cases stepped
    rcases @learnRefused_keeps env { state with clock := now } now host with
      ⟨sameClock, isEmpty, isConnections⟩
    rw [State.Kept]
    dsimp only
    rw [sameClock, isEmpty, isConnections]
    intro key afterwards muchLater
    exact kept key afterwards (Int.le_trans later muchLater)

theorem sound_of_kept (kept : state.Kept env)
    (careful : Careful env state label) (later : state.clock ≤ label.now) :
    Sound env state label := by
  rcases label with ⟨now, action⟩
  cases action with
  | refuse host => trivial
  | note host served =>
    intro reported
    rcases noteConnection_spec env state now host served with ⟨-, -, -, pinned⟩
    rcases pinned reported with ⟨rfl, unused, enough⟩
    rcases kept.tells host false later careful.1 with ⟨tells, -⟩
    simp only [Bool.false_eq_true, if_false] at unused enough tells
    constructor
    · apply enough.trans (tells.counted.trans _)
      apply List.Sublist.length_le
      apply List.monotone_filter_right
      intro connection
      simp only [decide_eq_true_eq]
      rintro ⟨isHost, isEmpty, inWindow⟩
      refine ⟨isHost, isEmpty, ?_⟩
      have := Entry.since_counted
        ((state.cleared.lookup (folded env host)).getD ⟨0, now, false⟩) now
      unfold Time at *
      omega
    · intro connection connectionMem sameName
      by_contra used
      rw [Bool.not_eq_false] at used
      have isHost := careful.2 connection connectionMem used sameName
      have := tells.unused unused connection (List.mem_append_left _ connectionMem) isHost
      rw [used] at this
      cases this

theorem le_now_of_step {next : State}
    (stepped : step env state label = some next) : state.clock ≤ label.now := by
  unfold step at stepped
  split_ifs at stepped with isPast
  exact Int.not_lt.mp isPast

/--
Whatever connections end in whatever order and at whatever times: as long as the table is not
emptied while it knows a used host, a host is reported only for enough unused connections in
the window, and never if it was used.
-/
theorem allSteps_sound {trace : List Step} {final : State}
    (executed : exec (step env) State.initial trace = some final)
    (careful : AllSteps (step env) (Careful env) State.initial trace) :
    AllSteps (step env) (Sound env) State.initial trace := by
  have enabled := allSteps_and.mpr ⟨careful, allSteps_enabled executed⟩
  refine allSteps_of_invariant ?_ ?_ (@State.kept_initial env) enabled
  · rintro state label next kept ⟨careful, -⟩ stepped
    exact kept_step kept careful stepped
  · rintro state label kept ⟨careful, next, stepped⟩
    exact sound_of_kept kept careful (le_now_of_step stepped)

def pinnedTrace : List Step :=
  [⟨0, .note "www.shop.example".toList true⟩, ⟨1, .note "pinned.example".toList false⟩,
    ⟨2, .note "Pinned.example".toList false⟩, ⟨3, .note "shop.example".toList false⟩]

theorem sound_pinnedTrace :
    AllSteps (step .ascii) (Sound .ascii) State.initial pinnedTrace := by
  have runs : ∃ final, exec (step .ascii) State.initial pinnedTrace = some final :=
    Option.isSome_iff_exists.mp (by decide)
  rcases runs with ⟨final, executed⟩
  apply allSteps_sound executed
  apply allSteps_of_checkSteps
  decide

def site (number : ℕ) : List Char :=
  (List.range 13).map (fun bit => if number.testBit bit then 'b' else 'a') ++ ".example".toList

theorem site_injective {first second : ℕ} (small : first < 2 ^ 13) (smaller : second < 2 ^ 13)
    (same : site first = site second) : first = second := by
  have sameLetters := List.map_inj_left.mp (List.append_cancel_right same)
  apply Nat.eq_of_testBit_eq
  intro bit
  by_cases inside : bit < 13
  · have sameLetter := sameLetters bit (List.mem_range.mpr inside)
    split_ifs at sameLetter <;> simp_all
  · have high : ∀ number < 2 ^ 13, number.testBit bit = false := by
      intro number isSmall
      apply Nat.testBit_lt_two_pow
      exact Nat.lt_of_lt_of_le isSmall (Nat.pow_le_pow_right (by omega) (by omega))
    rw [high first small, high second smaller]

theorem folded_site (number : ℕ) : folded .ascii (site number) = site number := by
  have lowered : (site number).map Char.toLower = site number := by
    rw [site, List.map_append, List.map_map]
    congr 1
    apply List.map_congr_left
    intro bit _
    dsimp only [Function.comp_apply]
    split_ifs <;> rfl
  have plain : ¬"www.".toList <+: site number := by
    rintro ⟨rest, isSite⟩
    have starts : (site number).head? = some (if number.testBit 0 then 'b' else 'a') := rfl
    rw [← isSite] at starts
    split_ifs at starts <;> simp at starts
  rw [folded]
  change trimPrefix _ ((site number).map Char.toLower) = _
  rw [lowered, trimPrefix_of_other_start plain]

def visits (count : ℕ) : List Step :=
  (List.range count).map fun number => ⟨0, .note (site number) true⟩

theorem visits_succ (count : ℕ) :
    visits (count + 1) = visits count ++ [⟨0, .note (site count) true⟩] := by
  simp [visits, List.range_succ]

structure Filled (count : ℕ) (state : State) : Prop where
  clock : state.clock = 0
  length : state.empty.length = count
  absent : ∀ number, count ≤ number → number < 2 ^ 13 → state.empty.lookup (site number) = none
  refused : state.refused = []
  used : 0 < count → ⟨site 0, 0, true⟩ ∈ state.connections

theorem exec_visits {count : ℕ} (fits : count ≤ tableBound + 1) :
    ∃ state, exec (step .ascii) State.initial (visits count) = some state ∧ Filled count state := by
  induction count with
  | zero =>
    exact ⟨State.initial, rfl, rfl, rfl, fun _ _ _ => rfl, rfl, fun positive => absurd positive (by omega)⟩
  | succ count ih =>
    rcases ih (by omega) with ⟨state, executed, filled⟩
    have small : count < 2 ^ 13 := by
      unfold tableBound at fits
      omega
    let noted : Entry := ⟨0, 0, true⟩
    let next : State :=
      { state with
        clock := 0, empty := insert state.empty (site count) noted
        connections := state.connections ++ [⟨site count, 0, true⟩] }
    have absent := filled.absent count le_rfl small
    have stepped : step .ascii state ⟨0, .note (site count) true⟩ = some next := by
      have notFull : ¬tableBound < state.empty.length := by
        rw [filled.length]
        omega
      simp only [step, filled.clock, noteConnection, State.cleared, folded_site, absent,
        if_neg notFull, Option.getD_none, if_true, next, noted]
      rfl
    refine ⟨next, ?_, rfl, ?_, ?_, filled.refused, ?_⟩
    · rw [visits_succ, exec_append, executed]
      simp [exec, stepped]
    · dsimp only [next]
      rw [length_insert_of_absent absent, filled.length]
    · intro number later isSmall
      dsimp only [next]
      rw [lookup_insert_of_ne, filled.absent number (by omega) isSmall]
      intro same
      have := site_injective isSmall small same
      omega
    · intro _
      dsimp only [next]
      apply List.mem_append.mpr
      rcases Nat.eq_zero_or_pos count with rfl | positive
      · right
        simp
      · left
        apply filled.used positive

theorem not_sound_of_filled {trace : List Step} {state : State}
    (executed : exec (step .ascii) State.initial trace = some state)
    (filled : Filled (tableBound + 1) state) :
    ∃ later final, exec (step .ascii) State.initial (trace ++ later) = some final ∧
      ¬AllSteps (step .ascii) (Sound .ascii) State.initial (trace ++ later) := by
  have full : tableBound < state.empty.length := by
    rw [filled.length]
    omega
  let emptied : State :=
    { state with
      clock := 1, empty := [(site 0, ⟨1, 1, false⟩)]
      connections := state.connections ++ [⟨site 0, 1, false⟩] }
  have first : step .ascii state ⟨1, .note (site 0) false⟩ = some emptied := by
    simp [step, filled.clock, noteConnection, State.cleared, full, folded_site, Entry.counted,
      emptied, insert, emptyWindow, emptyLimit]
  have reported : (noteConnection .ascii emptied 2 (site 0) false).1 = true := by
    simp [noteConnection, State.cleared, folded_site, Entry.counted, emptied, emptyWindow,
      emptyLimit, tableBound, learnRefused, filled.refused]
  cases second : step .ascii emptied ⟨2, .note (site 0) false⟩ with
  | none => simp [step, emptied] at second
  | some final =>
    refine ⟨[⟨1, .note (site 0) false⟩, ⟨2, .note (site 0) false⟩], final, ?_, ?_⟩
    · rw [exec_append, executed]
      simp [exec, first, second]
    · intro sound
      rw [allSteps_append executed, allSteps_cons first] at sound
      have used := (sound.2.2.1 reported).2 ⟨site 0, 0, true⟩
        (List.mem_append_left _ (filled.used (by omega))) rfl
      cases used

/-- The table is full, and what it held of a host is forgotten. -/
theorem not_pinnedSound :
    ¬∀ trace final, exec (step .ascii) State.initial trace = some final →
      AllSteps (step .ascii) (Sound .ascii) State.initial trace := by
  intro always
  have fills : ∃ trace state, exec (step .ascii) State.initial trace = some state ∧
      Filled (tableBound + 1) state := ⟨_, exec_visits le_rfl⟩
  rcases fills with ⟨trace, state, executed, filled⟩
  rcases not_sound_of_filled executed filled with ⟨later, final, ran, unsound⟩
  exact unsound (always _ final ran)

end Aavishield.PinnedHosts
