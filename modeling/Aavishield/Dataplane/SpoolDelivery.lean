import Aavishield.Dataplane.Spool

/-!
# What becomes of a spooled batch
-/

namespace Aavishield.Dataplane.Spool

open TransitionSystem

variable {Key Sealed : Type}

@[simp]
theorem restoreKeys_marshal (events : List ActivityEvent) :
    restoreKeys (marshal events) = events := by
  apply List.ext_getElem
  · simp [restoreKeys, marshal]
  · intro index _ inRange
    simp [restoreKeys, marshal, dedupeKeys, inRange]

theorem Sealing.restoreKeys_openBatch (sealing : Sealing Key Sealed) {events : List ActivityEvent}
    {sealed : Sealed} (wasSealed : ∃ key, sealing.sealBatch key (marshal events) = some sealed)
    {key : Key} {batch : SpooledBatch} (opened : sealing.openBatch key sealed = some batch) :
    restoreKeys batch = events := by
  obtain ⟨sealKey, wasSealed⟩ := wasSealed
  rw [sealing.authentic wasSealed opened, restoreKeys_marshal]

/-- The tenant table holds a row for every event, under the event's id. -/
def Written (rows events : List ActivityEvent) : Prop :=
  ∀ event ∈ events, ∃ row ∈ rows, row.id = event.id

/-- A flush has dealt with the batch: its events are in the tenant store, or it cannot be opened. -/
def Finished (state : State Key Sealed) (held : Held Sealed) : Prop :=
  (held.seq ∈ state.delivered ∧ Written state.rows held.events) ∨ held.seq ∈ state.unreadable

/-- The batch left the list when the cap cut it off, and every batch kept then was younger. -/
def CutAsOldest (state : State Key Sealed) (held : Held Sealed) : Prop :=
  ∃ kept, (held.seq, kept) ∈ state.cut ∧ ∀ seq ∈ kept, held.seq < seq

def Settled (state : State Key Sealed) (held : Held Sealed) : Prop :=
  Finished state held ∨ CutAsOldest state held ∨ held.seq ∈ state.expired

/-- A batch is in the list or has been settled. -/
def Accounted (state : State Key Sealed) (held : Held Sealed) : Prop :=
  held ∈ state.list ∨ Settled state held

def LosesNoBatch (sealing : Sealing Key Sealed) : Prop :=
  ∀ trace state, exec (step sealing) .initial trace = some state →
    ∀ held ∈ state.pushed, Accounted state held

/--
The batches at the positions a flush is about to trim are among those it fetched
and finished with itself.
-/
def TrimsOwnBatches (state : State Key Sealed) : Action Key → Prop
  | .flushTrim id reply =>
    ∀ flush, state.flushes id = some flush → reply ≠ .unsent →
      ∀ held ∈ state.list.rtake flush.delivered, held ∈ flush.done
  | _ => True

inductive Transition (sealing : Sealing Key Sealed) (state : State Key Sealed) :
    Action Key → State Key Sealed → Prop where
  | spoolLost {key fresh events reply} :
      Transition sealing state (.spoolEvents key fresh events reply) state
  | push {key fresh events reply held}
      (numbered : held.seq = state.pushed.length)
      (wasSealed : sealing.sealBatch key (marshal held.events) = some held.sealed) :
      Transition sealing state (.spoolEvents key fresh events reply) (state.push held)
  | record {events} :
      Transition sealing state (.recordEvents events) { state with rows := events ++ state.rows }
  | start {id key} (unused : state.flushes id = none) :
      Transition sealing state (.flushStart id key) (state.flushStart id key)
  | skip {id outcome flush held} (running : state.flushes id = some flush)
      (walking : flush.phase = .walk) (current : flush.current = some held) :
      Transition sealing state (.flushBatch id outcome) (state.skipUnreadable id flush held)
  | deliver {id flush held batch} (running : state.flushes id = some flush)
      (current : flush.current = some held)
      (opened : sealing.openBatch flush.key held.sealed = some batch) :
      Transition sealing state (.flushBatch id .ok)
        ((state.insertEvents (restoreKeys batch) .ok).finishBatch id flush held (restoreKeys batch))
  | clash {id rows flush held batch} (running : state.flushes id = some flush)
      (current : flush.current = some held)
      (opened : sealing.openBatch flush.key held.sealed = some batch) :
      Transition sealing state (.flushBatch id (.duplicate rows))
        ((state.insertEvents (restoreKeys batch) (.duplicate rows)).setFlush id
          (some { flush with phase := .retry (restoreKeys batch) (restoreKeys batch) }))
  | breakOff {id rows events flush action} (running : state.flushes id = some flush)
      (writes : action = .flushBatch id (.failed rows) ∨ action = .flushEvent id (.failed rows)) :
      Transition sealing state action
        ((state.insertEvents events (.failed rows)).setFlush id
          (some { flush with phase := .trim }))
  | retryOne {id outcome flush batch event rest} (running : state.flushes id = some flush)
      (retrying : flush.phase = .retry batch (event :: rest))
      (inStore : Written (state.insertEvents [event] outcome).rows [event]) :
      Transition sealing state (.flushEvent id outcome)
        ((state.insertEvents [event] outcome).setFlush id
          (some { flush with phase := .retry batch rest }))
  | retryEnd {id outcome flush batch held} (running : state.flushes id = some flush)
      (retrying : flush.phase = .retry batch []) (current : flush.current = some held) :
      Transition sealing state (.flushEvent id outcome) (state.finishBatch id flush held batch)
  | trim {id reply flush} (running : state.flushes id = some flush) :
      Transition sealing state (.flushTrim id reply) (state.flushTrim id flush reply)
  | tick {elapsed} :
      Transition sealing state (.tick elapsed) { state with now := state.now + elapsed }
  | expire :
      Transition sealing state .expire { state with
        list := []
        expireAt := none
        expired := state.list.map (·.seq) ++ state.expired }

variable {sealing : Sealing Key Sealed} {state next : State Key Sealed} {action : Action Key}

theorem transition_of_step (stepped : step sealing state action = some next) :
    Transition sealing state action next := by
  cases action with
  | spoolEvents key fresh events reply =>
    simp only [step, Option.some.injEq] at stepped
    subst next
    simp only [State.spoolEvents]
    split
    · exact .spoolLost
    · split
      · exact .spoolLost
      · exact .push rfl (by assumption)
  | recordEvents events =>
    simp only [step, Option.some.injEq] at stepped
    exact stepped ▸ .record
  | flushStart id key =>
    simp only [step] at stepped
    split at stepped
    · simp only [Option.some.injEq] at stepped
      exact stepped ▸ .start (by assumption)
    · cases stepped
  | flushBatch id outcome =>
    simp only [step] at stepped
    split at stepped
    · rename_i flush running
      split at stepped
      · rename_i held walking current
        simp only [Option.some.injEq] at stepped
        subst next
        simp only [State.flushBatch]
        split
        · exact .skip running walking current
        · rename_i batch opened
          cases outcome with
          | ok => exact .deliver running current opened
          | duplicate rows => exact .clash running current opened
          | failed rows => exact .breakOff running (.inl rfl)
      · cases stepped
    · cases stepped
  | flushEvent id outcome =>
    simp only [step] at stepped
    split at stepped
    · rename_i flush running
      split at stepped
      · rename_i batch held retrying current
        simp only [Option.some.injEq] at stepped
        exact stepped ▸ .retryEnd running retrying current
      · rename_i batch event rest held retrying current
        simp only [State.flushEvent] at stepped
        cases outcome with
        | ok =>
          simp only [Option.some.injEq] at stepped
          refine stepped ▸ .retryOne running retrying ?_
          simp [Written, State.insertEvents]
        | duplicate rows =>
          simp only [Option.ite_none_right_eq_some, Option.some.injEq, List.any_eq_true,
            decide_eq_true_eq] at stepped
          obtain ⟨⟨row, rowMem, sameID⟩, stepped⟩ := stepped
          refine stepped ▸ .retryOne running retrying ?_
          simp only [Written, State.insertEvents, List.mem_singleton, List.mem_append]
          rintro _ rfl
          exact ⟨row, .inr rowMem, sameID⟩
        | failed rows =>
          simp only [Option.some.injEq] at stepped
          exact stepped ▸ .breakOff running (.inr rfl)
      · cases stepped
    · cases stepped
  | flushTrim id reply =>
    simp only [step] at stepped
    split at stepped
    · rename_i flush running
      split at stepped
      · simp only [Option.some.injEq] at stepped
        exact stepped ▸ .trim running
      · cases stepped
    · cases stepped
  | tick elapsed =>
    simp only [step, Option.some.injEq] at stepped
    exact stepped ▸ .tick
  | expire =>
    simp only [step, State.expire] at stepped
    split at stepped
    · split at stepped
      · simp only [Option.some.injEq] at stepped
        exact stepped ▸ .expire
      · cases stepped
    · cases stepped

/-- The rows of the store and the records of the batches, which no step takes anything from. -/
structure Grows (state next : State Key Sealed) : Prop where
  rows : state.rows ⊆ next.rows
  pushed : state.pushed ⊆ next.pushed
  delivered : state.delivered ⊆ next.delivered
  unreadable : state.unreadable ⊆ next.unreadable
  cut : state.cut ⊆ next.cut
  expired : state.expired ⊆ next.expired

theorem Written.mono {rows more events : List ActivityEvent} (written : Written rows events)
    (grown : rows ⊆ more) : Written more events := by
  intro event eventMem
  obtain ⟨row, rowMem, sameID⟩ := written event eventMem
  exact ⟨row, grown rowMem, sameID⟩

variable {held : Held Sealed}

theorem Finished.mono
    (finished : Finished state held) (grows : Grows state next) : Finished next held := by
  rcases finished with ⟨delivered, written⟩ | unreadable
  · exact .inl ⟨grows.delivered delivered, written.mono grows.rows⟩
  · exact .inr (grows.unreadable unreadable)

theorem Settled.mono
    (settled : Settled state held) (grows : Grows state next) : Settled next held := by
  rcases settled with finished | ⟨kept, cut, oldest⟩ | expired
  · exact .inl (finished.mono grows)
  · exact .inr (.inl ⟨kept, grows.cut cut, oldest⟩)
  · exact .inr (.inr (grows.expired expired))

theorem subset_rows_insertEvents (state : State Key Sealed) (events : List ActivityEvent)
    (outcome : InsertOutcome) : state.rows ⊆ (state.insertEvents events outcome).rows := by
  cases outcome <;> simp [State.insertEvents]

theorem insertEvents_eq (state : State Key Sealed) (events : List ActivityEvent)
    (outcome : InsertOutcome) :
    state.insertEvents events outcome =
      { state with rows := (state.insertEvents events outcome).rows } := by
  cases outcome <;> rfl

theorem Transition.grows (transition : Transition sealing state action next) :
    Grows state next := by
  cases transition with
  | spoolLost | record | tick | expire => constructor <;> simp
  | push => constructor <;> simp [State.push]
  | start => constructor <;> simp [State.flushStart, State.setFlush]
  | skip => constructor <;> simp [State.skipUnreadable, State.setFlush]
  | deliver => constructor <;> simp [State.finishBatch, State.setFlush, State.insertEvents]
  | clash | breakOff => constructor <;> simp [State.setFlush, State.insertEvents]
  | @retryOne id outcome flush batch event rest =>
    rw [insertEvents_eq]
    constructor <;> simp [State.setFlush, subset_rows_insertEvents]
  | retryEnd => constructor <;> simp [State.finishBatch, State.setFlush]
  | trim =>
    simp only [State.flushTrim]
    split <;> constructor <;> simp [State.setFlush]

/-- What holds of a running flush, whatever the other parties do meanwhile. -/
structure Sound (state : State Key Sealed) (flush : Flush Key Sealed) : Prop where
  fetched : ∀ held ∈ flush.items, held ∈ state.pushed
  finished : ∀ held ∈ flush.done, Finished state held
  retried : ∀ batch rest, flush.phase = .retry batch rest → ∀ held, flush.current = some held →
    ∀ event ∈ held.events, event ∈ rest ∨ ∃ row ∈ state.rows, row.id = event.id

structure Consistent (sealing : Sealing Key Sealed) (state : State Key Sealed) : Prop where
  listed : ∀ held ∈ state.list, held ∈ state.pushed
  ordered : state.list.Pairwise fun younger older => older.seq < younger.seq
  numbered : ∀ held ∈ state.pushed, held.seq < state.pushed.length
  wasSealed : ∀ held ∈ state.pushed,
    ∃ key, sealing.sealBatch key (marshal held.events) = some held.sealed
  flushes : ∀ id flush, state.flushes id = some flush → Sound state flush
  accounted : ∀ held ∈ state.pushed, Accounted state held

variable {flush : Flush Key Sealed}

theorem Sound.mono (sound : Sound state flush) (grows : Grows state next) : Sound next flush where
  fetched held heldMem := grows.pushed (sound.fetched held heldMem)
  finished held heldMem := (sound.finished held heldMem).mono grows
  retried batch rest retrying held current event eventMem := by
    rcases sound.retried batch rest retrying held current event eventMem with
      waiting | ⟨row, rowMem, sameID⟩
    · exact .inl waiting
    · exact .inr ⟨row, grows.rows rowMem, sameID⟩

theorem sound_of_update {id : ℕ} {replacement : Option (Flush Key Sealed)}
    (sound : ∀ other flush, state.flushes other = some flush → Sound state flush)
    (grows : Grows state next)
    (flushes : next.flushes = Function.update state.flushes id replacement)
    (replaced : ∀ flush, replacement = some flush → Sound next flush) :
    ∀ other flush, next.flushes other = some flush → Sound next flush := by
  intro other flush running
  rw [flushes] at running
  by_cases same : other = id
  · subst other
    rw [Function.update_self] at running
    exact replaced flush running
  · rw [Function.update_of_ne same] at running
    exact (sound other flush running).mono grows

theorem accounted_of_listed (accounted : Accounted state held) (grows : Grows state next)
    (listed : ∀ held ∈ state.list, Accounted next held) : Accounted next held := by
  rcases accounted with onList | settled
  · exact listed held onList
  · exact .inr (settled.mono grows)

theorem mem_done_succ {held other : Held Sealed} {events : ℕ}
    {phase : Phase} (current : flush.current = some held)
    (otherMem : other ∈ Flush.done { flush with
      delivered := flush.delivered + 1, events := events, phase := phase }) :
    other = held ∨ other ∈ flush.done := by
  simp only [Flush.done, Flush.current] at otherMem current ⊢
  rw [List.take_add_one, current] at otherMem
  simpa [or_comm] using otherMem

theorem mem_items_of_current (current : flush.current = some held) : held ∈ flush.items := by
  simpa using List.mem_of_getElem? current

theorem Sound.count (events : ℕ) (sound : Sound state flush) (grows : Grows state next)
    (current : flush.current = some held) (finished : Finished next held) :
    Sound next { flush with
      delivered := flush.delivered + 1, events := events, phase := .walk } where
  fetched other otherMem := grows.pushed (sound.fetched other otherMem)
  finished other otherMem := by
    rcases mem_done_succ current otherMem with rfl | before
    · exact finished
    · exact (sound.finished other before).mono grows
  retried batch rest retrying := by simp at retrying

/-- The step lemma for every action that leaves the list and the pushed batches alone. -/
theorem Consistent.of_list_eq (consistent : Consistent sealing state) (grows : Grows state next)
    (list : next.list = state.list) (pushed : next.pushed = state.pushed)
    (flushes : ∀ id flush, next.flushes id = some flush → Sound next flush) :
    Consistent sealing next where
  listed := by
    rw [list, pushed]
    exact consistent.listed
  ordered := by
    rw [list]
    exact consistent.ordered
  numbered := by
    rw [pushed]
    exact consistent.numbered
  wasSealed := by
    rw [pushed]
    exact consistent.wasSealed
  flushes := flushes
  accounted := by
    rw [pushed]
    intro held heldMem
    refine accounted_of_listed (consistent.accounted held heldMem) grows ?_
    intro other otherMem
    left
    rwa [list]

theorem Consistent.of_update {id : ℕ} {replacement : Flush Key Sealed}
    (consistent : Consistent sealing state) (grows : Grows state next)
    (list : next.list = state.list) (pushed : next.pushed = state.pushed)
    (flushes : next.flushes = Function.update state.flushes id (some replacement))
    (replaced : Sound next replacement) : Consistent sealing next := by
  refine consistent.of_list_eq grows list pushed (sound_of_update consistent.flushes grows flushes ?_)
  rintro _ ⟨⟩
  exact replaced

theorem Consistent.push {state : State Key Sealed} (consistent : Consistent sealing state)
    (numbered : held.seq = state.pushed.length)
    (wasSealed : ∃ key, sealing.sealBatch key (marshal held.events) = some held.sealed)
    (grows : Grows state (state.push held)) : Consistent sealing (state.push held) := by
  have grownOrdered : (held :: state.list).Pairwise fun younger older => older.seq < younger.seq := by
    refine List.pairwise_cons.mpr ⟨?_, consistent.ordered⟩
    intro other otherMem
    rw [numbered]
    exact consistent.numbered other (consistent.listed other otherMem)
  have split := List.take_append_drop spoolMaxBatches (held :: state.list)
  rw [← split, List.pairwise_append] at grownOrdered
  obtain ⟨keptOrdered, _, cutOlder⟩ := grownOrdered
  have listed : ∀ other ∈ held :: state.list, Accounted (state.push held) other := by
    intro other otherMem
    rw [← split, List.mem_append] at otherMem
    rcases otherMem with kept | lost
    · exact .inl kept
    · refine .inr (.inr (.inl ⟨_, List.mem_append_left _ (List.mem_map.mpr ⟨other, lost, rfl⟩), ?_⟩))
      intro seq seqMem
      obtain ⟨young, youngMem, rfl⟩ := List.mem_map.mp seqMem
      exact cutOlder young youngMem other lost
  exact {
    listed := by
      intro other otherMem
      rcases List.mem_cons.mp (List.mem_of_mem_take otherMem) with rfl | before
      · exact List.mem_cons_self
      · exact List.mem_cons_of_mem _ (consistent.listed other before)
    ordered := keptOrdered
    numbered := by
      simp only [State.push, List.forall_mem_cons, List.length_cons]
      exact ⟨by omega, fun other otherMem => (consistent.numbered other otherMem).trans (by omega)⟩
    wasSealed := by
      simp only [State.push, List.forall_mem_cons]
      exact ⟨wasSealed, consistent.wasSealed⟩
    flushes := fun id flush running => (consistent.flushes id flush running).mono grows
    accounted := by
      simp only [State.push, List.forall_mem_cons]
      refine ⟨listed held List.mem_cons_self, fun other otherMem => ?_⟩
      exact accounted_of_listed (consistent.accounted other otherMem) grows
        fun onList onListMem => listed onList (List.mem_cons_of_mem _ onListMem) }

theorem Consistent.of_sublist (consistent : Consistent sealing state) (grows : Grows state next)
    (list : next.list.Sublist state.list) (pushed : next.pushed = state.pushed)
    (flushes : ∀ id flush, next.flushes id = some flush → state.flushes id = some flush)
    (taken : ∀ held ∈ state.list, Accounted next held) : Consistent sealing next where
  listed := by
    rw [pushed]
    exact fun held heldMem => consistent.listed held (list.subset heldMem)
  ordered := consistent.ordered.sublist list
  numbered := by
    rw [pushed]
    exact consistent.numbered
  wasSealed := by
    rw [pushed]
    exact consistent.wasSealed
  flushes id flush running := (consistent.flushes id flush (flushes id flush running)).mono grows
  accounted := by
    rw [pushed]
    exact fun held heldMem => accounted_of_listed (consistent.accounted held heldMem) grows taken

theorem mem_rdrop_or_mem_rtake {α : Type} {item : α} {list : List α} (count : ℕ)
    (itemMem : item ∈ list) : item ∈ list.rdrop count ∨ item ∈ list.rtake count := by
  rw [← List.take_append_drop (list.length - count) list] at itemMem
  exact List.mem_append.mp itemMem

theorem Consistent.trim {state : State Key Sealed} {id : ℕ}
    {reply : Reply} (consistent : Consistent sealing state)
    (running : state.flushes id = some flush)
    (ownBatches : TrimsOwnBatches state (.flushTrim id reply))
    (grows : Grows state (state.flushTrim id flush reply)) :
    Consistent sealing (state.flushTrim id flush reply) := by
  have remaining : ∀ other running', (state.flushTrim id flush reply).flushes other =
      some running' → state.flushes other = some running' := by
    intro other running' stillRunning
    have updated : (state.flushTrim id flush reply).flushes =
        Function.update state.flushes id none := by
      simp only [State.flushTrim]
      split <;> rfl
    rw [updated, Function.update_apply] at stillRunning
    split at stillRunning
    · cases stillRunning
    · exact stillRunning
  by_cases sent : 0 < flush.delivered ∧ reply ≠ .unsent
  · have list : (state.flushTrim id flush reply).list = state.list.rdrop flush.delivered := by
      simp [State.flushTrim, sent]
    refine consistent.of_sublist grows ?_ ?_ remaining ?_
    · rw [list]
      exact List.take_sublist _ _
    · simp [State.flushTrim, sent, State.setFlush]
    · intro held heldMem
      rcases mem_rdrop_or_mem_rtake flush.delivered heldMem with kept | trimmed
      · left
        rwa [list]
      · -- the positions that are cut hold batches this flush has finished with
        have finished := (consistent.flushes id flush running).finished held
          (ownBatches flush running sent.2 held trimmed)
        exact .inr (.inl (finished.mono grows))
  · have list : (state.flushTrim id flush reply).list = state.list := by
      simp [State.flushTrim, sent, State.setFlush]
    refine consistent.of_sublist grows (list ▸ List.Sublist.refl _) ?_ remaining ?_
    · simp [State.flushTrim, sent, State.setFlush]
    · exact fun held heldMem => .inl (list ▸ heldMem)

theorem Consistent.transition (consistent : Consistent sealing state)
    (ownBatches : TrimsOwnBatches state action)
    (transition : Transition sealing state action next) : Consistent sealing next := by
  have grows := transition.grows
  cases transition with
  | spoolLost => exact consistent
  | push numbered wasSealed => exact consistent.push numbered ⟨_, wasSealed⟩ grows
  | record | tick =>
    exact consistent.of_list_eq grows rfl rfl
      fun id flush running => (consistent.flushes id flush running).mono grows
  | start unused =>
    refine consistent.of_update grows rfl rfl rfl ?_
    refine ⟨?_, ?_, ?_⟩
    · exact fun held heldMem => consistent.listed held (List.mem_of_mem_drop heldMem)
    · simp [Flush.done]
    · simp
  | @skip id outcome flush held running walking current =>
    refine consistent.of_update grows rfl rfl rfl ?_
    have counted := (consistent.flushes id flush running).count flush.events grows
      current (.inr List.mem_cons_self)
    rwa [← walking] at counted
  | @deliver id flush held batch running current opened =>
    refine consistent.of_update grows rfl rfl rfl ?_
    have sound := consistent.flushes id flush running
    have heldPushed := sound.fetched held (mem_items_of_current current)
    have events := sealing.restoreKeys_openBatch (consistent.wasSealed held heldPushed) opened
    refine sound.count _ grows current (.inl ⟨List.mem_cons_self, ?_⟩)
    intro event eventMem
    refine ⟨event, ?_, rfl⟩
    simp [State.finishBatch, State.setFlush, State.insertEvents, events, eventMem]
  | @clash id rows flush held batch running current opened =>
    refine consistent.of_update grows rfl rfl rfl ?_
    have sound := consistent.flushes id flush running
    have heldPushed := sound.fetched held (mem_items_of_current current)
    have events := sealing.restoreKeys_openBatch (consistent.wasSealed held heldPushed) opened
    refine ⟨(sound.mono grows).fetched, (sound.mono grows).finished, ?_⟩
    rintro _ _ ⟨⟩ other otherCurrent event eventMem
    have same : other = held := Option.some.inj (otherCurrent.symm.trans current)
    left
    rwa [events, ← same]
  | @breakOff id rows events flush action running writes =>
    refine consistent.of_update grows rfl rfl rfl ?_
    have sound := (consistent.flushes id flush running).mono grows
    exact ⟨sound.fetched, sound.finished, by simp⟩
  | @retryOne id outcome flush batch event rest running retrying inStore =>
    have flushes : (state.insertEvents [event] outcome).flushes = state.flushes := by
      rw [insertEvents_eq]
    refine consistent.of_update grows (by rw [insertEvents_eq]; rfl) (by rw [insertEvents_eq]; rfl)
      (congrArg (Function.update · id _) flushes) ?_
    have sound := consistent.flushes id flush running
    refine ⟨(sound.mono grows).fetched, (sound.mono grows).finished, ?_⟩
    rintro _ _ ⟨⟩ held current written writtenMem
    rcases sound.retried _ _ retrying held current written writtenMem with waiting | stored
    · rcases List.mem_cons.mp waiting with rfl | waiting
      · exact .inr (inStore written List.mem_cons_self)
      · exact .inl waiting
    · obtain ⟨row, rowMem, sameID⟩ := stored
      exact .inr ⟨row, grows.rows rowMem, sameID⟩
  | @retryEnd id outcome flush batch held running retrying current =>
    refine consistent.of_update grows rfl rfl rfl ?_
    have sound := consistent.flushes id flush running
    refine sound.count _ grows current (.inl ⟨List.mem_cons_self, ?_⟩)
    intro event eventMem
    rcases sound.retried _ _ retrying held current event eventMem with waiting | stored
    · cases waiting
    · exact stored
  | trim running => exact consistent.trim running ownBatches grows
  | expire =>
    refine consistent.of_sublist grows (List.nil_sublist _) rfl (fun _ _ running => running) ?_
    exact fun held heldMem => .inr (.inr (.inr
      (List.mem_append_left _ (List.mem_map.mpr ⟨held, heldMem, rfl⟩))))

theorem Consistent.initial (sealing : Sealing Key Sealed) :
    Consistent sealing (State.initial : State Key Sealed) := by
  constructor <;> simp [State.initial]

/--
A run in which every trim falls on batches of the flush's own loses no batch:
whatever was pushed is on the list, or is settled.
-/
theorem losesNoBatch_of_trimsOwnBatches (sealing : Sealing Key Sealed)
    {trace : List (Action Key)} {state : State Key Sealed}
    (executed : exec (step sealing) .initial trace = some state)
    (ownBatches : AllSteps (step sealing) TrimsOwnBatches .initial trace) :
    ∀ held ∈ state.pushed, Accounted state held :=
  (invariant_of_allSteps
    (fun _ _ _ consistent own stepped => consistent.transition own (transition_of_step stepped))
    (Consistent.initial sealing) ownBatches executed).accounted

def bareEvent (id : UUID) : ActivityEvent where
  id := id
  orgID := UUID.zero
  employeeID := none
  deviceID := none
  eventType := "web_request"
  action := "logged"
  target := ""
  targetDomain := ""
  operation := ""
  category := ""
  processName := ""
  policyID := none
  policyName := ""
  riskScore := 0
  aiExplanation := ""
  ipAddress := ""
  geoCountry := ""
  geoCity := ""
  metadata := fun _ => none
  dedupeKey := ""
  timestamp := 1
  createdAt := 1

def keyedSealing : Sealing ℕ (ℕ × SpooledBatch) where
  sealBatch key batch := some (key, batch)
  openBatch key sealed := if sealed.1 = key then some sealed.2 else none
  authentic := by
    rintro sealKey openKey batch opened sealed ⟨⟩ wasOpened
    simpa using (Option.ite_none_right_eq_some.mp wasOpened).2.symm

def soleFlush : List (Action ℕ) :=
  [.spoolEvents 7 (fun _ => ⟨1⟩) [bareEvent ⟨1⟩] .answered, .flushStart 0 7, .flushBatch 0 .ok,
    .spoolEvents 7 (fun _ => ⟨2⟩) [bareEvent ⟨2⟩] .answered, .flushTrim 0 .answered]

theorem soleFlush_losesNoBatch :
    ∃ state, exec (step keyedSealing) .initial soleFlush = some state ∧
      ∀ held ∈ state.pushed, Accounted state held := by
  obtain ⟨state, executed⟩ :
      ∃ state, exec (step keyedSealing) .initial soleFlush = some state := ⟨_, rfl⟩
  refine ⟨state, executed, losesNoBatch_of_trimsOwnBatches keyedSealing executed ?_⟩
  refine ⟨trivial, fun _ first => ⟨trivial, fun _ second => ⟨trivial, fun _ third =>
    ⟨trivial, fun _ fourth => ⟨?_, fun _ _ => trivial⟩⟩⟩⟩⟩
  cases first
  cases second
  cases third
  cases fourth
  rintro flush ⟨⟩ _ held heldMem
  exact heldMem

def State.summary (state : State Key Sealed) :
    List ℕ × List ℕ × List ℕ × List ℕ × List (ℕ × List ℕ) × List ℕ :=
  (state.list.map (·.seq), state.pushed.map (·.seq), state.delivered, state.unreadable,
    state.cut, state.expired)

/--
Two instances fetch the same batch.  The first delivers it and trims it; a new
batch arrives; the second finds the rows already there and trims the new batch.
-/
def overlappingFlushes : List (Action ℕ) :=
  [.spoolEvents 7 (fun _ => ⟨1⟩) [bareEvent ⟨1⟩] .answered, .flushStart 0 7, .flushStart 1 7,
    .flushBatch 0 .ok, .flushTrim 0 .answered,
    .spoolEvents 7 (fun _ => ⟨2⟩) [bareEvent ⟨2⟩] .answered,
    .flushBatch 1 (.duplicate 0), .flushEvent 1 (.duplicate 0), .flushEvent 1 .ok,
    .flushTrim 1 .answered]

/-- Of two flushes that overlap, the second trims a batch that came later. -/
theorem not_losesNoBatch : ¬LosesNoBatch keyedSealing := by
  intro losesNone
  have summary : (exec (step keyedSealing) .initial overlappingFlushes).map State.summary =
      some ([], [1, 0], [0, 0], [], [], []) := rfl
  obtain ⟨state, executed, summary⟩ := Option.map_eq_some_iff.mp summary
  simp only [State.summary, Prod.mk.injEq, List.map_eq_nil_iff] at summary
  obtain ⟨list, pushed, delivered, unreadable, cut, expired⟩ := summary
  obtain ⟨held, heldMem, second⟩ : ∃ held ∈ state.pushed, held.seq = 1 := by
    simpa [pushed] using List.mem_map (b := 1) (f := Held.seq) (l := state.pushed)
  have accounted := losesNone _ _ executed held heldMem
  simp [Accounted, Settled, Finished, CutAsOldest, list, delivered, unreadable, cut, expired,
    second] at accounted

end Aavishield.Dataplane.Spool
