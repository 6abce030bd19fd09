import Aavishield.Downloads.Transfers

/-!
# Runs of uploads

An upload stays in order as long as the part that its agent waits for is taken, and a device
keeps to its limit as long as every job is made below it.  Counting the jobs and adding one
are separate sections of the lock, so requests that count at the same time exceed the limit;
and a job that could not store a part keeps its agent uploading for ever.
-/

namespace Aavishield.Transfers

open Downloads TransitionSystem

variable {state next : State} {action : Action} {transfer moved : Transfer} {event : Event}
  {now : Time} {deviceID : UUID} {id : ℕ}

structure Transfer.Outlives (transfer moved : Transfer) : Prop where
  deviceID : moved.job.deviceID = transfer.job.deviceID
  listed : moved.listed = true → transfer.listed = true
  done : transfer.job.state = .done →
    moved.job.state = .done ∧ moved.job.verdict = transfer.job.verdict

namespace Transfer.Outlives

theorem refl (transfer : Transfer) : transfer.Outlives transfer :=
  ⟨rfl, id, fun isDone => ⟨isDone, rfl⟩⟩

theorem deliver (request offset : ℕ) (cut : Option ℕ) :
    transfer.Outlives (transfer.deliver request offset cut now) := by
  have uploaded := @ScanJob.uploaded_uploadPart transfer.job offset
    (partOf transfer.file offset) cut now
  unfold Transfer.deliver
  dsimp only
  generalize transfer.job.uploadPart offset (partOf transfer.file offset) cut now = result
    at uploaded
  cases uploaded with
  | refused closed | repeated accepting isRepeat | ahead accepting isAhead => exact ⟨rfl, id, fun isDone => ⟨isDone, rfl⟩⟩
  | lost accepting count grows =>
    refine ⟨rfl, id, fun isDone => ?_⟩
    rw [accepting.1] at isDone
    cases isDone
  | appended spooled isUploading isSpool inOrder fits =>
    refine ⟨rfl, id, fun isDone => ?_⟩
    rw [isUploading] at isDone
    cases isDone

theorem step (stepped : transfer.step now event = some moved) : transfer.Outlives moved := by
  cases event with
  | send =>
    simp only [Transfer.step] at stepped
    split_ifs at stepped
    cases stepped
    exact ⟨rfl, id, fun isDone => ⟨isDone, rfl⟩⟩
  | deliver request cut held =>
    simp only [Transfer.step] at stepped
    split at stepped
    · cases stepped
    · split_ifs at stepped
      · cases stepped
        exact deliver request _ cut
      · cases stepped
        exact ⟨rfl, id, fun isDone => ⟨isDone, rfl⟩⟩
  | receive index =>
    simp only [Transfer.step] at stepped
    split at stepped
    · cases stepped
    · split_ifs at stepped
      cases stepped
      exact ⟨rfl, id, fun isDone => ⟨isDone, rfl⟩⟩
  | fail | giveUp =>
    simp only [Transfer.step] at stepped
    split_ifs at stepped
    cases stepped
    exact ⟨rfl, id, fun isDone => ⟨isDone, rfl⟩⟩
  | complete held =>
    simp only [Transfer.step, ScanJob.complete] at stepped
    split_ifs at stepped with isFound stays
    · cases stepped
      exact ⟨rfl, id, fun isDone => ⟨isDone, rfl⟩⟩
    · cases stepped
      rw [not_or, not_not] at stays
      refine ⟨rfl, id, fun isDone => ?_⟩
      rw [stays.1] at isDone
      cases isDone
    · cases stepped
      exact refl transfer
  | scanned verdict =>
    simp only [Transfer.step] at stepped
    split_ifs at stepped with isScanning
    cases stepped
    refine ⟨rfl, id, fun isDone => ?_⟩
    rw [isScanning] at isDone
    cases isDone
  | poll held =>
    simp only [Transfer.step] at stepped
    split_ifs at stepped
    · cases stepped
      exact ⟨rfl, id, fun isDone => ⟨isDone, rfl⟩⟩
    · cases stepped
      exact refl transfer

theorem sweep (transfer : Transfer) (now : Time) : transfer.Outlives (transfer.sweep now) := by
  unfold Transfer.sweep
  split_ifs
  · refine ⟨rfl, ?_, fun isDone => ⟨isDone, rfl⟩⟩
    intro impossible
    cases impossible
  · exact refl transfer

end Transfer.Outlives

def Transfer.unfinished (deviceID : UUID) (transfer : Transfer) : Bool :=
  transfer.listed && transfer.job.deviceID = deviceID && decide (transfer.job.state ≠ .done)

theorem State.unfinished_eq (state : State) :
    state.unfinished deviceID = state.transfers.countP (Transfer.unfinished deviceID) := rfl

theorem Transfer.Outlives.unfinished (outlives : transfer.Outlives moved)
    (isUnfinished : moved.unfinished deviceID = true) : transfer.unfinished deviceID = true := by
  simp only [Transfer.unfinished, Bool.and_eq_true, decide_eq_true_eq] at isUnfinished ⊢
  rcases isUnfinished with ⟨⟨isListed, sameDevice⟩, notDone⟩
  refine ⟨⟨outlives.listed isListed, outlives.deviceID ▸ sameDevice⟩, ?_⟩
  intro isDone
  exact notDone (outlives.done isDone).1

namespace State

inductive Stepped (state : State) : Action → State → Prop
  | elapse (duration : ℕ) :
      Stepped state (.elapse duration) { state with now := state.now + duration }
  | refused (deviceID : UUID) (file : List UInt8) : Stepped state (.count deviceID file) state
  | counted (deviceID : UUID) (file : List UInt8) (creating : List (UUID × List UInt8))
      (added : ∀ request ∈ creating, request ∈ state.creating ∨ 0 < request.2.length) :
      Stepped state (.count deviceID file) { state with
        transfers := state.transfers.map (Transfer.sweep · state.now), creating := creating }
  | inserted (index : ℕ) (deviceID : UUID) (file : List UInt8)
      (isCreating : state.creating[index]? = some (deviceID, file)) :
      Stepped state (.insert index) { state with
        transfers := state.transfers ++ [.create deviceID file state.now]
        creating := state.creating.eraseIdx index }
  | moved (id : ℕ) (event : Event) (transfer moved : Transfer)
      (found : state.transfers[id]? = some transfer)
      (stepped : transfer.step state.now event = some moved) :
      Stepped state (.on id event) { state with transfers := state.transfers.set id moved }

theorem stepped_of_step (stepped : state.step action = some next) : state.Stepped action next := by
  cases action with
  | elapse duration =>
    cases stepped
    exact .elapse duration
  | count deviceID file =>
    simp only [State.step] at stepped
    split_ifs at stepped with unfit full
    · cases stepped
      exact .refused deviceID file
    · cases stepped
      exact .counted deviceID file state.creating fun _ mem => .inl mem
    · cases stepped
      apply Stepped.counted
      intro request mem
      rcases List.mem_append.mp mem with earlier | isNew
      · exact .inl earlier
      · rw [List.mem_singleton.mp isNew]
        rw [not_or] at unfit
        exact .inr (Nat.pos_of_ne_zero unfit.1)
  | insert index =>
    simp only [State.step] at stepped
    split at stepped
    · cases stepped
    · next deviceID file isCreating =>
        cases stepped
        exact .inserted index deviceID file isCreating
  | on id event =>
    simp only [State.step] at stepped
    split at stepped
    · cases stepped
    · next transfer found =>
        rcases Option.map_eq_some_iff.mp stepped with ⟨moved, movedTo, rfl⟩
        exact .moved id event transfer moved found movedTo

theorem lasting (state : State) : state.Lasting := by
  intro action next stepped id transfer found isDone
  cases stepped_of_step stepped with
  | elapse duration | refused deviceID file => exact ⟨transfer, found, isDone, rfl⟩
  | counted deviceID file creating added =>
    refine ⟨transfer.sweep state.now, ?_, (Transfer.Outlives.sweep transfer state.now).done isDone⟩
    simp [found]
  | inserted index deviceID file isCreating =>
    refine ⟨transfer, ?_, isDone, rfl⟩
    rw [List.getElem?_append_left (List.getElem?_eq_some_iff.mp found).1]
    exact found
  | moved other event before moved isThere movedTo =>
    by_cases same : other = id
    · subst same
      cases found.symm.trans isThere
      refine ⟨moved, ?_, (Transfer.Outlives.step movedTo).done isDone⟩
      exact List.getElem?_set_self (List.getElem?_eq_some_iff.mp found).1
    · refine ⟨transfer, ?_, isDone, rfl⟩
      rw [List.getElem?_set_ne same]
      exact found

/-- What holds of all uploads as long as the steps are careful. -/
structure Sound (state : State) : Prop where
  transfers : ∀ transfer ∈ state.transfers, transfer.Sound
  creating : ∀ request ∈ state.creating, 0 < request.2.length
  limited : ∀ deviceID, state.unfinished deviceID ≤ maxJobsPerDevice

theorem Sound.good (sound : state.Sound) : state.Good (· + 4) where
  transfers transfer mem := (sound.transfers transfer mem).good
  limited := sound.limited

theorem sound_initial : initial.Sound where
  transfers transfer mem := by cases mem
  creating request mem := by cases mem
  limited _ := Nat.zero_le _

theorem countP_set_le {table : List Transfer} (found : table[id]? = some transfer)
    (outlives : transfer.Outlives moved) :
    (table.set id moved).countP (Transfer.unfinished deviceID) ≤
      table.countP (Transfer.unfinished deviceID) := by
  rcases List.getElem?_eq_some_iff.mp found with ⟨inRange, isThere⟩
  rw [List.countP_set inRange, isThere]
  by_cases isUnfinished : moved.unfinished deviceID = true
  · have before := outlives.unfinished isUnfinished
    have counts : 0 < table.countP (Transfer.unfinished deviceID) :=
      List.countP_pos_iff.mpr ⟨transfer, List.mem_of_getElem? found, before⟩
    rw [if_pos isUnfinished, if_pos before]
    omega
  · rw [if_neg isUnfinished]
    omega

theorem Sound.step (sound : state.Sound) (careful : state.Careful action)
    (stepped : state.step action = some next) : next.Sound := by
  cases stepped_of_step stepped with
  | elapse duration => exact ⟨sound.transfers, sound.creating, sound.limited⟩
  | refused deviceID file => exact sound
  | counted deviceID file creating added =>
    refine ⟨?_, ?_, ?_⟩
    · intro moved mem
      rcases List.mem_map.mp mem with ⟨transfer, isThere, rfl⟩
      exact (sound.transfers transfer isThere).sweep state.now
    · intro request mem
      rcases added request mem with earlier | hasBytes
      · exact sound.creating request earlier
      · exact hasBytes
    · intro deviceID
      apply Nat.le_trans ?_ (sound.limited deviceID)
      rw [unfinished_eq, unfinished_eq, List.countP_map]
      apply List.countP_mono_left
      intro transfer _ isUnfinished
      exact (Transfer.Outlives.sweep transfer state.now).unfinished isUnfinished
  | inserted index deviceID file isCreating =>
    have below : state.unfinished deviceID < maxJobsPerDevice := careful _ isCreating
    refine ⟨?_, ?_, ?_⟩
    · intro transfer mem
      rcases List.mem_append.mp mem with earlier | isNew
      · exact sound.transfers transfer earlier
      · rw [List.mem_singleton.mp isNew]
        exact Transfer.sound_create (sound.creating _ (List.mem_of_getElem? isCreating))
    · intro request mem
      exact sound.creating request (List.mem_of_mem_eraseIdx mem)
    · intro other
      rw [unfinished_eq, List.countP_append, List.countP_singleton]
      by_cases same : deviceID = other
      · rw [unfinished_eq, same] at below
        split <;> omega
      · have notOthers : Transfer.unfinished other (.create deviceID file state.now) = false := by
          simp [Transfer.unfinished, Transfer.create, ScanJob.create, same]
        rw [notOthers, if_neg Bool.false_ne_true]
        exact sound.limited other
  | moved id event transfer moved found movedTo =>
    refine ⟨?_, sound.creating, ?_⟩
    · intro other mem
      rcases List.mem_or_eq_of_mem_set mem with before | rfl
      · exact sound.transfers other before
      · apply (sound.transfers transfer (List.mem_of_getElem? found)).step movedTo
        intro request cut held isDeliver
        subst isDeliver
        exact careful transfer found
    · intro deviceID
      exact Nat.le_trans (countP_set_le found (Transfer.Outlives.step movedTo))
        (sound.limited deviceID)

end State

/-- As long as the steps are careful, every job keeps to its file and every device to its limit, no
job that is done changes, and an agent has at most four answers more than its file has bytes. -/
theorem good_of_careful {trace : List Action} {final : State}
    (careful : AllSteps State.step State.Careful .initial trace)
    (executed : exec State.step .initial trace = some final) :
    final.Good (· + 4) ∧ final.Lasting := by
  have sound : final.Sound := invariant_of_allSteps
    (fun _ _ _ sound careful stepped => sound.step careful stepped) State.sound_initial careful executed
  exact ⟨sound.good, final.lasting⟩

instance (state : State) : DecidablePred state.Careful
  | .elapse _ | .count _ _ => .isTrue trivial
  | .insert index => inferInstanceAs (Decidable (∀ request ∈ state.creating[index]?,
      state.unfinished request.1 < maxJobsPerDevice))
  | .on id (.deliver request _ held) => inferInstanceAs (Decidable
      (∀ transfer ∈ state.transfers[id]?, transfer.IsCurrent request →
        (transfer.listed || held) = true → transfer.job.Accepting))
  | .on _ .send | .on _ (.receive _) | .on _ .fail | .on _ .giveUp | .on _ (.complete _)
  | .on _ (.scanned _) | .on _ (.poll _) => .isTrue trivial

def repeatedPart : List Action :=
  [.count ⟨1⟩ [7], .insert 0, .on 0 .send, .on 0 (.deliver 0 none false), .on 0 .fail, .on 0 .send,
    .on 0 (.deliver 0 none false), .on 0 (.deliver 1 none false), .on 0 (.receive 2),
    .on 0 (.complete false), .on 0 (.scanned unscannedVerdict), .on 0 (.poll false)]

theorem good_repeatedPart : ∃ final, exec State.step .initial repeatedPart = some final ∧
    final.Good (· + 4) ∧ final.Lasting := by
  have runs : (exec State.step .initial repeatedPart).isSome = true := by decide +kernel
  have executed := (Option.some_get runs).symm
  have careful : AllSteps State.step State.Careful .initial repeatedPart :=
    allSteps_of_checkSteps (by decide +kernel)
  exact ⟨_, executed, good_of_careful careful executed⟩

/-- The job takes no parts any more, and its agent has still to upload all of the file. -/
structure Transfer.Refused (transfer : Transfer) : Prop where
  hasBytes : 0 < transfer.file.length
  listed : transfer.listed = true
  done : transfer.job.state = .done
  offset : transfer.client.offset = 0
  waiting : transfer.client.waiting = false
  ended : transfer.client.ended = false

theorem refused_again (alone : state.transfers = [transfer]) (refused : transfer.Refused) :
    ∃ (trace : List Action) (next : State) (moved : Transfer),
      exec State.step state trace = some next ∧ next.transfers = [moved] ∧ moved.Refused ∧
        moved.file = transfer.file ∧ moved.client.answers = transfer.client.answers + 1 := by
  have notEmpty : transfer.file.length ≠ 0 := Nat.ne_of_gt refused.hasBytes
  refine ⟨[.on 0 .send, .on 0 (.deliver transfer.sent.length none false),
    .on 0 (.receive transfer.inbox.length)], { state with transfers := [{ transfer with
      job := { transfer.job with touched := state.now }
      client := transfer.client.goOn transfer.file.length 0
      sent := transfer.sent ++ [0]
      inbox := transfer.inbox ++ [(transfer.sent.length, .notAccepting .done)] }] }, _, ?_, rfl, ?_,
    rfl, rfl⟩
  · simp [exec, State.step, alone, Transfer.step, refused.waiting, refused.ended, refused.offset,
      refused.listed, Transfer.deliver, ScanJob.uploadPart, refused.done, Transfer.IsCurrent,
      Client.receive, Client.goOn]
  · constructor
    · exact refused.hasBytes
    · exact refused.listed
    · exact refused.done
    · rfl
    · rfl
    · simp [Client.goOn, notEmpty]

theorem refused_forever (alone : state.transfers = [transfer]) (refused : transfer.Refused)
    (count : ℕ) : ∃ (trace : List Action) (next : State) (moved : Transfer),
      exec State.step state trace = some next ∧ next.transfers = [moved] ∧ moved.Refused ∧
        moved.file = transfer.file ∧ count ≤ moved.client.answers := by
  induction count with
  | zero => exact ⟨[], state, transfer, rfl, alone, refused, rfl, Nat.zero_le _⟩
  | succ count ih =>
    rcases ih with ⟨trace, middle, between, executed, still, stillRefused, sameFile, many⟩
    rcases refused_again still stillRefused with
      ⟨more, next, moved, continued, last, lastRefused, lastFile, oneMore⟩
    refine ⟨trace ++ more, next, moved, ?_, last, lastRefused, lastFile.trans sameFile, ?_⟩
    · simp [exec_append, executed, continued]
    · omega

/-- There is a bound on the answers by the length of the file, and every run stays in order. -/
def AlwaysJudges : Prop :=
  ∃ bound : ℕ → ℕ, ∀ trace final, exec State.step .initial trace = some final →
    final.Good bound ∧ final.Lasting

def brokenPart : List Action :=
  [.count ⟨1⟩ [7], .insert 0, .on 0 .send, .on 0 (.deliver 0 (some 0) false), .on 0 .fail]

def brokenTransfer : Transfer :=
  ⟨[7], ⟨⟨1⟩, 1, none, 0, .done, unscannedVerdict, 0⟩, true, ⟨0, 1, 1, false, false⟩, [0],
    [(0, .notStored)], []⟩

theorem refused_brokenTransfer : brokenTransfer.Refused := by
  constructor <;> simp [brokenTransfer]

/-- The only part arrives, and the answer is lost. -/
theorem not_alwaysJudges : ¬AlwaysJudges := by
  rintro ⟨bound, always⟩
  have broken : exec State.step .initial brokenPart = some ⟨[brokenTransfer], [], 0⟩ := by rfl
  have alone : (⟨[brokenTransfer], [], 0⟩ : State).transfers = [brokenTransfer] := rfl
  rcases refused_forever alone refused_brokenTransfer (bound 1 + 1) with
    ⟨trace, final, transfer, continued, last, -, sameFile, many⟩
  have executed : exec State.step .initial (brokenPart ++ trace) = some final := by
    simp [exec_append, broken, continued]
  have few := ((always _ final executed).1.transfers transfer (by simp [last])).answers
  simp only [sameFile, brokenTransfer, List.length_singleton] at few
  omega

end Aavishield.Transfers
