import Aavishield.Dataplane.Mover

/-!
# Moving loses no image

When the mover deletes an image from Aavishield's bucket, the rows it leaves behind should
point at the copy.  Three branches break this: an update whose error is dropped, a
duplicate that is skipped although the row there still has the old key, and an upload that
fell back to the bucket it came from.
-/

namespace Aavishield.Dataplane.Mover

open Paging TransitionSystem

def State.served (state : State) (run : Run) : Table Screenshot :=
  if run.toDatabase then state.destination.screenshots else state.source.screenshots

structure State.Moved (state : State) (run : Run) (key : String) : Prop where
  copied : key ∈ state.tenantFiles
  rows : ∀ shot ∈ (state.served run).rows, shot.storageKey.object = key →
    shot.storageKey = .tenant key

/-- Every image that is about to be deleted has been moved. -/
def State.LosesNoImage (state : State) : Prop :=
  ∀ run key keys, state.run = some run → run.phase = .deletingImages (key :: keys) →
    state.Moved run key

/-- No two screenshots share an object. -/
def OwnImages (shots : List Screenshot) : Prop :=
  ∀ first ∈ shots, ∀ second ∈ shots,
    first.storageKey.object = second.storageKey.object ↔ first.id = second.id

/--
What has to be the case when an image goes to the company's bucket: the row that a refused
insert leaves alone has the new key, or the update of the row takes effect.
-/
def State.recordsMove (state : State) (run : Run) (shot : Screenshot) (write : Write)
    (updated : Bool) : Bool :=
  if run.toDatabase then
    match write with
    | .duplicateKey _ => state.destination.screenshots.rows.all fun row =>
      decide (row.id = shot.id → row.storageKey = .tenant shot.storageKey.object)
    | .ok | .failed _ => true
  else updated

def keeps (state : State) (action : Action) : Bool :=
  match action, state.run with
  | .takeShot copy write updated, some run =>
    match run.phase with
    | .shots (shot :: _) _ _ =>
      decide (shot.id ∈ run.position.seen) || !run.moveImages || shot.storageKey.isTenant ||
        match copy with
        | .gone | .failed => true
        | .kept => false
        | .moved => state.recordsMove run shot write updated
    | _ => true
  | _, _ => true

def Keeps (state : State) (action : Action) : Prop := keeps state action = true

instance (state : State) (action : Action) : Decidable (Keeps state action) :=
  inferInstanceAs (Decidable (_ = _))

theorem Keeps.takeShot {state : State} {run : Run} {shot : Screenshot} {rest : List Screenshot}
    {full progressed : Bool} {copy : Copy} {write : Write} {updated : Bool}
    (isKeeps : Keeps state (.takeShot copy write updated)) (isRun : state.run = some run)
    (isPhase : run.phase = .shots (shot :: rest) full progressed)
    (unseen : shot.id ∉ run.position.seen) (moveImages : run.moveImages = true)
    (notTenant : shot.storageKey.isTenant = false) :
    copy ≠ .kept ∧ (copy = .moved → state.recordsMove run shot write updated = true) := by
  simp only [Keeps, keeps, isRun, isPhase, unseen, moveImages, notTenant, decide_false,
    Bool.not_true, Bool.or_self, Bool.false_or] at isKeeps
  cases copy with
  | gone | failed => simp
  | kept => simp at isKeeps
  | moved => simpa using isKeeps

def Known (known : List Screenshot) (shot : Screenshot) : Prop :=
  ∃ old ∈ known, old.id = shot.id ∧ old.storageKey.object = shot.storageKey.object

section Known

variable {known : List Screenshot} {first second shot : Screenshot}

theorem known_of_mem (shotMem : shot ∈ known) : Known known shot := ⟨shot, shotMem, rfl, rfl⟩

theorem Known.own (firstKnown : Known known first) (secondKnown : Known known second)
    (own : OwnImages known) :
    first.storageKey.object = second.storageKey.object ↔ first.id = second.id := by
  rcases firstKnown with ⟨old, oldMem, oldId, oldObject⟩
  rcases secondKnown with ⟨other, otherMem, otherId, otherObject⟩
  rw [← oldId, ← otherId, ← oldObject, ← otherObject]
  exact own old oldMem other otherMem

theorem Known.rekey {storageKey : StoredKey} (shotKnown : Known known shot)
    (sameObject : storageKey.object = shot.storageKey.object) :
    Known known { shot with storageKey } := by
  rcases shotKnown with ⟨old, oldMem, sameId, object⟩
  exact ⟨old, oldMem, sameId, object.trans sameObject.symm⟩

end Known

theorem mem_apply_single {write : Write} {table : Table Screenshot} {row other : Screenshot}
    (mem : other ∈ (write.apply table [row]).rows) :
    other = row ∧ ¬table.Holds row.id ∨ other ∈ table.rows := by
  have inserted : ∀ landed, other ∈ (table.insertAll ([row].take landed)).rows →
      other = row ∧ ¬table.Holds row.id ∨ other ∈ table.rows := by
    intro landed there
    cases landed with
    | zero => exact .inr there
    | succ landed =>
      have sameRows : [row].take (landed + 1) = [row] := by simp
      rw [sameRows] at there
      exact Table.mem_insert there
  cases write with
  | ok => exact inserted 1 mem
  | duplicateKey landed | failed landed => exact inserted landed mem

theorem mem_repoint {screenshots : Table Screenshot} {id : UUID} {storageKey : StoredKey}
    {updated : Bool} {other : Screenshot}
    (mem : other ∈ (repoint screenshots id storageKey updated).rows) :
    ∃ row ∈ screenshots.rows, other.id = row.id ∧
      (row.id = id ∧ updated = true ∧ other.storageKey = storageKey ∨
        ¬(row.id = id ∧ updated = true) ∧ other = row) := by
  rcases List.mem_map.mp mem with ⟨row, rowMem, rewritten⟩
  refine ⟨row, rowMem, ?_⟩
  split_ifs at rewritten with isShot
  · cases rewritten
    exact ⟨rfl, .inl ⟨isShot.1, isShot.2, rfl⟩⟩
  · exact ⟨rewritten ▸ rfl, .inr ⟨isShot, rewritten.symm⟩⟩

theorem State.moveImage_cases {state copied : State} {run next : Run} {shot : Screenshot}
    {copy : Copy} {storageKey : StoredKey}
    (moved : state.moveImage run shot copy = some (copied, next, storageKey)) :
    copied = state ∧ next = run ∧ storageKey = shot.storageKey ∨
      run.moveImages = true ∧ shot.storageKey.isTenant = false ∧ (copy = .kept ∨
        copy = .moved ∧ storageKey = .tenant shot.storageKey.object ∧
          copied = { state with tenantFiles := shot.storageKey.object :: state.tenantFiles } ∧
          next = { run with movedKeys := run.movedKeys ++ [shot.storageKey.object] }) := by
  unfold State.moveImage at moved
  split at moved
  · cases moved
    exact .inl ⟨rfl, rfl, rfl⟩
  · rename_i key isPrimary
    split_ifs at moved with moveImages
    · cases copy with
      | gone =>
        cases moved
        exact .inl ⟨rfl, rfl, rfl⟩
      | failed => cases moved
      | kept => exact .inr ⟨moveImages, by rw [isPrimary]; rfl, .inl rfl⟩
      | moved =>
        cases moved
        rw [isPrimary]
        exact .inr ⟨moveImages, rfl, .inr ⟨rfl, rfl, rfl, rfl⟩⟩
    · cases moved
      exact .inl ⟨rfl, rfl, rfl⟩

def Phase.Within (known : List Screenshot) (movedKeys : List String) : Phase → Prop
  | .shots pending _ _ => ∀ shot ∈ pending, Known known shot
  | .deletingImages keys => ∀ key ∈ keys, key ∈ movedKeys
  | _ => True

structure State.Follows (known : List Screenshot) (state : State) (run : Run) : Prop where
  phase : run.phase.Within known run.movedKeys
  moved : ∀ key ∈ run.movedKeys, state.Moved run key
  recorded : run.toDatabase = true → ∀ key ∈ run.movedKeys,
    ∃ row ∈ state.destination.screenshots.rows, row.storageKey = .tenant key

structure State.Images (known : List Screenshot) (state : State) : Prop where
  source : ∀ shot ∈ state.source.screenshots.rows, Known known shot
  destination : ∀ shot ∈ state.destination.screenshots.rows, Known known shot
  follows : ∀ run, state.run = some run → state.Follows known run

section Images

variable {known : List Screenshot} {state next : State} {run : Run}

section

variable (images : state.Images known)

include images

theorem State.Images.losesNoImage : state.LosesNoImage := by
  intro run key keys isRun isPhase
  have follows := images.follows run isRun
  have within := follows.phase
  rw [isPhase] at within
  exact follows.moved key (within key List.mem_cons_self)

theorem State.Images.quietly (isRun : state.run = some run)
    (files : next.tenantFiles = state.tenantFiles)
    (source : ∀ shot ∈ next.source.screenshots.rows, shot ∈ state.source.screenshots.rows)
    (destination : next.destination.screenshots = state.destination.screenshots)
    (after : ∀ further, next.run = some further → further.toDatabase = run.toDatabase ∧
      further.movedKeys = run.movedKeys ∧ further.phase.Within known run.movedKeys) :
    next.Images known := by
  refine ⟨fun shot shotMem => images.source shot (source shot shotMem), ?_, ?_⟩
  · rw [destination]
    exact images.destination
  · intro further isFurther
    rcases after further isFurther with ⟨sameDatabase, sameKeys, within⟩
    have follows := images.follows run isRun
    refine ⟨sameKeys ▸ within, ?_, ?_⟩
    · intro key keyMem
      rw [sameKeys] at keyMem
      have moved := follows.moved key keyMem
      refine ⟨files ▸ moved.copied, ?_⟩
      intro shot shotMem sameObject
      apply moved.rows shot _ sameObject
      unfold State.served at shotMem ⊢
      rw [sameDatabase, destination] at shotMem
      split_ifs at shotMem ⊢
      · exact shotMem
      · exact source shot shotMem
    · intro database key keyMem
      rw [sameKeys] at keyMem
      rw [destination]
      exact follows.recorded (sameDatabase ▸ database) key keyMem

theorem State.Images.goOn {further : Run} (isRun : state.run = some run)
    (isNext : next.run = some further) (files : next.tenantFiles = state.tenantFiles)
    (source : next.source = state.source)
    (destination : next.destination.screenshots = state.destination.screenshots)
    (onwards : further.toDatabase = run.toDatabase ∧ further.movedKeys = run.movedKeys ∧
      further.phase.Within known run.movedKeys) : next.Images known := by
  apply images.quietly isRun files (source ▸ fun _ shotMem => shotMem) destination
  intro other isOther
  cases isNext.symm.trans isOther
  exact onwards

theorem State.Images.stop (isRun : state.run = some run) (isEnd : next.run = none)
    (files : next.tenantFiles = state.tenantFiles) (source : next.source = state.source)
    (destination : next.destination.screenshots = state.destination.screenshots) :
    next.Images known := by
  apply images.quietly isRun files (source ▸ fun _ shotMem => shotMem) destination
  intro further isFurther
  cases isEnd.symm.trans isFurther

theorem State.Images.finish : state.finish.Images known := by
  refine ⟨images.source, images.destination, ?_⟩
  intro run isRun
  cases isRun

section

variable (isRun : state.run = some run)

include isRun

theorem State.Images.takeEvent (pending : List ActivityEvent) (following : Option Keyset) :
    (state.takeEvent run pending following).Images known := by
  cases pending with
  | cons event rest =>
    refine images.goOn isRun rfl rfl rfl rfl ⟨rfl, rfl, ?_⟩
    simp only
    split_ifs <;> trivial
  | nil =>
    cases following with
    | some last =>
      exact images.goOn isRun rfl rfl rfl rfl ⟨rfl, rfl, trivial⟩
    | none =>
      refine images.goOn isRun rfl rfl rfl rfl ⟨rfl, rfl, ?_⟩
      simp only
      split_ifs <;> trivial

theorem State.Images.flush
    (pending : List ActivityEvent) (following : Option Keyset) (write : Write) :
    (state.flush run pending following write).Images known := by
  cases write with
  | ok | duplicateKey landed =>
    exact images.goOn isRun rfl rfl rfl rfl ⟨rfl, rfl, trivial⟩
  | failed landed => exact images.stop isRun rfl rfl rfl rfl

theorem State.Images.flushOne
    (event : ActivityEvent) (rest pending : List ActivityEvent) (following : Option Keyset)
    (write : Write) :
    (state.flushOne run event rest pending following write).Images known := by
  cases write with
  | ok | duplicateKey landed =>
    exact images.goOn isRun rfl rfl rfl rfl ⟨rfl, rfl, trivial⟩
  | failed landed => exact images.stop isRun rfl rfl rfl rfl

theorem State.Images.copySession (session : WorkSession) (rest : List WorkSession) (write : Write) :
    (state.copySession run session rest write).Images known := by
  cases write with
  | ok | duplicateKey landed =>
    exact images.goOn isRun rfl rfl rfl rfl ⟨rfl, rfl, trivial⟩
  | failed landed => exact images.stop isRun rfl rfl rfl rfl

end

end

variable {phase : Phase}

theorem State.Images.delete (images : state.Images known) (isRun : state.run = some run)
    {outcome : Delete} {emptied : Tables}
    (source : ∀ shot ∈ emptied.screenshots.rows, shot ∈ state.source.screenshots.rows)
    (within : phase.Within known run.movedKeys) :
    (state.delete run outcome emptied phase).Images known := by
  have emptiedImages : State.Images known { state with source := emptied } := by
    refine images.quietly isRun rfl source rfl ?_
    intro further isFurther
    cases isRun.symm.trans isFurther
    exact ⟨rfl, rfl, (images.follows run isRun).phase⟩
  rcases outcome with ⟨deleted, succeeds⟩
  cases succeeds with
  | true =>
    cases deleted with
    | true =>
      refine images.quietly isRun rfl source rfl ?_
      rintro further ⟨⟩
      exact ⟨rfl, rfl, within⟩
    | false =>
      exact images.goOn isRun rfl rfl rfl rfl ⟨rfl, rfl, within⟩
  | false =>
    cases deleted with
    | true => exact emptiedImages.finish
    | false => exact images.finish

structure State.JustCopied (state : State) (run : Run) (shot : Screenshot)
    (storageKey : StoredKey) (write : Write) (updated : Bool) (key : String) : Prop where
  ofShot : key = shot.storageKey.object
  notTenant : shot.storageKey.isTenant = false
  newKey : storageKey = .tenant key
  copied : key ∈ state.tenantFiles
  records : state.recordsMove run shot write updated = true

variable {storageKey : StoredKey} {write : Write} {table : Table Screenshot}

theorem moved_apply {shot : Screenshot} {key : String} (own : OwnImages known)
    (tableKnown : ∀ row ∈ table.rows, Known known row)
    (rowKnown : Known known { shot with storageKey })
    (rows : ∀ row ∈ table.rows, row.storageKey.object = key → row.storageKey = .tenant key)
    (recorded : ∃ row ∈ table.rows, row.storageKey = .tenant key) :
    ∀ row ∈ (write.apply table [{ shot with storageKey }]).rows, row.storageKey.object = key →
      row.storageKey = .tenant key := by
  intro row rowMem sameObject
  rcases mem_apply_single rowMem with ⟨rfl, isNew⟩ | before
  · -- there is a row of this image already, so that the insert was refused
    rcases recorded with ⟨old, oldMem, oldKey⟩
    have object : old.storageKey.object = key := by rw [oldKey]; rfl
    have sameId := ((tableKnown old oldMem).own rowKnown own).mp (object.trans sameObject.symm)
    apply absurd _ isNew
    rw [← sameId]
    exact Table.holds_of_mem oldMem
  · exact rows row before sameObject

theorem justCopied_apply {shot : Screenshot} {key : String} (own : OwnImages known)
    (tableKnown : ∀ row ∈ table.rows, Known known row) (shotKnown : Known known shot)
    (ofShot : shot.storageKey.object = key) (possible : write.possible table [shot] = true)
    (records : ∀ landed, write = .duplicateKey landed → ∀ row ∈ table.rows,
      row.id = shot.id → row.storageKey = .tenant key)
    (succeeds : ∀ landed, write ≠ .failed landed) :
    ∀ row ∈ (write.apply table [{ shot with storageKey := .tenant key }]).rows,
      row.storageKey.object = key → row.storageKey = .tenant key := by
  intro row rowMem sameObject
  rcases mem_apply_single rowMem with ⟨rfl, -⟩ | before
  · rfl
  · have sameId := ((tableKnown row before).own shotKnown own).mp (sameObject.trans ofShot.symm)
    have held : table.Holds (HasID.id shot) := by
      rw [show HasID.id shot = HasID.id row from sameId.symm]
      exact Table.holds_of_mem before
    cases write with
    | ok => simp [Write.possible, held] at possible
    | duplicateKey landed => exact records landed rfl row before sameId
    | failed landed => exact absurd rfl (succeeds landed)

theorem known_apply {shot : Screenshot}
    (tableKnown : ∀ row ∈ table.rows, Known known row) (shotKnown : Known known shot) :
    ∀ row ∈ (write.apply table [shot]).rows, Known known row := by
  intro row rowMem
  rcases mem_apply_single rowMem with ⟨rfl, -⟩ | before
  · exact shotKnown
  · exact tableKnown row before

variable {updated : Bool}

section

variable (images : state.Images known)

include images

section

variable (own : OwnImages known)

include own

theorem State.Images.recordInDatabase {shot : Screenshot}
    (database : run.toDatabase = true) (shotKnown : Known known shot)
    (rowKnown : Known known { shot with storageKey }) (within : phase.Within known run.movedKeys)
    (possible : write.possible state.destination.screenshots [shot] = true)
    (keys : ∀ key ∈ run.movedKeys,
      state.Moved run key ∧ (∃ row ∈ state.destination.screenshots.rows,
        row.storageKey = .tenant key) ∨
      state.JustCopied run shot storageKey write updated key)
    (succeeds : ∀ landed, write ≠ .failed landed) :
    State.Images known ({ state with destination := { state.destination with
      screenshots := write.apply state.destination.screenshots [{ shot with storageKey }] } }.goto
        run phase) := by
  have nowKnown : ∀ row ∈ (write.apply state.destination.screenshots
      [{ shot with storageKey }]).rows, Known known row :=
    known_apply images.destination rowKnown
  have rows : ∀ key ∈ run.movedKeys, ∀ row ∈ (write.apply state.destination.screenshots
      [{ shot with storageKey }]).rows, row.storageKey.object = key →
        row.storageKey = .tenant key := by
    intro key keyMem
    rcases keys key keyMem with ⟨moved, recorded⟩ | justCopied
    · have before := moved.rows
      simp only [State.served, database, if_true] at before
      exact moved_apply own images.destination rowKnown before recorded
    · rcases justCopied with ⟨rfl, -, rfl, -, records⟩
      have alreadyMoved : ∀ landed, write = .duplicateKey landed →
          ∀ row ∈ state.destination.screenshots.rows, row.id = shot.id →
            row.storageKey = .tenant shot.storageKey.object := by
        rintro landed rfl
        simpa only [State.recordsMove, database, if_true, List.all_eq_true, decide_eq_true_eq]
          using records
      exact justCopied_apply own images.destination shotKnown rfl possible alreadyMoved succeeds
  refine ⟨images.source, nowKnown, ?_⟩
  rintro further ⟨⟩
  refine ⟨within, ?_, ?_⟩
  · intro key keyMem
    refine ⟨?_, ?_⟩
    · rcases keys key keyMem with ⟨moved, -⟩ | justCopied
      · exact moved.copied
      · exact justCopied.copied
    · simp only [State.served, database, if_true]
      exact rows key keyMem
  · intro _ key keyMem
    rcases keys key keyMem with ⟨-, row, rowMem, rowKey⟩ | justCopied
    · exact ⟨row, write.mem_apply rowMem, rowKey⟩
    · have possible : write.possible state.destination.screenshots
          [{ shot with storageKey }] = true := possible
      rcases List.mem_map.mp (Write.holds_of_single possible succeeds) with ⟨row, rowMem, sameId⟩
      refine ⟨row, rowMem, rows key keyMem row rowMem ?_⟩
      rw [((nowKnown row rowMem).own shotKnown own).mpr sameId, justCopied.ofShot]

theorem State.Images.recordInPlace {shot : Screenshot}
    (database : run.toDatabase = false) (shotKnown : Known known shot)
    (newKey : storageKey = .tenant shot.storageKey.object)
    (within : phase.Within known run.movedKeys) (keys : ∀ key ∈ run.movedKeys, state.Moved run key ∨
      state.JustCopied run shot storageKey write updated key) :
    State.Images known { state.goto run phase with source := { state.source with
      screenshots := repoint state.source.screenshots shot.id storageKey updated } } := by
  refine ⟨?_, images.destination, ?_⟩
  · intro row rowMem
    rcases mem_repoint rowMem with ⟨old, oldMem, sameId, ⟨isShot, -, key⟩ | ⟨-, rfl⟩⟩
    · rcases shotKnown with ⟨first, firstMem, firstId, object⟩
      refine ⟨first, firstMem, firstId.trans (isShot.symm.trans sameId.symm), ?_⟩
      rw [key, newKey]
      exact object
    · exact images.source row oldMem
  · rintro further ⟨⟩
    refine ⟨within, ?_, ?_⟩
    · intro key keyMem
      have there := keys key keyMem
      refine ⟨?_, ?_⟩
      · rcases there with moved | justCopied
        · exact moved.copied
        · exact justCopied.copied
      · simp only [State.served, database, Bool.false_eq_true, if_false]
        intro row rowMem sameObject
        rcases mem_repoint rowMem with ⟨old, oldMem, sameId, ⟨-, -, rowKey⟩ | ⟨missed, rfl⟩⟩
        · rw [rowKey, newKey] at sameObject ⊢
          exact congrArg StoredKey.tenant sameObject
        · rcases there with moved | justCopied
          · have before := moved.rows
            simp only [State.served, database, Bool.false_eq_true, if_false] at before
            exact before row oldMem sameObject
          · -- the row of this image is the one that has been updated
            have records := justCopied.records
            simp only [State.recordsMove, database, Bool.false_eq_true, if_false] at records
            apply absurd _ missed
            refine ⟨?_, records⟩
            apply ((images.source row oldMem).own shotKnown own).mp
            rw [sameObject, justCopied.ofShot]
    · intro withDatabase
      cases database.symm.trans withDatabase

theorem State.Images.recordShot {shot : Screenshot} (shotKnown : Known known shot)
    (sameKey : storageKey = shot.storageKey ∨ storageKey = .tenant shot.storageKey.object)
    (within : phase.Within known run.movedKeys) (possible : run.toDatabase = true →
      write.possible state.destination.screenshots [shot] = true)
    (keys : ∀ key ∈ run.movedKeys,
      state.Moved run key ∧ (run.toDatabase = true →
        ∃ row ∈ state.destination.screenshots.rows, row.storageKey = .tenant key) ∨
      state.JustCopied run shot storageKey write updated key) :
    (state.recordShot run shot storageKey write updated phase).Images known := by
  have rowKnown : Known known { shot with storageKey } := by
    apply shotKnown.rekey
    rcases sameKey with rfl | rfl <;> rfl
  unfold State.recordShot
  cases database : run.toDatabase with
  | true =>
    have written : (∀ landed, write ≠ .failed landed) → State.Images known
        ({ state with destination := { state.destination with
          screenshots := write.apply state.destination.screenshots
            [{ shot with storageKey }] } }.goto run phase) := by
      have recordedKeys : ∀ key ∈ run.movedKeys,
          state.Moved run key ∧ (∃ row ∈ state.destination.screenshots.rows,
            row.storageKey = .tenant key) ∨
          state.JustCopied run shot storageKey write updated key := by
        intro key keyMem
        rcases keys key keyMem with ⟨moved, recorded⟩ | justCopied
        · exact .inl ⟨moved, recorded database⟩
        · exact .inr justCopied
      exact images.recordInDatabase own database shotKnown rowKnown within (possible database)
        recordedKeys
    cases write with
    | ok | duplicateKey landed => exact written (by simp)
    | failed landed =>
      refine ⟨images.source, known_apply images.destination rowKnown, ?_⟩
      rintro further ⟨⟩
  | false =>
    simp only [Bool.false_eq_true, if_false]
    split_ifs with unchanged
    · refine ⟨images.source, images.destination, ?_⟩
      rintro further ⟨⟩
      refine ⟨within, ?_, ?_⟩
      · intro key keyMem
        rcases keys key keyMem with ⟨moved, -⟩ | justCopied
        · exact ⟨moved.copied, moved.rows⟩
        · have notTenant := justCopied.notTenant
          rw [← unchanged, justCopied.newKey] at notTenant
          cases notTenant
      · intro withDatabase
        cases database.symm.trans withDatabase
    · apply images.recordInPlace own database shotKnown (sameKey.resolve_left unchanged) within
      intro key keyMem
      rcases keys key keyMem with ⟨moved, -⟩ | justCopied
      · exact .inl moved
      · exact .inr justCopied

theorem State.Images.takeShot
    (isRun : state.run = some run) {shot : Screenshot} {rest : List Screenshot}
    {full progressed : Bool} {copy : Copy}
    (isPhase : run.phase = .shots (shot :: rest) full progressed)
    (possible : state.canTake run shot copy write = true)
    (keeps : Keeps state (.takeShot copy write updated)) :
    (state.takeShot run shot rest full progressed copy write updated).Images known := by
  have follows := images.follows run isRun
  have within := follows.phase
  rw [isPhase] at within
  have shotKnown := within shot List.mem_cons_self
  have restKnown : ∀ other ∈ rest, Known known other :=
    fun other otherMem => within other (List.mem_cons_of_mem shot otherMem)
  have canWrite : run.toDatabase = true →
      write.possible state.destination.screenshots [shot] = true := by
    intro database
    simp only [State.canTake, database, Bool.and_eq_true, Bool.not_true, Bool.false_or] at possible
    exact possible.2
  unfold State.takeShot
  split_ifs with seen
  · exact images.goOn isRun rfl rfl rfl rfl ⟨rfl, rfl, restKnown⟩
  simp only
  split
  · exact images.finish
  rename_i copied next storageKey moved
  rcases State.moveImage_cases moved with
    ⟨sameState, sameRun, sameKey⟩ | ⟨moveImages, notTenant, isKept | isMoved⟩
  · rw [sameState, sameRun]
    refine images.recordShot own shotKnown (.inl sameKey) ?_ canWrite ?_
    · exact restKnown
    intro key keyMem
    have keyMoved := follows.moved key keyMem
    exact .inl ⟨⟨keyMoved.copied, keyMoved.rows⟩, fun database => follows.recorded database key keyMem⟩
  · exact absurd isKept (keeps.takeShot isRun isPhase seen moveImages notTenant).1
  · rcases isMoved with ⟨isMoved, newKey, newState, newRun⟩
    have records := (keeps.takeShot isRun isPhase seen moveImages notTenant).2 isMoved
    rw [newState, newRun]
    have copiedImages : State.Images known { state with
        tenantFiles := shot.storageKey.object :: state.tenantFiles } := by
      refine ⟨images.source, images.destination, ?_⟩
      intro other isOther
      have old := images.follows other isOther
      refine ⟨old.phase, ?_, old.recorded⟩
      intro key keyMem
      exact ⟨List.mem_cons_of_mem _ (old.moved key keyMem).copied, (old.moved key keyMem).rows⟩
    refine copiedImages.recordShot own shotKnown (.inr newKey) ?_ canWrite ?_
    · exact restKnown
    intro key keyMem
    rcases List.mem_append.mp keyMem with before | isNew
    · have keyMoved := follows.moved key before
      left
      exact ⟨⟨List.mem_cons_of_mem _ keyMoved.copied, keyMoved.rows⟩,
        fun database => follows.recorded database key before⟩
    · cases List.mem_singleton.mp isNew
      exact .inr ⟨rfl, notTenant, newKey, List.mem_cons_self, records⟩

theorem State.Images.step {action : Action}
    (keeps : Keeps state action) (stepped : step state action = some next) :
    next.Images known := by
  unfold Mover.step at stepped
  split at stepped
  · split at stepped
    · split_ifs at stepped
      cases stepped
      refine ⟨images.source, images.destination, ?_⟩
      rintro further ⟨⟩
      refine ⟨?_, by simp, by simp⟩
      simp only
      split_ifs <;> trivial
    · cases stepped
  · rename_i run isRun
    have follows := images.follows run isRun
    have onwards : ∀ phase : Phase, phase.Within known run.movedKeys →
        (state.goto run phase).Images known := by
      intro phase within
      exact images.goOn isRun rfl rfl rfl rfl ⟨rfl, rfl, within⟩
    split at stepped
    · rename_i succeeds isPhase
      cases stepped
      cases succeeds with
      | true => exact onwards _ trivial
      | false => exact images.finish
    · rename_i last succeeds isPhase
      cases stepped
      cases succeeds with
      | true => exact onwards _ trivial
      | false => exact images.finish
    · cases stepped
      exact images.takeEvent isRun _ _
    · split_ifs at stepped
      cases stepped
      exact images.flush isRun _ _ _
    · split_ifs at stepped
      cases stepped
      exact images.flushOne isRun _ _ _ _ _
    · cases stepped
      exact images.goOn isRun rfl rfl rfl rfl ⟨rfl, rfl, trivial⟩
    · rename_i succeeds isPhase
      cases stepped
      cases succeeds with
      | true => exact onwards _ trivial
      | false => exact images.finish
    · split_ifs at stepped
      cases stepped
      exact images.copySession isRun _ _ _
    · cases stepped
      exact onwards _ trivial
    · cases stepped
      exact images.finish
    · split_ifs at stepped with answered
      cases stepped
      apply onwards
      intro shot shotMem
      simp only [ordered, Bool.and_eq_true, decide_eq_true_eq] at answered
      have selected := answered.1.mem_iff.mp (List.mem_of_mem_take shotMem)
      exact images.source shot (List.mem_filter.mp selected).1
    · rename_i isPhase
      split_ifs at stepped with possible
      cases stepped
      exact images.takeShot own isRun isPhase possible keeps
    · cases stepped
      unfold State.endPage
      split_ifs with goesOn database
      · exact onwards _ trivial
      · exact images.goOn isRun rfl rfl rfl rfl ⟨rfl, rfl, trivial⟩
      · exact images.goOn isRun rfl rfl rfl rfl ⟨rfl, rfl, fun key keyMem => keyMem⟩
    · cases stepped
      exact images.delete isRun (fun _ shotMem => shotMem) trivial
    · cases stepped
      exact images.delete isRun (fun _ none => by cases none) trivial
    · cases stepped
      exact images.delete isRun (fun _ shotMem => shotMem) fun key keyMem => keyMem
    · rename_i isPhase
      cases stepped
      have within := follows.phase
      rw [isPhase] at within
      exact images.goOn isRun rfl rfl rfl rfl ⟨rfl, rfl, fun key keyMem => within key (List.mem_cons_of_mem _ keyMem)⟩
    · cases stepped
      exact images.finish
    · cases stepped

end

end

end Images

/--
Along any runs that take none of the three branches, an image is deleted only when the
rows that remain point at its copy.
-/
theorem losesNoImage_of_keeps {source destination : Tables} {primaryFiles tenantFiles : List String}
    {trace : List Action} {final : State}
    (own : OwnImages (source.screenshots.rows ++ destination.screenshots.rows))
    (keeps : AllSteps step Keeps (State.initial source destination primaryFiles tenantFiles) trace)
    (executed : exec step (State.initial source destination primaryFiles tenantFiles) trace =
      some final) :
    final.LosesNoImage := by
  apply State.Images.losesNoImage
  apply invariant_of_allSteps (fun _ _ _ images keeps stepped =>
    State.Images.step images own keeps stepped) _ keeps executed
  refine ⟨?_, ?_, ?_⟩
  · intro shot shotMem
    exact known_of_mem (List.mem_append_left _ shotMem)
  · intro shot shotMem
    exact known_of_mem (List.mem_append_right _ shotMem)
  · intro run isRun
    cases isRun

def shotHere : Screenshot := ⟨⟨7⟩, 1, .primary "screenshots/7.webp"⟩

def oneShot : Tables :=
  { Tables.empty with screenshots := ⟨[shotHere], by simp⟩ }

theorem ownImages_oneShot :
    OwnImages (oneShot.screenshots.rows ++ Tables.empty.screenshots.rows) := by
  intro first firstMem second secondMem
  simp only [oneShot, Tables.empty, Table.empty, List.append_nil, List.mem_singleton]
    at firstMem secondMem
  simp [firstMem, secondMem]

def rerunTrace : List Action :=
  [.start true true, .count true, .readEvents true, .takeEvent, .readSessions true, .endPage,
    .readShots (some [shotHere]), .takeShot .moved (.failed 0) false,
    .start true true, .count true, .readEvents true, .takeEvent, .readSessions true, .endPage,
    .readShots (some [shotHere]), .takeShot .moved .ok false, .endPage,
    .delete ⟨true, true⟩, .delete ⟨true, true⟩, .delete ⟨true, true⟩]

theorem losesNoImage_rerun :
    ∃ final run, exec step (State.initial oneShot .empty ["screenshots/7.webp"] []) rerunTrace =
        some final ∧
      final.run = some run ∧ run.phase = .deletingImages ["screenshots/7.webp"] ∧
        final.LosesNoImage := by
  have keeps : AllSteps step Keeps
      (State.initial oneShot .empty ["screenshots/7.webp"] []) rerunTrace :=
    allSteps_of_checkSteps (by decide)
  refine ⟨_, _, rfl, rfl, rfl, ?_⟩
  exact losesNoImage_of_keeps ownImages_oneShot keeps rfl

/-- The bucket alone is connected, and the update of the row is lost. -/
theorem not_losesNoImage_unseenUpdate :
    ¬∀ source destination primaryFiles tenantFiles trace final,
      OwnImages (source.screenshots.rows ++ destination.screenshots.rows) →
        exec step (State.initial source destination primaryFiles tenantFiles) trace =
          some final → final.LosesNoImage := by
  intro claimed
  have moved := claimed oneShot .empty ["screenshots/7.webp"] []
    [.start false true, .readShots (some [shotHere]), .takeShot .moved .ok false, .endPage]
    _ ownImages_oneShot rfl _ _ _ rfl rfl
  have rekeyed := moved.rows shotHere (by decide) rfl
  cases rekeyed

end Aavishield.Dataplane.Mover
