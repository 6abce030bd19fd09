import Aavishield.Keys.Sealing
import Mathlib.Data.List.Nodup

/-!
# Rotating the secret of the sealed values

`RekeyAll` seals the keys of the organisations' CAs again, in one transaction, when the secret
that all keys are derived from is replaced.
-/

namespace Aavishield.Sealing

structure OrgCACert where
  orgID : ℕ
  encryptedKeyPEM : List Char
  /-- Queries leave out a row with `deleted_at`. -/
  deleted : Bool
  deriving DecidableEq

/-- Everything that is sealed under the key. -/
structure Stored where
  orgCACerts : List OrgCACert
  oneForEach : (orgCACerts.map OrgCACert.orgID).Nodup
  mfaSecrets : List (List Char)
  /-- The sealed columns of `org_data_residency`. -/
  residencyConfigs : List (List Char)
  spooledBatches : List (List Char)

/-- `Update("encrypted_key_pem", sealed)` of the live row of an organisation. -/
def updateRow (orgID : ℕ) (sealed : List Char) (row : OrgCACert) : OrgCACert :=
  if row.orgID = orgID ∧ row.deleted = false then { row with encryptedKeyPEM := sealed } else row

@[simp]
theorem orgID_updateRow (orgID : ℕ) (sealed : List Char) (row : OrgCACert) :
    (updateRow orgID sealed row).orgID = row.orgID := by
  unfold updateRow
  split <;> rfl

def Stored.update (stored : Stored) (orgID : ℕ) (sealed : List Char) : Stored :=
  { stored with
    orgCACerts := stored.orgCACerts.map (updateRow orgID sealed)
    oneForEach := by
      have kept := stored.oneForEach
      simpa [Function.comp_def] using kept }

/-- What fails while the key is changed. -/
structure Faults where
  finds : Bool
  nonce : ℕ → Option Nonce
  updates : ℕ → Bool
  commits : Bool

variable {Key : Type} (crypto : Crypto Key)

def rekeyRow (oldKey newKey : Key) (faults : Faults) (progress : Stored × ℕ) (row : OrgCACert) :
    Except String (Stored × ℕ) :=
  if (openWith crypto newKey row.encryptedKeyPEM).isSome then .ok progress
  else
    match openWith crypto oldKey row.encryptedKeyPEM with
    | none => .error "CA key opens under neither the old nor the new key"
    | some plain =>
      match faults.nonce row.orgID with
      | none => .error "could not read random bytes"
      | some nonce =>
        if faults.updates row.orgID then
          .ok (progress.1.update row.orgID (sealWith crypto newKey nonce plain), progress.2 + 1)
        else .error "could not update the row"

def Stored.found (stored : Stored) : List OrgCACert :=
  stored.orgCACerts.filter fun row => !row.deleted

/-- `RekeyAll`, with what is stored afterwards: a transaction that fails leaves nothing behind. -/
def rekeyAll (oldSecret newSecret : List Char) (faults : Faults) (stored : Stored) :
    Stored × Except String ℕ :=
  if oldSecret = [] then (stored, .error "old CA_KEY_ENCRYPTION_KEY is empty")
  else
    match encryptionKey crypto newSecret with
    | none =>
      (stored, .error
        "CA_KEY_ENCRYPTION_KEY is not set — required to protect org CA private keys at rest")
    | some newKey =>
      if faults.finds then
        match stored.found.foldlM (rekeyRow crypto (deriveKey crypto oldSecret) newKey faults)
            (stored, 0) with
        | .error error => (stored, .error error)
        | .ok (sealed, rekeyed) =>
          if faults.commits then (sealed, .ok rekeyed)
          else (stored, .error "could not commit")
      else (stored, .error "could not read the rows")

def Kept (openUnder : List Char → List Char → Option Bytes) (oldSecret newSecret : List Char)
    (before after : List Char) : Prop :=
  ∀ plain, openUnder oldSecret before = some plain ∨ openUnder newSecret before = some plain →
    openUnder newSecret after = some plain

def mfaSecretLabel : List Char := "mfa-totp".toList

structure Readable (oldSecret newSecret : List Char) (before after : Stored) : Prop where
  orgCACerts : List.Forall₂ (Kept (decryptKey crypto) oldSecret newSecret)
    (before.orgCACerts.map OrgCACert.encryptedKeyPEM) (after.orgCACerts.map OrgCACert.encryptedKeyPEM)
  mfaSecrets : List.Forall₂
    (Kept (fun secret => secretboxOpen crypto secret mfaSecretLabel) oldSecret newSecret)
    before.mfaSecrets after.mfaSecrets
  residencyConfigs : List.Forall₂ (Kept (dataplaneOpen crypto) oldSecret newSecret)
    before.residencyConfigs after.residencyConfigs
  spooledBatches : List.Forall₂ (Kept (dataplaneOpen crypto) oldSecret newSecret)
    before.spooledBatches after.spooledBatches

/-- A call that succeeds keeps everything readable, does not touch what is sealed under the new
secret, and leaves nothing to a further call; one that fails changes nothing. -/
def Rotates (oldSecret newSecret : List Char) (faults : Faults) (stored : Stored) : Prop :=
  match rekeyAll crypto oldSecret newSecret faults stored with
  | (after, .error _) => after = stored
  | (after, .ok _) =>
    Readable crypto oldSecret newSecret stored after ∧
      (∀ row ∈ stored.orgCACerts,
        (decryptKey crypto newSecret row.encryptedKeyPEM).isSome → row ∈ after.orgCACerts) ∧
      ∀ again, (rekeyAll crypto oldSecret newSecret again after).1 = after

def Reseals (oldKey newKey : Key) (faults : Faults) (row : OrgCACert) : Prop :=
  (openWith crypto newKey row.encryptedKeyPEM).isSome = true ∨
    (openWith crypto oldKey row.encryptedKeyPEM).isSome = true ∧
      (faults.nonce row.orgID).isSome = true ∧ faults.updates row.orgID = true

/-- There are two secrets, no statement fails, and every key of a CA opens under one of them. -/
def Completes (oldSecret newSecret : List Char) (faults : Faults) (stored : Stored) : Prop :=
  oldSecret ≠ [] ∧ newSecret ≠ [] ∧ faults.finds = true ∧ faults.commits = true ∧
    ∀ row ∈ stored.found,
      Reseals crypto (deriveKey crypto oldSecret) (deriveKey crypto newSecret) faults row

def LeftBehind (keyOf : List Char → Option Key) (oldSecret newSecret encoded : List Char) : Prop :=
  ((keyOf oldSecret).bind fun key => openWith crypto key encoded).isSome = true ∧
    keyOf oldSecret ≠ keyOf newSecret

/-- Nothing but the keys of CAs is sealed under the old secret; in the two other packages a value
without the mark is not sealed at all. -/
structure OnlyCAKeys (oldSecret newSecret : List Char) (stored : Stored) : Prop where
  orgCACerts : ∀ row ∈ stored.orgCACerts, row.deleted = true →
    ¬LeftBehind crypto (encryptionKey crypto) oldSecret newSecret row.encryptedKeyPEM
  mfaSecrets : ∀ secret ∈ stored.mfaSecrets, sealPrefix.isPrefixOf secret = true →
    ¬LeftBehind crypto (fun raw => secretboxKey crypto raw mfaSecretLabel) oldSecret newSecret
      (Text.trimPrefix sealPrefix secret)
  residencyConfigs : ∀ config ∈ stored.residencyConfigs, sealPrefix.isPrefixOf config = true →
    ¬LeftBehind crypto (sealKey crypto) oldSecret newSecret (Text.trimPrefix sealPrefix config)
  spooledBatches : ∀ batch ∈ stored.spooledBatches, sealPrefix.isPrefixOf batch = true →
    ¬LeftBehind crypto (sealKey crypto) oldSecret newSecret (Text.trimPrefix sealPrefix batch)

variable {crypto} {oldSecret newSecret : List Char} {oldKey newKey : Key} {faults : Faults}
  {stored : Stored} {row : OrgCACert}

def resealed (crypto : Crypto Key) (oldKey newKey : Key) (faults : Faults) (row : OrgCACert) :
    OrgCACert :=
  match openWith crypto newKey row.encryptedKeyPEM, openWith crypto oldKey row.encryptedKeyPEM,
    faults.nonce row.orgID with
  | none, some plain, some nonce =>
    { row with encryptedKeyPEM := sealWith crypto newKey nonce plain }
  | _, _, _ => row

@[simp]
theorem orgID_resealed : (resealed crypto oldKey newKey faults row).orgID = row.orgID := by
  unfold resealed
  split <;> rfl

theorem resealed_of_opens (opensNew : (openWith crypto newKey row.encryptedKeyPEM).isSome = true) :
    resealed crypto oldKey newKey faults row = row := by
  rcases Option.isSome_iff_exists.mp opensNew with ⟨plain, opened⟩
  simp [resealed, opened]

theorem openWith_resealed (reseals : Reseals crypto oldKey newKey faults row) {plain : Bytes}
    (opened : openWith crypto oldKey row.encryptedKeyPEM = some plain ∨
      openWith crypto newKey row.encryptedKeyPEM = some plain) :
    openWith crypto newKey (resealed crypto oldKey newKey faults row).encryptedKeyPEM =
      some plain := by
  cases opensNew : openWith crypto newKey row.encryptedKeyPEM with
  | some inner =>
    have kept : resealed crypto oldKey newKey faults row = row :=
      resealed_of_opens (by simp [opensNew])
    rcases opened with opensOld | same
    · obtain rfl := key_eq_of_openWith opensOld opensNew
      simp [kept, opensOld]
    · simp [kept, same]
  | none =>
    rcases reseals with missing | ⟨-, drawn, -⟩
    · simp [opensNew] at missing
    · rcases Option.isSome_iff_exists.mp drawn with ⟨nonce, drawn⟩
      have opensOld := opened.resolve_right (by simp [opensNew])
      simp [resealed, opensNew, opensOld, drawn]

def Stored.AgreeElsewhere (first second : Stored) : Prop :=
  first.mfaSecrets = second.mfaSecrets ∧ first.residencyConfigs = second.residencyConfigs ∧
    first.spooledBatches = second.spooledBatches

theorem Stored.AgreeElsewhere.trans {first second third : Stored}
    (front : first.AgreeElsewhere second) (back : second.AgreeElsewhere third) :
    first.AgreeElsewhere third :=
  ⟨front.1.trans back.1, front.2.1.trans back.2.1, front.2.2.trans back.2.2⟩

theorem updateRow_eq {table : List OrgCACert} (oneForEach : (table.map OrgCACert.orgID).Nodup)
    (mem : row ∈ table) (live : row.deleted = false) (sealed : List Char) :
    table.map (updateRow row.orgID sealed) =
      table.map fun other => if other = row then { row with encryptedKeyPEM := sealed } else other := by
  apply List.map_congr_left
  intro other otherMem
  unfold updateRow
  by_cases same : other = row
  · simp [same, live]
  · have apart : other.orgID ≠ row.orgID := by
      intro sameOrg
      exact same (List.inj_on_of_nodup_map oneForEach otherMem mem sameOrg)
    simp [same, apart]

theorem rekeyRow_of_reseals {progress : Stored × ℕ} (mem : row ∈ progress.1.orgCACerts)
    (live : row.deleted = false) (reseals : Reseals crypto oldKey newKey faults row) :
    ∃ next count, rekeyRow crypto oldKey newKey faults progress row = .ok (next, count) ∧
      next.orgCACerts = progress.1.orgCACerts.map (fun other =>
        if other = row then resealed crypto oldKey newKey faults row else other) ∧
      next.AgreeElsewhere progress.1 := by
  cases opensNew : openWith crypto newKey row.encryptedKeyPEM with
  | some inner =>
    have kept : resealed crypto oldKey newKey faults row = row :=
      resealed_of_opens (by simp [opensNew])
    have same : ∀ other : OrgCACert, (if other = row then row else other) = other := by
      intro other
      split <;> simp_all
    exact ⟨progress.1, progress.2, by simp [rekeyRow, opensNew], by simp [kept, same],
      rfl, rfl, rfl⟩
  | none =>
    rcases reseals with missing | ⟨opensOld, drawn, updates⟩
    · simp [opensNew] at missing
    · rcases Option.isSome_iff_exists.mp opensOld with ⟨plain, opensOld⟩
      rcases Option.isSome_iff_exists.mp drawn with ⟨nonce, drawn⟩
      have turn : rekeyRow crypto oldKey newKey faults progress row =
          .ok (progress.1.update row.orgID (sealWith crypto newKey nonce plain), progress.2 + 1) := by
        simp [rekeyRow, opensNew, opensOld, drawn, updates]
      refine ⟨_, _, turn, ?_, rfl, rfl, rfl⟩
      simp only [Stored.update, updateRow_eq progress.1.oneForEach mem live, resealed, opensNew,
        opensOld, drawn]

theorem rekeyRow_of_not_reseals {progress : Stored × ℕ}
    (stuck : ¬Reseals crypto oldKey newKey faults row) :
    ∃ error, rekeyRow crypto oldKey newKey faults progress row = .error error := by
  simp only [Reseals, not_or] at stuck
  rcases stuck with ⟨notNew, stuck⟩
  cases opensOld : openWith crypto oldKey row.encryptedKeyPEM with
  | none => exact ⟨_, by simp [rekeyRow, notNew, opensOld]; rfl⟩
  | some plain =>
    cases drawn : faults.nonce row.orgID with
    | none => exact ⟨_, by simp [rekeyRow, notNew, opensOld, drawn]; rfl⟩
    | some nonce =>
      have fails : faults.updates row.orgID = false := by
        simpa [opensOld, drawn] using stuck
      exact ⟨_, by simp [rekeyRow, notNew, opensOld, drawn, fails]; rfl⟩

theorem foldlM_rekeyRow {rows : List OrgCACert} (noTwice : rows.Nodup) {progress : Stored × ℕ}
    (found : ∀ row ∈ rows, row ∈ progress.1.orgCACerts ∧ row.deleted = false)
    (reseal : ∀ row ∈ rows, Reseals crypto oldKey newKey faults row) :
    ∃ sealed count, rows.foldlM (rekeyRow crypto oldKey newKey faults) progress =
        .ok (sealed, count) ∧
      sealed.orgCACerts = progress.1.orgCACerts.map (fun row =>
        if row ∈ rows then resealed crypto oldKey newKey faults row else row) ∧
      sealed.AgreeElsewhere progress.1 := by
  induction rows generalizing progress with
  | nil => exact ⟨progress.1, progress.2, rfl, by simp, rfl, rfl, rfl⟩
  | cons row rows ih =>
    rcases found row List.mem_cons_self with ⟨mem, live⟩
    rcases rekeyRow_of_reseals mem live (reseal row List.mem_cons_self) with
      ⟨next, count, turn, table, others⟩
    rcases List.nodup_cons.mp noTwice with ⟨fresh, noTwice⟩
    have apart : ∀ other ∈ rows, other.orgID ≠ row.orgID := by
      intro other otherMem sameOrg
      have isOther := (found other (List.mem_cons_of_mem row otherMem)).1
      have same := List.inj_on_of_nodup_map progress.1.oneForEach isOther mem sameOrg
      exact fresh (same ▸ otherMem)
    have stillFound : ∀ other ∈ rows, other ∈ next.orgCACerts ∧ other.deleted = false := by
      intro other otherMem
      rcases found other (List.mem_cons_of_mem row otherMem) with ⟨isOther, otherLive⟩
      have differs : other ≠ row := by
        rintro rfl
        exact fresh otherMem
      simp only [table]
      exact ⟨List.mem_map.mpr ⟨other, isOther, by simp [differs]⟩, otherLive⟩
    have later : ∀ other ∈ rows, Reseals crypto oldKey newKey faults other := by
      intro other otherMem
      exact reseal other (List.mem_cons_of_mem row otherMem)
    rcases @ih noTwice (next, count) stillFound later with ⟨sealed, total, rest, final, kept⟩
    refine ⟨sealed, total, ?_, ?_, kept.trans others⟩
    · simp only [List.foldlM_cons, turn]
      exact rest
    · simp only [final, table, List.map_map]
      apply List.map_congr_left
      intro other _
      by_cases same : other = row
      · have done : resealed crypto oldKey newKey faults row ∉ rows := by
          intro isLater
          exact apart _ isLater orgID_resealed
        simp [same, done]
      · simp [same]

theorem foldlM_rekeyRow_of_stuck {rows : List OrgCACert} {progress : Stored × ℕ}
    (stuck : ∃ row ∈ rows, ¬Reseals crypto oldKey newKey faults row) :
    ∃ error, rows.foldlM (rekeyRow crypto oldKey newKey faults) progress = .error error := by
  induction rows generalizing progress with
  | nil => simp at stuck
  | cons row rows ih =>
    simp only [List.foldlM_cons]
    cases turn : rekeyRow crypto oldKey newKey faults progress row with
    | error error => exact ⟨error, rfl⟩
    | ok next =>
      rcases stuck with ⟨other, mem, isStuck⟩
      rcases List.mem_cons.mp mem with rfl | later
      · rcases @rekeyRow_of_not_reseals _ _ _ _ _ _ progress isStuck with ⟨error, stops⟩
        simp [turn] at stops
      · exact ih ⟨other, later, isStuck⟩

theorem mem_found : row ∈ stored.found ↔ row ∈ stored.orgCACerts ∧ row.deleted = false := by
  simp [Stored.found]

theorem rekeyAll_of_completes (completes : Completes crypto oldSecret newSecret faults stored) :
    ∃ sealed count, rekeyAll crypto oldSecret newSecret faults stored = (sealed, .ok count) ∧
      sealed.orgCACerts = stored.orgCACerts.map (fun row =>
        if row ∈ stored.found then
          resealed crypto (deriveKey crypto oldSecret) (deriveKey crypto newSecret) faults row
        else row) ∧
      sealed.AgreeElsewhere stored := by
  rcases completes with ⟨hasOld, hasNew, finds, commits, reseal⟩
  have noTwice : stored.found.Nodup := (List.Nodup.of_map _ stored.oneForEach).filter _
  rcases @foldlM_rekeyRow _ crypto _ _ faults _ noTwice (stored, 0) (fun row mem => mem_found.mp mem)
    reseal with ⟨sealed, count, runs, table, others⟩
  exact ⟨sealed, count, by simp [rekeyAll, hasOld, encryptionKey, hasNew, finds, runs, commits],
    table, others⟩

theorem rekeyAll_of_not_completes (stops : ¬Completes crypto oldSecret newSecret faults stored) :
    ∃ error, rekeyAll crypto oldSecret newSecret faults stored = (stored, .error error) := by
  by_cases hasOld : oldSecret = []
  · exact ⟨_, by simp [rekeyAll, hasOld]; rfl⟩
  · by_cases hasNew : newSecret = []
    · exact ⟨_, by simp [rekeyAll, hasOld, encryptionKey, hasNew]; rfl⟩
    · cases finds : faults.finds with
      | false => exact ⟨_, by simp [rekeyAll, hasOld, encryptionKey, hasNew, finds]; rfl⟩
      | true =>
        cases runs : stored.found.foldlM (rekeyRow crypto (deriveKey crypto oldSecret)
          (deriveKey crypto newSecret) faults) (stored, 0) with
        | error error =>
          exact ⟨error, by simp [rekeyAll, hasOld, encryptionKey, hasNew, finds, runs]⟩
        | ok result =>
          cases commits : faults.commits with
          | false =>
            exact ⟨_, by simp [rekeyAll, hasOld, encryptionKey, hasNew, finds, runs, commits]; rfl⟩
          | true =>
            have stuck : ∃ row ∈ stored.found, ¬Reseals crypto (deriveKey crypto oldSecret)
                (deriveKey crypto newSecret) faults row := by
              simpa [Completes, hasOld, hasNew, finds, commits] using stops
            rcases @foldlM_rekeyRow_of_stuck _ _ _ _ _ _ (stored, 0) stuck with ⟨error, fails⟩
            simp [runs] at fails

theorem rekeyAll_of_opens (opensNew : ∀ row ∈ stored.found,
      (openWith crypto (deriveKey crypto newSecret) row.encryptedKeyPEM).isSome = true)
    (faults : Faults) : (rekeyAll crypto oldSecret newSecret faults stored).1 = stored := by
  have skips : ∀ rows : List OrgCACert, (∀ row ∈ rows,
      (openWith crypto (deriveKey crypto newSecret) row.encryptedKeyPEM).isSome = true) →
      rows.foldlM (rekeyRow crypto (deriveKey crypto oldSecret) (deriveKey crypto newSecret) faults)
        (stored, 0) = .ok (stored, 0) := by
    intro rows opensNew
    induction rows with
    | nil => rfl
    | cons row rows ih =>
      have turn : rekeyRow crypto (deriveKey crypto oldSecret) (deriveKey crypto newSecret) faults
          (stored, 0) row = .ok (stored, 0) := by
        simp [rekeyRow, opensNew row List.mem_cons_self]
      simp only [List.foldlM_cons, turn]
      exact ih fun other mem => opensNew other (List.mem_cons_of_mem row mem)
  unfold rekeyAll
  split
  · rfl
  · split
    · rfl
    · rename_i newKey derived
      have derived : deriveKey crypto newSecret = newKey := by
        unfold encryptionKey at derived
        split at derived <;> simp_all
      obtain rfl := derived
      split
      · simp only [skips _ opensNew]
        split <;> rfl
      · rfl

theorem forall_opens_iff {keyOf : List Char → Option Key} {encoded : List Char} :
    (∀ plain, (keyOf oldSecret).bind (fun key => openWith crypto key encoded) = some plain ∨
        (keyOf newSecret).bind (fun key => openWith crypto key encoded) = some plain →
      (keyOf newSecret).bind (fun key => openWith crypto key encoded) = some plain) ↔
      ¬LeftBehind crypto keyOf oldSecret newSecret encoded := by
  constructor
  · rintro kept ⟨opensOld, differ⟩
    rcases Option.isSome_iff_exists.mp opensOld with ⟨plain, opensOld⟩
    have opensNew := kept plain (.inl opensOld)
    rcases Option.bind_eq_some_iff.mp opensOld with ⟨oldKey, isOld, opensOld⟩
    rcases Option.bind_eq_some_iff.mp opensNew with ⟨newKey, isNew, opensNew⟩
    exact differ (by simp [isOld, isNew, key_eq_of_openWith opensOld opensNew])
  · rintro notBehind plain (opensOld | opensNew)
    · by_contra stays
      apply notBehind
      refine ⟨by simp [opensOld], ?_⟩
      intro same
      exact stays (same ▸ opensOld)
    · exact opensNew

theorem kept_secretbox_iff {label stored : List Char} :
    Kept (fun secret => secretboxOpen crypto secret label) oldSecret newSecret stored stored ↔
      (sealPrefix.isPrefixOf stored = true →
        ¬LeftBehind crypto (fun raw => secretboxKey crypto raw label) oldSecret newSecret
          (Text.trimPrefix sealPrefix stored)) := by
  cases marked : sealPrefix.isPrefixOf stored with
  | false => simp [Kept, secretboxOpen, marked]
  | true =>
    simp only [Kept, secretboxOpen, marked, if_true, forall_const]
    exact @forall_opens_iff _ crypto _ _ (fun raw => secretboxKey crypto raw label) _

theorem kept_dataplane_iff {stored : List Char} :
    Kept (dataplaneOpen crypto) oldSecret newSecret stored stored ↔
      (sealPrefix.isPrefixOf stored = true →
        ¬LeftBehind crypto (sealKey crypto) oldSecret newSecret
          (Text.trimPrefix sealPrefix stored)) := by
  cases marked : sealPrefix.isPrefixOf stored with
  | false => simp [Kept, dataplaneOpen, marked]
  | true =>
    simp only [Kept, dataplaneOpen, marked, if_true, forall_const]
    exact forall_opens_iff

theorem kept_decryptKey_iff {encoded : List Char} :
    Kept (decryptKey crypto) oldSecret newSecret encoded encoded ↔
      ¬LeftBehind crypto (encryptionKey crypto) oldSecret newSecret encoded :=
  forall_opens_iff

theorem kept_resealed (hasOld : oldSecret ≠ []) (hasNew : newSecret ≠ [])
    (reseals : Reseals crypto (deriveKey crypto oldSecret) (deriveKey crypto newSecret) faults row) :
    Kept (decryptKey crypto) oldSecret newSecret row.encryptedKeyPEM
      (resealed crypto (deriveKey crypto oldSecret) (deriveKey crypto newSecret) faults
        row).encryptedKeyPEM := by
  intro plain opened
  simp only [decryptKey, encryptionKey, hasOld, hasNew, if_false, Option.bind_some] at opened ⊢
  exact openWith_resealed reseals opened

theorem readable_iff {after : Stored}
    (completes : Completes crypto oldSecret newSecret faults stored)
    (table : after.orgCACerts = stored.orgCACerts.map (fun row =>
      if row ∈ stored.found then
        resealed crypto (deriveKey crypto oldSecret) (deriveKey crypto newSecret) faults row
      else row))
    (others : after.AgreeElsewhere stored) :
    Readable crypto oldSecret newSecret stored after ↔
      OnlyCAKeys crypto oldSecret newSecret stored := by
  rcases completes with ⟨hasOld, hasNew, -, -, reseal⟩
  have keys : List.Forall₂ (Kept (decryptKey crypto) oldSecret newSecret)
      (stored.orgCACerts.map OrgCACert.encryptedKeyPEM)
      (after.orgCACerts.map OrgCACert.encryptedKeyPEM) ↔
      ∀ row ∈ stored.orgCACerts, row.deleted = true →
        ¬LeftBehind crypto (encryptionKey crypto) oldSecret newSecret row.encryptedKeyPEM := by
    simp only [table, List.forall₂_map_left_iff, List.forall₂_map_right_iff, List.forall₂_same]
    apply forall₂_congr
    intro row mem
    by_cases live : row.deleted = false
    · have isFound : row ∈ stored.found := mem_found.mpr ⟨mem, live⟩
      simp [isFound, live, kept_resealed hasOld hasNew (reseal row isFound)]
    · have notFound : row ∉ stored.found := fun isFound => live (mem_found.mp isFound).2
      simp only [notFound, if_false, kept_decryptKey_iff]
      simp [show row.deleted = true by simpa using live]
  constructor
  · rintro ⟨orgCACerts, mfaSecrets, residencyConfigs, spooledBatches⟩
    simp only [others.1, others.2.1, others.2.2, List.forall₂_same, kept_secretbox_iff,
      kept_dataplane_iff] at mfaSecrets residencyConfigs spooledBatches
    exact ⟨keys.mp orgCACerts, mfaSecrets, residencyConfigs, spooledBatches⟩
  · rintro ⟨orgCACerts, mfaSecrets, residencyConfigs, spooledBatches⟩
    constructor
    · exact keys.mpr orgCACerts
    · simpa only [others.1, List.forall₂_same, kept_secretbox_iff] using mfaSecrets
    · simpa only [others.2.1, List.forall₂_same, kept_dataplane_iff] using residencyConfigs
    · simpa only [others.2.2, List.forall₂_same, kept_dataplane_iff] using spooledBatches

/-- The secret can be replaced exactly if the call fails or nothing but the keys of CAs is sealed
under it. -/
theorem rotates_iff (crypto : Crypto Key) (oldSecret newSecret : List Char) (faults : Faults)
    (stored : Stored) :
    Rotates crypto oldSecret newSecret faults stored ↔
      (Completes crypto oldSecret newSecret faults stored →
        OnlyCAKeys crypto oldSecret newSecret stored) := by
  by_cases completes : Completes crypto oldSecret newSecret faults stored
  · rcases rekeyAll_of_completes completes with ⟨after, count, runs, table, others⟩
    have readable := readable_iff completes table others
    rcases completes with ⟨hasOld, hasNew, finds, commits, reseal⟩
    have untouched : ∀ row ∈ stored.orgCACerts,
        (decryptKey crypto newSecret row.encryptedKeyPEM).isSome → row ∈ after.orgCACerts := by
      intro row mem opensNew
      simp only [decryptKey, encryptionKey, hasNew, if_false, Option.bind_some] at opensNew
      simp only [table]
      exact List.mem_map.mpr ⟨row, mem, by simp [resealed_of_opens opensNew]⟩
    have again : ∀ again, (rekeyAll crypto oldSecret newSecret again after).1 = after := by
      apply rekeyAll_of_opens
      intro row mem
      rcases mem_found.mp mem with ⟨mem, live⟩
      simp only [table] at mem
      rcases List.mem_map.mp mem with ⟨before, isRow, rfl⟩
      by_cases isFound : before ∈ stored.found
      · have reseals := reseal before isFound
        have opened : ∃ plain,
            openWith crypto (deriveKey crypto oldSecret) before.encryptedKeyPEM = some plain ∨
              openWith crypto (deriveKey crypto newSecret) before.encryptedKeyPEM = some plain := by
          rcases reseals with opensNew | ⟨opensOld, -⟩
          · rcases Option.isSome_iff_exists.mp opensNew with ⟨plain, opensNew⟩
            exact ⟨plain, .inr opensNew⟩
          · rcases Option.isSome_iff_exists.mp opensOld with ⟨plain, opensOld⟩
            exact ⟨plain, .inl opensOld⟩
        rcases opened with ⟨plain, opened⟩
        simp [isFound, openWith_resealed reseals opened]
      · simp only [isFound, if_false] at live
        exact absurd (mem_found.mpr ⟨isRow, live⟩) isFound
    have given : Completes crypto oldSecret newSecret faults stored :=
      ⟨hasOld, hasNew, finds, commits, reseal⟩
    simp only [Rotates, runs, readable, given, forall_const]
    exact ⟨fun rotates => rotates.1, fun only => ⟨only, untouched, again⟩⟩
  · rcases rekeyAll_of_not_completes completes with ⟨error, fails⟩
    simp [Rotates, fails, completes]

def labelled : Crypto UInt8 where
  sha256 text := UInt8.ofNat (text.map Char.toNat).sum
  gcmSeal key _ plain := key :: plain
  gcmOpen
    | _, _, [] => none
    | key, _, label :: plain => if label = key then some plain else none
  opens key nonce plain := by simp
  opensOnly key other nonce sealed first second := by
    cases sealed with
    | nil => simp
    | cons label plain =>
      intro opensFirst opensSecond
      split at opensFirst <;> split at opensSecond <;> simp_all

def zeros : Nonce := ⟨List.replicate 12 0, rfl⟩

def oneSecondFactor : Stored where
  orgCACerts := []
  oneForEach := List.nodup_nil
  mfaSecrets :=
    (secretboxSeal labelled "old".toList mfaSecretLabel zeros "JBSWY3DPEHPK3PXP".toList).toList
  residencyConfigs := []
  spooledBatches := []

def noFaults : Faults where
  finds := true
  nonce _ := some zeros
  updates _ := true
  commits := true

/-- A second factor stays under the old key. -/
theorem not_rotates_oneSecondFactor :
    ¬Rotates labelled "old".toList "new".toList noFaults oneSecondFactor := by
  have completes : Completes labelled "old".toList "new".toList noFaults oneSecondFactor :=
    ⟨by decide, by decide, rfl, rfl, by simp [Stored.found, oneSecondFactor]⟩
  rcases rekeyAll_of_completes completes with ⟨after, count, runs, table, others⟩
  intro rotates
  simp only [Rotates, runs] at rotates
  have only := (readable_iff completes table others).mp rotates.1
  have behind : ∃ secret ∈ oneSecondFactor.mfaSecrets, sealPrefix.isPrefixOf secret = true ∧
      ((secretboxKey labelled "old".toList mfaSecretLabel).bind fun key =>
        openWith labelled key (Text.trimPrefix sealPrefix secret)).isSome = true := by
    decide +kernel
  rcases behind with ⟨secret, mem, marked, opensOld⟩
  exact only.mfaSecrets secret mem marked ⟨opensOld, by decide +kernel⟩

end Aavishield.Sealing
