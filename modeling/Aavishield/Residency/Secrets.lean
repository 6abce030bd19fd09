import Aavishield.Residency.Connections

/-!
# Secrets stay where they are

A secret on file goes to no other place as long as a form that leaves it blank names the place
that it was entered for.
-/

namespace Aavishield.Residency

open TransitionSystem

def Use.Stays (use : Use) : Prop := use.place = use.enteredFor

/-- All along a run every secret is used at the place that it was entered for. -/
def SecretsStay (env : Primitives) (trace : List Action) : Prop :=
  ∀ reached, Visits (step env) .initial trace reached → ∀ use ∈ reached.uses, use.Stays

def KeepsServer (saved : Saved DBConfig DBSecret) (c : DBConfig) : Prop :=
  c.usesURI = false → c.provider = saved.config.provider → c.password = [] →
    saved.config.password ≠ [] → c.host = saved.config.host → c.username = saved.config.username →
      .server c.host c.port = saved.enteredFor .password

def KeepsService (saved : Saved FilesConfig FilesSecret) (c : FilesConfig) : Prop :=
  c.provider = saved.config.provider →
    if c.isAzure then
      c.accountKey = [] → saved.config.accountKey ≠ [] → c.accountName = saved.config.accountName →
        .service c.azureEndpoint = saved.enteredFor .key
    else
      c.secretAccessKey = [] → saved.config.secretAccessKey ≠ [] →
        c.accessKeyID = saved.config.accessKeyID → .service c.bucketEndpoint = saved.enteredFor .key

section Kinds

variable {C S : Type} (kind : Kind C S)

def Kind.Keeps (keeps : Saved C S → C → Prop) (reaches : Prop) (onFile : Option (Saved C S)) (form : C)
    (attempt : Attempt) : Prop :=
  ∀ saved, onFile = some saved → reaches → attempt.unseals = true →
    kind.validate (kind.mergeSecrets (kind.normalize form) saved.config) = [] →
      keeps saved (kind.normalize form)

end Kinds

def Attempt.TestReaches (attempt : Attempt) : Prop := attempt.loads = true ∧ attempt.opens = true

def Attempt.SaveReaches (attempt : Attempt) (world : World) : Prop :=
  attempt.loads = true ∧ world.enabled = true ∧ world.running = false ∧ attempt.opens = true

/-- No form that leaves a secret blank names another place than the secret was entered for. -/
def KeepsPlaces (env : Primitives) (world : World) : Action → Prop
  | .testDatabase form attempt =>
    (databases env).Keeps KeepsServer attempt.TestReaches world.db form attempt
  | .saveDatabase form attempt =>
    (databases env).Keeps KeepsServer (attempt.SaveReaches world) world.db form attempt
  | .testFiles form attempt =>
    (fileStores env).Keeps KeepsService attempt.TestReaches world.files form attempt
  | .saveFiles form attempt =>
    (fileStores env).Keeps KeepsService (attempt.SaveReaches world) world.files form attempt
  | _ => True

section Requests

variable {C S : Type} {kind : Kind C S} {prev : Option C} {form cfg : C} {attempt : Attempt}
  {enabled running : Bool}

def Kind.merged (kind : Kind C S) (prev : Option C) (form : C) : C :=
  match prev with
  | none => kind.normalize form
  | some prev => kind.mergeSecrets (kind.normalize form) prev

theorem configFromRequest_eq_ok : kind.configFromRequest prev form = .ok cfg ↔
    kind.merged prev form = cfg ∧ kind.validate (kind.merged prev form) = [] := by
  unfold Kind.configFromRequest Kind.merged
  cases prev with
  | none | some prev => dsimp only; split <;> simp_all

theorem test_opened : (kind.test prev form attempt).opened = some cfg ↔ attempt.TestReaches ∧
    kind.configFromRequest (if attempt.unseals then prev else none) form = .ok cfg := by
  rw [Kind.test, Attempt.TestReaches]
  cases attempt.loads with
  | false => simp [Outcome.refuse]
  | true =>
    cases kind.configFromRequest (if attempt.unseals then prev else none) form with
    | error fields => simp [Outcome.refuse]
    | ok read => simp

theorem test_saved : (kind.test prev form attempt).saved = none := by
  rw [Kind.test]
  cases attempt.loads with
  | false => rfl
  | true => cases kind.configFromRequest (if attempt.unseals then prev else none) form <;> rfl

theorem opened_of_test_saved (saved : (kind.test prev form attempt).saved = some cfg) :
    (kind.test prev form attempt).opened = some cfg := by
  rw [test_saved] at saved
  cases saved

theorem save_opened : (kind.save enabled running prev form attempt).opened = some cfg ↔
    (attempt.loads = true ∧ enabled = true ∧ running = false ∧ attempt.opens = true) ∧
      kind.configFromRequest (if attempt.unseals then prev else none) form = .ok cfg := by
  rw [Kind.save]
  cases attempt.loads with
  | false => simp [Outcome.refuse]
  | true =>
    cases enabled with
    | false => simp [Outcome.refuse]
    | true =>
      cases running with
      | true => simp [Outcome.refuse]
      | false =>
        cases kind.configFromRequest (if attempt.unseals then prev else none) form with
        | error fields => simp [Outcome.refuse]
        | ok read =>
          cases attempt.opens with
          | false => simp [Outcome.refuse]
          | true =>
            simp only [Bool.not_true, Bool.false_eq_true, if_false, and_self, true_and,
              Except.ok.injEq]
            split_ifs <;> simp

theorem save_saved (saved : (kind.save enabled running prev form attempt).saved = some cfg) :
    (kind.save enabled running prev form attempt).opened = some cfg := by
  revert saved
  rw [Kind.save]
  generalize kind.configFromRequest (if attempt.unseals then prev else none) form = read
  cases read with
  | error fields => split_ifs <;> exact id
  | ok read =>
    dsimp only
    split_ifs
    · exact id
    · exact id
    · exact id
    · exact id
    · intro saved
      cases saved
    · intro saved
      cases saved
    · intro saved
      cases saved
    · exact id

variable {onFile : Option (Saved C S)} {outcome : Outcome C} {keeps : Saved C S → C → Prop}

theorem use_stays_of_normalize (onFile : Option (Saved C S)) (form : C) :
    (Saved.use kind ⟨kind.normalize form, kind.enteredFor onFile form (kind.normalize form)⟩).Stays := by
  cases onFile with
  | none => exact rfl
  | some saved => exact (if_pos rfl).symm

theorem stays_iff_keeps {reaches : Prop}
    (opened : ∀ cfg, outcome.opened = some cfg ↔ reaches ∧ kind.configFromRequest
      (if attempt.unseals then onFile.map Saved.config else none) form = .ok cfg)
    (decides : ∀ saved, onFile = some saved →
      ((Saved.use kind ⟨kind.mergeSecrets (kind.normalize form) saved.config, kind.enteredFor (some saved) form
        (kind.mergeSecrets (kind.normalize form) saved.config)⟩).Stays ↔ keeps saved (kind.normalize form))) :
    (∀ use ∈ kind.uses onFile form outcome, use.Stays) ↔
      kind.Keeps keeps reaches onFile form attempt := by
  have uses : (∀ use ∈ kind.uses onFile form outcome, use.Stays) ↔ ∀ cfg, outcome.opened = some cfg →
      (Saved.use kind ⟨cfg, kind.enteredFor onFile form cfg⟩).Stays := by
    rw [Kind.uses]
    cases outcome.opened with
    | none => simp
    | some cfg => simp
  rw [uses]
  simp only [opened, configFromRequest_eq_ok]
  constructor
  · rintro stays saved rfl reaches unseals valid
    rw [← decides saved rfl]
    apply stays
    rw [if_pos unseals]
    exact ⟨reaches, rfl, valid⟩
  · rintro keeps cfg ⟨reaches, rfl, valid⟩
    by_cases unseals : attempt.unseals = true
    · rw [if_pos unseals] at valid ⊢
      cases onFile with
      | none => exact use_stays_of_normalize none form
      | some saved => exact (decides saved rfl).mpr (keeps saved rfl reaches unseals valid)
    · rw [if_neg unseals]
      exact use_stays_of_normalize onFile form

theorem mem_uses_of_onFile {saved : Saved C S}
    (opened : ∀ cfg, outcome.saved = some cfg → outcome.opened = some cfg)
    (found : kind.onFile onFile form outcome = some saved) :
    onFile = some saved ∨ saved.use kind ∈ kind.uses onFile form outcome ∧
      ∃ cfg, outcome.opened = some cfg ∧ saved = ⟨cfg, kind.enteredFor onFile form cfg⟩ := by
  rw [Kind.onFile] at found
  cases isSaved : outcome.saved with
  | none =>
    left
    rwa [isSaved] at found
  | some cfg =>
    right
    rw [isSaved] at found
    cases found
    rw [Kind.uses, opened cfg isSaved]
    exact ⟨List.mem_singleton.mpr rfl, cfg, rfl, rfl⟩

end Requests

theorem filled_iff {filled : Prop} [Decidable filled] {typed onFile : List Char} {place home : Place} :
    (place = if (if filled then onFile else typed) = typed then place else home) ↔
      (filled → onFile ≠ typed → place = home) := by
  split_ifs with isFilled same same
  · exact iff_of_true rfl fun _ other => absurd same other
  · exact ⟨fun stays _ _ => stays, fun keeps => keeps isFilled same⟩
  · exact iff_of_true rfl fun holds => absurd holds isFilled
  · exact absurd rfl same

variable {env : Primitives} {world next : World} {action : Action}

theorem redactURI_nil : redactURI env [] = [] := by
  rw [redactURI]
  cases parsed : env.parse [] with
  | none => rfl
  | some url =>
    dsimp only
    rw [(env.string_nil url parsed).1]
    exact (env.string_nil url parsed).2

section Merging

variable (c prev : DBConfig)

theorem mergeSecrets_place : (c.mergeSecrets env prev).provider = c.provider ∧
    (c.mergeSecrets env prev).host = c.host ∧ (c.mergeSecrets env prev).port = c.port := by
  rw [DBConfig.mergeSecrets]
  split_ifs <;> exact ⟨rfl, rfl, rfl⟩

theorem mergeSecrets_password : (c.mergeSecrets env prev).password =
    if c.provider = prev.provider ∧ c.password = [] ∧ c.host = prev.host ∧ c.username = prev.username
      then prev.password else c.password := by
  rw [DBConfig.mergeSecrets]
  by_cases same : prev.provider = c.provider
  · simp [same]
  · simp [same, Ne.symm same]

theorem mergeSecrets_uri : (c.mergeSecrets env prev).uri =
    if c.provider = prev.provider ∧ c.uri ≠ [] ∧ c.uri = redactURI env prev.uri
      then prev.uri else c.uri := by
  rw [DBConfig.mergeSecrets]
  by_cases same : prev.provider = c.provider
  · simp [same]
  · simp [same, Ne.symm same]

theorem usesURI_mergeSecrets : (c.mergeSecrets env prev).usesURI = c.usesURI := by
  rw [DBConfig.usesURI, DBConfig.usesURI, mergeSecrets_uri, (mergeSecrets_place c prev).1]
  split_ifs with shown
  · have notBlank : prev.uri ≠ [] := by
      intro blank
      apply shown.2.1
      rw [shown.2.2, blank, redactURI_nil]
    simp [shown.2.1, notBlank]
  · rfl

end Merging

def Saved.OwnURI (saved : Saved DBConfig DBSecret) : Prop :=
  saved.enteredFor .uri = .uri saved.config.uri

variable {saved : Saved DBConfig DBSecret} {savedFiles : Saved FilesConfig FilesSecret}

theorem ownURI_of_normalize (onFile : Option (Saved DBConfig DBSecret)) (form : DBConfig) :
    Saved.OwnURI ⟨form.normalize env,
      (databases env).enteredFor onFile form (form.normalize env)⟩ := by
  cases onFile with
  | none => exact rfl
  | some saved => exact if_pos rfl

theorem ownURI_merged (own : saved.OwnURI) (form : DBConfig) :
    Saved.OwnURI ⟨(form.normalize env).mergeSecrets env saved.config,
      (databases env).enteredFor (some saved) form
        ((form.normalize env).mergeSecrets env saved.config)⟩ := by
  show (if ((form.normalize env).mergeSecrets env saved.config).uri =
      (form.normalize env).uri then _ else saved.enteredFor .uri) = Place.uri _
  split_ifs with same
  · rfl
  · rw [own]
    rw [mergeSecrets_uri] at same ⊢
    split_ifs at same ⊢
    · rfl
    · exact absurd rfl same

theorem databases_decides (own : saved.OwnURI) (form : DBConfig) :
    (Saved.use (databases env)
      ⟨(form.normalize env).mergeSecrets env saved.config,
        (databases env).enteredFor (some saved) form
          ((form.normalize env).mergeSecrets env saved.config)⟩).Stays ↔
      KeepsServer saved (form.normalize env) := by
  have ownMerged := @ownURI_merged env saved own form
  have connects : (databases env).connectsWith
      ((form.normalize env).mergeSecrets env saved.config) =
      if (form.normalize env).usesURI then .uri else .password := by
    rw [← @usesURI_mergeSecrets env _ saved.config]
    rfl
  rw [Use.Stays, Saved.use, connects, KeepsServer]
  cases usesURI : (form.normalize env).usesURI with
  | true => exact iff_of_true ownMerged.symm fun isFalse => (by cases isFalse)
  | false =>
    show Place.server _ _ = (if ((form.normalize env).mergeSecrets env saved.config).password =
      (form.normalize env).password then Place.server _ _ else saved.enteredFor .password) ↔ _
    rcases @mergeSecrets_place env (form.normalize env) saved.config with ⟨-, host, port⟩
    rw [host, port, mergeSecrets_password]
    simp only [filled_iff]
    constructor
    · intro stays _ sameProvider blank secret sameHost sameUsername
      exact stays ⟨sameProvider, blank, sameHost, sameUsername⟩ (by rwa [blank])
    · rintro keeps ⟨sameProvider, blank, sameHost, sameUsername⟩ secret
      rw [blank] at secret
      exact keeps trivial sameProvider blank secret sameHost sameUsername

section Merging

variable (c prev : FilesConfig)

theorem filesMerge_place : (c.mergeSecrets prev).isAzure = c.isAzure ∧
    (c.mergeSecrets prev).azureEndpoint = c.azureEndpoint ∧
      (c.mergeSecrets prev).bucketEndpoint = c.bucketEndpoint := by
  rw [FilesConfig.mergeSecrets]
  split_ifs <;> exact ⟨rfl, rfl, rfl⟩

theorem filesMerge_accountKey : (c.mergeSecrets prev).accountKey =
    if c.provider = prev.provider ∧ c.accountKey = [] ∧ c.accountName = prev.accountName
      then prev.accountKey else c.accountKey := by
  rw [FilesConfig.mergeSecrets]
  by_cases same : prev.provider = c.provider
  · simp [same]
  · simp [same, Ne.symm same]

theorem filesMerge_secretAccessKey : (c.mergeSecrets prev).secretAccessKey =
    if c.provider = prev.provider ∧ c.secretAccessKey = [] ∧ c.accessKeyID = prev.accessKeyID
      then prev.secretAccessKey else c.secretAccessKey := by
  rw [FilesConfig.mergeSecrets]
  by_cases same : prev.provider = c.provider
  · simp [same]
  · simp [same, Ne.symm same]

end Merging

theorem fileStores_decides (savedFiles : Saved FilesConfig FilesSecret) (form : FilesConfig) :
    (Saved.use (fileStores env)
      ⟨(form.normalize env).mergeSecrets savedFiles.config,
        (fileStores env).enteredFor (some savedFiles) form
          ((form.normalize env).mergeSecrets savedFiles.config)⟩).Stays ↔
      KeepsService savedFiles (form.normalize env) := by
  rcases filesMerge_place (form.normalize env) savedFiles.config with ⟨isAzure, azure, bucket⟩
  rw [Use.Stays, Saved.use, KeepsService]
  simp only [fileStores, Kind.enteredFor, isAzure, azure, bucket, filesMerge_accountKey,
    filesMerge_secretAccessKey]
  cases (form.normalize env).isAzure with
  | true =>
    simp only [if_true, filled_iff]
    constructor
    · intro stays sameProvider blank secret sameName
      exact stays ⟨sameProvider, blank, sameName⟩ (by rwa [blank])
    · rintro keeps ⟨sameProvider, blank, sameName⟩ secret
      rw [blank] at secret
      exact keeps sameProvider blank secret sameName
  | false =>
    simp only [Bool.false_eq_true, if_false, filled_iff]
    constructor
    · intro stays sameProvider blank secret sameID
      exact stays ⟨sameProvider, blank, sameID⟩ (by rwa [blank])
    · rintro keeps ⟨sameProvider, blank, sameID⟩ secret
      rw [blank] at secret
      exact keeps sameProvider blank secret sameID

structure Sound (env : Primitives) (world : World) : Prop where
  uses : ∀ use ∈ world.uses, use.Stays
  db : ∀ saved, world.db = some saved → saved.OwnURI ∧ (saved.use (databases env)).Stays
  files : ∀ saved, world.files = some saved → (saved.use (fileStores env)).Stays

theorem Sound.initial : Sound env .initial where
  uses _ useMem := by cases useMem
  db _ found := by cases found
  files _ found := by cases found

section

variable (sound : Sound env world)

include sound

theorem sound_settleDatabase {outcome : Outcome DBConfig} {form : DBConfig} {attempt : Attempt}
    {reaches : Prop}
    (opened : ∀ cfg, outcome.opened = some cfg ↔ reaches ∧ (databases env).configFromRequest
      (if attempt.unseals then world.db.map Saved.config else none) form = .ok cfg)
    (saved : ∀ cfg, outcome.saved = some cfg → outcome.opened = some cfg)
    (keeps : (databases env).Keeps KeepsServer reaches world.db form attempt) :
    Sound env (world.settleDatabase env form outcome) := by
  have stays := (stays_iff_keeps opened fun saved found =>
    databases_decides (sound.db saved found).1 form).mpr keeps
  refine ⟨?_, ?_, sound.files⟩
  · intro use useMem
    rcases List.mem_append.mp useMem with useMem | useMem
    · exact stays use useMem
    · exact sound.uses use useMem
  · intro onFile found
    rcases mem_uses_of_onFile saved found with before | ⟨used, cfg, isOpened, rfl⟩
    · exact sound.db onFile before
    · refine ⟨?_, stays _ used⟩
      rw [opened, configFromRequest_eq_ok] at isOpened
      rcases isOpened with ⟨-, rfl, -⟩
      split_ifs
      · cases before : world.db with
        | none => exact ownURI_of_normalize none form
        | some earlier => exact ownURI_merged (sound.db earlier before).1 form
      · exact ownURI_of_normalize world.db form

theorem sound_settleFiles {outcome : Outcome FilesConfig} {form : FilesConfig} {attempt : Attempt}
    {reaches : Prop}
    (opened : ∀ cfg, outcome.opened = some cfg ↔ reaches ∧ (fileStores env).configFromRequest
      (if attempt.unseals then world.files.map Saved.config else none) form = .ok cfg)
    (saved : ∀ cfg, outcome.saved = some cfg → outcome.opened = some cfg)
    (keeps : (fileStores env).Keeps KeepsService reaches world.files form attempt) :
    Sound env (world.settleFiles env form outcome) := by
  have stays := (stays_iff_keeps opened fun saved _ => fileStores_decides saved form).mpr keeps
  refine ⟨?_, sound.db, ?_⟩
  · intro use useMem
    rcases List.mem_append.mp useMem with useMem | useMem
    · exact stays use useMem
    · exact sound.uses use useMem
  · intro onFile found
    rcases mem_uses_of_onFile saved found with before | ⟨used, -, -, -⟩
    · exact sound.files onFile before
    · exact stays _ used

theorem sound_step (keeps : KeepsPlaces env world action)
    (stepped : step env world action = some next) : Sound env next := by
  cases action with
  | setEnabled enabled confirm =>
    rw [step] at stepped
    split_ifs at stepped
    · cases stepped
      exact sound
    · cases stepped
      exact ⟨sound.uses, sound.db, sound.files⟩
  | move running =>
    cases stepped
    exact ⟨sound.uses, sound.db, sound.files⟩
  | testDatabase form attempt =>
    cases stepped
    exact sound_settleDatabase sound (fun _ => test_opened) (fun _ => opened_of_test_saved) keeps
  | saveDatabase form attempt =>
    cases stepped
    exact sound_settleDatabase sound (fun _ => save_opened) (fun _ => save_saved) keeps
  | testFiles form attempt =>
    cases stepped
    exact sound_settleFiles sound (fun _ => test_opened) (fun _ => opened_of_test_saved) keeps
  | saveFiles form attempt =>
    cases stepped
    exact sound_settleFiles sound (fun _ => save_opened) (fun _ => save_saved) keeps
  | disconnectDatabase confirm =>
    rw [step] at stepped
    split_ifs at stepped
    · cases stepped
      exact sound
    · cases stepped
      refine ⟨sound.uses, ?_, sound.files⟩
      intro saved found
      cases found
  | disconnectFiles confirm =>
    rw [step] at stepped
    split_ifs at stepped
    · cases stepped
      exact sound
    · cases stepped
      refine ⟨sound.uses, sound.db, ?_⟩
      intro saved found
      cases found
  | openDatabase =>
    rw [step] at stepped
    split_ifs at stepped
    rcases Option.map_eq_some_iff.mp stepped with ⟨saved, found, rfl⟩
    refine ⟨?_, sound.db, sound.files⟩
    rw [List.forall_mem_cons]
    exact ⟨(sound.db saved found).2, sound.uses⟩
  | openFiles =>
    rw [step] at stepped
    split_ifs at stepped
    rcases Option.map_eq_some_iff.mp stepped with ⟨saved, found, rfl⟩
    refine ⟨?_, sound.db, sound.files⟩
    rw [List.forall_mem_cons]
    exact ⟨sound.files saved found, sound.uses⟩

theorem Sound.keepsPlaces_of_stays
    (stepped : step env world action = some next) (stays : ∀ use ∈ next.uses, use.Stays) :
    KeepsPlaces env world action := by
  cases action with
  | setEnabled enabled confirm | move running | disconnectDatabase confirm
  | disconnectFiles confirm | openDatabase | openFiles => trivial
  | testDatabase form attempt =>
    cases stepped
    apply (stays_iff_keeps (fun _ => test_opened) fun saved found =>
      databases_decides (sound.db saved found).1 form).mp
    intro use useMem
    exact stays use (List.mem_append_left _ useMem)
  | saveDatabase form attempt =>
    cases stepped
    apply (stays_iff_keeps (fun _ => save_opened) fun saved found =>
      databases_decides (sound.db saved found).1 form).mp
    intro use useMem
    exact stays use (List.mem_append_left _ useMem)
  | testFiles form attempt =>
    cases stepped
    apply (stays_iff_keeps (fun _ => test_opened) fun saved _ => fileStores_decides saved form).mp
    intro use useMem
    exact stays use (List.mem_append_left _ useMem)
  | saveFiles form attempt =>
    cases stepped
    apply (stays_iff_keeps (fun _ => save_opened) fun saved _ => fileStores_decides saved form).mp
    intro use useMem
    exact stays use (List.mem_append_left _ useMem)

end

/-- Secrets stay exactly if no form moves one that it does not hold. -/
theorem secretsStay_iff {trace : List Action} {final : World}
    (executed : exec (step env) .initial trace = some final) :
    SecretsStay env trace ↔ AllSteps (step env) (KeepsPlaces env) .initial trace :=
  forall_visits_iff_allSteps (fun _ sound => sound.uses)
    (fun _ _ _ sound keeps stepped => sound_step sound keeps stepped)
    (fun _ _ _ sound stepped stays => sound.keepsPlaces_of_stays stepped stays)
    Sound.initial executed

def Primitives.plain : Primitives where
  lower := Char.toLower
  parse _ := none
  string _ := []
  string_nil _ found := by cases found
  isIP _ := false

def smooth : Attempt := ⟨true, true, true, true, "", true, true⟩

def acme (port : ℤ) (password : String) : DBConfig where
  provider := "postgres".toList
  host := "db.acme.com".toList
  port := port
  database := "shield".toList
  username := "app".toList
  password := password.toList
  schema := []
  tls := []
  uri := []

def tested (port : ℤ) : List Action :=
  [.setEnabled true [], .saveDatabase (acme 5432 "hunter2") smooth, .testDatabase (acme port "") smooth]

theorem secretsStay_tested : SecretsStay .plain (tested 5432) ↔
    AllSteps (step .plain) (KeepsPlaces .plain) .initial (tested 5432) :=
  @secretsStay_iff .plain (tested 5432) _ rfl

/-- The password that was entered for one port is sent to another one. -/
theorem not_alwaysSecretsStay : ¬∀ env trace final,
    exec (step env) .initial trace = some final → SecretsStay env trace := by
  intro always
  rcases executed : exec (step .plain) .initial (tested 5433) with _ | final
  · cases executed
  · have stays := always .plain (tested 5433) final executed final
      ⟨tested 5433, List.prefix_rfl, executed⟩
    have isUsed : ∃ use ∈ final.uses, use.place ≠ use.enteredFor := by
      cases executed
      exact ⟨⟨.server "db.acme.com".toList 5433, .server "db.acme.com".toList 5432⟩,
        List.mem_cons_self, by decide⟩
    rcases isUsed with ⟨use, useMem, moves⟩
    exact moves (stays use useMem)

end Aavishield.Residency
