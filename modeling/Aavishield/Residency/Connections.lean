import Aavishield.Lib.TransitionSystem
import Aavishield.Residency.Settings

/-!
# Connections of data residency

The page tests and saves the settings of a database and of object storage, and the data plane
connects with what was saved.  Of every secret on file it is remembered where it was to be
used when the company entered it.
-/

namespace Aavishield.Residency

open Text

inductive Place where
  | server (host : List Char) (port : ℤ)
  | uri (raw : List Char)
  | service (endpoint : List Char)
  deriving DecidableEq

structure Kind (C S : Type) where
  normalize : C → C
  mergeSecrets : C → C → C
  validate : C → FieldErrors
  secret : C → S → List Char
  place : C → S → Place
  connectsWith : C → S
  busy : String

inductive DBSecret where
  | password
  | uri
  deriving DecidableEq

inductive FilesSecret where
  | key
  deriving DecidableEq

variable (env : Primitives)

def databases : Kind DBConfig DBSecret where
  normalize := DBConfig.normalize env
  mergeSecrets := DBConfig.mergeSecrets env
  validate := DBConfig.validate env
  secret c
    | .password => c.password
    | .uri => c.uri
  place c
    | .password => .server c.host c.port
    | .uri => .uri c.uri
  connectsWith c := if c.usesURI then .uri else .password
  busy := "Wait for the history move to finish before changing the database"

def fileStores : Kind FilesConfig FilesSecret where
  normalize := FilesConfig.normalize env
  mergeSecrets := FilesConfig.mergeSecrets
  validate := FilesConfig.validate env
  secret c _ := if c.isAzure then c.accountKey else c.secretAccessKey
  place c _ := .service (if c.isAzure then c.azureEndpoint else c.bucketEndpoint)
  connectsWith _ := .key
  busy := "Wait for the history move to finish before changing file storage"

structure Answer where
  status : ℕ
  error : String
  fields : FieldErrors
  deriving DecidableEq

/-- How what a request depends on turns out: the database of the service, the server of the
company and the sealing of secrets. -/
structure Attempt where
  loads : Bool
  unseals : Bool
  /-- A connection is opened (`openDB`, `openFiles`). -/
  opens : Bool
  passes : Bool
  error : String
  seals : Bool
  stores : Bool

structure Outcome (C : Type) where
  answer : Answer
  opened : Option C
  saved : Option C

def Outcome.refuse {C : Type} (status : ℕ) (error : String) (fields : FieldErrors) : Outcome C :=
  ⟨⟨status, error, fields⟩, none, none⟩

section Handlers

variable {C S : Type} (kind : Kind C S)

def Kind.configFromRequest (prev : Option C) (form : C) : Except FieldErrors C :=
  let cfg := match prev with
    | none => kind.normalize form
    | some prev => kind.mergeSecrets (kind.normalize form) prev
  match kind.validate cfg with
  | [] => .ok cfg
  | errors => .error errors

/-- `TestDatabase`, `TestFiles`. -/
def Kind.test (prev : Option C) (form : C) (attempt : Attempt) : Outcome C :=
  if !attempt.loads then .refuse 500 "Could not load data residency settings" []
  else match kind.configFromRequest (if attempt.unseals then prev else none) form with
  | .error fields => .refuse 422 "Check the highlighted fields" fields
  | .ok cfg =>
    ⟨⟨200, attempt.error, []⟩, if attempt.opens then some cfg else none, none⟩

/-- `SaveDatabase`, `SaveFiles`. -/
def Kind.save (enabled running : Bool) (prev : Option C) (form : C) (attempt : Attempt) : Outcome C :=
  if !attempt.loads then .refuse 500 "Could not load data residency settings" []
  else if !enabled then .refuse 409 "Turn on data residency first" []
  else if running then .refuse 409 kind.busy []
  else match kind.configFromRequest (if attempt.unseals then prev else none) form with
  | .error fields => .refuse 422 "Check the highlighted fields" fields
  | .ok cfg =>
    if !attempt.opens then .refuse 422 attempt.error []
    else if !attempt.passes then ⟨⟨422, attempt.error, []⟩, some cfg, none⟩
    else if !attempt.seals then ⟨⟨500, "Could not secure the credentials", []⟩, some cfg, none⟩
    else if !attempt.stores then ⟨⟨500, "Could not save", []⟩, some cfg, none⟩
    else ⟨⟨200, "", []⟩, some cfg, some cfg⟩

end Handlers

structure Saved (C S : Type) where
  config : C
  enteredFor : S → Place

structure Use where
  place : Place
  enteredFor : Place

/-- A row of `org_data_residency`, and the uses of the secrets that were ever in it. -/
structure World where
  enabled : Bool
  running : Bool
  db : Option (Saved DBConfig DBSecret)
  files : Option (Saved FilesConfig FilesSecret)
  uses : List Use

def World.initial : World := ⟨false, false, none, none, []⟩

section Records

variable {C S : Type} (kind : Kind C S)

def Kind.enteredFor (prev : Option (Saved C S)) (form cfg : C) (secret : S) : Place :=
  match prev with
  | none => kind.place cfg secret
  | some saved =>
    if kind.secret cfg secret = kind.secret (kind.normalize form) secret then kind.place cfg secret
    else saved.enteredFor secret

def Saved.use (saved : Saved C S) : Use :=
  ⟨kind.place saved.config (kind.connectsWith saved.config),
    saved.enteredFor (kind.connectsWith saved.config)⟩

def Kind.onFile (prev : Option (Saved C S)) (form : C) (outcome : Outcome C) : Option (Saved C S) :=
  match outcome.saved with
  | none => prev
  | some cfg => some ⟨cfg, kind.enteredFor prev form cfg⟩

def Kind.uses (prev : Option (Saved C S)) (form : C) (outcome : Outcome C) : List Use :=
  match outcome.opened with
  | none => []
  | some cfg => [Saved.use kind ⟨cfg, kind.enteredFor prev form cfg⟩]

end Records

inductive Action where
  | setEnabled (enabled : Bool) (confirm : List Char)
  /-- Moving the history starts or comes to its end. -/
  | move (running : Bool)
  | testDatabase (form : DBConfig) (attempt : Attempt)
  | saveDatabase (form : DBConfig) (attempt : Attempt)
  | testFiles (form : FilesConfig) (attempt : Attempt)
  | saveFiles (form : FilesConfig) (attempt : Attempt)
  | disconnectDatabase (confirm : List Char)
  | disconnectFiles (confirm : List Char)
  /-- The data plane connects with the settings on file. -/
  | openDatabase
  | openFiles

def World.settleDatabase (world : World) (form : DBConfig) (outcome : Outcome DBConfig) : World :=
  { world with
    db := (databases env).onFile world.db form outcome
    uses := (databases env).uses world.db form outcome ++ world.uses }

def World.settleFiles (world : World) (form : FilesConfig) (outcome : Outcome FilesConfig) : World :=
  { world with
    files := (fileStores env).onFile world.files form outcome
    uses := (fileStores env).uses world.files form outcome ++ world.uses }

/-- Each request is handled as a whole. -/
def step (world : World) : Action → Option World
  | .setEnabled enabled confirm =>
    if enabled = false ∧ ((world.enabled = true ∧ (world.db.isSome ∨ world.files.isSome) ∧
        confirm ≠ "DISABLE".toList) ∨ world.running = true) then some world
    else some { world with enabled }
  | .move running => some { world with running }
  | .testDatabase form attempt => some <| world.settleDatabase env form <|
      (databases env).test (world.db.map Saved.config) form attempt
  | .saveDatabase form attempt => some <| world.settleDatabase env form <|
      (databases env).save world.enabled world.running (world.db.map Saved.config) form attempt
  | .testFiles form attempt => some <| world.settleFiles env form <|
      (fileStores env).test (world.files.map Saved.config) form attempt
  | .saveFiles form attempt => some <| world.settleFiles env form <|
      (fileStores env).save world.enabled world.running (world.files.map Saved.config) form attempt
  | .disconnectDatabase confirm =>
    if trimSpace confirm ≠ "DISCONNECT".toList ∨ world.running = true then some world
    else some { world with db := none }
  | .disconnectFiles confirm =>
    if trimSpace confirm ≠ "DISCONNECT".toList ∨ world.running = true then some world
    else some { world with files := none }
  | .openDatabase =>
    if world.enabled then world.db.map fun saved =>
      { world with uses := saved.use (databases env) :: world.uses }
    else none
  | .openFiles =>
    if world.enabled then world.files.map fun saved =>
      { world with uses := saved.use (fileStores env) :: world.uses }
    else none

end Aavishield.Residency
