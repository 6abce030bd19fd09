import Aavishield.Dlp.Windows
import Aavishield.Dlp.Libraries
import Aavishield.Lib.Base64
import Aavishield.Lib.TransitionSystem

/-!
# The classifiers and their cache

What the models say about texts, images and speech is kept in a cache that all instances of the
service share.  Every access to the cache, and every question to the models, is a step of its
own; the steps of classifications interleave.
-/

namespace Aavishield.Classifier

open ByteText Text
open Dlp (Bytes Json)

/-- What the classifier takes from libraries. -/
structure Primitives where
  sha256 : Bytes → Vector UInt8 32
  /-- `serde_json::from_str`. -/
  parseJson : List Char → Option Json
  /-- `as_f64() as i64` of a number. -/
  asI64 : List Char → ℤ

structure TextVerdict extends Dlp.TextVerdict where
  cached : Bool
  budgetExhausted : Bool

structure VisionVerdict extends Dlp.VisionVerdict where
  evidence : List Char
  cached : Bool
  budgetExhausted : Bool

def TextVerdict.none : TextVerdict := ⟨⟨false, ["none"], 0, []⟩, false, false⟩

def VisionVerdict.none : VisionVerdict := ⟨⟨false, "none", 0⟩, [], false, false⟩

def textCategories : List String :=
  ["salary_data", "customer_pii", "employee_pii", "financial", "legal_privileged", "contract",
    "credentials", "source_code", "trade_secret", "health_data", "security_report",
    "merger_acquisition", "none"]

def docTypes : List String :=
  ["aadhaar_card", "pan_card", "passport", "credit_card", "cheque", "driving_licence", "id_card",
    "credentials_screenshot", "contract", "none"]

/-- A reply cannot be cut inside a character, which ends the task. -/
inductive Reading (Value : Type) where
  | panics
  | unusable
  | usable (value : Value)

def Reading.map {Value Other : Type} (convert : Value → Other) : Reading Value → Reading Other
  | .panics => .panics
  | .unusable => .unusable
  | .usable value => .usable (convert value)

abbrev Fields := List (List Char × Json)

def Fields.get (fields : Fields) (name : String) : Option Json :=
  (fields.find? fun field => field.1 == name.toList).map Prod.snd

def Json.asStr : Json → Option (List Char)
  | .string text => some text
  | _ => none

def Json.asBool : Json → Option Bool
  | .bool value => some value
  | _ => none

/-- `str::parse::<i64>`. -/
def parseI64 (text : List Char) : Option ℤ :=
  let (negative, digits) := match text with
    | '+' :: rest => (false, rest)
    | '-' :: rest => (true, rest)
    | _ => (false, text)
  if digits = [] then none
  else
    ((Digits.readNumber 10 digits).map fun number => if negative then -(number : ℤ) else number).filter
      fun value => decide (-2 ^ 63 ≤ value ∧ value < 2 ^ 63)

/-- `str::trim_matches` of a letter. -/
def trimMatches (mark : Char) (text : List Char) : List Char :=
  ((text.dropWhile (· == mark)).reverse.dropWhile (· == mark)).reverse

section Parsing

variable (env : Primitives)

def parseObject (text : List Char) : Reading Fields :=
  match env.parseJson text with
  | some (.object fields) => .usable fields
  | _ => .unusable

def modelJson (text : List Char) : Reading Fields :=
  let trimmed := trimSpace text
  if "```".toList.isPrefixOf trimmed then
    let inner := trimMatches '`' trimmed
    if 4 ≤ byteLength inner ∧ isCharBoundary inner 4 = false then .panics
    else
      let isNamed := decide (4 ≤ byteLength inner) &&
        (takeBytes inner 4).map Char.toLower == "json".toList
      parseObject env (trimSpace (if isNamed then dropBytes inner 4 else inner))
  else parseObject env trimmed

def confidenceOf (fields : Fields) : ℤ :=
  let confidence := match fields.get "confidence" with
    | some (.number text) => env.asI64 text
    | some (.string text) => (parseI64 (trimSpace text)).getD 0
    | _ => 0
  max 0 (min confidence 100)

def evidenceOf (fields : Fields) : List Char :=
  (((fields.get "evidence").bind Json.asStr).getD []).take 200

def categoriesOf (fields : Fields) : List String :=
  let raw := match fields.get "categories" with
    | some (.array items) => items.filterMap Json.asStr
    | some (.string text) => [text]
    | _ => []
  (raw.map String.ofList).filter fun category => decide (category ∈ textCategories)

def parseTextOutput (text : List Char) : Reading TextVerdict :=
  (modelJson env text).map fun fields =>
    let flagged := ((fields.get "sensitive").bind Json.asBool).getD false
    let sensitive := flagged && (categoriesOf fields).any (· != "none")
    { sensitive
      categories := if sensitive then categoriesOf fields else ["none"]
      confidence := confidenceOf env fields
      evidence := evidenceOf fields
      cached := false
      budgetExhausted := false }

def parseVisionOutput (text : List Char) : Reading VisionVerdict :=
  match modelJson env text with
  | .panics => .panics
  | .unusable => .unusable
  | .usable fields =>
    match (fields.get "doc_type").bind Json.asStr with
    | none => .unusable
    | some named =>
      let docType := String.ofList named
      let flagged := ((fields.get "sensitive").bind Json.asBool).getD false
      if docType ∉ docTypes then .unusable
      else
        .usable
          { sensitive := flagged && docType != "none"
            docType := docType
            confidence := confidenceOf env fields
            evidence := evidenceOf fields
            cached := false
            budgetExhausted := false }

end Parsing

inductive Response where
  | failed
  | answered (status : ℕ) (body : Option Json)

def isRetryable (status : ℕ) : Bool :=
  decide (status = 408 ∨ status = 425 ∨ status = 429 ∨ 500 ≤ status ∧ status < 600)

def Json.field (name : String) : Json → Json
  | .object fields => (Fields.get fields name).getD .null
  | _ => .null

def Json.item (index : ℕ) : Json → Json
  | .array items => items.getD index .null
  | _ => .null

def contentOf (body : Json) : List Char :=
  match Json.field "content" (Json.field "message" (Json.item 0 (Json.field "choices" body))) with
  | .string text => text
  | .array parts => parts.flatMap fun part => (Json.asStr (Json.field "text" part)).getD []
  | _ => []

def attempts (responses : ℕ → Response) : ℕ → ℕ → Option (List Char)
  | 0, _ => none
  | left + 1, attempt =>
    match responses attempt with
    | .failed => attempts responses left (attempt + 1)
    | .answered status body =>
      if isRetryable status then attempts responses left (attempt + 1)
      else if status < 200 ∨ 300 ≤ status then none
      else
        match body with
        | none => attempts responses left (attempt + 1)
        | some value => some (contentOf value)

def chat (responses : ℕ → ℕ → Response) (maxRetries : ℕ) : ℕ → List String → Option (List Char)
  | _, [] => none
  | index, _ :: rest =>
    match attempts (responses index) (max maxRetries 1) 0 with
    | some text => some text
    | none => chat responses maxRetries (index + 1) rest

inductive Kind where
  | text
  | image
  | audio
  deriving DecidableEq

structure AiConfig where
  textModels : List String
  visionModels : List String
  audioModels : List String
  textDailyCap : ℤ
  visionDailyCap : ℤ
  audioDailyCap : ℤ
  maxTextChars : ℕ
  maxRetries : ℕ

structure Subject where
  kind : Kind
  content : Bytes
  model : String
  deriving DecidableEq

structure Task where
  kind : Kind
  orgID : String
  content : Bytes
  models : List String
  dailyCap : ℤ
  maxRetries : ℕ

def Task.subject (task : Task) : Subject := ⟨task.kind, task.content, task.models.head?.getD ""⟩

inductive Entry where
  | text (verdict : TextVerdict)
  | image (verdict : VisionVerdict)
  | transcript (text : List Char)

section Members

variable (cfg : AiConfig) (orgID : String)

/-- `classify_text`, up to its first access to the cache. -/
def classifyText (text : List Char) : Option Task :=
  let trimmed := trimSpace text
  if trimmed = [] then none
  else
    some
      { kind := .text
        orgID := orgID
        content := (trimmed.take cfg.maxTextChars).flatMap String.utf8EncodeChar
        models := cfg.textModels
        dailyCap := cfg.textDailyCap
        maxRetries := cfg.maxRetries }

def classifyImage (jpeg : Bytes) : Option Task :=
  if jpeg = [] then none
  else
    some
      { kind := .image
        orgID := orgID
        content := jpeg
        models := cfg.visionModels
        dailyCap := cfg.visionDailyCap
        maxRetries := cfg.maxRetries }

/-- `transcribe`; what is hashed is the text that is sent. -/
def transcribe (audio : Bytes) : Option Task :=
  if audio = [] then none
  else
    some
      { kind := .audio
        orgID := orgID
        content := (Base64.encode audio).flatMap String.utf8EncodeChar
        models := cfg.audioModels
        dailyCap := cfg.audioDailyCap
        maxRetries := cfg.maxRetries }

end Members

inductive Request where
  | text (said : List Char)
  | image (jpeg : Bytes)
  | audio (bytes : Bytes)

def Request.task (cfg : AiConfig) (orgID : String) : Request → Option Task
  | .text said => classifyText cfg orgID said
  | .image jpeg => classifyImage cfg orgID jpeg
  | .audio bytes => transcribe cfg orgID bytes

def Request.kind : Request → Kind
  | .text _ => .text
  | .image _ => .image
  | .audio _ => .audio

namespace Kind

def tag : Kind → String
  | .text => "txt"
  | .image => "vis"
  | .audio => "aud"

def promptVersion : Kind → String
  | .text => "v2"
  | .image => "v1"
  | .audio => "v1"

def none : Kind → Option Entry
  | .text => some (.text TextVerdict.none)
  | .image => some (.image VisionVerdict.none)
  | .audio => Option.none

def budgetExhausted : Kind → Option Entry
  | .text => some (.text { TextVerdict.none with budgetExhausted := true })
  | .image => some (.image { VisionVerdict.none with budgetExhausted := true })
  | .audio => Option.none

def hit : Kind → Entry → Option (Option Entry)
  | .text, Entry.text verdict => some (some (.text { verdict with cached := true }))
  | .image, Entry.image verdict => some (some (.image { verdict with cached := true }))
  | .audio, .transcript spoken =>
    some (if spoken = [] then Option.none else some (.transcript spoken))
  | _, _ => Option.none

def read (env : Primitives) (reply : List Char) : Kind → Reading Entry
  | .text => (parseTextOutput env reply).map .text
  | .image => (parseVisionOutput env reply).map .image
  | .audio => if trimSpace reply = [] then .unusable else .usable (.transcript (trimSpace reply))

end Kind

def Entry.isClear : Entry → Bool
  | .text verdict => !verdict.sensitive
  | .image verdict => !verdict.sensitive
  | .transcript _ => false

def hex (bytes : Bytes) : List Char :=
  bytes.flatMap fun byte => [Nat.digitChar (byte.toNat / 16), Nat.digitChar (byte.toNat % 16)]

def Subject.key (env : Primitives) (subject : Subject) : List Char :=
  "dlp:".toList ++ subject.kind.tag.toList ++ ":".toList ++
    hex (env.sha256 subject.content).toList ++ ":".toList ++
      subject.kind.promptVersion.toList ++ ":".toList ++ subject.model.toList

inductive Deed where
  | asked (subject : Subject)
  | replied (subject : Subject) (reply : List Char)
  | returned (asked owner : Subject)
  deriving DecidableEq

structure Stored where
  entry : Entry
  owner : Subject

structure Store where
  cache : List Char → Option Stored
  calls : List (Kind × String × ℤ)
  day : ℤ
  history : List Deed

inductive Call where
  | reading (task : Task)
  | budgeting (task : Task)
  | asking (task : Task)
  | storing (task : Task) (reply : List Char) (entry : Entry)
  | finished (answer : Option Entry)
  | crashed

namespace Store

variable (env : Primitives) (store : Store)

def record (deed : Deed) : Store := { store with history := deed :: store.history }

/-- `cache_set`. -/
def put (subject : Subject) (entry : Entry) : Store :=
  { store with
    cache := Function.update store.cache (subject.key env) (some ⟨entry, subject⟩) }

def count (kind : Kind) (orgID : String) : Store :=
  { store with calls := (kind, orgID, store.day) :: store.calls }

def advance (works : Bool) (responses : ℕ → ℕ → Response) : Call → Call × Store
  | .reading task =>
    match if works then store.cache (task.subject.key env) else none with
    | none => (.budgeting task, store)
    | some stored =>
      match task.kind.hit stored.entry with
      | none => (.budgeting task, store)
      | some answer => (.finished answer, store.record (.returned task.subject stored.owner))
  | .budgeting task =>
    if works then
      let counted := store.count task.kind task.orgID
      if task.dailyCap < counted.calls.count (task.kind, task.orgID, store.day) then
        (.finished task.kind.budgetExhausted, counted)
      else (.asking task, counted)
    else (.asking task, store)
  | .asking task =>
    match chat responses task.maxRetries 0 task.models with
    | none => (.finished task.kind.none, store)
    | some reply =>
      let replied := store.record (.replied task.subject reply)
      match task.kind.read env reply with
      | .panics => (.crashed, replied)
      | .usable entry => (.storing task reply entry, replied)
      | .unusable =>
        match task.kind.none with
        | none => (.finished none, replied)
        | some entry => (.storing task reply entry, replied)
  | .storing task _ entry =>
    (.finished (some entry), if works then store.put env task.subject entry else store)
  | .finished answer => (.finished answer, store)
  | .crashed => (.crashed, store)

end Store

/-- The cache with its counters, and the calls under way. -/
structure World where
  store : Store
  calls : ℕ → Option Call

/-- A step of a call, or an entry of the cache that ends. -/
inductive Action where
  | begin (call : ℕ) (cfg : AiConfig) (orgID : String) (request : Request)
  | advance (call : ℕ) (works : Bool) (responses : ℕ → ℕ → Response)
  | forget (key : List Char)
  | tick (elapsed : ℕ)

variable (env : Primitives)

/-- The steps of calls interleave. -/
def World.step (world : World) : Action → Option World
  | .begin number cfg orgID request =>
    if (world.calls number).isNone then
      match request.task cfg orgID with
      | none =>
        some { world with
          calls := Function.update world.calls number (some (.finished request.kind.none)) }
      | some task =>
        some
          { store := world.store.record (.asked task.subject)
            calls := Function.update world.calls number (some (.reading task)) }
    else none
  | .advance number works responses =>
    (world.calls number).map fun call =>
      let (next, store) := world.store.advance env works responses call
      ⟨store, Function.update world.calls number (some next)⟩
  | .forget key =>
    some { world with
      store := { world.store with cache := Function.update world.store.cache key none } }
  | .tick elapsed => some { world with store := { world.store with day := world.store.day + elapsed } }

def World.initial (day : ℤ) : World where
  store := { cache := fun _ => none, calls := [], day, history := [] }
  calls := fun _ => none

end Aavishield.Classifier
