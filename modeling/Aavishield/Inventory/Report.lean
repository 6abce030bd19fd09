import Aavishield.Basic
import Aavishield.Lib.Text
import Mathlib.Data.List.AList

/-!
# Software inventory

The agent reports everything that is installed on its device, not what has changed.  The rows
of the device, which are unique by their identifier, are compared with the report: entries
without a row get one, the rows of the other entries are brought up to date, and the rows that
have no entry any more are marked removed.
-/

namespace Aavishield.Inventory

structure Primitives where
  toLower : List Char → List Char
  equalFold : List Char → List Char → Bool
  /-- `time.Parse`, by its layout. -/
  parseTime : List Char → List Char → Option Time

structure InventoryItem where
  identifier : List Char
  name : List Char
  version : List Char
  vendor : List Char
  installPath : List Char
  source : List Char
  installedAt : List Char

structure ManagedApplication where
  id : UUID
  name : List Char
  bundleIDs : List (List Char)
  processNames : List (List Char)
  pathPatterns : List (List Char)
  category : List Char
  riskLevel : ℤ

structure InstalledApplication where
  employeeID : Option UUID
  identifier : List Char
  name : List Char
  version : List Char
  vendor : List Char
  installPath : List Char
  source : List Char
  applicationID : Option UUID
  category : List Char
  riskLevel : ℤ
  installedAt : Option Time
  firstSeenAt : Time
  lastSeenAt : Time
  removed : Bool
  removedAt : Option Time

abbrev Rows : Type := AList fun _ : List Char => InstalledApplication

variable (env : Primitives)

def inventoryIdentifier (item : InventoryItem) : List Char :=
  let id := Text.trimSpace item.identifier
  let path := Text.trimSpace item.installPath
  if id ≠ [] then env.toLower id
  else if path ≠ [] then env.toLower path
  else env.toLower (Text.trimSpace item.name)

def inventoryLayouts : List (List Char) :=
  ["2006-01-02T15:04:05Z07:00".toList, "2006-01-02".toList, "20060102".toList]

def parseInventoryTime (raw : List Char) (now : Time) : Option Time :=
  let raw := Text.trimSpace raw
  if raw = [] then none
  else
    (inventoryLayouts.findSome? fun layout => env.parseTime layout raw).filter fun t =>
      t ≤ now + 24 * 60 * 60 * 10 ^ 9

structure CatalogMatch where
  appID : Option UUID
  category : List Char
  risk : ℤ

def ManagedApplication.matched (app : ManagedApplication) : CatalogMatch :=
  ⟨some app.id, app.category, app.riskLevel⟩

def heuristics : List (List String × String × ℤ) :=
  [(["teamviewer", "anydesk", "vnc", "remote desktop", "rustdesk", "splashtop"],
      "remote_access", 75),
    (["tor browser", "torbrowser", "psiphon", "ultrasurf"], "anonymizer", 80),
    (["utorrent", "bittorrent", "qbittorrent", "transmission", "deluge"], "p2p", 70),
    (["openvpn", "wireguard", "nordvpn", "expressvpn", "protonvpn", "hotspot shield"], "vpn", 60),
    (["chatgpt", "claude", "copilot", "codex", "ollama", "cursor", "perplexity"], "ai_tools", 55),
    (["dropbox", "google drive", "onedrive", "mega", "box sync", "sync.com"], "file_sharing", 50),
    (["slack", "discord", "telegram", "whatsapp", "signal", "teams", "zoom", "skype"],
      "messaging", 35),
    (["visual studio", "vscode", "code", "intellij", "pycharm", "goland", "xcode", "sublime"],
      "development", 25),
    (["chrome", "firefox", "edge", "safari", "brave", "opera"], "browser", 30)]

def heuristicCategory (name path : List Char) : List Char × ℤ :=
  let hay := name ++ ' ' :: path
  match heuristics.find? fun entry => entry.1.any fun needle => Text.contains hay needle.toList with
  | some (_, category, risk) => (category.toList, risk)
  | none => ("other".toList, 30)

def ManagedApplication.isNamed (app : ManagedApplication) (lowerName : List Char) : Bool :=
  env.equalFold app.name lowerName ||
    app.processNames.any fun processName =>
      let p := env.toLower (Text.trimSpace processName)
      p ≠ [] && (p = lowerName || Text.trimSuffix ".exe".toList p = lowerName)

def catalogMatch (apps : List ManagedApplication) (name identifier installPath : List Char) :
    CatalogMatch :=
  let lowerName := env.toLower (Text.trimSpace name)
  let lowerID := env.toLower (Text.trimSpace identifier)
  let lowerPath := env.toLower (Text.trimSpace installPath)
  let byBundle := apps.find? fun app => app.bundleIDs.any fun b =>
    b ≠ [] && env.equalFold (Text.trimSpace b) lowerID
  let byName := apps.find? fun app => app.isNamed env lowerName
  let byPath := apps.find? fun app => app.pathPatterns.any fun pattern =>
    let pattern := env.toLower (Text.trimSpace pattern)
    lowerPath ≠ [] && pattern ≠ [] && Text.contains lowerPath pattern
  match (byBundle <|> byName <|> byPath) with
  | some app => app.matched
  | none =>
    let guessed := heuristicCategory lowerName lowerPath
    ⟨none, guessed.1, guessed.2⟩

def maxInventoryItems : ℕ := 2000

/--
A report, with what else the request finds: the device's employee, the catalogue, the time, and
the writes that the database refuses (their errors are not looked at).
-/
structure Report where
  applications : List InventoryItem
  employeeID : Option UUID
  catalog : List ManagedApplication
  now : Time
  fails : List Char → Bool
  failsRemoval : Bool

namespace Report

variable (report : Report) (item : InventoryItem) (identifier : List Char)

def matched : CatalogMatch :=
  catalogMatch env report.catalog (Text.trimSpace item.name) identifier item.installPath

def newRow : InstalledApplication where
  employeeID := report.employeeID
  identifier := identifier
  name := Text.trimSpace item.name
  version := Text.trimSpace item.version
  vendor := Text.trimSpace item.vendor
  installPath := Text.trimSpace item.installPath
  source := Text.trimSpace item.source
  applicationID := (report.matched env item identifier).appID
  category := (report.matched env item identifier).category
  riskLevel := (report.matched env item identifier).risk
  installedAt := parseInventoryTime env item.installedAt report.now
  firstSeenAt := report.now
  lastSeenAt := report.now
  removed := false
  removedAt := none

def updatedRow (prev : InstalledApplication) : InstalledApplication :=
  { prev with
    lastSeenAt := report.now
    name := Text.trimSpace item.name
    version := Text.trimSpace item.version
    vendor := Text.trimSpace item.vendor
    installPath := Text.trimSpace item.installPath
    source := Text.trimSpace item.source
    employeeID := report.employeeID
    category := (report.matched env item identifier).category
    riskLevel := (report.matched env item identifier).risk
    applicationID := match (report.matched env item identifier).appID with
      | some appID => some appID
      | none => prev.applicationID
    removed := false
    removedAt := if prev.removed then none else prev.removedAt
    firstSeenAt := if prev.removed then report.now else prev.firstSeenAt }

structure Progress where
  rows : Rows
  seen : List (List Char)
  newlyInstalled : List InstalledApplication

/-- One pass of the loop; `existing` was read before it. -/
def handle (existing : Rows) (progress : Progress) : Progress :=
  let identifier := inventoryIdentifier env item
  if identifier = [] ∨ Text.trimSpace item.name = [] ∨ identifier ∈ progress.seen then progress
  else
    let progress := { progress with seen := identifier :: progress.seen }
    match existing.lookup identifier with
    | some prev =>
      if report.fails identifier then progress
      else { progress with
        rows := progress.rows.insert identifier
          (report.updatedRow env item identifier prev) }
    | none =>
      if report.fails identifier then progress
      else
        let row := report.newRow env item identifier
        { progress with
          rows := progress.rows.insert identifier row
          newlyInstalled := progress.newlyInstalled ++ [row] }

def capped : List InventoryItem := report.applications.take maxInventoryItems

def handleAll (existing : Rows) : Progress :=
  report.capped.foldl (fun progress item => report.handle env item existing progress)
    ⟨existing, [], []⟩

def removedIDs (existing : Rows) (seen : List (List Char)) : List (List Char) :=
  existing.keys.filter fun identifier => identifier ∉ seen ∧
    (existing.lookup identifier).any fun prev => !prev.removed

def markRemoved (rows : Rows) (gone : List (List Char)) : Rows :=
  if report.failsRemoval then rows
  else gone.foldl (fun rows identifier =>
    match rows.lookup identifier with
    | some row =>
      rows.insert identifier { row with removed := true, removedAt := some report.now }
    | none => rows) rows

/-- `recordInstallEvent`: the row is what the event is made of. -/
structure InstallEvent where
  row : InstalledApplication
  timestamp : Time

/-- `ReportInventory`: the rows afterwards, and the events that are raised. -/
def apply (existing : Rows) : Rows × List InstallEvent :=
  let progress := report.handleAll env existing
  let rows := report.markRemoved progress.rows (removedIDs existing progress.seen)
  (rows, if existing.keys = [] then []
    else progress.newlyInstalled.map fun row => ⟨row, report.now⟩)

end Report

end Aavishield.Inventory
