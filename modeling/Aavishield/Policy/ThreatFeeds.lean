import Aavishield.Policy.RiskEngine
import Mathlib.Algebra.Order.Group.Nat

/-!
# Threat feeds

The feeds of bad domains as they are read twice: by the threat-intelligence service, which keeps
what they list in memory, and by the risk engine, which keeps it in the database.
-/

namespace Aavishield.ThreatFeeds

open ByteText Text
open RiskEngine (Primitives ThreatIntelDomain lowered normalize)

structure Body where
  received : List Char
  ended : Bool

inductive Answer
  | failed
  | answered (status : ℕ) (body : Body)

def maxTokenSize : ℕ := 1024 * 1024

def rawLines (text : List Char) : List (List Char) :=
  let lines := text.splitOn '\n'
  if lines.getLast? = some [] then lines.dropLast else lines

/-- The lines a `bufio.Scanner` gives, and whether its `Err` is `nil`. -/
structure Scan where
  lines : List (List Char)
  complete : Bool

/-- What came of the last line is given even if the body breaks off; a line that does not fit in
the buffer ends the scan. -/
def scan (body : Body) : Scan where
  lines := ((rawLines body.received).takeWhile (byteLength · < maxTokenSize)).map
    (trimSuffix ['\r'])
  complete := body.ended && (rawLines body.received).all (byteLength · < maxTokenSize)

def fields (text : List Char) : List (List Char) := (text.splitOnP isSpace).filter (· ≠ [])

inductive Kind
  | domain
  | hostfile
  | ip
  | hash
  deriving DecidableEq

structure Source where
  name : String
  category : String
  url : String
  kind : Kind
  deriving DecidableEq

def urlhaus : Source := ⟨"urlhaus", "malware", "https://urlhaus.abuse.ch/downloads/hostfile/", .hostfile⟩

def openphish : Source := ⟨"openphish", "phishing", "https://openphish.com/feed.txt", .domain⟩

def feodotracker : Source :=
  ⟨"feodotracker", "botnet", "https://feodotracker.abuse.ch/downloads/ipblocklist.txt", .ip⟩

def malwarebazaar : Source :=
  ⟨"malwarebazaar", "malware", "https://bazaar.abuse.ch/export/txt/sha256/recent/", .hash⟩

def defaultSources : List Source := [urlhaus, openphish, feodotracker, malwarebazaar]

structure Entry where
  source : String
  category : String
  deriving DecidableEq

structure Store where
  domains : List Char → Option Entry
  ips : List Char → Option Entry
  hashes : List Char → Option Entry

def Store.new : Store := ⟨fun _ => none, fun _ => none, fun _ => none⟩

section Intel

-- `hostname` is `u.Hostname()` of a line that `url.Parse` accepts.
variable (env : Primitives) (hostname : List Char → Option (List Char))

def normDomain (domain : List Char) : List Char :=
  trimPrefix "www.".toList (lowered env (trimSpace (trimSuffix ['.'] domain)))

def Store.setDomain (store : Store) (domain : List Char) (entry : Entry) : Store :=
  { store with domains := Function.update store.domains (normDomain env domain) (some entry) }

def Store.setIP (store : Store) (ip : List Char) (entry : Entry) : Store :=
  { store with ips := Function.update store.ips (trimSpace ip) (some entry) }

def Store.setHash (store : Store) (hash : List Char) (entry : Entry) : Store :=
  { store with
    hashes := Function.update store.hashes (lowered env (trimSpace hash)) (some entry) }

def Store.lookupDomain (store : Store) (domain : List Char) : Option Entry :=
  store.domains (normDomain env domain)

def extractDomain (line : List Char) : List Char :=
  match if contains line "://".toList then (hostname line).filter (· ≠ []) else none with
  | some host => host
  | none =>
    let host := line.takeWhile (· ≠ '/')
    if '.' ∈ host ∧ ' ' ∉ host ∧ '\t' ∉ host then host else []

def isIPish (text : List Char) : Bool :=
  decide ((text.count '.' = 3 ∨ 2 ≤ text.count ':') ∧ ' ' ∉ text ∧ '\t' ∉ text)

def isSHA256 (text : List Char) : Bool :=
  decide (byteLength text = 64) && text.all fun letter =>
    letter.isDigit || decide ('a' ≤ letter ∧ letter ≤ 'f') || decide ('A' ≤ letter ∧ letter ≤ 'F')

def domainOf (kind : Kind) (line : List Char) : List Char :=
  match kind with
  | .domain => extractDomain hostname line
  | .hostfile =>
    match fields line with
    | [_, host] => extractDomain hostname host
    | _ => []
  | _ => []

def loadLine (source : Source) (store : Store) (line : List Char) : Store :=
  let entry : Entry := ⟨source.name, source.category⟩
  let line := trimSpace line
  if line = [] ∨ ['#'] <+: line then store
  else match source.kind with
    | .domain | .hostfile =>
      let domain := domainOf hostname source.kind line
      if domain ≠ [] then store.setDomain env domain entry else store
    | .ip =>
      let ip := line.takeWhile (· ∉ [',', ' ', '\t'])
      if isIPish ip then store.setIP ip entry else store
    | .hash => if isSHA256 line then store.setHash env line entry else store

def load (store : Store) (source : Source) (body : Body) : Store :=
  (scan body).lines.foldl (loadLine env hostname source) store

def fetch : Answer → Option Body
  | .failed => none
  | .answered status body => if status = 200 then some body else none

/-- The loop's body in `Sync`. -/
def syncSource (store : Store) (source : Source) (answer : Answer) : Store :=
  match fetch answer with
  | none => store
  | some body => load env hostname store source body

def sync (store : Store) (fetcher : String → Answer) (sources : List Source) : Store :=
  sources.foldl (fun store source => syncSource env hostname store source (fetcher source.url))
    store

end Intel

section Admin

variable (env : Primitives) (hostname : List Char → Option (List Char))

def normalizeDomain (domain : List Char) : List Char :=
  let domain := trimPrefix "www.".toList (lowered env (trimSpace domain))
  if domain = [] ∨ domain = "localhost".toList ∨ '.' ∉ domain then [] else domain

def hostfileDomain (line : List Char) : List Char :=
  let line := trimSpace line
  if line = [] ∨ ['#'] <+: line then []
  else match fields line with
    | [_, host] => normalizeDomain env host
    | _ => []

def fetchURLhaus : Answer → Option (List (List Char))
  | .failed => none
  | .answered _ body =>
    let scanned := scan body
    if scanned.complete then
      some ((scanned.lines.map (hostfileDomain env)).filter (· ≠ []))
    else none

def phishingDomain (line : List Char) : List Char :=
  let line := trimSpace line
  if line = [] then []
  else match hostname line with
    | none => []
    | some host => if host = [] then [] else normalizeDomain env host

def fetchOpenPhish : Answer → Option (List (List Char))
  | .failed => none
  | .answered _ body =>
    let scanned := scan body
    if scanned.complete then
      some ((scanned.lines.map (phishingDomain env hostname)).filter (· ≠ []))
    else none

def upsertRow (rows : List ThreatIntelDomain) (domain : List Char) (source category : String) :
    List ThreatIntelDomain :=
  if rows.any (·.domain == domain) then
    rows.map fun row => if row.domain == domain then { row with source, category } else row
  else rows ++ [⟨domain, source, category, false⟩]

def upsertThreatIntel (rows : List ThreatIntelDomain) (domains : List (List Char))
    (source category : String) : List ThreatIntelDomain :=
  domains.eraseDups.foldl (fun rows domain => upsertRow rows domain source category) rows

/-- One of the two feeds of `SyncThreatFeeds`. -/
def syncFeed (rows : List ThreatIntelDomain) (source : Source) (answer : Answer) :
    List ThreatIntelDomain :=
  match source.kind with
  | .hostfile =>
    match fetchURLhaus env answer with
    | some domains => upsertThreatIntel rows domains "urlhaus" "malware"
    | none => rows
  | .domain =>
    match fetchOpenPhish env hostname answer with
    | some domains => upsertThreatIntel rows domains "openphish" "phishing"
    | none => rows
  | _ => rows

def syncThreatFeeds (rows : List ThreatIntelDomain) (ofURLhaus ofOpenPhish : Answer) :
    List ThreatIntelDomain :=
  syncFeed env hostname (syncFeed env hostname rows urlhaus ofURLhaus) openphish
    ofOpenPhish

/-- The row that `Assess` finds. -/
def findRow (rows : List ThreatIntelDomain) (visited : List Char) : Option ThreatIntelDomain :=
  rows.find? fun row => !row.deleted && row.domain == normalize env visited

end Admin

end Aavishield.ThreatFeeds
