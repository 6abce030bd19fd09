import Aavishield.Policy.AgentFeed
import Mathlib.Data.List.Dedup

/-!
# Inspection that learns

When an application refuses the inspection of its connections, its agent reports the host, and
the API decides whether the platform of the host is passed through on every device.  An agent
passes a host through if the host or what is left of it after some labels is on its list.
-/

namespace Aavishield.MitmLearning

open AgentFeed (CategoryDomain URLCategory)
open DomainRules (Primitives folded)
open Text

variable (env : Primitives)

def hostLetter (letter : Char) : Bool := letter ∈ "abcdefghijklmnopqrstuvwxyz0123456789".toList

def isLabel (label : List Char) : Bool :=
  label.length ≤ 63 && label.all (fun letter => hostLetter letter || letter == '-') &&
    label.head?.any hostLetter && label.getLast?.any hostLetter

/-- `hostnameRe`. -/
def isHostname (host : List Char) : Bool :=
  2 ≤ (host.splitOn '.').length && (host.splitOn '.').all isLabel

def secondLevels : List (List Char) :=
  ["co", "com", "net", "org", "gov", "ac", "edu", "ne", "or"].map String.toList

def registrableDomain (host : List Char) : List Char :=
  let undotted := (host.map env.lower).dropWhile (· == '.')
  let parts := (undotted.reverse.dropWhile (· == '.')).reverse.splitOn '.'
  if parts.length ≤ 2 then ['.'].intercalate parts
  else if (parts.getD (parts.length - 1) []).length = 2 ∧
      parts.getD (parts.length - 2) [] ∈ secondLevels then
    ['.'].intercalate (parts.drop (parts.length - 3))
  else ['.'].intercalate (parts.drop (parts.length - 2))

def domainSuffixes (host : List Char) : List (List Char) :=
  let parts := host.splitOn '.'
  (List.range (parts.length - 1)).map fun index => ['.'].intercalate (parts.drop index)

def dlpRelevantDomains : List (List Char) :=
  ["slack.com", "slack-edge.com", "microsoft.com", "office.com", "office365.com", "office.net",
    "live.com", "outlook.com", "sharepoint.com", "onedrive.com", "teams.microsoft.com",
    "cloud.microsoft", "skype.com", "google.com", "googleapis.com", "googleusercontent.com",
    "gmail.com", "dropbox.com", "dropboxapi.com", "box.com", "boxcloud.com", "wetransfer.com",
    "icloud.com", "mega.nz", "mediafire.com", "pcloud.com", "github.com", "githubusercontent.com",
    "gitlab.com", "bitbucket.org", "pastebin.com", "hastebin.com", "ghostbin.com", "notion.so",
    "notion.com", "atlassian.net", "trello.com", "asana.com", "discord.com", "discordapp.com",
    "telegram.org", "t.me", "whatsapp.com", "openai.com", "chatgpt.com", "anthropic.com",
    "claude.ai", "gemini.google.com", "perplexity.ai", "deepseek.com", "mistral.ai",
    "huggingface.co", "yahoo.com", "proton.me", "protonmail.com", "zoho.com", "facebook.com",
    "instagram.com", "linkedin.com", "x.com", "twitter.com", "reddit.com"].map String.toList

def dlpRelevantCategories : List String :=
  ["ai_tools", "webmail_personal_email", "cloud_storage", "social_media"]

def dlpRelevantAppCategories : List String :=
  ["ai_tools", "file_sharing", "messaging", "remote_access"]

structure Catalogue where
  urlCategories : List URLCategory
  categoryDomains : List CategoryDomain
  applications : List AppControl.ManagedApplication

structure Classification where
  dlpRelevant : Bool
  categorised : Bool

def namesHost (host domain named : List Char) : Bool :=
  let named := (trimPrefix "*.".toList named).map env.lower
  named == domain || named == host || ('.' :: named).isSuffixOf host

def mitmLearning (catalogue : Catalogue) (host domain : List Char) : Classification :=
  let names := domainSuffixes host ++ [domain]
  let slugs := (catalogue.categoryDomains.filter fun row => names.contains row.domain).flatMap
    fun row => (catalogue.urlCategories.filter (·.id = row.categoryID)).map (·.slug)
  let apps := catalogue.applications.filter fun app => app.domains.any (namesHost env host domain)
  if names.any dlpRelevantDomains.contains then ⟨true, true⟩
  else if slugs.any dlpRelevantCategories.contains then ⟨true, true⟩
  else if apps.any fun app => dlpRelevantAppCategories.contains app.category then ⟨true, true⟩
  else ⟨false, apps ≠ [] || slugs ≠ []⟩

structure MITMRefusal where
  orgID : UUID
  deviceID : UUID
  host : List Char
  domain : List Char
  dlpRelevant : Bool
  categorised : Bool
  count : ℕ
  firstSeen : Time
  lastSeen : Time

def learnedBypassTTL : Time := 30 * 24 * 3600 * 1000000000
def learnedMinDevices : ℕ := 2
def maxLearnedPerOrgServed : ℕ := 500

def isEnough (rows : List MITMRefusal) (orgID : UUID) : Bool :=
  let own := rows.filter (·.orgID = orgID)
  (rows.any (·.categorised) && own ≠ []) ||
    learnedMinDevices ≤ (own.map (·.deviceID)).dedup.length ||
      (2 ≤ (rows.map (·.orgID)).dedup.length && own ≠ [])

def asLate (group other : List Char × List MITMRefusal) : Bool :=
  other.2.all fun row => group.2.any fun late => row.lastSeen ≤ late.lastSeen

def learnedBypassDomains (refusals : List MITMRefusal) (orgID : UUID) (now : Time) :
    List (List Char) :=
  let recent := refusals.filter fun row =>
    row.dlpRelevant = false ∧ now - learnedBypassTTL < row.lastSeen
  let groups := (recent.map (·.domain)).dedup.map fun domain =>
    (domain, recent.filter (·.domain = domain))
  (((groups.filter fun group => isEnough group.2 orgID).mergeSort asLate).map (·.1)).take
    maxLearnedPerOrgServed

structure Report where
  orgID : UUID
  deviceID : UUID
  host : List Char
  now : Time

inductive Announcement where
  | blindSpot
  | bypassedAutomatically
  deriving DecidableEq

structure Response where
  domain : List Char
  bypassForEveryone : Bool
  dlpRelevant : Bool
  announced : Option Announcement

/-- One row for each organisation, device and host (`OnConflict`). -/
def upsert (refusals : List MITMRefusal) (row : MITMRefusal) : List MITMRefusal :=
  let isRow (other : MITMRefusal) : Bool :=
    other.orgID = row.orgID ∧ other.deviceID = row.deviceID ∧ other.host = row.host
  if refusals.any isRow then
    refusals.map fun other =>
      if isRow other then
        { other with
          count := other.count + 1
          lastSeen := row.lastSeen
          dlpRelevant := row.dlpRelevant
          categorised := row.categorised }
      else other
  else refusals ++ [row]

def Report.stored (report : Report) : List Char :=
  trimPrefix "www.".toList ((trimSpace report.host).map env.lower)

def Report.refusal (catalogue : Catalogue) (report : Report) : MITMRefusal :=
  let host := report.stored env
  let domain := registrableDomain env host
  let classified := mitmLearning env catalogue host domain
  { orgID := report.orgID, deviceID := report.deviceID, host := host, domain := domain
    dlpRelevant := classified.dlpRelevant, categorised := classified.categorised, count := 1
    firstSeen := report.now, lastSeen := report.now }

def learnedBypass (refusals : List MITMRefusal) (orgID : UUID) (now : Time) (domain : List Char) :
    Bool :=
  (learnedBypassDomains refusals orgID now).contains domain

def reportMITMRefusal (catalogue : Catalogue) (refusals : List MITMRefusal) (report : Report) :
    Option Response × List MITMRefusal :=
  if 253 < (report.stored env).length ∨ isHostname (report.stored env) = false then
    (none, refusals)
  else
    let row := report.refusal env catalogue
    let wasLearned := learnedBypass refusals report.orgID report.now row.domain
    let refusals := upsert refusals row
    let learned := learnedBypass refusals report.orgID report.now row.domain
    let announced :=
      if row.dlpRelevant then some .blindSpot
      else if learned && !wasLearned then some .bypassedAutomatically
      else none
    (some ⟨row.domain, learned, row.dlpRelevant, announced⟩, refusals)

def receive (catalogue : Catalogue) (reports : List Report) : List MITMRefusal :=
  reports.foldl (fun refusals report => (reportMITMRefusal env catalogue refusals report).2) []

def defaultMITMBypassDomains : List (List Char) :=
  ["swupd.apple.com", "mesu.apple.com", "gs.apple.com", "ocsp.apple.com", "crl.apple.com",
    "valid.apple.com", "xp.apple.com", "gdmf.apple.com", "appleid.apple.com", "swscan.apple.com",
    "swdist.apple.com", "swcdn.apple.com", "oscdn.apple.com", "osrecovery.apple.com",
    "skl.apple.com", "cdn-apple.com", "windowsupdate.com", "update.microsoft.com",
    "delivery.mp.microsoft.com", "login.microsoftonline.com", "login.live.com",
    "clients2.google.com", "clients4.google.com", "dl.google.com", "update.googleapis.com",
    "accounts.google.com", "addons.mozilla.org", "aus5.mozilla.org", "whatsapp.net",
    "login.microsoft.com", "login.windows.net", "microsoftonline-p.com", "msauth.net",
    "msftauth.net", "msauthimages.net", "msftidentity.com", "msidentity.com",
    "account.activedirectory.windowsazure.com", "enterpriseregistration.windows.net",
    "autologon.microsoftazuread-sso.com", "manage.microsoft.com", "ols.officeapps.live.com",
    "nexus.officeapps.live.com", "licensing.mp.microsoft.com", "sls.microsoft.com",
    "config.office.com", "ecs.office.com", "idmsa.apple.com", "gsa.apple.com",
    "identity.apple.com", "albert.apple.com", "push.apple.com", "ess.apple.com",
    "setup.icloud.com", "oauth2.googleapis.com", "okta.com", "oktacdn.com", "okta-emea.com",
    "duosecurity.com", "auth0.com", "onelogin.com", "pingone.com", "pingidentity.com",
    "smartscreen.microsoft.com", "wdcp.microsoft.com", "wd.microsoft.com", "parallels.com",
    "zoom.us", "apple.com", "icloud.com", "icloud-content.com", "mzstatic.com",
    "apple-cloudkit.com", "aaplimg.com", "apple.news", "itunes.com", "apple-mapkit.com",
    "mp.microsoft.com"].map String.toList

def sensitiveMITMBypassDomains (catalogue : Catalogue) : List (List Char) :=
  (catalogue.categoryDomains.filter fun row => catalogue.urlCategories.any fun category =>
    category.id = row.categoryID ∧ category.slug ∈
      ["banking_finance_sensitive", "government_sensitive", "healthcare_sensitive"]).map (·.domain)

/-- What a company entered (`mitmSettingsFromOrg`). -/
def orgBypass (entered : List (List Char)) : List (List Char) :=
  (entered.filter fun text => trimSpace text ≠ []).map fun text =>
    (trimSpace text).map env.lower

/-- The list that `GetMITMConfig` sends. -/
def bypassDomains (catalogue : Catalogue) (entered : List (List Char)) (refusals : List MITMRefusal)
    (orgID : UUID) (now : Time) : List (List Char) :=
  defaultMITMBypassDomains ++ orgBypass env entered ++ sensitiveMITMBypassDomains catalogue ++
    learnedBypassDomains refusals orgID now

structure MitmState where
  enabled : Bool
  bypass : List (List Char)

def trimStartMatches (start text : List Char) : List Char :=
  (trimPrefix start)^[text.length] text

def kept (domain : List Char) : List Char :=
  trimStartMatches "www.".toList (env.toLowercase domain)

def MitmState.load (enabled caTrusted : Bool) (domains : List (List Char)) : MitmState :=
  ⟨enabled && caTrusted, domains.map (kept env)⟩

def MitmState.bypasses (state : MitmState) (host : List Char) : Bool :=
  let parts := host.splitOn '.'
  state.bypass.contains host ||
    (state.bypass.any fun entry =>
      "*.".toList.isPrefixOf entry && (entry.drop 2).isSuffixOf host) ||
    (List.range' 1 (parts.length - 1)).any fun index =>
      state.bypass.contains (['.'].intercalate (parts.drop index))

end Aavishield.MitmLearning
