import Aavishield.Lib.TransitionSystem
import Aavishield.Policy.PlatformVerdicts
import Aavishield.Policy.ThreatFeeds

/-!
# Threat lists over runs of syncs

The two services fetch the feeds again and again, whatever comes of it.  What is flagged is what
the last complete bodies list, as long as nothing is delisted and nothing that broke off brought
anything new.
-/

namespace Aavishield.ThreatFeeds

open ByteText Text TransitionSystem
open RiskEngine (Primitives ThreatIntelDomain lowered normalize plainPrimitives)

/-- Who fetches the feeds. -/
inductive Service
  | intel
  | admin
  deriving DecidableEq

/-- `latest` holds the lines of the last body of a source that came to its end. -/
structure State where
  store : Store
  rows : List ThreatIntelDomain
  latest : Service → String → Option (List (List Char))

def State.start : State := ⟨Store.new, [], fun _ _ => none⟩

/-- A fetch of a feed, and what came of it. -/
structure Fetch where
  service : Service
  source : Source
  answer : Answer

def sources : Service → List Source
  | .intel => defaultSources
  | .admin => [urlhaus, openphish]

def complete : Answer → Option (List (List Char))
  | .failed => none
  | .answered status body =>
    if status = 200 ∧ (scan body).complete = true then some (scan body).lines else none

section Steps

variable (env : Primitives) (hostname : List Char → Option (List Char))

def step (state : State) (fetch : Fetch) : Option State :=
  if fetch.source ∈ sources fetch.service then
    some {
      store := match fetch.service with
        | .intel => syncSource env hostname state.store fetch.source fetch.answer
        | .admin => state.store
      rows := match fetch.service with
        | .intel => state.rows
        | .admin => syncFeed env hostname state.rows fetch.source fetch.answer
      latest := match complete fetch.answer with
        | none => state.latest
        | some lines => fun service name =>
          if service = fetch.service ∧ name = fetch.source.name then some lines
          else state.latest service name }
  else none

def norm : Service → List Char → List Char
  | .intel => normDomain env
  | .admin => normalize env

def lookup (state : State) : Service → List Char → Option Entry
  | .intel, visited => state.store.lookupDomain env visited
  | .admin, visited =>
    (findRow env state.rows visited).map fun row => ⟨row.source, row.category⟩

def intelDomain (kind : Kind) (line : List Char) : List Char :=
  let line := trimSpace line
  if line = [] ∨ ['#'] <+: line then [] else domainOf hostname kind line

def adminDomain (kind : Kind) (line : List Char) : List Char :=
  match kind with
  | .hostfile => hostfileDomain env line
  | .domain => phishingDomain env hostname line
  | _ => []

def lineKey : Service → Kind → List Char → Option (List Char)
  | .intel, kind, line =>
    let domain := intelDomain hostname kind line
    if domain = [] then none else some (normDomain env domain)
  | .admin, kind, line =>
    let domain := adminDomain env hostname kind line
    if domain = [] then none else some domain

def listed (service : Service) (source : Source) (lines : List (List Char)) : List (List Char) :=
  lines.filterMap (lineKey env hostname service source.kind)

def acted : Service → Answer → Option (List (List Char))
  | _, .failed => none
  | .intel, .answered status body => if status = 200 then some (scan body).lines else none
  | .admin, .answered _ body => if (scan body).complete then some (scan body).lines else none

end Steps

variable {env : Primitives} {hostname : List Char → Option (List Char)} {source : Source}
  {store : Store} {rows : List ThreatIntelDomain} {key line visited : List Char}
  {lines : List (List Char)}

def Source.entry (source : Source) : Entry := ⟨source.name, source.category⟩

variable {service : Service}

theorem mem_listed : key ∈ listed env hostname service source lines ↔
    ∃ line ∈ lines, lineKey env hostname service source.kind line = some key :=
  List.mem_filterMap

theorem domains_loadLine : (loadLine env hostname source store line).domains key =
    if lineKey env hostname .intel source.kind line = some key then some source.entry
    else store.domains key := by
  by_cases skipped : trimSpace line = [] ∨ ['#'] <+: trimSpace line
  · simp [loadLine, lineKey, intelDomain, skipped]
  · simp only [loadLine, lineKey, intelDomain, skipped, if_false]
    cases source.kind with
    | domain =>
      by_cases nothing : domainOf hostname .domain (trimSpace line) = []
      · simp [nothing]
      · simp [nothing, Store.setDomain, Function.update_apply, Source.entry, eq_comm]
    | hostfile =>
      by_cases nothing : domainOf hostname .hostfile (trimSpace line) = []
      · simp [nothing]
      · simp [nothing, Store.setDomain, Function.update_apply, Source.entry, eq_comm]
    | ip | hash =>
      simp only [domainOf]
      split <;> rfl

theorem domains_foldl_loadLine :
    (lines.foldl (loadLine env hostname source) store).domains key =
      if key ∈ listed env hostname .intel source lines then some source.entry
      else store.domains key := by
  induction lines generalizing store with
  | nil => simp [listed]
  | cons line rest others =>
    rw [List.foldl_cons, others, domains_loadLine]
    by_cases inRest : key ∈ listed env hostname .intel source rest
    · have inAll : key ∈ listed env hostname .intel source (line :: rest) := by
        obtain ⟨found, isIn, isKey⟩ := mem_listed.mp inRest
        exact mem_listed.mpr ⟨found, List.mem_cons_of_mem _ isIn, isKey⟩
      simp [inRest, inAll]
    · have inAll : key ∈ listed env hostname .intel source (line :: rest) ↔
          lineKey env hostname .intel source.kind line = some key := by
        simp only [mem_listed, List.exists_mem_cons_iff, or_iff_left_iff_imp]
        intro found
        exact absurd (mem_listed.mpr found) inRest
      simp [inRest, inAll]

def Live (rows : List ThreatIntelDomain) : Prop := ∀ row ∈ rows, row.deleted = false

def entryAt (rows : List ThreatIntelDomain) (key : List Char) : Option Entry :=
  (rows.find? fun row => !row.deleted && row.domain == key).map fun row =>
    ⟨row.source, row.category⟩

variable {name category : String}

theorem Live.upsertRow {domain : List Char} (live : Live rows) :
    Live (upsertRow rows domain name category) := by
  unfold ThreatFeeds.upsertRow
  split
  · intro row isIn
    obtain ⟨old, isOld, rfl⟩ := List.mem_map.mp isIn
    have := live old isOld
    split <;> exact this
  · intro row isIn
    rcases List.mem_append.mp isIn with isOld | isNew
    · exact live row isOld
    · rw [List.mem_singleton.mp isNew]

theorem entryAt_upsertRow {domain : List Char} (live : Live rows) :
    entryAt (upsertRow rows domain name category) key =
      if key = domain then some ⟨name, category⟩ else entryAt rows key := by
  unfold entryAt ThreatFeeds.upsertRow
  split
  · rename_i isThere
    rw [List.find?_map]
    have sameRow : ((fun row : ThreatIntelDomain => !row.deleted && row.domain == key) ∘
        fun row => if row.domain == domain then { row with source := name, category } else row) =
        fun row => !row.deleted && row.domain == key := by
      funext row
      simp only [Function.comp_apply]
      split <;> rfl
    rw [sameRow]
    cases found : rows.find? fun row => !row.deleted && row.domain == key with
    | none =>
      rw [if_neg]
      · rfl
      · rintro rfl
        obtain ⟨row, isIn, isDomain⟩ := List.any_eq_true.mp isThere
        have := List.find?_eq_none.mp found row isIn
        simp [live row isIn, isDomain] at this
    | some row =>
      have isFound := List.find?_some found
      simp only [Bool.and_eq_true, beq_iff_eq] at isFound
      simp only [Option.map_some, beq_iff_eq, isFound.2]
      split <;> rfl
  · rename_i isAbsent
    rw [List.find?_append]
    by_cases same : key = domain
    · subst same
      have absent : rows.find? (fun row => !row.deleted && row.domain == key) = none := by
        refine List.find?_eq_none.mpr fun row isIn isKey => isAbsent ?_
        simp only [Bool.and_eq_true] at isKey
        exact List.any_eq_true.mpr ⟨row, isIn, isKey.2⟩
      simp [absent]
    · have other : domain ≠ key := fun isKey => same isKey.symm
      simp [same, other]

variable {domains : List (List Char)}

theorem live_upserts (live : Live rows) :
    Live (domains.foldl (fun rows domain => upsertRow rows domain name category) rows) := by
  induction domains generalizing rows with
  | nil => exact live
  | cons domain rest others => exact others live.upsertRow

theorem entryAt_upserts (live : Live rows) :
    entryAt (domains.foldl (fun rows domain => upsertRow rows domain name category) rows) key =
      if key ∈ domains then some ⟨name, category⟩ else entryAt rows key := by
  induction domains generalizing rows with
  | nil => simp
  | cons domain rest others =>
    rw [List.foldl_cons, others live.upsertRow, entryAt_upsertRow live]
    by_cases inRest : key ∈ rest
    · simp [inRest]
    · simp [inRest]

theorem entryAt_upsertThreatIntel
    (live : Live rows) : entryAt (upsertThreatIntel rows domains name category) key =
      if key ∈ domains then some ⟨name, category⟩ else entryAt rows key := by
  unfold upsertThreatIntel
  rw [entryAt_upserts live]
  simp

def State.Live (state : State) : Prop := ThreatFeeds.Live state.rows

theorem listed_admin : listed env hostname .admin source lines =
    (lines.map (adminDomain env hostname source.kind)).filter (· ≠ []) := by
  unfold listed
  induction lines with
  | nil => rfl
  | cons line rest others =>
    rw [List.filterMap_cons, List.map_cons, List.filter_cons, others]
    by_cases nothing : adminDomain env hostname source.kind line = []
    · simp [lineKey, nothing]
    · simp [lineKey, nothing]

theorem syncFeed_eq {answer : Answer} (isSource : source ∈ sources .admin) :
    syncFeed env hostname rows source answer =
      match acted .admin answer with
      | none => rows
      | some lines => upsertThreatIntel rows (listed env hostname .admin source lines)
          source.name source.category := by
  simp only [sources, List.mem_cons, List.not_mem_nil, or_false] at isSource
  cases answer with
  | failed => rcases isSource with rfl | rfl <;> rfl
  | answered status body =>
    by_cases ended : (scan body).complete = true
    · simp only [acted, ended, if_true, listed_admin]
      rcases isSource with rfl | rfl
      · simp only [syncFeed, urlhaus, fetchURLhaus, ended, if_true]
        rfl
      · simp only [syncFeed, openphish, fetchOpenPhish, ended, if_true]
        rfl
    · rcases isSource with rfl | rfl <;>
        simp [syncFeed, urlhaus, openphish, fetchURLhaus, fetchOpenPhish, ended, acted]

variable {state next : State} {fetched : Fetch}

theorem source_of_step (stepped : step env hostname state fetched = some next) :
    fetched.source ∈ sources fetched.service := by
  by_contra unknown
  simp [step, unknown] at stepped

theorem lookup_step (live : state.Live) (stepped : step env hostname state fetched = some next) :
    lookup env next fetched.service visited =
      match acted fetched.service fetched.answer with
      | none => lookup env state fetched.service visited
      | some lines =>
        if norm env fetched.service visited ∈
          listed env hostname fetched.service fetched.source lines then
          some fetched.source.entry
        else lookup env state fetched.service visited := by
  have isSource := source_of_step stepped
  simp only [step, isSource, if_true, Option.some.injEq] at stepped
  subst stepped
  obtain ⟨service, source, answer⟩ := fetched
  cases service with
  | intel =>
    cases answer with
    | failed => rfl
    | answered status body =>
      by_cases isOk : status = 200
      · simp only [lookup, Store.lookupDomain, syncSource, fetch, isOk, if_true, acted, load, norm]
        exact domains_foldl_loadLine
      · simp [lookup, Store.lookupDomain, syncSource, fetch, isOk, acted]
  | admin =>
    simp only [lookup, syncFeed_eq isSource]
    cases acts : acted .admin answer with
    | none => rfl
    | some lines => exact entryAt_upsertThreatIntel live

theorem lookup_step_of_ne (other : service ≠ fetched.service)
    (stepped : step env hostname state fetched = some next) :
    lookup env next service visited = lookup env state service visited := by
  have isSource := source_of_step stepped
  simp only [step, isSource, if_true, Option.some.injEq] at stepped
  subst stepped
  cases service <;> cases isService : fetched.service <;> simp_all [lookup]

theorem live_step (live : state.Live) (stepped : step env hostname state fetched = some next) :
    next.Live := by
  have isSource := source_of_step stepped
  simp only [step, isSource, if_true, Option.some.injEq] at stepped
  subst stepped
  cases isService : fetched.service with
  | intel => simpa [State.Live, isService] using live
  | admin =>
    rw [isService] at isSource
    simp only [State.Live, syncFeed_eq isSource]
    cases acted .admin fetched.answer with
    | none => exact live
    | some lines => exact live_upserts live

section Properties

variable (env : Primitives) (hostname : List Char → Option (List Char))

/-- A fetch that completes flags because of its source what it lists and nothing else, and one
that does not complete changes nothing. -/
def Right (state : State) (fetched : Fetch) : Prop :=
  ∀ next, step env hostname state fetched = some next →
    match complete fetched.answer with
    | some lines => ∀ visited,
        (∃ entry, lookup env next fetched.service visited = some entry ∧
          entry.source = fetched.source.name) ↔
        norm env fetched.service visited ∈
          listed env hostname fetched.service fetched.source lines
    | none => ∀ service visited, lookup env next service visited =
        lookup env state service visited

def ListedIn (state : State) (service : Service) (source : Source) (visited : List Char) : Prop :=
  ∃ lines, state.latest service source.name = some lines ∧
    norm env service visited ∈ listed env hostname service source lines

/-- A domain is flagged exactly if the latest lists have it. -/
def Mirrors (state : State) : Prop :=
  ∀ service visited, (lookup env state service visited).isSome = true ↔
    ∃ source ∈ sources service, ListedIn env hostname state service source visited

/-- Both services flag the same domains, if they have seen the same lists. -/
def Agree (state : State) (visited : List Char) : Prop :=
  (∀ source ∈ sources .admin, state.latest .intel source.name = state.latest .admin source.name) →
    (lookup env state .intel visited).isSome = (lookup env state .admin visited).isSome

/-- The threat lists mirror their feeds, whatever comes of the fetches. -/
def AlwaysMirrors : Prop :=
  ∀ trace final, exec (step env hostname) State.start trace = some final →
    AllSteps (step env hostname) (Right env hostname) State.start trace ∧
    ∀ reached, Visits (step env hostname) State.start trace reached →
      Mirrors env hostname reached ∧ ∀ visited, Agree env reached visited

/-- A name of several labels, with nothing at its end. -/
structure Proper (host : List Char) : Prop where
  spaceless : ∀ letter ∈ host, isSpace letter = false
  undotted : ¬['.'] <:+ host
  labels : '.' ∈ trimPrefix "www.".toList (lowered env host)

def HostAlike (host : List Char) : Prop :=
  Proper env host ∧ '.' ∈ host ∧ '/' ∉ host ∨
    '.' ∉ host ∧ '.' ∉ trimPrefix "www.".toList (lowered env (trimSpace host)) ∧
      contains host "://".toList = false

/-- A line of the phishing feed: a URL with a proper name, or nothing that looks like one. -/
def PhishAlike (line : List Char) : Prop :=
  match (hostname line).filter (· ≠ []) with
  | some host => ¬['#'] <+: line ∧ contains line "://".toList = true ∧ Proper env host
  | none => ['#'] <+: line ∨
      let host := line.takeWhile (· ≠ '/')
      '.' ∉ host ∨ ' ' ∈ host ∨ '\t' ∈ host

def ReadAlike (kind : Kind) (line : List Char) : Prop :=
  trimSpace line ≠ [] →
    match kind with
    | .hostfile => ¬['#'] <+: trimSpace line → ∀ address host,
        fields (trimSpace line) = [address, host] → HostAlike env host
    | .domain => PhishAlike env hostname (trimSpace line)
    | _ => True

/-- A visited name without a dot at its end, or without white space. -/
def Tidy (visited : List Char) : Prop :=
  ¬['.'] <:+ trimSpace visited ∨ ∀ letter ∈ visited, isSpace letter = false

/--
A complete body drops nothing that was flagged because of its source, and its lines are read
alike.  What does not complete brings nothing that was not flagged because of its source before.
-/
def Careful (state : State) (fetched : Fetch) : Prop :=
  match complete fetched.answer with
  | some lines =>
    (∀ visited entry, lookup env state fetched.service visited = some entry →
      entry.source = fetched.source.name → norm env fetched.service visited ∈
        listed env hostname fetched.service fetched.source lines) ∧
    ∀ line ∈ lines, ReadAlike env hostname fetched.source.kind line
  | none => ∀ lines, acted fetched.service fetched.answer = some lines → ∀ visited,
      norm env fetched.service visited ∈
        listed env hostname fetched.service fetched.source lines →
      lookup env state fetched.service visited = some fetched.source.entry

end Properties

theorem acted_of_complete {answer : Answer} (isComplete : complete answer = some lines) :
    acted service answer = some lines := by
  cases answer with
  | failed => simp [complete] at isComplete
  | answered status body =>
    simp only [complete, Option.ite_none_right_eq_some, Option.some.injEq] at isComplete
    obtain ⟨⟨isOk, ended⟩, rfl⟩ := isComplete
    cases service <;> simp [acted, isOk, ended]

theorem right_of_careful (live : state.Live) (careful : Careful env hostname state fetched) :
    Right env hostname state fetched := by
  intro next stepped
  unfold Careful at careful
  cases isComplete : complete fetched.answer with
  | some lines =>
    simp only [isComplete] at careful ⊢
    intro visited
    rw [lookup_step live stepped, acted_of_complete isComplete]
    dsimp only
    by_cases isListed : norm env fetched.service visited ∈
        listed env hostname fetched.service fetched.source lines
    · simp only [isListed, if_true, Option.some.injEq, iff_true]
      exact ⟨_, rfl, rfl⟩
    · simp only [isListed, if_false, iff_false]
      rintro ⟨entry, found, isSource⟩
      exact isListed (careful.1 visited entry found isSource)
  | none =>
    simp only [isComplete] at careful ⊢
    intro service visited
    by_cases same : service = fetched.service
    · subst same
      rw [lookup_step live stepped]
      cases acts : acted fetched.service fetched.answer with
      | none => rfl
      | some lines =>
        simp only
        split
        · rename_i isListed
          exact (careful lines acts visited isListed).symm
        · rfl
    · exact lookup_step_of_ne same stepped

section Alike

variable {host : List Char}

theorem Proper.norm_eq (proper : Proper env host) :
    normDomain env host = trimPrefix "www.".toList (lowered env host) := by
  unfold normDomain
  rw [trimSuffix_of_not_suffix proper.undotted, trimSpace_eq_self proper.spaceless]

theorem Proper.normalizeDomain_eq (proper : Proper env host) :
    normalizeDomain env host = trimPrefix "www.".toList (lowered env host) := by
  unfold normalizeDomain
  rw [trimSpace_eq_self proper.spaceless]
  apply if_neg
  rintro (nothing | isLocal | noDot)
  · have := proper.labels
    rw [nothing] at this
    contradiction
  · have := proper.labels
    rw [isLocal] at this
    exact absurd this (by decide)
  · exact noDot proper.labels

theorem Proper.ne_nil (proper : Proper env host) :
    trimPrefix "www.".toList (lowered env host) ≠ [] :=
  List.ne_nil_of_mem proper.labels

theorem extractDomain_of_hostless (hostless : (hostname host).filter (· ≠ []) = none ∨
    contains host "://".toList = false) : extractDomain hostname host =
      let bare := host.takeWhile (· ≠ '/')
      if '.' ∈ bare ∧ ' ' ∉ bare ∧ '\t' ∉ bare then bare else [] := by
  unfold extractDomain
  rcases hostless with hostless | notUrl
  · simp only [hostless, ite_self]
  · simp only [notUrl]
    rfl

theorem not_contains_of_not_mem (absent : '/' ∉ host) : contains host "://".toList = false := by
  by_contra isThere
  have within := contains_iff.mp (by simpa using isThere)
  exact absent (within.subset (by decide))

theorem HostAlike.same (alike : HostAlike env host) :
    (let domain := extractDomain hostname host
     if domain = [] then none else some (normDomain env domain)) =
      (let domain := normalizeDomain env host
       if domain = [] then none else some domain) := by
  rcases alike with ⟨proper, isDotted, noSlash⟩ | ⟨undotted, noLabels, notUrl⟩
  · have bare : host.takeWhile (· ≠ '/') = host := by
      apply List.takeWhile_eq_self_iff.mpr
      intro letter isIn
      simp only [decide_eq_true_eq]
      rintro rfl
      exact noSlash isIn
    have noSpace : ' ' ∉ host := fun isIn => absurd (proper.spaceless _ isIn) (by decide)
    have noTab : '\t' ∉ host := fun isIn => absurd (proper.spaceless _ isIn) (by decide)
    have extracted : extractDomain hostname host = host := by
      rw [extractDomain_of_hostless (.inr (not_contains_of_not_mem noSlash)), bare]
      exact if_pos ⟨isDotted, noSpace, noTab⟩
    simp only [extracted, proper.normalizeDomain_eq, proper.norm_eq, proper.ne_nil, if_false]
    exact if_neg (List.ne_nil_of_mem isDotted)
  · have extracted : extractDomain hostname host = [] := by
      rw [extractDomain_of_hostless (.inr notUrl)]
      apply if_neg
      rintro ⟨isDotted, _⟩
      exact undotted (List.takeWhile_subset _ isDotted)
    have normalized : normalizeDomain env host = [] := if_pos (.inr (.inr noLabels))
    simp [extracted, normalized]

theorem Proper.extracted_ne_nil (proper : Proper env host) : host ≠ [] := by
  rintro rfl
  exact absurd proper.labels (by simp [lowered, trimPrefix])

theorem extracted_eq_nil (hostless : (hostname line).filter (· ≠ []) = none)
    (bare : '.' ∉ line.takeWhile (· ≠ '/') ∨ ' ' ∈ line.takeWhile (· ≠ '/') ∨
      '\t' ∈ line.takeWhile (· ≠ '/')) : extractDomain hostname line = [] := by
  rw [extractDomain_of_hostless (.inl hostless)]
  apply if_neg
  rintro ⟨isDotted, noSpace, noTab⟩
  rcases bare with undotted | isSpaced | isTabbed
  · exact undotted isDotted
  · exact noSpace isSpaced
  · exact noTab isTabbed

theorem PhishAlike.same (alike : PhishAlike env hostname line) :
    (let domain := if ['#'] <+: line then [] else extractDomain hostname line
     if domain = [] then none else some (normDomain env domain)) =
      (let domain := match hostname line with
        | none => []
        | some host => if host = [] then [] else normalizeDomain env host
       if domain = [] then none else some domain) := by
  unfold PhishAlike at alike
  cases named : (hostname line).filter (· ≠ []) with
  | none =>
    have nothing : (if ['#'] <+: line then [] else extractDomain hostname line) = [] := by
      rw [named] at alike
      split
      · rfl
      · rename_i noComment
        exact extracted_eq_nil named (alike.resolve_left noComment)
    simp only [nothing, if_true]
    cases isHost : hostname line with
    | none => rfl
    | some host =>
      have isNil : host = [] := by simpa [isHost] using named
      simp [isNil]
  | some host =>
    obtain ⟨isHost, notNil⟩ := Option.filter_eq_some_iff.mp named
    rw [named] at alike
    obtain ⟨noComment, isUrl, proper⟩ := alike
    have extracted : extractDomain hostname line = host := by
      unfold extractDomain
      simp only [isUrl, if_true, named]
    have hostNe : host ≠ [] := proper.extracted_ne_nil
    simp only [noComment, if_false, extracted, isHost, hostNe, proper.norm_eq,
      proper.normalizeDomain_eq, proper.ne_nil]

theorem ReadAlike.lineKey_eq {kind : Kind} (alike : ReadAlike env hostname kind line) :
    lineKey env hostname .intel kind line = lineKey env hostname .admin kind line := by
  by_cases nothing : trimSpace line = []
  · cases kind <;>
      simp [lineKey, intelDomain, adminDomain, hostfileDomain, phishingDomain, nothing]
  have alikeHere := alike nothing
  cases kind with
  | hostfile =>
    by_cases isComment : ['#'] <+: trimSpace line
    · simp [lineKey, intelDomain, adminDomain, hostfileDomain, isComment]
    · simp only [lineKey, intelDomain, adminDomain, hostfileDomain, nothing, isComment, or_self,
        if_false, domainOf]
      split
      · rename_i address host isFields
        exact (alikeHere isComment address host isFields).same
      · rfl
  | domain =>
    have same := alikeHere.same
    simp only [lineKey, intelDomain, adminDomain, phishingDomain, nothing, false_or, if_false,
      domainOf]
    exact same
  | ip | hash => simp [lineKey, intelDomain, adminDomain, domainOf]

theorem listed_eq (alike : ∀ line ∈ lines, ReadAlike env hostname source.kind line) :
    listed env hostname .intel source lines =
      listed env hostname .admin source lines :=
  List.filterMap_congr fun line isIn => (alike line isIn).lineKey_eq

end Alike

variable (env hostname) in
/-- What every careful fetch keeps: each entry comes from a source that lists it, whatever is
listed has an entry, and both services read the lines alike. -/
structure Kept (state : State) : Prop where
  live : state.Live
  sound : ∀ service visited entry, lookup env state service visited = some entry →
    ∃ source ∈ sources service, entry = source.entry ∧
      ListedIn env hostname state service source visited
  found : ∀ service visited, ∀ source ∈ sources service,
    ListedIn env hostname state service source visited →
      (lookup env state service visited).isSome = true
  alike : ∀ service, ∀ source ∈ sources service, ∀ lines,
    state.latest service source.name = some lines →
      ∀ line ∈ lines, ReadAlike env hostname source.kind line

theorem eq_of_name {first second : Source} (isFirst : first ∈ sources service)
    (isSecond : second ∈ sources service) (same : first.name = second.name) : first = second := by
  have distinct : ∀ service, ∀ first ∈ sources service, ∀ second ∈ sources service,
      first.name = second.name → first = second := by
    intro service
    cases service <;> decide
  exact distinct service first isFirst second isSecond same

theorem Kept.start : Kept env hostname State.start := by
  constructor
  · intro row isIn
    contradiction
  · intro service visited entry found
    cases service <;> simp [lookup, State.start, Store.lookupDomain, Store.new, findRow] at found
  · rintro service visited source _ ⟨lines, isLatest, _⟩
    contradiction
  · intro service source _ lines isLatest
    contradiction

theorem latest_step (stepped : step env hostname state fetched = some next)
    (service : Service) (name : String) : next.latest service name =
      match complete fetched.answer with
      | none => state.latest service name
      | some lines => if service = fetched.service ∧ name = fetched.source.name then some lines
          else state.latest service name := by
  have isSource := source_of_step stepped
  simp only [step, isSource, if_true, Option.some.injEq] at stepped
  subst stepped
  simp only
  cases complete fetched.answer <;> rfl

section

variable (kept : Kept env hostname state)

include kept

theorem Kept.completed (isComplete : complete fetched.answer = some lines)
    (careful : Careful env hostname state fetched)
    (stepped : step env hostname state fetched = some next) :
    Kept env hostname next := by
  have isSource := source_of_step stepped
  have isLatest := latest_step stepped
  simp only [isComplete] at isLatest
  simp only [Careful, isComplete] at careful
  have looked : ∀ visited, lookup env next fetched.service visited = _ :=
    fun visited => lookup_step kept.live stepped
  simp only [acted_of_complete isComplete] at looked
  -- Of the other sources and of the other service nothing is new.
  have others : ∀ {service source visited}, source ∈ sources service →
      ¬(service = fetched.service ∧ source = fetched.source) →
      (ListedIn env hostname next service source visited ↔
        ListedIn env hostname state service source visited) := by
    intro service source visited isIn isOther
    unfold ListedIn
    rw [isLatest, if_neg]
    rintro ⟨rfl, sameName⟩
    exact isOther ⟨rfl, eq_of_name isIn isSource sameName⟩
  have this : ∀ {visited}, ListedIn env hostname next fetched.service fetched.source visited ↔
      norm env fetched.service visited ∈
        listed env hostname fetched.service fetched.source lines := by
    intro visited
    unfold ListedIn
    simp [isLatest]
  constructor
  · exact live_step kept.live stepped
  · intro service visited entry found
    by_cases same : service = fetched.service
    · subst same
      rw [looked] at found
      split at found
      · rename_i isListed
        exact ⟨fetched.source, isSource, (Option.some.inj found).symm, this.mpr isListed⟩
      · rename_i unlisted
        obtain ⟨source, isIn, rfl, isListed⟩ := kept.sound _ visited entry found
        refine ⟨source, isIn, rfl, (others isIn ?_).mpr isListed⟩
        rintro ⟨_, rfl⟩
        exact unlisted (careful.1 visited _ found rfl)
    · rw [lookup_step_of_ne same stepped] at found
      obtain ⟨source, isIn, rfl, isListed⟩ := kept.sound _ visited entry found
      exact ⟨source, isIn, rfl, (others isIn fun both => same both.1).mpr isListed⟩
  · intro service visited source isIn isListed
    by_cases same : service = fetched.service
    · subst same
      rw [looked]
      split
      · rfl
      · rename_i unlisted
        refine kept.found _ visited source isIn ((others isIn ?_).mp isListed)
        rintro ⟨_, rfl⟩
        exact unlisted (this.mp isListed)
    · rw [lookup_step_of_ne same stepped]
      exact kept.found _ visited source isIn ((others isIn fun both => same both.1).mp isListed)
  · intro service source isIn latestLines isLines
    rw [isLatest] at isLines
    split at isLines
    · rename_i isFetched
      obtain ⟨rfl, sameName⟩ := isFetched
      cases Option.some.inj isLines
      rw [eq_of_name isIn isSource sameName]
      exact careful.2
    · exact kept.alike service source isIn latestLines isLines

theorem Kept.interrupted (isIncomplete : complete fetched.answer = none)
    (careful : Careful env hostname state fetched)
    (stepped : step env hostname state fetched = some next) :
    Kept env hostname next := by
  have isLatest := latest_step stepped
  have unchanged := right_of_careful kept.live careful next stepped
  simp only [isIncomplete] at isLatest unchanged
  have sameListed : ∀ service source visited,
      ListedIn env hostname next service source visited ↔
        ListedIn env hostname state service source visited := by
    intro service source visited
    simp only [ListedIn, isLatest]
  constructor
  · exact live_step kept.live stepped
  · intro service visited entry found
    rw [unchanged] at found
    simpa only [sameListed] using kept.sound service visited entry found
  · intro service visited source isIn isListed
    rw [unchanged]
    exact kept.found service visited source isIn ((sameListed _ _ _).mp isListed)
  · intro service source isIn lines isLines
    rw [isLatest] at isLines
    exact kept.alike service source isIn lines isLines

theorem Kept.step (careful : Careful env hostname state fetched)
    (stepped : step env hostname state fetched = some next) :
    Kept env hostname next := by
  cases isComplete : complete fetched.answer with
  | none => exact kept.interrupted isComplete careful stepped
  | some lines => exact kept.completed isComplete careful stepped

theorem Kept.mirrors :
    Mirrors env hostname state := by
  intro service visited
  constructor
  · intro flagged
    obtain ⟨entry, found⟩ := Option.isSome_iff_exists.mp flagged
    obtain ⟨source, isIn, _, isListed⟩ := kept.sound service visited entry found
    exact ⟨source, isIn, isListed⟩
  · rintro ⟨source, isIn, isListed⟩
    exact kept.found service visited source isIn isListed

end

theorem exists_trimSpace_concat {text : List Char} {letter : Char} (visible : isSpace letter = false) :
    ∃ trimmed, trimSpace (text ++ [letter]) = trimmed ++ [letter] := by
  have kept : ∃ more, (text ++ [letter]).dropWhile isSpace = more ++ [letter] := by
    rw [List.dropWhile_append]
    split
    · exact ⟨[], by simp [visible]⟩
    · exact ⟨_, rfl⟩
  obtain ⟨more, isMore⟩ := kept
  refine ⟨more, ?_⟩
  unfold trimSpace
  rw [isMore, List.reverse_append]
  simp [visible]

theorem norm_eq_of_tidy (tidy : Tidy visited) :
    norm env .intel visited = norm env .admin visited := by
  simp only [norm, normDomain, RiskEngine.normalize]
  rcases tidy with undotted | spaceless
  · have noDot : ¬['.'] <:+ visited := by
      rintro ⟨text, rfl⟩
      obtain ⟨trimmed, isTrimmed⟩ := exists_trimSpace_concat (by decide : isSpace '.' = false)
      exact undotted ⟨trimmed, isTrimmed.symm⟩
    rw [trimSuffix_of_not_suffix noDot, trimSuffix_of_not_suffix undotted]
  · have spacelessRest : ∀ letter ∈ trimSuffix ['.'] visited, isSpace letter = false := by
      intro letter isIn
      apply spaceless
      unfold trimSuffix at isIn
      split at isIn
      · exact List.mem_of_mem_take isIn
      · exact isIn
    rw [trimSpace_eq_self spaceless, trimSpace_eq_self spacelessRest]

theorem mem_admin_of_listed (isSource : source ∈ sources .intel)
    (isListed : key ∈ listed env hostname .intel source lines) : source ∈ sources .admin := by
  obtain ⟨line, _, isKey⟩ := mem_listed.mp isListed
  simp only [sources, defaultSources, List.mem_cons, List.not_mem_nil, or_false] at isSource ⊢
  rcases isSource with rfl | rfl | rfl | rfl
  · left
    rfl
  · right
    rfl
  · simp [lineKey, intelDomain, feodotracker, domainOf] at isKey
  · simp [lineKey, intelDomain, malwarebazaar, domainOf] at isKey

theorem mem_intel_of_admin (isSource : source ∈ sources .admin) : source ∈ sources .intel := by
  simp only [sources, defaultSources, List.mem_cons, List.not_mem_nil, or_false] at isSource ⊢
  tauto

theorem Kept.agree (kept : Kept env hostname state) (tidy : Tidy visited) :
    Agree env state visited := by
  intro sameLatest
  rw [Bool.eq_iff_iff, kept.mirrors .intel visited, kept.mirrors .admin visited]
  constructor
  · rintro ⟨source, isIn, lines, isLatest, isListed⟩
    have isAdmin := mem_admin_of_listed isIn isListed
    refine ⟨source, isAdmin, lines, ?_, ?_⟩
    · rw [← sameLatest source isAdmin, isLatest]
    · rwa [← norm_eq_of_tidy tidy, ← listed_eq (kept.alike .intel source isIn lines isLatest)]
  · rintro ⟨source, isAdmin, lines, isLatest, isListed⟩
    refine ⟨source, mem_intel_of_admin isAdmin, lines, ?_, ?_⟩
    · rw [sameLatest source isAdmin, isLatest]
    · rwa [norm_eq_of_tidy tidy, listed_eq (kept.alike .admin source isAdmin lines isLatest)]

theorem store_of_sync {fetcher : String → Answer} {list : List Source}
    (known : ∀ source ∈ list, source ∈ defaultSources) (state : State) :
    ∃ next, exec (step env hostname) state
        (list.map fun source => ⟨.intel, source, fetcher source.url⟩) = some next ∧
      next.store = sync env hostname state.store fetcher list ∧ next.rows = state.rows := by
  induction list generalizing state with
  | nil => exact ⟨state, rfl, rfl, rfl⟩
  | cons source rest others =>
    have isSource : source ∈ sources .intel := known source List.mem_cons_self
    obtain ⟨middle, stepped, middleStore, middleRows⟩ : ∃ middle,
        step env hostname state ⟨.intel, source, fetcher source.url⟩ = some middle ∧
        middle.store = syncSource env hostname state.store source (fetcher source.url) ∧
        middle.rows = state.rows := ⟨_, if_pos isSource, rfl, rfl⟩
    obtain ⟨next, executed, isStore, sameRows⟩ :=
      others (fun other isIn => known other (List.mem_cons_of_mem _ isIn)) middle
    refine ⟨next, exec_cons_eq_some.mpr ⟨middle, stepped, executed⟩, ?_, ?_⟩
    · rw [isStore, middleStore]
      rfl
    · rw [sameRows, middleRows]

theorem rows_of_syncThreatFeeds (ofURLhaus ofOpenPhish : Answer) (state : State) :
    ∃ next, exec (step env hostname) state
        [⟨.admin, urlhaus, ofURLhaus⟩, ⟨.admin, openphish, ofOpenPhish⟩] = some next ∧
      next.rows = syncThreatFeeds env hostname state.rows ofURLhaus ofOpenPhish ∧
      next.store = state.store := ⟨_, rfl, rfl, rfl⟩

/--
In every run whose fetches are careful, each fetch does what it should, and in every state on the
way the lists mirror their feeds and both services flag the same tidy names from the same bodies.
-/
theorem mirrors_of_careful {trace : List Fetch} {final : State}
    (careful : AllSteps (step env hostname) (Careful env hostname) State.start trace)
    (executed : exec (step env hostname) State.start trace = some final) :
    AllSteps (step env hostname) (Right env hostname) State.start trace ∧
      ∀ reached, Visits (step env hostname) State.start trace reached →
        Mirrors env hostname reached ∧
          ∀ visited, Tidy visited → Agree env reached visited := by
  have preserved : ∀ state fetched next, Kept env hostname state →
      Careful env hostname state fetched →
      step env hostname state fetched = some next → Kept env hostname next :=
    fun _ _ _ kept careful stepped => kept.step careful stepped
  constructor
  · exact allSteps_of_invariant preserved (fun _ _ kept careful => right_of_careful kept.live careful)
      Kept.start careful
  · rintro reached ⟨seen, ⟨rest, rfl⟩, seenExecuted⟩
    have seenCareful := ((allSteps_append seenExecuted).mp careful).1
    have kept := invariant_of_allSteps preserved Kept.start seenCareful seenExecuted
    exact ⟨kept.mirrors, fun visited tidy => kept.agree tidy⟩

def delisting : List Fetch :=
  [⟨.intel, urlhaus, .answered 200 ⟨"0.0.0.0 evil.example\n".toList, true⟩⟩,
    ⟨.intel, urlhaus, .answered 200 ⟨"# nothing\n".toList, true⟩⟩]

/-- A domain is listed, and then it is not. -/
theorem not_alwaysMirrors : ¬AlwaysMirrors plainPrimitives fun _ => none := by
  intro always
  obtain ⟨right, _⟩ := always delisting _ rfl
  have second := (right.2 _ rfl).1 _ rfl
  have wrong := (second "evil.example".toList).mp ⟨_, rfl, rfl⟩
  revert wrong
  decide

def hostfileFetch (service : Service) (text : String) (ended : Bool) : Fetch :=
  ⟨service, urlhaus, .answered 200 ⟨text.toList, ended⟩⟩

/-- Both services fetch the list; then a fetch breaks off, and the next one brings a new name. -/
def listing : List Fetch :=
  [hostfileFetch .intel "0.0.0.0 evil.example\n" true,
    hostfileFetch .admin "0.0.0.0 evil.example\n" true,
    hostfileFetch .intel "0.0.0.0 evil.example\n" false,
    hostfileFetch .intel "0.0.0.0 evil.example\n0.0.0.0 worse.example\n" true]

theorem readAlike_hostfile {host : List Char}
    (fieldsAre : fields (trimSpace line) = ["0.0.0.0".toList, host])
    (proper : Proper plainPrimitives host) (dotted : '.' ∈ host) (bare : '/' ∉ host) :
    ReadAlike plainPrimitives (fun _ => none) .hostfile line := by
  intro _ _ address other isFields
  rw [fieldsAre] at isFields
  obtain rfl : other = host := by simp_all
  exact .inl ⟨proper, dotted, bare⟩

theorem readAlike_evil :
    ReadAlike plainPrimitives (fun _ => none) .hostfile "0.0.0.0 evil.example".toList :=
  @readAlike_hostfile _ "evil.example".toList (by decide) ⟨by simp [isSpace], by decide, by decide⟩
    (by decide) (by decide)

theorem readAlike_worse :
    ReadAlike plainPrimitives (fun _ => none) .hostfile "0.0.0.0 worse.example".toList :=
  @readAlike_hostfile _ "worse.example".toList (by decide) ⟨by simp [isSpace], by decide, by decide⟩
    (by decide) (by decide)

/-- The intel service holds the name of the first list and no other. -/
def HoldsEvil (state : State) : Prop :=
  ∀ visited, lookup plainPrimitives state .intel visited =
    if norm plainPrimitives .intel visited ∈ ["evil.example".toList] then some urlhaus.entry else none

theorem HoldsEvil.listed {lines : List (List Char)} {entry : Entry} (holds : HoldsEvil state)
    (kept : "evil.example".toList ∈ listed plainPrimitives (fun _ => none) .intel urlhaus lines)
    (found : lookup plainPrimitives state .intel visited = some entry) :
    norm plainPrimitives .intel visited ∈
      listed plainPrimitives (fun _ => none) .intel urlhaus lines := by
  rw [holds visited] at found
  split_ifs at found with isEvil
  rwa [List.mem_singleton.mp isEvil]

theorem careful_listing : AllSteps (step plainPrimitives fun _ => none)
    (Careful plainPrimitives fun _ => none) State.start listing := by
  have evil := List.forall_mem_singleton.mpr readAlike_evil
  refine ⟨⟨?_, evil⟩, fun first firstStepped => ⟨⟨?_, evil⟩, fun second secondStepped => ?_⟩⟩
  · intro visited entry found
    cases found
  · obtain rfl := Option.some.inj firstStepped
    intro visited entry found
    cases found
  have live : State.start.Live := by simp [State.Live, State.start, Live]
  have firstHolds : HoldsEvil first := fun visited => lookup_step live firstStepped
  have holds : HoldsEvil second := fun visited =>
    (lookup_step_of_ne (by decide) secondStepped).trans (firstHolds visited)
  refine ⟨?_, fun third thirdStepped => ⟨⟨?_, ?_⟩, fun _ _ => trivial⟩⟩
  · rintro lines ⟨⟩ visited isListed
    exact (holds visited).trans (if_pos isListed)
  · have thirdHolds : HoldsEvil third := by
      intro visited
      have isLive := live_step (live_step live firstStepped) secondStepped
      refine (lookup_step isLive thirdStepped).trans ?_
      change (if norm plainPrimitives .intel visited ∈ ["evil.example".toList] then _
        else lookup plainPrimitives second .intel visited) = _
      rw [holds visited, ite_eq_right_iff]
      exact fun isEvil => (if_pos isEvil).symm
    intro visited entry found _
    exact thirdHolds.listed (by decide) found
  · exact List.forall_mem_cons.mpr ⟨readAlike_evil, List.forall_mem_singleton.mpr readAlike_worse⟩

theorem mirrors_of_listing :
    AllSteps (step plainPrimitives fun _ => none) (Right plainPrimitives fun _ => none) State.start
        listing ∧
      ∀ reached, Visits (step plainPrimitives fun _ => none) State.start listing reached →
        Mirrors plainPrimitives (fun _ => none) reached ∧
          ∀ visited, Tidy visited → Agree plainPrimitives reached visited :=
  mirrors_of_careful careful_listing rfl

end Aavishield.ThreatFeeds
