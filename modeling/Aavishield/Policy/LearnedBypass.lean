import Aavishield.Lib.Joining
import Aavishield.Policy.MitmLearning

/-!
# What is passed through

A learned domain must not make an agent pass a host through at which data can leave the
company, and an entry of the list must stand for its host and what lies below it only.
-/

namespace Aavishield.MitmLearning

open DomainRules (Primitives folded)
open Labels Text

section Statement

variable (env : Primitives) (catalogue : Catalogue) (entered : List (List Char))

def dlpRelevant (host : List Char) : Bool :=
  (mitmLearning env catalogue host (registrableDomain env host)).dlpRelevant

def IsProtected (host : List Char) : Prop :=
  isHostname host = true ∧ dlpRelevant env catalogue host = true

def suffixHost (entry : List Char) : List Char := trimPrefix "*.".toList entry

/-- Whatever is reported, no learned domain opens a hole, and the entries of each list stand for
their hosts and what lies below them. -/
structure OpensNoHole : Prop where
  learned : ∀ reports orgID now,
    ∀ domain ∈ learnedBypassDomains (receive env catalogue reports) orgID now, ∀ host,
      IsProtected env catalogue (folded env host) →
        (MitmState.load env true true [domain]).bypasses (folded env host) = false
  suffixes : ∀ reports orgID now,
    ∀ entry ∈ bypassDomains env catalogue entered (receive env catalogue reports)
      orgID now, ∀ name, (MitmState.load env true true [entry]).bypasses name = true ↔
        Under '.' name (suffixHost (kept env entry))

/-- No host that must be scanned lies under what an agent keeps of the registrable domain of a
host that need not be. -/
def PlatformsApart : Prop :=
  ∀ reported, isHostname reported = true → reported.length ≤ 253 →
    dlpRelevant env catalogue reported = false →
      ∀ host, IsProtected env catalogue (folded env host) →
        ¬Under '.' (folded env host) (kept env (registrableDomain env reported))

def NoWildcards : Prop :=
  ∀ entry ∈ orgBypass env entered ++ sensitiveMITMBypassDomains catalogue,
    ¬"*.".toList <+: kept env entry

end Statement

variable {env : Primitives} {catalogue : Catalogue} {entered : List (List Char)}
  {entry name host domain : List Char} {report : Report} {reports : List Report}
  {refusals : List MITMRefusal} {row : MITMRefusal} {orgID : UUID} {now : Time}

theorem bypasses_load_iff : (MitmState.load env true true [entry]).bypasses name = true ↔
    Under '.' name (kept env entry) ∨
      ∃ suffix, kept env entry = "*.".toList ++ suffix ∧ suffix <:+ name := by
  simp only [MitmState.bypasses, MitmState.load, List.map_cons, List.map_nil]
  generalize kept env entry = kept
  have above : ((List.range' 1 ((name.splitOn '.').length - 1)).any fun index =>
      [kept].contains (['.'].intercalate ((name.splitOn '.').drop index))) = true ↔
        '.' :: kept <:+ name := by
    rw [← mem_afters, ← map_intercalate_drop_splitOn, List.mem_map, List.any_eq_true]
    simp
  have wild : ("*.".toList.isPrefixOf kept && (kept.drop 2).isSuffixOf name) = true ↔
      ∃ suffix, kept = "*.".toList ++ suffix ∧ suffix <:+ name := by
    rw [Bool.and_eq_true, List.isPrefixOf_iff_prefix, List.isSuffixOf_iff_suffix]
    constructor
    · rintro ⟨⟨suffix, rfl⟩, isSuffix⟩
      exact ⟨suffix, rfl, isSuffix⟩
    · rintro ⟨suffix, rfl, isSuffix⟩
      exact ⟨List.prefix_append _ _, isSuffix⟩
  rw [Bool.or_eq_true, Bool.or_eq_true, above, List.any_cons, List.any_nil, Bool.or_false, wild,
    List.contains_iff_mem, List.mem_singleton, or_right_comm]
  rfl

theorem exact_of_not_wildcard (plain : ¬"*.".toList <+: kept env entry) :
    (MitmState.load env true true [entry]).bypasses name = true ↔
      Under '.' name (suffixHost (kept env entry)) := by
  rw [bypasses_load_iff, suffixHost, trimPrefix_of_other_start plain, or_iff_left]
  rintro ⟨suffix, isWild, -⟩
  apply plain
  rw [isWild]
  exact List.prefix_append _ _

theorem not_wildcard_of_exact (exactly : ∀ name,
    (MitmState.load env true true [entry]).bypasses name = true ↔
      Under '.' name (suffixHost (kept env entry))) :
    ¬"*.".toList <+: kept env entry := by
  rintro ⟨suffix, isWild⟩
  have lookalike := (exactly ('x' :: suffix)).mp
    (bypasses_load_iff.mpr (.inr ⟨suffix, isWild.symm, List.suffix_cons 'x' suffix⟩))
  rw [suffixHost, ← isWild, trimPrefix_append] at lookalike
  rcases lookalike with isSame | isBelow
  · exact absurd (congrArg List.length isSame) (by simp)
  · cases isBelow.eq_of_length rfl

variable {letter : Char}

theorem mem_of_mem_intercalate_drop {count : ℕ}
    (letterMem : letter ∈ ['.'].intercalate ((name.splitOn '.').drop count)) :
    letter ∈ name ∨ letter = '.' := by
  rcases Joining.mem_intercalate letterMem with isDot | ⟨part, partMem, inPart⟩
  · right
    exact isDot
  · left
    have joined : ['.'].intercalate (name.splitOn '.') = name := List.intercalate_splitOn '.'
    rw [← joined]
    exact Joining.mem_intercalate_of_mem (List.mem_of_mem_drop partMem) inPart

def hostnameLetters : List Char := "abcdefghijklmnopqrstuvwxyz0123456789-.".toList

theorem mem_hostnameLetters (isName : isHostname host = true)
    (letterMem : letter ∈ host) : letter ∈ hostnameLetters := by
  rw [isHostname, Bool.and_eq_true, List.all_eq_true] at isName
  have joined : ['.'].intercalate (host.splitOn '.') = host := List.intercalate_splitOn '.'
  rw [← joined] at letterMem
  rcases Joining.mem_intercalate letterMem with rfl | ⟨part, partMem, inPart⟩
  · decide
  · have isPart := isName.2 part partMem
    rw [isLabel, Bool.and_eq_true, Bool.and_eq_true, Bool.and_eq_true, List.all_eq_true] at isPart
    have inLabel := isPart.1.1.2 letter inPart
    rw [Bool.or_eq_true, hostLetter, decide_eq_true_iff, beq_iff_eq] at inLabel
    rcases inLabel with isLetter | rfl
    · exact List.mem_append_left ['-', '.'] isLetter
    · decide

theorem plain_of_mem_hostnameLetters : ∀ letter ∈ hostnameLetters,
    letter.toNat < 128 ∧ letter.toLower = letter ∧ isSpace letter = false ∧ letter ≠ '*' :=
  forall_mem_of_all (by decide)

theorem map_lower_of_isHostname (isName : isHostname host = true) :
    host.map env.lower = host := by
  have fixed : ∀ letter ∈ host, env.lower letter = letter := by
    intro letter letterMem
    rcases plain_of_mem_hostnameLetters letter (mem_hostnameLetters isName letterMem) with
      ⟨ascii, isLower, -⟩
    rw [env.lower_ascii letter ascii, isLower]
  rw [List.map_congr_left fixed, List.map_id']

theorem mem_registrableDomain (isName : isHostname host = true)
    (letterMem : letter ∈ registrableDomain env host) : letter ∈ hostnameLetters := by
  rw [registrableDomain, map_lower_of_isHostname isName] at letterMem
  have inHost {name : List Char} (within : ∀ letter ∈ name, letter ∈ host)
      (inName : letter ∈ name ∨ letter = '.') : letter ∈ hostnameLetters := by
    rcases inName with inName | rfl
    · exact mem_hostnameLetters isName (within letter inName)
    · decide
  have undotted : ∀ letter ∈ ((host.dropWhile (· == '.')).reverse.dropWhile (· == '.')).reverse,
      letter ∈ host := by
    intro letter letterMem
    have inner := (List.dropWhile_suffix _).subset (List.mem_reverse.mp letterMem)
    exact (List.dropWhile_suffix _).subset (List.mem_reverse.mp inner)
  split_ifs at letterMem
  · rw [List.intercalate_splitOn] at letterMem
    exact inHost undotted (.inl letterMem)
  · exact inHost undotted (mem_of_mem_intercalate_drop letterMem)
  · exact inHost undotted (mem_of_mem_intercalate_drop letterMem)

theorem not_wildcard_of_plain (plain : ∀ letter ∈ entry, letter.toNat < 128 ∧ letter ≠ '*') :
    ¬"*.".toList <+: kept env entry := by
  rintro ⟨rest, isWild⟩
  have starMem : '*' ∈ kept env entry := by
    rw [← isWild]
    exact List.mem_cons_self
  have kept_suffix : ∀ count text, (trimPrefix "www.".toList)^[count] text <:+ text := by
    intro count
    induction count with
    | zero =>
      intro text
      exact List.suffix_rfl
    | succ count ih =>
      intro text
      exact (ih _).trans (trimPrefix_suffix _ text)
  have inLower := (kept_suffix _ _).subset starMem
  rw [env.toLowercase_ascii entry fun letter letterMem => (plain letter letterMem).1] at inLower
  rcases List.mem_map.mp inLower with ⟨letter, letterMem, isStar⟩
  rcases toLower_cases letter with ⟨isUpper, -, moved⟩ | same
  · rw [isStar] at moved
    have : '*'.toNat = 42 := rfl
    omega
  · exact (plain letter letterMem).2 (same.symm.trans isStar)

theorem registrableDomain_not_wildcard (isName : isHostname host = true) :
    ¬"*.".toList <+: kept env (registrableDomain env host) := by
  apply not_wildcard_of_plain
  intro letter letterMem
  have plain := plain_of_mem_hostnameLetters letter (mem_registrableDomain isName letterMem)
  exact ⟨plain.1, plain.2.2.2⟩

structure IsClassified (env : Primitives) (catalogue : Catalogue) (row : MITMRefusal) : Prop where
  isHostname : isHostname row.host = true
  length_le : row.host.length ≤ 253
  domain : row.domain = registrableDomain env row.host
  dlpRelevant : row.dlpRelevant = dlpRelevant env catalogue row.host

def Report.IsValid (env : Primitives) (report : Report) : Prop :=
  (report.stored env).length ≤ 253 ∧ isHostname (report.stored env) = true

theorem reportMITMRefusal_of_valid (valid : report.IsValid env) :
    (reportMITMRefusal env catalogue refusals report).2 =
      upsert refusals (report.refusal env catalogue) := by
  rw [reportMITMRefusal, if_neg]
  rw [not_or, not_lt, Bool.not_eq_false]
  exact valid

theorem reportMITMRefusal_of_invalid (invalid : ¬report.IsValid env) :
    (reportMITMRefusal env catalogue refusals report).2 = refusals := by
  rw [reportMITMRefusal, if_pos]
  rwa [Report.IsValid, not_and_or, not_le, Bool.not_eq_true] at invalid

theorem isClassified_report (classified : ∀ row ∈ refusals, IsClassified env catalogue row)
    (report : Report) :
    ∀ row ∈ (reportMITMRefusal env catalogue refusals report).2,
      IsClassified env catalogue row := by
  by_cases valid : report.IsValid env
  · rw [reportMITMRefusal_of_valid valid, upsert]
    have isNew : IsClassified env catalogue (report.refusal env catalogue) := by
      rw [Report.refusal]
      constructor
      · exact valid.2
      · exact valid.1
      · dsimp only
      · dsimp only
        rw [dlpRelevant]
    dsimp only
    split_ifs with present
    · intro row rowMem
      rcases List.mem_map.mp rowMem with ⟨earlier, earlierMem, rfl⟩
      have old := classified earlier earlierMem
      split_ifs with isRow
      · have sameHost := (of_decide_eq_true isRow).2.2
        refine ⟨old.isHostname, old.length_le, old.domain, ?_⟩
        dsimp only
        rw [isNew.dlpRelevant, sameHost]
      · exact old
    · intro row rowMem
      rcases List.mem_append.mp rowMem with rowMem | isRow
      · exact classified row rowMem
      · rw [List.mem_singleton.mp isRow]
        exact isNew
  · rw [reportMITMRefusal_of_invalid valid]
    exact classified

theorem isClassified_receive (env : Primitives) (catalogue : Catalogue) (reports : List Report) :
    ∀ row ∈ receive env catalogue reports, IsClassified env catalogue row := by
  have run : ∀ (reports : List Report) (refusals : List MITMRefusal),
      (∀ row ∈ refusals, IsClassified env catalogue row) →
        ∀ row ∈ reports.foldl (fun refusals report =>
          (reportMITMRefusal env catalogue refusals report).2) refusals,
            IsClassified env catalogue row := by
    intro reports
    induction reports with
    | nil =>
      intro refusals classified
      exact classified
    | cons report reports ih =>
      intro refusals classified
      exact ih _ (isClassified_report classified report)
  exact run reports [] fun row rowMem => (by cases rowMem)

theorem row_of_learned (learned : domain ∈ learnedBypassDomains refusals orgID now) :
    ∃ row ∈ refusals, row.dlpRelevant = false ∧ row.domain = domain := by
  rw [learnedBypassDomains] at learned
  rcases List.mem_map.mp (List.mem_of_mem_take learned) with ⟨group, groupMem, rfl⟩
  rw [List.mem_mergeSort, List.mem_filter] at groupMem
  rcases List.mem_map.mp groupMem.1 with ⟨name, nameMem, rfl⟩
  rcases List.mem_map.mp (List.mem_dedup.mp nameMem) with ⟨row, rowMem, isName⟩
  rcases List.mem_filter.mp rowMem with ⟨rowMem, isRecent⟩
  exact ⟨row, rowMem, (of_decide_eq_true isRecent).1, isName⟩

/-- Two devices report a host with a `www.` in front. -/
def fromDevice (host : List Char) (deviceID : UUID) : Report where
  orgID := ⟨1⟩
  deviceID := deviceID
  host := "www.".toList ++ host
  now := 0

theorem stored_fromDevice (isName : isHostname host = true) (deviceID : UUID) :
    (fromDevice host deviceID).stored env = host := by
  have wwwLetters : ∀ letter ∈ "www.".toList, letter ∈ hostnameLetters :=
    forall_mem_of_all (by decide)
  have letters : ∀ letter ∈ "www.".toList ++ host, letter ∈ hostnameLetters := by
    intro letter letterMem
    rcases List.mem_append.mp letterMem with inWww | inHost
    · exact wwwLetters letter inWww
    · exact mem_hostnameLetters isName inHost
  have fixed : ("www.".toList ++ host).map env.lower = "www.".toList ++ host := by
    have same : ∀ letter ∈ "www.".toList ++ host, env.lower letter = letter := by
      intro letter letterMem
      rcases plain_of_mem_hostnameLetters letter (letters letter letterMem) with ⟨ascii, isLower, -⟩
      rw [env.lower_ascii letter ascii, isLower]
    rw [List.map_congr_left same, List.map_id']
  have noSpace : trimSpace ("www.".toList ++ host) = "www.".toList ++ host := by
    apply trimSpace_eq_self
    intro letter letterMem
    exact (plain_of_mem_hostnameLetters letter (letters letter letterMem)).2.2.1
  rw [Report.stored, fromDevice]
  dsimp only
  rw [noSpace, fixed, trimPrefix_append]

theorem learned_of_two (isName : isHostname host = true) (short : host.length ≤ 253)
    (unneeded : dlpRelevant env catalogue host = false) :
    registrableDomain env host ∈ learnedBypassDomains (receive env catalogue
      [fromDevice host ⟨1⟩, fromDevice host ⟨2⟩]) ⟨1⟩ 0 := by
  have valid (deviceID : UUID) : (fromDevice host deviceID).IsValid env := by
    rw [Report.IsValid, stored_fromDevice isName]
    exact ⟨short, isName⟩
  have isRow (deviceID : UUID) : (fromDevice host deviceID).refusal env catalogue =
      { orgID := ⟨1⟩, deviceID := deviceID, host := host, domain := registrableDomain env host
        dlpRelevant := false
        categorised := (mitmLearning env catalogue host
          (registrableDomain env host)).categorised
        count := 1, firstSeen := 0, lastSeen := 0 } := by
    rw [Report.refusal, stored_fromDevice isName]
    rw [dlpRelevant] at unneeded
    rw [unneeded]
    rfl
  rw [receive, List.foldl_cons, List.foldl_cons, List.foldl_nil,
    reportMITMRefusal_of_valid (valid _), reportMITMRefusal_of_valid (valid _), isRow, isRow]
  simp [upsert, learnedBypassDomains, isEnough, learnedBypassTTL, learnedMinDevices,
    maxLearnedPerOrgServed]

theorem learned_iff :
    (∀ reports orgID now,
      ∀ domain ∈ learnedBypassDomains (receive env catalogue reports) orgID now, ∀ host,
        IsProtected env catalogue (folded env host) →
          (MitmState.load env true true [domain]).bypasses (folded env host) = false) ↔
      PlatformsApart env catalogue := by
  constructor
  · intro safe reported isName short unneeded host isProtected under
    have passed := safe [fromDevice reported ⟨1⟩, fromDevice reported ⟨2⟩] ⟨1⟩ 0 _
      (learned_of_two isName short unneeded) host isProtected
    rw [bypasses_load_iff.mpr (.inl under)] at passed
    cases passed
  · intro apart reports orgID now domain learned host isProtected
    rcases row_of_learned learned with ⟨row, rowMem, unneeded, rfl⟩
    have classified := isClassified_receive env catalogue reports row rowMem
    rw [classified.dlpRelevant] at unneeded
    rw [classified.domain, ← Bool.not_eq_true, bypasses_load_iff]
    rintro (under | ⟨suffix, isWild, -⟩)
    · exact apart row.host classified.isHostname classified.length_le unneeded host isProtected under
    · apply registrableDomain_not_wildcard classified.isHostname
      rw [isWild]
      exact List.prefix_append _ _

theorem default_not_wildcard (entryMem : entry ∈ defaultMITMBypassDomains) :
    ¬"*.".toList <+: kept env entry := by
  apply not_wildcard_of_plain
  have all : defaultMITMBypassDomains.all (fun entry => entry.all fun letter =>
      decide (letter.toNat < 128 ∧ letter ≠ '*')) = true := by decide +kernel
  exact forall_mem_of_all (List.all_eq_true.mp all entry entryMem)

theorem suffixes_iff :
    (∀ reports orgID now,
      ∀ entry ∈ bypassDomains env catalogue entered (receive env catalogue reports)
        orgID now, ∀ name, (MitmState.load env true true [entry]).bypasses name = true ↔
          Under '.' name (suffixHost (kept env entry))) ↔
      NoWildcards env catalogue entered := by
  constructor
  · intro exactly entry entryMem
    apply not_wildcard_of_exact
    apply exactly [] ⟨1⟩ 0 entry
    rw [bypassDomains, List.append_assoc defaultMITMBypassDomains]
    exact List.mem_append_left _ (List.mem_append_right _ entryMem)
  · intro plain reports orgID now entry entryMem name
    apply exact_of_not_wildcard
    rw [bypassDomains, List.append_assoc defaultMITMBypassDomains] at entryMem
    rcases List.mem_append.mp entryMem with settled | learned
    · rcases List.mem_append.mp settled with isDefault | isEntered
      · exact default_not_wildcard isDefault
      · exact plain entry isEntered
    · rcases row_of_learned learned with ⟨row, rowMem, -, rfl⟩
      have classified := isClassified_receive env catalogue reports row rowMem
      rw [classified.domain]
      exact registrableDomain_not_wildcard classified.isHostname

/-- No hole is opened if platforms are apart and nobody names a wildcard. -/
theorem opensNoHole_iff : OpensNoHole env catalogue entered ↔
    PlatformsApart env catalogue ∧ NoWildcards env catalogue entered := by
  rw [← learned_iff, ← suffixes_iff]
  constructor
  · intro opens
    exact ⟨opens.learned, opens.suffixes⟩
  · rintro ⟨learned, suffixes⟩
    exact ⟨learned, suffixes⟩

def copilot : AppControl.ManagedApplication where
  orgID := none
  domains := ["copilot-proxy.githubusercontent.com", "api.githubcopilot.com",
    "copilot.microsoft.com"].map String.toList
  id := ⟨1⟩
  name := "GitHub Copilot"
  category := "ai_tools"
  processNames := ["copilot-language-server", "copilot-agent"]
  bundleIDs := []
  pathPatterns := ["copilot"]

/-- Two reports of `githubcopilot.com` pass `api.githubcopilot.com` through. -/
theorem not_alwaysOpensNoHole : ¬∀ env catalogue entered,
    OpensNoHole env catalogue entered := by
  intro always
  have safe := (always .ascii ⟨[], [], [copilot]⟩ []).learned
    [fromDevice "githubcopilot.com".toList ⟨1⟩, fromDevice "githubcopilot.com".toList ⟨2⟩] ⟨1⟩ 0 _
    (learned_of_two (by decide +kernel) (by decide +kernel) (by decide +kernel)) "api.githubcopilot.com".toList
    ⟨by decide +kernel, by decide +kernel⟩
  have passed : (MitmState.load .ascii true true
      [registrableDomain .ascii "githubcopilot.com".toList]).bypasses
        (folded .ascii "api.githubcopilot.com".toList) = true := by decide +kernel
  rw [passed] at safe
  cases safe

end Aavishield.MitmLearning
