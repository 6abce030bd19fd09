import Aavishield.Agent.Packages
import Aavishield.Lib.TransitionSystem

/-!
# Publishing for one platform

Whoever publishes or rolls back changes the entry of one platform: the others are pinned to the
version they had before the single version moves, and no file but the uploaded one is written.
-/

namespace Aavishield.AgentPackages

open Text TransitionSystem

@[simp]
theorem get_set_self (entries : Entries) (key value : List Char) :
    (entries.set key value).get key = value := by
  have absent : (entries.filter (fun entry => entry.1 ≠ key)).lookup key = none := by
    apply List.lookup_eq_none_iff.mpr
    intro entry mem
    have other := (List.mem_filter.mp mem).2
    simp only [ne_eq, decide_not, Bool.not_eq_true', decide_eq_false_iff_not] at other
    simpa using Ne.symm other
  rw [Entries.get, Entries.set, List.lookup_append, absent]
  simp

theorem get_set_of_ne (entries : Entries) {key other : List Char} (differs : other ≠ key)
    (value : List Char) : (entries.set key value).get other = entries.get other := by
  have kept : (entries.filter (fun entry => entry.1 ≠ key)).lookup other =
      entries.lookup other := by
    induction entries with
    | nil => rfl
    | cons entry rest ih =>
      obtain ⟨name, given⟩ := entry
      by_cases same : name = key
      · have unlike : (other == name) = false := by simpa [same] using differs
        rw [List.filter_cons_of_neg (by simpa using same), ih, List.lookup_cons, unlike]
      · rw [List.filter_cons_of_pos (by simpa using same), List.lookup_cons, List.lookup_cons, ih]
  have last : List.lookup other [(key, value)] = none := by
    have unlike : (other == key) = false := by simpa using differs
    simp [List.lookup_cons, unlike]
  rw [Entries.get, Entries.set, List.lookup_append, kept, last, Option.or_none, Entries.get]

theorem mem_of_get_ne_nil {entries : Entries} {key : List Char} (given : entries.get key ≠ []) :
    ∃ entry ∈ entries, entry.1 = key := by
  by_contra absent
  apply given
  have none : entries.lookup key = none := by
    apply List.lookup_eq_none_iff.mpr
    intro entry mem
    have unlike : entry.1 ≠ key := fun same => absent ⟨entry, mem, same⟩
    simpa using Ne.symm unlike
  rw [Entries.get, none, Option.getD_none]

theorem mem_set (entries : Entries) (key value : List Char) : (key, value) ∈ entries.set key value := by
  simp [Entries.set]

theorem versionLess_nil (version : List Char) : versionLess version [] = false := by
  have none : segments [] = [none] := by decide
  have some : (trimPrefix ['v'] version).splitOn '.' ≠ [] := List.splitOn_ne_nil _ _
  obtain ⟨piece, pieces, split⟩ := List.exists_cons_of_ne_nil some
  have front : segments version = atoi (piece.takeWhile (· ≠ '-')) ::
      pieces.map fun piece => atoi (piece.takeWhile (· ≠ '-')) := by
    rw [segments, split, List.map_cons]
  rw [versionLess, none, front]
  simp [lessSegments]

theorem highest_ne_nil {versions : Entries} {entry : List Char × List Char}
    (mem : entry ∈ versions) (given : entry.2 ≠ []) : PackageManifest.highest versions ≠ [] := by
  let next (highest : List Char) (entry : List Char × List Char) : List Char :=
    if highest = [] ∨ versionLess highest entry.2 then entry.2 else highest
  have kept : ∀ entry highest, highest ≠ [] → next highest entry ≠ [] := by
    intro entry highest some
    by_cases less : highest = [] ∨ versionLess highest entry.2
    · simp only [next, if_pos less]
      intro none
      rcases less with empty | less
      · exact some empty
      · simp [none, versionLess_nil] at less
    · simpa only [next, if_neg less] using some
  have keptAll : ∀ (rest : Entries) highest, highest ≠ [] → rest.foldl next highest ≠ [] := by
    intro rest
    induction rest with
    | nil => exact fun _ some => some
    | cons entry rest ih => exact fun highest some => ih _ (kept entry highest some)
  have taken : ∀ highest, next highest entry ≠ [] := by
    intro highest
    by_cases empty : highest = []
    · simpa [next, empty] using given
    · exact kept entry highest empty
  obtain ⟨before, after, rfl⟩ := List.append_of_mem mem
  rw [PackageManifest.highest, List.foldl_append, List.foldl_cons]
  exact keptAll after _ (taken _)

namespace PackageManifest

variable {Content : Type} (go : Go Content) (m : PackageManifest)

theorem get_pinned (key : List Char) :
    (m.pinned go).get key =
      if m.versions.get key = [] ∧ (∃ entry ∈ m.artifacts, entry.1 = key) ∧ m.version ≠ [] then
        m.version
      else m.versions.get key := by
  have loop : ∀ (artifacts versions : Entries),
      Entries.get (artifacts.foldl (fun versions entry =>
        if versions.get entry.1 = [] ∧ m.version ≠ [] then versions.set entry.1 m.version
        else versions) versions) key =
      if versions.get key = [] ∧ (∃ entry ∈ artifacts, entry.1 = key) ∧ m.version ≠ [] then
        m.version
      else versions.get key := by
    intro artifacts
    induction artifacts with
    | nil => simp
    | cons entry rest ih =>
      intro versions
      have split : (∃ other ∈ entry :: rest, other.1 = key) ↔
          entry.1 = key ∨ ∃ other ∈ rest, other.1 = key := by simp
      rw [List.foldl_cons, ih]
      simp only [split]
      by_cases same : entry.1 = key
      · subst same
        by_cases riding : versions.get entry.1 = [] ∧ m.version ≠ []
        · simp [riding]
        · rw [if_neg riding, if_neg (by tauto), if_neg (by tauto)]
      · have unset : Entries.get
            (if versions.get entry.1 = [] ∧ m.version ≠ [] then versions.set entry.1 m.version
            else versions) key = versions.get key := by
          split_ifs
          · exact get_set_of_ne _ (Ne.symm same) _
          · rfl
        simp only [unset, same, false_or]
  rw [pinned, loop]
  simp only [(go.range_perm m.artifacts).mem_iff]

variable {m}

theorem Agree.versionFor {other : PackageManifest} (agree : m.Agree other) (platform : List Char) :
    m.versionFor platform = other.versionFor platform := by
  simp only [PackageManifest.versionFor, agree.1, agree.2.1, agree.2.2]

variable {platform version filename : List Char}

theorem version_setPlatform (given : version ≠ []) :
    (m.setPlatform go platform version filename).version ≠ [] := by
  have listed := mem_set (m.pinned go) platform version
  exact highest_ne_nil ((go.range_perm _).mem_iff.mpr listed) given

theorem versionFor_setPlatform_self (named : filename ≠ []) (given : version ≠ []) :
    (m.setPlatform go platform version filename).versionFor platform = version := by
  simp [versionFor, setPlatform, named, given]

theorem versionFor_setPlatform_of_ne {other : List Char} (differs : other ≠ platform)
    (versioned : m.version ≠ [] ∨ m.artifacts.get other = []) :
    (m.setPlatform go platform version filename).versionFor other = m.versionFor other := by
  have artifact : (m.setPlatform go platform version filename).artifacts.get other =
      m.artifacts.get other := get_set_of_ne _ differs _
  have own : (m.setPlatform go platform version filename).versions.get other =
      (m.pinned go).get other := get_set_of_ne _ differs _
  by_cases published : m.artifacts.get other = []
  · simp [versionFor, artifact, published]
  · have some := versioned.resolve_right published
    have listed := mem_of_get_ne_nil published
    rw [versionFor, versionFor, artifact, own, get_pinned, if_neg published, if_neg published]
    by_cases riding : m.versions.get other = []
    · simp [riding, listed, some]
    · simp [riding]

end PackageManifest

variable {Content : Type} (go : Go Content)

/-- The manifest is written whole or not at all. -/
def Op.Untorn : Op Content → Prop
  | .publish _ _ _ _ _ writing => ∀ left, writing ≠ .torn left
  | .rollback _ _ writing => ∀ left, writing ≠ .torn left

def store (folder : Folder Content) (name : List Char) (content : Content) : Folder Content :=
  Function.update folder name (some (.file content))

def pointed (folder : Folder Content) (platform version name : List Char) : Folder Content :=
  store folder manifestName
    (go.marshal ((readManifest go folder).1.setPlatform go platform version name))

/-- What an operation leaves if the manifest is not torn, and whether it is accepted. -/
inductive Effect (folder : Folder Content) : Op Content → Folder Content → Bool → Prop
  | nothing (op) : Effect folder op folder false
  | saved (platform version name content saving writing left) :
      Effect folder (.publish platform version name content saving writing)
        (store folder name left) false
  | published (platform version name content saving writing)
      (versioned : version ≠ []) (isName : isFilename name = true) (isFile : folder.at name ≠ some .directory) :
      Effect folder (.publish platform version name content saving writing)
        (pointed go (store folder name content) platform version name) true
  | rolledBack (platform version name writing)
      (isName : isFilename name = true)
      (named : filenamePlatformVersion name = some (platform, version))
      (isThere : folder.at name ≠ none) :
      Effect folder (.rollback platform name writing) (pointed go folder platform version name) true

theorem write_cases (folder : Folder Content) (name : List Char) (content : Content)
    (writing : Writing Content) :
    folder.write name content writing = (folder, false) ∨
      (∃ left, writing = .torn left ∧
        folder.write name content writing = (store folder name left, false)) ∨
      folder.at name ≠ some .directory ∧
        folder.write name content writing = (store folder name content, true) := by
  unfold Folder.write
  split
  · exact Or.inl rfl
  · rename_i isFile
    cases writing with
    | done => exact Or.inr (Or.inr ⟨isFile, rfl⟩)
    | refused => exact Or.inl rfl
    | torn left => exact Or.inr (Or.inl ⟨left, rfl, rfl⟩)

theorem write_untorn (folder : Folder Content) (name : List Char) (content : Content)
    {writing : Writing Content} (untorn : ∀ left, writing ≠ .torn left) :
    folder.write name content writing = (folder, false) ∨
      folder.write name content writing = (store folder name content, true) := by
  rcases write_cases folder name content writing with refused | ⟨left, torn, -⟩ | ⟨-, done⟩
  · exact Or.inl refused
  · exact absurd torn (untorn left)
  · exact Or.inr done

variable {folder : Folder Content}

theorem effect_of_publish {platform version name : List Char}
    {content : Content} {saving writing : Writing Content}
    (versioned : version ≠ []) (isName : isFilename name = true)
    (untorn : ∀ left, writing ≠ .torn left) :
    let result := publishPackageFile go folder platform version name content saving writing
    Effect go folder (.publish platform version name content saving writing) result.1
      result.2.isOk := by
  simp only [publishPackageFile]
  rcases write_cases folder name content saving with refused | ⟨left, -, torn⟩ | ⟨isFile, done⟩
  · rw [refused]
    exact .nothing _
  · rw [torn]
    exact .saved _ _ _ _ _ _ left
  · rw [done]
    simp only [writeManifest]
    rcases write_untorn (store folder name content) manifestName _ untorn with refused | written
    · rw [refused]
      exact .saved _ _ _ _ _ _ content
    · rw [written]
      exact .published _ _ _ _ _ _ versioned isName isFile

variable {op : Op Content}

theorem effect_of_perform (untorn : op.Untorn) :
    Effect go folder op (perform go folder op).1 (perform go folder op).2.isOk := by
  cases op with
  | publish platform version name content saving writing =>
    simp only [perform, upload]
    by_cases foreign : platform ∉ validPlatforms
    · rw [if_pos foreign]
      exact .nothing _
    rw [if_neg foreign]
    by_cases unversioned : version = []
    · rw [if_pos unversioned]
      exact .nothing _
    rw [if_neg unversioned]
    cases isName : isFilename name with
    | false => exact .nothing _
    | true => exact effect_of_publish go unversioned isName untorn
  | rollback platform name writing =>
    simp only [perform, rollback]
    by_cases foreign : platform ∉ validPlatforms
    · rw [if_pos foreign]
      exact .nothing _
    rw [if_neg foreign]
    cases isName : isFilename name with
    | false => exact .nothing _
    | true =>
      simp only [Bool.not_true, Bool.false_eq_true, if_false]
      split
      · exact .nothing _
      · rename_i ofName version named
        by_cases other : ofName ≠ platform
        · rw [if_pos other]
          exact .nothing _
        rw [if_neg other]
        obtain rfl := not_not.mp other
        by_cases missing : (folder.at name).isNone = true
        · rw [if_pos missing]
          exact .nothing _
        rw [if_neg missing]
        rcases write_untorn folder manifestName _ untorn with refused | written
        · rw [writeManifest, refused]
          exact .nothing _
        · rw [writeManifest, written]
          exact .rolledBack _ _ _ _ isName named (by simpa using missing)

variable {platform other version name : List Char}

theorem readManifest_store (elsewhere : name ≠ manifestName) (content : Content) :
    readManifest go (store folder name content) = readManifest go folder := by
  simp only [readManifest, store, Function.update_of_ne (Ne.symm elsewhere)]

variable (folder platform version name) in
theorem readManifest_pointed :
    (readManifest go (pointed go folder platform version name)).1.Agree
        ((readManifest go folder).1.setPlatform go platform version name) ∧
      (readManifest go (pointed go folder platform version name)).2 = true := by
  have written : pointed go folder platform version name manifestName = some (.file (go.marshal
      ((readManifest go folder).1.setPlatform go platform version name))) := by
    rw [pointed, store, Function.update_self]
  rw [readManifest, written]
  exact go.unmarshal_marshal _

theorem entry_pointed_self (named : name ≠ []) (versioned : version ≠ []) :
    entry go (pointed go folder platform version name) platform = (name, version) := by
  obtain ⟨agree, -⟩ := readManifest_pointed go folder platform version name
  rw [entry, agree.2.2, agree.versionFor,
    PackageManifest.versionFor_setPlatform_self go named versioned]
  simp [PackageManifest.setPlatform]

theorem artifact_pointed_of_ne (differs : other ≠ platform) :
    (entry go (pointed go folder platform version name) other).1 = (entry go folder other).1 := by
  obtain ⟨agree, -⟩ := readManifest_pointed go folder platform version name
  rw [entry, agree.2.2]
  exact get_set_of_ne _ differs _

theorem entry_pointed_of_ne (differs : other ≠ platform)
    (versioned : (readManifest go folder).1.version ≠ [] ∨ (entry go folder other).1 = []) :
    entry go (pointed go folder platform version name) other = entry go folder other := by
  obtain ⟨agree, -⟩ := readManifest_pointed go folder platform version name
  apply Prod.ext
  · exact artifact_pointed_of_ne go differs
  · rw [entry, agree.versionFor,
      PackageManifest.versionFor_setPlatform_of_ne go differs versioned, entry]

/-- A folder of packages whose manifest can be read and goes on to be read. -/
structure Sound (folder : Folder Content) : Prop where
  flat : ∀ name, folder name ≠ some .directory
  read : folder manifestName = none ∨ (readManifest go folder).2 = true
  versioned : (readManifest go folder).1.version ≠ [] ∨ ∀ platform, (entry go folder platform).1 = []
  apart : ∀ platform, (entry go folder platform).1 ≠ manifestName

def Op.Apart (folder : Folder Content) : Op Content → Prop
  | .publish platform _ name _ _ _ =>
    name ≠ manifestName ∧ ∀ other, other ≠ platform → (entry go folder other).1 ≠ name
  | .rollback _ _ _ => True

/-- The file and the version that an operation asks for. -/
def Op.asked : Op Content → Option (List Char × List Char)
  | .publish _ version name _ _ _ => some (name, version)
  | .rollback _ name _ => (filenamePlatformVersion name).map fun named => (name, named.2)

theorem filenamePlatformVersion_manifestName : filenamePlatformVersion manifestName = none := by
  decide

theorem ne_manifestName_of_named {named : List Char × List Char}
    (isNamed : filenamePlatformVersion name = some named) : name ≠ manifestName := by
  rintro rfl
  rw [filenamePlatformVersion_manifestName] at isNamed
  cases isNamed

theorem ne_nil_of_isFilename (isName : isFilename name = true) : name ≠ [] := by
  rintro rfl
  simp [isFilename] at isName

theorem ne_nil_of_between {before after middle : List Char}
    (found : between before after name = some middle) : middle ≠ [] := by
  unfold between at found
  split at found
  · simp only at found
    split at found
    · rename_i valid
      obtain rfl := Option.some.inj found
      exact valid.1
    · cases found
  · cases found

theorem ne_nil_of_captured {ending middle : List Char} (found : captured ending name = some middle) :
    middle ≠ [] := by
  rcases Option.or_eq_some_iff.mp found with old | ⟨-, new⟩
  · exact ne_nil_of_between old
  · exact ne_nil_of_between new

theorem ne_nil_of_named (isNamed : filenamePlatformVersion name = some (platform, version)) :
    version ≠ [] := by
  simp only [filenamePlatformVersion, Option.or_eq_some_iff, Option.map_eq_some_iff,
    Prod.mk.injEq] at isNamed
  rcases isNamed with ⟨found, captured, -, rfl⟩ | ⟨-, ⟨found, captured, -, rfl⟩ | ⟨-, linux⟩⟩
  · exact ne_nil_of_captured captured
  · exact ne_nil_of_captured captured
  · obtain ⟨found, captured | ⟨-, captured⟩, -, rfl⟩ := linux
    · exact ne_nil_of_captured captured
    · exact ne_nil_of_captured captured

theorem Sound.store (sound : Sound go folder)
    (elsewhere : name ≠ manifestName) (content : Content) : Sound go (store folder name content) := by
  have same := @readManifest_store _ go folder _ elsewhere content
  have entries : ∀ platform, entry go (AgentPackages.store folder name content) platform =
      entry go folder platform := by
    intro platform
    simp only [entry, same]
  constructor
  · intro other
    by_cases same : other = name
    · subst same
      simp [AgentPackages.store]
    · rw [AgentPackages.store, Function.update_of_ne same]
      exact sound.flat other
  · rw [same, AgentPackages.store, Function.update_of_ne (Ne.symm elsewhere)]
    exact sound.read
  · simpa only [same, entries] using sound.versioned
  · simpa only [entries] using sound.apart

theorem Sound.pointed (sound : Sound go folder)
    (named : name ≠ []) (versioned : version ≠ []) (elsewhere : name ≠ manifestName) :
    Sound go (pointed go folder platform version name) := by
  obtain ⟨agree, read⟩ := readManifest_pointed go folder platform version name
  constructor
  · intro other
    by_cases same : other = manifestName
    · subst same
      simp [AgentPackages.pointed, AgentPackages.store]
    · rw [AgentPackages.pointed, AgentPackages.store, Function.update_of_ne same]
      exact sound.flat other
  · exact Or.inr read
  · left
    rw [agree.1]
    exact PackageManifest.version_setPlatform go versioned
  · intro other
    by_cases same : other = platform
    · subst same
      rw [entry_pointed_self go named versioned]
      exact elsewhere
    · rw [artifact_pointed_of_ne go same]
      exact sound.apart other

def packageOf (folder : Folder Content) (entry : List Char × List Char) : Option (Package Content) :=
  if entry.1 = [] ∨ entry.1 ≠ base entry.1 then none
  else
    match folder.at entry.1 with
    | some (.file content) => some { version := entry.2, name := entry.1, content }
    | _ => none

theorem Sound.agentVersion_eq (sound : Sound go folder) (platform : List Char) :
    agentVersion go folder platform = packageOf folder (entry go folder platform) := by
  have bare : (entry go folder platform).1 = [] → packageOf folder (entry go folder platform) = none :=
    fun none => if_pos (Or.inl none)
  unfold agentVersion
  by_cases unread : (readManifest go folder).2 = false
  · have missing := sound.read.resolve_right (by simp [unread])
    have empty : readManifest go folder = ({}, false) := by rw [readManifest, missing]
    rw [bare (by rw [entry, empty]; rfl), empty]
    simp
  · rcases sound.versioned with versioned | none
    · have isRead : (readManifest go folder).2 = true := by simpa using unread
      simp only [isRead, versioned, packageOf, entry, Bool.not_true, Bool.false_eq_true, false_or]
      rfl
    · have given : (readManifest go folder).1.artifacts.get platform = [] := none platform
      rw [bare (none platform)]
      simp [given]

/-- Nothing that a platform is served has changed. -/
structure Unmoved (before after : Folder Content) (platform : List Char) : Prop where
  entry : entry go after platform = entry go before platform
  agentVersion : agentVersion go after platform = agentVersion go before platform

theorem packageOf_store (content : Content) {shown : List Char × List Char}
    (differs : shown.1 ≠ name) : packageOf (store folder name content) shown = packageOf folder shown := by
  have same : (store folder name content).at shown.1 = folder.at shown.1 := by
    simp only [Folder.at, store, Function.update_of_ne differs]
  simp only [packageOf, same]

variable {after : Folder Content}

theorem unmoved_of_entry (sound : Sound go folder)
    (soundAfter : Sound go after) (same : entry go after platform = entry go folder platform)
    (package : packageOf after (entry go folder platform) =
      packageOf folder (entry go folder platform)) : Unmoved go folder after platform := by
  refine ⟨same, ?_⟩
  rw [soundAfter.agentVersion_eq, sound.agentVersion_eq, same, package]

theorem entry_store (elsewhere : name ≠ manifestName) (content : Content) (platform : List Char) :
    entry go (store folder name content) platform = entry go folder platform := by
  simp only [entry, readManifest_store go elsewhere]

theorem Sound.versionedFor (sound : Sound go folder) (platform : List Char) :
    (readManifest go folder).1.version ≠ [] ∨ (entry go folder platform).1 = [] :=
  sound.versioned.imp_right fun none => none platform

theorem unmoved_pointed (sound : Sound go folder) (soundAfter : Sound go
    (pointed go folder platform version name)) (differs : other ≠ platform) :
    Unmoved go folder (pointed go folder platform version name) other := by
  apply unmoved_of_entry go sound soundAfter
  · exact entry_pointed_of_ne go differs (sound.versionedFor go other)
  · exact packageOf_store _ (sound.apart other)

theorem unmoved_store (sound : Sound go folder) (elsewhere : name ≠ manifestName)
    (free : (entry go folder other).1 ≠ name) (content : Content) :
    Unmoved go folder (store folder name content) other := by
  apply unmoved_of_entry go sound (sound.store go elsewhere content)
  · exact entry_store go elsewhere content other
  · exact packageOf_store content free

theorem Unmoved.trans {first second third : Folder Content} (earlier : Unmoved go first second platform)
    (later : Unmoved go second third platform) : Unmoved go first third platform :=
  ⟨later.entry.trans earlier.entry, later.agentVersion.trans earlier.agentVersion⟩

/-- No manifest is torn, and an upload overwrites nobody else's file. -/
def Clean (folder : Folder Content) (op : Op Content) : Prop := op.Untorn ∧ op.Apart go folder

/-- The file of a platform is in its history under its version. -/
def Listed (folder : Folder Content) (platform : List Char) : Prop :=
  (entry go folder platform).1 ≠ [] →
    InHistory folder platform (entry go folder platform).1 (entry go folder platform).2

/-- An upload's name gives its platform and its version, as the build scripts write it. -/
def Op.Named : Op Content → Prop
  | .publish platform version name _ _ _ =>
    filenamePlatformVersion name = some (platform, version)
  | .rollback _ _ _ => True

variable {accepted : Bool}

theorem sound_of_effect (sound : Sound go folder) (apart : op.Apart go folder)
    (effect : Effect go folder op after accepted) : Sound go after := by
  cases effect with
  | nothing => exact sound
  | saved platform version name content saving writing left => exact sound.store go apart.1 left
  | published platform version name content saving writing versioned isName isFile =>
    have saved := sound.store go apart.1 content
    exact saved.pointed go (ne_nil_of_isFilename isName) versioned apart.1
  | rolledBack platform version name writing isName named isThere =>
    exact sound.pointed go (ne_nil_of_isFilename isName) (ne_nil_of_named named)
      (ne_manifestName_of_named named)

theorem unmoved_of_effect (sound : Sound go folder) (apart : op.Apart go folder)
    (effect : Effect go folder op after accepted) (differs : other ≠ op.platform) :
    Unmoved go folder after other := by
  have soundAfter := sound_of_effect go sound apart effect
  cases effect with
  | nothing => exact ⟨rfl, rfl⟩
  | saved platform version name content saving writing left =>
    exact unmoved_store go sound apart.1 (apart.2 other differs) left
  | published platform version name content saving writing versioned isName isFile =>
    apply (unmoved_store go sound apart.1 (apart.2 other differs) content).trans
    exact unmoved_pointed go (sound.store go apart.1 content) soundAfter differs
  | rolledBack platform version name writing isName named isThere =>
    exact unmoved_pointed go sound soundAfter differs

theorem inHistory_store {shown version : List Char} (listed : InHistory folder platform shown version)
    (content : Content) : InHistory (store folder name content) platform shown version := by
  obtain ⟨kept, isFile, apart, named⟩ := listed
  by_cases same : shown = name
  · subst same
    exact ⟨content, by simp [store], apart, named⟩
  · refine ⟨kept, ?_, apart, named⟩
    rw [store, Function.update_of_ne same]
    exact isFile

theorem listed_pointed (named : filenamePlatformVersion name = some (platform, version))
    (isName : name ≠ []) {content : Content} (isFile : folder name = some (.file content)) :
    Listed go (pointed go folder platform version name) platform := by
  intro _
  rw [entry_pointed_self go isName (ne_nil_of_named named)]
  exact inHistory_store ⟨content, isFile, ne_manifestName_of_named named, named⟩ _

theorem listed_of_entry (listed : Listed go folder platform)
    (same : entry go after platform = entry go folder platform)
    (kept : ∀ shown version, InHistory folder platform shown version →
      InHistory after platform shown version) : Listed go after platform := by
  intro given
  rw [same] at given ⊢
  exact kept _ _ (listed given)

theorem isFile_of_named (sound : Sound go folder)
    (named : filenamePlatformVersion name = some (platform, version))
    (isThere : folder.at name ≠ none) : ∃ content, folder name = some (.file content) := by
  have dot : filenamePlatformVersion ['.'] = none := by decide
  have slash : filenamePlatformVersion ['/'] = none := by decide
  have inside : folder.at name = folder name := by
    rw [Folder.at, if_neg]
    rintro (rfl | rfl)
    · simp [dot] at named
    · simp [slash] at named
  rw [inside] at isThere
  cases stands : folder name with
  | none => exact absurd stands isThere
  | some node =>
    cases node with
    | file content => exact ⟨content, rfl⟩
    | directory => exact absurd stands (sound.flat name)

theorem listed_of_accepted (sound : Sound go folder) (effect : Effect go folder op after true)
    (named : op.Named) : Listed go after op.platform := by
  cases effect with
  | published platform version name content saving writing versioned isName isFile =>
    have isThere : store folder name content name = some (.file content) := by simp [store]
    exact listed_pointed go named (ne_nil_of_isFilename isName) isThere
  | rolledBack platform version name writing isName fileNamed isThere =>
    obtain ⟨content, isFile⟩ := isFile_of_named go sound fileNamed isThere
    exact listed_pointed go fileNamed (ne_nil_of_isFilename isName) isFile

theorem listed_of_effect (sound : Sound go folder) (apart : op.Apart go folder)
    (effect : Effect go folder op after accepted)
    (named : op.platform = other → op.Named) (listed : Listed go folder other) :
    Listed go after other := by
  by_cases differs : other ≠ op.platform
  · have same := (unmoved_of_effect go sound apart effect differs).entry
    apply listed_of_entry go listed same
    intro shown version inHistory
    cases effect with
    | nothing => exact inHistory
    | saved | rolledBack => exact inHistory_store inHistory _
    | published => exact inHistory_store (inHistory_store inHistory _) _
  · obtain rfl := not_not.mp differs
    cases accepted with
    | true => exact listed_of_accepted go sound effect (named rfl)
    | false =>
      cases effect with
      | nothing => exact listed
      | saved platform version name content saving writing left =>
        apply listed_of_entry go listed (entry_store go apart.1 left platform)
        exact fun shown version inHistory => inHistory_store inHistory _

theorem entry_of_accepted
    (effect : Effect go folder op after true) (elsewhere : ∀ asked ∈ op.asked, asked.1 ≠ manifestName) :
    some (entry go after op.platform) = op.asked ∧ (readManifest go after).2 = true ∧
      ∀ other, other ≠ op.platform → (entry go after other).1 = (entry go folder other).1 := by
  cases effect with
  | published platform version name content saving writing versioned isName isFile =>
    have apart : name ≠ manifestName := elsewhere (name, version) rfl
    refine ⟨?_, (readManifest_pointed go ..).2, ?_⟩
    · exact congrArg some (entry_pointed_self go (ne_nil_of_isFilename isName) versioned)
    · intro other differs
      apply (artifact_pointed_of_ne go differs).trans
      rw [entry_store go apart]
  | rolledBack platform version name writing isName named isThere =>
    refine ⟨?_, (readManifest_pointed go ..).2, ?_⟩
    · have asked : Op.asked (.rollback platform name writing : Op Content) =
          some (name, version) := by simp [Op.asked, named]
      rw [asked]
      exact congrArg some
        (entry_pointed_self go (ne_nil_of_isFilename isName) (ne_nil_of_named named))
    · intro other differs
      exact artifact_pointed_of_ne go differs

/-- A refused operation is a step too. -/
def step (folder : Folder Content) (op : Op Content) : Option (Folder Content) :=
  some (perform go folder op).1

/-- The operation is for the platform, and is accepted. -/
def Serves (platform : List Char) (folder : Folder Content) (op : Op Content) : Prop :=
  op.platform = platform ∧ (perform go folder op).2.isOk = true

theorem effect_of_step (clean : Clean go folder op)
    (stepped : step go folder op = some after) : ∃ accepted, Effect go folder op after accepted := by
  obtain rfl := Option.some.inj stepped
  exact ⟨_, effect_of_perform go clean.1⟩

variable {ops : List (Op Content)} {final : Folder Content}

theorem sound_of_run (sound : Sound go folder) (clean : AllSteps (step go) (Clean go) folder ops)
    (ran : exec (step go) folder ops = some final) : Sound go final := by
  apply invariant_of_allSteps _ sound clean ran
  intro folder op after sound clean stepped
  obtain ⟨accepted, effect⟩ := effect_of_step go clean stepped
  exact sound_of_effect go sound clean.2 effect

theorem unmoved_of_run (sound : Sound go folder) (clean : AllSteps (step go) (Clean go) folder ops)
    (ran : exec (step go) folder ops = some final)
    (others : ∀ op ∈ ops, op.platform ≠ platform) : Unmoved go folder final platform := by
  induction ops generalizing folder with
  | nil =>
    obtain rfl := Option.some.inj ran
    exact ⟨rfl, rfl⟩
  | cons op ops ih =>
    obtain ⟨next, stepped, ran⟩ := exec_cons_eq_some.mp ran
    obtain ⟨accepted, effect⟩ := effect_of_step go clean.1 stepped
    have first := unmoved_of_effect go sound clean.1.2 effect (Ne.symm (others op (by simp)))
    apply first.trans
    apply ih (sound_of_effect go sound clean.1.2 effect) (clean.2 next stepped) ran
    exact fun op mem => others op (by simp [mem])

theorem listed_of_run (sound : Sound go folder) (clean : AllSteps (step go) (Clean go) folder ops)
    (ran : exec (step go) folder ops = some final)
    (named : ∀ op ∈ ops, op.platform = platform → op.Named)
    (listed : Listed go folder platform ∨ SomeStep (step go) (Serves go platform) folder ops) :
    Listed go final platform := by
  induction ops generalizing folder with
  | nil =>
    obtain rfl := Option.some.inj ran
    exact listed.resolve_right id
  | cons op ops ih =>
    obtain ⟨next, stepped, ran⟩ := exec_cons_eq_some.mp ran
    obtain ⟨accepted, effect⟩ := effect_of_step go clean.1 stepped
    apply ih (sound_of_effect go sound clean.1.2 effect) (clean.2 next stepped) ran
    · exact fun op mem => named op (by simp [mem])
    · rcases listed with listed | ⟨rfl, done⟩ | ⟨next', stepped', later⟩
      · exact .inl (listed_of_effect go sound clean.1.2 effect (named op (by simp)) listed)
      · obtain rfl := Option.some.inj stepped
        have effect := @effect_of_perform _ go folder _ clean.1.1
        rw [done] at effect
        exact .inl (listed_of_accepted go sound effect (named op (by simp) rfl))
      · obtain rfl := Option.some.inj (stepped.symm.trans stepped')
        exact .inr later

/-- Over a run no other platform is touched, a platform's version stays one of its history, or comes
to be one, and an operation that is accepted gives its platform what it asks for. -/
theorem others_alone {folder final : Folder Content} {ops : List (Op Content)}
    (sound : Sound go folder) (clean : AllSteps (step go) (Clean go) folder ops)
    (ran : exec (step go) folder ops = some final) :
    Sound go final ∧
      (∀ platform, (∀ op ∈ ops, op.platform ≠ platform) → Unmoved go folder final platform) ∧
      (∀ platform, (∀ op ∈ ops, op.platform = platform → op.Named) →
        Listed go folder platform ∨ SomeStep (step go) (Serves go platform) folder ops →
          Listed go final platform) ∧
      ∀ (found : Folder Content) (op : Op Content), op.Untorn →
        (∀ asked ∈ op.asked, asked.1 ≠ manifestName) → (perform go found op).2.isOk = true →
          some (entry go (perform go found op).1 op.platform) = op.asked ∧
            (readManifest go (perform go found op).1).2 = true ∧
              ∀ other, other ≠ op.platform →
                (entry go (perform go found op).1 other).1 = (entry go found other).1 := by
  refine ⟨sound_of_run go sound clean ran, ?_, ?_, ?_⟩
  · intro platform others
    exact unmoved_of_run go sound clean ran others
  · intro platform named listed
    exact listed_of_run go sound clean ran named listed
  · intro found op untorn elsewhere accepted
    have effect := @effect_of_perform _ go found _ untorn
    rw [accepted] at effect
    exact entry_of_accepted go effect elsewhere

inductive Document where
  | manifest (m : PackageManifest)
  | other (text : String)
deriving DecidableEq

def documents : Go Document where
  marshal := .manifest
  unmarshal
    | .manifest m => (m, true)
    | .other _ => ({}, false)
  range := id
  unmarshal_marshal _ := ⟨⟨rfl, fun _ => rfl, fun _ => rfl⟩, rfl⟩
  range_perm := List.Perm.refl

def folderOf (manifest : Document) (files : List (List Char × String)) : Folder Document :=
  fun name =>
    if name = manifestName then some (.file manifest)
    else (files.lookup name).map fun text => .file (.other text)

def macPackage : List Char := "aavishield-agent-1.5.0.pkg".toList

def linuxPackage : List Char := "aavishield-agent-1.5.0-amd64.deb".toList

def legacyFolder : Folder Document :=
  folderOf (.manifest {
      version := "1.5.0".toList
      artifacts := [("macos".toList, macPackage), ("linux".toList, linuxPackage)] })
    [(macPackage, "mac 1.5.0"), (linuxPackage, "amd64 1.5.0")]

def publishing (platform version name : String) : Op Document :=
  .publish platform.toList version.toList name.toList (.other "new") .done .done

theorem get_cases (entries : Entries) (key : List Char) :
    entries.get key = [] ∨ entries.get key ∈ entries.map Prod.snd := by
  cases found : entries.lookup key with
  | none => exact Or.inl (by rw [Entries.get, found, Option.getD_none])
  | some value =>
    right
    obtain ⟨before, after, rfl, -⟩ := List.lookup_eq_some_iff.mp found
    simp [Entries.get, found]

theorem legacyFolder_free {name : List Char} (some : name ≠ [])
    (other : name ∉ [macPackage, linuxPackage]) (platform : List Char) :
    (entry documents legacyFolder platform).1 ≠ name := by
  intro same
  rcases get_cases [("macos".toList, macPackage), ("linux".toList, linuxPackage)] platform with
    none | given
  · exact some (same.symm.trans none)
  · exact other (same ▸ given)

theorem sound_legacyFolder : Sound documents legacyFolder := by
  constructor
  · intro name
    by_cases isManifest : name = manifestName
    · simp [legacyFolder, folderOf, isManifest]
    · simp [legacyFolder, folderOf, isManifest]
  · exact Or.inr (by decide)
  · exact Or.inl (by decide)
  · exact legacyFolder_free (by decide) (by decide)

theorem others_alone_legacy :
    ∃ final, exec (step documents) legacyFolder
        [publishing "windows" "1.6.0" "aavishield-agent-1.6.0.msi",
          .rollback "linux".toList linuxPackage .done] = some final ∧
      Unmoved documents legacyFolder final "macos".toList := by
  have clean : AllSteps (step documents) (Clean documents) legacyFolder
      [publishing "windows" "1.6.0" "aavishield-agent-1.6.0.msi",
        .rollback "linux".toList linuxPackage .done] := by
    refine ⟨⟨by rintro left ⟨⟩, by decide, ?_⟩, fun next _ => ?_⟩
    · exact fun other _ => legacyFolder_free (by decide) (by decide) other
    · exact ⟨⟨by rintro left ⟨⟩, trivial⟩, fun _ _ => trivial⟩
  have alone := others_alone documents sound_legacyFolder clean rfl
  exact ⟨_, rfl, alone.2.1 "macos".toList (by decide)⟩

structure Alone (folder : Folder Content) (op : Op Content) : Prop where
  others : ∀ other, other ≠ op.platform → Unmoved go folder (perform go folder op).1 other
  listed : (perform go folder op).2.isOk = true → Listed go (perform go folder op).1 op.platform
  kept : folder manifestName ≠ none → (readManifest go folder).2 = false →
    (perform go folder op).1 manifestName = folder manifestName

/-- A file takes the name of another platform's; a manifest that is cut short is started afresh; a
platform without a version gets another's; a version is in no file's name; and a package for one
architecture takes the place of another's. -/
theorem not_alone :
    ¬Alone documents legacyFolder (publishing "windows" "1.6.0" "aavishield-agent-1.5.0.pkg") ∧
    ¬Alone documents (folderOf (.other "\x7b\"version\": \"1.5") [(macPackage, "mac 1.5.0")])
      (publishing "windows" "1.6.0" "aavishield-agent-1.6.0.msi") ∧
    ¬Alone documents
      (folderOf (.manifest { artifacts := [("macos".toList, macPackage)] }) [(macPackage, "mac 1.5.0")])
      (publishing "windows" "1.6.0" "aavishield-agent-1.6.0.msi") ∧
    ¬Alone documents legacyFolder (publishing "windows" "1.6.0" "hotfix.msi") ∧
    agentVersion documents (perform documents legacyFolder
      (publishing "linux" "1.6.0" "aavishield-agent-1.6.0-arm64.deb")).1 "linux".toList ≠
        agentVersion documents legacyFolder "linux".toList := by
  refine ⟨?_, ?_, ?_, ?_, ?_⟩
  · intro alone
    have served := (alone.others "macos".toList (by decide)).agentVersion
    revert served
    decide
  · intro alone
    have kept := alone.kept (by decide) (by decide)
    revert kept
    decide
  · intro alone
    have same := (alone.others "macos".toList (by decide)).entry
    revert same
    decide
  · intro alone
    obtain ⟨content, -, -, named⟩ := alone.listed (by decide) (by decide)
    revert named
    decide
  · decide

end Aavishield.AgentPackages