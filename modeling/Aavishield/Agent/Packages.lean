import Aavishield.Lib.Text
import Aavishield.Lib.Digits

/-!
# Agent packages

The packages lie in one folder, under the names they were uploaded by, next to a manifest that says
which of them each platform gets.  A package is published with its bytes, or the manifest is
pointed back at a file that is still there; either way the manifest is read, changed and written
again as a whole.
-/

namespace Aavishield.AgentPackages

open Text

abbrev Entries := List (List Char × List Char)

def Entries.get (entries : Entries) (key : List Char) : List Char := (entries.lookup key).getD []

def Entries.set (entries : Entries) (key value : List Char) : Entries :=
  entries.filter (fun entry => entry.1 ≠ key) ++ [(key, value)]

/-- The current format with its artifacts, or the legacy one with a version alone. -/
structure PackageManifest where
  version : List Char := []
  versions : Entries := []
  artifacts : Entries := []
deriving DecidableEq

def PackageManifest.Agree (first second : PackageManifest) : Prop :=
  first.version = second.version ∧ (∀ key, first.versions.get key = second.versions.get key) ∧
    ∀ key, first.artifacts.get key = second.artifacts.get key

/-- What is taken from Go: `encoding/json`, and the order in which a map is gone through. -/
structure Go (Content : Type) where
  marshal : PackageManifest → Content
  unmarshal : Content → PackageManifest × Bool
  range : Entries → Entries
  unmarshal_marshal : ∀ manifest,
    (unmarshal (marshal manifest)).1.Agree manifest ∧ (unmarshal (marshal manifest)).2 = true
  range_perm : ∀ entries, (range entries).Perm entries

def atoi (text : List Char) : Option ℤ := do
  let digits := match text with
    | '-' :: rest => rest
    | '+' :: rest => rest
    | _ => text
  let number ← if digits = [] ∨ !digits.all Char.isDigit then none else Digits.readNumber 10 digits
  let value : ℤ := if text.head? = some '-' then -number else number
  if -9223372036854775808 ≤ value ∧ value ≤ 9223372036854775807 then some value else none

def segments (version : List Char) : List (Option ℤ) :=
  ((trimPrefix ['v'] version).splitOn '.').map fun piece => atoi (piece.takeWhile (· ≠ '-'))

/-- The first two segments that differ decide; a segment that is no number ends the comparison. -/
def lessSegments : List (Option ℤ × Option ℤ) → Bool
  | (some x, some y) :: rest => if x ≠ y then x < y else lessSegments rest
  | _ => false

def versionLess (a b : List Char) : Bool :=
  let pa := segments a
  let pb := segments b
  lessSegments ((pa ++ List.replicate (pb.length - pa.length) (some 0)).zip
    (pb ++ List.replicate (pa.length - pb.length) (some 0)))

namespace PackageManifest

variable (m : PackageManifest)

def versionFor (platform : List Char) : List Char :=
  if m.artifacts.get platform = [] then []
  else if m.versions.get platform ≠ [] then m.versions.get platform
  else m.version

variable {Content : Type} (go : Go Content)

def pinned : Entries :=
  (go.range m.artifacts).foldl (fun versions entry =>
    if versions.get entry.1 = [] ∧ m.version ≠ [] then versions.set entry.1 m.version
    else versions) m.versions

def highest (versions : Entries) : List Char :=
  versions.foldl (fun highest entry =>
    if highest = [] ∨ versionLess highest entry.2 then entry.2 else highest) []

def setPlatform (platform version filename : List Char) : PackageManifest :=
  let versions := (m.pinned go).set platform version
  { artifacts := m.artifacts.set platform filename
    versions
    version := highest (go.range versions) }

end PackageManifest

def base (path : List Char) : List Char :=
  if path = [] then ['.']
  else
    let stripped := (path.reverse.dropWhile (· = '/')).reverse
    if stripped = [] then ['/'] else afterLast '/' stripped

def between (before after name : List Char) : Option (List Char) :=
  if before <+: name ∧ after <:+ name.drop before.length then
    let middle := (name.drop before.length).take (name.length - before.length - after.length)
    if middle ≠ [] ∧ '\n' ∉ middle then some middle else none
  else none

/-- The group of `^aavishield-agent-(?:rust-)?(.+)` before an ending. -/
def captured (ending name : List Char) : Option (List Char) :=
  (between "aavishield-agent-rust-".toList ending name).or
    (between "aavishield-agent-".toList ending name)

def filenamePlatformVersion (name : List Char) : Option (List Char × List Char) :=
  ((captured ".pkg".toList name).map fun version => ("macos".toList, version)).or <|
  ((captured ".msi".toList name).map fun version => ("windows".toList, version)).or <|
  ((captured "-amd64.deb".toList name).or (captured "-arm64.deb".toList name)).map fun version =>
    ("linux".toList, version)

inductive Node (Content : Type) where
  | file (content : Content)
  | directory
deriving DecidableEq

abbrev Folder (Content : Type) := List Char → Option (Node Content)

def manifestName : List Char := "manifest.json".toList

variable {Content : Type}

def Folder.at (folder : Folder Content) (name : List Char) : Option (Node Content) :=
  if name = ['.'] ∨ name = ['/'] then some .directory else folder name

inductive Writing (Content : Type) where
  | done
  | refused
  | torn (left : Content)

def Folder.write (folder : Folder Content) (name : List Char) (content : Content)
    (writing : Writing Content) : Folder Content × Bool :=
  match folder.at name with
  | some .directory => (folder, false)
  | _ =>
    match writing with
    | .done => (Function.update folder name (some (.file content)), true)
    | .refused => (folder, false)
    | .torn left => (Function.update folder name (some (.file left)), false)

/-- An answer of the server that is not a success. -/
structure Refusal where
  status : ℕ
  error : String
deriving DecidableEq

variable (go : Go Content)

/-- The manifest, and whether it could be read. -/
def readManifest (folder : Folder Content) : PackageManifest × Bool :=
  match folder manifestName with
  | some (.file content) => go.unmarshal content
  | _ => ({}, false)

def writeManifest (folder : Folder Content) (m : PackageManifest) (writing : Writing Content) :
    Folder Content × Bool :=
  folder.write manifestName (go.marshal m) writing

def validPlatforms : List (List Char) := ["macos".toList, "windows".toList, "linux".toList]

def isFilename (name : List Char) : Bool := name ≠ [] ∧ name = base name ∧ !contains name ['.', '.']

def publishPackageFile (folder : Folder Content) (platform version name : List Char)
    (content : Content) (saving writing : Writing Content) :
    Folder Content × Except Refusal Unit :=
  match folder.write name content saving with
  | (folder, false) => (folder, .error ⟨500, "could not save package"⟩)
  | (folder, true) =>
    let (manifest, _) := readManifest go folder
    match writeManifest go folder (manifest.setPlatform go platform version name) writing with
    | (folder, false) => (folder, .error ⟨500, "could not write manifest"⟩)
    | (folder, true) => (folder, .ok ())

/-- A publish or a rollback, with how its writes go. -/
inductive Op (Content : Type) where
  | publish (platform version name : List Char) (content : Content)
      (saving writing : Writing Content)
  | rollback (platform name : List Char) (writing : Writing Content)

/-- `Upload`, and `UploadAgentPackage` once its token is checked. -/
def upload (folder : Folder Content) (platform version name : List Char) (content : Content)
    (saving writing : Writing Content) : Folder Content × Except Refusal Unit :=
  if platform ∉ validPlatforms then
    (folder, .error ⟨400, "platform must be macos, windows, or linux"⟩)
  else if version = [] then (folder, .error ⟨400, "version is required"⟩)
  else if !isFilename name then (folder, .error ⟨400, "invalid filename"⟩)
  else publishPackageFile go folder platform version name content saving writing

def rollback (folder : Folder Content) (platform name : List Char) (writing : Writing Content) :
    Folder Content × Except Refusal Unit :=
  if platform ∉ validPlatforms then
    (folder, .error ⟨400, "platform and filename are required"⟩)
  else if !isFilename name then (folder, .error ⟨400, "invalid filename"⟩)
  else
    match filenamePlatformVersion name with
    | none => (folder, .error ⟨400, "filename does not match the requested platform"⟩)
    | some (ofName, version) =>
      if ofName ≠ platform then
        (folder, .error ⟨400, "filename does not match the requested platform"⟩)
      else if (folder.at name).isNone then
        (folder, .error ⟨404, "package file not found on disk"⟩)
      else
        let (manifest, _) := readManifest go folder
        match writeManifest go folder (manifest.setPlatform go platform version name) writing with
        | (folder, false) => (folder, .error ⟨500, "could not write manifest"⟩)
        | (folder, true) => (folder, .ok ())

def perform (folder : Folder Content) : Op Content → Folder Content × Except Refusal Unit
  | .publish platform version name content saving writing =>
    upload go folder platform version name content saving writing
  | .rollback platform name writing => rollback go folder platform name writing

def Op.platform : Op Content → List Char
  | .publish platform _ _ _ _ _ => platform
  | .rollback platform _ _ => platform

/-- The file and the version that the manifest gives a platform. -/
def entry (folder : Folder Content) (platform : List Char) : List Char × List Char :=
  ((readManifest go folder).1.artifacts.get platform,
    (readManifest go folder).1.versionFor platform)

structure Package (Content : Type) where
  version : List Char
  name : List Char
  content : Content
deriving DecidableEq

/-- `AgentVersion` for a device of a known platform, with the bytes behind the link. -/
def agentVersion (folder : Folder Content) (platform : List Char) : Option (Package Content) :=
  let (manifest, read) := readManifest go folder
  let name := manifest.artifacts.get platform
  if !read ∨ manifest.version = [] ∨ name = [] ∨ name ≠ base name then none
  else
    match folder.at name with
    | some (.file content) => some { version := manifest.versionFor platform, name, content }
    | _ => none

/-- A file that `History` lists, with the platform and the version it gives it. -/
def InHistory (folder : Folder Content) (platform name version : List Char) : Prop :=
  ∃ content, folder name = some (.file content) ∧ name ≠ manifestName ∧
    filenamePlatformVersion name = some (platform, version)

end Aavishield.AgentPackages
