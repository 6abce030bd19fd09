import Aavishield.Lib.Worklists
import Mathlib.Data.List.Sort

/-!
# Families of processes

What is stopped with a process: the processes in the bundle of its application, and every
descendant of any of them.  The table of processes comes from the operating system, with
whatever parents it names.
-/

namespace Aavishield.AppWatch

open Worklists

abbrev Pid := ℤ

/-- What the system says of executables. -/
structure Machine where
  ownPid : Pid
  toLowercase : List Char → List Char
  /-- `CFBundleIdentifier` of the bundle an executable lies in; nothing off macOS. -/
  bundleIdentifier : List Char → Option (List Char)

/-- A process as it is listed. -/
structure Proc where
  pid : Pid
  ppid : Pid
  path : List Char
  deriving DecidableEq

/-- The path up to the end of the first `.app` that is a directory. -/
def bundleRoot : List Char → Option (List Char)
  | [] => none
  | letter :: rest =>
    if ".app/".toList.isPrefixOf (letter :: rest) then some ".app".toList
    else (bundleRoot rest).map (letter :: ·)

def childrenOf (processes : List Proc) (parent : Pid) : List Pid :=
  if parent ≤ 1 then [] else (processes.filter (·.ppid = parent)).map (·.pid)

def familyGraph (processes : List Proc) : Graph Pid where
  vertices := processes.map (·.pid)
  edges := childrenOf processes
  edges_subset parent member mem := by
    rw [childrenOf] at mem
    split_ifs at mem
    · cases mem
    · obtain ⟨process, isChild, rfl⟩ := List.mem_map.mp mem
      exact List.mem_map_of_mem (List.mem_of_mem_filter isChild)

def bundleSiblings (exePath : List Char) (processes : List Proc) : List Pid :=
  match bundleRoot exePath with
  | some root =>
    (processes.filter fun process => (root ++ ['/']).isPrefixOf process.path).map (·.pid)
  | none => []

/-- The processes that are stopped along with one. -/
def appFamily (machine : Machine) (pid : Pid) (exePath : List Char) (processes : List Proc) :
    List Pid :=
  let family := (pid :: bundleSiblings exePath processes).dedup
  let all := (familyGraph processes).walk family family
  (all.filter fun member => 1 < member ∧ member ≠ machine.ownPid).insertionSort (· ≤ ·)

/-- The process itself, those inside the same bundle, and every descendant of any of those; but
none is a descendant by way of the first processes of the system. -/
inductive InFamily (pid : Pid) (exePath : List Char) (processes : List Proc) : Pid → Prop where
  | self : InFamily pid exePath processes pid
  | sibling {root : List Char} {process : Proc} (listed : process ∈ processes)
      (ownRoot : bundleRoot exePath = some root) (sameRoot : bundleRoot process.path = some root) :
      InFamily pid exePath processes process.pid
  | child {process : Proc} (parent : InFamily pid exePath processes process.ppid)
      (listed : process ∈ processes) (below : 1 < process.ppid) :
      InFamily pid exePath processes process.pid

/-- A process of the family that may be stopped. -/
structure Belongs (machine : Machine) (pid : Pid) (exePath : List Char) (processes : List Proc)
    (member : Pid) : Prop where
  related : InFamily pid exePath processes member
  notFirst : 1 < member
  notAgent : member ≠ machine.ownPid

variable {pid member : Pid} {exePath path root other : List Char} {processes : List Proc}

theorem of_bundleRoot (found : bundleRoot path = some root) :
    root ++ ['/'] <+: path ∧ 4 ≤ root.length := by
  induction path generalizing root with
  | nil => cases found
  | cons letter rest ih =>
    rw [bundleRoot] at found
    split_ifs at found with here
    · cases found
      have inside := List.isPrefixOf_iff_prefix.mp here
      exact ⟨inside, le_rfl⟩
    · obtain ⟨inner, isInner, rfl⟩ := Option.map_eq_some_iff.mp found
      obtain ⟨within, long⟩ := ih isInner
      exact ⟨List.cons_prefix_cons.mpr ⟨rfl, within⟩, by simp; omega⟩

theorem inside_iff_bundleRoot (found : bundleRoot path = some root) :
    root ++ ['/'] <+: other ↔ bundleRoot other = some root := by
  refine ⟨?_, fun same => (of_bundleRoot same).1⟩
  intro inside
  induction path generalizing root other with
  | nil => cases found
  | cons letter rest ih =>
    rw [bundleRoot] at found
    split_ifs at found with here
    · cases found
      obtain ⟨after, rfl⟩ := inside
      rfl
    · obtain ⟨inner, isInner, rfl⟩ := Option.map_eq_some_iff.mp found
      obtain ⟨after, rfl⟩ := inside
      obtain ⟨⟨ending, rfl⟩, long⟩ := of_bundleRoot isInner
      have same := @ih inner (inner ++ ['/'] ++ after) isInner ⟨after, rfl⟩
      -- a bundle that ends before would be the first one of the path as well
      have elsewhere : ¬".app/".toList.isPrefixOf (letter :: (inner ++ ['/'] ++ after)) = true := by
        intro earlier
        apply here
        match inner, long with
        | first :: second :: third :: fourth :: more, _ => simpa using earlier
      rw [List.cons_append, List.cons_append, bundleRoot, if_neg elsewhere, same]
      rfl

theorem mem_bundleSiblings : member ∈ bundleSiblings exePath processes ↔
    ∃ process ∈ processes, process.pid = member ∧
      ∃ root, bundleRoot exePath = some root ∧ bundleRoot process.path = some root := by
  rw [bundleSiblings]
  cases found : bundleRoot exePath with
  | none => simp
  | some root =>
    simp only [List.mem_map, List.mem_filter, List.isPrefixOf_iff_prefix,
      inside_iff_bundleRoot found, Option.some.injEq, exists_eq_left']
    constructor
    · rintro ⟨process, ⟨listed, sameRoot⟩, isMember⟩
      exact ⟨process, listed, isMember, sameRoot⟩
    · rintro ⟨process, listed, isMember, sameRoot⟩
      exact ⟨process, ⟨listed, sameRoot⟩, isMember⟩

theorem leads_iff {parent : Pid} : (familyGraph processes).Leads parent member ↔
    1 < parent ∧ ∃ process ∈ processes, process.ppid = parent ∧ process.pid = member := by
  change member ∈ childrenOf processes parent ↔ _
  rw [childrenOf]
  split_ifs with first
  · simp [Int.not_lt.mpr first]
  · simp [Int.not_le.mp first, and_assoc]

theorem reaches_iff_inFamily :
    (familyGraph processes).Reaches (pid :: bundleSiblings exePath processes).dedup member ↔
      InFamily pid exePath processes member := by
  constructor
  · rintro ⟨start, isStart, path⟩
    induction path with
    | refl =>
      rcases List.mem_cons.mp (List.mem_dedup.mp isStart) with rfl | isSibling
      · exact .self
      · obtain ⟨process, listed, rfl, root, ownRoot, sameRoot⟩ := mem_bundleSiblings.mp isSibling
        exact .sibling listed ownRoot sameRoot
    | tail _ leads ih =>
      obtain ⟨below, process, listed, rfl, rfl⟩ := leads_iff.mp leads
      exact .child ih listed below
  · intro belongs
    induction belongs with
    | self => exact ⟨pid, List.mem_dedup.mpr List.mem_cons_self, .refl⟩
    | sibling listed ownRoot sameRoot =>
      refine ⟨_, List.mem_dedup.mpr (List.mem_cons_of_mem _ ?_), .refl⟩
      exact mem_bundleSiblings.mpr ⟨_, listed, rfl, _, ownRoot, sameRoot⟩
    | child _ listed below ih =>
      obtain ⟨start, isStart, path⟩ := ih
      exact ⟨start, isStart, path.tail (leads_iff.mpr ⟨below, _, listed, rfl, rfl⟩)⟩

/-- Whatever the table, the walk ends, and it has found the family, each member once. -/
theorem appFamily_eq_family (machine : Machine) (pid : Pid) (exePath : List Char)
    (processes : List Proc) : (appFamily machine pid exePath processes).Nodup ∧
      ∀ member, member ∈ appFamily machine pid exePath processes ↔
        Belongs machine pid exePath processes member := by
  constructor
  · rw [appFamily, (List.perm_insertionSort _ _).nodup_iff]
    exact (Graph.nodup_walk (List.nodup_dedup _)).filter _
  · intro member
    rw [appFamily, List.mem_insertionSort, List.mem_filter, Graph.mem_walk, reaches_iff_inFamily,
      decide_eq_true_eq]
    constructor
    · rintro ⟨related, notFirst, notAgent⟩
      exact ⟨related, notFirst, notAgent⟩
    · rintro ⟨related, notFirst, notAgent⟩
      exact ⟨related, notFirst, notAgent⟩

/-- A bundle with a helper, a child that runs outside of it, and two processes that are the
parents of each other. -/
example : appFamily ⟨9, id, fun _ => none⟩ 5 "/Applications/Slack.app/Contents/MacOS/Slack".toList
    [⟨5, 1, "/Applications/Slack.app/Contents/MacOS/Slack".toList⟩, ⟨6, 7, "/bin/sh".toList⟩,
      ⟨7, 6, "/bin/sh".toList⟩, ⟨8, 5, "/bin/cat".toList⟩, ⟨9, 8, "/opt/agent".toList⟩,
      ⟨10, 1, "/Applications/Slack.app/Contents/Frameworks/Helper".toList⟩] = [5, 8, 10] := by
  decide +kernel

end Aavishield.AppWatch
