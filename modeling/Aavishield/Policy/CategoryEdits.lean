import Aavishield.Lib.TransitionSystem
import Aavishield.Policy.AgentFeed
import Mathlib.Data.List.Dedup

/-!
# Edits of category lists

The shipped lists of domains are shared; an organisation adds domains of its own and takes shipped
ones out by exclusions.  Rows of both are deleted softly, and the unique index of the exclusions
counts deleted rows as well.
-/

namespace Aavishield.Categories

open AgentFeed (CategoryDomain CategoryDomainExclusion)
open Text
open TransitionSystem

structure DomainRow extends CategoryDomain where
  source : String
  deleted : Bool

structure ExclusionRow extends CategoryDomainExclusion where
  deleted : Bool

def DomainRow.key (row : DomainRow) : Option UUID × UUID × List Char :=
  (row.orgID, row.categoryID, row.domain)

/-- The columns of `idx_category_domain_exclusion`. -/
def ExclusionRow.key (row : ExclusionRow) : UUID × UUID × List Char :=
  (row.orgID, row.categoryID, row.domain)

def DomainRow.delete (key : Option UUID × UUID × List Char) (row : DomainRow) : DomainRow :=
  if row.key = key then { row with deleted := true } else row

def ExclusionRow.delete (key : UUID × UUID × List Char) (row : ExclusionRow) : ExclusionRow :=
  if row.key = key then { row with deleted := true } else row

@[simp]
theorem DomainRow.key_delete (key : Option UUID × UUID × List Char) (row : DomainRow) :
    (row.delete key).key = row.key := by
  unfold delete
  split_ifs <;> rfl

@[simp]
theorem DomainRow.deleted_delete (key : Option UUID × UUID × List Char) (row : DomainRow) :
    (row.delete key).deleted = (row.deleted || decide (row.key = key)) := by
  unfold delete
  split_ifs with named <;> simp [named]

@[simp]
theorem ExclusionRow.key_delete (key : UUID × UUID × List Char) (row : ExclusionRow) :
    (row.delete key).key = row.key := by
  unfold delete
  split_ifs <;> rfl

@[simp]
theorem ExclusionRow.deleted_delete (key : UUID × UUID × List Char) (row : ExclusionRow) :
    (row.delete key).deleted = (row.deleted || decide (row.key = key)) := by
  unfold delete
  split_ifs with named <;> simp [named]

/-- The categories, with their domains and what organisations changed of them. -/
structure Tables where
  categories : List UUID
  domains : List DomainRow
  exclusions : List ExclusionRow
  hidden : List (UUID × UUID)
  domainIndex : ((domains.filter fun row => !row.deleted).map DomainRow.key).Nodup
  exclusionIndex : (exclusions.map ExclusionRow.key).Nodup
  hiddenIndex : hidden.Nodup

namespace Tables

variable (tables : Tables)

def insertDomain (row : CategoryDomain) (source : String) : Option Tables :=
  let added : DomainRow := ⟨row, source, false⟩
  if isNew : added.key ∉ (tables.domains.filter fun row => !row.deleted).map DomainRow.key then
    some { tables with
      domains := added :: tables.domains
      domainIndex := List.nodup_cons.2 ⟨isNew, tables.domainIndex⟩ }
  else none

def deleteDomains (key : Option UUID × UUID × List Char) : Tables :=
  { tables with
    domains := tables.domains.map (.delete key)
    domainIndex := by
      have kept : ((tables.domains.map (.delete key)).filter fun row => !row.deleted).map DomainRow.key =
          ((tables.domains.filter fun row => !row.deleted).filter fun row => row.key ≠ key).map
            DomainRow.key := by
        induction tables.domains with
        | nil => rfl
        | cons row rest ih =>
          cases live : row.deleted <;> by_cases named : row.key = key <;> simp_all
      rw [kept]
      exact tables.domainIndex.sublist (List.filter_sublist.map _) }

def insertExclusion (row : CategoryDomainExclusion) : Option Tables :=
  let added : ExclusionRow := ⟨row, false⟩
  if isNew : added.key ∉ tables.exclusions.map ExclusionRow.key then
    some { tables with
      exclusions := added :: tables.exclusions
      exclusionIndex := List.nodup_cons.2 ⟨isNew, tables.exclusionIndex⟩ }
  else none

def deleteExclusions (key : UUID × UUID × List Char) : Tables :=
  { tables with
    exclusions := tables.exclusions.map (.delete key)
    exclusionIndex := by
      simpa [Function.comp_def] using tables.exclusionIndex }

def insertHidden (orgID categoryID : UUID) : Option Tables :=
  if isNew : (orgID, categoryID) ∉ tables.hidden then
    some { tables with
      hidden := (orgID, categoryID) :: tables.hidden
      hiddenIndex := List.nodup_cons.2 ⟨isNew, tables.hiddenIndex⟩ }
  else none

def deleteHidden (orgID categoryID : UUID) : Tables :=
  { tables with
    hidden := tables.hidden.filter fun row => row ≠ (orgID, categoryID)
    hiddenIndex := tables.hiddenIndex.filter _ }

variable (orgID categoryID : UUID) (domain : List Char)

def builtIn : Bool := tables.domains.any fun row =>
  !row.deleted && decide (row.key = (none, categoryID, domain))

def owned : Bool := tables.domains.any fun row =>
  !row.deleted && decide (row.key = (some orgID, categoryID, domain))

def excluded : Bool := tables.exclusions.any fun row =>
  !row.deleted && decide (row.key = (orgID, categoryID, domain))

/-- `effectiveDomainsQuery`: which domains an organisation sees. -/
def effectiveDomains : List DomainRow :=
  tables.domains.filter fun row =>
    !row.deleted && decide (row.orgID = none ∨ row.orgID = some orgID) &&
      !tables.excluded orgID row.categoryID row.domain

def effective : Bool :=
  (tables.effectiveDomains orgID).any fun row =>
    decide (row.categoryID = categoryID ∧ row.domain = domain)

end Tables

section Requests

variable (lower : Char → Char)

def normalizeDomain (raw : List Char) : List Char :=
  let lowered := (trimSpace raw).map lower
  let bare := trimPrefix "http://".toList (trimPrefix "https://".toList lowered)
  let host := bare.takeWhile fun letter => letter ∉ ['/', '?', '#']
  let plain := trimPrefix "www.".toList host
  let domain := ((plain.dropWhile (· = '.')).reverse.dropWhile (· = '.')).reverse
  if '.' ∈ domain ∧ domain.all (· ∉ [' ', '\t', ',']) then domain else []

/-- `strings.FieldsFunc`: the parts of a pasted list. -/
def fields (entry : List Char) : List (List Char) :=
  (entry.splitOnP fun letter => decide (letter ∈ [',', '\n', '\r', ' ', '\t', ';'])).filter (· ≠ [])

structure AddRequest where
  domain : List Char
  domains : List (List Char)

def AddRequest.parts (request : AddRequest) : List (List Char) :=
  (request.domains ++ if request.domain = [] then [] else [request.domain]).flatMap fields

def AddRequest.named (request : AddRequest) : List (List Char) :=
  ((request.parts.map (normalizeDomain lower)).filter (· ≠ [])).eraseDups

def AddRequest.invalid (request : AddRequest) : List (List Char) :=
  (request.parts.filter fun part => normalizeDomain lower part = [] ∧ trimSpace part ≠ []).map trimSpace

structure Counts where
  added : ℕ := 0
  restored : ℕ := 0
  already : ℕ := 0

inductive Response where
  | updated (counts : Counts) (invalid : List (List Char))
  | message (text : String)
  | refused (status : ℕ) (error : String)

def Response.succeeded : Response → Bool
  | .refused _ _ => false
  | _ => true

/-- One domain of `AddDomains`; adding back a shipped domain lifts its exclusion. -/
def addDomain (orgID categoryID : UUID) (domain : List Char) (counts : Counts) (tables : Tables) :
    Option (Counts × Tables) :=
  if tables.excluded orgID categoryID domain then
    some ({ counts with restored := counts.restored + 1 },
      tables.deleteExclusions (orgID, categoryID, domain))
  else if tables.builtIn categoryID domain || tables.owned orgID categoryID domain then
    some ({ counts with already := counts.already + 1 }, tables)
  else
    (tables.insertDomain ⟨some orgID, categoryID, domain⟩ "manual").map fun inserted =>
      ({ counts with added := counts.added + 1 }, inserted)

def addAll (orgID categoryID : UUID) : List (List Char) → Counts → Tables →
    Except (List Char) Counts × Tables
  | [], counts, tables => (.ok counts, tables)
  | domain :: rest, counts, tables =>
    match addDomain orgID categoryID domain counts tables with
    | none => (.error domain, tables)
    | some (counts, tables) => addAll orgID categoryID rest counts tables

def addDomains (orgID categoryID : UUID) (request : AddRequest) (tables : Tables) : Response × Tables :=
  if categoryID ∉ tables.categories then (.refused 404 "Category not found", tables)
  else
    match addAll orgID categoryID (request.named lower) {} tables with
    | (.error domain, tables) => (.refused 500 ("Failed to add domain " ++ String.ofList domain), tables)
    | (.ok counts, tables) =>
      if request.named lower = [] then (.refused 400 "No valid domains provided", tables)
      else (.updated counts (request.invalid lower), tables)

def deleteDomain (orgID categoryID : UUID) (raw : List Char) (tables : Tables) : Response × Tables :=
  let domain := normalizeDomain lower raw
  if domain = [] then (.refused 400 "A domain query parameter is required", tables)
  else if tables.owned orgID categoryID domain then
    (.message "Domain removed", tables.deleteDomains (some orgID, categoryID, domain))
  else if !tables.builtIn categoryID domain then
    (.refused 404 "Domain not found in this category", tables)
  else if tables.excluded orgID categoryID domain then
    (.message "Domain removed for your organization", tables)
  else
    match tables.insertExclusion ⟨orgID, categoryID, domain⟩ with
    | none => (.refused 500 "Failed to remove domain", tables)
    | some tables => (.message "Domain removed for your organization", tables)

/-- `Delete`, which hides a whole category. -/
def delete (orgID categoryID : UUID) (tables : Tables) : Response × Tables :=
  if categoryID ∉ tables.categories then (.refused 404 "Category not found", tables)
  else if (orgID, categoryID) ∈ tables.hidden then
    (.message "Category deleted for your organization", tables)
  else
    match tables.insertHidden orgID categoryID with
    | none => (.refused 500 "Failed to delete category", tables)
    | some tables => (.message "Category deleted for your organization", tables)

def restore (orgID categoryID : UUID) (tables : Tables) : Response × Tables :=
  (.message "Category restored", tables.deleteHidden orgID categoryID)

/-- A request to change a category. -/
inductive Edit where
  | addDomains (categoryID : UUID) (request : AddRequest)
  | deleteDomain (categoryID : UUID) (raw : List Char)
  | delete (categoryID : UUID)
  | restore (categoryID : UUID)

def Edit.handle (orgID : UUID) : Edit → Tables → Response × Tables
  | .addDomains categoryID request => Categories.addDomains lower orgID categoryID request
  | .deleteDomain categoryID raw => Categories.deleteDomain lower orgID categoryID raw
  | .delete categoryID => Categories.delete orgID categoryID
  | .restore categoryID => Categories.restore orgID categoryID

def step (tables : Tables) (edit : UUID × Edit) : Option Tables :=
  some (edit.2.handle lower edit.1 tables).2

end Requests

def Tables.shipped (categories : List UUID) (builtIn : List (UUID × List Char)) : Tables where
  categories
  domains := builtIn.dedup.map fun entry => ⟨⟨none, entry.1, entry.2⟩, "seed", false⟩
  exclusions := []
  hidden := []
  domainIndex := by
    have all : ((builtIn.dedup.map fun entry : UUID × List Char =>
        (⟨⟨none, entry.1, entry.2⟩, "seed", false⟩ : DomainRow)).filter fun row => !row.deleted) =
          builtIn.dedup.map fun entry => ⟨⟨none, entry.1, entry.2⟩, "seed", false⟩ := by
      apply List.filter_eq_self.2
      intro row mem
      obtain ⟨entry, -, rfl⟩ := List.mem_map.1 mem
      rfl
    rw [all, List.map_map]
    apply builtIn.nodup_dedup.map
    intro entry other same
    simpa [DomainRow.key, Prod.ext_iff] using same
  exclusionIndex := List.nodup_nil
  hiddenIndex := List.nodup_nil

structure Slot where
  builtIn : Bool
  owned : Bool
  excluded : Bool
  lifted : Bool
  deriving DecidableEq

def Slot.effective (slot : Slot) : Bool := (slot.builtIn || slot.owned) && !slot.excluded

def Slot.Sound (slot : Slot) : Prop :=
  (slot.excluded = true → slot.builtIn = true) ∧ ¬(slot.builtIn = true ∧ slot.owned = true)

def Slot.add (slot : Slot) : Slot :=
  if slot.excluded then { slot with excluded := false, lifted := true }
  else if slot.builtIn || slot.owned then slot
  else { slot with owned := true }

def Slot.remove (slot : Slot) : Slot :=
  if slot.owned then { slot with owned := false }
  else if slot.builtIn && !slot.excluded && !slot.lifted then { slot with excluded := true }
  else slot

theorem Slot.Sound.add {slot : Slot} (sound : slot.Sound) :
    slot.add.Sound ∧ slot.add.effective = true := by
  obtain ⟨builtIn, owned, excluded, lifted⟩ := slot
  revert sound
  simp only [Slot.Sound, Slot.add, Slot.effective]
  revert builtIn owned excluded lifted
  decide

theorem Slot.Sound.remove {slot : Slot} (sound : slot.Sound) : slot.remove.Sound := by
  obtain ⟨builtIn, owned, excluded, lifted⟩ := slot
  revert sound
  simp only [Slot.Sound, Slot.remove]
  revert builtIn owned excluded lifted
  decide

/-- Whether `DeleteDomain` succeeds. -/
def Slot.removable (slot : Slot) : Bool := slot.owned || slot.builtIn && (slot.excluded || !slot.lifted)

theorem Slot.Sound.removes_iff {slot : Slot} (sound : slot.Sound) :
    (slot.effective = true → slot.removable = true) ∧
        (slot.removable = true → slot.remove.effective = false) ↔
      (slot.builtIn = true ∧ slot.excluded = false → slot.lifted = false) := by
  obtain ⟨builtIn, owned, excluded, lifted⟩ := slot
  revert sound
  simp only [Slot.Sound, Slot.remove, Slot.effective, Slot.removable]
  revert builtIn owned excluded lifted
  decide

namespace Tables

def lifted (tables : Tables) (orgID categoryID : UUID) (domain : List Char) : Bool :=
  tables.exclusions.any fun row => row.deleted && decide (row.key = (orgID, categoryID, domain))

def slot (tables : Tables) (orgID categoryID : UUID) (domain : List Char) : Slot where
  builtIn := tables.builtIn categoryID domain
  owned := tables.owned orgID categoryID domain
  excluded := tables.excluded orgID categoryID domain
  lifted := tables.lifted orgID categoryID domain

variable {tables after : Tables} {orgID other categoryID otherCategory : UUID}
  {domain otherDomain : List Char}

theorem effective_slot : (tables.slot orgID categoryID domain).effective =
    tables.effective orgID categoryID domain := by
  rw [Bool.eq_iff_iff]
  simp only [slot, Slot.effective, builtIn, owned, effective, effectiveDomains, DomainRow.key,
    Bool.and_eq_true, Bool.or_eq_true, Bool.not_eq_true', List.any_eq_true, List.mem_filter,
    decide_eq_true_eq, Prod.mk.injEq]
  constructor
  · rintro ⟨⟨row, mem, live, ofOrg, rfl, rfl⟩ | ⟨row, mem, live, ofOrg, rfl, rfl⟩, allowed⟩
    · exact ⟨row, ⟨mem, ⟨live, .inl ofOrg⟩, allowed⟩, rfl, rfl⟩
    · exact ⟨row, ⟨mem, ⟨live, .inr ofOrg⟩, allowed⟩, rfl, rfl⟩
  · rintro ⟨row, ⟨mem, ⟨live, ofOrg | ofOrg⟩, allowed⟩, rfl, rfl⟩
    · exact ⟨.inl ⟨row, mem, live, ofOrg, rfl, rfl⟩, allowed⟩
    · exact ⟨.inr ⟨row, mem, live, ofOrg, rfl, rfl⟩, allowed⟩

variable {key : UUID × UUID × List Char}

theorem excluded_deleteExclusions :
    (tables.deleteExclusions key).excluded orgID categoryID domain =
      (tables.excluded orgID categoryID domain && decide ((orgID, categoryID, domain) ≠ key)) := by
  simp only [excluded, deleteExclusions, List.any_map, Function.comp_def, ExclusionRow.key_delete,
    ExclusionRow.deleted_delete]
  by_cases named : (orgID, categoryID, domain) = key
  · simp +contextual [named]
  · have same : ∀ row : ExclusionRow, (!(row.deleted || decide (row.key = key)) &&
        decide (row.key = (orgID, categoryID, domain))) =
          (!row.deleted && decide (row.key = (orgID, categoryID, domain))) := by
      intro row
      by_cases ofDomain : row.key = (orgID, categoryID, domain) <;> simp [ofDomain, named]
    simp only [same, ne_eq, named, not_false_eq_true, decide_true, Bool.and_true]

theorem lifted_deleteExclusions :
    (tables.deleteExclusions key).lifted orgID categoryID domain =
      (tables.lifted orgID categoryID domain ||
        tables.excluded orgID categoryID domain && decide ((orgID, categoryID, domain) = key)) := by
  simp only [lifted, excluded, deleteExclusions, List.any_map, Function.comp_def,
    ExclusionRow.key_delete, ExclusionRow.deleted_delete]
  rw [Bool.eq_iff_iff]
  simp only [Bool.or_eq_true, Bool.and_eq_true, Bool.not_eq_true', List.any_eq_true, decide_eq_true_eq]
  constructor
  · rintro ⟨row, mem, deleted | named, ofDomain⟩
    · exact .inl ⟨row, mem, deleted, ofDomain⟩
    · cases live : row.deleted with
      | true => exact .inl ⟨row, mem, live, ofDomain⟩
      | false => exact .inr ⟨⟨row, mem, live, ofDomain⟩, ofDomain.symm.trans named⟩
  · rintro (⟨row, mem, deleted, ofDomain⟩ | ⟨⟨row, mem, -, ofDomain⟩, named⟩)
    · exact ⟨row, mem, .inl deleted, ofDomain⟩
    · exact ⟨row, mem, .inr (ofDomain.trans named), ofDomain⟩

theorem any_deleteDomains {key other : Option UUID × UUID × List Char} :
    ((tables.deleteDomains key).domains.any fun row => !row.deleted && decide (row.key = other)) =
      ((tables.domains.any fun row => !row.deleted && decide (row.key = other)) &&
        decide (other ≠ key)) := by
  simp only [deleteDomains, List.any_map, Function.comp_def, DomainRow.key_delete,
    DomainRow.deleted_delete]
  by_cases named : other = key
  · simp +contextual [named]
  · have same : ∀ row : DomainRow, (!(row.deleted || decide (row.key = key)) &&
        decide (row.key = other)) = (!row.deleted && decide (row.key = other)) := by
      intro row
      by_cases ofDomain : row.key = other <;> simp [ofDomain, named]
    simp only [same, ne_eq, named, not_false_eq_true, decide_true, Bool.and_true]

end Tables

structure View where
  slots : UUID → List Char → Slot
  hidden : UUID → Bool

def Tables.view (tables : Tables) (orgID : UUID) : View where
  slots := tables.slot orgID
  hidden categoryID := decide ((orgID, categoryID) ∈ tables.hidden)

namespace View

def change (categoryID : UUID) (domain : List Char) (edit : Slot → Slot) (view : View) : View :=
  { view with
    slots := fun otherCategory otherDomain =>
      if (otherCategory, otherDomain) = (categoryID, domain) then edit (view.slots categoryID domain)
      else view.slots otherCategory otherDomain }

def hide (categoryID : UUID) (isHidden : Bool) (view : View) : View :=
  { view with hidden := Function.update view.hidden categoryID isHidden }

@[simp]
theorem slots_change (view : View) (categoryID : UUID) (domain : List Char) (edit : Slot → Slot) :
    (view.change categoryID domain edit).slots categoryID domain = edit (view.slots categoryID domain) :=
  if_pos rfl

theorem change_self {view : View} {categoryID : UUID} {domain : List Char} {edit : Slot → Slot}
    (same : edit (view.slots categoryID domain) = view.slots categoryID domain) :
    view.change categoryID domain edit = view := by
  obtain ⟨slots, hidden⟩ := view
  simp only [change, mk.injEq, and_true]
  funext otherCategory otherDomain
  split_ifs with named
  · cases named
    exact same
  · rfl

def Sound (view : View) : Prop := ∀ categoryID domain, (view.slots categoryID domain).Sound

theorem Sound.change {view : View} (sound : view.Sound) {edit : Slot → Slot}
    (preserves : ∀ slot : Slot, slot.Sound → (edit slot).Sound) (categoryID : UUID)
    (domain : List Char) : (view.change categoryID domain edit).Sound := by
  intro otherCategory otherDomain
  simp only [View.change]
  split_ifs
  · apply preserves
    apply sound
  · apply sound

end View

section Refinement

variable (lower : Char → Char)

def Edit.apply (categories : List UUID) : Edit → View → View
  | .addDomains categoryID request, view =>
    if categoryID ∈ categories then
      (request.named lower).foldl (fun view domain => view.change categoryID domain Slot.add) view
    else view
  | .deleteDomain categoryID raw, view =>
    if normalizeDomain lower raw = [] then view
    else view.change categoryID (normalizeDomain lower raw) Slot.remove
  | .delete categoryID, view => if categoryID ∈ categories then view.hide categoryID true else view
  | .restore categoryID, view => view.hide categoryID false

/-- What the tables hold for one organisation has changed, and nothing else has. -/
structure Changes (orgID : UUID) (edit : View → View) (tables after : Tables) : Prop where
  here : after.view orgID = edit (tables.view orgID)
  elsewhere : ∀ other, other ≠ orgID → after.view other = tables.view other
  categories : after.categories = tables.categories

variable {lower} {tables after : Tables} {orgID categoryID : UUID} {domain : List Char}

theorem Changes.refl {edit : View → View} (same : edit (tables.view orgID) = tables.view orgID) :
    Changes orgID edit tables tables :=
  ⟨same.symm, fun _ _ => rfl, rfl⟩

theorem Changes.of_slots {edit : Slot → Slot}
    (here : after.slot orgID categoryID domain = edit (tables.slot orgID categoryID domain))
    (elsewhere : ∀ otherOrg otherCategory otherDomain,
      (otherOrg, otherCategory, otherDomain) ≠ (orgID, categoryID, domain) →
        after.slot otherOrg otherCategory otherDomain = tables.slot otherOrg otherCategory otherDomain)
    (hidden : after.hidden = tables.hidden) (categories : after.categories = tables.categories) :
    Changes orgID (View.change categoryID domain edit) tables after where
  here := by
    simp only [Tables.view, View.change, hidden, View.mk.injEq, and_true]
    funext otherCategory otherDomain
    split_ifs with named
    · cases named
      exact here
    · apply elsewhere
      simpa using named
  elsewhere other differs := by
    simp only [Tables.view, hidden, View.mk.injEq, and_true]
    funext otherCategory otherDomain
    apply elsewhere
    simp [differs]
  categories := categories

theorem Changes.congr {first second : Slot → Slot}
    (changes : Changes orgID (View.change categoryID domain first) tables after)
    (same : first (tables.slot orgID categoryID domain) = second (tables.slot orgID categoryID domain)) :
    Changes orgID (View.change categoryID domain second) tables after where
  here := by simpa only [View.change, Tables.view, same] using changes.here
  elsewhere := changes.elsewhere
  categories := changes.categories

theorem insertDomain_changes (absent : tables.owned orgID categoryID domain = false) :
    ∃ after, tables.insertDomain ⟨some orgID, categoryID, domain⟩ "manual" = some after ∧
      Changes orgID (View.change categoryID domain fun slot => { slot with owned := true }) tables
        after := by
  have isNew : (⟨⟨some orgID, categoryID, domain⟩, "manual", false⟩ : DomainRow).key ∉
      (tables.domains.filter fun row => !row.deleted).map DomainRow.key := by
    intro mem
    obtain ⟨row, isRow, same⟩ := List.mem_map.1 mem
    obtain ⟨there, live⟩ := List.mem_filter.1 isRow
    simp only [Tables.owned, List.any_eq_false, Bool.and_eq_true, decide_eq_true_eq, not_and] at absent
    exact absent row there live same
  rw [Tables.insertDomain, dif_pos isNew]
  refine ⟨_, rfl, .of_slots ?_ ?_ rfl rfl⟩
  · simp [Tables.slot, Tables.builtIn, Tables.owned, Tables.excluded, Tables.lifted, DomainRow.key]
  · intro otherOrg otherCategory otherDomain differs
    have other : ((some orgID, categoryID, domain) : Option UUID × UUID × List Char) ≠
        (some otherOrg, otherCategory, otherDomain) := by grind
    have shared : ((some orgID, categoryID, domain) : Option UUID × UUID × List Char) ≠
        (none, otherCategory, otherDomain) := by simp
    simp [Tables.slot, Tables.builtIn, Tables.owned, Tables.excluded, Tables.lifted, DomainRow.key,
      -Prod.mk.injEq, other, shared]

theorem deleteDomains_changes :
    Changes orgID (View.change categoryID domain fun slot => { slot with owned := false }) tables
      (tables.deleteDomains (some orgID, categoryID, domain)) := by
  refine .of_slots ?_ ?_ rfl rfl
  · simp only [Tables.slot, Tables.builtIn, Tables.owned, Tables.any_deleteDomains]
    simp [Tables.excluded, Tables.lifted, Tables.deleteDomains]
  · intro otherOrg otherCategory otherDomain differs
    have other : ((some otherOrg, otherCategory, otherDomain) : Option UUID × UUID × List Char) ≠
        (some orgID, categoryID, domain) := by grind
    have shared : ((none, otherCategory, otherDomain) : Option UUID × UUID × List Char) ≠
        (some orgID, categoryID, domain) := by simp
    simp only [Tables.slot, Tables.builtIn, Tables.owned, Tables.any_deleteDomains]
    simp [Tables.excluded, Tables.lifted, Tables.deleteDomains, -Prod.mk.injEq, other, shared]

/-- The index of the exclusions refuses a second row, be the first one deleted. -/
theorem insertExclusion_changes (tables : Tables) (orgID categoryID : UUID) (domain : List Char) :
    (∃ after, tables.insertExclusion ⟨orgID, categoryID, domain⟩ = some after ∧
        tables.lifted orgID categoryID domain = false ∧
        Changes orgID (View.change categoryID domain fun slot => { slot with excluded := true }) tables
          after) ∨
      tables.insertExclusion ⟨orgID, categoryID, domain⟩ = none ∧
        (tables.excluded orgID categoryID domain = true ∨
          tables.lifted orgID categoryID domain = true) := by
  by_cases isNew : (⟨⟨orgID, categoryID, domain⟩, false⟩ : ExclusionRow).key ∉
      tables.exclusions.map ExclusionRow.key
  · left
    rw [Tables.insertExclusion, dif_pos isNew]
    refine ⟨_, rfl, ?_, .of_slots ?_ ?_ rfl rfl⟩
    · have absent : ∀ row ∈ tables.exclusions, row.key ≠ (orgID, categoryID, domain) := by
        intro row mem same
        exact isNew (List.mem_map.2 ⟨row, mem, same⟩)
      simpa [Tables.lifted] using fun row mem _ => absent row mem
    · simp [Tables.slot, Tables.builtIn, Tables.owned, Tables.excluded, Tables.lifted, ExclusionRow.key]
    · intro otherOrg otherCategory otherDomain differs
      simp [Tables.slot, Tables.builtIn, Tables.owned, Tables.excluded, Tables.lifted, ExclusionRow.key,
        -Prod.mk.injEq, differs.symm]
  · right
    rw [Tables.insertExclusion, dif_neg isNew]
    obtain ⟨row, mem, same⟩ := List.mem_map.1 (not_not.1 isNew)
    have named : row.key = (orgID, categoryID, domain) := same
    refine ⟨rfl, ?_⟩
    cases live : row.deleted with
    | false => exact .inl (List.any_eq_true.2 ⟨row, mem, by simp [live, named]⟩)
    | true => exact .inr (List.any_eq_true.2 ⟨row, mem, by simp [live, named]⟩)

theorem deleteExclusions_changes (excluded : tables.excluded orgID categoryID domain = true) :
    Changes orgID (View.change categoryID domain fun slot => { slot with excluded := false, lifted := true })
      tables (tables.deleteExclusions (orgID, categoryID, domain)) := by
  refine .of_slots ?_ ?_ rfl rfl
  · simp only [Tables.slot, excluded, Tables.excluded_deleteExclusions, Tables.lifted_deleteExclusions]
    simp
    exact ⟨rfl, rfl⟩
  · intro otherOrg otherCategory otherDomain differs
    simp only [Tables.slot, Tables.excluded_deleteExclusions, Tables.lifted_deleteExclusions, differs,
      ne_eq, not_false_eq_true, decide_true, decide_false, Bool.and_true, Bool.and_false, Bool.or_false]
    rfl

theorem addDomain_changes (tables : Tables) (orgID categoryID : UUID) (domain : List Char)
    (counts : Counts) : ∃ added after,
    addDomain orgID categoryID domain counts tables = some (added, after) ∧
      Changes orgID (View.change categoryID domain Slot.add) tables after := by
  unfold addDomain
  by_cases excluded : tables.excluded orgID categoryID domain = true
  · rw [if_pos excluded]
    refine ⟨_, _, rfl, (deleteExclusions_changes excluded).congr ?_⟩
    simp [Slot.add, Tables.slot, excluded]
  · rw [if_neg excluded]
    split_ifs with there
    · refine ⟨_, _, rfl, .refl (View.change_self ?_)⟩
      simp only [Slot.add, Tables.view, Tables.slot, excluded, there]
      rfl
    · simp only [Bool.or_eq_true, not_or, Bool.not_eq_true] at there excluded
      obtain ⟨after, inserted, changes⟩ := insertDomain_changes there.2
      refine ⟨_, after, by rw [inserted, Option.map_some], changes.congr ?_⟩
      simp [Slot.add, Tables.slot, excluded, there]

theorem deleteDomain_changes (tables : Tables) (orgID categoryID : UUID) {raw : List Char}
    (named : normalizeDomain lower raw ≠ []) :
    Changes orgID (View.change categoryID (normalizeDomain lower raw) Slot.remove) tables
        (deleteDomain lower orgID categoryID raw tables).2 ∧
      (deleteDomain lower orgID categoryID raw tables).1.succeeded =
        (tables.slot orgID categoryID (normalizeDomain lower raw)).removable := by
  simp only [deleteDomain, if_neg named]
  generalize normalizeDomain lower raw = domain at *
  split_ifs with owned unknown excluded
  · refine ⟨deleteDomains_changes.congr ?_, ?_⟩
    · simp [Slot.remove, Tables.slot, owned]
    · simp [Response.succeeded, Slot.removable, Tables.slot, owned]
  · refine ⟨.refl (View.change_self ?_), ?_⟩ <;>
      simp_all [Slot.remove, Slot.removable, Tables.view, Tables.slot, Response.succeeded]
  · refine ⟨.refl (View.change_self ?_), ?_⟩ <;>
      simp_all [Slot.remove, Slot.removable, Tables.view, Tables.slot, Response.succeeded]
  · simp only [Bool.not_eq_true, Bool.not_eq_eq_eq_not, Bool.not_true, Bool.not_eq_false] at owned unknown excluded
    obtain ⟨after, inserted, fresh, changes⟩ | ⟨refused, excluded' | lifted⟩ :=
      insertExclusion_changes tables orgID categoryID domain
    · rw [inserted]
      refine ⟨changes.congr ?_, ?_⟩
      · simp [Slot.remove, Tables.slot, owned, unknown, excluded, fresh]
      · simp [Response.succeeded, Slot.removable, Tables.slot, unknown, fresh]
    · simp [excluded] at excluded'
    · rw [refused]
      refine ⟨.refl (View.change_self ?_), ?_⟩
      · simp [Slot.remove, Tables.view, Tables.slot, owned, lifted]
      · simp [Response.succeeded, Slot.removable, Tables.slot, owned, excluded, lifted]

theorem Changes.trans {first second : View → View} {middle : Tables}
    (earlier : Changes orgID first tables middle) (later : Changes orgID second middle after) :
    Changes orgID (fun view => second (first view)) tables after where
  here := by rw [later.here, earlier.here]
  elsewhere other differs := by rw [later.elsewhere other differs, earlier.elsewhere other differs]
  categories := later.categories.trans earlier.categories

theorem addAll_changes (orgID categoryID : UUID) (domains : List (List Char)) (counts : Counts)
    (tables : Tables) :
    ∃ added after, addAll orgID categoryID domains counts tables = (.ok added, after) ∧
      Changes orgID (fun view => domains.foldl (fun view domain => view.change categoryID domain Slot.add)
        view) tables after := by
  induction domains generalizing counts tables with
  | nil => exact ⟨counts, tables, rfl, .refl rfl⟩
  | cons domain rest ih =>
    obtain ⟨added, middle, isAdded, changes⟩ := addDomain_changes tables orgID categoryID domain
      counts
    obtain ⟨total, after, all, others⟩ := ih added middle
    refine ⟨total, after, ?_, changes.trans others⟩
    simp only [addAll, isAdded, all]

theorem addDomains_changes (lower : Char → Char) (tables : Tables) (orgID categoryID : UUID)
    (request : AddRequest) :
    Changes orgID (Edit.apply lower tables.categories (.addDomains categoryID request)) tables
        (addDomains lower orgID categoryID request tables).2 ∧
      ((addDomains lower orgID categoryID request tables).1.succeeded = true ↔
        categoryID ∈ tables.categories ∧ request.named lower ≠ []) := by
  obtain ⟨added, after, all, changes⟩ := addAll_changes orgID categoryID (request.named lower)
    {} tables
  unfold addDomains Edit.apply
  by_cases known : categoryID ∈ tables.categories
  · simp only [known, not_true_eq_false, if_false, if_true, all, true_and]
    split_ifs with none
    · exact ⟨changes, by simp [Response.succeeded, none]⟩
    · exact ⟨changes, by simp [Response.succeeded, none]⟩
  · simp only [known, not_false_eq_true, if_true, if_false, false_and, iff_false]
    exact ⟨.refl rfl, by simp [Response.succeeded]⟩

theorem delete_changes (lower : Char → Char) (tables : Tables) (orgID categoryID : UUID) :
    Changes orgID (Edit.apply lower tables.categories (.delete categoryID)) tables
        (delete orgID categoryID tables).2 ∧
      ((delete orgID categoryID tables).1.succeeded = true ↔ categoryID ∈ tables.categories) := by
  unfold delete Edit.apply
  by_cases known : categoryID ∈ tables.categories
  · simp only [known, not_true_eq_false, if_false, if_true, iff_true]
    by_cases already : (orgID, categoryID) ∈ tables.hidden
    · rw [if_pos already]
      refine ⟨.refl ?_, rfl⟩
      simp [View.hide, Tables.view, already]
    · rw [if_neg already, Tables.insertHidden, dif_pos already]
      refine ⟨⟨?_, ?_, rfl⟩, rfl⟩
      · simp only [View.hide, Tables.view, View.mk.injEq]
        refine ⟨rfl, ?_⟩
        funext otherCategory
        by_cases same : otherCategory = categoryID <;> simp [same]
      · intro other differs
        simp only [Tables.view, View.mk.injEq]
        refine ⟨rfl, ?_⟩
        funext otherCategory
        simp [differs]
  · simp only [known, not_false_eq_true, if_true, if_false, iff_false]
    exact ⟨.refl rfl, by simp [Response.succeeded]⟩

theorem restore_changes :
    Changes orgID (View.hide categoryID false) tables (restore orgID categoryID tables).2 where
  here := by
    simp only [restore, Tables.deleteHidden, View.hide, Tables.view, View.mk.injEq]
    refine ⟨rfl, ?_⟩
    funext otherCategory
    by_cases same : otherCategory = categoryID <;> simp [same]
  elsewhere other differs := by
    simp only [restore, Tables.deleteHidden, Tables.view, View.mk.injEq]
    refine ⟨rfl, ?_⟩
    funext otherCategory
    simp [differs]
  categories := rfl

theorem handle_changes (lower : Char → Char) (tables : Tables) (orgID : UUID) (edit : Edit) :
    Changes orgID (edit.apply lower tables.categories) tables (edit.handle lower orgID tables).2 := by
  cases edit with
  | addDomains categoryID request => exact (addDomains_changes lower _ orgID categoryID request).1
  | deleteDomain categoryID raw =>
    by_cases named : normalizeDomain lower raw = []
    · simp only [Edit.handle, deleteDomain, if_pos named]
      apply Changes.refl
      simp [Edit.apply, named]
    · have changes := (deleteDomain_changes tables orgID categoryID named).1
      refine ⟨?_, changes.elsewhere, changes.categories⟩
      simp only [Edit.apply, if_neg named]
      exact changes.here
  | delete categoryID => exact (delete_changes lower _ orgID categoryID).1
  | restore categoryID => exact restore_changes

theorem Edit.apply_sound {categories : List UUID} {view : View} (sound : view.Sound) (edit : Edit) :
    (edit.apply lower categories view).Sound := by
  cases edit with
  | addDomains categoryID request =>
    simp only [Edit.apply]
    split_ifs
    · induction request.named lower generalizing view with
      | nil => exact sound
      | cons domain rest ih =>
        apply ih
        apply sound.change
        exact fun slot isSound => isSound.add.1
    · exact sound
  | deleteDomain categoryID raw =>
    simp only [Edit.apply]
    split_ifs
    · exact sound
    · apply sound.change
      exact fun slot isSound => isSound.remove
  | delete categoryID =>
    simp only [Edit.apply]
    split_ifs <;> exact sound
  | restore categoryID => exact sound

theorem effective_foldl_add {view : View} (sound : view.Sound) {domains : List (List Char)}
    (named : domain ∈ domains ∨ (view.slots categoryID domain).effective = true) :
    ((domains.foldl (fun view domain => view.change categoryID domain Slot.add) view).slots categoryID
      domain).effective = true := by
  induction domains generalizing view with
  | nil => simpa using named
  | cons first rest ih =>
    apply ih (sound.change (fun slot isSound => isSound.add.1) categoryID first)
    by_cases same : domain = first
    · subst same
      right
      rw [View.slots_change]
      exact (sound categoryID domain).add.2
    · simp only [View.change, Prod.mk.injEq, same, and_false, if_false]
      simpa [same] using named

variable (lower) in
/-- A request that succeeds has done what it asks for, and one that can succeed does. -/
def Works (tables : Tables) (entry : UUID × Edit) : Prop :=
  let outcome := entry.2.handle lower entry.1 tables
  match entry.2 with
  | .addDomains categoryID request =>
    (categoryID ∈ tables.categories ∧ request.named lower ≠ [] → outcome.1.succeeded = true) ∧
      (outcome.1.succeeded = true → ∀ domain ∈ request.named lower,
        outcome.2.effective entry.1 categoryID domain = true)
  | .deleteDomain categoryID raw =>
    (normalizeDomain lower raw ≠ [] ∧
        tables.effective entry.1 categoryID (normalizeDomain lower raw) = true →
          outcome.1.succeeded = true) ∧
      (outcome.1.succeeded = true →
        outcome.2.effective entry.1 categoryID (normalizeDomain lower raw) = false)
  | .delete categoryID =>
    (categoryID ∈ tables.categories → outcome.1.succeeded = true) ∧
      (outcome.1.succeeded = true → (entry.1, categoryID) ∈ outcome.2.hidden)
  | .restore categoryID =>
    outcome.1.succeeded = true ∧ (entry.1, categoryID) ∉ outcome.2.hidden

variable (lower) in
/-- A shipped domain in effect is removed for the first time. -/
def Careful (tables : Tables) (entry : UUID × Edit) : Prop :=
  match entry.2 with
  | .deleteDomain categoryID raw =>
    normalizeDomain lower raw ≠ [] ∧
        tables.builtIn categoryID (normalizeDomain lower raw) = true ∧
        tables.excluded entry.1 categoryID (normalizeDomain lower raw) = false →
      tables.lifted entry.1 categoryID (normalizeDomain lower raw) = false
  | _ => True

theorem works_iff_careful {entry : UUID × Edit} (sound : (tables.view entry.1).Sound) :
    Works lower tables entry ↔ Careful lower tables entry := by
  obtain ⟨orgID, edit⟩ := entry
  have changes := handle_changes lower tables orgID edit
  cases edit with
  | addDomains categoryID request =>
    simp only [Works, Careful, iff_true]
    have succeeds := (addDomains_changes lower tables orgID categoryID request).2
    refine ⟨succeeds.2, fun done domain named => ?_⟩
    obtain ⟨known, -⟩ := succeeds.1 done
    rw [← Tables.effective_slot]
    change (((Edit.handle lower orgID _ tables).2.view orgID).slots categoryID domain).effective = true
    rw [changes.here, Edit.apply, if_pos known]
    exact effective_foldl_add sound (.inl named)
  | deleteDomain categoryID raw =>
    by_cases named : normalizeDomain lower raw = []
    · simp [Works, Careful, Edit.handle, deleteDomain, named, Response.succeeded]
    · have here := (deleteDomain_changes tables orgID categoryID named).1.here
      have after := congrArg (fun view : View => view.slots categoryID (normalizeDomain lower raw)) here
      simp only [View.slots_change] at after
      have succeeds := (deleteDomain_changes tables orgID categoryID named).2
      simp only [Works, Careful, named, ne_eq, not_false_eq_true, true_and, Edit.handle, succeeds,
        ← Tables.effective_slot]
      change (_ ∧ (_ → Slot.effective (((deleteDomain lower orgID categoryID raw tables).2.view
        orgID).slots categoryID (normalizeDomain lower raw)) = false)) ↔ _
      rw [after]
      exact (sound categoryID (normalizeDomain lower raw)).removes_iff
  | delete categoryID =>
    simp only [Works, Careful, iff_true]
    have succeeds := (delete_changes lower tables orgID categoryID).2
    refine ⟨succeeds.2, fun done => ?_⟩
    have hidden := congrArg (View.hidden · categoryID) changes.here
    simpa [Edit.apply, succeeds.1 done, View.hide, Tables.view] using hidden
  | restore categoryID =>
    simp only [Works, Careful, iff_true]
    refine ⟨rfl, ?_⟩
    have hidden := congrArg (View.hidden · categoryID) changes.here
    simpa [Edit.apply, View.hide, Tables.view] using hidden

variable (lower) in
/-- An organisation sees its own edits and nobody else's. -/
def Private (start : Tables) (trace : List (UUID × Edit)) : Prop :=
  ∀ orgID after alone, exec (step lower) start trace = some after →
    exec (step lower) start (trace.filter fun entry => entry.1 = orgID) = some alone →
      ∀ categoryID, ((orgID, categoryID) ∈ after.hidden ↔ (orgID, categoryID) ∈ alone.hidden) ∧
        ∀ domain, after.effective orgID categoryID domain = alone.effective orgID categoryID domain

theorem view_exec {trace : List (UUID × Edit)} {first second alone : Tables}
    (sameView : first.view orgID = second.view orgID) (sameCategories : first.categories = second.categories)
    (executed : exec (step lower) first trace = some after)
    (executedAlone : exec (step lower) second (trace.filter fun entry => entry.1 = orgID) = some alone) :
    after.view orgID = alone.view orgID := by
  induction trace generalizing first second with
  | nil =>
    cases executed
    cases executedAlone
    exact sameView
  | cons entry rest ih =>
    obtain ⟨ofOrg, edit⟩ := entry
    obtain ⟨next, stepped, executed⟩ := exec_cons_eq_some.1 executed
    cases stepped
    have changes := handle_changes lower first ofOrg edit
    by_cases own : ofOrg = orgID
    · subst own
      rw [List.filter_cons_of_pos (by simp)] at executedAlone
      obtain ⟨next, stepped, executedAlone⟩ := exec_cons_eq_some.1 executedAlone
      cases stepped
      have changesAlone := handle_changes lower second ofOrg edit
      refine ih ?_ ?_ executed executedAlone
      · rw [changes.here, changesAlone.here, sameView, sameCategories]
      · rw [changes.categories, changesAlone.categories, sameCategories]
    · rw [List.filter_cons_of_neg (by simpa using own)] at executedAlone
      refine ih ?_ ?_ executed executedAlone
      · rw [changes.elsewhere orgID (Ne.symm own), sameView]
      · rw [changes.categories, sameCategories]

theorem private_run (start : Tables) (trace : List (UUID × Edit)) : Private lower start trace := by
  intro orgID after alone executed executedAlone categoryID
  have same := view_exec rfl rfl executed executedAlone
  constructor
  · simpa [Tables.view] using congrArg (View.hidden · categoryID) same
  · intro domain
    rw [← Tables.effective_slot, ← Tables.effective_slot]
    exact congrArg (fun view : View => (view.slots categoryID domain).effective) same

def Tables.Sound (tables : Tables) : Prop := ∀ orgID, (tables.view orgID).Sound

theorem shipped_sound (categories : List UUID) (builtIn : List (UUID × List Char)) :
    (Tables.shipped categories builtIn).Sound := by
  intro orgID categoryID domain
  refine ⟨?_, fun both => ?_⟩
  · simp [Tables.view, Tables.slot, Tables.excluded, Tables.shipped]
  · simp [Tables.view, Tables.slot, Tables.owned, Tables.shipped, DomainRow.key] at both

theorem step_sound {entry : UUID × Edit} (sound : tables.Sound)
    (stepped : step lower tables entry = some after) : after.Sound := by
  cases stepped
  intro orgID
  have changes := handle_changes lower tables entry.1 entry.2
  by_cases own : orgID = entry.1
  · rw [own, changes.here]
    exact Edit.apply_sound (sound entry.1) entry.2
  · rw [changes.elsewhere orgID own]
    exact sound orgID

/-- A run is private, and all its edits work exactly when no shipped domain that an organisation had
removed and added again is removed once more. -/
theorem reversible_iff (categories : List UUID) (builtIn : List (UUID × List Char))
    (trace : List (UUID × Edit)) :
    Private lower (.shipped categories builtIn) trace ∧
        AllSteps (step lower) (Works lower) (.shipped categories builtIn) trace ↔
      AllSteps (step lower) (Careful lower) (.shipped categories builtIn) trace := by
  simp only [private_run, true_and]
  have start := shipped_sound categories builtIn
  constructor
  · intro works
    apply allSteps_of_invariant _ _ start works
    · intro tables entry after sound _ stepped
      exact step_sound sound stepped
    · intro tables entry sound works
      exact (works_iff_careful (sound entry.1)).1 works
  · intro careful
    apply allSteps_of_invariant _ _ start careful
    · intro tables entry after sound _ stepped
      exact step_sound sound stepped
    · intro tables entry sound careful
      exact (works_iff_careful (sound entry.1)).2 careful

end Refinement

/-- A shipped domain is removed, added again, and cannot be removed any more. -/
theorem not_reversible_twice :
    let orgID : UUID := ⟨1⟩
    let categoryID : UUID := ⟨7⟩
    let domain := "casino.example".toList
    ¬AllSteps (step Char.toLower) (Works Char.toLower) (.shipped [categoryID] [(categoryID, domain)])
      [(orgID, .deleteDomain categoryID domain), (orgID, .addDomains categoryID ⟨domain, []⟩),
        (orgID, .deleteDomain categoryID domain)] := by
  intro orgID categoryID domain works
  have last := ((works.2 _ rfl).2 _ rfl).1.1
  revert last
  decide +kernel

end Aavishield.Categories
