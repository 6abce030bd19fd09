import Mathlib.Data.List.Perm.Subperm
import Mathlib.Data.List.Sort

/-!
# Reading a table page by page

Two ways of reading all items of a table in pages of a bounded size.

With a *keyset*, every item has a key of its own, and a page starts strictly after the
last key of the page before.

With a *cursor*, keys may be shared.  A page starts at the key of the item visited last,
so that it repeats what was seen at that key, and the reader skips what it has seen.  It
stops at a page that is not full, or in which there is nothing new.  The second test loses
items exactly when a key is *crowded*: when the items at that key fill a page, and more
follow at that key or after it.  What a cursor selects, `since`, may be more than the items
from that key on, as when the first cursor selects everything.
-/

namespace Paging

universe u v w

variable {Item : Type u} {Id : Type v} {Key : Type w} [LinearOrder Key]

variable {item : Item} {items : List Item}

theorem mem_take_or_lt {key : Item → Key} {size : ℕ}
    (sorted : items.Pairwise (key · < key ·)) (itemMem : item ∈ items) :
    item ∈ items.take size ∨ ∀ first ∈ items.take size, key first < key item := by
  rw [← List.take_append_drop size items] at sorted itemMem
  rcases List.mem_append.mp itemMem with taken | dropped
  · left
    exact taken
  · right
    intro first firstMem
    exact (List.pairwise_append.mp sorted).2.2 first firstMem item dropped

theorem filter_after {precedes : Item → Item → Prop} [DecidableRel precedes]
    (asymm : ∀ first second, precedes first second → ¬precedes second first)
    {before after : List Item} {last : Item}
    (sorted : (before ++ last :: after).Pairwise precedes) :
    (before ++ last :: after).filter (precedes last ·) = after := by
  obtain ⟨-, tailSorted, across⟩ := List.pairwise_append.mp sorted
  have behind : before.filter (precedes last ·) = [] := by
    apply List.filter_eq_nil_iff.mpr
    intro item itemMem
    simpa using asymm item last (across item itemMem last List.mem_cons_self)
  have ahead : after.filter (precedes last ·) = after := by
    apply List.filter_eq_self.mpr
    intro item itemMem
    simpa using List.rel_of_pairwise_cons tailSorted itemMem
  have itself : ¬precedes last last := fun loop => asymm last last loop loop
  simp [List.filter_append, behind, ahead, itself]

theorem insertionSort_filter {ordered : Item → Item → Prop} [DecidableRel ordered]
    [IsTrans Item ordered] [Std.Total ordered] (antisymm : ∀ first ∈ items, ∀ second ∈ items,
      ordered first second → ordered second first → first = second) (selects : Item → Bool) :
    (items.filter selects).insertionSort ordered =
      (items.insertionSort ordered).filter selects := by
  apply List.Perm.eq_of_pairwise
  · intro first second firstMem secondMem
    have firstItem := (List.mem_filter.mp ((List.perm_insertionSort _ _).mem_iff.mp firstMem)).1
    have secondItem := (List.perm_insertionSort _ _).mem_iff.mp (List.mem_filter.mp secondMem).1
    exact antisymm first firstItem second secondItem
  · exact List.pairwise_insertionSort ordered _
  · exact (List.pairwise_insertionSort ordered _).filter _
  · exact (List.perm_insertionSort _ _).trans ((List.perm_insertionSort _ _).filter selects).symm

variable (id : Item → Id) (key : Item → Key)

structure Position (Id : Type v) (Key : Type w) where
  cursor : Key
  seen : List Id

def Position.visit (position : Position Id Key) (item : Item) : Position Id Key :=
  if key item = position.cursor then ⟨position.cursor, id item :: position.seen⟩
  else ⟨key item, [id item]⟩

def Position.pass [DecidableEq Id] (position : Position Id Key) (item : Item) : Position Id Key :=
  if id item ∈ position.seen then position else position.visit id key item

def Position.passAll [DecidableEq Id] (position : Position Id Key) (page : List Item) :
    Position Id Key :=
  page.foldl (Position.pass id key) position

def Crowded (size : ℕ) (items : List Item) : Prop :=
  ∃ item ∈ items, size ≤ (items.filter (key · = key item)).length ∧
    size < (items.filter (key item ≤ key ·)).length

theorem crowded_map {size : ℕ} {rewrite : Item → Item}
    (keeps : ∀ item, key (rewrite item) = key item) :
    Crowded key size (items.map rewrite) ↔ Crowded key size items := by
  simp [Crowded, List.filter_map, Function.comp_def, keeps]

variable (since : Key → Item → Bool)

structure Resting (items : List Item) (done : Id → Prop) (position : Position Id Key) : Prop where
  behind : ∀ item ∈ items, since position.cursor item = false → done (id item)
  seen : ∀ item ∈ items, id item ∈ position.seen → key item = position.cursor ∧ done (id item)

/-- Inside a page of which `pending` is still to come. -/
structure Midway (size : ℕ) (items : List Item) (done : Id → Prop) (position : Position Id Key)
    (pending : List Item) (full progressed : Bool) : Prop
    extends Resting id key since items done position where
  sorted : pending.Pairwise (key · ≤ key ·)
  mem : ∀ item ∈ pending, item ∈ items
  beyond : ∀ item ∈ items, done (id item) ∨ item ∈ pending ∨ ∀ other ∈ pending, key other ≤ key item
  short : full = false → ∀ item ∈ items, done (id item) ∨ item ∈ pending
  /-- As long as nothing is new, the page so far consists of items seen before. -/
  stale : full = true → progressed = false → ∃ skipped : List Item,
    (skipped ++ pending).Nodup ∧ size = (skipped ++ pending).length ∧
      (∀ item ∈ skipped, item ∈ items ∧ id item ∈ position.seen) ∧
      ∀ item ∈ items, since position.cursor item = true → item ∈ skipped ++ pending ∨
        ∀ other ∈ skipped ++ pending, key other ≤ key item

variable {id key since} {size : ℕ} {pending : List Item} {done : Id → Prop}
  {position : Position Id Key} {full progressed : Bool}

omit [LinearOrder Key] in
theorem Resting.start (position : Position Id Key) (unseen : position.seen = [])
    (first : ∀ item ∈ items, since position.cursor item = true) :
    Resting id key since items done position := by
  constructor
  · intro item itemMem leftOut
    rw [first item itemMem] at leftOut
    cases leftOut
  · intro item _ seen
    rw [unseen] at seen
    cases seen

theorem Resting.openPage (resting : Resting id key since items done position)
    (distinct : items.Nodup) {order : List Item}
    (perm : order.Perm (items.filter (since position.cursor)))
    (sorted : order.Pairwise (key · ≤ key ·)) :
    Midway id key since size items done position (order.take size)
      (decide ((order.take size).length = size)) false := by
  have orderMem : ∀ item, item ∈ order ↔ item ∈ items ∧ since position.cursor item = true := by
    intro item
    rw [perm.mem_iff, List.mem_filter]
  have selected : ∀ item ∈ items, since position.cursor item = true →
      item ∈ order.take size ∨ ∀ other ∈ order.take size, key other ≤ key item := by
    intro item itemMem ahead
    have inOrder := (orderMem item).mpr ⟨itemMem, ahead⟩
    rw [← List.take_append_drop size order] at inOrder sorted
    rcases List.mem_append.mp inOrder with taken | dropped
    · left
      exact taken
    · right
      intro other otherMem
      exact (List.pairwise_append.mp sorted).2.2 other otherMem item dropped
  refine ⟨resting, ?_, ?_, ?_, ?_, ?_⟩
  · exact sorted.sublist (List.take_sublist size order)
  · intro item itemMem
    exact ((orderMem item).mp (List.mem_of_mem_take itemMem)).1
  · intro item itemMem
    cases ahead : since position.cursor item with
    | true =>
      right
      exact selected item itemMem ahead
    | false =>
      left
      exact resting.behind item itemMem ahead
  · intro notFull item itemMem
    cases ahead : since position.cursor item with
    | true =>
      right
      have whole : order.take size = order := by
        apply List.take_of_length_le
        simp only [decide_eq_false_iff_not, List.length_take] at notFull
        omega
      rw [whole]
      exact (orderMem item).mpr ⟨itemMem, ahead⟩
    | false =>
      left
      exact resting.behind item itemMem ahead
  · intro isFull _
    have nodup : order.Nodup := perm.nodup_iff.mpr (distinct.filter _)
    refine ⟨[], ?_, ?_, by simp, selected⟩
    · exact nodup.sublist (List.take_sublist size order)
    · simpa using (decide_eq_true_iff.mp isFull).symm

theorem Midway.skip
    (midway : Midway id key since size items done position (item :: pending) full progressed)
    (seen : id item ∈ position.seen) :
    Midway id key since size items done position pending full progressed := by
  have itemDone := (midway.seen item (midway.mem item List.mem_cons_self) seen).2
  refine ⟨midway.toResting, (List.pairwise_cons.mp midway.sorted).2, ?_, ?_, ?_, ?_⟩
  · intro other otherMem
    exact midway.mem other (List.mem_cons_of_mem item otherMem)
  · intro other otherMem
    rcases midway.beyond other otherMem with before | inPage | after
    · exact .inl before
    · rcases List.mem_cons.mp inPage with rfl | later
      · exact .inl itemDone
      · exact .inr (.inl later)
    · exact .inr (.inr fun next nextMem => after next (List.mem_cons_of_mem item nextMem))
  · intro notFull other otherMem
    rcases midway.short notFull other otherMem with before | inPage
    · exact .inl before
    · rcases List.mem_cons.mp inPage with rfl | later
      · exact .inl itemDone
      · exact .inr later
  · intro isFull nothing
    rcases midway.stale isFull nothing with ⟨skipped, nodup, filled, allSeen, selected⟩
    refine ⟨skipped ++ [item], ?_, ?_, ?_, ?_⟩
    · simpa using nodup
    · simpa using filled
    · intro other otherMem
      rcases List.mem_append.mp otherMem with before | isItem
      · exact allSeen other before
      · cases List.mem_singleton.mp isItem
        exact ⟨midway.mem item List.mem_cons_self, seen⟩
    · simpa using selected

theorem Midway.visit {next : Id → Prop}
    (midway : Midway id key since size items done position (item :: pending) full progressed)
    (covers : ∀ cursor item, cursor ≤ key item → since cursor item = true)
    (distinct : (items.map id).Nodup) (grows : ∀ other, done other → next other)
    (itemDone : next (id item)) :
    Midway id key since size items next (position.visit id key item) pending full true := by
  have itemMem := midway.mem item List.mem_cons_self
  have laterSorted := List.pairwise_cons.mp midway.sorted
  have same : ∀ other ∈ items, id other = id item → other = item :=
    fun other otherMem sameId => List.inj_on_of_nodup_map distinct otherMem itemMem sameId
  refine ⟨⟨?_, ?_⟩, laterSorted.2, ?_, ?_, ?_, by simp⟩
  · intro other otherMem leftOut
    apply grows
    unfold Position.visit at leftOut
    split_ifs at leftOut with sameKey
    · exact midway.behind other otherMem leftOut
    · -- the items before the new cursor are behind the page or were passed in it
      have before : key other < key item := by
        apply lt_of_not_ge
        intro ahead
        rw [covers (key item) other ahead] at leftOut
        cases leftOut
      rcases midway.beyond other otherMem with alreadyDone | inPage | after
      · exact alreadyDone
      · rcases List.mem_cons.mp inPage with rfl | later
        · exact absurd before (lt_irrefl _)
        · exact absurd before (not_lt.mpr (laterSorted.1 other later))
      · exact absurd before (not_lt.mpr (after item List.mem_cons_self))
  · intro other otherMem seen
    unfold Position.visit at seen ⊢
    split_ifs at seen ⊢ with sameKey
    · rcases List.mem_cons.mp seen with sameId | before
      · rw [same other otherMem sameId]
        exact ⟨sameKey, itemDone⟩
      · have past := midway.seen other otherMem before
        exact ⟨past.1, grows _ past.2⟩
    · rw [same other otherMem (List.mem_singleton.mp seen)]
      exact ⟨rfl, itemDone⟩
  · intro other otherMem
    exact midway.mem other (List.mem_cons_of_mem item otherMem)
  · intro other otherMem
    rcases midway.beyond other otherMem with before | inPage | after
    · exact .inl (grows _ before)
    · rcases List.mem_cons.mp inPage with rfl | later
      · exact .inl itemDone
      · exact .inr (.inl later)
    · exact .inr (.inr fun next nextMem => after next (List.mem_cons_of_mem item nextMem))
  · intro notFull other otherMem
    rcases midway.short notFull other otherMem with before | inPage
    · exact .inl (grows _ before)
    · rcases List.mem_cons.mp inPage with rfl | later
      · exact .inl itemDone
      · exact .inr later

theorem Midway.finish (midway : Midway id key since size items done position [] full progressed)
    (positive : 0 < size) (uncrowded : ¬Crowded key size items)
    (stops : full = false ∨ progressed = false) : ∀ item ∈ items, done (id item) := by
  intro item itemMem
  cases isFull : full with
  | false => exact (midway.short isFull item itemMem).resolve_right (by simp)
  | true =>
    have nothing : progressed = false := stops.resolve_left (by simp [isFull])
    rcases midway.stale isFull nothing with ⟨skipped, nodup, filled, allSeen, selected⟩
    simp only [List.append_nil] at nodup filled selected
    have nonempty : skipped ≠ [] := by
      rintro rfl
      simp at filled
      omega
    rcases List.exists_mem_of_ne_nil skipped nonempty with ⟨first, firstMem⟩
    by_cases ahead : position.cursor ≤ key item
    · -- the page is one key, and by assumption there is nothing else from that key on
      have atCursor : ∀ other ∈ skipped, other ∈ items ∧ key other = position.cursor := by
        intro other otherMem
        rcases allSeen other otherMem with ⟨otherItem, otherSeen⟩
        exact ⟨otherItem, (midway.seen other otherItem otherSeen).1⟩
      have withCursor : skipped.Subperm (items.filter (key · = position.cursor)) := by
        apply List.subperm_of_subset nodup
        intro other otherMem
        simpa using atCursor other otherMem
      have fromCursor : skipped.Subperm (items.filter (position.cursor ≤ key ·)) := by
        apply List.subperm_of_subset nodup
        intro other otherMem
        have there := atCursor other otherMem
        simpa using ⟨there.1, there.2.ge⟩
      have firstKey := atCursor first firstMem
      have noMore : (items.filter (position.cursor ≤ key ·)).length ≤ skipped.length := by
        by_contra more
        apply uncrowded
        refine ⟨first, firstKey.1, ?_, ?_⟩
        · rw [firstKey.2, filled]
          exact withCursor.length_le
        · rw [firstKey.2]
          omega
      have perm := fromCursor.perm_of_length_le noMore
      have itemSkipped : item ∈ skipped := by
        rw [perm.mem_iff, List.mem_filter]
        exact ⟨itemMem, by simpa using ahead⟩
      exact (midway.seen item itemMem (allSeen item itemSkipped).2).2
    · cases isSelected : since position.cursor item with
      | false => exact midway.behind item itemMem isSelected
      | true =>
        rcases selected item itemMem isSelected with itemSkipped | after
        · exact (midway.seen item itemMem (allSeen item itemSkipped).2).2
        · have firstSeen := allSeen first firstMem
          have firstKey := (midway.seen first firstSeen.1 firstSeen.2).1
          exact absurd (firstKey ▸ after first firstMem) ahead

variable [DecidableEq Id] {order : List Item}

variable (key size) in
def pageFrom (order : List Item) (cursor : Key) : List Item :=
  (order.filter (cursor ≤ key ·)).take size

variable (id key size order) in
inductive Turns : Position Id Key → List (List Item) → Position Id Key → Prop where
  | done (position : Position Id Key) : Turns position [] position
  | turn {position final : Position Id Key} {pages : List (List Item)}
      (full : (pageFrom key size order position.cursor).length = size)
      (fresh : ∃ item ∈ pageFrom key size order position.cursor, id item ∉ position.seen)
      (rest : Turns (position.passAll id key (pageFrom key size order position.cursor)) pages
        final) :
      Turns position (pageFrom key size order position.cursor :: pages) final

variable (id key size order) in
def Stuck (position : Position Id Key) : Prop :=
  (pageFrom key size order position.cursor).length = size ∧
    ∀ item ∈ pageFrom key size order position.cursor, id item ∈ position.seen

variable (id key order) in
def Tracks (position : Position Id Key) : Prop :=
  ∀ item ∈ order, id item ∈ position.seen → key item = position.cursor

theorem Tracks.pass (tracks : Tracks id key order position) (distinct : (order.map id).Nodup)
    (itemMem : item ∈ order) :
    Tracks id key order (position.pass id key item) ∧
      (position.pass id key item).cursor = key item := by
  unfold Position.pass Position.visit
  split_ifs with seen sameKey
  · exact ⟨tracks, (tracks item itemMem seen).symm⟩
  · refine ⟨?_, sameKey.symm⟩
    intro other otherMem otherSeen
    rcases List.mem_cons.mp otherSeen with sameId | before
    · rw [List.inj_on_of_nodup_map distinct otherMem itemMem sameId]
      exact sameKey
    · exact tracks other otherMem before
  · refine ⟨?_, rfl⟩
    intro other otherMem otherSeen
    have sameId := List.mem_singleton.mp otherSeen
    rw [List.inj_on_of_nodup_map distinct otherMem itemMem sameId]

variable {page : List Item}

theorem Tracks.passAll (tracks : Tracks id key order position) (distinct : (order.map id).Nodup)
    (pageMem : ∀ item ∈ page, item ∈ order) :
    Tracks id key order (position.passAll id key page) ∧
      ∀ last ∈ page.getLast?, (position.passAll id key page).cursor = key last := by
  induction page generalizing position with
  | nil => exact ⟨tracks, by simp⟩
  | cons item rest ih =>
    have passed := tracks.pass distinct (pageMem item List.mem_cons_self)
    have later := ih passed.1 fun other otherMem => pageMem other (List.mem_cons_of_mem item otherMem)
    refine ⟨later.1, ?_⟩
    intro last isLast
    cases rest with
    | nil =>
      simp only [List.getLast?_singleton, Option.mem_def, Option.some.injEq] at isLast
      subst isLast
      exact passed.2
    | cons next rest => exact later.2 last (by simpa using isLast)

variable (id) in
theorem passAll_of_cursor (atCursor : ∀ item ∈ page, key item = position.cursor) :
    (position.passAll id key page).cursor = position.cursor ∧
      (∀ old ∈ position.seen, old ∈ (position.passAll id key page).seen) ∧
      ∀ item ∈ page, id item ∈ (position.passAll id key page).seen := by
  induction page generalizing position with
  | nil => exact ⟨rfl, fun old oldMem => oldMem, by simp⟩
  | cons item rest ih =>
    have passed : (position.pass id key item).cursor = position.cursor ∧
        (∀ old ∈ position.seen, old ∈ (position.pass id key item).seen) ∧
        id item ∈ (position.pass id key item).seen := by
      unfold Position.pass Position.visit
      split_ifs with seen sameKey
      · exact ⟨rfl, fun old oldMem => oldMem, seen⟩
      · exact ⟨rfl, fun old oldMem => List.mem_cons_of_mem _ oldMem, List.mem_cons_self⟩
      · exact absurd (atCursor item List.mem_cons_self) sameKey
    rcases passed with ⟨cursorKept, seenKept, itemSeen⟩
    have restAtCursor : ∀ other ∈ rest, key other = (position.pass id key item).cursor := by
      intro other otherMem
      rw [cursorKept]
      exact atCursor other (List.mem_cons_of_mem item otherMem)
    have later := ih restAtCursor
    refine ⟨later.1.trans cursorKept, ?_, ?_⟩
    · intro old oldMem
      exact later.2.1 old (seenKept old oldMem)
    · intro other otherMem
      rcases List.mem_cons.mp otherMem with rfl | inRest
      · exact later.2.1 _ itemSeen
      · exact later.2.2 other inRest

theorem not_mem_take_of_sublist {part whole : List Item} (sub : part.Sublist whole)
    (nodup : whole.Nodup) {count : ℕ} (late : item ∈ part.drop count) :
    item ∉ whole.take count := by
  induction sub generalizing count with
  | slnil => simp
  | cons head sub ih =>
    cases count with
    | zero => simp
    | succ count =>
      rcases List.nodup_cons.mp nodup with ⟨headNew, restNodup⟩
      have itemMem := sub.subset (List.mem_of_mem_drop late)
      have earlier := ih restNodup (List.drop_subset_drop_left _ (Nat.le_succ count) late)
      simp only [List.take_succ_cons, List.mem_cons, not_or]
      exact ⟨fun same => headNew (same ▸ itemMem), earlier⟩
  | cons_cons head sub ih =>
    cases count with
    | zero => simp
    | succ count =>
      rcases List.nodup_cons.mp nodup with ⟨headNew, restNodup⟩
      rw [List.drop_succ_cons] at late
      have itemMem := sub.subset (List.mem_of_mem_drop late)
      simp only [List.take_succ_cons, List.mem_cons, not_or]
      exact ⟨fun same => headNew (same ▸ itemMem), ih restNodup late⟩

theorem mem_pageFrom {cursor : Key} (itemMem : item ∈ pageFrom key size order cursor) :
    item ∈ order ∧ cursor ≤ key item := by
  simpa using List.mem_filter.mp (List.mem_of_mem_take itemMem)

theorem not_mem_pageFrom_of_le (nodup : order.Nodup) {earlier cursor : Key} (le : earlier ≤ cursor)
    {lost : Item} (late : lost ∈ (order.filter (cursor ≤ key ·)).drop size) :
    lost ∉ pageFrom key size order earlier := by
  have sub : (order.filter (cursor ≤ key ·)).Sublist (order.filter (earlier ≤ key ·)) := by
    apply List.monotone_filter_right
    intro item ahead
    simp only [decide_eq_true_eq] at ahead ⊢
    exact le.trans ahead
  exact not_mem_take_of_sublist sub (nodup.filter _) late

theorem exists_mem_drop (long : size < items.length) :
    ∃ item, item ∈ items.drop size := by
  refine ⟨items[size], ?_⟩
  rw [List.drop_eq_getElem_cons long]
  exact List.mem_cons_self

theorem key_le_getLast (sorted : page.Pairwise (key · ≤ key ·))
    (nonempty : page ≠ []) (itemMem : item ∈ page) :
    key item ≤ key (page.getLast nonempty) := by
  rw [← List.dropLast_append_getLast nonempty] at itemMem sorted
  rcases List.mem_append.mp itemMem with before | isLast
  · exact (List.pairwise_append.mp sorted).2.2 item before _ (List.mem_singleton_self _)
  · rw [List.mem_singleton.mp isLast]

theorem getLast_pageFrom_le (sorted : order.Pairwise (key · ≤ key ·)) (nodup : order.Nodup)
    {cursor crowd : Key} (fills : size ≤ (order.filter (key · = crowd)).length)
    (reaches : cursor ≤ crowd) (full : (pageFrom key size order cursor).length = size)
    (nonempty : pageFrom key size order cursor ≠ []) :
    key ((pageFrom key size order cursor).getLast nonempty) ≤ crowd := by
  have lastMem := List.getLast_mem nonempty
  by_contra past
  have past := lt_of_not_ge past
  have crowdInPage : ∀ item ∈ order.filter (key · = crowd),
      item ∈ pageFrom key size order cursor := by
    intro item itemMem
    simp only [List.mem_filter, decide_eq_true_eq] at itemMem
    have inSuffix : item ∈ order.filter (cursor ≤ key ·) := by
      apply List.mem_filter.mpr
      exact ⟨itemMem.1, decide_eq_true (reaches.trans itemMem.2.ge)⟩
    have suffixSorted := sorted.filter (cursor ≤ key ·)
    have split := List.take_append_drop size (order.filter (cursor ≤ key ·))
    rw [← split] at inSuffix suffixSorted
    rcases List.mem_append.mp inSuffix with taken | dropped
    · exact taken
    · have after := (List.pairwise_append.mp suffixSorted).2.2 _ lastMem item dropped
      rw [itemMem.2] at after
      exact absurd past (not_lt.mpr after)
  have crowdNodup :
      ((pageFrom key size order cursor).getLast nonempty ::
        order.filter (key · = crowd)).Nodup := by
    apply List.nodup_cons.mpr
    refine ⟨?_, nodup.filter _⟩
    intro inCrowd
    simp only [List.mem_filter, decide_eq_true_eq] at inCrowd
    exact absurd past (not_lt.mpr inCrowd.2.le)
  have fits := (List.subperm_of_subset crowdNodup
    (List.cons_subset.mpr ⟨lastMem, crowdInPage⟩)).length_le
  rw [List.length_cons, full] at fits
  omega

theorem length_ahead_lt (nodup : order.Nodup) {cursor : Key} (itemMem : item ∈ order)
    (advances : cursor < key item) :
    (order.filter (key item < key ·)).length < (order.filter (cursor < key ·)).length := by
  have stillAhead : (item :: order.filter (key item < key ·)).Subperm
      (order.filter (cursor < key ·)) := by
    apply List.subperm_of_subset
    · apply List.nodup_cons.mpr
      refine ⟨?_, nodup.filter _⟩
      simp
    · apply List.cons_subset.mpr
      constructor
      · simpa using ⟨itemMem, advances⟩
      · intro other otherMem
        simp only [List.mem_filter, decide_eq_true_eq] at otherMem ⊢
        exact ⟨otherMem.1, advances.trans otherMem.2⟩
  exact stillAhead.length_le

/--
From any key up to a crowded one, reading on comes to a full page without anything new,
and some item has not been on any page.
-/
theorem exists_turns_stuck (sorted : order.Pairwise (key · ≤ key ·))
    (distinct : (order.map id).Nodup) {crowd : Key}
    (fills : size ≤ (order.filter (key · = crowd)).length)
    (more : size < (order.filter (crowd ≤ key ·)).length)
    (tracks : Tracks id key order position) (reaches : position.cursor ≤ crowd) :
    ∃ pages final lost, Turns id key size order position pages final ∧
      Stuck id key size order final ∧ lost ∈ order ∧ (∀ page ∈ pages, lost ∉ page) ∧
      position.cursor ≤ final.cursor ∧
      ∀ earlier, earlier ≤ final.cursor → lost ∉ pageFrom key size order earlier := by
  have nodup : order.Nodup := List.Nodup.of_map id distinct
  -- by induction on the number of items that lie ahead of the cursor
  induction counted : (order.filter (position.cursor < key ·)).length using Nat.strong_induction_on
    generalizing position with
  | _ ahead ih =>
  have long : size < (order.filter (position.cursor ≤ key ·)).length := by
    apply lt_of_lt_of_le more
    apply List.Sublist.length_le
    apply List.monotone_filter_right
    intro item atLeast
    simp only [decide_eq_true_eq] at atLeast ⊢
    exact reaches.trans atLeast
  have full : (pageFrom key size order position.cursor).length = size := by
    simp only [pageFrom, List.length_take]
    omega
  have stops : ∀ final : Position Id Key, final.cursor = position.cursor →
      ∃ lost, lost ∈ order ∧ ∀ earlier, earlier ≤ final.cursor →
        lost ∉ pageFrom key size order earlier := by
    intro final sameCursor
    rcases exists_mem_drop long with ⟨lost, late⟩
    refine ⟨lost, (List.mem_filter.mp (List.mem_of_mem_drop late)).1, ?_⟩
    intro earlier le
    exact not_mem_pageFrom_of_le nodup (sameCursor ▸ le) late
  by_cases oneKey : ∀ item ∈ pageFrom key size order position.cursor, key item = position.cursor
  · by_cases nothing : ∀ item ∈ pageFrom key size order position.cursor, id item ∈ position.seen
    · rcases stops position rfl with ⟨lost, lostMem, missed⟩
      exact ⟨[], position, lost, .done position, ⟨full, nothing⟩, lostMem, by simp, le_rfl, missed⟩
    · -- one more page at this key, after which all of it has been seen
      have passed := passAll_of_cursor id oneKey
      rcases stops _ passed.1 with ⟨lost, lostMem, missed⟩
      push Not at nothing
      refine ⟨_, _, lost, .turn full nothing (.done _), ⟨?_, ?_⟩, lostMem, ?_, passed.1.ge, missed⟩
      · rw [passed.1]
        exact full
      · rw [passed.1]
        exact passed.2.2
      · intro page isPage
        rw [List.mem_singleton.mp isPage]
        exact missed _ passed.1.ge
  · push Not at oneKey
    rcases oneKey with ⟨other, otherMem, otherKey⟩
    have pageSorted : (pageFrom key size order position.cursor).Pairwise (key · ≤ key ·) :=
      (sorted.filter _).sublist (List.take_sublist _ _)
    have otherAhead : position.cursor < key other :=
      lt_of_le_of_ne (mem_pageFrom otherMem).2 (Ne.symm otherKey)
    have fresh : ∃ item ∈ pageFrom key size order position.cursor, id item ∉ position.seen :=
      ⟨other, otherMem, fun seen => otherKey (tracks other (mem_pageFrom otherMem).1 seen)⟩
    have nonempty : pageFrom key size order position.cursor ≠ [] := List.ne_nil_of_mem otherMem
    have lastMem := List.getLast_mem nonempty
    have passed := tracks.passAll distinct
      (fun item (itemMem : item ∈ pageFrom key size order position.cursor) =>
        (mem_pageFrom itemMem).1)
    have lastKey := passed.2 _ (List.getLast?_eq_some_getLast nonempty)
    have advances : position.cursor <
        key ((pageFrom key size order position.cursor).getLast nonempty) :=
      otherAhead.trans_le (key_le_getLast pageSorted nonempty otherMem)
    have within := getLast_pageFrom_le sorted nodup fills reaches full nonempty
    have fewer : (order.filter
        ((position.passAll id key (pageFrom key size order position.cursor)).cursor < key ·)).length
          < ahead := by
      rw [← counted, lastKey]
      exact length_ahead_lt nodup (mem_pageFrom lastMem).1 advances
    rcases ih _ fewer passed.1 (lastKey ▸ within) rfl with
      ⟨pages, final, lost, turns, stuck, lostMem, absent, le, missed⟩
    have further : position.cursor ≤ final.cursor := advances.le.trans (lastKey ▸ le)
    refine ⟨_, final, lost, .turn full fresh turns, stuck, lostMem, ?_, further, missed⟩
    intro page isPage
    rcases List.mem_cons.mp isPage with rfl | later
    · exact missed _ further
    · exact absent page later

theorem turns_mem {pages : List (List Item)} {final : Position Id Key}
    (turns : Turns id key size order position pages final) :
    ∀ page ∈ pages, ∀ item ∈ page, item ∈ order := by
  induction turns with
  | done position => simp
  | turn full fresh rest ih =>
    intro page isPage item itemMem
    rcases List.mem_cons.mp isPage with rfl | later
    · exact (mem_pageFrom itemMem).1
    · exact ih page later item itemMem

end Paging
