import Aavishield.Downloads.MacroScan
import Aavishield.Lib.StreamSearch

/-!
# The search for the test signature

A file is read in blocks and each block is searched together with the end of what came before.
A reader may return fewer bytes than it is asked for, as few as one, and it may fail.
-/

namespace Aavishield.Malware

open Dlp (Bytes)
open StreamSearch

/-- Bytes that come in chunks of any size. -/
structure Reader (Failure : Type) where
  rest : Bytes
  calls : ℕ → Except Failure ℕ

variable {Failure : Type}

/-- `Read::read`: no bytes mean that there are none left. -/
def Reader.read (reader : Reader Failure) (room : ℕ) : Except Failure (Bytes × Reader Failure) :=
  match reader.calls 0 with
  | .error failure => .error failure
  | .ok count =>
    let size := min (max 1 count) room
    .ok (reader.rest.take size, ⟨reader.rest.drop size, fun index => reader.calls (index + 1)⟩)

/-- The loop of `read_full`, with the room that is left and what has been read. -/
def Reader.readFull (reader : Reader Failure) (room : ℕ) (total : Bytes) :
    Except Failure (Bytes × Reader Failure) :=
  if room = 0 then .ok (total, reader)
  else
    match reader.read room with
    | .error failure => .error failure
    | .ok ([], after) => .ok (total, after)
    | .ok (byte :: more, after) =>
      after.readFull (room - (byte :: more).length) (total ++ byte :: more)
termination_by room
decreasing_by
  rw [List.length_cons]
  omega

def chunk : ℕ := 1024 * 1024

def overlap : ℕ := eicar.length - 1

variable {reader after : Reader Failure} {room : ℕ} {total block : Bytes}

theorem read_eq (returned : reader.read room = .ok (block, after)) :
    block ++ after.rest = reader.rest ∧ block.length ≤ room ∧
      (block = [] → 0 < room → reader.rest = []) := by
  rw [Reader.read] at returned
  cases called : reader.calls 0 with
  | error failure => simp [called] at returned
  | ok count =>
    simp only [called, Except.ok.injEq, Prod.mk.injEq] at returned
    obtain ⟨rfl, rfl⟩ := returned
    refine ⟨List.take_append_drop _ _, by simp, ?_⟩
    intro none positive
    rcases List.take_eq_nil_iff.mp none with zero | empty
    · omega
    · exact empty

theorem readFull_eq (returned : reader.readFull room total = .ok (block, after)) :
    block = total ++ reader.rest.take room ∧ after.rest = reader.rest.drop room := by
  induction reader, room, total using Reader.readFull.induct with
  | case1 reader total =>
    rw [Reader.readFull, if_pos rfl] at returned
    cases returned
    simp
  | case2 reader room total positive failure failed =>
    rw [Reader.readFull, if_neg positive, failed] at returned
    cases returned
  | case3 reader room total positive after' read =>
    rw [Reader.readFull, if_neg positive, read] at returned
    cases returned
    obtain ⟨whole, -, none⟩ := read_eq read
    have empty := none rfl (Nat.pos_of_ne_zero positive)
    rw [empty, List.nil_append] at whole
    simp [empty, whole]
  | case4 reader room total positive byte more after' read ih =>
    rw [Reader.readFull, if_neg positive, read] at returned
    obtain ⟨rfl, left⟩ := ih returned
    obtain ⟨whole, fits, -⟩ := read_eq read
    constructor
    · rw [← whole, List.take_append, List.take_of_length_le fits, List.append_assoc]
    · rw [left, ← whole, List.drop_append, List.drop_of_length_le fits, List.nil_append]

/-- The loop of `has_eicar`, with what is carried from the blocks before. -/
def Reader.search (reader : Reader Failure) (tail : Bytes) : Except Failure Bool :=
  match _filled : reader.readFull chunk [] with
  | .error failure => .error failure
  | .ok (block, after) =>
    if block = [] then .ok false
    else
      let combined := tail ++ block
      if containsBytes combined eicar then .ok true
      else
        let keep := min overlap combined.length
        let tail := combined.drop (combined.length - keep)
        if block.length < chunk then .ok false else after.search tail
termination_by reader.rest.length
decreasing_by
  obtain ⟨rfl, left⟩ := readFull_eq _filled
  rename_i isBlock _ _
  rw [List.nil_append, List.take_eq_nil_iff, not_or] at isBlock
  have filled := List.length_pos_iff.mpr isBlock.2
  rw [left, List.length_drop]
  omega

def hasEicar (reader : Reader Failure) : Except Failure Bool := reader.search []

def Reader.Steady (reader : Reader Failure) : Prop :=
  ∀ index, ∃ count, reader.calls index = .ok count

theorem steady_of_read (steady : reader.Steady) (room : ℕ) :
    ∃ block after, reader.read room = .ok (block, after) ∧ after.Steady := by
  obtain ⟨count, called⟩ := steady 0
  refine ⟨_, _, by rw [Reader.read, called], ?_⟩
  intro index
  exact steady (index + 1)

theorem steady_of_readFull (steady : reader.Steady) (room : ℕ) (total : Bytes) :
    ∃ block after, reader.readFull room total = .ok (block, after) ∧ after.Steady := by
  induction reader, room, total using Reader.readFull.induct with
  | case1 reader total => exact ⟨total, reader, by rw [Reader.readFull, if_pos rfl], steady⟩
  | case2 reader room total positive failure failed =>
    obtain ⟨block, after, read, -⟩ := steady_of_read steady room
    rw [failed] at read
    cases read
  | case3 reader room total positive after' read =>
    obtain ⟨_, _, same, left⟩ := steady_of_read steady room
    rw [read] at same
    cases same
    exact ⟨total, after', by rw [Reader.readFull, if_neg positive, read], left⟩
  | case4 reader room total positive byte more after' read ih =>
    obtain ⟨_, _, same, left⟩ := steady_of_read steady room
    rw [read] at same
    cases same
    obtain ⟨block, after, filled, steadyAfter⟩ := ih left
    refine ⟨block, after, ?_, steadyAfter⟩
    rw [Reader.readFull, if_neg positive, read]
    exact filled

theorem search_of_readFull (tail : Bytes) (filled : reader.readFull chunk [] = .ok (block, after)) :
    reader.search tail =
      if block = [] then .ok false
      else if containsBytes (tail ++ block) eicar then .ok true
      else if block.length < chunk then .ok false
      else after.search ((tail ++ block).rtake overlap) := by
  have kept : (tail ++ block).drop ((tail ++ block).length - min overlap (tail ++ block).length) =
      (tail ++ block).rtake overlap := by
    rw [List.rtake]
    congr 1
    omega
  rw [Reader.search]
  split
  · rename_i failure failed
    rw [filled] at failed
    cases failed
  · rename_i other next same
    rw [filled] at same
    cases same
    simp only [kept]

theorem search_of_failed {failure : Failure} (tail : Bytes)
    (failed : reader.readFull chunk [] = .error failure) : reader.search tail = .error failure := by
  rw [Reader.search]
  split
  · rename_i other same
    rw [failed] at same
    cases same
    rfl
  · rename_i filled
    rw [failed] at filled
    cases filled

theorem containsBytes_carried {seen : Bytes} (absent : ¬eicar <:+: seen) :
    containsBytes (seen.rtake overlap ++ block) eicar = true ↔ eicar <:+: seen ++ block := by
  rw [containsBytes_iff]
  exact (infix_append_iff absent).symm

theorem search_right {seen : Bytes} {answer : Bool} (absent : ¬eicar <:+: seen)
    (returned : reader.search (seen.rtake overlap) = .ok answer) :
    answer = decide (eicar <:+: seen ++ reader.rest) := by
  induction isSize : reader.rest.length using Nat.strongRecOn generalizing reader seen with
  | _ size ih =>
    cases filled : reader.readFull chunk [] with
    | error failure =>
      rw [search_of_failed _ filled] at returned
      cases returned
    | ok result =>
      obtain ⟨block, after⟩ := result
      obtain ⟨isBlock, left⟩ := readFull_eq filled
      rw [List.nil_append] at isBlock
      have whole : reader.rest = block ++ after.rest := by
        rw [isBlock, left, List.take_append_drop]
      rw [search_of_readFull _ filled] at returned
      split_ifs at returned with none found short
      · cases returned
        have empty : reader.rest = [] := by simpa [isBlock, chunk] using none
        simp [empty, absent]
      · cases returned
        have present := (containsBytes_carried absent).mp found
        rw [whole, ← List.append_assoc, eq_comm, decide_eq_true_eq]
        exact present.trans (List.prefix_append _ _).isInfix
      · cases returned
        have nothing : after.rest = [] := by
          rw [left, List.drop_eq_nil_iff]
          rw [isBlock, List.length_take] at short
          omega
        rw [whole, nothing, List.append_nil, eq_comm, decide_eq_false_iff_not]
        exact fun present => found ((containsBytes_carried absent).mpr present)
      · have stillAbsent : ¬eicar <:+: seen ++ block :=
          fun present => found ((containsBytes_carried absent).mpr present)
        have shorter : after.rest.length < size := by
          have some := List.length_pos_iff.mpr none
          rw [← isSize, whole, List.length_append]
          omega
        rw [← rtake_append] at returned
        rw [whole, ← List.append_assoc]
        exact ih _ shorter stillAbsent returned rfl

theorem search_answers (steady : reader.Steady) (tail : Bytes) :
    ∃ answer, reader.search tail = .ok answer := by
  induction isSize : reader.rest.length using Nat.strongRecOn generalizing reader tail with
  | _ size ih =>
    obtain ⟨block, after, filled, steadyAfter⟩ := steady_of_readFull steady chunk []
    obtain ⟨isBlock, left⟩ := readFull_eq filled
    rw [List.nil_append] at isBlock
    rw [search_of_readFull tail filled]
    split_ifs with none found short
    · exact ⟨false, rfl⟩
    · exact ⟨true, rfl⟩
    · exact ⟨false, rfl⟩
    · refine ih _ ?_ steadyAfter _ rfl
      have some := List.length_pos_iff.mpr none
      rw [isBlock, List.length_take] at some
      rw [left, List.length_drop]
      omega

theorem hasEicar_right {answer : Bool} (returned : hasEicar reader = .ok answer) :
    answer = containsBytes reader.rest eicar := by
  have absent : ¬eicar <:+: [] := by decide
  rw [search_right absent returned, List.nil_append, Bool.eq_iff_iff, decide_eq_true_eq,
    containsBytes_iff]

/-- However a reader cuts the bytes into chunks, the search of them is that of the whole. -/
theorem hasEicar_chunked (bytes : Bytes) (pace : ℕ → ℕ) :
    hasEicar (⟨bytes, fun index => .ok (pace index)⟩ : Reader Failure) =
      .ok (decide (eicar <:+: bytes)) := by
  have steady : (⟨bytes, fun index => .ok (pace index)⟩ : Reader Failure).Steady :=
    fun index => ⟨pace index, rfl⟩
  obtain ⟨answer, returned⟩ := search_answers steady []
  have right := hasEicar_right returned
  rw [hasEicar, returned, right, Except.ok.injEq, Bool.eq_iff_iff, decide_eq_true_eq,
    containsBytes_iff]

end Aavishield.Malware
