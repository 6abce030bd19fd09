import Mathlib.Data.List.Basic

/-!
# Texts by their bytes

A text of Rust is cut at offsets that count the bytes of its UTF-8 form.  A text is the
list of its characters.
-/

namespace ByteText

/-- `str::len`. -/
def byteLength : List Char → ℕ
  | [] => 0
  | letter :: rest => letter.utf8Size + byteLength rest

def isCharBoundary : List Char → ℕ → Bool
  | _, 0 => true
  | [], _ + 1 => false
  | letter :: rest, index => letter.utf8Size ≤ index && isCharBoundary rest (index - letter.utf8Size)

/-- Goes back until the offset is one of a character (`while !text.is_char_boundary(index)`). -/
def floorCharBoundary (text : List Char) : ℕ → ℕ
  | 0 => 0
  | index + 1 =>
    if isCharBoundary text (index + 1) then index + 1 else floorCharBoundary text index

def takeBytes : List Char → ℕ → List Char
  | _, 0 => []
  | [], _ + 1 => []
  | letter :: rest, count => letter :: takeBytes rest (count - letter.utf8Size)

def dropBytes : List Char → ℕ → List Char
  | text, 0 => text
  | [], _ + 1 => []
  | letter :: rest, count => dropBytes rest (count - letter.utf8Size)

def slice (text : List Char) (start finish : ℕ) : List Char :=
  takeBytes (dropBytes text start) (finish - start)

variable {text : List Char}

theorem floorCharBoundary_le (index : ℕ) : floorCharBoundary text index ≤ index := by
  induction index with
  | zero => simp [floorCharBoundary]
  | succ index ih =>
    rw [floorCharBoundary]
    split <;> omega

theorem isCharBoundary_floor (index : ℕ) :
    isCharBoundary text (floorCharBoundary text index) = true := by
  induction index with
  | zero => simp [floorCharBoundary, isCharBoundary]
  | succ index ih =>
    rw [floorCharBoundary]
    split
    · assumption
    · exact ih

theorem le_floorCharBoundary {index boundary : ℕ} (isBoundary : isCharBoundary text boundary = true)
    (before : boundary ≤ index) : boundary ≤ floorCharBoundary text index := by
  induction index with
  | zero => omega
  | succ index ih =>
    rw [floorCharBoundary]
    split
    · exact before
    · rename_i notBoundary
      apply ih
      have different : boundary ≠ index + 1 := fun same => notBoundary (same ▸ isBoundary)
      omega

theorem isCharBoundary_byteLength : isCharBoundary text (byteLength text) = true := by
  induction text with
  | nil => rfl
  | cons letter rest ih =>
    cases isLength : byteLength (letter :: rest) with
    | zero => rfl
    | succ length =>
      simp only [byteLength] at isLength
      have inRest : length + 1 - letter.utf8Size = byteLength rest := by omega
      simp only [isCharBoundary, inRest, ih, Bool.and_true, decide_eq_true_eq]
      omega

theorem exists_isCharBoundary_near {index : ℕ} (inside : index ≤ byteLength text) :
    ∃ boundary, isCharBoundary text boundary = true ∧ boundary ≤ index ∧ index ≤ boundary + 3 := by
  induction text generalizing index with
  | nil =>
    simp only [byteLength, Nat.le_zero] at inside
    exact ⟨0, rfl, by omega, by omega⟩
  | cons letter rest ih =>
    have size := letter.utf8Size_le_four
    simp only [byteLength] at inside
    rcases Nat.lt_or_ge index letter.utf8Size with within | beyond
    · exact ⟨0, rfl, by omega, by omega⟩
    · have inRest : index - letter.utf8Size ≤ byteLength rest := by omega
      rcases ih inRest with ⟨boundary, isBoundary, before, near⟩
      refine ⟨boundary + letter.utf8Size, ?_, by omega, by omega⟩
      cases isEnd : boundary + letter.utf8Size with
      | zero => rfl
      | succ place =>
        have back : place + 1 - letter.utf8Size = boundary := by omega
        simp only [isCharBoundary, back, isBoundary, Bool.and_true, decide_eq_true_eq]
        omega

theorem le_floorCharBoundary_add_three {index : ℕ} (inside : index ≤ byteLength text) :
    index ≤ floorCharBoundary text index + 3 := by
  rcases exists_isCharBoundary_near inside with ⟨boundary, isBoundary, before, near⟩
  have floor := le_floorCharBoundary isBoundary before
  omega

theorem byteLength_append (first second : List Char) :
    byteLength (first ++ second) = byteLength first + byteLength second := by
  induction first with
  | nil => simp [byteLength]
  | cons letter rest ih =>
    simp only [List.cons_append, byteLength, ih]
    omega

theorem byteLength_pos (nonempty : text ≠ []) : 0 < byteLength text := by
  rcases List.exists_cons_of_ne_nil nonempty with ⟨letter, rest, rfl⟩
  have size := letter.utf8Size_pos
  simp only [byteLength]
  omega

theorem byteLength_cons_eq_succ (letter : Char) (rest : List Char) :
    ∃ count, byteLength (letter :: rest) = count + 1 ∧
      count + 1 - letter.utf8Size = byteLength rest := by
  have size := letter.utf8Size_pos
  refine ⟨byteLength (letter :: rest) - 1, ?_, ?_⟩
  · simp only [byteLength]
    omega
  · simp only [byteLength]
    omega

theorem takeBytes_append (front rest : List Char) :
    takeBytes (front ++ rest) (byteLength front) = front := by
  induction front with
  | nil => cases rest <;> simp [takeBytes, byteLength]
  | cons letter front ih =>
    rcases byteLength_cons_eq_succ letter front with ⟨count, isCount, back⟩
    rw [isCount, List.cons_append, takeBytes, back, ih]
    omega

theorem dropBytes_append (front rest : List Char) :
    dropBytes (front ++ rest) (byteLength front) = rest := by
  induction front with
  | nil => cases rest <;> simp [dropBytes, byteLength]
  | cons letter front ih =>
    rcases byteLength_cons_eq_succ letter front with ⟨count, isCount, back⟩
    rw [isCount, List.cons_append, dropBytes, back, ih]
    omega

theorem slice_append (front middle rest : List Char) :
    slice (front ++ middle ++ rest) (byteLength front) (byteLength (front ++ middle)) = middle := by
  have size : byteLength (front ++ middle) - byteLength front = byteLength middle := by
    rw [byteLength_append]
    omega
  rw [slice, size, List.append_assoc, dropBytes_append, takeBytes_append]

theorem exists_prefix_of_isCharBoundary {index : ℕ}
    (isBoundary : isCharBoundary text index = true) :
    ∃ front, front <+: text ∧ byteLength front = index := by
  induction text generalizing index with
  | nil =>
    cases index with
    | zero => exact ⟨[], List.nil_prefix, rfl⟩
    | succ index => simp [isCharBoundary] at isBoundary
  | cons letter rest ih =>
    cases index with
    | zero => exact ⟨[], List.nil_prefix, rfl⟩
    | succ index =>
      simp only [isCharBoundary, Bool.and_eq_true, decide_eq_true_eq] at isBoundary
      rcases ih isBoundary.2 with ⟨front, isPrefix, length⟩
      refine ⟨letter :: front, ?_, ?_⟩
      · exact (List.prefix_cons_inj letter).mpr isPrefix
      · simp only [byteLength, length]
        omega

theorem prefix_of_byteLength_le {first second : List Char} (isPrefix : first <+: text)
    (otherPrefix : second <+: text) (shorter : byteLength first ≤ byteLength second) :
    first <+: second := by
  rcases List.prefix_or_prefix_of_prefix isPrefix otherPrefix with within | ⟨rest, rfl⟩
  · exact within
  · have isEmpty : rest = [] := by
      by_contra nonempty
      have positive := byteLength_pos nonempty
      rw [byteLength_append] at shorter
      omega
    simp [isEmpty]

theorem infix_slice {before piece after : List Char} {start finish : ℕ}
    (startBoundary : isCharBoundary (before ++ piece ++ after) start = true)
    (finishBoundary : isCharBoundary (before ++ piece ++ after) finish = true)
    (fromStart : start ≤ byteLength before) (toFinish : byteLength (before ++ piece) ≤ finish) :
    piece <:+: slice (before ++ piece ++ after) start finish := by
  rcases exists_prefix_of_isCharBoundary startBoundary with ⟨front, frontPrefix, rfl⟩
  rcases exists_prefix_of_isCharBoundary finishBoundary with ⟨upTo, upToPrefix, rfl⟩
  have beforePrefix : before <+: before ++ piece ++ after :=
    (List.prefix_append before piece).trans (List.prefix_append _ _)
  rcases prefix_of_byteLength_le frontPrefix beforePrefix fromStart with ⟨skipped, rfl⟩
  rcases prefix_of_byteLength_le (List.prefix_append _ _) upToPrefix toFinish with ⟨more, rfl⟩
  rcases upToPrefix with ⟨beyond, isText⟩
  have isSlice : slice (front ++ (skipped ++ piece ++ more) ++ beyond) (byteLength front)
      (byteLength (front ++ (skipped ++ piece ++ more))) = skipped ++ piece ++ more :=
    slice_append _ _ _
  rw [← isText]
  simp only [List.append_assoc] at isSlice ⊢
  rw [isSlice]
  exact ⟨skipped, more, by simp⟩

def SingleBytes (text : List Char) : Prop := ∀ letter ∈ text, letter.utf8Size = 1

theorem SingleBytes.tail {letter : Char} {rest : List Char}
    (singles : SingleBytes (letter :: rest)) : SingleBytes rest :=
  fun other otherMem => singles other (List.mem_cons_of_mem _ otherMem)

section

variable (singles : SingleBytes text)

include singles

theorem SingleBytes.byteLength_eq :
    byteLength text = text.length := by
  induction text with
  | nil => rfl
  | cons letter rest ih =>
    have one := singles letter List.mem_cons_self
    simp only [byteLength, one, ih singles.tail, List.length_cons]
    omega

theorem SingleBytes.isCharBoundary_of_le {index : ℕ}
    (inside : index ≤ text.length) : isCharBoundary text index = true := by
  induction text generalizing index with
  | nil =>
    have isStart : index = 0 := by simpa using inside
    simp [isStart, isCharBoundary]
  | cons letter rest ih =>
    cases index with
    | zero => simp [isCharBoundary]
    | succ index =>
      have one := singles letter List.mem_cons_self
      simp only [List.length_cons] at inside
      simp only [isCharBoundary, one, Bool.and_eq_true, decide_eq_true_eq]
      constructor
      · omega
      · apply ih singles.tail
        omega

theorem SingleBytes.floor_eq {index : ℕ}
    (inside : index ≤ text.length) : floorCharBoundary text index = index := by
  cases index with
  | zero => rfl
  | succ index => rw [floorCharBoundary, if_pos (singles.isCharBoundary_of_le inside)]

theorem SingleBytes.takeBytes_eq (count : ℕ) :
    takeBytes text count = text.take count := by
  induction text generalizing count with
  | nil => cases count <;> simp [takeBytes]
  | cons letter rest ih =>
    cases count with
    | zero => simp [takeBytes]
    | succ count =>
      have one := singles letter List.mem_cons_self
      simp [takeBytes, one, ih singles.tail]

theorem SingleBytes.dropBytes_eq (count : ℕ) :
    dropBytes text count = text.drop count := by
  induction text generalizing count with
  | nil => cases count <;> simp [dropBytes]
  | cons letter rest ih =>
    cases count with
    | zero => simp [dropBytes]
    | succ count =>
      have one := singles letter List.mem_cons_self
      simp [dropBytes, one, ih singles.tail]

theorem SingleBytes.slice_eq (start finish : ℕ) :
    slice text start finish = (text.drop start).take (finish - start) := by
  have rest : SingleBytes (text.drop start) := fun letter letterMem =>
    singles letter (List.mem_of_mem_drop letterMem)
  rw [slice, singles.dropBytes_eq, rest.takeBytes_eq]

end

end ByteText
