import Mathlib.Data.List.Infix
import Mathlib.Data.List.TakeWhile

/-!
# Texts

What the standard libraries of the services' languages do to the ends of a text.  A text
is the list of its characters.
-/

namespace Text

/-- Texts are compared letter by letter. -/
instance lawfulBEq : LawfulBEq (List Char) := inferInstance

/-- The White_Space property of Unicode (`unicode.IsSpace`, `char::is_whitespace`). -/
def isSpace (letter : Char) : Bool :=
  letter.toNat ∈ [9, 10, 11, 12, 13, 32, 0x85, 0xA0, 0x1680, 0x2028, 0x2029, 0x202F, 0x205F, 0x3000] ||
    decide (0x2000 ≤ letter.toNat ∧ letter.toNat ≤ 0x200A)

/-- `strings.TrimSpace`, `str::trim`. -/
def trimSpace (text : List Char) : List Char :=
  ((text.dropWhile isSpace).reverse.dropWhile isSpace).reverse

def trimPrefix (start text : List Char) : List Char :=
  if start.isPrefixOf text then text.drop start.length else text

def trimSuffix (ending text : List Char) : List Char :=
  if ending.isSuffixOf text then text.take (text.length - ending.length) else text

def afterFirst (marker text : List Char) : Option (List Char) :=
  (text.tails.find? marker.isPrefixOf).map (List.drop marker.length)

def afterLast (mark : Char) (text : List Char) : List Char :=
  (text.reverse.takeWhile (· ≠ mark)).reverse

def beforeLast (mark : Char) (text : List Char) : List Char :=
  if mark ∈ text then ((text.reverse.dropWhile (· ≠ mark)).drop 1).reverse else text

/-- `str::trim_end_matches` of a text: the ending is taken off as often as it is there. -/
def trimEndMatches (ending text : List Char) : List Char :=
  (trimSuffix ending)^[text.length] text

/-- `str::split_once` at a letter. -/
def splitOnce (mark : Char) (text : List Char) : Option (List Char × List Char) :=
  if mark ∈ text then
    some (text.takeWhile (· ≠ mark), (text.dropWhile (· ≠ mark)).drop 1)
  else none

/-- Whether a text holds another one (`strings.Contains`, `str::contains`). -/
def contains (text part : List Char) : Bool := text.tails.any part.isPrefixOf

variable {start ending text : List Char}

theorem forall_mem_of_all {keeps : Char → Prop} [DecidablePred keeps]
    (all : text.all (fun letter => decide (keeps letter)) = true) :
    ∀ letter ∈ text, keeps letter := by
  simpa using all

theorem toLower_cases (letter : Char) :
    (65 ≤ letter.toNat ∧ letter.toNat ≤ 90 ∧ letter.toLower.toNat = letter.toNat + 32) ∨
      letter.toLower = letter := by
  by_cases upper : letter.val ≥ 'A'.val ∧ letter.val ≤ 'Z'.val
  · have moved : letter.toLower.val = letter.val + ('a'.val - 'A'.val) :=
      congrArg Char.val (dif_pos upper)
    have isFirst : 65 ≤ letter.val.toNat := UInt32.le_iff_toNat_le.mp upper.1
    have isLast : letter.val.toNat ≤ 90 := UInt32.le_iff_toNat_le.mp upper.2
    have shift : ('a'.val - 'A'.val).toNat = 32 := rfl
    left
    refine ⟨isFirst, isLast, ?_⟩
    rw [Char.toNat, moved, UInt32.toNat_add, shift, Char.toNat]
    omega
  · right
    exact dif_neg upper

theorem toNat_toLower_lt {letter : Char} (ascii : letter.toNat < 128) :
    letter.toLower.toNat < 128 := by
  rcases toLower_cases letter with ⟨-, isLast, moved⟩ | same
  · omega
  · rwa [same]

theorem toLower_toLower (letter : Char) : letter.toLower.toLower = letter.toLower := by
  rcases toLower_cases letter with ⟨isFirst, isLast, moved⟩ | same
  · rcases toLower_cases letter.toLower with ⟨-, isCapital, -⟩ | again
    · omega
    · exact again
  · rw [same, same]

theorem contains_iff {part : List Char} : contains text part = true ↔ part <:+: text := by
  simp only [contains, List.any_eq_true, List.mem_tails, List.isPrefixOf_iff_prefix]
  constructor
  · rintro ⟨rest, isSuffix, isPrefix⟩
    exact isPrefix.isInfix.trans isSuffix.isInfix
  · intro isInfix
    rcases List.infix_iff_prefix_suffix.mp isInfix with ⟨rest, isPrefix, isSuffix⟩
    exact ⟨rest, isSuffix, isPrefix⟩

theorem trimSpace_eq_self (noSpace : ∀ letter ∈ text, isSpace letter = false) :
    trimSpace text = text := by
  have untouched : ∀ letters : List Char, (∀ letter ∈ letters, isSpace letter = false) →
      letters.dropWhile isSpace = letters := by
    intro letters noSpace
    cases letters with
    | nil => rfl
    | cons letter rest => rw [List.dropWhile_cons, noSpace letter List.mem_cons_self]; rfl
  rw [trimSpace, untouched text noSpace, untouched, List.reverse_reverse]
  intro letter letterMem
  exact noSpace letter (List.mem_reverse.mp letterMem)

theorem trimEnds_within (drops : Char → Bool) (text : List Char) :
    ((text.dropWhile drops).reverse.dropWhile drops).reverse <:+: text := by
  have back := List.reverse_prefix.mpr
    (@List.dropWhile_suffix _ (text.dropWhile drops).reverse drops)
  rw [List.reverse_reverse] at back
  exact back.isInfix.trans (List.dropWhile_suffix drops).isInfix

@[simp]
theorem trimPrefix_append (start rest : List Char) : trimPrefix start (start ++ rest) = rest := by
  rw [trimPrefix, if_pos (List.isPrefixOf_iff_prefix.mpr (List.prefix_append _ _)),
    List.drop_left]

theorem trimPrefix_of_other_start (other : ¬start <+: text) : trimPrefix start text = text := by
  rw [trimPrefix, if_neg fun isPrefix => other (List.isPrefixOf_iff_prefix.mp isPrefix)]

@[simp]
theorem trimSuffix_append (rest ending : List Char) : trimSuffix ending (rest ++ ending) = rest := by
  rw [trimSuffix, if_pos (List.isSuffixOf_iff_suffix.mpr (List.suffix_append _ _)),
    List.length_append, Nat.add_sub_cancel, List.take_left]

theorem trimSuffix_of_not_suffix (other : ¬ending <:+ text) : trimSuffix ending text = text := by
  rw [trimSuffix, if_neg fun isSuffix => other (List.isSuffixOf_iff_suffix.mp isSuffix)]

theorem trimPrefix_suffix (start text : List Char) : trimPrefix start text <:+ text := by
  rw [trimPrefix]
  split
  · exact List.drop_suffix _ _
  · exact List.suffix_rfl

variable {mark : Char}

theorem splitOnce_append {front : List Char} (absent : mark ∉ front)
    (rest : List Char) : splitOnce mark (front ++ mark :: rest) = some (front, rest) := by
  have others : ∀ letter ∈ front, (!decide (letter = mark)) = true := by
    intro letter letterMem
    simp [ne_of_mem_of_not_mem letterMem absent]
  simp [splitOnce, List.takeWhile_append_of_pos others, List.dropWhile_append_of_pos others]

theorem not_mem_of_splitOnce {front rest : List Char}
    (parted : splitOnce mark text = some (front, rest)) : mark ∉ front := by
  unfold splitOnce at parted
  split_ifs at parted
  cases parted
  intro there
  simpa using List.mem_takeWhile_imp there

theorem splitOnce_within {front rest : List Char}
    (parted : splitOnce mark text = some (front, rest)) : front <:+: text ∧ rest <:+: text := by
  unfold splitOnce at parted
  split_ifs at parted
  cases parted
  constructor
  · exact (List.takeWhile_prefix _).isInfix
  · exact ((List.drop_suffix _ _).trans (List.dropWhile_suffix _)).isInfix

theorem splitOn_within : ∃ first pieces, text.splitOn mark = first :: pieces ∧
    first <+: text ∧ mark ∉ first ∧ ∀ piece ∈ pieces, piece <:+: text ∧ mark ∉ piece := by
  induction text with
  | nil => exact ⟨[], [], rfl, List.prefix_rfl, by simp, by simp⟩
  | cons letter text ih =>
    obtain ⟨first, pieces, split, isPrefix, unmarked, others⟩ := ih
    have wider : ∀ piece ∈ pieces, piece <:+: letter :: text ∧ mark ∉ piece :=
      fun piece pieceMem =>
        ⟨(others piece pieceMem).1.trans (List.suffix_cons letter text).isInfix,
          (others piece pieceMem).2⟩
    rw [List.splitOn_cons_eq_if_modifyHead, split]
    by_cases isMark : (letter == mark) = true
    · rw [if_pos isMark]
      refine ⟨[], first :: pieces, rfl, List.nil_prefix, by simp, ?_⟩
      rintro piece (_ | ⟨_, pieceMem⟩)
      · exact ⟨isPrefix.isInfix.trans (List.suffix_cons letter text).isInfix, unmarked⟩
      · exact wider piece pieceMem
    · rw [if_neg isMark]
      refine ⟨letter :: first, pieces, rfl, List.prefix_cons_inj letter |>.mpr isPrefix, ?_, wider⟩
      rw [List.mem_cons, not_or]
      exact ⟨fun same => isMark (by simp [same]), unmarked⟩

theorem of_mem_splitOn {piece : List Char} (pieceMem : piece ∈ text.splitOn mark) :
    piece <:+: text ∧ mark ∉ piece := by
  obtain ⟨first, pieces, split, isPrefix, unmarked, others⟩ := @splitOn_within text mark
  rw [split, List.mem_cons] at pieceMem
  rcases pieceMem with rfl | pieceMem
  · exact ⟨isPrefix.isInfix, unmarked⟩
  · exact others piece pieceMem

theorem ne_of_mem_reverse (absent : mark ∉ text) :
    ∀ letter ∈ text.reverse, decide (letter ≠ mark) = true := by
  intro letter letterMem
  apply decide_eq_true
  rintro rfl
  exact absent (List.mem_reverse.mp letterMem)

theorem afterLast_append {rest : List Char} (absent : mark ∉ rest)
    (front : List Char) : afterLast mark (front ++ mark :: rest) = rest := by
  rw [afterLast, List.reverse_append, List.reverse_cons, List.append_assoc,
    List.takeWhile_append_of_pos (ne_of_mem_reverse absent), List.singleton_append, List.takeWhile_cons_of_neg,
    List.append_nil, List.reverse_reverse]
  simp

theorem beforeLast_append {rest : List Char} (absent : mark ∉ rest)
    (front : List Char) : beforeLast mark (front ++ mark :: rest) = front := by
  rw [beforeLast, if_pos (List.mem_append_right _ List.mem_cons_self), List.reverse_append,
    List.reverse_cons, List.append_assoc, List.dropWhile_append_of_pos (ne_of_mem_reverse absent),
    List.singleton_append, List.dropWhile_cons_of_neg, List.drop_one, List.tail_cons,
    List.reverse_reverse]
  simp

end Text
