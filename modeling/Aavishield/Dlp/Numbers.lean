import Aavishield.Dlp.Detectors
import Aavishield.Lib.Patterns

/-!
# Card and Aadhaar numbers in a text

The two patterns of numbers, letter by letter, and which numbers of a text they find: a number
with other groups of digits next to it is one of the candidates that stand there, and the
candidates are taken from the left.
-/

namespace Aavishield.Dlp

open Patterns Text

/-- `\d` and `\w`. -/
structure Classes where
  digit : Char → Bool
  word : Char → Bool
  digit_of_isDigit : ∀ letter, letter.isDigit = true → digit letter = true
  word_of_digit : ∀ letter, digit letter = true → word letter = true
  space_not_word : word ' ' = false
  hyphen_not_word : word '-' = false

def separator (letter : Char) : Bool := letter == ' ' || letter == '-'

def creditCardCandidate : String := "\\b(?:\\d[ -]?)\x7b13,19\x7d\\b"

def aadhaarRe : String := "\\b\\d\x7b4\x7d[ -]?\\d\x7b4\x7d[ -]?\\d\x7b4\x7d\\b"

namespace Classes

variable (classes : Classes)

/-- `\d[ -]?` -/
def spacedDigit : Pattern Char := andThen (one classes.digit) (maybe (one separator))

def cardPattern : Pattern Char :=
  andThen (boundary classes.word)
    (andThen (repeated classes.spacedDigit 13 19) (boundary classes.word))

/-- `\d{4}` -/
def fourDigits : Pattern Char := repeated (one classes.digit) 4 4

def aadhaarPattern : Pattern Char :=
  andThen (boundary classes.word)
    (andThen
      (andThen classes.fourDigits (andThen (maybe (one separator))
        (andThen classes.fourDigits (andThen (maybe (one separator)) classes.fourDigits))))
      (boundary classes.word))

end Classes

def toFound (span : Span Char) : Found := ⟨span.front, span.matched, span.rest⟩

/-- The `regex` crate finds the leftmost matches that do not overlap, as the pattern prefers. -/
structure Engine (env : Primitives) (classes : Classes) : Prop where
  card : ∀ text, (env.builtin creditCardCandidate).findIter text =
    (findAll classes.cardPattern text).map toFound
  aadhaar : ∀ text, (env.builtin aadhaarRe).findIter text =
    (findAll classes.aadhaarPattern text).map toFound

def Gap (gap : List Char) : Prop := gap = [] ∨ ∃ letter, separator letter = true ∧ gap = [letter]

/-- Digits with single separators between them. -/
def written (digit : Char → Bool) : List Char → Bool
  | [] => false
  | [letter] => digit letter
  | letter :: next :: rest =>
    if separator next then digit letter && written digit rest
    else digit letter && written digit (next :: rest)

namespace Classes

variable (classes : Classes)

/-- No word goes on at either end. -/
structure Bounded (front rest : List Char) : Prop where
  front : front.getLast?.any classes.word = false
  rest : rest.head?.any classes.word = false

/-- What the pattern for cards matches. -/
structure CardForm (number : List Char) : Prop where
  isWritten : written classes.digit number = true
  atLeast : 13 ≤ number.countP classes.digit
  atMost : number.countP classes.digit ≤ 19

def FourDigits (group : List Char) : Prop :=
  group.length = 4 ∧ ∀ letter ∈ group, classes.digit letter = true

/-- What the pattern for Aadhaar numbers matches. -/
def AadhaarForm (number : List Char) : Prop :=
  ∃ first gap second nextGap third, number = first ++ (gap ++ (second ++ (nextGap ++ third))) ∧
    classes.FourDigits first ∧ Gap gap ∧ classes.FourDigits second ∧ Gap nextGap ∧
    classes.FourDigits third

def StandsAt (form : List Char → Prop) (text : List Char) (start stop : ℕ) : Prop :=
  ∃ front number rest, text = front ++ (number ++ rest) ∧ front.length = start ∧
    front.length + number.length = stop ∧ form number ∧ classes.Bounded front rest

/--
The number is a candidate, and the candidates are taken from the left: none taken before it
reaches into it, and none that begins where it does is longer.
-/
def Taken (form : List Char → Prop) (front number rest : List Char) : Prop :=
  Chosen (classes.StandsAt form (front ++ (number ++ rest))) front.length
    (front.length + number.length)

variable {classes : Classes} {number gap : List Char} {letter : Char}

theorem separator_iff : separator letter = true ↔ letter = ' ' ∨ letter = '-' := by
  simp [separator]

theorem word_of_separator (isSeparator : separator letter = true) :
    classes.word letter = false := by
  rcases separator_iff.mp isSeparator with rfl | rfl
  · exact classes.space_not_word
  · exact classes.hyphen_not_word

theorem digit_of_separator (isSeparator : separator letter = true) :
    classes.digit letter = false := by
  by_contra isDigit
  have isWord := classes.word_of_digit letter (by simpa using isDigit)
  rw [word_of_separator isSeparator] at isWord
  contradiction

theorem separator_of_digit (isDigit : classes.digit letter = true) : separator letter = false := by
  by_contra isSeparator
  rw [digit_of_separator (by simpa using isSeparator)] at isDigit
  contradiction

def spaced (classes : Classes) : Language Char :=
  {taken | ∃ letter gap, classes.digit letter = true ∧ Gap gap ∧ taken = letter :: gap}

theorem recognizes_gap : Recognizes (maybe (one separator)) {gap | Gap gap} := by
  apply (recognizes_one separator).maybe.congr
  intro gap
  constructor
  · rintro (isOne | isNone)
    · right
      exact isOne
    · left
      exact Language.mem_one gap |>.mp isNone
  · rintro (rfl | isOne)
    · right
      rfl
    · left
      exact isOne

theorem recognizes_spacedDigit : Recognizes classes.spacedDigit (spaced classes) := by
  apply ((recognizes_one classes.digit).andThen recognizes_gap).congr
  intro taken
  constructor
  · rintro ⟨_, ⟨letter, isDigit, rfl⟩, gap, isGap, rfl⟩
    exact ⟨letter, gap, isDigit, isGap, rfl⟩
  · rintro ⟨letter, gap, isDigit, isGap, rfl⟩
    exact ⟨[letter], ⟨letter, isDigit, rfl⟩, gap, isGap, rfl⟩

theorem recognizes_fourDigits :
    Recognizes classes.fourDigits {group | classes.FourDigits group} := by
  apply ((recognizes_one classes.digit).repeated 4 4).congr
  intro taken
  constructor
  · rintro ⟨times, atLeast, atMost, inPower⟩
    obtain rfl : times = 4 := by omega
    exact mem_single_pow.mp inPower
  · intro isGroup
    exact ⟨4, le_rfl, le_rfl, mem_single_pow.mpr isGroup⟩

theorem spacedDigit_single (place : Place Char) :
    (classes.spacedDigit place).Pairwise fun first second =>
      first.after.length < second.after.length ∧ classes.spacedDigit second = [] := by
  obtain ⟨before, after⟩ := place
  rcases after with _ | ⟨letter, after⟩
  · simp [spacedDigit, andThen, one]
  · by_cases isDigit : classes.digit letter = true
    · rcases after with _ | ⟨next, after⟩
      · simp [spacedDigit, andThen, one, maybe, isDigit]
      · by_cases isGap : separator next = true
        · simp [spacedDigit, andThen, one, maybe, isDigit, isGap, digit_of_separator isGap]
        · simp [spacedDigit, andThen, one, maybe, isDigit, isGap]
    · simp [spacedDigit, andThen, one, isDigit]

theorem cardPattern_greedy : Greedy classes.cardPattern := by
  apply Greedy.within
  apply Greedy.repeated recognizes_spacedDigit _ spacedDigit_single
  rintro ⟨letter, gap, _, _, isNil⟩
  contradiction

theorem spaced_cons {times : ℕ} {more : List Char} (isDigit : classes.digit letter = true)
    (isGap : Gap gap) (isTaken : more ∈ spaced classes ^ times) :
    letter :: (gap ++ more) ∈ spaced classes ^ (times + 1) := by
  have isSpaced : letter :: gap ∈ spaced classes := ⟨letter, gap, isDigit, isGap, rfl⟩
  rw [pow_succ']
  exact Language.append_mem_mul isSpaced isTaken

section

variable (isWritten : written classes.digit number = true)

include isWritten

theorem spaced_of_written (isGap : Gap gap) :
    number ++ gap ∈ spaced classes ^ number.countP classes.digit := by
  fun_induction written classes.digit number with
  | case1 => contradiction
  | case2 letter =>
    simp only [List.countP_cons, isWritten, if_true, List.countP_nil, zero_add, pow_one]
    exact ⟨letter, gap, isWritten, isGap, rfl⟩
  | case3 letter next rest isSeparator others =>
    simp only [Bool.and_eq_true] at isWritten
    have isNext : Gap [next] := .inr ⟨next, isSeparator, rfl⟩
    rw [List.countP_cons_of_pos isWritten.1,
      List.countP_cons_of_neg (by simp [digit_of_separator isSeparator])]
    have taken := spaced_cons isWritten.1 isNext (others isWritten.2)
    exact taken
  | case4 letter next rest isSeparator others =>
    simp only [Bool.and_eq_true] at isWritten
    have noGap : Gap [] := .inl rfl
    rw [List.countP_cons_of_pos isWritten.1]
    have taken := spaced_cons isWritten.1 noGap (others isWritten.2)
    exact taken

theorem head_of_written :
    ∃ letter rest, number = letter :: rest ∧ classes.digit letter = true := by
  unfold written at isWritten
  split at isWritten
  · contradiction
  · exact ⟨_, _, rfl, isWritten⟩
  · split at isWritten
    · exact ⟨_, _, rfl, (Bool.and_eq_true_iff.mp isWritten).1⟩
    · exact ⟨_, _, rfl, (Bool.and_eq_true_iff.mp isWritten).1⟩

theorem last_of_written :
    ∃ front letter, number = front ++ [letter] ∧ classes.digit letter = true := by
  fun_induction written classes.digit number with
  | case1 => contradiction
  | case2 letter => exact ⟨[], letter, rfl, isWritten⟩
  | case3 letter next rest isSeparator others =>
    obtain ⟨front, last, rfl, isDigit⟩ := others (by simp_all)
    exact ⟨letter :: next :: front, last, rfl, isDigit⟩
  | case4 letter next rest isSeparator others =>
    obtain ⟨front, last, isRest, isDigit⟩ := others (by simp_all)
    exact ⟨letter :: front, last, by rw [isRest, List.cons_append], isDigit⟩

end

theorem written_cons (isDigit : classes.digit letter = true)
    (isWritten : written classes.digit number = true) :
    written classes.digit (letter :: number) = true := by
  obtain ⟨next, rest, rfl, nextDigit⟩ := head_of_written isWritten
  simp [written, isDigit, separator_of_digit nextDigit, isWritten]

theorem written_of_spaced {times : ℕ} {taken : List Char} (positive : 0 < times)
    (isTaken : taken ∈ spaced classes ^ times) :
    ∃ number gap, taken = number ++ gap ∧ written classes.digit number = true ∧
      number.countP classes.digit = times ∧ Gap gap := by
  induction times generalizing taken with
  | zero => contradiction
  | succ times rest =>
    rw [pow_succ'] at isTaken
    obtain ⟨_, ⟨letter, gap, isDigit, isGap, rfl⟩, others, inRest, rfl⟩ :=
      Language.mem_mul.mp isTaken
    rcases Nat.eq_zero_or_pos times with rfl | morePositive
    · obtain rfl : others = [] := by simpa using inRest
      exact ⟨[letter], gap, by simp, isDigit, by simp [isDigit], isGap⟩
    · obtain ⟨number, last, rfl, isWritten, count, isLast⟩ := rest morePositive inRest
      rcases isGap with rfl | ⟨next, isSeparator, rfl⟩
      · refine ⟨letter :: number, last, by simp, written_cons isDigit isWritten, ?_, isLast⟩
        simp [isDigit, count]
      · refine ⟨letter :: next :: number, last, by simp, ?_, ?_, isLast⟩
        · simp [written, isDigit, isSeparator, isWritten]
        · simp [isDigit, digit_of_separator isSeparator, count]

variable {front rest text : List Char} {start stop : ℕ}

theorem Bounded.starts (bounded : classes.Bounded front rest)
    (isWritten : written classes.digit number = true) :
    front.reverse.head?.any classes.word ≠ (number ++ rest).head?.any classes.word := by
  obtain ⟨letter, others, rfl, isDigit⟩ := head_of_written isWritten
  simp [bounded.front, classes.word_of_digit letter isDigit]

theorem Bounded.ends (bounded : classes.Bounded front rest)
    (isWritten : written classes.digit number = true) :
    (number.reverse ++ front.reverse).head?.any classes.word ≠ rest.head?.any classes.word := by
  obtain ⟨others, letter, rfl, isDigit⟩ := last_of_written isWritten
  simp [bounded.rest, classes.word_of_digit letter isDigit]

theorem bounded_of_boundaries (isWritten : written classes.digit number = true) (isGap : Gap gap)
    (starts : front.reverse.head?.any classes.word ≠
      (number ++ (gap ++ rest)).head?.any classes.word)
    (ends : ((number ++ gap).reverse ++ front.reverse).head?.any classes.word ≠
      rest.head?.any classes.word) : classes.Bounded front (gap ++ rest) := by
  constructor
  · obtain ⟨letter, others, rfl, isDigit⟩ := head_of_written isWritten
    simpa [classes.word_of_digit letter isDigit] using starts
  · rcases isGap with rfl | ⟨letter, isSeparator, rfl⟩
    · obtain ⟨others, letter, rfl, isDigit⟩ := last_of_written isWritten
      simpa [classes.word_of_digit letter isDigit] using ends.symm
    · simp [word_of_separator isSeparator]

theorem place_eq (isText : text = front ++ rest) :
    Place.mk (text.take front.length).reverse (text.drop front.length) =
      ⟨front.reverse, rest⟩ := by
  simp [isText]

theorem length_take_of_drop (isRest : text.drop start = number ++ rest)
    (isWritten : written classes.digit number = true) : (text.take start).length = start := by
  obtain ⟨letter, others, rfl, _⟩ := head_of_written isWritten
  have := congrArg List.length isRest
  simp only [List.length_drop, List.length_append, List.length_cons] at this
  simp only [List.length_take]
  omega

theorem CardForm.mem_cardPattern (form : classes.CardForm number)
    (bounded : classes.Bounded front rest) :
    ⟨number.reverse ++ front.reverse, rest⟩ ∈ classes.cardPattern ⟨front.reverse, number ++ rest⟩ := by
  refine mem_within.mpr ⟨?_, bounded.starts form.isWritten, bounded.ends form.isWritten⟩
  apply (recognizes_spacedDigit.repeated 13 19 _ _).mpr
  refine ⟨number, ⟨_, form.atLeast, form.atMost, ?_⟩, Place.takes_append _ _ _⟩
  simpa using spaced_of_written form.isWritten (.inl rfl)

theorem exists_of_matchedAt (isMatch : MatchedAt classes.cardPattern text start stop) :
    ∃ front number gap rest, text = front ++ (number ++ (gap ++ rest)) ∧ front.length = start ∧
      front.length + (number ++ gap).length = stop ∧ Gap gap ∧ classes.CardForm number ∧
      classes.Bounded front (gap ++ rest) := by
  obtain ⟨positive, isStop⟩ := isMatch
  obtain ⟨finish, isEnd, length⟩ := exists_of_lengthAt_pos positive
  obtain ⟨isTaken, starts, ends⟩ := mem_within.mp isEnd
  obtain ⟨taken, ⟨times, atLeast, atMost, inPower⟩, takes⟩ :=
    (recognizes_spacedDigit.repeated 13 19 _ _).mp isTaken
  obtain ⟨number, gap, rfl, isWritten, count, isGap⟩ := written_of_spaced (by omega) inPower
  have isRest : text.drop start = number ++ (gap ++ finish.after) := by
    simpa using takes.after
  have isFront := length_take_of_drop isRest isWritten
  refine ⟨text.take start, number, gap, finish.after, ?_, isFront, ?_, isGap,
    ⟨isWritten, by omega, by omega⟩, ?_⟩
  · rw [← isRest, List.take_append_drop]
  · rw [isFront, isStop, length, takes.length_eq]
    omega
  · apply bounded_of_boundaries isWritten isGap
    · rw [← isRest]
      exact starts
    · rw [takes.before] at ends
      exact ends

theorem longest_of_matchedAt (isGap : Gap gap)
    (isMatch : MatchedAt classes.cardPattern (front ++ (number ++ (gap ++ rest))) front.length
      (front.length + (number ++ gap).length))
    (form : classes.CardForm number) (bounded : classes.Bounded front (gap ++ rest)) :
    Longest (classes.StandsAt classes.CardForm (front ++ (number ++ (gap ++ rest)))) front.length
      (front.length + number.length) := by
  refine ⟨⟨front, number, gap ++ rest, rfl, rfl, rfl, form, bounded⟩, ?_⟩
  rintro _ ⟨otherFront, other, otherRest, isText, sameFront, rfl, otherForm, otherBounded⟩
  obtain ⟨rfl, isRest⟩ := List.append_inj isText sameFront.symm
  have isEnd := otherForm.mem_cardPattern otherBounded
  have atMost := cardPattern_greedy.le_lengthAt isEnd
  have isStop := isMatch.2
  rw [place_eq rfl, isRest] at isStop
  simp only [List.length_append] at atMost isStop
  have notLonger : other.length ≤ number.length + gap.length := by omega
  rcases isGap with rfl | ⟨letter, isSeparator, rfl⟩
  · simpa using notLonger
  · -- A candidate does not end with the separator.
    by_contra longer
    simp only [List.length_cons, List.length_nil, zero_add] at notLonger
    have sameLength : (number ++ [letter]).length = other.length := by
      simp only [List.length_append, List.length_cons, List.length_nil]
      omega
    have isOther : number ++ [letter] = other := by
      apply (List.append_inj _ sameLength).1
      · exact rest
      · exact otherRest
      · simpa using isRest
    obtain ⟨others, last, rfl, isDigit⟩ := last_of_written otherForm.isWritten
    obtain ⟨_, isLast⟩ := List.append_inj' isOther rfl
    rw [← List.cons.inj isLast |>.1, digit_of_separator isSeparator] at isDigit
    contradiction

theorem StandsAt.after_gap {form : List Char → Prop} {next finish : ℕ} (isGap : Gap gap)
    (isText : text = front ++ (gap ++ rest))
    (begins : ∀ number, form number → ∃ letter others, number = letter :: others ∧
      classes.digit letter = true)
    (stands : classes.StandsAt form text next finish) (atLeast : front.length ≤ next) :
    (front ++ gap).length ≤ next := by
  obtain ⟨nextFront, number, nextRest, isText', rfl, rfl, isForm, _⟩ := stands
  rcases isGap with rfl | ⟨separating, isSeparator, rfl⟩
  · simpa using atLeast
  · by_contra within
    simp only [List.length_append, List.length_cons, List.length_nil] at within
    obtain ⟨letter, others, rfl, isDigit⟩ := begins number isForm
    rw [isText] at isText'
    obtain ⟨_, isRest⟩ := List.append_inj isText' (by omega)
    simp only [List.cons_append, List.nil_append, List.cons.injEq] at isRest
    rw [← isRest.1, digit_of_separator isSeparator] at isDigit
    contradiction

theorem matchedAt_of_standsAt (stands : classes.StandsAt classes.CardForm text start stop) :
    ∃ finish, Longest (MatchedAt classes.cardPattern text) start finish := by
  obtain ⟨front, number, rest, rfl, rfl, rfl, form, bounded⟩ := stands
  have atMost := cardPattern_greedy.le_lengthAt (form.mem_cardPattern bounded)
  obtain ⟨letter, others, rfl, _⟩ := head_of_written form.isWritten
  refine ⟨_, MatchedAt.longest_iff.mpr ⟨?_, rfl⟩⟩
  rw [place_eq rfl]
  simp only [List.length_append, List.length_cons] at atMost
  omega

theorem taken_iff_matched (longest : Longest (classes.StandsAt classes.CardForm text) start stop) :
    Chosen (classes.StandsAt classes.CardForm text) start stop ↔
      ∃ finish, Chosen (MatchedAt classes.cardPattern text) start finish := by
  apply chosen_iff_exists _ (fun _ _ => matchedAt_of_standsAt) longest
  rintro start stop isLongest
  obtain ⟨front, number, gap, rest, rfl, rfl, rfl, isGap, form, bounded⟩ :=
    exists_of_matchedAt isLongest.isCandidate
  refine ⟨_, longest_of_matchedAt isGap isLongest.isCandidate form bounded, ?_, ?_⟩
  · simp
  · intro next finish stands atLeast
    have isText : front ++ (number ++ (gap ++ rest)) = (front ++ number) ++ (gap ++ rest) := by
      rw [List.append_assoc]
    have after := stands.after_gap isGap isText
      (fun number form => head_of_written form.isWritten) (by simpa using atLeast)
    simpa [Nat.add_assoc] using after

theorem written_append {others : List Char} (isWritten : written classes.digit number = true)
    (isGap : Gap gap) (othersWritten : written classes.digit others = true) :
    written classes.digit (number ++ (gap ++ others)) = true := by
  fun_induction written classes.digit number with
  | case1 => contradiction
  | case2 letter =>
    rcases isGap with rfl | ⟨separating, isSeparator, rfl⟩
    · exact written_cons isWritten othersWritten
    · simpa [written, isSeparator, othersWritten] using isWritten
  | case3 letter next rest isSeparator more =>
    simp only [Bool.and_eq_true] at isWritten
    simp [written, isSeparator, isWritten.1, more isWritten.2]
  | case4 letter next rest isSeparator more =>
    simp only [Bool.and_eq_true] at isWritten
    exact written_cons isWritten.1 (more isWritten.2)

theorem written_of_digits {group : List Char} (nonempty : group ≠ [])
    (digits : ∀ letter ∈ group, classes.digit letter = true) :
    written classes.digit group = true := by
  induction group with
  | nil => contradiction
  | cons letter rest others =>
    simp only [List.mem_cons, forall_eq_or_imp] at digits
    rcases rest with _ | ⟨next, rest⟩
    · exact digits.1
    · exact written_cons digits.1 (others (by simp) digits.2)

theorem FourDigits.isWritten {group : List Char} (isGroup : classes.FourDigits group) :
    written classes.digit group = true := by
  apply written_of_digits _ isGroup.2
  rintro rfl
  simp [FourDigits] at isGroup

theorem AadhaarForm.isWritten (form : classes.AadhaarForm number) :
    written classes.digit number = true := by
  obtain ⟨first, gap, second, nextGap, third, rfl, isFirst, isGap, isSecond, isNextGap, isThird⟩ :=
    form
  apply written_append isFirst.isWritten isGap
  exact written_append isSecond.isWritten isNextGap isThird.isWritten

theorem recognizes_aadhaar : Recognizes
    (andThen classes.fourDigits (andThen (maybe (one separator))
      (andThen classes.fourDigits (andThen (maybe (one separator)) classes.fourDigits))))
    {number | classes.AadhaarForm number} := by
  have group : Recognizes classes.fourDigits {group | classes.FourDigits group} :=
    recognizes_fourDigits
  apply (group.andThen (recognizes_gap.andThen
    (group.andThen (recognizes_gap.andThen group)))).congr
  intro number
  constructor
  · rintro ⟨first, isFirst, _, ⟨gap, isGap, _, ⟨second, isSecond, _,
      ⟨nextGap, isNextGap, third, isThird, rfl⟩, rfl⟩, rfl⟩, rfl⟩
    exact ⟨first, gap, second, nextGap, third, rfl, isFirst, isGap, isSecond, isNextGap, isThird⟩
  · rintro ⟨first, gap, second, nextGap, third, rfl, isFirst, isGap, isSecond, isNextGap, isThird⟩
    exact ⟨first, isFirst, _, ⟨gap, isGap, _, ⟨second, isSecond, _,
      ⟨nextGap, isNextGap, third, isThird, rfl⟩, rfl⟩, rfl⟩, rfl⟩

theorem gap_unique {otherGap others otherRest : List Char} (isGap : Gap gap) (isOther : Gap otherGap)
    (begins : written classes.digit others = true)
    (otherBegins : written classes.digit otherRest = true) {tail otherTail : List Char}
    (same : gap ++ (others ++ tail) = otherGap ++ (otherRest ++ otherTail)) :
    gap = otherGap ∧ others ++ tail = otherRest ++ otherTail := by
  obtain ⟨letter, _, rfl, isDigit⟩ := head_of_written begins
  obtain ⟨otherLetter, _, rfl, otherDigit⟩ := head_of_written otherBegins
  have notGap := separator_of_digit isDigit
  have notOther := separator_of_digit otherDigit
  rcases isGap with rfl | ⟨separating, isSeparator, rfl⟩ <;>
    rcases isOther with rfl | ⟨otherSeparating, isOtherSeparator, rfl⟩ <;>
    simp_all

theorem AadhaarForm.unique {other otherRest : List Char} (form : classes.AadhaarForm number)
    (otherForm : classes.AadhaarForm other) (same : number ++ rest = other ++ otherRest) :
    number = other := by
  obtain ⟨first, gap, second, nextGap, third, rfl, isFirst, isGap, isSecond, isNextGap, isThird⟩ :=
    form
  obtain ⟨first', gap', second', nextGap', third', rfl, isFirst', isGap', isSecond', isNextGap',
    isThird'⟩ := otherForm
  simp only [List.append_assoc] at same
  obtain ⟨rfl, afterFirst⟩ := List.append_inj same (by rw [isFirst.1, isFirst'.1])
  obtain ⟨rfl, afterGap⟩ :=
    gap_unique isGap isGap' isSecond.isWritten isSecond'.isWritten afterFirst
  obtain ⟨rfl, afterSecond⟩ := List.append_inj afterGap (by rw [isSecond.1, isSecond'.1])
  obtain ⟨rfl, afterNextGap⟩ :=
    gap_unique isNextGap isNextGap' isThird.isWritten isThird'.isWritten afterSecond
  obtain ⟨rfl, _⟩ := List.append_inj afterNextGap (by rw [isThird.1, isThird'.1])
  rfl

theorem matchedAt_iff_standsAt : MatchedAt classes.aadhaarPattern text start stop ↔
    classes.StandsAt classes.AadhaarForm text start stop := by
  constructor
  · rintro ⟨positive, isStop⟩
    obtain ⟨finish, isEnd, length⟩ := exists_of_lengthAt_pos positive
    obtain ⟨isTaken, starts, ends⟩ := mem_within.mp isEnd
    obtain ⟨number, form, takes⟩ := (recognizes_aadhaar _ _).mp isTaken
    have isRest : text.drop start = number ++ finish.after := takes.after
    have isFront := length_take_of_drop isRest form.isWritten
    refine ⟨text.take start, number, finish.after, ?_, isFront, ?_, form, ?_⟩
    · rw [← isRest, List.take_append_drop]
    · rw [isFront, isStop, length, takes.length_eq]
      omega
    · apply bounded_of_boundaries form.isWritten (.inl rfl)
      · rw [List.nil_append, ← isRest]
        exact starts
      · rw [takes.before] at ends
        rw [List.append_nil]
        exact ends
  · rintro ⟨front, number, rest, rfl, rfl, rfl, form, bounded⟩
    have isEnd : ⟨number.reverse ++ front.reverse, rest⟩ ∈
        classes.aadhaarPattern ⟨front.reverse, number ++ rest⟩ := by
      refine mem_within.mpr ⟨?_, bounded.starts form.isWritten, bounded.ends form.isWritten⟩
      exact (recognizes_aadhaar _ _).mpr ⟨number, form, Place.takes_append _ _ _⟩
    obtain ⟨preferred, isPreferred, length⟩ := exists_of_mem isEnd
    obtain ⟨taken, takenForm, takes⟩ := (recognizes_aadhaar _ _).mp (mem_within.mp isPreferred).1
    obtain rfl := form.unique takenForm takes.after
    have isLength : lengthAt classes.aadhaarPattern ⟨front.reverse, number ++ rest⟩ =
        number.length := by
      rw [length, takes.length_eq]
      omega
    obtain ⟨letter, others, rfl, _⟩ := head_of_written form.isWritten
    unfold MatchedAt
    rw [place_eq rfl, isLength]
    simp

theorem digits_around {before after : List Char}
    (isWritten : written classes.digit (before ++ letter :: after) = true)
    (notDigit : classes.digit letter = false) :
    separator letter = true ∧ (∃ others last, before = others ++ [last] ∧
      classes.digit last = true) ∧ ∃ next others, after = next :: others ∧
      classes.digit next = true := by
  generalize isNumber : before ++ letter :: after = number at isWritten
  fun_induction written classes.digit number generalizing before with
  | case1 => simp at isNumber
  | case2 digit =>
    obtain ⟨rfl, isLetter⟩ : before = [] ∧ letter :: after = [digit] := by
      rcases before with _ | ⟨_, _⟩
      · exact ⟨rfl, isNumber⟩
      · simp at isNumber
    obtain rfl := (List.cons.inj isLetter).1
    rw [notDigit] at isWritten
    contradiction
  | case3 digit next rest isSeparator others =>
    simp only [Bool.and_eq_true] at isWritten
    rcases before with _ | ⟨first, _ | ⟨second, before⟩⟩
    · obtain rfl := (List.cons.inj isNumber).1
      rw [notDigit] at isWritten
      simp at isWritten
    · simp only [List.cons_append, List.nil_append, List.cons.injEq] at isNumber
      obtain ⟨rfl, rfl, rfl⟩ := isNumber
      obtain ⟨head, tail, rfl, isHead⟩ := head_of_written isWritten.2
      exact ⟨isSeparator, ⟨[], first, rfl, isWritten.1⟩, head, tail, rfl, isHead⟩
    · simp only [List.cons_append, List.cons.injEq] at isNumber
      obtain ⟨rfl, rfl, isRest⟩ := isNumber
      obtain ⟨isLetter, ⟨more, last, rfl, isLast⟩, isNext⟩ := others isRest isWritten.2
      exact ⟨isLetter, ⟨first :: second :: more, last, rfl, isLast⟩, isNext⟩
  | case4 digit next rest isSeparator others =>
    simp only [Bool.and_eq_true] at isWritten
    rcases before with _ | ⟨first, before⟩
    · obtain rfl := (List.cons.inj isNumber).1
      rw [notDigit] at isWritten
      simp at isWritten
    · simp only [List.cons_append, List.cons.injEq] at isNumber
      obtain ⟨rfl, isRest⟩ := isNumber
      obtain ⟨isLetter, ⟨more, last, rfl, isLast⟩, isNext⟩ := others isRest isWritten.2
      exact ⟨isLetter, ⟨first :: more, last, rfl, isLast⟩, isNext⟩

def joins (classes : Classes) : List Char → Bool
  | letter :: digit :: _ => separator letter && classes.digit digit
  | _ => false

/-- The number is not part of a longer one at either end. -/
structure Isolated (classes : Classes) (front rest : List Char) : Prop where
  front : classes.joins front.reverse = false
  rest : classes.joins rest = false

theorem longer_of_append {others otherRest : List Char} (same : number ++ rest = others ++ otherRest)
    (longer : number.length < others.length) :
    ∃ letter more, others = number ++ letter :: more ∧ rest = letter :: (more ++ otherRest) := by
  rcases List.append_eq_append_iff.mp same with ⟨more, rfl, isRest⟩ | ⟨more, rfl, _⟩
  · cases more with
    | nil => simp at longer
    | cons letter more => exact ⟨letter, more, rfl, isRest⟩
  · simp only [List.length_append] at longer
    omega

theorem digit_of_not_word (notWord : classes.word letter = false) :
    classes.digit letter = false := by
  by_contra isDigit
  rw [classes.word_of_digit letter (by simpa using isDigit)] at notWord
  contradiction

theorem taken_of_isolated {form : List Char → Prop}
    (formWritten : ∀ number, form number → written classes.digit number = true)
    (isForm : form number) (bounded : classes.Bounded front rest)
    (isolated : classes.Isolated front rest) : classes.Taken form front number rest := by
  refine chosen_iff.mpr ⟨⟨⟨front, number, rest, rfl, rfl, rfl, isForm, bounded⟩, ?_⟩, ?_⟩
  · rintro _ ⟨otherFront, other, otherRest, isText, sameFront, rfl, otherForm, _⟩
    obtain ⟨rfl, isRest⟩ := List.append_inj isText sameFront.symm
    by_contra longer
    obtain ⟨letter, more, rfl, isMore⟩ := longer_of_append isRest (by omega)
    have notDigit : classes.digit letter = false := by
      apply digit_of_not_word
      simpa [isMore] using bounded.rest
    obtain ⟨isSeparator, _, next, others, rfl, isNext⟩ :=
      digits_around (formWritten _ otherForm) notDigit
    have apart := isolated.rest
    simp [isMore, joins, isSeparator, isNext] at apart
  · rintro earlier finish isEarlier chosen
    obtain ⟨otherFront, other, otherRest, isText, rfl, rfl, otherForm, _⟩ :=
      chosen.longest.isCandidate
    by_contra longer
    obtain ⟨first, between, rfl, isBetween⟩ := longer_of_append isText.symm isEarlier
    obtain ⟨before, letter, isEnd⟩ : ∃ before letter, first :: between = before ++ [letter] :=
      ⟨_, _, (List.dropLast_append_getLast (List.cons_ne_nil first between)).symm⟩
    have isWhole : (before ++ [letter]) ++ (number ++ rest) = other ++ otherRest := by
      rw [← isEnd, isBetween, List.cons_append]
    rw [isEnd] at longer bounded isolated
    obtain ⟨next, more, rfl, _⟩ := longer_of_append isWhole (by
      simp only [List.length_append] at longer
      simp only [List.length_append]
      omega)
    have notDigit : classes.digit letter = false := by
      apply digit_of_not_word
      simpa [← List.append_assoc] using bounded.front
    rw [List.append_assoc] at otherForm
    obtain ⟨isSeparator, ⟨others, last, rfl, isLast⟩, _⟩ :=
      digits_around (formWritten _ otherForm) notDigit
    have apart := isolated.front
    simp [joins, isSeparator, isLast] at apart

end Classes

end Aavishield.Dlp
