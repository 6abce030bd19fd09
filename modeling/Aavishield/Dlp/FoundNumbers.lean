import Aavishield.Dlp.Numbers

/-!
# Which numbers are reported

A card number is reported where it is one of the candidates taken from the text, and so is an
Aadhaar number if it is written in groups or a word says what it is.
-/

namespace Aavishield.Dlp

open ByteText Patterns Text

variable {env : Primitives} {classes : Classes} {front number gap rest text : List Char}
  {weight : ℤ}

/-- The text just before the number speaks of Aadhaar. -/
def saysAadhaar (env : Primitives) (front : List Char) : Bool :=
  (env.builtin "(?i)aadhaa?r|uidai|\\buid\\b|आधार|enrol?ment\\s*no").isMatch
    (dropBytes front (floorCharBoundary front (byteLength front - aadhaarContextWindow)))

def Grouped (number : List Char) : Prop := ' ' ∈ number ∨ '-' ∈ number

instance : Decidable (Grouped number) := inferInstanceAs (Decidable (_ ∨ _))

theorem isDigit_or_separator (isWritten : written Char.isDigit number = true) :
    ∀ letter ∈ number, letter.isDigit = true ∨ separator letter = true := by
  fun_induction written Char.isDigit number with
  | case1 => simp
  | case2 letter => simpa using Or.inl isWritten
  | case3 letter next rest isSeparator others =>
    simp only [Bool.and_eq_true] at isWritten
    simpa [isSeparator, isWritten.1] using others isWritten.2
  | case4 letter next rest isSeparator others =>
    simp only [Bool.and_eq_true] at isWritten
    simpa [isWritten.1] using others isWritten.2

variable (classes) in
theorem length_stripSeparators (isWritten : written Char.isDigit number = true) :
    (stripSeparators number).length = number.countP classes.digit := by
  unfold stripSeparators
  rw [← List.countP_eq_length_filter]
  apply List.countP_congr
  intro letter isIn
  rcases isDigit_or_separator isWritten letter isIn with isDigit | isSeparator
  · simp [isDigit, classes.digit_of_isDigit letter isDigit]
  · rw [Classes.digit_of_separator isSeparator]
    rcases Classes.separator_iff.mp isSeparator with rfl | rfl <;> decide

theorem trimmed_eq (isWritten : written classes.digit number = true) (isGap : Gap gap) :
    (number ++ gap).rdropWhile (· ∈ [' ', '-']) = number := by
  obtain ⟨others, letter, rfl, isDigit⟩ := Classes.last_of_written isWritten
  have notSeparator : ¬(letter ∈ [' ', '-']) := by
    have := Classes.separator_of_digit isDigit
    simpa [separator] using this
  have trimmed : (others ++ [letter]).rdropWhile (· ∈ [' ', '-']) = others ++ [letter] := by
    apply List.rdropWhile_concat_neg
    simpa using notSeparator
  rcases isGap with rfl | ⟨separating, isSeparator, rfl⟩
  · rw [List.append_nil, trimmed]
  · rw [List.rdropWhile_concat_pos _ _ _ (by simpa [separator] using isSeparator), trimmed]

theorem exists_found (taken : classes.Taken classes.CardForm front number rest) :
    ∃ gap more, Gap gap ∧ rest = gap ++ more ∧
      ⟨front, number ++ gap, more⟩ ∈
        findAll classes.cardPattern (front ++ (number ++ rest)) := by
  obtain ⟨finish, chosen⟩ := (Classes.taken_iff_matched taken.longest).mp taken
  obtain ⟨front', number', gap, more, isText, sameFront, rfl, isGap, form, bounded⟩ :=
    Classes.exists_of_matchedAt chosen.longest.isCandidate
  obtain ⟨rfl, isRest⟩ := List.append_inj isText sameFront.symm
  have isLongest := Classes.longest_of_matchedAt isGap
    (by rw [← isRest]; exact chosen.longest.isCandidate) form bounded
  rw [← isRest] at isLongest
  have sameLength := taken.longest.unique isLongest
  obtain ⟨rfl, rfl⟩ := List.append_inj isRest (by omega)
  refine ⟨gap, more, isGap, rfl, mem_findAll.mpr ⟨by simp, ?_⟩⟩
  exact chosen

theorem card_reported (engine : Engine env classes)
    (isWritten : written Char.isDigit number = true)
    (taken : classes.Taken classes.CardForm front number rest)
    (isWhole : partOfDecimal front rest = false) (luhn : luhnValid (stripSeparators number) = true)
    (network : cardNetworkValid (stripSeparators number) = true) :
    builtinMatch "credit_card" (redactDigits (stripSeparators number)) (stripSeparators number)
      weight ∈ detectCreditCard env (front ++ (number ++ rest)) weight := by
  obtain ⟨gap, more, isGap, rfl, isFound⟩ := exists_found taken
  obtain ⟨_, _, _, isText, sameFront, sameStop, form, _⟩ := taken.longest.isCandidate
  obtain ⟨rfl, isRest⟩ := List.append_inj isText sameFront.symm
  obtain ⟨rfl, rfl⟩ := List.append_inj isRest (by omega)
  have length := length_stripSeparators classes isWritten
  have trimmed := trimmed_eq form.isWritten isGap
  have := form.atLeast
  have := form.atMost
  change _ ∈ ((env.builtin creditCardCandidate).findIter _).filterMap _
  rw [engine.card]
  refine List.mem_filterMap.mpr ⟨_, List.mem_map_of_mem isFound, ?_⟩
  simp only [toFound, trimmed, List.drop_left, isWhole, luhn, network]
  rw [if_neg (by omega)]
  rfl

theorem mem_findAll_aadhaar {span : Span Char} : span ∈ findAll classes.aadhaarPattern text ↔
    text = span.front ++ (span.matched ++ span.rest) ∧
      classes.Taken classes.AadhaarForm span.front span.matched span.rest := by
  have same : MatchedAt classes.aadhaarPattern text =
      classes.StandsAt classes.AadhaarForm text := by
    ext start stop
    exact Classes.matchedAt_iff_standsAt
  rw [mem_findAll, same]
  constructor
  · rintro ⟨isText, chosen⟩
    refine ⟨isText, ?_⟩
    unfold Classes.Taken
    rwa [← isText]
  · rintro ⟨isText, taken⟩
    refine ⟨isText, ?_⟩
    unfold Classes.Taken at taken
    rwa [← isText] at taken

def aadhaarReport (env : Primitives) (weight : ℤ) (found : Found) : Option Match :=
  let digits := stripSeparators found.matched
  if digits.length ≠ 12 ∨ verhoeffValid digits = false then none
  else if digits.head? = some '0' ∨ digits.head? = some '1' ∨
      partOfDecimal found.front found.rest = true then none
  else if ¬Grouped found.matched ∧ saysAadhaar env found.front = false then none
  else some (builtinMatch "aadhaar" (redactDigits digits) digits weight)

theorem detectAadhaar_eq : detectAadhaar env text weight =
    ((env.builtin aadhaarRe).findIter text).filterMap (aadhaarReport env weight) :=
  rfl

/-- The digits can be an Aadhaar number. -/
structure IsAadhaar (front number rest : List Char) : Prop where
  length : (stripSeparators number).length = 12
  verhoeff : verhoeffValid (stripSeparators number) = true
  not_zero : (stripSeparators number).head? ≠ some '0'
  not_one : (stripSeparators number).head? ≠ some '1'
  whole : partOfDecimal front rest = false

theorem aadhaarReport_eq_some {found : Match} :
    aadhaarReport env weight ⟨front, number, rest⟩ = some found ↔
      IsAadhaar front number rest ∧ (Grouped number ∨ saysAadhaar env front = true) ∧
        found = builtinMatch "aadhaar" (redactDigits (stripSeparators number))
          (stripSeparators number) weight := by
  simp only [aadhaarReport, Option.ite_none_left_eq_some, not_or, not_and, not_not,
    Option.some.injEq, Bool.not_eq_false, Bool.not_eq_true]
  constructor
  · rintro ⟨⟨length, verhoeff⟩, ⟨notZero, notOne, whole⟩, said, rfl⟩
    refine ⟨⟨length, verhoeff, notZero, notOne, whole⟩, ?_, rfl⟩
    by_cases grouped : Grouped number
    · left
      exact grouped
    · right
      exact said grouped
  · rintro ⟨⟨length, verhoeff, notZero, notOne, whole⟩, said, rfl⟩
    exact ⟨⟨length, verhoeff⟩, ⟨notZero, notOne, whole⟩, said.resolve_left, rfl⟩

theorem mem_detectAadhaar (engine : Engine env classes) {found : Match} :
    found ∈ detectAadhaar env text weight ↔
      ∃ front number rest, text = front ++ (number ++ rest) ∧
        classes.Taken classes.AadhaarForm front number rest ∧ IsAadhaar front number rest ∧
        (Grouped number ∨ saysAadhaar env front = true) ∧
        found = builtinMatch "aadhaar" (redactDigits (stripSeparators number))
          (stripSeparators number) weight := by
  rw [detectAadhaar_eq, engine.aadhaar, List.mem_filterMap]
  constructor
  · rintro ⟨_, isFound, reported⟩
    obtain ⟨⟨front, number, rest⟩, isSpan, rfl⟩ := List.mem_map.mp isFound
    obtain ⟨isText, taken⟩ := mem_findAll_aadhaar.mp isSpan
    exact ⟨front, number, rest, isText, taken, aadhaarReport_eq_some.mp reported⟩
  · rintro ⟨front, number, rest, isText, taken, reported⟩
    refine ⟨⟨front, number, rest⟩, ?_, aadhaarReport_eq_some.mpr reported⟩
    exact List.mem_map.mpr ⟨⟨front, number, rest⟩, mem_findAll_aadhaar.mpr ⟨isText, taken⟩, rfl⟩

/--
Every number between letters that are of no word is reported, however its digits are
separated and whatever other digits stand next to it.
-/
def NumbersFound (env : Primitives) (classes : Classes) : Prop :=
  ∀ front number rest weight, written Char.isDigit number = true → classes.Bounded front rest →
    partOfDecimal front rest = false →
    (luhnValid (stripSeparators number) = true → cardNetworkValid (stripSeparators number) = true →
      ∃ found ∈ detectCreditCard env (front ++ (number ++ rest)) weight,
        found.key = stripSeparators number) ∧
    (IsAadhaar front number rest →
      ∃ found ∈ detectAadhaar env (front ++ (number ++ rest)) weight,
        found.key = stripSeparators number)

def ascii : Classes where
  digit := Char.isDigit
  word letter := letter.isAlphanum || letter == '_'
  digit_of_isDigit _ isDigit := isDigit
  word_of_digit letter isDigit := by simp [Char.isAlphanum, isDigit]
  space_not_word := by decide
  hyphen_not_word := by decide

def asciiCrate : Primitives where
  toLowercase := plain.toLowercase
  toUppercase := plain.toUppercase
  regex pattern :=
    if pattern = creditCardCandidate then
      some ⟨fun text => (findAll ascii.cardPattern text).map toFound, fun _ => [], fun _ => false⟩
    else if pattern = aadhaarRe then
      some ⟨fun text => (findAll ascii.aadhaarPattern text).map toFound, fun _ => [], fun _ => false⟩
    else
      some ⟨fun _ => [], fun _ => [], fun text =>
        ["aadhaar", "aadhar", "uidai"].any fun word =>
          contains (plain.toLowercase text) word.toList⟩
  lowEntropy := plain.lowEntropy
  scaled := plain.scaled

theorem asciiCrate_engine : Engine asciiCrate ascii where
  card _ := rfl
  aadhaar _ := rfl

/-- A number of twelve digits in a row, with no word that says what it is. -/
theorem not_numbersFound : ¬NumbersFound asciiCrate ascii := by
  intro found
  have isAadhaar : IsAadhaar "order ".toList "234123412346".toList " shipped".toList := by
    constructor <;> decide +kernel
  obtain ⟨_, isFound, _⟩ := (found "order ".toList "234123412346".toList " shipped".toList 55
    (by decide) ⟨by decide, by decide⟩ (by decide)).2 isAadhaar
  have nothing : detectAadhaar asciiCrate
      ("order ".toList ++ ("234123412346".toList ++ " shipped".toList)) 55 = [] := by
    decide +kernel
  rw [nothing] at isFound
  contradiction

/--
A card number is reported where it is taken as a candidate, and an Aadhaar number where it is
taken and is written in groups or has a word before it that says what it is, and no other.  A
number to which no digits are joined by a separator is always taken.
-/
theorem numbers_reported_where_taken (engine : Engine env classes) (weight : ℤ) :
    (∀ front number rest, written Char.isDigit number = true →
      classes.Taken classes.CardForm front number rest → partOfDecimal front rest = false →
      luhnValid (stripSeparators number) = true → cardNetworkValid (stripSeparators number) = true →
      builtinMatch "credit_card" (redactDigits (stripSeparators number)) (stripSeparators number)
        weight ∈ detectCreditCard env (front ++ (number ++ rest)) weight) ∧
    (∀ front number rest, classes.Taken classes.AadhaarForm front number rest →
      IsAadhaar front number rest → Grouped number ∨ saysAadhaar env front = true →
      builtinMatch "aadhaar" (redactDigits (stripSeparators number)) (stripSeparators number)
        weight ∈ detectAadhaar env (front ++ (number ++ rest)) weight) ∧
    (∀ text, ∀ found ∈ detectAadhaar env text weight, ∃ front number rest,
      text = front ++ (number ++ rest) ∧ found.key = stripSeparators number ∧
        IsAadhaar front number rest ∧ (Grouped number ∨ saysAadhaar env front = true)) ∧
    ∀ front number rest, classes.Bounded front rest → classes.Isolated front rest →
      (classes.CardForm number → classes.Taken classes.CardForm front number rest) ∧
        (classes.AadhaarForm number → classes.Taken classes.AadhaarForm front number rest) := by
  refine ⟨?_, ?_, ?_, ?_⟩
  · intro front number rest isWritten taken isWhole luhn network
    exact card_reported engine isWritten taken isWhole luhn network
  · intro front number rest taken isAadhaar said
    exact (mem_detectAadhaar engine).mpr ⟨front, number, rest, rfl, taken, isAadhaar, said, rfl⟩
  · intro text found isFound
    obtain ⟨front, number, rest, isText, _, isAadhaar, said, rfl⟩ :=
      (mem_detectAadhaar engine).mp isFound
    exact ⟨front, number, rest, isText, rfl, isAadhaar, said⟩
  · intro front number rest bounded isolated
    constructor
    · exact fun form => Classes.taken_of_isolated (fun _ form => form.isWritten) form bounded isolated
    · exact fun form => Classes.taken_of_isolated (fun _ form => form.isWritten) form bounded isolated

/-- A card between two words. -/
theorem numbers_reported_where_taken_between_words :
    builtinMatch "credit_card" (redactDigits "4242424242424242".toList) "4242424242424242".toList 55 ∈
      detectCreditCard asciiCrate
        ("pay ".toList ++ ("4242 4242-42424242".toList ++ " now".toList)) 55 := by
  have form : ascii.CardForm "4242 4242-42424242".toList := by
    constructor <;> decide
  have taken : ascii.Taken ascii.CardForm "pay ".toList "4242 4242-42424242".toList " now".toList := by
    apply Classes.taken_of_isolated (fun _ form => form.isWritten) form
    · constructor <;> decide
    · constructor <;> decide
  exact (numbers_reported_where_taken asciiCrate_engine 55).1 _ _ _ (by decide) taken (by decide)
    (by decide) (by decide)

end Aavishield.Dlp
