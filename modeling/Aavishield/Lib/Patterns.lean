import Mathlib.Computability.Language
import Mathlib.Data.List.Pairwise

/-!
# Patterns

A pattern takes a place in a text to the places where it may end, the preferred one first.
The matches in a text are found from left to right and do not overlap, and which they are is
said of the places alone.
-/

namespace Patterns

variable {Letter : Type}

structure Place (Letter : Type) where
  before : List Letter
  after : List Letter

abbrev Pattern (Letter : Type) := Place Letter → List (Place Letter)

def one (accepts : Letter → Bool) : Pattern Letter
  | ⟨_, []⟩ => []
  | ⟨before, letter :: after⟩ => if accepts letter then [⟨letter :: before, after⟩] else []

def andThen (first second : Pattern Letter) : Pattern Letter :=
  fun place => (first place).flatMap second

def maybe (pattern : Pattern Letter) : Pattern Letter :=
  fun place => pattern place ++ [place]

def repeated (pattern : Pattern Letter) : ℕ → ℕ → Pattern Letter
  | least, 0 => fun place => if least = 0 then [place] else []
  | least, most + 1 => fun place =>
    (pattern place).flatMap (repeated pattern (least - 1) most) ++
      if least = 0 then [place] else []

def boundary (word : Letter → Bool) : Pattern Letter :=
  fun place => if place.before.head?.any word != place.after.head?.any word then [place] else []

structure Place.Takes (place : Place Letter) (taken : List Letter) (finish : Place Letter) :
    Prop where
  after : place.after = taken ++ finish.after
  before : finish.before = taken.reverse ++ place.before

def single (accepts : Letter → Bool) : Language Letter :=
  {taken | ∃ letter, accepts letter = true ∧ taken = [letter]}

def Recognizes (pattern : Pattern Letter) (language : Language Letter) : Prop :=
  ∀ place finish, finish ∈ pattern place ↔ ∃ taken ∈ language, place.Takes taken finish

section Recognizing

variable {place middle finish : Place Letter} {taken more : List Letter}

theorem Place.Takes.refl (place : Place Letter) : place.Takes [] place := ⟨rfl, rfl⟩

theorem Place.Takes.trans (first : place.Takes taken middle) (second : middle.Takes more finish) :
    place.Takes (taken ++ more) finish := by
  constructor
  · rw [first.after, second.after, List.append_assoc]
  · rw [second.before, first.before, List.reverse_append, List.append_assoc]

theorem Place.Takes.eq_of_nil (nothing : place.Takes [] finish) : finish = place := by
  obtain ⟨after, before⟩ := nothing
  cases place
  cases finish
  simp_all

theorem Place.takes_append (before taken after : List Letter) :
    (Place.mk before (taken ++ after)).Takes taken ⟨taken.reverse ++ before, after⟩ := ⟨rfl, rfl⟩

theorem Place.Takes.split (both : place.Takes (taken ++ more) finish) :
    ∃ middle, place.Takes taken middle ∧ middle.Takes more finish := by
  refine ⟨⟨taken.reverse ++ place.before, more ++ finish.after⟩, ⟨?_, rfl⟩, ⟨rfl, ?_⟩⟩
  · rw [both.after, List.append_assoc]
  · rw [both.before, List.reverse_append, List.append_assoc]

theorem Place.Takes.length_eq (takes : place.Takes taken finish) :
    place.after.length = taken.length + finish.after.length := by
  rw [takes.after, List.length_append]

variable {pattern first second : Pattern Letter} {language other : Language Letter}

theorem recognizes_one (accepts : Letter → Bool) :
    Recognizes (one accepts) (single accepts) := by
  rintro ⟨before, after⟩ finish
  cases after with
  | nil =>
    simp only [one, List.not_mem_nil, false_iff]
    rintro ⟨_, ⟨letter, _, rfl⟩, takes⟩
    simpa using takes.after
  | cons letter after =>
    constructor
    · intro isEnd
      by_cases accepted : accepts letter = true
      · simp only [one, accepted, if_true, List.mem_singleton] at isEnd
        subst isEnd
        exact ⟨[letter], ⟨letter, accepted, rfl⟩, rfl, rfl⟩
      · simp [one, accepted] at isEnd
    · rintro ⟨_, ⟨taken, accepted, rfl⟩, takes⟩
      obtain ⟨finishBefore, finishAfter⟩ := finish
      obtain ⟨sameAfter, sameBefore⟩ := takes
      simp only [List.cons_append, List.nil_append, List.cons.injEq] at sameAfter
      obtain ⟨rfl, rfl⟩ := sameAfter
      simp_all [one]

theorem Recognizes.andThen (recognizes : Recognizes first language)
    (others : Recognizes second other) : Recognizes (andThen first second) (language * other) := by
  intro place finish
  simp only [Patterns.andThen, List.mem_flatMap, Language.mem_mul]
  constructor
  · rintro ⟨middle, isMiddle, isEnd⟩
    obtain ⟨taken, inLanguage, takes⟩ := (recognizes place middle).mp isMiddle
    obtain ⟨more, inOther, takesMore⟩ := (others middle finish).mp isEnd
    exact ⟨taken ++ more, ⟨taken, inLanguage, more, inOther, rfl⟩, takes.trans takesMore⟩
  · rintro ⟨_, ⟨taken, inLanguage, more, inOther, rfl⟩, takes⟩
    obtain ⟨middle, takesFirst, takesSecond⟩ := takes.split
    refine ⟨middle, ?_, ?_⟩
    · exact (recognizes place middle).mpr ⟨taken, inLanguage, takesFirst⟩
    · exact (others middle finish).mpr ⟨more, inOther, takesSecond⟩

theorem Recognizes.maybe (recognizes : Recognizes pattern language) :
    Recognizes (maybe pattern) (language + 1) := by
  intro place finish
  simp only [Patterns.maybe, List.mem_append, List.mem_singleton, Language.mem_add,
    Language.mem_one]
  rw [recognizes place finish]
  constructor
  · rintro (⟨taken, inLanguage, takes⟩ | rfl)
    · exact ⟨taken, .inl inLanguage, takes⟩
    · exact ⟨[], .inr rfl, .refl finish⟩
  · rintro ⟨taken, inLanguage | rfl, takes⟩
    · left
      exact ⟨taken, inLanguage, takes⟩
    · right
      exact takes.eq_of_nil

theorem Recognizes.repeated (recognizes : Recognizes pattern language) (least most : ℕ) :
    Recognizes (repeated pattern least most)
      {taken | ∃ times, least ≤ times ∧ times ≤ most ∧ taken ∈ language ^ times} := by
  induction most generalizing least with
  | zero =>
    intro place finish
    by_cases none : least = 0
    · simp only [Patterns.repeated, none, if_true, List.mem_singleton]
      constructor
      · rintro rfl
        exact ⟨[], ⟨0, le_rfl, le_rfl, rfl⟩, .refl finish⟩
      · rintro ⟨taken, ⟨times, _, atMost, inPower⟩, takes⟩
        obtain rfl : times = 0 := by omega
        obtain rfl : taken = [] := by simpa using inPower
        exact takes.eq_of_nil
    · simp only [Patterns.repeated, none, if_false, List.not_mem_nil, false_iff]
      rintro ⟨taken, ⟨times, atLeast, atMost, _⟩, _⟩
      omega
  | succ most rest =>
    intro place finish
    simp only [Patterns.repeated, List.mem_append, List.mem_flatMap]
    constructor
    · rintro (⟨middle, isMiddle, isEnd⟩ | isPlace)
      · obtain ⟨taken, inLanguage, takes⟩ := (recognizes place middle).mp isMiddle
        obtain ⟨more, ⟨times, atLeast, atMost, inPower⟩, takesMore⟩ :=
          (rest (least - 1) middle finish).mp isEnd
        refine ⟨taken ++ more, ⟨times + 1, by omega, by omega, ?_⟩, takes.trans takesMore⟩
        rw [pow_succ']
        exact Language.append_mem_mul inLanguage inPower
      · by_cases none : least = 0
        · simp only [none, if_true, List.mem_singleton] at isPlace
          subst isPlace
          exact ⟨[], ⟨0, by omega, by omega, rfl⟩, .refl finish⟩
        · simp [none] at isPlace
    · rintro ⟨taken, ⟨times, atLeast, atMost, inPower⟩, takes⟩
      rcases times with _ | times
      · right
        obtain rfl : taken = [] := by simpa using inPower
        simp [show least = 0 by omega, takes.eq_of_nil]
      · left
        rw [pow_succ'] at inPower
        obtain ⟨head, inLanguage, more, inRest, rfl⟩ := Language.mem_mul.mp inPower
        obtain ⟨middle, takesFirst, takesSecond⟩ := takes.split
        refine ⟨middle, (recognizes place middle).mpr ⟨head, inLanguage, takesFirst⟩, ?_⟩
        exact (rest (least - 1) middle finish).mpr
          ⟨more, ⟨times, by omega, by omega, inRest⟩, takesSecond⟩

theorem Recognizes.congr (recognizes : Recognizes pattern language)
    (same : ∀ taken, taken ∈ language ↔ taken ∈ other) : Recognizes pattern other := by
  intro place finish
  rw [recognizes place finish]
  simp only [same]

theorem mem_single_pow {accepts : Letter → Bool} {times : ℕ} : taken ∈ single accepts ^ times ↔
      taken.length = times ∧ ∀ letter ∈ taken, accepts letter = true := by
  induction times generalizing taken with
  | zero =>
    simp only [pow_zero, Language.mem_one, List.length_eq_zero_iff]
    constructor
    · rintro rfl
      exact ⟨rfl, by simp⟩
    · exact And.left
  | succ times rest =>
    rw [pow_succ', Language.mem_mul]
    constructor
    · rintro ⟨_, ⟨letter, accepted, rfl⟩, others, inRest, rfl⟩
      obtain ⟨length, all⟩ := rest.mp inRest
      refine ⟨by simp [length], ?_⟩
      simpa [accepted] using all
    · rintro ⟨length, all⟩
      cases taken with
      | nil => simp at length
      | cons letter others =>
        simp only [List.mem_cons, forall_eq_or_imp, List.length_cons] at length all
        exact ⟨[letter], ⟨letter, all.1, rfl⟩, others, rest.mpr ⟨by omega, all.2⟩, rfl⟩

theorem mem_boundary {word : Letter → Bool} :
    finish ∈ boundary word place ↔
      finish = place ∧ place.before.head?.any word ≠ place.after.head?.any word := by
  by_cases differs : place.before.head?.any word = place.after.head?.any word <;>
    simp [boundary, differs]

end Recognizing

def Greedy (pattern : Pattern Letter) : Prop :=
  ∀ place, (pattern place).Pairwise fun first second => first.after.length < second.after.length

def Advances (pattern : Pattern Letter) : Prop :=
  ∀ place, ∀ finish ∈ pattern place, finish.after.length ≤ place.after.length

section Preferring

variable {pattern : Pattern Letter} {language : Language Letter} {place finish : Place Letter}

theorem Recognizes.advances (recognizes : Recognizes pattern language) : Advances pattern := by
  intro place finish isEnd
  obtain ⟨taken, _, takes⟩ := (recognizes place finish).mp isEnd
  rw [takes.length_eq]
  omega

theorem Greedy.repeated (recognizes : Recognizes pattern language) (nonempty : [] ∉ language)
    (stuckAfter : ∀ place, (pattern place).Pairwise fun first second =>
      first.after.length < second.after.length ∧ pattern second = [])
    (least most : ℕ) : Greedy (repeated pattern least most) := by
  induction most generalizing least with
  | zero =>
    intro place
    by_cases none : least = 0 <;> simp [Patterns.repeated, none]
  | succ most rest =>
    intro place
    have advances := (recognizes.repeated (least - 1) most).advances
    simp only [Patterns.repeated]
    rw [List.pairwise_append, List.pairwise_flatMap]
    refine ⟨⟨fun middle _ => rest (least - 1) middle, ?_⟩, ?_, ?_⟩
    · refine (stuckAfter place).imp ?_
      rintro first second ⟨shorter, stuck⟩ finish isFinish other isOther
      -- From the shorter end there is no way on.
      obtain rfl : other = second := by
        rcases most with _ | most <;> by_cases none : least - 1 = 0 <;>
          simp [Patterns.repeated, stuck, none] at isOther <;> exact isOther
      exact (advances first finish isFinish).trans_lt shorter
    · by_cases none : least = 0 <;> simp [none]
    · intro finish isFinish other isOther
      obtain rfl : other = place := by
        by_cases none : least = 0
        · simpa [none] using isOther
        · simp [none] at isOther
      obtain ⟨middle, isMiddle, isEnd⟩ := List.mem_flatMap.mp isFinish
      obtain ⟨taken, inLanguage, takes⟩ := (recognizes other middle).mp isMiddle
      have taken_pos : 0 < taken.length := by
        apply List.length_pos_iff.mpr
        rintro rfl
        exact nonempty inLanguage
      have := advances middle finish isEnd
      have := takes.length_eq
      omega

theorem Greedy.within (greedy : Greedy pattern) (word : Letter → Bool) :
    Greedy (andThen (boundary word) (andThen pattern (boundary word))) := by
  intro place
  have around : ∀ place, (boundary word place).Pairwise
      fun first second => first.after.length < second.after.length := by
    intro place
    unfold boundary
    split <;> simp
  simp only [andThen]
  rw [List.pairwise_flatMap]
  constructor
  · intro middle _
    refine List.pairwise_flatMap.mpr ⟨fun finish _ => around finish, (greedy middle).imp ?_⟩
    intro first second shorter finish isFinish other isOther
    rwa [(mem_boundary.mp isFinish).1, (mem_boundary.mp isOther).1]
  · unfold boundary
    split <;> simp

theorem mem_within {word : Letter → Bool} :
    finish ∈ andThen (boundary word) (andThen pattern (boundary word)) place ↔
      finish ∈ pattern place ∧
        place.before.head?.any word ≠ place.after.head?.any word ∧
        finish.before.head?.any word ≠ finish.after.head?.any word := by
  simp only [andThen, List.mem_flatMap, mem_boundary]
  constructor
  · rintro ⟨_, ⟨rfl, starts⟩, _, isEnd, rfl, ends⟩
    exact ⟨isEnd, starts, ends⟩
  · rintro ⟨isEnd, starts, ends⟩
    exact ⟨place, ⟨rfl, starts⟩, finish, isEnd, rfl, ends⟩

end Preferring

structure Longest (candidate : ℕ → ℕ → Prop) (start stop : ℕ) : Prop where
  isCandidate : candidate start stop
  longest : ∀ other, candidate start other → other ≤ stop

def Chosen (candidate : ℕ → ℕ → Prop) (start stop : ℕ) : Prop :=
  Longest candidate start stop ∧
    ∀ earlier (_ : earlier < start) (finish : ℕ), Chosen candidate earlier finish → finish ≤ start
termination_by start

section Choosing

variable {candidate matched : ℕ → ℕ → Prop} {start stop : ℕ}

theorem chosen_iff :
    Chosen candidate start stop ↔ Longest candidate start stop ∧
      ∀ earlier finish, earlier < start → Chosen candidate earlier finish → finish ≤ start := by
  rw [Chosen]
  constructor
  · rintro ⟨longest, apart⟩
    exact ⟨longest, fun earlier finish isEarlier => apart earlier isEarlier finish⟩
  · rintro ⟨longest, apart⟩
    exact ⟨longest, fun earlier isEarlier finish => apart earlier finish isEarlier⟩

theorem Chosen.longest (chosen : Chosen candidate start stop) : Longest candidate start stop :=
  (chosen_iff.mp chosen).1

theorem Longest.unique {other : ℕ} (longest : Longest candidate start stop)
    (otherLongest : Longest candidate start other) : stop = other :=
  (otherLongest.longest stop longest.isCandidate).antisymm (longest.longest other otherLongest.isCandidate)

theorem chosen_iff_exists (sound : ∀ start stop, Longest matched start stop → ∃ trimmed,
      Longest candidate start trimmed ∧ trimmed ≤ stop ∧
        ∀ next finish, candidate next finish → trimmed ≤ next → stop ≤ next)
    (complete : ∀ start stop, candidate start stop → ∃ finish, Longest matched start finish) :
    Longest candidate start stop →
      (Chosen candidate start stop ↔ ∃ finish, Chosen matched start finish) := by
  induction start using Nat.strongRecOn generalizing stop with
  | ind start before =>
  intro longest
  constructor
  · intro chosen
    obtain ⟨finish, isMatch⟩ := complete start stop longest.isCandidate
    refine ⟨finish, chosen_iff.mpr ⟨isMatch, ?_⟩⟩
    intro earlier earlierFinish isEarlier earlierChosen
    obtain ⟨trimmed, earlierLongest, _, apart⟩ :=
      sound earlier earlierFinish earlierChosen.longest
    have earlierCandidate := (before earlier isEarlier earlierLongest).mpr ⟨_, earlierChosen⟩
    apply apart start stop longest.isCandidate
    exact (chosen_iff.mp chosen).2 earlier trimmed isEarlier earlierCandidate
  · rintro ⟨finish, chosen⟩
    refine chosen_iff.mpr ⟨longest, ?_⟩
    intro earlier earlierStop isEarlier earlierChosen
    obtain ⟨earlierFinish, matchedChosen⟩ :=
      (before earlier isEarlier earlierChosen.longest).mp earlierChosen
    obtain ⟨trimmed, earlierLongest, atMost, _⟩ :=
      sound earlier earlierFinish matchedChosen.longest
    rw [earlierChosen.longest.unique earlierLongest]
    exact atMost.trans ((chosen_iff.mp chosen).2 earlier earlierFinish isEarlier matchedChosen)

end Choosing

structure Span (Letter : Type) where
  front : List Letter
  matched : List Letter
  rest : List Letter
  deriving DecidableEq

def lengthAt (pattern : Pattern Letter) (place : Place Letter) : ℕ :=
  match (pattern place).head? with
  | none => 0
  | some finish => place.after.length - finish.after.length

def findFrom (pattern : Pattern Letter) : ℕ → List Letter → List Letter → List (Span Letter)
  | _, _, [] => []
  | skipped + 1, before, letter :: after => findFrom pattern skipped (letter :: before) after
  | 0, before, letter :: after =>
    match lengthAt pattern ⟨before, letter :: after⟩ with
    | 0 => findFrom pattern 0 (letter :: before) after
    | more + 1 =>
      ⟨before.reverse, letter :: after.take more, after.drop more⟩ ::
        findFrom pattern more (letter :: before) after

def findAll (pattern : Pattern Letter) (text : List Letter) : List (Span Letter) :=
  findFrom pattern 0 [] text

def MatchedAt (pattern : Pattern Letter) (text : List Letter) (start stop : ℕ) : Prop :=
  0 < lengthAt pattern ⟨(text.take start).reverse, text.drop start⟩ ∧
    stop = start + lengthAt pattern ⟨(text.take start).reverse, text.drop start⟩

section Finding

variable {pattern : Pattern Letter} {text before after : List Letter} {start stop : ℕ}

theorem MatchedAt.longest_iff : Longest (MatchedAt pattern text) start stop ↔
    MatchedAt pattern text start stop := by
  constructor
  · intro longest
    exact longest.isCandidate
  · intro isMatch
    refine ⟨isMatch, ?_⟩
    intro other otherMatch
    rw [isMatch.2, otherMatch.2]

theorem not_matchedAt_end (atEnd : text.length ≤ start) : ¬MatchedAt pattern text start stop := by
  rintro ⟨positive, _⟩
  simp only [lengthAt, List.drop_eq_nil_of_le atEnd, List.length_nil] at positive
  split at positive <;> simp at positive

variable {candidate : ℕ → ℕ → Prop}

theorem behind_cons {place bound : ℕ}
    (behind : ∀ earlier finish, earlier < place → Chosen candidate earlier finish → finish ≤ bound)
    (here : ∀ finish, Chosen candidate place finish → finish ≤ bound) :
    ∀ earlier finish, earlier < place + 1 → Chosen candidate earlier finish → finish ≤ bound := by
  intro earlier finish isEarlier chosen
  rcases Nat.lt_succ_iff_lt_or_eq.mp isEarlier with isEarlier | rfl
  · exact behind earlier finish isEarlier chosen
  · exact here finish chosen

theorem from_next_iff {place : ℕ} (unchosen : ∀ finish, ¬Chosen candidate place finish) :
    place + 1 ≤ start ∧ Chosen candidate start stop ↔
      place ≤ start ∧ Chosen candidate start stop := by
  constructor
  · rintro ⟨later, chosen⟩
    exact ⟨Nat.le_of_succ_le later, chosen⟩
  · rintro ⟨atLeast, chosen⟩
    rcases Nat.eq_or_lt_of_le atLeast with rfl | later
    · exact absurd chosen (unchosen stop)
    · exact ⟨later, chosen⟩

theorem lengthAt_le (pattern : Pattern Letter) (place : Place Letter) :
    lengthAt pattern place ≤ place.after.length := by
  unfold lengthAt
  split <;> omega

theorem exists_of_lengthAt_pos {place : Place Letter} (positive : 0 < lengthAt pattern place) :
    ∃ finish ∈ pattern place, lengthAt pattern place = place.after.length - finish.after.length := by
  unfold lengthAt at *
  cases preferred : (pattern place).head? with
  | none => simp [preferred] at positive
  | some finish => exact ⟨finish, List.mem_of_head? preferred, rfl⟩

theorem exists_of_mem {place finish : Place Letter} (isEnd : finish ∈ pattern place) :
    ∃ preferred ∈ pattern place,
      lengthAt pattern place = place.after.length - preferred.after.length := by
  unfold lengthAt
  cases ends : pattern place with
  | nil => simp [ends] at isEnd
  | cons preferred others => exact ⟨preferred, List.mem_cons_self, rfl⟩

theorem Greedy.le_lengthAt {place finish : Place Letter} (greedy : Greedy pattern)
    (isEnd : finish ∈ pattern place) :
    place.after.length - finish.after.length ≤ lengthAt pattern place := by
  have inOrder := greedy place
  unfold lengthAt
  cases ends : pattern place with
  | nil => simp [ends] at isEnd
  | cons preferred others =>
    simp only [ends, List.pairwise_cons, List.mem_cons, List.head?_cons] at *
    rcases isEnd with rfl | isOther
    · exact le_rfl
    · have := inOrder.1 finish isOther
      omega

variable {span : Span Letter}

theorem span_unique {letter : Letter} {more : ℕ} (isText : text = before.reverse ++ letter :: after)
    (isSpan : text = span.front ++ (span.matched ++ span.rest))
    (sameFront : before.length = span.front.length) (sameMatched : span.matched.length = more + 1) :
    span = ⟨before.reverse, letter :: after.take more, after.drop more⟩ := by
  obtain ⟨front, matched, rest⟩ := span
  rw [isText] at isSpan
  obtain ⟨rfl, isRest⟩ := List.append_inj isSpan (by simpa using sameFront)
  have isMatched : letter :: after = (letter :: after.take more) ++ after.drop more := by simp
  rw [isMatched] at isRest
  have enough : more ≤ after.length := by
    have := congrArg List.length isRest
    simp only [List.length_append, List.length_cons, List.length_take, List.length_drop] at *
    omega
  obtain ⟨rfl, rfl⟩ := List.append_inj isRest (by
    simp only [List.length_cons, List.length_take] at *
    omega)
  rfl

theorem mem_findFrom {skipped : ℕ} (isText : text = before.reverse ++ after)
    (behind : ∀ earlier finish, earlier < before.length →
      Chosen (MatchedAt pattern text) earlier finish → finish ≤ before.length + skipped)
    (reached : skipped = 0 ∨ ∃ earlier < before.length,
      Chosen (MatchedAt pattern text) earlier (before.length + skipped)) :
    span ∈ findFrom pattern skipped before after ↔
      text = span.front ++ (span.matched ++ span.rest) ∧ before.length ≤ span.front.length ∧
        Chosen (MatchedAt pattern text) span.front.length
          (span.front.length + span.matched.length) := by
  induction after generalizing skipped before with
  | nil =>
    simp only [findFrom, List.not_mem_nil, false_iff]
    rintro ⟨_, atLeast, chosen⟩
    apply not_matchedAt_end _ chosen.longest.isCandidate
    simpa [isText] using atLeast
  | cons letter after rest =>
    have isHere : Place.mk (text.take before.length).reverse (text.drop before.length) =
        ⟨before, letter :: after⟩ := by
      simp [isText]
    have sameText : text = (letter :: before).reverse ++ after := by simpa using isText
    rcases skipped with _ | skipped
    · cases taken : lengthAt pattern ⟨before, letter :: after⟩ with
      | zero =>
        have unmatched : ∀ finish, ¬Chosen (MatchedAt pattern text) before.length finish := by
          intro finish chosen
          have positive := chosen.longest.isCandidate.1
          rw [isHere, taken] at positive
          omega
        simp only [findFrom, taken]
        rw [rest sameText ?_ (.inl rfl)]
        · exact and_congr_right fun _ => from_next_iff unmatched
        · simp only [List.length_cons]
          apply behind_cons
          · intro earlier finish isEarlier chosen
            have := behind earlier finish isEarlier chosen
            omega
          · intro finish chosen
            exact absurd chosen (unmatched finish)
      | succ more =>
        have chosen : Chosen (MatchedAt pattern text) before.length
            (before.length + (more + 1)) := by
          refine chosen_iff.mpr ⟨MatchedAt.longest_iff.mpr ?_, ?_⟩
          · unfold MatchedAt
            rw [isHere, taken]
            omega
          · intro earlier finish isEarlier earlierChosen
            simpa using behind earlier finish isEarlier earlierChosen
        simp only [findFrom, taken, List.mem_cons]
        have enough : more + 1 ≤ after.length + 1 := by
          have := lengthAt_le pattern ⟨before, letter :: after⟩
          rwa [taken] at this
        rw [rest sameText ?_ ?_]
        · constructor
          · rintro (rfl | ⟨isSpan, later, spanChosen⟩)
            · refine ⟨by simpa using isText, by simp, ?_⟩
              simpa [min_eq_left (Nat.le_of_succ_le_succ enough)] using chosen
            · exact ⟨isSpan, Nat.le_of_succ_le later, spanChosen⟩
          · rintro ⟨isSpan, atLeast, spanChosen⟩
            rcases Nat.eq_or_lt_of_le atLeast with same | later
            · left
              rw [← same] at spanChosen
              have sameLength := spanChosen.longest.unique chosen.longest
              exact span_unique isText isSpan (by simpa using same) (by omega)
            · right
              exact ⟨isSpan, later, spanChosen⟩
        · simp only [List.length_cons]
          apply behind_cons
          · intro earlier finish isEarlier earlierChosen
            have := behind earlier finish isEarlier earlierChosen
            omega
          · intro finish here
            rw [here.longest.unique chosen.longest]
            omega
        · right
          simp only [List.length_cons]
          refine ⟨before.length, by omega, ?_⟩
          rwa [show before.length + 1 + more = before.length + (more + 1) by omega]
    · obtain ⟨earlier, isEarlier, chosen⟩ : ∃ earlier < before.length,
          Chosen (MatchedAt pattern text) earlier (before.length + (skipped + 1)) := by
        simpa using reached
      have inside : ∀ finish, ¬Chosen (MatchedAt pattern text) before.length finish := by
        intro finish here
        have := (chosen_iff.mp here).2 earlier _ isEarlier chosen
        omega
      simp only [findFrom]
      rw [rest sameText ?_ ?_]
      · exact and_congr_right fun _ => from_next_iff inside
      · simp only [List.length_cons]
        apply behind_cons
        · intro earlier finish isEarlier chosen
          have := behind earlier finish isEarlier chosen
          omega
        · intro finish chosen
          exact absurd chosen (inside finish)
      · right
        simp only [List.length_cons]
        refine ⟨earlier, by omega, ?_⟩
        rwa [show before.length + 1 + skipped = before.length + (skipped + 1) by omega]

theorem mem_findAll : span ∈ findAll pattern text ↔
    text = span.front ++ (span.matched ++ span.rest) ∧
      Chosen (MatchedAt pattern text) span.front.length
        (span.front.length + span.matched.length) := by
  unfold findAll
  have isText : text = ([] : List Letter).reverse ++ text := rfl
  rw [mem_findFrom isText (by simp) (.inl rfl)]
  simp

end Finding

end Patterns
