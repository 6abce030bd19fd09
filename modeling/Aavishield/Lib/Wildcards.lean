import Mathlib.Data.List.Infix

/-!
# Wildcard patterns

Patterns made of letters and of the wildcards "any one letter" and "any letters", and what
it means that a sequence occurs in a text.  How a letter of a text meets a letter of a
pattern is a parameter, so that case or accents may be ignored.
-/

namespace Wildcards

universe u v

variable {Text : Type u} {Letter : Type v}

inductive Token (Letter : Type v) where
  | exactly (letter : Letter)
  | anyOne
  | anyMany
  deriving DecidableEq

def begins (meets : Text → Letter → Bool) : List Letter → List Text → Bool
  | [], _ => true
  | _ :: _, [] => false
  | letter :: letters, first :: text => meets first letter && begins meets letters text

def occurs (meets : Text → Letter → Bool) (letters : List Letter) (text : List Text) : Bool :=
  text.tails.any (begins meets letters)

def covers (meets : Text → Letter → Bool) : List (Token Letter) → List Text → Bool
  | [], text => text.isEmpty
  | .exactly _ :: _, [] => false
  | .exactly letter :: pattern, first :: text => meets first letter && covers meets pattern text
  | .anyOne :: _, [] => false
  | .anyOne :: pattern, _ :: text => covers meets pattern text
  | .anyMany :: pattern, text => text.tails.any (covers meets pattern)

def anywhere (letters : List Letter) : List (Token Letter) :=
  .anyMany :: (letters.map .exactly ++ [.anyMany])

variable {meets : Text → Letter → Bool}

@[simp]
theorem covers_anyMany (text : List Text) : covers meets [.anyMany] text = true := by
  simp only [covers, List.any_eq_true, List.mem_tails]
  exact ⟨[], List.nil_suffix, rfl⟩

theorem covers_letters (letters : List Letter) (text : List Text) :
    covers meets (letters.map .exactly ++ [.anyMany]) text = begins meets letters text := by
  induction letters generalizing text with
  | nil => simp [begins]
  | cons letter letters ih =>
    cases text with
    | nil => rfl
    | cons first text => simp [covers, begins, ih]

theorem covers_anywhere (letters : List Letter) (text : List Text) :
    covers meets (anywhere letters) text = occurs meets letters text := by
  simp only [anywhere, covers, occurs]
  congr 1
  funext rest
  exact covers_letters letters rest

variable {other : Text → Letter → Bool}

theorem begins_congr {letters : List Letter} {text : List Text}
    (same : ∀ first ∈ text, ∀ letter ∈ letters, meets first letter = other first letter) :
    begins meets letters text = begins other letters text := by
  induction letters generalizing text with
  | nil => rfl
  | cons letter letters ih =>
    cases text with
    | nil => rfl
    | cons first text =>
      have restSame : ∀ later ∈ text, ∀ asked ∈ letters, meets later asked = other later asked :=
        fun later laterMem asked askedMem =>
          same later (List.mem_cons_of_mem _ laterMem) asked (List.mem_cons_of_mem _ askedMem)
      rw [begins, begins, same first List.mem_cons_self letter List.mem_cons_self, ih restSame]

theorem occurs_congr {letters : List Letter} {text : List Text}
    (same : ∀ first ∈ text, ∀ letter ∈ letters, meets first letter = other first letter) :
    occurs meets letters text = occurs other letters text := by
  unfold occurs
  rw [Bool.eq_iff_iff, List.any_eq_true, List.any_eq_true]
  have there : ∀ rest ∈ text.tails, begins meets letters rest = begins other letters rest := by
    intro rest restMem
    apply begins_congr
    intro first firstMem
    exact same first (((List.mem_tails _ _).mp restMem).subset firstMem)
  constructor
  · rintro ⟨rest, restMem, found⟩
    exact ⟨rest, restMem, there rest restMem ▸ found⟩
  · rintro ⟨rest, restMem, found⟩
    exact ⟨rest, restMem, there rest restMem ▸ found⟩

theorem occurs_map {Text' : Type u} {Letter' : Type v} {meets : Text' → Letter' → Bool}
    (rewriteText : Text → Text') (rewrite : Letter → Letter') (letters : List Letter)
    (text : List Text) :
    occurs meets (letters.map rewrite) (text.map rewriteText) =
      occurs (fun first letter => meets (rewriteText first) (rewrite letter)) letters text := by
  have beginning : ∀ (letters : List Letter) (text : List Text),
      begins meets (letters.map rewrite) (text.map rewriteText) =
        begins (fun first letter => meets (rewriteText first) (rewrite letter)) letters text := by
    intro letters
    induction letters with
    | nil => simp [begins]
    | cons letter letters ih =>
      intro text
      cases text with
      | nil => rfl
      | cons first text => simp [begins, ih]
  induction text with
  | nil => simpa [occurs] using beginning letters []
  | cons first text ih =>
    simp only [occurs, List.map_cons, List.tails_cons, List.any_cons] at ih ⊢
    rw [ih, ← List.map_cons, beginning letters (first :: text)]

structure Marks (Letter : Type v) where
  one : Letter
  many : Letter
  escape : Letter
  distinct : many ≠ escape

variable [DecidableEq Letter]

def Marks.special (marks : Marks Letter) (letter : Letter) : Bool :=
  decide (letter = marks.one ∨ letter = marks.many ∨ letter = marks.escape)

def Marks.read (marks : Marks Letter) : List Letter → List (Token Letter)
  | [] => []
  | [letter] => [if letter = marks.many then .anyMany
      else if letter = marks.one then .anyOne else .exactly letter]
  | letter :: next :: rest =>
    if letter = marks.escape then .exactly next :: marks.read rest
    else (if letter = marks.many then .anyMany
      else if letter = marks.one then .anyOne else .exactly letter) :: marks.read (next :: rest)

section Read

variable {marks : Marks Letter} {letters : List Letter} {filler : Letter}

theorem Marks.read_cons {letter : Letter} {rest : List Letter} (taken : letter ≠ marks.escape) :
    marks.read (letter :: rest) =
      (if letter = marks.many then .anyMany
        else if letter = marks.one then .anyOne else .exactly letter) :: marks.read rest := by
  cases rest with
  | nil => simp [read]
  | cons next rest => rw [read, if_neg taken]

theorem Marks.read_plain (plain : ∀ letter ∈ letters, marks.special letter = false) :
    marks.read (marks.many :: (letters ++ [marks.many])) = anywhere letters := by
  have read_letters : marks.read (letters ++ [marks.many]) = letters.map .exactly ++ [.anyMany] := by
    induction letters with
    | nil => simp [read]
    | cons letter rest ih =>
      have isPlain := plain letter List.mem_cons_self
      simp only [special, decide_eq_false_iff_not, not_or] at isPlain
      rw [List.cons_append, read_cons isPlain.2.2, if_neg isPlain.2.1, if_neg isPlain.1,
        ih fun other otherMem => plain other (List.mem_cons_of_mem letter otherMem)]
      rfl
  rw [read_cons marks.distinct, if_pos rfl, read_letters]
  rfl

theorem begins_eq_iff (letters text : List Letter) :
    begins (fun first letter => decide (first = letter)) letters text = true ↔
      letters <+: text := by
  induction letters generalizing text with
  | nil => simp [begins]
  | cons letter letters ih =>
    cases text with
    | nil => simp [begins]
    | cons first text =>
      simp only [begins, Bool.and_eq_true, decide_eq_true_eq, ih, List.cons_prefix_cons]
      exact and_congr_left fun _ => eq_comm

theorem occurs_eq_iff (letters text : List Letter) :
    occurs (fun first letter => decide (first = letter)) letters text = true ↔
      letters <:+: text := by
  simp only [occurs, List.any_eq_true, List.mem_tails, begins_eq_iff]
  constructor
  · rintro ⟨rest, isSuffix, isPrefix⟩
    exact isPrefix.isInfix.trans isSuffix.isInfix
  · rintro ⟨before, after, whole⟩
    refine ⟨letters ++ after, ⟨before, ?_⟩, List.prefix_append _ _⟩
    rw [← List.append_assoc]
    exact whole

theorem exists_covered (notOne : filler ≠ marks.one) : ∀ letters : List Letter, ∃ text,
    covers (fun first letter => decide (first = letter)) (marks.read (letters ++ [marks.many])) text =
        true ∧
      text.length ≤ letters.length ∧
      ((∃ letter ∈ letters, marks.special letter = true) → text ≠ letters) ∧
      ∀ letter ∈ text, letter ∈ letters ∨ letter = filler ∨ letter = marks.many
  | [] => ⟨[], by simp [Marks.read]⟩
  | letter :: rest => by
    by_cases isEscape : letter = marks.escape
    · subst isEscape
      cases rest with
      | nil =>
        refine ⟨[marks.many], ?_, le_rfl, ?_, by simp⟩
        · simp [Marks.read, covers]
        · intro _ same
          exact marks.distinct (List.singleton_injective same)
      | cons next rest =>
        rcases exists_covered notOne rest with ⟨text, covered, short, -, letters⟩
        refine ⟨next :: text, ?_, ?_, ?_, ?_⟩
        · simpa [Marks.read, covers] using covered
        · simp only [List.length_cons]
          omega
        · rintro - same
          have sameLength := congrArg List.length same
          simp only [List.length_cons] at sameLength
          omega
        · intro other otherMem
          rcases List.mem_cons.mp otherMem with rfl | later
          · simp
          · rcases letters other later with inRest | added
            · simp [inRest]
            · exact .inr added
    · rcases exists_covered notOne rest with ⟨text, covered, short, differs, letters⟩
      have fromRest : ∀ other ∈ text, other ∈ letter :: rest ∨ other = filler ∨
          other = marks.many := by
        intro other otherMem
        rcases letters other otherMem with inRest | added
        · exact .inl (List.mem_cons_of_mem letter inRest)
        · exact .inr added
      rw [List.cons_append, Marks.read_cons isEscape]
      by_cases isMany : letter = marks.many
      · refine ⟨text, ?_, Nat.le_succ_of_le short, ?_, fromRest⟩
        · rw [if_pos isMany, covers, List.any_eq_true]
          exact ⟨text, (List.mem_tails _ _).mpr List.suffix_rfl, covered⟩
        · rintro - rfl
          exact absurd short (Nat.not_succ_le_self _)
      · rw [if_neg isMany]
        by_cases isOne : letter = marks.one
        · refine ⟨filler :: text, ?_, Nat.succ_le_succ short, ?_, ?_⟩
          · rw [if_pos isOne]
            exact covered
          · rintro - same
            exact notOne ((List.cons.inj same).1.trans isOne)
          · intro other otherMem
            rcases List.mem_cons.mp otherMem with rfl | later
            · exact .inr (.inl rfl)
            · exact fromRest other later
        · refine ⟨letter :: text, ?_, Nat.succ_le_succ short, ?_, ?_⟩
          · rw [if_neg isOne]
            simpa [covers] using covered
          · rintro ⟨other, otherMem, isSpecial⟩ same
            rcases List.mem_cons.mp otherMem with rfl | later
            · simp [Marks.special, isOne, isMany, isEscape] at isSpecial
            · exact differs ⟨other, later, isSpecial⟩ (List.cons.inj same).2
          · intro other otherMem
            rcases List.mem_cons.mp otherMem with rfl | later
            · exact .inl List.mem_cons_self
            · exact fromRest other later

theorem exists_misread (notOne : filler ≠ marks.one)
    (misread : ∃ letter ∈ letters, marks.special letter = true) :
    ∃ text, covers (fun first letter => decide (first = letter))
        (marks.read (marks.many :: (letters ++ [marks.many]))) text = true ∧
      ¬letters <:+: text ∧
      ∀ letter ∈ text, letter ∈ letters ∨ letter = filler ∨ letter = marks.many := by
  rcases exists_covered notOne letters with ⟨text, covered, short, differs, fromLetters⟩
  refine ⟨text, ?_, ?_, fromLetters⟩
  · rw [Marks.read_cons marks.distinct, if_pos rfl, covers, List.any_eq_true]
    exact ⟨text, (List.mem_tails _ _).mpr List.suffix_rfl, covered⟩
  · intro contained
    have same := contained.eq_of_length (le_antisymm contained.length_le short)
    exact differs misread same.symm

end Read

end Wildcards
