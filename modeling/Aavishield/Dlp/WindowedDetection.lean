import Aavishield.Dlp.ScanOrder
import Aavishield.Lib.FirstMatch
import Mathlib

/-!
# Detection in windows against detection in one piece

The verdict on a long text is the strongest of those on its windows.  What is found in one
window is not added to what is found in another, so that a text is judged as strongly as in
one piece only if one of its windows is on its own.
-/

namespace Aavishield.Dlp

open ByteText Strongest Text

variable (env : Primitives) (scanner : Scanner) (filename mime : List Char)

def Verdict.strength (verdict : Verdict) : WithBot (ℤ ×ₗ ℤ) :=
  if verdict.matched then ↑(toLex (verdict.rank, verdict.score)) else ⊥

def windows (text : List Char) (start : ℕ) : List (List Char) :=
  if start < byteLength text then
    slice text start (windowEnd text start) ::
      if windowEnd text start = byteLength text then [] else windows text (nextStart text start)
  else []
termination_by byteLength text - start
decreasing_by
  have further := start_lt_nextStart text start
  omega

def Scanner.scanned (text : List Char) : List (List Char) :=
  if byteLength text ≤ window then [text]
  else
    takeThrough (fun piece => (scanner.detect env filename mime piece []).isBlock)
      (windows text 0)

def Verdict.AtLeast (verdict other : Verdict) : Prop :=
  other.rank ≤ verdict.rank ∧ other.score ≤ verdict.score

/-- In windows no less is found than in one piece. -/
def Scanner.DecidesLikeWhole (text : List Char) : Prop :=
  (scanner.detectWindowed env filename mime text).AtLeast
    (scanner.detect env filename mime text [])

/-- What a policy finds in a piece; files of some types it lets pass. -/
def Policy.hits (policy : Policy) (piece : List Char) : List Match :=
  if policy.bypasses env filename mime then []
  else runDetectors env policy piece filename []

/-- The severity and the score that the hits in a piece add up to, under the strictest policy. -/
noncomputable def Scanner.weigh (piece : List Char) : WithBot (ℤ ×ₗ ℤ) :=
  ((scanner.policies.filter fun policy =>
    policy.hits env filename mime piece ≠ []).map fun policy =>
      (scoreFindings scanner.cfg policy
        (policy.hits env filename mime piece)).rank).maximum

/-- Without any hit, the severity and the score are zero. -/
def outcome (strength : WithBot (ℤ ×ₗ ℤ)) : ℤ × ℤ := ofLex (strength.unbotD (toLex (0, 0)))

/-- The windows up to the first whose hits are blocked, or the whole of a text that is short. -/
noncomputable def Scanner.reached (text : List Char) : List (List Char) :=
  if byteLength text ≤ window then [text]
  else
    takeThrough (fun piece => (outcome (scanner.weigh env filename mime piece)).1 = 3)
      (windows text 0)

/--
In one of the windows there are hits enough: they weigh most of all, and no less than the hits
in the whole text together, by severity and by score.
-/
def Scanner.HitsTogether (text : List Char) : Prop :=
  ∃ piece ∈ scanner.reached env filename mime text,
    (∀ other ∈ scanner.reached env filename mime text,
      scanner.weigh env filename mime other ≤ scanner.weigh env filename mime piece) ∧
    outcome (scanner.weigh env filename mime text) ≤
      outcome (scanner.weigh env filename mime piece)

variable {env scanner filename mime} {text : List Char} {start : ℕ}
  {verdict other : Verdict} {result : PolicyResult}

def Verdict.Quiet (verdict : Verdict) : Prop :=
  verdict.matched = false → verdict.rank = 0 ∧ verdict.score = 0

theorem quiet_default : Verdict.default.Quiet := fun _ => ⟨rfl, rfl⟩

theorem quiet_fromResult : (Verdict.fromResult result).Quiet := by
  intro unmatched
  rw [Verdict.fromResult] at unmatched ⊢
  split
  · exact ⟨rfl, rfl⟩
  · rename_i isMatched
    rw [if_neg isMatched] at unmatched
    simp at unmatched

theorem quiet_detect (piece : List Char) :
    (scanner.detect env filename mime piece []).Quiet :=
  quiet_fromResult

theorem matched_of_fromResult (blocks : (Verdict.fromResult result).isBlock = true) :
    (Verdict.fromResult result).matched = true := by
  rw [Verdict.fromResult] at blocks ⊢
  split
  · rename_i unmatched
    rw [if_pos unmatched] at blocks
    exact absurd blocks (by decide)
  · rfl

theorem matched_of_isBlock (piece : List Char)
    (blocks : (scanner.detect env filename mime piece []).isBlock = true) :
    (scanner.detect env filename mime piece []).matched = true :=
  matched_of_fromResult blocks

theorem Verdict.strength_lt_iff : verdict.strength < other.strength ↔
    other.matched = true ∧ (verdict.matched = true → verdict.rank < other.rank ∨
      other.rank = verdict.rank ∧ verdict.score < other.score) := by
  by_cases otherMatched : other.matched = true
  · by_cases isMatched : verdict.matched = true
    · rw [strength, strength, if_pos isMatched, if_pos otherMatched, WithBot.coe_lt_coe,
        Prod.Lex.toLex_lt_toLex, @eq_comm _ other.rank]
      simp [otherMatched, isMatched]
    · rw [strength, strength, if_neg isMatched, if_pos otherMatched]
      simp [otherMatched, isMatched, WithBot.bot_lt_coe]
  · rw [strength, strength, if_neg otherMatched]
    simp [otherMatched]

theorem Verdict.max_eq_stronger (verdict other : Verdict) :
    verdict.max other = stronger Verdict.strength verdict other := by
  rw [Verdict.max, stronger]
  by_cases otherMatched : other.matched = true
  · by_cases isMatched : verdict.matched = true
    · simp [Verdict.strength_lt_iff, otherMatched, isMatched]
    · simp [Verdict.strength_lt_iff, otherMatched, isMatched]
  · simp [Verdict.strength_lt_iff, otherMatched]

theorem eq_of_strength_eq (quiet : verdict.Quiet) (otherQuiet : other.Quiet)
    (same : verdict.strength = other.strength) :
    verdict.rank = other.rank ∧ verdict.score = other.score := by
  simp only [Verdict.strength] at same
  cases isMatched : verdict.matched <;> cases otherMatched : other.matched <;>
    simp only [isMatched, otherMatched, if_true, Bool.false_eq_true, if_false] at same
  · rw [(quiet isMatched).1, (quiet isMatched).2, (otherQuiet otherMatched).1,
      (otherQuiet otherMatched).2]
    exact ⟨rfl, rfl⟩
  · cases same
  · cases same
  · simpa using same

theorem Verdict.isBlock_iff : verdict.isBlock = true ↔ verdict.rank = 3 := by
  simp only [isBlock, beq_iff_eq, rank, actionSeverity]
  split <;> simp_all

theorem Verdict.rank_le (verdict : Verdict) : verdict.rank ≤ 3 := by
  simp only [rank, actionSeverity]
  split <;> omega

theorem isBlock_max (unblocked : verdict.isBlock = false)
    (sound : other.isBlock = true → other.matched = true) :
    (verdict.max other).isBlock = other.isBlock := by
  rw [Verdict.max]
  by_cases blocks : other.isBlock = true
  · have weaker : verdict.rank < other.rank := by
      have isStrict : verdict.rank ≠ 3 := fun isBlock => by
        simp [Verdict.isBlock_iff.mpr isBlock] at unblocked
      have atMost := verdict.rank_le
      rw [Verdict.isBlock_iff.mp blocks]
      omega
    simp [sound blocks, weaker]
  · rw [Bool.not_eq_true] at blocks
    split
    · rw [unblocked, blocks]
    · split
      · rfl
      · rw [unblocked, blocks]

variable {externals : List ExternalMatch}

theorem scorePolicy_congr {other : List Char} {policy : Policy} {cfg : Config}
    (same : runDetectors env policy text filename externals =
      runDetectors env policy other filename externals) :
    scorePolicy env cfg policy text filename mime externals =
      scorePolicy env cfg policy other filename mime externals := by
  simp only [scorePolicy, same]

theorem detect_congr {other : List Char} (same : ∀ policy ∈ scanner.policies,
      runDetectors env policy text filename externals =
        runDetectors env policy other filename externals) :
    scanner.detect env filename mime text externals =
      scanner.detect env filename mime other externals := by
  simp only [Scanner.detect, scan]
  congr 3
  apply List.foldl_ext
  intro best policy policyMem
  rw [scorePolicy_congr (same policy policyMem)]

theorem detectWindows_eq {worst : Verdict} (unblocked : worst.isBlock = false) :
    scanner.detectWindows env filename mime text start worst =
      ((takeThrough (fun piece => (scanner.detect env filename mime piece []).isBlock)
        (windows text start)).map (fun piece => scanner.detect env filename mime piece [])).foldl
          (stronger Verdict.strength) worst := by
  induction start using windows.induct text generalizing worst with
  | case1 start inside ih =>
    rw [Scanner.detectWindows, windows, if_pos inside, if_pos inside, takeThrough]
    simp only [List.map_cons, List.foldl_cons, ← Verdict.max_eq_stronger]
    have sound : _ → (scanner.detect env filename mime
      (slice text start (windowEnd text start)) []).matched = true := matched_of_isBlock _
    generalize scanner.detect env filename mime
      (slice text start (windowEnd text start)) [] = verdict at sound ⊢
    have step := isBlock_max unblocked sound
    by_cases blocks : verdict.isBlock = true
    · simp [step, blocks]
    · rw [Bool.not_eq_true] at blocks
      by_cases last : windowEnd text start = byteLength text
      · simp [last, blocks, takeThrough]
      · have further := ih (step.trans blocks)
        simp [step, last, blocks, further]
  | case2 start outside =>
    rw [Scanner.detectWindows, windows, if_neg outside, if_neg outside]
    rfl

theorem detectWindowed_eq (long : ¬byteLength text ≤ window) :
    scanner.detectWindowed env filename mime text =
      ((scanner.scanned env filename mime text).map
        (fun piece => scanner.detect env filename mime piece [])).foldl (stronger Verdict.strength)
          .default := by
  rw [Scanner.detectWindowed, Scanner.scanned, if_neg long, if_neg long]
  exact detectWindows_eq (by decide)

theorem windows_ne_nil (inside : start < byteLength text) : windows text start ≠ [] := by
  rw [windows, if_pos inside]
  simp

theorem scanned_ne_nil : scanner.scanned env filename mime text ≠ [] := by
  rw [Scanner.scanned]
  split
  · simp
  · rename_i long
    have isLong : 0 < byteLength text := by
      rw [window] at long
      omega
    rcases List.exists_cons_of_ne_nil (windows_ne_nil isLong) with ⟨first, rest, isWindows⟩
    rw [isWindows, takeThrough]
    simp

theorem le_detectWindowed {piece : List Char}
    (pieceMem : piece ∈ scanner.scanned env filename mime text) :
    (scanner.detect env filename mime piece []).strength ≤
      (scanner.detectWindowed env filename mime text).strength := by
  by_cases long : byteLength text ≤ window
  · rw [Scanner.scanned, if_pos long, List.mem_singleton] at pieceMem
    rw [Scanner.detectWindowed, if_pos long, pieceMem]
  · rw [detectWindowed_eq long]
    apply le_foldl_stronger
    exact List.mem_cons_of_mem _ (List.mem_map_of_mem pieceMem)

theorem exists_piece_strength_eq :
    ∃ piece ∈ scanner.scanned env filename mime text,
      (scanner.detect env filename mime piece []).strength =
        (scanner.detectWindowed env filename mime text).strength := by
  by_cases long : byteLength text ≤ window
  · rw [Scanner.scanned, if_pos long, Scanner.detectWindowed, if_pos long]
    exact ⟨text, List.mem_cons_self, rfl⟩
  · have held := foldl_stronger_mem Verdict.strength .default
      ((scanner.scanned env filename mime text).map
        (fun piece => scanner.detect env filename mime piece []))
    rw [← detectWindowed_eq long] at held
    rcases List.mem_cons.mp held with isDefault | isPiece
    · -- nothing matched, so that every piece is as weak as the default
      rcases List.exists_mem_of_ne_nil _ scanned_ne_nil with ⟨piece, pieceMem⟩
      refine ⟨piece, pieceMem, le_antisymm (le_detectWindowed pieceMem) ?_⟩
      rw [isDefault]
      exact bot_le
    · rcases List.mem_map.mp isPiece with ⟨piece, pieceMem, isVerdict⟩
      exact ⟨piece, pieceMem, congrArg Verdict.strength isVerdict⟩

theorem quiet_detectWindowed :
    (scanner.detectWindowed env filename mime text).Quiet := by
  by_cases long : byteLength text ≤ window
  · rw [Scanner.detectWindowed, if_pos long]
    exact quiet_fromResult
  · rw [detectWindowed_eq long]
    rcases List.mem_cons.mp (foldl_stronger_mem Verdict.strength .default _) with
      isDefault | isPiece
    · rw [isDefault]
      exact quiet_default
    · rcases List.mem_map.mp isPiece with ⟨piece, -, isVerdict⟩
      rw [← isVerdict]
      exact quiet_fromResult

theorem matched_scorePolicy_iff {cfg : Config} {policy : Policy} :
    (scorePolicy env cfg policy text filename mime []).matched = true ↔
      policy.hits env filename mime text ≠ [] := by
  rw [scorePolicy_eq, Policy.hits]
  by_cases bypassed : policy.bypasses env filename mime = true
  · simp [bypassed, PolicyResult.empty]
  · by_cases nothing : runDetectors env policy text filename [] = []
    · simp [nothing, PolicyResult.empty]
    · simp [bypassed, nothing, scoreFindings]

theorem scorePolicy_of_hits {cfg : Config} {policy : Policy}
    (some : policy.hits env filename mime text ≠ []) :
    scorePolicy env cfg policy text filename mime [] =
      scoreFindings cfg policy (policy.hits env filename mime text) := by
  rw [scorePolicy_eq]
  rw [Policy.hits] at some ⊢
  by_cases bypassed : policy.bypasses env filename mime = true
  · simp [bypassed] at some
  · rw [if_neg bypassed] at some ⊢
    rw [if_neg (not_or.mpr ⟨bypassed, some⟩)]

/-- The verdict on a piece is as strong as its hits under the strictest policy. -/
theorem weigh_eq (piece : List Char) : scanner.weigh env filename mime piece =
    (scanner.detect env filename mime piece []).strength := by
  rw [Scanner.detect, scan_eq]
  have isBest := isBest_foldl
    (fun policy => scorePolicy env scanner.cfg policy piece filename mime [])
    scanner.policies
  cases best : scanner.policies.foldl (keepStronger fun policy =>
      scorePolicy env scanner.cfg policy piece filename mime []) none with
  | none =>
    rw [best] at isBest
    have nothing : scanner.policies.filter (fun policy =>
        policy.hits env filename mime piece ≠ []) = [] := by
      apply List.filter_eq_nil_iff.mpr
      intro policy policyMem some
      rcases isBest.strongest policy policyMem
        (matched_scorePolicy_iff.mpr (of_decide_eq_true some)) with ⟨held, heldMem, -⟩
      cases heldMem
    rw [Scanner.weigh, nothing]
    rfl
  | some held =>
    rw [best] at isBest
    rcases isBest.mem held rfl with ⟨policy, policyMem, matched, rfl⟩
    have strength : (Verdict.fromResult
        (scorePolicy env scanner.cfg policy piece filename mime [])).strength =
          ↑(scorePolicy env scanner.cfg policy piece filename mime []).rank := by
      simp [Verdict.fromResult, matched, Verdict.strength, PolicyResult.rank, Verdict.rank]
    rw [Option.map_some, Option.getD_some, strength, Scanner.weigh]
    apply List.maximum_eq_coe_iff.mpr
    have some := matched_scorePolicy_iff.mp matched
    constructor
    · rw [scorePolicy_of_hits some]
      exact List.mem_map.mpr
        ⟨policy, List.mem_filter.mpr ⟨policyMem, decide_eq_true some⟩, rfl⟩
    · intro rank rankMem
      rcases List.mem_map.mp rankMem with ⟨other, otherMem, rfl⟩
      rcases List.mem_filter.mp otherMem with ⟨otherMem, otherSome⟩
      have otherSome := of_decide_eq_true otherSome
      rw [← scorePolicy_of_hits otherSome]
      rcases isBest.strongest other otherMem (matched_scorePolicy_iff.mpr otherSome) with
        ⟨held, heldMem, le⟩
      cases heldMem
      exact rank_le_of_key_le le

theorem outcome_strength (quiet : verdict.Quiet) :
    outcome verdict.strength = (verdict.rank, verdict.score) := by
  rw [Verdict.strength, outcome]
  split_ifs with matched
  · rfl
  · rcases quiet (Bool.not_eq_true _ ▸ matched) with ⟨rank, score⟩
    rw [rank, score]
    rfl

theorem outcome_weigh (piece : List Char) : outcome (scanner.weigh env filename mime piece) =
    ((scanner.detect env filename mime piece []).rank,
      (scanner.detect env filename mime piece []).score) := by
  rw [weigh_eq, outcome_strength (quiet_detect piece)]

theorem reached_eq : scanner.reached env filename mime text =
    scanner.scanned env filename mime text := by
  have sameStop : (fun piece => decide ((outcome
      (scanner.weigh env filename mime piece)).1 = 3)) =
      fun piece => (scanner.detect env filename mime piece []).isBlock := by
    funext piece
    rw [outcome_weigh, Bool.eq_iff_iff, decide_eq_true_eq, Verdict.isBlock_iff]
  rw [Scanner.reached, Scanner.scanned, sameStop]

def AlwaysDecidesLikeWhole (env : Primitives) : Prop :=
  ∀ (scanner : Scanner) (filename mime text : List Char),
    scanner.DecidesLikeWhole env filename mime text

def keywordPolicy : Policy where
  name := "Keywords"
  action := "block"
  detectors := []
  keywords := ["confidential".toList, "salary".toList]
  customPatterns := []
  bypassFileTypes := []
  detectorWeights := [("keyword", 60)]
  blockThreshold := none
  alertThreshold := none
  priority := 100

def keywordScanner : Scanner where
  policies := [keywordPolicy]
  onUnscannable := []
  cfg := ⟨80, 50⟩
  ai := none

def padded (first last : List Char) : List Char :=
  first ++ List.replicate window ' ' ++ last

section

variable {first last : List Char}

theorem length_padded (first last : List Char) : (padded first last).length = first.length + window + last.length := by
  simp only [padded, List.length_append, List.length_replicate]

theorem take_padded : (padded first last).take window =
    first.take window ++ List.replicate (window - first.length) ' ' := by
  rw [padded, List.append_assoc, List.take_append, List.take_append_of_le_length]
  · rw [List.take_replicate, min_eq_left (Nat.sub_le _ _)]
  · rw [List.length_replicate]
    exact Nat.sub_le _ _

theorem drop_padded (short : first.length + windowOverlap ≤ window) :
    (padded first last).drop (window - windowOverlap) =
      List.replicate (first.length + windowOverlap) ' ' ++ last := by
  have gone : first.length ≤ window - windowOverlap := by omega
  rw [padded, List.append_assoc, List.drop_append, List.drop_of_length_le gone, List.nil_append,
    List.drop_append_of_le_length]
  · rw [List.drop_replicate]
    congr 2
    omega
  · rw [List.length_replicate]
    omega

theorem windows_padded (singles : SingleBytes (padded first last)) (nonempty : last ≠ [])
    (short : first.length + windowOverlap + last.length ≤ window) :
    windows (padded first last) 0 =
      [(padded first last).take window, (padded first last).drop (window - windowOverlap)] := by
  have length := length_padded first last
  have bytes := singles.byteLength_eq.trans length
  have positive := List.length_pos_iff.mpr nonempty
  have floor : ∀ index ≤ first.length + window + last.length,
      floorCharBoundary (padded first last) index = index := fun index inside =>
    singles.floor_eq (length ▸ inside)
  have firstEnd : windowEnd (padded first last) 0 = window := by
    rw [windowEnd, bytes, floor _ (by omega)]
    omega
  have next : nextStart (padded first last) 0 = window - windowOverlap := by
    simp only [nextStart, firstEnd]
    rw [floor _ (by omega)]
    omega
  have lastEnd : windowEnd (padded first last) (window - windowOverlap) =
      first.length + window + last.length := by
    rw [windowEnd, bytes, floor _ (by omega)]
    omega
  rw [windows, if_pos (by omega), firstEnd, if_neg (by omega), next, windows, if_pos (by omega),
    lastEnd, if_pos bytes.symm, singles.slice_eq, singles.slice_eq]
  congr 2
  apply List.take_of_length_le
  rw [List.length_drop, length]

end

theorem detectKeywords_congr {text other : List Char} {keywords : List (List Char)} {weight : ℤ}
    (same : ∀ keyword ∈ keywords,
      contains (env.toLowercase text) (env.toLowercase (trimSpace keyword)) =
        contains (env.toLowercase other) (env.toLowercase (trimSpace keyword))) :
    detectKeywords env text keywords weight =
      detectKeywords env other keywords weight := by
  apply List.filterMap_congr
  intro keyword keywordMem
  simp only [same keyword keywordMem]

/-- The policy judges a text of small letters by the two words. -/
theorem detect_keywordScanner_congr {text other : List Char}
    (lowerText : text.map Char.toLower = text) (lowerOther : other.map Char.toLower = other)
    (confidential : "confidential".toList <:+: text ↔ "confidential".toList <:+: other)
    (salary : "salary".toList <:+: text ↔ "salary".toList <:+: other) :
    keywordScanner.detect plain [] [] text [] = keywordScanner.detect plain [] [] other [] := by
  apply detect_congr
  intro policy policyMem
  have isKeywords : policy = keywordPolicy := List.mem_singleton.mp policyMem
  have sameKeywords : ∀ weight,
      detectKeywords plain text keywordPolicy.keywords weight =
        detectKeywords plain other keywordPolicy.keywords weight := by
    intro weight
    apply detectKeywords_congr
    intro keyword keywordMem
    rw [Bool.eq_iff_iff, contains_iff, contains_iff]
    have isText : plain.toLowercase text = text := lowerText
    have isOther : plain.toLowercase other = other := lowerOther
    rw [isText, isOther]
    rcases List.mem_cons.mp keywordMem with rfl | keywordMem
    · exact confidential
    · rcases List.mem_singleton.mp keywordMem with rfl
      exact salary
  rw [isKeywords]
  simp only [runDetectors, sameKeywords]
  rfl

def spread : List Char := padded "confidential".toList "salary".toList

theorem mem_letters_of_mem_spread :
    ∀ letter ∈ spread, letter ∈ "confidential salary".toList := by
  intro letter letterMem
  rcases List.mem_append.mp letterMem with letterMem | inSalary
  · rcases List.mem_append.mp letterMem with inConfidential | isSpace
    · exact List.mem_append_left " salary".toList inConfidential
    · rw [List.eq_of_mem_replicate isSpace]
      decide
  · exact List.mem_append_right "confidential ".toList inSalary

theorem singleBytes_spread : SingleBytes spread := by
  have letters : ∀ letter ∈ "confidential salary".toList, letter.utf8Size = 1 :=
    forall_mem_of_all (by decide)
  exact fun letter letterMem => letters letter (mem_letters_of_mem_spread letter letterMem)

theorem map_toLower_of_subset_spread {part : List Char} (subset : part ⊆ spread) :
    part.map Char.toLower = part := by
  have letters : ∀ letter ∈ "confidential salary".toList, letter.toLower = letter :=
    forall_mem_of_all (by decide)
  rw [List.map_congr_left (g := id), List.map_id]
  exact fun letter letterMem =>
    letters letter (mem_letters_of_mem_spread letter (subset letterMem))

theorem not_infix_of_mem {word other : List Char} {letter : Char} {before after : ℕ}
    (letterMem : letter ∈ word) (absent : letter ∉ ' ' :: other) :
    ¬word <:+: List.replicate before ' ' ++ other ++ List.replicate after ' ' := by
  intro isInfix
  rcases List.mem_append.mp (isInfix.subset letterMem) with isFront | isSpace
  · rcases List.mem_append.mp isFront with isSpace | isOther
    · exact absent (List.eq_of_mem_replicate isSpace ▸ List.mem_cons_self)
    · exact absent (List.mem_cons_of_mem _ isOther)
  · exact absent (List.eq_of_mem_replicate isSpace ▸ List.mem_cons_self)

theorem detect_firstWindow : keywordScanner.detect plain [] [] (spread.take window) [] =
    keywordScanner.detect plain [] [] "confidential".toList [] := by
  have isPart : spread.take window = List.replicate 0 ' ' ++ "confidential".toList ++
      List.replicate (window - 12) ' ' := by
    have short : "confidential".toList.length ≤ window := by
      rw [window]
      decide
    rw [spread, take_padded, List.take_of_length_le short]
    rfl
  apply detect_keywordScanner_congr
  · exact map_toLower_of_subset_spread (List.take_subset _ _)
  · decide
  · apply iff_of_true
    · rw [isPart]
      exact List.infix_append _ _ _
    · exact List.infix_rfl
  · apply iff_of_false
    · rw [isPart]
      exact not_infix_of_mem (by decide : 'y' ∈ _) (by decide)
    · decide

theorem detect_lastWindow :
    keywordScanner.detect plain [] [] (spread.drop (window - windowOverlap)) [] =
      keywordScanner.detect plain [] [] "salary".toList [] := by
  have isPart : spread.drop (window - windowOverlap) = List.replicate (12 + windowOverlap) ' ' ++
      "salary".toList ++ List.replicate 0 ' ' := by
    rw [spread, drop_padded, List.replicate_zero, List.append_nil]
    · rfl
    · rw [window, windowOverlap]
      decide
  apply detect_keywordScanner_congr
  · exact map_toLower_of_subset_spread (List.drop_subset _ _)
  · decide
  · apply iff_of_false
    · rw [isPart]
      exact not_infix_of_mem (by decide : 'c' ∈ _) (by decide)
    · decide
  · apply iff_of_true
    · rw [isPart]
      exact List.infix_append _ _ _
    · exact List.infix_rfl

theorem detect_spread : keywordScanner.detect plain [] [] spread [] =
    keywordScanner.detect plain [] [] "confidential salary".toList [] := by
  apply detect_keywordScanner_congr
  · exact map_toLower_of_subset_spread fun _ letterMem => letterMem
  · decide
  · apply iff_of_true
    · rw [spread, padded, List.append_assoc]
      exact (List.prefix_append _ _).isInfix
    · decide
  · apply iff_of_true
    · exact (List.suffix_append _ _).isInfix
    · decide

end Aavishield.Dlp
