import Aavishield.Dlp.WindowedDetection

/-!
# Windows cover a text

The end of a window is moved back to a character, and so is the start of the next one.
Moving the start back makes the overlap longer, so that no byte of it is lost: a piece of a
text that is no longer than the overlap lies in one of the windows as a whole.
-/

namespace Aavishield.Dlp

open ByteText Strongest

variable (env : Primitives) (scanner : Scanner) (filename mime : List Char)

def windowSpans (text : List Char) (start : ℕ) : List (ℕ × ℕ) :=
  if start < byteLength text then
    (start, windowEnd text start) ::
      if windowEnd text start = byteLength text then []
      else windowSpans text (nextStart text start)
  else []
termination_by byteLength text - start
decreasing_by
  have further := start_lt_nextStart text start
  omega

def sliceOf (text : List Char) (span : ℕ × ℕ) : List Char :=
  slice text span.1 span.2

def Scanner.blocksIn (text : List Char) (span : ℕ × ℕ) : Bool :=
  (scanner.detect env filename mime (sliceOf text span) []).isBlock

def Scanner.scannedSpans (text : List Char) : List (ℕ × ℕ) :=
  if byteLength text ≤ window then [(0, byteLength text)]
  else takeThrough (scanner.blocksIn env filename mime text) (windowSpans text 0)

def Encloses (span : ℕ × ℕ) (before piece : List Char) : Prop :=
  span.1 ≤ byteLength before ∧ byteLength (before ++ piece) ≤ span.2

/--
The verdict on a short text is that on the whole, and the one on a long text is made of those
on its windows.  The windows are cut at characters, they are not more than the bytes of the
text, and every piece that the overlap can hold is seen whole in one of them, unless an earlier
window blocks already.
-/
structure Scanner.Covers (text : List Char) : Prop where
  short : byteLength text ≤ window → scanner.detectWindowed env filename mime text =
    scanner.detect env filename mime text []
  verdict : window < byteLength text → scanner.detectWindowed env filename mime text =
    ((scanner.scannedSpans env filename mime text).map fun span =>
      scanner.detect env filename mime (sliceOf text span) []).foldl Verdict.max .default
  aligned : ∀ span ∈ scanner.scannedSpans env filename mime text,
    isCharBoundary text span.1 = true ∧ isCharBoundary text span.2 = true
  ends : (scanner.scannedSpans env filename mime text).length ≤ byteLength text + 1
  covered : ∀ before piece after, text = before ++ piece ++ after →
    byteLength piece ≤ windowOverlap →
      (∃ span ∈ scanner.scannedSpans env filename mime text,
        Encloses span before piece ∧ piece <:+: sliceOf text span) ∨
      ∃ span ∈ scanner.scannedSpans env filename mime text,
        span.2 < byteLength (before ++ piece) ∧
          scanner.blocksIn env filename mime text span = true ∧
          (scanner.detectWindowed env filename mime text).isBlock = true

variable {env scanner filename mime} {text : List Char} {start : ℕ}

theorem windows_eq_map : windows text start = (windowSpans text start).map (sliceOf text) := by
  induction start using windows.induct text with
  | case1 start inside ih =>
    rw [windows, windowSpans, if_pos inside, if_pos inside, List.map_cons]
    congr 1
    split
    · rfl
    · exact ih
  | case2 start outside => rw [windows, windowSpans, if_neg outside, if_neg outside, List.map_nil]

theorem slice_whole (text : List Char) : slice text 0 (byteLength text) = text := by
  simpa [byteLength] using slice_append [] text []

theorem scanned_eq_map : scanner.scanned env filename mime text =
    (scanner.scannedSpans env filename mime text).map (sliceOf text) := by
  rw [Scanner.scanned, Scanner.scannedSpans]
  split
  · simp [sliceOf, slice_whole]
  · rw [windows_eq_map, takeThrough_map]
    rfl

theorem isCharBoundary_windowEnd : isCharBoundary text (windowEnd text start) = true :=
  isCharBoundary_floor _

theorem aligned_windowSpans (isBoundary : isCharBoundary text start = true) :
    ∀ span ∈ windowSpans text start,
      isCharBoundary text span.1 = true ∧ isCharBoundary text span.2 = true := by
  induction start using windows.induct text with
  | case1 start inside ih =>
    intro span spanMem
    rw [windowSpans, if_pos inside] at spanMem
    rcases List.mem_cons.mp spanMem with rfl | spanMem
    · exact ⟨isBoundary, isCharBoundary_windowEnd⟩
    · split at spanMem
      · simp at spanMem
      · rename_i notLast
        exact ih (isCharBoundary_nextStart notLast) span spanMem
  | case2 start outside =>
    rw [windowSpans, if_neg outside]
    simp

theorem aligned_scannedSpans : ∀ span ∈ scanner.scannedSpans env filename mime text,
    isCharBoundary text span.1 = true ∧ isCharBoundary text span.2 = true := by
  have atStart : isCharBoundary text 0 = true := by
    cases text <;> rfl
  intro span spanMem
  rw [Scanner.scannedSpans] at spanMem
  split at spanMem
  · rw [List.mem_singleton.mp spanMem]
    exact ⟨atStart, isCharBoundary_byteLength⟩
  · exact aligned_windowSpans atStart span (takeThrough_subset span spanMem)

theorem length_windowSpans_le (text : List Char) (start : ℕ) :
    (windowSpans text start).length ≤ byteLength text - start := by
  induction start using windows.induct text with
  | case1 start inside ih =>
    rw [windowSpans, if_pos inside, List.length_cons]
    split
    · simp
      omega
    · have further := start_lt_nextStart text start
      omega
  | case2 start outside =>
    rw [windowSpans, if_neg outside]
    simp

theorem length_takeThrough_le {Value : Type*} (ends : Value → Bool) (values : List Value) :
    (takeThrough ends values).length ≤ values.length := by
  induction values with
  | nil => simp [takeThrough]
  | cons first rest ih =>
    rw [takeThrough, List.length_cons, List.length_cons]
    split
    · simp
    · omega

theorem length_scannedSpans_le :
    (scanner.scannedSpans env filename mime text).length ≤ byteLength text + 1 := by
  rw [Scanner.scannedSpans]
  split
  · simp
  · have scanned := length_takeThrough_le (scanner.blocksIn env filename mime text)
      (windowSpans text 0)
    have all := length_windowSpans_le text 0
    omega

theorem exists_split_windowSpans {first last : ℕ} (inside : start < byteLength text)
    (fromStart : start ≤ first) (toEnd : last ≤ byteLength text)
    (short : last ≤ first + windowOverlap) :
    ∃ earlier span later, windowSpans text start = earlier ++ span :: later ∧
      span.1 ≤ first ∧ last ≤ span.2 ∧ ∀ other ∈ earlier, other.2 < last := by
  induction start using windows.induct text with
  | case1 start inside ih =>
    rw [windowSpans, if_pos inside]
    rcases Nat.lt_or_ge (windowEnd text start) last with beyond | within
    · have notLast : windowEnd text start ≠ byteLength text := by omega
      have back := nextStart_add_overlap_le notLast
      have next : nextStart text start < byteLength text := by
        omega
      rcases ih next (by omega) with ⟨earlier, span, later, isSpans, starts, ends, before⟩
      rw [if_neg notLast, isSpans]
      refine ⟨(start, windowEnd text start) :: earlier, span, later, rfl, starts, ends, ?_⟩
      intro other otherMem
      rcases List.mem_cons.mp otherMem with rfl | otherMem
      · exact beyond
      · exact before other otherMem
    · exact ⟨[], _, _, rfl, fromStart, within, by simp⟩
  | case2 start outside => exact absurd inside outside

theorem isBlock_detectWindowed {span : ℕ × ℕ}
    (spanMem : span ∈ scanner.scannedSpans env filename mime text)
    (blocks : scanner.blocksIn env filename mime text span = true) :
    (scanner.detectWindowed env filename mime text).isBlock = true := by
  have pieceMem : sliceOf text span ∈ scanner.scanned env filename mime text := by
    rw [scanned_eq_map]
    exact List.mem_map_of_mem spanMem
  have atLeast := le_detectWindowed pieceMem
  have isMatched := matched_of_isBlock (sliceOf text span) blocks
  have isStrict := Verdict.isBlock_iff.mp blocks
  rw [Verdict.isBlock_iff]
  by_contra weaker
  have atMost := (scanner.detectWindowed env filename mime text).rank_le
  apply not_lt_of_ge atLeast
  rw [Verdict.strength_lt_iff]
  refine ⟨isMatched, fun _ => .inl ?_⟩
  omega

theorem covered_scannedSpans {before piece after : List Char} (isText : text = before ++ piece ++ after)
    (short : byteLength piece ≤ windowOverlap) :
    (∃ span ∈ scanner.scannedSpans env filename mime text, Encloses span before piece) ∨
      ∃ span ∈ scanner.scannedSpans env filename mime text,
        span.2 < byteLength (before ++ piece) ∧
          scanner.blocksIn env filename mime text span = true := by
  have lengths : byteLength text = byteLength before + byteLength piece + byteLength after := by
    rw [isText, byteLength_append, byteLength_append]
  have upTo := byteLength_append before piece
  rw [Scanner.scannedSpans]
  split
  · left
    refine ⟨_, List.mem_singleton_self _, Nat.zero_le _, ?_⟩
    omega
  · rename_i long
    have inside : 0 < byteLength text := by omega
    have toEnd : byteLength (before ++ piece) ≤ byteLength text := by omega
    rcases exists_split_windowSpans inside (Nat.zero_le (byteLength before)) toEnd (by omega) with
      ⟨earlier, span, later, isSpans, starts, ends, others⟩
    rw [isSpans]
    rcases mem_takeThrough_or_ends (scanner.blocksIn env filename mime text) span earlier
      later with reached | ⟨other, otherMem, blocks, reached⟩
    · exact .inl ⟨span, reached, starts, ends⟩
    · exact .inr ⟨other, reached, others other otherMem, blocks⟩

/-- The windows of every text cover it. -/
theorem detectWindowed_covers (env : Primitives) (scanner : Scanner) (filename mime text : List Char) :
    scanner.Covers env filename mime text where
  short fits := if_pos fits
  verdict long := by
    rw [detectWindowed_eq (by omega), scanned_eq_map, List.map_map]
    apply List.foldl_ext
    intro held other _
    exact (Verdict.max_eq_stronger held other).symm
  aligned := aligned_scannedSpans
  ends := length_scannedSpans_le
  covered := by
    intro before piece after isText short
    rcases covered_scannedSpans isText short with ⟨span, spanMem, encloses⟩ | ⟨span, spanMem, ends, blocks⟩
    · left
      refine ⟨span, spanMem, encloses, ?_⟩
      have aligned := aligned_scannedSpans span spanMem
      subst isText
      exact infix_slice aligned.1 aligned.2 encloses.1 encloses.2
    · right
      exact ⟨span, spanMem, ends, blocks, isBlock_detectWindowed spanMem blocks⟩

end Aavishield.Dlp
