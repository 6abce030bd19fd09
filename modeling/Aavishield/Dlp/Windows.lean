import Aavishield.Dlp.Scoring
import Mathlib.Data.List.Destutter

/-!
# Detection window by window

A long text is scanned in windows that overlap, so that a value on a boundary is seen
whole in one of them.
-/

namespace Aavishield.Dlp

open ByteText

structure Verdict where
  matched : Bool
  score : ℤ
  band : String
  action : String
  policyName : String
  detectors : List String
  previews : List (List Char)
  reason : String

def Verdict.default : Verdict := ⟨false, 0, "", "", "", [], [], ""⟩

def Verdict.fromResult (result : PolicyResult) : Verdict :=
  if !result.matched then { Verdict.default with band := "allow", action := "allow" }
  else
    { matched := true
      score := result.score
      band := result.band
      action := result.action
      policyName := result.policyName
      detectors := ((result.found.map Match.detector).insertionSort (· ≤ ·)).destutter (· ≠ ·)
      previews := result.found.map fun found => found.label.toList ++ ": ".toList ++ found.preview
      reason := (result.found.head?.map fun found =>
        "Sensitive company data detected: " ++ found.label).getD "" }

def Verdict.rank (verdict : Verdict) : ℤ :=
  actionSeverity verdict.action

def Verdict.max (verdict other : Verdict) : Verdict :=
  if !other.matched then verdict
  else if !verdict.matched || decide (other.rank > verdict.rank) ||
      (other.rank == verdict.rank && decide (other.score > verdict.score)) then other
  else verdict

def Verdict.isBlock (verdict : Verdict) : Bool :=
  verdict.action == "block"

structure TextVerdict where
  sensitive : Bool
  categories : List String
  confidence : ℤ
  evidence : List Char

structure VisionVerdict where
  sensitive : Bool
  docType : String
  confidence : ℤ

/-- What the classifier answers. -/
structure Ai where
  classifyText : List Char → TextVerdict
  classifyImage : List UInt8 → VisionVerdict
  transcribe : List UInt8 → List Char → Option (List Char)
  audioMaxBytes : ℕ

/-- The policies of a request with all that judges by them. -/
structure Scanner where
  policies : List Policy
  onUnscannable : List (String × List (String × String))
  cfg : Config
  ai : Option Ai

variable (env : Primitives) (scanner : Scanner) (filename mime : List Char)

/-- 4 MiB. -/
@[irreducible]
def window : ℕ := 4 * 1024 * 1024

/-- 64 KiB. -/
@[irreducible]
def windowOverlap : ℕ := 64 * 1024

def Scanner.detect (text : List Char) (externals : List ExternalMatch) : Verdict :=
  .fromResult (scan env scanner.cfg scanner.policies text filename mime externals)

def windowEnd (text : List Char) (start : ℕ) : ℕ :=
  floorCharBoundary text (min (start + window) (byteLength text))

def nextStart (text : List Char) (start : ℕ) : ℕ :=
  let finish := windowEnd text start
  max (floorCharBoundary text (finish - min windowOverlap (finish - start))) (start + 1)

theorem start_lt_nextStart (text : List Char) (start : ℕ) : start < nextStart text start := by
  simp only [nextStart]
  omega

theorem windowEnd_le (text : List Char) (start : ℕ) : windowEnd text start ≤ byteLength text :=
  (floorCharBoundary_le _).trans (min_le_right _ _)

section NotLast

variable {text : List Char} {start : ℕ} (notLast : windowEnd text start ≠ byteLength text)
include notLast

theorem le_windowEnd_add_three : start + window ≤ windowEnd text start + 3 := by
  have further : start + window < byteLength text := by
    rcases Nat.lt_or_ge (start + window) (byteLength text) with further | beyond
    · exact further
    · have whole : byteLength text ≤ windowEnd text start := by
        rw [windowEnd, min_eq_right beyond]
        exact le_floorCharBoundary isCharBoundary_byteLength le_rfl
      have atMost := windowEnd_le text start
      omega
  rw [windowEnd, min_eq_left further.le]
  exact le_floorCharBoundary_add_three further.le

theorem nextStart_eq_floor :
    nextStart text start = floorCharBoundary text (windowEnd text start - windowOverlap) := by
  have sizes : windowOverlap + 7 < window := by
    rw [window, windowOverlap]
    omega
  have finish := le_windowEnd_add_three notLast
  have atMost := windowEnd_le text start
  have isOverlap : min windowOverlap (windowEnd text start - start) = windowOverlap := by
    apply min_eq_left
    omega
  have near : windowEnd text start - windowOverlap ≤
      floorCharBoundary text (windowEnd text start - windowOverlap) + 3 :=
    le_floorCharBoundary_add_three ((Nat.sub_le _ _).trans atMost)
  simp only [nextStart, isOverlap]
  apply max_eq_left
  omega

theorem isCharBoundary_nextStart : isCharBoundary text (nextStart text start) = true := by
  rw [nextStart_eq_floor notLast]
  exact isCharBoundary_floor _

theorem nextStart_add_overlap_le : nextStart text start + windowOverlap ≤ windowEnd text start := by
  have sizes : windowOverlap + 7 < window := by
    rw [window, windowOverlap]
    omega
  have finish := le_windowEnd_add_three notLast
  have floor : floorCharBoundary text (windowEnd text start - windowOverlap) ≤
      windowEnd text start - windowOverlap :=
    floorCharBoundary_le _
  rw [nextStart_eq_floor notLast]
  omega

end NotLast

/-- The loop of `detect_windowed`. -/
def Scanner.detectWindows (text : List Char) (start : ℕ) (worst : Verdict) : Verdict :=
  if start < byteLength text then
    let finish := windowEnd text start
    let worst := worst.max (scanner.detect env filename mime (slice text start finish) [])
    if worst.isBlock || finish == byteLength text then worst
    else detectWindows text (nextStart text start) worst
  else worst
termination_by byteLength text - start
decreasing_by
  have further := start_lt_nextStart text start
  omega

def Scanner.detectWindowed (text : List Char) : Verdict :=
  if byteLength text ≤ window then scanner.detect env filename mime text []
  else scanner.detectWindows env filename mime text 0 .default

end Aavishield.Dlp
