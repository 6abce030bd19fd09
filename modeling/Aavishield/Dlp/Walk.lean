import Aavishield.Lib.Effects
import Aavishield.Lib.Text

/-!
# The walk of an extraction

An extraction walks through the parts of a file.  It hands on what it finds, piece by
piece, to a caller that may want no more, and it ends early when a bound is hit.
-/

namespace Aavishield.Dlp

open Effects

abbrev Bytes := List UInt8

structure Segment where
  part : List Char
  filename : List Char
  mime : List Char
  source : String
  text : List Char

structure ImageItem where
  part : List Char
  jpeg : Bytes
  w : ℕ
  h : ℕ
  ocrText : List Char

structure Unscannable where
  part : List Char
  reason : String
  detail : String

inductive Item where
  | segment (segment : Segment)
  | image (image : ImageItem)
  | unscannable (unscannable : Unscannable)

/-- The settings that bound an extraction. -/
structure Limits where
  maxDepth : ℕ
  maxEntries : ℕ
  maxExpansionRatio : ℕ
  maxTotalBytes : ℕ
  ocrEnabled : Bool
  ocrTextThreshold : ℕ
  ocrMaxPages : ℕ
  ocrMaxImages : ℕ
  maxImagesReturned : ℕ
  minImageDimension : ℕ

def Limits.default : Limits where
  maxDepth := 5
  maxEntries := 10000
  maxExpansionRatio := 200
  maxTotalBytes := 1024 * 1024 * 1024
  ocrEnabled := true
  ocrTextThreshold := 100
  ocrMaxPages := 200
  ocrMaxImages := 50
  maxImagesReturned := 20
  minImageDimension := 64

structure BudgetExceeded where
  reason : String
  detail : String

/-- Which piece of an upload was opened. -/
inductive Opening where
  | whole (data : Bytes)
  | part (index : ℕ) (data : Bytes)
  deriving DecidableEq

/-- What an extraction has used up so far. -/
structure Ctx where
  limits : Limits
  inputBytes : ℕ
  totalDecompressed : ℕ
  entriesSeen : ℕ
  imagesEmitted : ℕ
  ocrPages : ℕ
  ocrImages : ℕ
  /-- Whether the deadline has passed when this many entries are seen. -/
  late : ℕ → Bool
  accepts : ℕ → Bool
  stopped : Bool
  items : List Item
  opened : List Opening

def Ctx.new (limits : Limits) (inputBytes : ℕ) (late accepts : ℕ → Bool) : Ctx where
  limits := limits
  inputBytes := inputBytes
  totalDecompressed := 0
  entriesSeen := 0
  imagesEmitted := 0
  ocrPages := 0
  ocrImages := 0
  late := late
  accepts := accepts
  stopped := false
  items := []
  opened := []

abbrev Walk (Value : Type) := Effect Ctx BudgetExceeded Value

namespace Walk

def unlessStopped (walk : Walk Unit) : Walk Unit := do
  if (← get).stopped then pure () else walk

theorem unlessStopped_of_stopped {walk : Walk Unit} {ctx : Ctx} (stopped : ctx.stopped = true) :
    unlessStopped walk ctx = (.ok (), ctx) := by
  change (if ctx.stopped = true then pure () else walk : Walk Unit) ctx = (.ok (), ctx)
  rw [if_pos stopped]
  rfl

theorem unlessStopped_of_going {walk : Walk Unit} {ctx : Ctx} (going : ctx.stopped = false) :
    unlessStopped walk ctx = walk ctx := by
  change (if ctx.stopped = true then pure () else walk : Walk Unit) ctx = walk ctx
  rw [if_neg (by simp [going])]

def emit (item : Item) : Walk Unit := fun ctx =>
  if ctx.stopped then (.ok (), ctx)
  else if ctx.accepts ctx.items.length then (.ok (), { ctx with items := ctx.items ++ [item] })
  else (.ok (), { ctx with stopped := true })

def unscannable (part : List Char) (reason detail : String) : Walk Unit :=
  emit (.unscannable ⟨part, reason, detail⟩)

def segment (part filename mime : List Char) (source : String) (text : List Char) : Walk Unit :=
  emit (.segment ⟨part, filename, mime, source, text⟩)

def segmentUnlessBlank (part filename mime : List Char) (source : String) (text : List Char) :
    Walk Unit :=
  if Text.trimSpace text = [] then pure () else segment part filename mime source text

def opens (opening : Option Opening) : Walk Unit :=
  modify fun ctx => { ctx with opened := ctx.opened ++ opening.toList }

def saturatingMul (first second : ℕ) : ℕ :=
  min (first * second) (2 ^ 64 - 1)

def checkBudget (addedBytes : ℕ) : Walk Unit := fun ctx =>
  let ctx := { ctx with entriesSeen := ctx.entriesSeen + 1 }
  if ctx.entriesSeen > ctx.limits.maxEntries then
    (.error ⟨"too_many_entries", s!"> {ctx.limits.maxEntries} entries"⟩, ctx)
  else
    let ctx := { ctx with totalDecompressed := (ctx.totalDecompressed + addedBytes) % 2 ^ 64 }
    let expanded := saturatingMul ctx.inputBytes ctx.limits.maxExpansionRatio
    let totalCap := max ctx.limits.maxTotalBytes expanded
    if ctx.totalDecompressed > totalCap then
      (.error ⟨"total_bytes_exceeded", s!"> {totalCap} bytes decompressed"⟩, ctx)
    else if ctx.inputBytes > 0 ∧ ctx.totalDecompressed > expanded then
      (.error ⟨"expansion_ratio_exceeded", s!"> {ctx.limits.maxExpansionRatio}x expansion"⟩, ctx)
    else if ctx.late ctx.entriesSeen then
      (.error ⟨"extraction_timeout", "global deadline reached"⟩, ctx)
    else (.ok (), ctx)

def reporting (part : List Char) (walk : Walk Unit) : Walk Unit :=
  recover walk fun exceeded => unscannable part exceeded.reason exceeded.detail

theorem emit_ok (item : Item) (ctx : Ctx) : (emit item ctx).1 = .ok () := by
  rw [emit]
  split_ifs <;> rfl

theorem reporting_ok (part : List Char) (walk : Walk Unit) (ctx : Ctx) :
    (reporting part walk ctx).1 = .ok () := by
  rw [reporting, recover]
  split
  · rfl
  · exact emit_ok _ _

theorem unlessStopped_ok {walk : Walk Unit} (ok : ∀ ctx, (walk ctx).1 = .ok ()) (ctx : Ctx) :
    (unlessStopped walk ctx).1 = .ok () := by
  rcases stopped : ctx.stopped with _ | _
  · rw [unlessStopped_of_going stopped]
    exact ok ctx
  · rw [unlessStopped_of_stopped stopped]

end Walk

def Ctx.imagesBudgetRemaining (ctx : Ctx) : Bool :=
  ctx.imagesEmitted < ctx.limits.maxImagesReturned

def subPart (part name : List Char) : List Char :=
  part ++ '!' :: name

def findBytes (haystack needle : Bytes) : Option ℕ :=
  haystack.tails.findIdx? needle.isPrefixOf

/-- Bytes with the names under which they came. -/
structure Piece where
  data : Bytes
  part : List Char
  filename : List Char
  contentType : List Char
  deriving DecidableEq

end Aavishield.Dlp
