import Aavishield.Dlp.Meters
import Aavishield.Dlp.Parts
import Aavishield.Dlp.Steps
import Mathlib.Algebra.BigOperators.Group.List.Basic
import Mathlib.Algebra.Group.Prod

/-!
# The limits of an extraction

Whether an archive that is within the limits is extracted, and whether what is decompressed of any
other one stays within them.  An entry is charged where its archive is walked through, once more
where it is dispatched and once more where its text is read, so that no configuration allows for
the number of entries that it names.
-/

namespace Aavishield.Dlp

open Effects Text Walk
open Metered (plainly)

variable (libs : Libraries) (readings : Readings) (limits : Limits)

/-- What one read of a decoder brings at most. -/
def readBuffer : ℕ := 2 ^ 20

/-- The bytes that the ratio allows for, or the total where the input is empty. -/
def Limits.cap (limits : Limits) (inputBytes : ℕ) : ℕ :=
  if inputBytes = 0 then limits.maxTotalBytes
  else saturatingMul inputBytes limits.maxExpansionRatio

/-- The reasons that a file is rejected for as too large. -/
def tooLargeReasons : List String :=
  ["too_deep", "too_many_entries", "total_bytes_exceeded", "expansion_ratio_exceeded"]

/-- A report of a file that is too large. -/
def Item.IsTooLarge : Item → Prop
  | .unscannable report => report.reason ∈ tooLargeReasons
  | _ => False

/-- A part that is made of parts is no entry of its own. -/
def MailPart.entries (part : MailPart) : ℕ :=
  match part.body with
  | .multipart => 0
  | _ => 1

/-- The entries that a file holds, and the bytes that are decompressed to read them. -/
def familyContent (piece : Piece) (family : String) : ℕ × ℕ :=
  match family with
  | "zip" =>
    match libs.zip piece.data with
    | none => 0
    | some members =>
      ((members.filter fun member => !member.isDir).map fun member =>
        (1, if member.rawError.isSome then 0 else zipAmount readings member)).sum
  | "gzip" => (1, (libs.gunzip piece.data).1.flatten.length)
  | "tar" =>
    match libs.tar piece.data with
    | .error _ => 0
    | .ok (entries, _) =>
      ((entries.filter TarEntry.isFile).map fun entry => (1, readings.tar entry)).sum
  | "7z" =>
    match libs.sevenZip piece.data with
    | .error _ => 0
    | .ok archive =>
      ((archive.files.filter fun entry => !entry.isDirectory).length,
        readings.sevenZip archive)
  | "eml" | "eml_mbox" =>
    match libs.parseMail piece.data with
    | none => 0
    | some parts => ((parts.map MailPart.entries).sum, 0)
  | _ => 0

/-- The files that a file is made of. -/
def nestedPieces (piece : Piece) : List Piece := (partsOf libs limits piece).pieces

/-- The entries and the decompressed bytes of a whole tree, down to some depth. -/
def content : ℕ → Piece → ℕ × ℕ
  | 0, _ => 0
  | depth + 1, piece =>
    familyContent libs readings piece piece.family +
      ((nestedPieces libs limits piece).map (content depth)).sum

/-- A tree of less than so many levels. -/
def Shallow : ℕ → Piece → Prop
  | 0, _ => False
  | depth + 1, piece => ∀ child ∈ nestedPieces libs limits piece, Shallow depth child

/-- The real depth, entries and decompressed bytes of a tree are within the limits. -/
structure WithinLimits (piece : Piece) : Prop where
  depth : Shallow libs limits (limits.maxDepth + 1) piece
  entries : (content libs readings limits (limits.maxDepth + 1) piece).1 ≤ limits.maxEntries
  bytes : (content libs readings limits (limits.maxDepth + 1) piece).2 ≤ limits.maxTotalBytes
  ratio : (content libs readings limits (limits.maxDepth + 1) piece).2 ≤
    limits.cap piece.data.length

/-- A tree within the limits is not rejected as too large. -/
def SparesWithin (piece : Piece) : Prop :=
  WithinLimits libs readings limits piece → ∀ opening late accepts,
    ∀ item ∈ (dispatch libs opening piece
      (Ctx.new limits piece.data.length late accepts)).2.items, ¬item.IsTooLarge

/-- No more is decompressed of a tree than the limit and one buffer. -/
def BoundsBytes (piece : Piece) : Prop :=
  ∀ opening late accepts,
    (meteredDispatch libs readings piece opening).meter
      (Ctx.new limits piece.data.length late accepts) ≤ limits.maxTotalBytes + readBuffer

/-- Both of every tree. -/
structure LimitsExact : Prop where
  spares : ∀ piece, SparesWithin libs readings limits piece
  bounds : ∀ piece, BoundsBytes libs readings limits piece

/-- A field of a `tar` header. -/
def tarField (text : String) (width : ℕ) : Bytes :=
  bytesOf text ++ List.replicate (width - text.length) 0

/-- The header of an empty file of the name `a`. -/
def emptyFileHeader : Bytes :=
  tarField "a" 100 ++ tarField "0000644" 8 ++ tarField "0000000" 8 ++ tarField "0000000" 8 ++
    tarField "00000000000" 12 ++ tarField "00000000000" 12 ++ tarField "006076\x00 " 8 ++
    tarField "0" 101 ++ tarField "ustar\x0000" 255

/-- A `tar` archive of so many empty files. -/
def tarball (count : ℕ) : Piece :=
  ⟨(List.replicate count emptyFileHeader).flatten ++ List.replicate 1024 0, "a.tar".toList,
    "a.tar".toList, []⟩

/-- What `tar` says of such a file. -/
def emptyFile : TarEntry := ⟨"a".toList, 0, true, .ok []⟩

/-- A mail of one text and so many others. -/
def mailing (others : ℕ) : Piece :=
  ⟨bytesOf "Content-Type: multipart/mixed; boundary=b\r\n\r\n" ++
      (List.replicate (others + 1) (bytesOf "--b\r\n\r\na\r\n")).flatten ++ bytesOf "--b--\r\n",
    "a.eml".toList, "a.eml".toList, "message/rfc822".toList⟩

def mixedPart : MailPart := ⟨none, "multipart/mixed".toList, .multipart, []⟩

def textPart : MailPart := ⟨none, [], .text "a".toList, bytesOf "a"⟩

/-- Archives and mails are read for what they hold. -/
structure Libraries.ReadsPlainFiles : Prop where
  tar : ∀ count, libs.tar (tarball count).data = .ok (List.replicate count emptyFile, none)
  parseMail : ∀ others, libs.parseMail (mailing others).data =
    some (mixedPart :: List.replicate (others + 1) textPart)

/-- One entry that declares no bytes and inflates to two mebibytes of zeros, with a wrong checksum. -/
def bombBytes : Bytes :=
  let sizes : Bytes := [0, 0, 0, 0, 0x9b, 0x33, 0, 0, 0, 0, 0, 0]
  bytesOf "PK" ++ [3, 4, 20, 0, 0, 0, 8, 0, 0, 0, 33, 0] ++ sizes ++ [1, 0, 0, 0] ++ bytesOf "a" ++
    [0x63] ++ (List.replicate 1016
      [0x18, 0x05, 0xa3, 0x60, 0x14, 0x8c, 0x82, 0x51, 0x30, 0x0a, 0x46, 0xc1, 0x28]).flatten ++
    [0, 0] ++
    bytesOf "PK" ++ [1, 2, 20, 0, 20, 0, 0, 0, 8, 0, 0, 0, 33, 0] ++ sizes ++ [1, 0] ++
    List.replicate 16 0 ++ bytesOf "a" ++
    bytesOf "PK" ++ [5, 6, 0, 0, 0, 0, 1, 0, 1, 0, 47, 0, 0, 0, 0xba, 0x33, 0, 0, 0, 0]

variable {libs readings limits} {piece : Piece}

/-- A walk is at its start, its caller wants everything and there is no deadline. -/
abbrev Ctx.undisturbed (limits : Limits) (inputBytes : ℕ) : Ctx :=
  Ctx.new limits inputBytes (fun _ => false) fun _ => true

/-- Nobody stops such a walk. -/
structure Ctx.Keen (ctx : Ctx) : Prop where
  going : ctx.stopped = false
  accepts : ∀ count, ctx.accepts count = true
  late : ∀ count, ctx.late count = false

/-- What a walk that nobody stops never takes back. -/
structure Onward (ctx after : Ctx) : Prop where
  limits : after.limits = ctx.limits
  keen : ctx.Keen → after.Keen
  entries : ctx.entriesSeen ≤ after.entriesSeen
  items : ctx.items ⊆ after.items

instance : KeptBySteps Onward where
  refl _ := ⟨rfl, id, le_rfl, fun _ => id⟩
  trans _ _ _ first second :=
    { limits := second.limits.trans first.limits
      keen := fun keen => second.keen (first.keen keen)
      entries := first.entries.trans second.entries
      items := fun _ itemMem => second.items (first.items itemMem) }
  keeps_emit item ctx := by
    rw [emit]
    split_ifs with stopped accepted
    · exact ⟨rfl, id, le_rfl, fun _ => id⟩
    · exact ⟨rfl, fun keen => ⟨keen.going, keen.accepts, keen.late⟩, le_rfl,
        List.subset_append_left _ _⟩
    · exact ⟨rfl, fun keen => absurd (keen.accepts _) accepted, le_rfl, fun _ => id⟩
  keeps_checkBudget added ctx := by
    simp only [checkBudget]
    split_ifs <;>
      exact ⟨rfl, fun keen => ⟨keen.going, keen.accepts, keen.late⟩, Nat.le_succ _, fun _ => id⟩
  keeps_countOcr budget _ := by
    cases budget <;>
      exact ⟨rfl, fun keen => ⟨keen.going, keen.accepts, keen.late⟩, le_rfl, fun _ => id⟩
  keeps_countImage _ :=
    ⟨rfl, fun keen => ⟨keen.going, keen.accepts, keen.late⟩, le_rfl, fun _ => id⟩

/-- A walk has reported a file as too large, or is about to. -/
def Rejects (outcome : Except BudgetExceeded Unit × Ctx) : Prop :=
  (∃ item ∈ outcome.2.items, item.IsTooLarge) ∨
    ∃ failure, outcome.1 = .error failure ∧ failure.reason ∈ tooLargeReasons

theorem Rejects.bind {walk : Walk Unit} {next : Unit → Walk Unit} {ctx : Ctx}
    (rejects : Rejects (walk ctx)) (onward : Keeps Onward (next ())) :
    Rejects ((walk >>= next) ctx) := by
  rcases ran : walk ctx with ⟨failure | _, after⟩
  · rw [bind_of_error ran]
    rwa [ran] at rejects
  · rw [bind_of_ok ran]
    rw [ran] at rejects
    rcases rejects with ⟨item, itemMem, large⟩ | ⟨_, ⟨⟩, _⟩
    left
    exact ⟨item, (onward after).items itemMem, large⟩

theorem rejects_bind {walk : Walk Unit} {next : Unit → Walk Unit} (onward : Keeps Onward walk)
    (ok : ∀ ctx, (walk ctx).1 = .ok ()) (ctx : Ctx)
    (rejects : ∀ after, Onward ctx after → Rejects (next () after)) :
    Rejects ((walk >>= next) ctx) := by
  rw [bind_of_ok (Prod.ext (ok ctx) rfl)]
  exact rejects _ (onward ctx)

theorem checkBudget_of_keen {ctx : Ctx} (keen : ctx.Keen) (added : ℕ) :
    (∃ failure after, checkBudget added ctx = (.error failure, after) ∧
      failure.reason ∈ tooLargeReasons) ∨
    ∃ after, checkBudget added ctx = (.ok (), after) ∧
      after.entriesSeen = ctx.entriesSeen + 1 ∧ ctx.entriesSeen + 1 ≤ ctx.limits.maxEntries := by
  rw [checkBudget]
  simp only [keen.late]
  split_ifs with many total ratio late
  · exact Or.inl ⟨_, _, rfl, by simp [tooLargeReasons]⟩
  · exact Or.inl ⟨_, _, rfl, by simp [tooLargeReasons]⟩
  · exact Or.inl ⟨_, _, rfl, by simp [tooLargeReasons]⟩
  · exact absurd late (by simp)
  · exact Or.inr ⟨_, rfl, rfl, Nat.le_of_not_gt many⟩

section Charges

variable {Element : Type} {visit : Element → Walk Unit} (size : Element → ℕ)
  (rest : Element → Walk Unit)

/-- Each element is charged once at least, so that there is no room for too many of them. -/
theorem rejects_forEach {elements : List Element} {ctx : Ctx} (keen : ctx.Keen)
    (charges : ∀ element ∈ elements, visit element = do checkBudget (size element); rest element)
    (onward : ∀ element ∈ elements, Keeps Onward (rest element))
    (ok : ∀ element ∈ elements, ∀ ctx, (rest element ctx).1 = .ok ())
    (some : elements ≠ [])
    (many : ctx.limits.maxEntries < ctx.entriesSeen + elements.length) :
    Rejects (forEach (fun element => unlessStopped (visit element)) elements ctx) := by
  induction elements generalizing ctx with
  | nil => exact absurd rfl some
  | cons element others ih =>
    have first : unlessStopped (visit element) ctx =
        (checkBudget (size element) >>= fun _ => rest element : Walk Unit) ctx := by
      rw [unlessStopped_of_going keen.going, charges element List.mem_cons_self]
    rcases checkBudget_of_keen keen (size element) with
      ⟨failure, after, failed, reason⟩ | ⟨mid, passed, seen, fits⟩
    · right
      exact ⟨failure, by rw [forEach, bind_of_error (first.trans (bind_of_error failed))], reason⟩
    · have stepped : Onward ctx mid := by
        have kept : Onward ctx (checkBudget (size element) ctx).2 := KeptBySteps.keeps_checkBudget _ _
        rwa [passed] at kept
      have kept := onward element List.mem_cons_self mid
      rcases ran : rest element mid with ⟨outcome, last⟩
      have isOk := ok element List.mem_cons_self mid
      rw [ran] at isOk kept
      cases isOk
      rw [forEach, bind_of_ok (first.trans ((bind_of_ok passed).trans ran))]
      have limits := kept.limits.trans stepped.limits
      have entries := kept.entries
      rw [List.length_cons] at many
      rcases others with _ | ⟨other, others⟩
      · simp only [List.length_nil] at many
        omega
      · apply ih (kept.keen (stepped.keen keen))
        · exact fun other otherMem => charges other (List.mem_cons_of_mem _ otherMem)
        · exact fun other otherMem => onward other (List.mem_cons_of_mem _ otherMem)
        · exact fun other otherMem => ok other (List.mem_cons_of_mem _ otherMem)
        · exact List.cons_ne_nil _ _
        · rw [limits]
          omega

end Charges

theorem nestedDispatch_ok (depth : ℕ) (piece : Piece) (ctx : Ctx) :
    (nestedDispatch libs depth none piece ctx).1 = .ok () := by
  cases depth with
  | zero => exact emit_ok _ ctx
  | succ depth => exact unlessStopped_ok (reporting_ok _ _) ctx

/-- A file is rejected if its extractor rejects it once its dispatcher has charged for it. -/
theorem not_sparesWithin_of_rejects (within : WithinLimits libs readings limits piece)
    (rejects : ∀ ctx, ctx.Keen → ctx.limits = limits → ctx.entriesSeen = 1 →
      1 ≤ limits.maxEntries →
      Rejects (runFamily libs (nestedDispatch libs limits.maxDepth none) piece
        piece.family ctx)) :
    ¬SparesWithin libs readings limits piece := by
  intro spares
  have tooLarge : ∀ item ∈ (dispatch libs none piece
      (Ctx.undisturbed limits piece.data.length)).2.items, ¬item.IsTooLarge :=
    spares within none _ _
  generalize start : Ctx.undisturbed limits piece.data.length = ctx at tooLarge
  have keen : ctx.Keen := by
    rw [← start]
    exact ⟨rfl, fun _ => rfl, fun _ => rfl⟩
  have limited : ctx.limits = limits := by rw [← start]; rfl
  have fresh : ctx.entriesSeen = 0 := by rw [← start]; rfl
  have reported : ∀ (failure : BudgetExceeded) (after : Ctx), after.Keen →
      failure.reason ∈ tooLargeReasons →
      ∃ item ∈ (unscannable piece.part failure.reason failure.detail after).2.items,
        item.IsTooLarge := by
    intro failure after keen reason
    rw [unscannable, emit, if_neg (by simp [keen.going]), if_pos (keen.accepts _)]
    exact ⟨_, List.mem_append_right _ (List.mem_singleton.mpr rfl), reason⟩
  have ran : dispatch libs none piece ctx = reporting piece.part (do
      checkBudget 0
      opens none
      runFamily libs (nestedDispatch libs limits.maxDepth none) piece piece.family) ctx := by
    change dispatchWith libs (nestedDispatch libs ctx.limits.maxDepth none) none piece ctx = _
    rw [dispatchWith, unlessStopped_of_going keen.going, limited]
  rw [ran, reporting] at tooLarge
  rcases checkBudget_of_keen keen 0 with
    ⟨failure, after, failed, reason⟩ | ⟨mid, passed, seen, fits⟩
  · rw [recover_bind_of_error failed] at tooLarge
    have kept : Onward ctx (checkBudget 0 ctx).2 := KeptBySteps.keeps_checkBudget _ _
    rw [failed] at kept
    rcases reported failure after (kept.keen keen) reason with ⟨item, itemMem, large⟩
    exact tooLarge item itemMem large
  · rw [recover_bind_of_ok passed] at tooLarge
    have kept : Onward ctx (checkBudget 0 ctx).2 := KeptBySteps.keeps_checkBudget _ _
    rw [passed] at kept
    have opened : opens none mid = (.ok (), mid) := by simp [opens, Effects.modify]
    rw [recover_bind_of_ok opened, recover] at tooLarge
    rw [limited] at fits
    have further := rejects mid (kept.keen keen) (kept.limits.trans limited) (by omega) (by omega)
    have onward : Keeps Onward (runFamily libs
        (nestedDispatch libs limits.maxDepth none) piece piece.family) :=
      keeps_runFamily (fun _ => keeps_nestedDispatch _ keeps_opens_none) _
    have last := onward mid
    rcases outcome : runFamily libs (nestedDispatch libs limits.maxDepth none) piece
      piece.family mid with ⟨failure | value, after⟩
    · rw [outcome] at further tooLarge last
      rcases further with ⟨item, itemMem, large⟩ | ⟨_, ⟨⟩, reason⟩
      · have emitted : Onward after
            (emit (.unscannable ⟨piece.part, failure.reason, failure.detail⟩) after).2 :=
          KeptBySteps.keeps_emit _ _
        exact tooLarge item (emitted.items itemMem) large
      · rcases reported failure after (last.keen (kept.keen keen)) reason with
          ⟨item, itemMem, large⟩
        exact tooLarge item itemMem large
    · rw [outcome] at further tooLarge
      rcases further with ⟨item, itemMem, large⟩ | ⟨_, isError, _⟩
      · exact tooLarge item itemMem large
      · cases isError

theorem family_tarball (count : ℕ) : (tarball count).family = "tar" := by
  have unsigned : signatures.find? (fun signature =>
      signature.1.isPrefixOf ((tarball count).data.take 8192)) = none := by
    cases count <;> rfl
  rw [Piece.family, sniffFamily, unsigned]
  dsimp only
  split
  · rfl
  · rfl

theorem family_entry_tarball (count : ℕ) :
    ((tarball count).entry emptyFile.name []).family = "text" := by
  change ((tarball 0).entry emptyFile.name []).family = "text"
  decide +kernel

theorem nestedPieces_tarball (reads : libs.ReadsPlainFiles) (limits : Limits) (count : ℕ) :
    nestedPieces libs limits (tarball count) =
      List.replicate count ((tarball count).entry emptyFile.name []) := by
  rw [nestedPieces, partsOf, family_tarball]
  change (tarParts libs (tarball count)).pieces = _
  rw [tarParts, reads.tar]
  change (List.replicate count emptyFile).flatMap _ ++ [] = _
  rw [List.append_nil, List.flatMap_replicate]
  exact List.flatten_replicate_singleton

theorem nestedPieces_entry (limits : Limits) (count : ℕ) :
    nestedPieces libs limits ((tarball count).entry emptyFile.name []) = [] := by
  rw [nestedPieces, partsOf, family_entry_tarball]
  rfl

theorem withinLimits_tarball (reads : libs.ReadsPlainFiles)
    (deep : 0 < limits.maxDepth ∨ limits.maxEntries = 0) :
    WithinLimits libs readings limits (tarball limits.maxEntries) := by
  have entry : ∀ depth, content libs readings limits depth
      ((tarball limits.maxEntries).entry emptyFile.name []) = 0 := by
    intro depth
    cases depth with
    | zero => rfl
    | succ depth =>
      rw [content, nestedPieces_entry, family_entry_tarball]
      rfl
  have held : content libs readings limits (limits.maxDepth + 1)
      (tarball limits.maxEntries) = (limits.maxEntries, 0) := by
    rw [content, nestedPieces_tarball reads, family_tarball, List.map_replicate, entry,
      List.sum_replicate, nsmul_zero, add_zero]
    simp only [familyContent, reads.tar]
    rw [List.filter_replicate_of_pos rfl, List.map_replicate, List.sum_replicate,
      readings.tar_of_ok emptyFile [] rfl]
    simp
  constructor
  · intro child childMem
    rw [nestedPieces_tarball reads] at childMem
    rcases deep with deep | none
    · rw [List.eq_of_mem_replicate childMem]
      obtain ⟨depth, isSucc⟩ := Nat.exists_eq_succ_of_ne_zero deep.ne'
      rw [isSucc]
      intro grandchild grandchildMem
      rw [nestedPieces_entry] at grandchildMem
      cases grandchildMem
    · rw [none] at childMem
      cases childMem
  · rw [held]
  · rw [held]
    exact Nat.zero_le _
  · rw [held]
    exact Nat.zero_le _

/-- As many empty files as are allowed for are rejected. -/
theorem not_sparesWithin_tarball (reads : libs.ReadsPlainFiles)
    (deep : 0 < limits.maxDepth ∨ limits.maxEntries = 0) :
    ¬SparesWithin libs readings limits (tarball limits.maxEntries) := by
  apply not_sparesWithin_of_rejects (withinLimits_tarball reads deep)
  intro ctx keen limited seen some
  rw [family_tarball]
  change Rejects (extractTar libs _ (tarball limits.maxEntries) ctx)
  rw [extractTar, reads.tar]
  have rejected : Rejects (forEach (fun entry => unlessStopped (visitTarEntry
      (nestedDispatch libs limits.maxDepth none) (tarball limits.maxEntries) entry))
      (List.replicate limits.maxEntries emptyFile) ctx) := by
    apply rejects_forEach TarEntry.size (fun _ => nestedDispatch libs limits.maxDepth none
      ((tarball limits.maxEntries).entry emptyFile.name [])) keen
    · intro entry entryMem
      rw [List.eq_of_mem_replicate entryMem]
      rfl
    · exact fun _ _ => keeps_nestedDispatch _ keeps_opens_none
    · exact fun _ _ => nestedDispatch_ok _ _
    · rw [Ne, List.replicate_eq_nil_iff]
      omega
    · rw [limited, seen, List.length_replicate]
      omega
  exact rejected.bind (.pure ())

/-- The texts of a mail lie behind its boundary, none of which holds the magic of `tar`. -/
theorem family_mailing (others : ℕ) : (mailing others).family = "eml" := by
  have unsigned : signatures.find? (fun signature =>
      signature.1.isPrefixOf ((mailing others).data.take 8192)) = none := rfl
  have noMagic : ¬((((mailing others).data.take 8192).length > 262 ∧
      (((mailing others).data.take 8192).drop 257).take 5 = bytesOf "ustar")) := by
    rintro ⟨_, isMagic⟩
    have letter : bytesOf "u" <+: (((mailing others).data.take 8192).drop 257).take 5 := by
      rw [isMagic]
      decide
    have found : 117 ∈ (mailing others).data.drop 257 := by
      have := letter.subset (List.mem_singleton.mpr rfl)
      rw [List.drop_take] at this
      exact List.mem_of_mem_take (List.mem_of_mem_take this)
    rw [mailing, List.append_assoc, List.drop_append] at found
    rcases List.mem_append.mp found with head | found
    · cases head
    · rcases List.mem_append.mp (List.mem_of_mem_drop found) with found | found
      · rcases List.mem_flatten.mp found with ⟨text, textMem, found⟩
        rw [List.eq_of_mem_replicate textMem] at found
        revert found
        decide
      · revert found
        decide
  rw [Piece.family, sniffFamily, unsigned]
  dsimp only
  rw [if_neg noMagic]
  rfl

theorem nestedPieces_mailing (reads : libs.ReadsPlainFiles) (limits : Limits)
    (others : ℕ) : nestedPieces libs limits (mailing others) = [] := by
  rw [nestedPieces, partsOf, family_mailing]
  change (mailParts libs (mailing others)).pieces = _
  rw [mailParts, reads.parseMail]
  simp only [Parts.both, Parts.leaf, Parts.all, List.nil_append, List.flatMap_eq_nil_iff]
  rintro ⟨part, seq⟩ partMem
  rcases List.mem_cons.mp (List.fst_mem_of_mem_zipIdx partMem) with isMixed | isText
  · change part = mixedPart at isMixed
    rw [isMixed]
    rfl
  · rw [List.eq_of_mem_replicate isText]
    rfl

theorem withinLimits_mailing (reads : libs.ReadsPlainFiles) {others : ℕ}
    (entries : limits.maxEntries = others + 1) :
    WithinLimits libs readings limits (mailing others) := by
  have held : content libs readings limits (limits.maxDepth + 1) (mailing others) =
      (limits.maxEntries, 0) := by
    rw [content, nestedPieces_mailing reads, family_mailing]
    simp only [familyContent, reads.parseMail, List.map_cons, List.map_replicate, List.sum_cons,
      List.sum_replicate]
    simp [mixedPart, textPart, MailPart.entries, entries]
  constructor
  · intro child childMem
    rw [nestedPieces_mailing reads] at childMem
    cases childMem
  · rw [held]
  · rw [held]
    exact Nat.zero_le _
  · rw [held]
    exact Nat.zero_le _

/-- As many texts as are allowed for are rejected in a mail. -/
theorem not_sparesWithin_mailing (reads : libs.ReadsPlainFiles) {others : ℕ}
    (entries : limits.maxEntries = others + 1) :
    ¬SparesWithin libs readings limits (mailing others) := by
  apply not_sparesWithin_of_rejects (withinLimits_mailing reads entries)
  intro ctx keen limited seen _
  rw [family_mailing]
  change Rejects (extractMail libs _ (mailing others) ctx)
  rw [extractMail]
  rcases checkBudget_of_keen keen (mailing others).data.length with
    ⟨failure, after, failed, reason⟩ | ⟨mid, passed, charged, _⟩
  · right
    exact ⟨failure, by rw [bind_of_error failed], reason⟩
  · have stepped : Onward ctx (checkBudget (mailing others).data.length ctx).2 :=
      KeptBySteps.keeps_checkBudget _ _
    rw [passed] at stepped
    rw [bind_of_ok passed, reads.parseMail]
    apply rejects_bind (KeptBySteps.keeps_emit _) (emit_ok _) mid
    intro after onward
    rw [List.zipIdx_cons, forEach]
    refine rejects_bind (keeps_unlessStopped (.pure ()))
      (unlessStopped_ok fun _ => rfl) _ ?_
    intro last further
    apply rejects_forEach (fun _ => 1) (fun part =>
      segment (subPart (mailing others).part (mailPartName part.1 part.2)) (mailing others).filename
        part.1.mime "eml_body" "a".toList) (further.keen (onward.keen (stepped.keen keen)))
    · rintro ⟨part, seq⟩ partMem
      rw [List.eq_of_mem_replicate (List.fst_mem_of_mem_zipIdx partMem)]
      rfl
    · exact fun _ _ => KeptBySteps.keeps_emit _
    · exact fun _ _ => emit_ok _
    · simp
    · have entriesGrow := onward.entries.trans further.entries
      rw [further.limits, onward.limits, stepped.limits, limited, List.length_zipIdx, List.length_replicate]
      omega

/-- An archive of one file that declares no bytes, whatever it holds. -/
structure Understates (libs : Libraries) (piece : Piece) (member : ZipMember) : Prop where
  family : piece.family = "zip"
  members : libs.zip piece.data = some [member]
  kind : zipKind [member] = none
  raw : member.rawError = none
  isFile : member.isDir = false
  plain : member.encrypted = false
  opens : member.openError = none
  size : member.size = 0

theorem checkBudget_zero {ctx : Ctx} (room : ctx.entriesSeen < ctx.limits.maxEntries)
    (none : ctx.totalDecompressed = 0) (late : ∀ count, ctx.late count = false) :
    checkBudget 0 ctx = (.ok (), { ctx with entriesSeen := ctx.entriesSeen + 1 }) := by
  simp [checkBudget, none, late, Nat.not_lt.mpr (Nat.succ_le_of_lt room)]

theorem meter_meteredUnlessStopped {metered : MeteredWalk Unit} {ctx : Ctx}
    (going : ctx.stopped = false) : (meteredUnlessStopped metered).meter ctx = metered.meter ctx := by
  simp [meteredUnlessStopped, going]

/-- What is charged is what is declared, and what is read is what there is. -/
theorem reading_le_meteredFamily {member : ZipMember} {inner : Piece → MeteredWalk Unit} {ctx : Ctx}
    (understates : Understates libs piece member) (going : ctx.stopped = false)
    (passes : ∃ after, checkBudget 0 ctx = (.ok (), after)) :
    readings.zip member ≤
      (meteredFamily libs readings inner piece piece.family).meter ctx := by
  rcases passes with ⟨after, passes⟩
  rw [understates.family]
  simp only [meteredFamily, meteredOfficeOrZip, understates.members, understates.kind, meteredZip,
    Metered.forEach]
  refine le_trans ?_ (Nat.le_add_right _ _)
  rw [meter_meteredUnlessStopped going]
  simp only [meteredZipMember, understates.raw, understates.isFile, understates.size]
  refine le_trans ?_ (Nat.le_add_right _ _)
  simp [charging, passes, zipAmount, understates.plain, understates.opens]

theorem reading_le_meter {member : ZipMember} (understates : Understates libs piece member)
    (many : 1 < limits.maxEntries) :
    readings.zip member ≤ (meteredDispatch libs readings piece none).meter
      (Ctx.undisturbed limits piece.data.length) := by
  let start := Ctx.undisturbed limits piece.data.length
  have first : checkBudget 0 start = (.ok (), { start with entriesSeen := 1 }) :=
    checkBudget_zero (Nat.zero_lt_of_lt many) rfl fun _ => rfl
  have second : checkBudget 0 { start with entriesSeen := 1 } =
      (.ok (), { start with entriesSeen := 2 }) :=
    checkBudget_zero many rfl fun _ => rfl
  rw [meteredDispatch, Metered.meter_andThen_of_ok rfl, meteredDispatchWith,
    meter_meteredUnlessStopped rfl, meteredReporting, Metered.meter_andThen_of_ok first,
    Metered.meter_andThen_of_ok rfl]
  have read : readings.zip member ≤
      (meteredFamily libs readings (meteredNested libs readings limits.maxDepth) piece
        piece.family).meter { start with entriesSeen := 1 } :=
    reading_le_meteredFamily understates rfl ⟨_, second⟩
  refine read.trans ?_
  rw [← Nat.add_assoc, ← Nat.add_assoc]
  exact Nat.le_add_left _ _

theorem not_boundsBytes_of_understates {member : ZipMember}
    (understates : Understates libs piece member) (many : 1 < limits.maxEntries)
    (large : limits.maxTotalBytes + readBuffer < readings.zip member) :
    ¬BoundsBytes libs readings limits piece := by
  intro bounded
  have read := (reading_le_meter understates many).trans
    (bounded none (fun _ => false) fun _ => true)
  exact absurd read (Nat.not_le_of_lt large)

/-- What is said of the entry of the bomb. -/
def bomb : ZipMember := ⟨"a".toList, 0, false, false, none, none, .error "Invalid checksum"⟩

/-- The library's answers on the archives of this module. -/
def plainLibraries : Libraries :=
  { asciiLibraries with
    zip := fun data => if data = bombBytes then some [bomb] else none
    tar := fun data => .ok (List.replicate ((data.length - 1024) / 512) emptyFile, none)
    parseMail := fun data => some (mixedPart :: List.replicate ((data.length - 52) / 10) textPart) }

def plainReadings : Readings where
  zip member := match member.contents with | .ok payload => payload.length | .error _ => 2097025
  tar entry := match entry.contents with | .ok payload => payload.length | .error _ => 0
  sevenZip archive :=
    match archive.contents with
    | .ok files => (files.map fun file => file.2.length).sum
    | .error _ => 0
  zip_of_ok member payload isOk := by simp only [isOk]
  tar_of_ok entry payload isOk := by simp only [isOk]
  sevenZip_of_ok archive files isOk := by simp only [isOk]

theorem readsPlainFiles_plainLibraries : plainLibraries.ReadsPlainFiles where
  tar count := by
    have length : (tarball count).data.length = count * 512 + 1024 := by
      have header : emptyFileHeader.length = 512 := by decide +kernel
      simp only [tarball, List.length_append, List.length_flatten, List.map_replicate,
        List.sum_replicate_nat, List.length_replicate, header]
    simp only [plainLibraries, length]
    rw [Nat.add_sub_cancel, Nat.mul_div_cancel _ (by decide)]
  parseMail others := by
    have length : (mailing others).data.length = (others + 1) * 10 + 52 := by
      have head : (bytesOf "Content-Type: multipart/mixed; boundary=b\r\n\r\n").length = 45 := by
        decide +kernel
      have text : (bytesOf "--b\r\n\r\na\r\n").length = 10 := by decide +kernel
      have last : (bytesOf "--b--\r\n").length = 7 := by decide +kernel
      simp only [mailing, List.length_append, List.length_flatten, List.map_replicate,
        List.sum_replicate_nat, head, text, last]
      omega
    simp only [plainLibraries, length]
    rw [Nat.add_sub_cancel, Nat.mul_div_cancel _ (by decide)]

theorem zip_plainLibraries {data : Bytes} (isBomb : data = bombBytes) :
    plainLibraries.zip data = some [bomb] := if_pos isBomb

def bombPiece : Piece := ⟨bombBytes, "a.zip".toList, "a.zip".toList, []⟩

theorem understates_bombPiece : Understates plainLibraries bombPiece bomb where
  family := by decide +kernel
  members := zip_plainLibraries rfl
  kind := rfl
  raw := rfl
  isFile := rfl
  plain := rfl
  opens := rfl
  size := rfl

def oneEntry : Limits := { Limits.default with maxEntries := 1 }

def oneKibibyte : Limits := { Limits.default with maxTotalBytes := 1024 }

end Aavishield.Dlp
