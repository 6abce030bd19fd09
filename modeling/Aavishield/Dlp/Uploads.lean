import Aavishield.Dlp.Pipeline
import Aavishield.Dlp.Steps

/-!
# Files that are found and files that are opened

The inspection of a request finds a file in it: the whole body, or a part of a multipart
body.  The extraction opens the file if it hands its bytes to an extractor.  It takes only
forms apart, so that it opens no part of any other multipart body.
-/

namespace Aavishield.Dlp

open Effects Text Walk

variable (env : Primitives) (libs : Libraries) (scanner : Scanner)
variable (limits : Limits) (late accepts : ℕ → Bool)

/-- The file that an upload is taken to hold. -/
def foundFile (contentType hint : List Char) (body : Bytes) : Option Opening :=
  if isMultipart (mimeOf contentType) then
    (multipartBoundary contentType).bind fun boundary =>
      ((multipartParts libs body boundary).zipIdx.find?
        fun (part, _) => part.fileName.isSome).map fun (part, index) => .part index part.data
  else
    (findFile libs (mimeOf contentType) contentType hint body).map fun _ => .whole body

/-- What of an upload is opened at all. -/
def Scanner.openings (contentType inspected : List Char) (body : Bytes) : List Opening :=
  let name := uploadName contentType inspected
  match scanner.mediaVerdict env libs body name contentType with
  | some _ => []
  | none => (extraction libs limits late accepts body name contentType).opened

def Ctx.Admits (ctx : Ctx) (sizes : List ℕ) : Prop :=
  (forEach checkBudget sizes ctx).1 = .ok ()

def ReachesPart (contentType : List Char) (body : Bytes) (index : ℕ) (data : Bytes) : Prop :=
  ∃ boundary before, multipartBoundary contentType = some boundary ∧
    visitFormParts libs "content".toList
      ((multipartParts libs body boundary).zipIdx.take index)
      (.new limits body.length late accepts) = (.ok (), before) ∧
    before.stopped = false ∧ before.Admits [data.length, 0] ∧ 1 ≤ limits.maxDepth

/-- Whether the way of a request through the pipeline leads to the file in it. -/
def Scanner.LeadsTo (contentType inspected : List Char) (body : Bytes) : Opening → Prop
  | .whole _ =>
    ¬(looksLikeMedia inspected contentType = true ∧ (scanner.aiFor "ai_audio").isSome = true) ∧
      (Ctx.new limits body.length late accepts).Admits [0]
  | .part index data =>
    mimeOf contentType = "multipart/form-data".toList ∧
      ReachesPart libs limits late accepts contentType body index data

variable {env libs scanner limits late accepts}
variable {contentType hint inspected : List Char} {body : Bytes} {opening : Opening}

variable {index : ℕ} {data : Bytes}

theorem exists_split_of_foundPart {boundary : List Char}
    (multipart : isMultipart (mimeOf contentType) = true)
    (bounded : multipartBoundary contentType = some boundary)
    (found : foundFile libs contentType hint body = some (.part index data)) :
    ∃ before part after name,
      (multipartParts libs body boundary).zipIdx = before ++ (part, index) :: after ∧
      part.data = data ∧ part.filename = some name ∧ before.length = index ∧
      (∀ other ∈ before, other.2 ≠ index) ∧ ∀ other ∈ after, other.2 ≠ index := by
  rw [foundFile, if_pos multipart, bounded] at found
  rcases Option.map_eq_some_iff.mp found with ⟨⟨part, number⟩, isFirst, isPart⟩
  simp only [Opening.part.injEq] at isPart
  rcases isPart with ⟨rfl, rfl⟩
  rcases List.find?_eq_some_iff_append.mp isFirst with ⟨named, before, after, split, -⟩
  have indexes := congrArg (List.map Prod.snd) split
  rw [List.zipIdx_map_snd, List.map_append, List.map_cons] at indexes
  have distinct : (List.map Prod.snd before ++ number :: List.map Prod.snd after).Nodup := by
    rw [← indexes]
    exact List.nodup_range'
  have others := (List.nodup_cons.mp (List.nodup_middle.mp distinct)).1
  have isNumber : before.length = number := by
    have here : (List.map Prod.snd before ++ number :: List.map Prod.snd after)[before.length]? =
        some number := by simp
    rw [← indexes, List.getElem?_range'] at here
    · simpa using here
    · have lengths := congrArg List.length split
      simp only [List.length_zipIdx, List.length_append, List.length_cons] at lengths
      omega
  have hasName : ∃ name, part.filename = some name := by
    rw [Option.isSome_iff_exists] at named
    rcases named with ⟨name, isName⟩
    rcases filename : part.filename with _ | name
    · simp [FormPart.fileName, filename] at isName
    · exact ⟨name, rfl⟩
  rcases hasName with ⟨name, isName⟩
  refine ⟨before, part, after, name, split, rfl, isName, isNumber, ?_, ?_⟩
  · intro other otherMem same
    exact others (List.mem_append_left _ (List.mem_map.mpr ⟨other, otherMem, same⟩))
  · intro other otherMem same
    exact others (List.mem_append_right _ (List.mem_map.mpr ⟨other, otherMem, same⟩))

def SamePart (index : ℕ) (ctx after : Ctx) : Prop :=
  ∀ data, Opening.part index data ∈ after.opened ↔ Opening.part index data ∈ ctx.opened

def SameOpened (ctx after : Ctx) : Prop := after.opened = ctx.opened

theorem sameOpened_checkBudget (added : ℕ) : Keeps SameOpened (checkBudget added) := by
  intro ctx
  simp only [SameOpened, checkBudget]
  split_ifs <;> rfl

theorem sameOpened_emit (item : Item) : Keeps SameOpened (emit item) := by
  intro ctx
  simp only [SameOpened, emit]
  split_ifs <;> rfl

instance : KeptBySteps SameOpened where
  refl _ := rfl
  trans _ _ _ first second := second.trans first
  keeps_emit := sameOpened_emit
  keeps_checkBudget := sameOpened_checkBudget
  keeps_countOcr budget := by
    intro ctx
    cases budget <;> rfl
  keeps_countImage _ := rfl

instance (index : ℕ) : Std.Refl (SamePart index) := ⟨fun _ _ => Iff.rfl⟩

instance (index : ℕ) : IsTrans Ctx (SamePart index) :=
  ⟨fun _ _ _ first second data => (second data).trans (first data)⟩

instance (index : ℕ) : KeptBySteps (SamePart index) :=
  KeptBySteps.of_weaker SameOpened fun _ _ same _ => by rw [same]

theorem samePart_opens (other : ∀ data, opening ≠ .part index data) :
    Keeps (SamePart index) (opens (some opening)) := by
  intro ctx data
  simp [opens, Effects.modify, (other data).symm]

theorem samePart_visitFormParts (root : List Char) {parts : List (FormPart × ℕ)}
    (others : ∀ part ∈ parts, part.2 ≠ index) :
    Keeps (SamePart index) (visitFormParts libs root parts) := by
  apply keeps_visitFormParts
  intro part partMem data
  apply samePart_opens
  intro other same
  simp only [Opening.part.injEq] at same
  exact others part partMem same.1

variable {ctx : Ctx}

theorem Ctx.admits_cons {added : ℕ} {sizes : List ℕ} :
    ctx.Admits (added :: sizes) ↔
      ∃ after, checkBudget added ctx = (.ok (), after) ∧ after.Admits sizes := by
  rw [Ctx.Admits]
  change ((checkBudget added >>= fun _ => forEach checkBudget sizes) ctx).1 = .ok () ↔ _
  rcases ran : checkBudget added ctx with ⟨failure | ⟨⟩, after⟩
  · rw [bind_of_error ran]
    simp
  · rw [bind_of_ok ran]
    constructor
    · intro rest
      exact ⟨after, rfl, rest⟩
    · rintro ⟨other, same, rest⟩
      simp only [Prod.mk.injEq, true_and] at same
      rwa [same]

theorem Ctx.admits_nil : ctx.Admits [] := rfl

theorem stopped_checkBudget (added : ℕ) (ctx : Ctx) :
    (checkBudget added ctx).2.stopped = ctx.stopped := by
  simp only [checkBudget]
  split_ifs <;> rfl

theorem mem_opened_dispatchWith {inner : Piece → Walk Unit} {piece : Piece}
    (nested : ∀ piece, Keeps SameOpened (inner piece)) (fresh : opening ∉ ctx.opened)
    (going : ctx.stopped = false) :
    opening ∈ (dispatchWith libs inner (some opening) piece ctx).2.opened ↔
      ctx.Admits [0] := by
  rw [dispatchWith, unlessStopped_of_going going, Walk.reporting]
  have same := sameOpened_checkBudget 0 ctx
  rcases ran : checkBudget 0 ctx with ⟨failure | ⟨⟩, after⟩
  · rw [ran] at same
    have unchanged := sameOpened_emit
      (.unscannable ⟨piece.part, failure.reason, failure.detail⟩) after
    have notAdmitted : ¬ctx.Admits [0] := by
      rw [Ctx.admits_cons, ran]
      simp
    rw [recover_bind_of_error ran]
    simp only [notAdmitted, iff_false]
    rwa [Walk.unscannable, unchanged, same]
  · rw [ran] at same
    have admitted : ctx.Admits [0] := Ctx.admits_cons.mpr ⟨after, ran, Ctx.admits_nil⟩
    have noted : opens (some opening) after =
        (.ok (), { after with opened := after.opened ++ [opening] }) := rfl
    rw [recover_bind_of_ok ran, recover_bind_of_ok noted]
    have kept : Keeps SameOpened
        (Walk.reporting piece.part (runFamily libs inner piece piece.family)) :=
      keeps_reporting (keeps_runFamily nested _)
    have unchanged := kept { after with opened := after.opened ++ [opening] }
    simp only [admitted, iff_true]
    rw [Walk.reporting] at unchanged
    rw [unchanged]
    simp

variable {name : List Char}

theorem mem_opened_visitFormPart {root : List Char} {part : FormPart}
    (named : part.filename = some name) (fresh : .part index part.data ∉ ctx.opened) :
    .part index part.data ∈
        (unlessStopped (visitFormPart libs root part index) ctx).2.opened ↔
      ctx.stopped = false ∧ ctx.Admits [part.data.length, 0] ∧ 1 ≤ ctx.limits.maxDepth := by
  rcases going : ctx.stopped with _ | _
  · rw [unlessStopped_of_going going, visitFormPart]
    have same := sameOpened_checkBudget part.data.length ctx
    have sameLimits : SameLimits ctx _ := KeptBySteps.keeps_checkBudget part.data.length ctx
    have sameStop := stopped_checkBudget part.data.length ctx
    rcases ran : checkBudget part.data.length ctx with ⟨failure | ⟨⟩, after⟩
    · rw [ran] at same
      rw [bind_of_error ran, same, Ctx.admits_cons, ran]
      simp [fresh]
    · rw [ran] at same sameLimits sameStop
      rw [bind_of_ok ran, named, Ctx.admits_cons, ran]
      have read : (get : Walk Ctx) after = (.ok after, after) := rfl
      dsimp only
      rw [bind_of_ok read, ← sameLimits]
      have stillFresh : .part index part.data ∉ after.opened := by rwa [same]
      have stillGoing : after.stopped = false := sameStop.trans going
      rcases after.limits.maxDepth with _ | depth
      · have kept : Keeps SameOpened (nestedDispatch libs 0
            (some (.part index part.data)) (part.piece root name)) := keeps_nestedDispatch_zero
        rw [kept after]
        simp [stillFresh]
      · have nested : ∀ piece, Keeps SameOpened (nestedDispatch libs depth none piece) :=
          fun _ => keeps_nestedDispatch depth keeps_opens_none
        rw [nestedDispatch, mem_opened_dispatchWith nested stillFresh stillGoing]
        simp
  · rw [unlessStopped_of_stopped going]
    simp [fresh]

theorem looksLikeMedia_of_multipart (multipart : isMultipart (mimeOf contentType) = true) :
    looksLikeMedia [] contentType = false := by
  rcases List.isPrefixOf_iff_prefix.mp multipart with ⟨rest, isMime⟩
  rw [looksLikeMedia, ← isMime]
  rfl

theorem mediaVerdict_eq_none_iff :
    scanner.mediaVerdict env libs body name contentType = none ↔
      ¬(looksLikeMedia name contentType = true ∧
        (scanner.aiFor "ai_audio").isSome = true) := by
  rw [Scanner.mediaVerdict]
  split
  case isTrue media => simp [Scanner.scanMedia, media]
  case isFalse media => simp [media]

theorem extractMultipart_eq {boundary : List Char}
    (bounded : multipartBoundary contentType = some boundary)
    (parts : multipartParts libs body boundary ≠ []) :
    extractMultipart libs body "content".toList contentType =
      reporting "content".toList (visitFormParts libs "content".toList
        (multipartParts libs body boundary).zipIdx) := by
  rcases split : multipartParts libs body boundary with _ | ⟨first, rest⟩
  · exact absurd split parts
  · simp only [extractMultipart, bounded, split]

theorem mem_opened_rest {root : List Char} {part : FormPart}
    {after : List (FormPart × ℕ)} (others : ∀ other ∈ after, other.2 ≠ index) :
    .part index data ∈
        (reporting root (visitFormParts libs root ((part, index) :: after)) ctx).2.opened ↔
      .part index data ∈
        (unlessStopped (visitFormPart libs root part index) ctx).2.opened := by
  have last : Keeps (SamePart index) (reporting root (visitFormParts libs root after)) :=
    keeps_reporting (samePart_visitFormParts root others)
  change .part index data ∈ (recover (unlessStopped (visitFormPart libs root part index) >>=
    fun _ => visitFormParts libs root after) _ ctx).2.opened ↔ _
  rcases ran : unlessStopped (visitFormPart libs root part index) ctx with
    ⟨failure | ⟨⟩, next⟩
  · rw [recover_bind_of_error ran]
    have unchanged := sameOpened_emit
      (.unscannable ⟨root, failure.reason, failure.detail⟩) next
    rw [Walk.unscannable, unchanged]
  · rw [recover_bind_of_ok ran]
    exact last next data

theorem mem_opened_extractMultipart (multipart : isMultipart (mimeOf contentType) = true)
    (found : foundFile libs contentType hint body = some (.part index data)) :
    .part index data ∈ (extractMultipart libs body "content".toList contentType
        (.new limits body.length late accepts)).2.opened ↔
      ReachesPart libs limits late accepts contentType body index data := by
  rcases bounded : multipartBoundary contentType with _ | boundary
  · rw [foundFile, if_pos multipart, bounded] at found
    simp at found
  · rcases exists_split_of_foundPart multipart bounded found with
      ⟨before, part, after, name, split, rfl, named, isIndex, othersBefore, othersAfter⟩
    have nonempty : multipartParts libs body boundary ≠ [] := by
      intro isEmpty
      rw [isEmpty] at split
      simp at split
    have isTake : (multipartParts libs body boundary).zipIdx.take index = before := by
      rw [split, ← isIndex, List.take_left]
    have unopened : Opening.part index part.data ∉
        (visitFormParts libs "content".toList before
          (.new limits body.length late accepts)).2.opened := by
      rw [samePart_visitFormParts _ othersBefore _ _]
      simp [Ctx.new]
    have keepsLimits : Keeps SameLimits (visitFormParts libs "content".toList before) :=
      keeps_visitFormParts fun _ _ _ _ => rfl
    have sameLimits := keepsLimits (.new limits body.length late accepts)
    have reaches : ReachesPart libs limits late accepts contentType body index part.data ↔
        ∃ reached, visitFormParts libs "content".toList before
            (.new limits body.length late accepts) = (.ok (), reached) ∧
          reached.stopped = false ∧ reached.Admits [part.data.length, 0] ∧
          1 ≤ limits.maxDepth := by
      simp [ReachesPart, bounded, isTake]
    rw [extractMultipart_eq bounded nonempty, reaches, split]
    have inTwo : visitFormParts libs "content".toList (before ++ (part, index) :: after) =
        visitFormParts libs "content".toList before >>= fun _ =>
          visitFormParts libs "content".toList ((part, index) :: after) :=
      forEach_append _ _ _
    rw [inTwo, Walk.reporting]
    rcases ran : visitFormParts libs "content".toList before
        (.new limits body.length late accepts) with ⟨failure | ⟨⟩, reached⟩
    · rw [ran] at unopened
      rw [recover_bind_of_error ran]
      have unchanged := sameOpened_emit
        (.unscannable ⟨"content".toList, failure.reason, failure.detail⟩) reached
      rw [Walk.unscannable, unchanged]
      simp [unopened]
    · rw [ran] at unopened sameLimits
      rw [recover_bind_of_ok ran]
      change .part index part.data ∈ (Walk.reporting "content".toList
        (visitFormParts libs "content".toList ((part, index) :: after))
          reached).2.opened ↔ _
      rw [mem_opened_rest othersAfter, mem_opened_visitFormPart named unopened, sameLimits]
      simp [Ctx.new]

theorem mem_opened_dispatch {piece : Piece} (fresh : opening ∉ ctx.opened)
    (going : ctx.stopped = false) :
    opening ∈ (dispatch libs (some opening) piece ctx).2.opened ↔ ctx.Admits [0] :=
  mem_opened_dispatchWith (fun _ => keeps_nestedDispatch _ keeps_opens_none) fresh going

theorem not_mem_opened_of_other_type (other : mimeOf contentType ≠ "multipart/form-data".toList) :
    .part index data ∉ (extraction libs limits late accepts body name contentType).opened := by
  have kept : Keeps (SamePart index)
      (dispatch libs (some (.whole body))
        ⟨body, if name = [] then "content".toList else name, name, contentType⟩) := by
    apply keeps_dispatch
    apply samePart_opens
    intro data same
    cases same
  rw [extraction, extract, if_neg other, kept _ data]
  simp [Ctx.new]

def idleScanner : Scanner where
  policies := []
  onUnscannable := []
  cfg := ⟨80, 50⟩
  ai := none

def formBody : Bytes :=
  bytesOf "--b\r\nContent-Disposition: form-data; filename=\"pay.pdf\"\r\n\r\n%PDF-1.7\r\n--b--"

def formType : List Char := "multipart/form-data; boundary=b".toList

theorem foundFile_formBody : foundFile asciiLibraries formType [] formBody =
    some (.part 0 (bytesOf "%PDF-1.7")) := by
  decide +kernel

def AlwaysOpensFile : Prop :=
  ∀ (env : Primitives) (libs : Libraries) (scanner : Scanner) (limits : Limits)
    (late accepts : ℕ → Bool) (contentType hint inspected : List Char) (body : Bytes)
    (opening : Opening), foundFile libs contentType hint body = some opening →
      opening ∈ scanner.openings env libs limits late accepts contentType inspected body

def relatedBody : Bytes :=
  bytesOf "--b\r\nContent-Disposition: attachment; filename=\"pay.pdf\"\r\n\r\n%PDF-1.7\r\n--b--"

def relatedType : List Char := "multipart/related; boundary=b".toList

theorem foundFile_relatedBody : foundFile asciiLibraries relatedType [] relatedBody =
    some (.part 0 (bytesOf "%PDF-1.7")) := by
  decide +kernel

end Aavishield.Dlp
