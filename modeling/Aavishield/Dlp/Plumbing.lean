import Aavishield.Dlp.FormHeaders
import Aavishield.Dlp.UserText

/-!
# Plumbing of requests

Values under plumbing keys do not change the user text of a body, and what stands under content
keys, but not under plumbing, is part of it.
-/

namespace Aavishield.UserText

open Dlp Text ByteText

def ReadsByWeight (libs : Libraries) : Prop :=
  ∀ text value, libs.parseJson text = some value → value.weight ≤ byteLength text

section Values

variable (libs : Libraries)

mutual

/-- Two values that differ only under plumbing keys, also in strings that are JSON. -/
inductive SameBut : Json → Json → Prop where
  | same (value : Json) : SameBut value value
  | array {items others : List Json} (alike : SameItems items others) :
      SameBut (.array items) (.array others)
  | object {fields others : List (List Char × Json)} (alike : SameFields fields others) :
      SameBut (.object fields) (.object others)
  | nested {text other : List Char} {value otherValue : Json}
      (holds : nestedJson libs text = some value)
      (otherHolds : nestedJson libs other = some otherValue)
      (alike : SameBut value otherValue) : SameBut (.string text) (.string other)

inductive SameItems : List Json → List Json → Prop where
  | nil : SameItems [] []
  | cons {item other : Json} {items others : List Json} (first : SameBut item other)
      (rest : SameItems items others) : SameItems (item :: items) (other :: others)

inductive SameFields : List (List Char × Json) → List (List Char × Json) → Prop where
  | nil : SameFields [] []
  | plumbing {key : List Char} {fields others : List (List Char × Json)}
      (isPlumbing : isPlumbingKey key = true) (value other : Json)
      (rest : SameFields fields others) :
      SameFields ((key, value) :: fields) ((key, other) :: others)
  | cons {value other : Json} {fields others : List (List Char × Json)} (key : List Char)
      (first : SameBut value other) (rest : SameFields fields others) :
      SameFields ((key, value) :: fields) ((key, other) :: others)

end

inductive Holds : Json → List (List Char) → List Char → Prop where
  | text {text : List Char} (plain : nestedJson libs text = none) :
      Holds (.string text) [] text
  | nested {text inner : List Char} {value : Json} {path : List (List Char)}
      (holds : nestedJson libs text = some value) (within : Holds value path inner) :
      Holds (.string text) path inner
  | item {items : List Json} {item : Json} {path : List (List Char)} {text : List Char}
      (itemMem : item ∈ items) (within : Holds item path text) : Holds (.array items) path text
  | field {fields : List (List Char × Json)} {key : List Char} {child : Json}
      {path : List (List Char)} {text : List Char} (fieldMem : (key, child) ∈ fields)
      (within : Holds child path text) : Holds (.object fields) (key :: path) text

end Values

variable {libs : Libraries} {text : List Char} {value other : Json} {fuel otherFuel : ℕ}
  {key : Option (List Char)} {inContent : Bool} {out : List Char}

theorem weight_nestedJson (reads : ReadsByWeight libs)
    (nested : nestedJson libs text = some value) : value.weight ≤ byteLength text := by
  unfold nestedJson at nested
  dsimp only at nested
  split_ifs at nested
  exact reads text value nested

theorem sameItems_refl : ∀ items : List Json, SameItems libs items items
  | [] => .nil
  | item :: items => .cons (.same item) (sameItems_refl items)

theorem sameFields_refl : ∀ fields : List (List Char × Json), SameFields libs fields fields
  | [] => .nil
  | (key, child) :: fields => .cons key (.same child) (sameFields_refl fields)

def Alike (libs : Libraries) (fuel otherFuel : ℕ) : Prop :=
  ∀ (value other : Json) (key : Option (List Char)) (inContent : Bool) (out : List Char),
    SameBut libs value other → value.weight < fuel → other.weight < otherFuel →
      collectJson libs fuel value key inContent out =
        collectJson libs otherFuel other key inContent out

theorem foldl_sameItems (alike : Alike libs fuel otherFuel) {items others : List Json}
    (same : SameItems libs items others) (enough : weightItems items < fuel)
    (otherEnough : weightItems others < otherFuel) (out : List Char) :
    items.foldl (fun out item => collectJson libs fuel item key inContent out) out =
      others.foldl (fun out item => collectJson libs otherFuel item key inContent out)
        out := by
  induction items generalizing others out with
  | nil =>
    cases same
    rfl
  | cons item items ih =>
    cases same with
    | cons first rest =>
      rw [weightItems] at enough otherEnough
      rw [List.foldl_cons, List.foldl_cons,
        alike _ _ key inContent out first (by omega) (by omega)]
      exact ih rest (by omega) (by omega) _

theorem foldl_sameFields (alike : Alike libs fuel otherFuel)
    {fields others : List (List Char × Json)} (same : SameFields libs fields others)
    (enough : weightFields fields < fuel) (otherEnough : weightFields others < otherFuel)
    (out : List Char) :
    fields.foldl (fun out (name, child) =>
      if isPlumbingKey name then out
      else collectJson libs fuel child (some name) (inContent || isContentKey name) out) out =
    others.foldl (fun out (name, child) =>
      if isPlumbingKey name then out
      else collectJson libs otherFuel child (some name) (inContent || isContentKey name) out)
        out := by
  induction fields generalizing others out with
  | nil =>
    cases same
    rfl
  | cons field fields ih =>
    cases same with
    | plumbing isPlumbing value other rest =>
      rw [weightFields] at enough otherEnough
      rw [List.foldl_cons, List.foldl_cons]
      simp only [isPlumbing, if_true]
      exact ih rest (by omega) (by omega) _
    | cons key first rest =>
      rw [weightFields] at enough otherEnough
      rw [List.foldl_cons, List.foldl_cons]
      dsimp only
      rw [alike _ _ (some key) (inContent || isContentKey key) out first (by omega) (by omega)]
      exact ih rest (by omega) (by omega) _

/-- Values that differ only in plumbing are walked alike, if both walks have calls enough. -/
theorem alike_collectJson (reads : ReadsByWeight libs) (fuel otherFuel : ℕ) :
    Alike libs fuel otherFuel := by
  induction fuel generalizing otherFuel with
  | zero => exact fun _ _ _ _ _ _ enough => absurd enough (Nat.not_lt_zero _)
  | succ fuel ih =>
    intro value other key inContent out same enough otherEnough
    cases otherFuel with
    | zero => exact absurd otherEnough (Nat.not_lt_zero _)
    | succ otherFuel =>
      have nestedAlike {text other : List Char} {value otherValue : Json}
          (holds : nestedJson libs text = some value)
          (otherHolds : nestedJson libs other = some otherValue)
          (alike : SameBut libs value otherValue)
          (enough : byteLength text + 2 < fuel + 1)
          (otherEnough : byteLength other + 2 < otherFuel + 1) :
          collectJson libs fuel value key inContent out =
            collectJson libs otherFuel otherValue key inContent out := by
        have light := weight_nestedJson reads holds
        have otherLight := weight_nestedJson reads otherHolds
        exact ih otherFuel _ _ key inContent out alike (by omega) (by omega)
      rw [collectJson_succ, collectJson_succ]
      split
      · rfl
      cases same with
      | same value =>
        cases value with
        | null | bool _ | number _ => rfl
        | string text =>
          dsimp only
          cases nested : nestedJson libs text with
          | none => rfl
          | some inner =>
            rw [Json.weight] at enough otherEnough
            exact nestedAlike nested nested (.same inner) enough otherEnough
        | array items =>
          rw [Json.weight] at enough otherEnough
          exact foldl_sameItems (ih otherFuel) (sameItems_refl items) (by omega)
            (by omega) out
        | object fields =>
          rw [Json.weight] at enough otherEnough
          exact foldl_sameFields (ih otherFuel) (sameFields_refl fields) (by omega)
            (by omega) out
      | array alike =>
        rw [Json.weight] at enough otherEnough
        exact foldl_sameItems (ih otherFuel) alike (by omega) (by omega) out
      | object alike =>
        rw [Json.weight] at enough otherEnough
        exact foldl_sameFields (ih otherFuel) alike (by omega) (by omega) out
      | nested holds otherHolds alike =>
        rw [Json.weight] at enough otherEnough
        dsimp only
        rw [holds, otherHolds]
        exact nestedAlike holds otherHolds alike enough otherEnough

theorem prefix_foldl {Item : Type} {step : List Char → Item → List Char}
    (grows : ∀ out item, out <+: step out item) (items : List Item) (out : List Char) :
    out <+: items.foldl step out := by
  induction items generalizing out with
  | nil => exact List.prefix_rfl
  | cons item items ih => exact (grows out item).trans (ih _)

theorem prefix_pushString : out <+: pushString text key inContent out := by
  dsimp only [pushString]
  split
  · exact List.prefix_rfl
  · rw [List.append_assoc]
    exact List.prefix_append _ _

theorem prefix_collectJson : out <+: collectJson libs fuel value key inContent out := by
  induction fuel generalizing value key inContent out with
  | zero => exact List.prefix_rfl
  | succ fuel ih =>
    rw [collectJson_succ]
    split
    · exact List.prefix_rfl
    cases value with
    | null | bool _ | number _ => exact List.prefix_rfl
    | string text =>
      dsimp only
      cases nestedJson libs text with
      | none => exact prefix_pushString
      | some inner => exact ih
    | array items => exact prefix_foldl (fun _ _ => ih) items out
    | object fields =>
      apply prefix_foldl
      rintro out ⟨name, child⟩
      dsimp only
      split
      · exact List.prefix_rfl
      · exact ih

theorem byteLength_pushString :
    byteLength (pushString text key inContent out) ≤ byteLength out + byteLength text + 1 := by
  have lineBreak : byteLength ['\n'] = 1 := rfl
  dsimp only [pushString]
  split
  · omega
  · rw [byteLength_append, byteLength_append]
    omega

theorem byteLength_foldl_items (grows : ∀ item out,
      byteLength (collectJson libs fuel item key inContent out) ≤
        byteLength out + item.weight) (items : List Json) (out : List Char) :
    byteLength
        (items.foldl (fun out item => collectJson libs fuel item key inContent out) out) ≤
      byteLength out + weightItems items := by
  induction items generalizing out with
  | nil => exact Nat.le_refl _
  | cons item items ih =>
    have first := grows item out
    have rest := ih (collectJson libs fuel item key inContent out)
    rw [List.foldl_cons, weightItems]
    omega

theorem byteLength_foldl_fields (grows : ∀ child name inContent out,
      byteLength (collectJson libs fuel child (some name) inContent out) ≤
        byteLength out + child.weight) (fields : List (List Char × Json)) (out : List Char) :
    byteLength (fields.foldl (fun out (name, child) =>
      if isPlumbingKey name then out
      else collectJson libs fuel child (some name) (inContent || isContentKey name) out) out) ≤
      byteLength out + weightFields fields := by
  induction fields generalizing out with
  | nil => exact Nat.le_refl _
  | cons field fields ih =>
    obtain ⟨name, child⟩ := field
    rw [List.foldl_cons, weightFields]
    change byteLength (List.foldl _ (if isPlumbingKey name then out
      else collectJson libs fuel child (some name) (inContent || isContentKey name) out)
        fields) ≤ _
    split
    · have rest := ih out
      omega
    · have first := grows child name (inContent || isContentKey name) out
      have rest := ih (collectJson libs fuel child (some name)
        (inContent || isContentKey name) out)
      omega

theorem byteLength_collectJson (reads : ReadsByWeight libs) :
    byteLength (collectJson libs fuel value key inContent out) ≤
      byteLength out + value.weight := by
  induction fuel generalizing value key inContent out with
  | zero => exact Nat.le_add_right _ _
  | succ fuel ih =>
    rw [collectJson_succ]
    split
    · omega
    cases value with
    | null | bool _ | number _ => exact Nat.le_add_right _ _
    | string text =>
      rw [Json.weight]
      dsimp only
      cases nested : nestedJson libs text with
      | none =>
        have pushed := @byteLength_pushString text key inContent out
        dsimp only
        omega
      | some inner =>
        have light := weight_nestedJson reads nested
        have walked := @ih inner key inContent out
        dsimp only
        omega
    | array items =>
      have walked :=
        byteLength_foldl_items (fun item out => @ih item key inContent out) items out
      refine walked.trans ?_
      rw [Json.weight]
      omega
    | object fields =>
      have walked := @byteLength_foldl_fields _ _ inContent
        (fun child name inContent out => @ih child (some name) inContent out) fields out
      refine walked.trans ?_
      rw [Json.weight]
      omega

def Seen (key : Option (List Char)) (inContent : Bool) (path : List (List Char))
    (text : List Char) : Prop :=
  inContent = true ∨ (path = [] ∧ key.any isContentKey = true) ∨
    (∃ name ∈ path, isContentKey name = true) ∨ looksLikeOpaqueBlob text = false

theorem infix_pushString (seen : Seen key inContent [] text) (written : trimSpace text ≠ []) :
    text <:+: pushString text key inContent out := by
  dsimp only [pushString]
  rw [if_neg]
  · exact ⟨out, ['\n'], rfl⟩
  · rintro (blank | ⟨noContent, opaqueBlob⟩)
    · exact written blank
    · rw [Bool.or_eq_false_iff] at noContent
      rcases seen with isContent | ⟨-, isKey⟩ | ⟨_, nameMem, -⟩ | prose
      · rw [noContent.1] at isContent
        cases isContent
      · rw [noContent.2] at isKey
        cases isKey
      · cases nameMem
      · rw [prose] at opaqueBlob
        cases opaqueBlob

theorem Seen.field {name : List Char} {path : List (List Char)}
    (seen : Seen key inContent (name :: path) text) :
    Seen (some name) (inContent || isContentKey name) path text := by
  rcases seen with isContent | ⟨empty, -⟩ | ⟨other, otherMem, isKey⟩ | prose
  · left
    rw [isContent, Bool.true_or]
  · cases empty
  · rcases List.mem_cons.mp otherMem with rfl | otherMem
    · left
      rw [isKey, Bool.or_true]
    · exact Or.inr (Or.inr (Or.inl ⟨other, otherMem, isKey⟩))
  · exact Or.inr (Or.inr (Or.inr prose))

theorem weightItems_append (first second : List Json) :
    weightItems (first ++ second) = weightItems first + weightItems second := by
  induction first with
  | nil => simp [weightItems]
  | cons item first ih =>
    rw [List.cons_append, weightItems, weightItems, ih]
    omega

theorem weightFields_append (first second : List (List Char × Json)) :
    weightFields (first ++ second) = weightFields first + weightFields second := by
  induction first with
  | nil => simp [weightFields]
  | cons field first ih =>
    rw [List.cons_append, weightFields, weightFields, ih]
    omega

theorem collectJson_object (fields : List (List Char × Json))
    (room : byteLength out ≤ maxUserText) :
    collectJson libs (fuel + 1) (.object fields) key inContent out =
      fields.foldl (fun out (name, child) =>
        if isPlumbingKey name then out
        else collectJson libs fuel child (some name) (inContent || isContentKey name) out)
          out := by
  rw [collectJson_succ, if_neg (by omega)]

theorem infix_collectJson (reads : ReadsByWeight libs) {path : List (List Char)}
    (holds : Holds libs value path text) (outside : ∀ name ∈ path, isPlumbingKey name = false)
    (seen : Seen key inContent path text) (written : trimSpace text ≠ [])
    (enough : value.weight < fuel) (room : byteLength out + value.weight ≤ maxUserText) :
    text <:+: collectJson libs fuel value key inContent out := by
  induction holds generalizing fuel key inContent out with
  | @text text plain =>
    obtain ⟨fuel, rfl⟩ := Nat.exists_eq_add_one_of_ne_zero (show fuel ≠ 0 by omega)
    rw [collectJson_succ, if_neg (by omega)]
    dsimp only
    rw [plain]
    exact infix_pushString seen written
  | @nested text inner value path holds within ih =>
    obtain ⟨fuel, rfl⟩ := Nat.exists_eq_add_one_of_ne_zero (show fuel ≠ 0 by omega)
    have light := weight_nestedJson reads holds
    rw [Json.weight] at enough room
    rw [collectJson_succ, if_neg (by omega)]
    dsimp only
    rw [holds]
    exact ih outside seen written (by omega) (by omega)
  | @item items item path text itemMem within ih =>
    obtain ⟨fuel, rfl⟩ := Nat.exists_eq_add_one_of_ne_zero (show fuel ≠ 0 by omega)
    obtain ⟨before, after, rfl⟩ := List.append_of_mem itemMem
    have walked := byteLength_foldl_items
      (fun item out => @byteLength_collectJson _ item fuel key inContent out reads) before out
    rw [Json.weight, weightItems_append, weightItems] at enough room
    rw [collectJson_succ, if_neg (by omega)]
    dsimp only
    rw [List.foldl_append, List.foldl_cons]
    refine List.IsInfix.trans ?_ (prefix_foldl (fun _ _ => prefix_collectJson) after _).isInfix
    exact ih outside seen written (by omega) (by omega)
  | @field fields name child path text fieldMem within ih =>
    obtain ⟨fuel, rfl⟩ := Nat.exists_eq_add_one_of_ne_zero (show fuel ≠ 0 by omega)
    obtain ⟨before, after, rfl⟩ := List.append_of_mem fieldMem
    rw [List.forall_mem_cons] at outside
    have walked := @byteLength_foldl_fields _ _ inContent
      (fun child name inContent out =>
        @byteLength_collectJson _ child fuel (some name) inContent out reads) before out
    rw [Json.weight, weightFields_append, weightFields] at enough room
    rw [collectJson_object _ (by omega), List.foldl_append, List.foldl_cons]
    change text <:+: List.foldl _ (if isPlumbingKey name then _ else _) after
    rw [outside.1, if_neg Bool.false_ne_true]
    refine List.IsInfix.trans ?_ (prefix_foldl ?_ after _).isInfix
    · exact ih outside.2 seen.field written (by omega) (by omega)
    · rintro out ⟨name, child⟩
      dsimp only
      split
      · exact List.prefix_rfl
      · exact prefix_collectJson

end Aavishield.UserText
