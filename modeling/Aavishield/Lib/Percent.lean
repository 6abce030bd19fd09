import Mathlib.Data.List.Basic
import Mathlib.Tactic.IntervalCases

/-!
# Percent-encoded bytes

A byte outside a plain set is written as a percent sign and its two hexadecimal digits.  What was
written so is read back as it was, whichever set was plain, as long as the percent sign was not.
-/

namespace Percent

abbrev Bytes := List UInt8

def ascii (text : String) : Bytes := text.toList.map Char.toUInt8

/-- A digit of `%02X`. -/
def hexDigit (value : ℕ) : UInt8 := UInt8.ofNat (if value < 10 then 48 + value else 55 + value)

def unhex (letter : UInt8) : Option ℕ :=
  if 48 ≤ letter.toNat ∧ letter.toNat ≤ 57 then some (letter.toNat - 48)
  else if 97 ≤ letter.toNat ∧ letter.toNat ≤ 102 then some (letter.toNat - 87)
  else if 65 ≤ letter.toNat ∧ letter.toNat ≤ 70 then some (letter.toNat - 55)
  else none

def percent : UInt8 := 37

def escapeByte (plain : UInt8 → Bool) (byte : UInt8) : Bytes :=
  if plain byte then [byte]
  else [percent, hexDigit (byte.toNat / 16), hexDigit (byte.toNat % 16)]

def escape (plain : UInt8 → Bool) (text : Bytes) : Bytes := text.flatMap (escapeByte plain)

def unescape : Bytes → Option Bytes
  | [] => some []
  | byte :: rest =>
    if byte = percent then
      match rest with
      | high :: low :: rest => do
        let high ← unhex high
        let low ← unhex low
        let text ← unescape rest
        return UInt8.ofNat (16 * high + low) :: text
      | _ => none
    else do
      let text ← unescape rest
      return byte :: text

theorem unhex_hexDigit {value : ℕ} (small : value < 16) : unhex (hexDigit value) = some value := by
  interval_cases value <;> decide

theorem unescape_cons {byte : UInt8} (other : byte ≠ percent) (rest : Bytes) :
    unescape (byte :: rest) = (unescape rest).map (byte :: ·) := by
  rw [unescape.eq_def]
  simp only [if_neg other]
  cases unescape rest <;> rfl

theorem unescape_percent (byte : UInt8) (rest : Bytes) :
    unescape (percent :: hexDigit (byte.toNat / 16) :: hexDigit (byte.toNat % 16) :: rest) =
      (unescape rest).map (byte :: ·) := by
  have bounded : byte.toNat < 256 := byte.toNat_lt
  have highRead := unhex_hexDigit (show byte.toNat / 16 < 16 by omega)
  have lowRead := unhex_hexDigit (show byte.toNat % 16 < 16 by omega)
  have whole : UInt8.ofNat (16 * (byte.toNat / 16) + byte.toNat % 16) = byte := by
    rw [Nat.div_add_mod]
    exact UInt8.ofNat_toNat
  rw [unescape, if_pos rfl]
  simp only [highRead, lowRead, Option.bind_eq_bind, Option.bind_some, whole]
  cases unescape rest <;> rfl

variable {plain : UInt8 → Bool}

theorem unescape_escape_append (marked : plain percent = false) (text rest : Bytes) :
    unescape (escape plain text ++ rest) = (unescape rest).map (text ++ ·) := by
  induction text with
  | nil => simp [escape]
  | cons byte text ih =>
    have split : escape plain (byte :: text) ++ rest =
        escapeByte plain byte ++ (escape plain text ++ rest) := by
      simp [escape]
    have read : unescape (escapeByte plain byte ++ (escape plain text ++ rest)) =
        (unescape (escape plain text ++ rest)).map (byte :: ·) := by
      unfold escapeByte
      split
      · rename_i isPlain
        apply unescape_cons
        intro same
        simp [same, marked] at isPlain
      · exact unescape_percent byte _
    rw [split, read, ih]
    simp [Function.comp_def]

theorem unescape_escape (marked : plain percent = false) (text : Bytes) :
    unescape (escape plain text) = some text := by
  have read := unescape_escape_append marked text []
  simpa [unescape] using read

theorem escape_eq_self {text : Bytes} (isPlain : ∀ byte ∈ text, plain byte = true) :
    escape plain text = text := by
  induction text with
  | nil => rfl
  | cons byte text ih =>
    have first := isPlain byte (by simp)
    have rest := ih fun other mem => isPlain other (by simp [mem])
    simp only [escape] at rest
    simp [escape, escapeByte, first, rest]

theorem forall_mem_escape {property : UInt8 → Prop} (ofPlain : ∀ byte, plain byte → property byte)
    (ofPercent : property percent) (ofDigit : ∀ value < 16, property (hexDigit value))
    (text : Bytes) : ∀ byte ∈ escape plain text, property byte := by
  intro byte mem
  obtain ⟨origin, -, written⟩ := List.mem_flatMap.mp mem
  have bounded : origin.toNat < 256 := origin.toNat_lt
  unfold escapeByte at written
  split at written
  · rw [List.mem_singleton.mp written]
    apply ofPlain
    assumption
  · simp only [List.mem_cons, List.not_mem_nil, or_false] at written
    rcases written with same | same | same
    · exact same ▸ ofPercent
    · exact same ▸ ofDigit _ (by omega)
    · exact same ▸ ofDigit _ (by omega)

variable {mark : UInt8}

theorem intercalate_append_cons (front piece : Bytes) (pieces : List Bytes) :
    [mark].intercalate ((front ++ piece) :: pieces) =
      front ++ [mark].intercalate (piece :: pieces) := by
  cases pieces with
  | nil => simp
  | cons next pieces => simp [List.append_assoc]

theorem intercalate_escape_splitOn (text : Bytes) :
    [mark].intercalate ((text.splitOn mark).map (escape plain)) =
      escape (fun byte => plain byte || byte == mark) text := by
  induction text with
  | nil => simp [escape]
  | cons byte text ih =>
    rw [List.splitOn_cons_eq_if_modifyHead]
    have some := List.splitOn_ne_nil mark text
    by_cases isMark : byte = mark
    · have ofMark : escape (fun byte => plain byte || byte == mark) (byte :: text) =
          [mark] ++ escape (fun byte => plain byte || byte == mark) text := by
        simp [escape, escapeByte, isMark]
      rw [if_pos (by simp [isMark]), ofMark, ← ih, List.map_cons,
        List.intercalate_cons_of_ne_nil (by simp)]
      simp [escape]
    · have ofByte : escape (fun byte => plain byte || byte == mark) (byte :: text) =
          escapeByte plain byte ++ escape (fun byte => plain byte || byte == mark) text := by
        simp [escape, escapeByte, isMark]
      rw [if_neg (by simp [isMark]), ofByte, ← ih]
      cases cut : text.splitOn mark with
      | nil => exact absurd cut some
      | cons piece pieces =>
        rw [List.modifyHead_cons, List.map_cons, List.map_cons, ← intercalate_append_cons]
        simp [escape]

end Percent
