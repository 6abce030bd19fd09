import Aavishield.Dlp.JsonText
import Aavishield.Lib.ByteText

/-!
# The weight of a value

How many bytes a text of JSON needs for a value at least: those of its strings and keys, and the
quotes and brackets around them.  A value that was read weighs no more than its text, so a string
that is a text of JSON itself weighs more than the value in it.
-/

namespace Aavishield.Dlp

open ByteText

mutual

def Json.weight : Json → ℕ
  | .null | .bool _ | .number _ => 1
  | .string text => byteLength text + 2
  | .array items => weightItems items + 2
  | .object fields => weightFields fields + 2

def weightItems : List Json → ℕ
  | [] => 0
  | item :: rest => item.weight + weightItems rest

def weightFields : List (List Char × Json) → ℕ
  | [] => 0
  | (key, child) :: rest => byteLength key + child.weight + weightFields rest

end

variable {text rest : List Char} {fuel : ℕ}

theorem byteLength_le_of_suffix {short : List Char} (isSuffix : short <:+ text) :
    byteLength short ≤ byteLength text := by
  obtain ⟨front, rfl⟩ := isSuffix
  rw [byteLength_append]
  omega

theorem byteLength_skipJsonSpace (text : List Char) :
    byteLength (skipJsonSpace text) ≤ byteLength text :=
  byteLength_le_of_suffix (List.dropWhile_suffix _)

theorem readUnit_le {unit : ℕ} (read : readUnit text = some (unit, rest)) :
    4 + byteLength rest ≤ byteLength text := by
  unfold readUnit at read
  split at read
  next a b c d remaining =>
    obtain ⟨digits, -, same⟩ := Option.bind_eq_some_iff.mp read
    cases same
    have sizes := And.intro a.utf8Size_pos (And.intro b.utf8Size_pos
      (And.intro c.utf8Size_pos d.utf8Size_pos))
    simp only [byteLength]
    omega
  next => cases read

theorem readUnits_le {letter : Char} (read : readUnits text = some (letter, rest)) :
    letter.utf8Size + byteLength rest ≤ byteLength text := by
  have size := letter.utf8Size_le_four
  unfold readUnits at read
  obtain ⟨⟨unit, afterUnit⟩, first, read⟩ := Option.bind_eq_some_iff.mp read
  have firstLe := readUnit_le first
  dsimp only at read
  split at read
  · split at read
    next remaining =>
      obtain ⟨⟨low, afterLow⟩, second, read⟩ := Option.bind_eq_some_iff.mp read
      have secondLe := readUnit_le second
      dsimp only at read
      split at read
      · obtain rfl : afterLow = rest := congrArg Prod.snd (Option.some.inj read)
        simp only [byteLength] at firstLe
        omega
      · cases read
    next => cases read
  · split at read
    · cases read
    · obtain rfl : afterUnit = rest := congrArg Prod.snd (Option.some.inj read)
      omega

theorem readEscape_le {letter : Char} (read : readEscape text = some (letter, rest)) :
    letter.utf8Size + byteLength rest ≤ byteLength text := by
  unfold readEscape at read
  split at read
  case h_9 remaining =>
    have unitsLe := readUnits_le read
    simp only [byteLength]
    omega
  case h_10 => cases read
  all_goals
    cases read
    exact Nat.le_refl _

theorem readString_le {string : List Char} (read : readString fuel text = some (string, rest)) :
    byteLength string + byteLength rest + 1 ≤ byteLength text := by
  induction fuel generalizing text string rest with
  | zero => cases read
  | succ fuel ih =>
    cases text with
    | nil => cases read
    | cons letter text =>
      have positive := letter.utf8Size_pos
      rw [readString] at read
      split_ifs at read with isQuote isBackslash isControl
      · cases read
        simp only [byteLength]
        omega
      · obtain ⟨⟨escaped, afterEscape⟩, first, read⟩ := Option.bind_eq_some_iff.mp read
        obtain ⟨⟨others, afterOthers⟩, second, same⟩ := Option.bind_eq_some_iff.mp read
        cases same
        have firstLe := readEscape_le first
        have secondLe := ih second
        simp only [byteLength]
        omega
      · obtain ⟨⟨others, afterOthers⟩, second, same⟩ := Option.bind_eq_some_iff.mp read
        cases same
        have secondLe := ih second
        simp only [byteLength]
        omega

theorem byteLength_drop_of_isPrefixOf {start : List Char}
    (isPrefix : start.isPrefixOf text = true) :
    byteLength start + byteLength (text.drop start.length) = byteLength text := by
  obtain ⟨remaining, rfl⟩ := List.isPrefixOf_iff_prefix.mp isPrefix
  rw [List.drop_left, byteLength_append]

variable {value : Json}

theorem readNumber_le (read : readNumber text = some (value, rest)) :
    value.weight + byteLength rest ≤ byteLength text := by
  simp only [readNumber] at read
  split at read
  next isLiteral =>
    cases read
    have split := @List.takeWhile_append_dropWhile _ isNumberLetter text
    have nonempty : text.takeWhile isNumberLetter ≠ [] := by
      intro empty
      rw [empty] at isLiteral
      cases isLiteral
    have positive := byteLength_pos nonempty
    have whole := congrArg byteLength split
    rw [byteLength_append] at whole
    simp only [Json.weight]
    omega
  next => cases read

theorem readWord_le (read : readWord text = some (value, rest)) :
    value.weight + byteLength rest ≤ byteLength text := by
  have word {start : String} {value : Json} (isPrefix : start.toList.isPrefixOf text = true)
      (light : value.weight ≤ byteLength start.toList) :
      value.weight + byteLength (text.drop start.toList.length) ≤ byteLength text := by
    have whole := byteLength_drop_of_isPrefixOf isPrefix
    omega
  unfold readWord at read
  split_ifs at read with isNull isTrue isFalse
  · cases read
    exact word isNull (by decide)
  · cases read
    exact word isTrue (by decide)
  · cases read
    exact word isFalse (by decide)
  · exact readNumber_le read

theorem weight_read (fuel : ℕ) :
    (∀ text value rest, readValue fuel text = some (value, rest) →
      value.weight + byteLength rest ≤ byteLength text) ∧
    (∀ text items rest, readItems fuel text = some (items, rest) →
      weightItems items + byteLength rest + 1 ≤ byteLength text) ∧
    ∀ text fields rest, readFields fuel text = some (fields, rest) →
      weightFields fields + byteLength rest + 1 ≤ byteLength text := by
  induction fuel with
  | zero =>
    refine ⟨?_, ?_, ?_⟩ <;>
    · intro text result rest read
      cases read
  | succ fuel ih =>
    obtain ⟨valueLe, itemsLe, fieldsLe⟩ := ih
    refine ⟨?_, ?_, ?_⟩
    · intro text value rest read
      have skipped := byteLength_skipJsonSpace text
      rw [readValue] at read
      split at read
      next remaining shape =>
        obtain ⟨⟨string, after⟩, inString, same⟩ := Option.map_eq_some_iff.mp read
        cases same
        have stringLe := readString_le inString
        rw [shape] at skipped
        simp only [byteLength, Json.weight] at skipped ⊢
        have quote : '"'.utf8Size = 1 := rfl
        omega
      next remaining shape =>
        rw [shape] at skipped
        have bracket : '['.utf8Size = 1 := rfl
        split at read
        next closed inside =>
          cases read
          have inner := byteLength_skipJsonSpace remaining
          rw [inside] at inner
          have closing : ']'.utf8Size = 1 := rfl
          simp only [byteLength, Json.weight, weightItems] at skipped inner ⊢
          omega
        next =>
          obtain ⟨⟨items, after⟩, inItems, same⟩ := Option.map_eq_some_iff.mp read
          cases same
          have itemsLe := itemsLe _ _ _ inItems
          simp only [byteLength, Json.weight] at skipped ⊢
          omega
      next remaining shape =>
        rw [shape] at skipped
        have brace : '\x7b'.utf8Size = 1 := rfl
        split at read
        next closed inside =>
          cases read
          have inner := byteLength_skipJsonSpace remaining
          rw [inside] at inner
          have closing : '\x7d'.utf8Size = 1 := rfl
          simp only [byteLength, Json.weight, weightFields] at skipped inner ⊢
          omega
        next =>
          obtain ⟨⟨fields, after⟩, inFields, same⟩ := Option.map_eq_some_iff.mp read
          cases same
          have fieldsLe := fieldsLe _ _ _ inFields
          simp only [byteLength, Json.weight] at skipped ⊢
          omega
      next =>
        have wordLe := readWord_le read
        omega
    · intro text items rest read
      rw [readItems] at read
      obtain ⟨⟨item, after⟩, first, read⟩ := Option.bind_eq_some_iff.mp read
      have firstLe := valueLe _ _ _ first
      have skipped := byteLength_skipJsonSpace after
      dsimp only at read
      split at read
      next remaining shape =>
        cases read
        rw [shape] at skipped
        have bracket : ']'.utf8Size = 1 := rfl
        simp only [byteLength, weightItems] at skipped ⊢
        omega
      next remaining shape =>
        obtain ⟨⟨others, afterOthers⟩, second, same⟩ := Option.bind_eq_some_iff.mp read
        cases same
        have secondLe := itemsLe _ _ _ second
        rw [shape] at skipped
        simp only [byteLength, weightItems] at skipped ⊢
        omega
      next => cases read
    · intro text fields rest read
      have skipped := byteLength_skipJsonSpace text
      rw [readFields] at read
      split at read
      next remaining shape =>
        obtain ⟨⟨key, afterKey⟩, inKey, read⟩ := Option.bind_eq_some_iff.mp read
        have keyLe := readString_le inKey
        have beforeColon := byteLength_skipJsonSpace afterKey
        rw [shape] at skipped
        dsimp only at read
        split at read
        next afterColon colon =>
          obtain ⟨⟨child, after⟩, inChild, read⟩ := Option.bind_eq_some_iff.mp read
          have childLe := valueLe _ _ _ inChild
          have beforeEnd := byteLength_skipJsonSpace after
          rw [colon] at beforeColon
          dsimp only at read
          split at read
          next remaining ending =>
            cases read
            rw [ending] at beforeEnd
            simp only [byteLength, weightFields] at skipped beforeColon beforeEnd ⊢
            omega
          next remaining comma =>
            obtain ⟨⟨others, afterOthers⟩, inOthers, same⟩ := Option.bind_eq_some_iff.mp read
            cases same
            have othersLe := fieldsLe _ _ _ inOthers
            rw [comma] at beforeEnd
            simp only [byteLength, weightFields] at skipped beforeColon beforeEnd ⊢
            omega
          next => cases read
        next => cases read
      next => cases read

theorem weight_readJson (read : readJson text = some value) :
    value.weight ≤ byteLength text := by
  obtain ⟨⟨whole, after⟩, inText, read⟩ := Option.bind_eq_some_iff.mp read
  have wholeLe := (weight_read _).1 _ _ _ inText
  dsimp only at read
  split_ifs at read
  cases read
  omega

theorem weightFields_insertField (key : List Char) (value : Json) (held : List (List Char × Json)) :
    weightFields (insertField key value held) ≤
      byteLength key + value.weight + weightFields held := by
  induction held with
  | nil => exact Nat.le_refl _
  | cons field held ih =>
    obtain ⟨other, child⟩ := field
    rw [insertField]
    split_ifs
    · simp only [weightFields]
      omega
    · exact Nat.le_refl _
    · simp only [weightFields]
      omega

variable {serde : SerdeJson}

mutual

theorem weight_kept : ∀ value held : Json, serde.kept value = some held → held.weight ≤ value.weight
  | .null, _, isKept | .bool _, _, isKept | .string _, _, isKept => by
    cases isKept
    exact Nat.le_refl _
  | .number _, _, isKept => by
    obtain ⟨printed, -, rfl⟩ := Option.map_eq_some_iff.mp isKept
    exact Nat.le_refl _
  | .array items, _, isKept => by
    obtain ⟨held, keptItems, rfl⟩ := Option.map_eq_some_iff.mp isKept
    have itemsLe := weight_keptItems items held keptItems
    simp only [Json.weight]
    omega
  | .object fields, _, isKept => by
    obtain ⟨held, keptFields, rfl⟩ := Option.map_eq_some_iff.mp isKept
    have fieldsLe := weight_keptFields fields [] held keptFields
    simp only [Json.weight, weightFields] at fieldsLe ⊢
    omega

theorem weight_keptItems : ∀ items held : List Json, serde.keptItems items = some held →
    weightItems held ≤ weightItems items
  | [], _, isKept => by
    cases isKept
    exact Nat.le_refl _
  | item :: rest, _, isKept => by
    obtain ⟨first, keptFirst, isKept⟩ := Option.bind_eq_some_iff.mp isKept
    obtain ⟨others, keptOthers, same⟩ := Option.bind_eq_some_iff.mp isKept
    cases same
    have firstLe := weight_kept item first keptFirst
    have othersLe := weight_keptItems rest others keptOthers
    simp only [weightItems]
    omega

theorem weight_keptFields : ∀ (fields held all : List (List Char × Json)),
    serde.keptFields held fields = some all →
      weightFields all ≤ weightFields held + weightFields fields
  | [], _, _, isKept => by
    cases isKept
    exact Nat.le_add_right _ _
  | (key, child) :: rest, held, all, isKept => by
    obtain ⟨value, keptChild, isKept⟩ := Option.bind_eq_some_iff.mp isKept
    have childLe := weight_kept child value keptChild
    have restLe := weight_keptFields rest _ all isKept
    have inserted := weightFields_insertField key value held
    simp only [weightFields]
    omega

end

theorem weight_parse (read : serde.parse text = some value) :
    value.weight ≤ byteLength text := by
  obtain ⟨whole, inText, read⟩ := Option.bind_eq_some_iff.mp read
  split_ifs at read
  have wholeLe := weight_readJson inText
  have keptLe := weight_kept whole value read
  omega

end Aavishield.Dlp
