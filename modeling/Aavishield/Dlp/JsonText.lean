import Aavishield.Dlp.TextFiles

/-!
# JSON texts

What a text of JSON says: its value, with the keys and the numbers as they are written.  The
reader of the `serde_json` crate keeps the last of several fields with one key, keeps numbers
by their values and refuses values that are nested too deep.
-/

namespace Aavishield.Dlp

open Text

def isJsonSpace (letter : Char) : Bool := letter ∈ [' ', '\t', '\n', '\r']

def skipJsonSpace (text : List Char) : List Char := text.dropWhile isJsonSpace

def hexDigit (letter : Char) : Option ℕ :=
  if letter.isDigit then some (letter.toNat - '0'.toNat)
  else if 'a' ≤ letter ∧ letter ≤ 'f' then some (letter.toNat - 'a'.toNat + 10)
  else if 'A' ≤ letter ∧ letter ≤ 'F' then some (letter.toNat - 'A'.toNat + 10)
  else none

def readUnit : List Char → Option (ℕ × List Char)
  | a :: b :: c :: d :: rest => do
    let digits ← [a, b, c, d].mapM hexDigit
    return (digits.foldl (fun number digit => 16 * number + digit) 0, rest)
  | _ => none

def isLeadingUnit (unit : ℕ) : Bool := 0xd800 ≤ unit ∧ unit < 0xdc00

def isTrailingUnit (unit : ℕ) : Bool := 0xdc00 ≤ unit ∧ unit < 0xe000

def readUnits (text : List Char) : Option (Char × List Char) := do
  let (unit, rest) ← readUnit text
  if isLeadingUnit unit then
    match rest with
    | '\\' :: 'u' :: rest =>
      let (low, rest) ← readUnit rest
      if isTrailingUnit low then
        return (Char.ofNat (0x10000 + 0x400 * (unit - 0xd800) + (low - 0xdc00)), rest)
      else none
    | _ => none
  else if isTrailingUnit unit then none
  else return (Char.ofNat unit, rest)

def readEscape : List Char → Option (Char × List Char)
  | '"' :: rest => some ('"', rest)
  | '\\' :: rest => some ('\\', rest)
  | '/' :: rest => some ('/', rest)
  | 'b' :: rest => some ('\x08', rest)
  | 'f' :: rest => some ('\x0c', rest)
  | 'n' :: rest => some ('\n', rest)
  | 'r' :: rest => some ('\r', rest)
  | 't' :: rest => some ('\t', rest)
  | 'u' :: rest => readUnits rest
  | _ => none

def readString : ℕ → List Char → Option (List Char × List Char)
  | 0, _ => none
  | _ + 1, [] => none
  | fuel + 1, letter :: rest =>
    if letter = '"' then some ([], rest)
    else if letter = '\\' then do
      let (escaped, rest) ← readEscape rest
      let (string, rest) ← readString fuel rest
      return (escaped :: string, rest)
    else if letter.toNat < 0x20 then none
    else do
      let (string, rest) ← readString fuel rest
      return (letter :: string, rest)

def isExponent : List Char → Bool
  | [] => true
  | mark :: rest =>
    let digits :=
      match rest with
      | '+' :: digits => digits
      | '-' :: digits => digits
      | digits => digits
    (mark = 'e' ∨ mark = 'E') ∧ digits ≠ [] ∧ digits.all Char.isDigit

def isFraction : List Char → Bool
  | '.' :: rest => rest.takeWhile Char.isDigit ≠ [] ∧ isExponent (rest.dropWhile Char.isDigit)
  | rest => isExponent rest

def isNumber (literal : List Char) : Bool :=
  let unsigned := if literal.head? = some '-' then literal.drop 1 else literal
  let whole := unsigned.takeWhile Char.isDigit
  whole ≠ [] ∧ (whole.head? = some '0' → whole.length = 1) ∧
    isFraction (unsigned.dropWhile Char.isDigit)

def isNumberLetter (letter : Char) : Bool := letter.isDigit || letter ∈ ['-', '+', '.', 'e', 'E']

def readNumber (text : List Char) : Option (Json × List Char) :=
  let literal := text.takeWhile isNumberLetter
  if isNumber literal then some (.number literal, text.dropWhile isNumberLetter) else none

def readWord (text : List Char) : Option (Json × List Char) :=
  if "null".toList.isPrefixOf text then some (.null, text.drop 4)
  else if "true".toList.isPrefixOf text then some (.bool true, text.drop 4)
  else if "false".toList.isPrefixOf text then some (.bool false, text.drop 5)
  else readNumber text

mutual

def readValue : ℕ → List Char → Option (Json × List Char)
  | 0, _ => none
  | fuel + 1, text =>
    match skipJsonSpace text with
    | '"' :: rest => (readString (rest.length + 1) rest).map fun (string, rest) =>
      (.string string, rest)
    | '[' :: rest =>
      match skipJsonSpace rest with
      | ']' :: rest => some (.array [], rest)
      | _ => (readItems fuel rest).map fun (items, rest) => (.array items, rest)
    | '\x7b' :: rest =>
      match skipJsonSpace rest with
      | '\x7d' :: rest => some (.object [], rest)
      | _ => (readFields fuel rest).map fun (fields, rest) => (.object fields, rest)
    | rest => readWord rest

def readItems : ℕ → List Char → Option (List Json × List Char)
  | 0, _ => none
  | fuel + 1, text => do
    let (item, rest) ← readValue fuel text
    match skipJsonSpace rest with
    | ']' :: rest => return ([item], rest)
    | ',' :: rest =>
      let (items, rest) ← readItems fuel rest
      return (item :: items, rest)
    | _ => none

def readFields : ℕ → List Char → Option (List (List Char × Json) × List Char)
  | 0, _ => none
  | fuel + 1, text =>
    match skipJsonSpace text with
    | '"' :: rest => do
      let (key, rest) ← readString (rest.length + 1) rest
      match skipJsonSpace rest with
      | ':' :: rest =>
        let (value, rest) ← readValue fuel rest
        match skipJsonSpace rest with
        | '\x7d' :: rest => return ([(key, value)], rest)
        | ',' :: rest =>
          let (fields, rest) ← readFields fuel rest
          return ((key, value) :: fields, rest)
        | _ => none
      | _ => none
    | _ => none

end

/-- The value of a JSON text.  A call of the reader goes two levels down for a letter at most. -/
def readJson (text : List Char) : Option Json := do
  let (value, rest) ← readValue (2 * text.length + 2) text
  if skipJsonSpace rest = [] then some value else none

/-- What is left open of `serde_json`. -/
structure SerdeJson where
  printed : List Char → Option (List Char)
  maxDepth : ℕ

mutual

def Json.depth : Json → ℕ
  | .array items => depthItems items + 1
  | .object fields => depthFields fields + 1
  | _ => 0

def depthItems : List Json → ℕ
  | [] => 0
  | item :: rest => max item.depth (depthItems rest)

def depthFields : List (List Char × Json) → ℕ
  | [] => 0
  | (_, child) :: rest => max child.depth (depthFields rest)

end

def insertField (key : List Char) (value : Json) :
    List (List Char × Json) → List (List Char × Json)
  | [] => [(key, value)]
  | (other, held) :: rest =>
    if key = other then (key, value) :: rest
    else if key < other then (key, value) :: (other, held) :: rest
    else (other, held) :: insertField key value rest

namespace SerdeJson

variable (serde : SerdeJson)

mutual

def kept : Json → Option Json
  | .null => some .null
  | .bool value => some (.bool value)
  | .number literal => (serde.printed literal).map .number
  | .string text => some (.string text)
  | .array items => (keptItems items).map .array
  | .object fields => (keptFields [] fields).map .object

def keptItems : List Json → Option (List Json)
  | [] => some []
  | item :: rest => do return (← kept item) :: (← keptItems rest)

def keptFields (held : List (List Char × Json)) :
    List (List Char × Json) → Option (List (List Char × Json))
  | [] => some held
  | (key, child) :: rest => do
    let value ← kept child
    keptFields (insertField key value held) rest

end

/-- `serde_json::from_str`. -/
def parse (text : List Char) : Option Json := do
  let value ← readJson text
  if value.depth ≤ serde.maxDepth then serde.kept value else none

def reads (libs : Libraries) : Libraries := { libs with parseJson := serde.parse }

end SerdeJson

end Aavishield.Dlp
