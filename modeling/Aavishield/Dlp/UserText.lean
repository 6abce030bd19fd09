import Aavishield.Dlp.Forms
import Aavishield.Dlp.JsonWeight

/-!
# User text

What a person wrote, out of the body of a request: the strings of a JSON body or of the fields of
a form.  What stands under a key of the request's plumbing is left out, and so is what looks like
an encoded blob, unless it stands under a key for content.
-/

namespace Aavishield.UserText

open Dlp Text ByteText

def maxUserText : ℕ := 1024 * 1024

def contentKeys : List String :=
  ["content", "text", "message", "messages", "body", "prompt", "parts", "subject", "comment",
    "description", "title", "query", "input", "html", "plaintext", "caption", "note", "notes",
    "richtext", "markdown"]

def plumbingKeys : List String :=
  ["id", "uuid", "guid", "token", "nonce", "csrf", "xsrf", "signature", "sig", "hash", "checksum",
    "etag", "cursor", "session", "timestamp", "ts", "time", "version", "v", "at", "ik", "key",
    "secret", "auth", "authorization", "state", "code", "challenge", "fingerprint", "cookie",
    "trace", "span", "sequence", "seq", "offset", "rev", "revision", "locale", "lang", "timezone",
    "tz", "platform", "useragent"]

def wordsEndingInId : List String :=
  ["android", "paid", "unpaid", "prepaid", "valid", "invalid", "void", "avoid", "liquid", "fluid",
    "rapid", "hybrid", "solid", "vivid", "acid", "grid", "said", "raid", "bid", "kid", "lid",
    "mid", "did", "squid", "humid", "cupid", "candid", "splendid", "timid", "lucid", "pyramid",
    "aid", "maid", "braid", "druid"]

def plumbingEndings : List String :=
  ["token", "hash", "nonce", "secret", "signature", "timestamp", "_at", "_ts", "uuid", "guid"]

def stripSuffix (ending : String) (text : List Char) : Option (List Char) :=
  if ending.toList.isSuffixOf text then some (text.take (text.length - ending.toList.length))
  else none

def isPlumbingKey (key : List Char) : Bool :=
  let lower := key.map Char.toLower
  let bare := lower.filter Char.isAlphanum
  let stem := (stripSuffix "ids" bare).or (stripSuffix "id" bare)
  decide (bare ∈ plumbingKeys.map String.toList) ||
    stem.any (fun stem => decide (stem ≠ [] ∧ bare ∉ wordsEndingInId.map String.toList)) ||
    plumbingEndings.any fun ending => ending.toList.isSuffixOf lower

def isContentKey (key : List Char) : Bool :=
  decide (key.map Char.toLower ∈ contentKeys.map String.toList)

def looksLikeOpaqueBlob (text : List Char) : Bool :=
  let text := trimSpace text
  decide (24 ≤ byteLength text) && !text.any isSpace &&
    text.all fun letter => letter.isAlphanum || letter ∈ "+/=_-.:%".toList

def pushString (text : List Char) (key : Option (List Char)) (inContent : Bool)
    (out : List Char) : List Char :=
  let content := inContent || key.any isContentKey
  if trimSpace text = [] ∨ (content = false ∧ looksLikeOpaqueBlob text = true) then out
  else out ++ text ++ ['\n']

def beginsJson (text : List Char) : Bool :=
  ['\x7b'].isPrefixOf text || ['['].isPrefixOf text

variable (libs : Libraries)

def nestedJson (text : List Char) : Option Json :=
  let start := text.dropWhile isSpace
  if beginsJson start = true ∧ 1 < byteLength start then libs.parseJson text else none

def collectJson : ℕ → Json → Option (List Char) → Bool → List Char → List Char
  | 0, _, _, _, out => out
  | fuel + 1, value, key, inContent, out =>
    if maxUserText < byteLength out then out
    else
      match value with
      | .string text =>
        match nestedJson libs text with
        | some inner => collectJson fuel inner key inContent out
        | none => pushString text key inContent out
      | .array items =>
        items.foldl (fun out item => collectJson fuel item key inContent out) out
      | .object fields =>
        fields.foldl (fun out (name, child) =>
          if isPlumbingKey name then out
          else collectJson fuel child (some name) (inContent || isContentKey name) out) out
      | .null | .bool _ | .number _ => out

variable {libs} in
theorem collectJson_succ {fuel : ℕ} {value : Json} {key : Option (List Char)} {inContent : Bool}
    {out : List Char} :
    collectJson libs (fuel + 1) value key inContent out =
      if maxUserText < byteLength out then out
      else
        match value with
        | .string text =>
          match nestedJson libs text with
          | some inner => collectJson libs fuel inner key inContent out
          | none => pushString text key inContent out
        | .array items =>
          items.foldl (fun out item => collectJson libs fuel item key inContent out) out
        | .object fields =>
          fields.foldl (fun out (name, child) =>
            if isPlumbingKey name then out
            else collectJson libs fuel child (some name) (inContent || isContentKey name)
              out) out
        | .null | .bool _ | .number _ => out := by
  rw [collectJson.eq_def]

def fieldJson (text : List Char) : Option Json :=
  if beginsJson (text.dropWhile isSpace) then libs.parseJson text else none

def collectValue (text : List Char) (key : Option (List Char)) (inContent : Bool)
    (out : List Char) : List Char :=
  if key.any isPlumbingKey then out
  else
    match fieldJson libs text with
    | some value => collectJson libs (value.weight + 1) value key inContent out
    | none => pushString text key inContent out

/-- Cuts at a character (`String::truncate`). -/
def cap (text : List Char) : List Char :=
  if maxUserText < byteLength text then takeBytes text (floorCharBoundary text maxUserText)
  else text

def collectForm (body : Bytes) (out : List Char) : List Char :=
  (libs.parseForm body).foldl (fun out (key, value) =>
    collectValue libs value (some key) false out) out

def fromSlice (body : Bytes) : Option Json := (decodeUtf8 body).bind libs.parseJson

def bodyJson (ct : List Char) (body : Bytes) : Option Json :=
  let trimmed := body.dropWhile isAsciiWhitespace
  if contains ct "json".toList = true ∨ (bytesOf "\x7b").isPrefixOf trimmed = true ∨
      (bytesOf "[").isPrefixOf trimmed = true then fromSlice libs body
  else none

def isControl (letter : Char) : Bool :=
  decide (letter.toNat < 0x20 ∨ 0x7f ≤ letter.toNat ∧ letter.toNat < 0xa0)

def userText (ct rawCt : List Char) (body : Bytes) : List Char :=
  match bodyJson libs ct body with
  | some value => cap (collectJson libs (value.weight + 1) value none false [])
  | none =>
    if ct = "application/x-www-form-urlencoded".toList then cap (collectForm libs body [])
    else if "multipart/".toList.isPrefixOf ct then
      match multipartBoundary rawCt with
      | none => cap []
      | some boundary =>
        cap ((multipartParts libs body boundary).foldl (fun out part =>
          if part.filename.isSome then out
          else collectValue libs (libs.fromUtf8Lossy part.data) (some part.name)
            false out) [])
    else if "text/".toList.isPrefixOf ct ∨ ct = [] then
      let text := libs.fromUtf8Lossy body
      -- A body with many control characters is no text.
      if (text.filter fun letter => isControl letter && !isSpace letter).length * 20 <
          max (byteLength text) 1 then cap text
      else cap []
    else cap []

end Aavishield.UserText
