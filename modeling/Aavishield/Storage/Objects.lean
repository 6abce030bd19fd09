import Aavishield.Storage.S3

/-!
# Where an object is asked for

The path of a request is escaped once, and what Go reads from the address comes out as it was
written.  Hence every method of a key goes to one host, by one path.
-/

namespace Aavishield.Storage

open Percent SigV4

theorem not_isSlash_of_mem_host {host : Host} {byte : UInt8} (mem : byte ∈ host.text) :
    isSlash byte = false := by
  rcases host.mem_text mem with plain | rfl
  · by_contra slashed
    rw [Bool.not_eq_false, isSlash, beq_iff_eq] at slashed
    rw [slashed] at plain
    revert plain
    decide
  · decide

theorem Host.text_ne_nil (host : Host) : host.text ≠ [] := by simp [Host.text, host.named]

theorem rdropWhile_slashes {text : Bytes} (slashes : ℕ)
    (last : ∀ byte, text.getLast? = some byte → isSlash byte = false) :
    (text ++ List.replicate slashes slash).rdropWhile isSlash = text := by
  induction slashes with
  | zero =>
    rw [List.replicate_zero, List.append_nil, List.rdropWhile_eq_self_iff]
    intro ne
    simp [last _ (List.getLast?_eq_getLast_of_ne_nil ne)]
  | succ slashes ih =>
    rw [List.replicate_succ', ← List.append_assoc, List.rdropWhile_concat_pos _ _ _ (by rfl), ih]

def Endpoint.reached (endpoint : Endpoint) : Scheme := endpoint.scheme.getD .https

theorem endpointURL_newS3 (cfg : S3Config) :
    (newS3 cfg).endpointURL.scheme = cfg.endpoint.reached.text ∧
      (newS3 cfg).endpointURL.host = cfg.endpoint.host.text := by
  have written := cfg.endpoint.host.text_ne_nil
  have ends : ∀ before byte, (before ++ cfg.endpoint.host.text).getLast? = some byte →
      isSlash byte = false := by
    intro before byte last
    rw [List.getLast?_append_of_ne_nil _ written] at last
    exact not_isSlash_of_mem_host (List.mem_of_mem_getLast? last)
  cases given : cfg.endpoint.scheme with
  | none =>
    have text : (newS3 cfg).endpoint = cfg.endpoint.host.text := by
      have trimmed := rdropWhile_slashes cfg.endpoint.slashes (ends [])
      simpa [newS3, Endpoint.text, given] using trimmed
    have plain : slash ∉ (newS3 cfg).endpoint := by
      rw [text]
      intro mem
      simpa [isSlash] using not_isSlash_of_mem_host mem
    unfold Backend.endpointURL
    split
    · rename_i u read
      rw [if_pos (host_of_parse plain read)]
      simp [Endpoint.reached, given, Scheme.text, text]
    · simp [Endpoint.reached, given, Scheme.text, text]
  | some scheme =>
    have text : (newS3 cfg).endpoint = scheme.text ++ ascii "://" ++ cfg.endpoint.host.text := by
      have trimmed := rdropWhile_slashes cfg.endpoint.slashes (ends (scheme.text ++ ascii "://"))
      simpa [newS3, Endpoint.text, given] using trimmed
    have read := @parse_address scheme cfg.endpoint.host [] [] [] (by simp) (by simp) (by simp)
      (by simp) rfl
    rw [List.append_nil, List.append_nil, ← text] at read
    unfold Backend.endpointURL
    simp [read, written, Endpoint.reached, given]

def S3Config.host (cfg : S3Config) : Host :=
  if cfg.pathStyle then cfg.endpoint.host
  else {
    name := cfg.bucket ++ ascii "." ++ cfg.endpoint.host.name
    port := cfg.endpoint.host.port
    named := by simp [cfg.endpoint.host.named]
    isName := by
      intro byte mem
      simp only [List.mem_append] at mem
      rcases mem with (inBucket | inDot) | inName
      · exact cfg.isBucket byte inBucket
      · revert byte
        exact List.all_eq_true.mp rfl
      · exact cfg.endpoint.host.isName byte inName
    isPort := cfg.endpoint.host.isPort }

def S3Config.objectPath (cfg : S3Config) (key : Bytes) : Bytes :=
  (if cfg.pathStyle then slash :: cfg.bucket else []) ++ slash ::
    ((if cfg.keyPrefix = [] then []
      else (cfg.keyPrefix.dropWhile isSlash).rdropWhile isSlash ++ [slash]) ++ key)

/-- A key without a leading slash. -/
structure Key where
  bytes : Bytes
  rootless : bytes.head? ≠ some slash

theorem Key.dropWhile_bytes (key : Key) : key.bytes.dropWhile isSlash = key.bytes := by
  have rootless := key.rootless
  cases same : key.bytes with
  | nil => rfl
  | cons byte rest =>
    rw [same] at rootless
    simp only [List.head?_cons, ne_eq, Option.some.injEq] at rootless
    simp [isSlash, rootless]

theorem objectPath_injective (cfg : S3Config) : Function.Injective cfg.objectPath := by
  intro first second same
  simpa [S3Config.objectPath] using same

theorem s3EscapePath_eq (key : Bytes) : s3EscapePath key = uriEncodePath key :=
  intercalate_escape_splitOn key

theorem uriEncodePath_append (first second : Bytes) :
    uriEncodePath (first ++ second) = uriEncodePath first ++ uriEncodePath second :=
  List.flatMap_append

theorem location_newS3 (cfg : S3Config) (key : Key) :
    (newS3 cfg).location key.bytes = {
      base := cfg.endpoint.reached.text ++ ascii "://" ++ cfg.host.text
      host := cfg.host.text
      path := uriEncodePath (cfg.objectPath key.bytes) } := by
  obtain ⟨scheme, host⟩ := endpointURL_newS3 cfg
  have plainBucket : uriEncodePath cfg.bucket = cfg.bucket := by
    apply escape_eq_self
    intro byte mem
    simp [cfg.isBucket byte mem]
  have ofSlash : uriEncodePath [slash] = [slash] := by decide
  have full : (newS3 cfg).fullKey key.bytes =
      (if cfg.keyPrefix = [] then []
        else (cfg.keyPrefix.dropWhile isSlash).rdropWhile isSlash ++ [slash]) ++ key.bytes := by
    unfold Backend.fullKey
    rw [key.dropWhile_bytes]
    by_cases bare : cfg.keyPrefix = [] <;> simp [newS3, bare]
  have path : uriEncodePath (cfg.objectPath key.bytes) =
      (if cfg.pathStyle then slash :: cfg.bucket else []) ++ slash ::
        uriEncodePath ((newS3 cfg).fullKey key.bytes) := by
    have cons : ∀ text, uriEncodePath (slash :: text) = slash :: uriEncodePath text := by
      intro text
      rw [← List.singleton_append, uriEncodePath_append, ofSlash, List.singleton_append]
    rw [S3Config.objectPath, uriEncodePath_append, cons, full]
    by_cases styled : cfg.pathStyle = true
    · rw [if_pos styled, cons, plainBucket]
    · rw [if_neg styled]
      rfl
  have style : (newS3 cfg).pathStyle = cfg.pathStyle := rfl
  have bucket : (newS3 cfg).bucket = cfg.bucket := rfl
  simp only [Backend.location, scheme, host, style, bucket]
  rw [path, ← s3EscapePath_eq]
  by_cases styled : cfg.pathStyle = true
  · simp [S3Config.host, styled]
  · simp [S3Config.host, styled, Host.text]

theorem isWritten_uriEncodePath (text : Bytes) : ∀ byte ∈ uriEncodePath text, isWritten byte = true := by
  apply @forall_mem_escape _ (isWritten · = true)
  · intro byte plain
    simp [isWritten, plain]
  · decide
  · intro value small
    simp [isWritten, isUnreserved_hexDigit small]

theorem unescape_uriEncodePath (text : Bytes) : unescape (uriEncodePath text) = some text :=
  unescape_escape (by decide) text

def S3Config.objectURL (cfg : S3Config) (key : Key) (rawQuery : Bytes) : URL where
  scheme := cfg.endpoint.reached.text
  host := cfg.host.text
  path := cfg.objectPath key.bytes
  rawPath :=
    if escapePath (cfg.objectPath key.bytes) = uriEncodePath (cfg.objectPath key.bytes) then []
    else uriEncodePath (cfg.objectPath key.bytes)
  rawQuery

theorem head?_uriEncodePath (cfg : S3Config) (key : Bytes) :
    (uriEncodePath (cfg.objectPath key)).head? = some slash := by
  have cons : ∀ text, (uriEncodePath (slash :: text)).head? = some slash := by
    intro text
    simp [uriEncodePath, escape, escapeByte]
  unfold S3Config.objectPath
  by_cases styled : cfg.pathStyle = true
  · simp only [styled, if_true, List.cons_append]
    exact cons _
  · simp only [styled, Bool.false_eq_true, if_false, List.nil_append]
    exact cons _

theorem escapedPath_objectURL (cfg : S3Config) (key : Key) (rawQuery : Bytes) :
    (cfg.objectURL key rawQuery).escapedPath = uriEncodePath (cfg.objectPath key.bytes) :=
  escapedPath_of_written (isWritten_uriEncodePath _) (head?_uriEncodePath cfg key.bytes)
    (unescape_uriEncodePath _) rfl

theorem removeEmptyPort_text (host : Host) : removeEmptyPort host.text = host.text := by
  rw [removeEmptyPort, if_neg]
  intro last
  cases given : host.port with
  | none =>
    apply isUnreserved_colon_free host.isName
    apply List.mem_of_mem_getLast?
    simpa [Host.text, given] using last
  | some digits =>
    obtain ⟨written, isDigits⟩ := host.isPort digits given
    apply isDigit_colon_free isDigits
    apply List.mem_of_mem_getLast?
    have behind : host.text = (host.name ++ [colon]) ++ digits := by simp [Host.text, given]
    rwa [behind, List.getLast?_append_of_ne_nil _ written] at last

theorem newRequest_object (cfg : S3Config) (key : Key) (method body : Bytes) {tail : Bytes}
    (queried : ∀ byte, tail.head? = some byte → byte = questionMark)
    (visible : ∀ byte ∈ tail, isCTL byte = false ∧ byte ≠ hash) :
    newRequest method ((newS3 cfg).objectURL key.bytes ++ tail) body =
      some {
        method
        url := cfg.objectURL key tail.tail
        host := cfg.host.text
        body } := by
  have rooted : ∀ byte, (uriEncodePath (cfg.objectPath key.bytes)).head? = some byte →
      byte = slash := by
    intro byte first
    rw [head?_uriEncodePath] at first
    exact (Option.some.inj first).symm
  have read := parse_address cfg.endpoint.reached cfg.host
    (isWritten_uriEncodePath (cfg.objectPath key.bytes)) rooted queried visible
    (unescape_uriEncodePath _)
  simp only [newRequest, Backend.objectURL, location_newS3]
  rw [read]
  simp [removeEmptyPort_text, S3Config.objectURL]

def S3Config.sent (cfg : S3Config) (key : Key) (method query : Bytes)
    (headers : List (Bytes × Bytes)) (body : Bytes) : Request where
  method
  host := cfg.host.text
  path := uriEncodePath (cfg.objectPath key.bytes)
  query
  headers
  body

theorem send_object (cfg : S3Config) (key : Key) (method query body : Bytes)
    (header : List (Bytes × Bytes)) :
    HTTPRequest.send {
      method, url := cfg.objectURL key query, host := cfg.host.text, header, body } =
      if header.all (fun field => field.2.all isValueByte) then
        some (cfg.sent key method query
          ((header.filter fun field => field.1 ≠ ascii "Host").map fun field =>
            (field.1, trimString field.2)) body)
      else none := by
  have reachable : ¬((cfg.objectURL key query).host = [] ∨
      (cfg.objectURL key query).scheme ≠ ascii "http" ∧
        (cfg.objectURL key query).scheme ≠ ascii "https") := by
    rintro (unnamed | foreign)
    · exact cfg.host.text_ne_nil unnamed
    · revert foreign
      simp only [S3Config.objectURL]
      cases cfg.endpoint.reached <;> decide
  have written : uriEncodePath (cfg.objectPath key.bytes) ≠ [] := by
    intro none
    have first := head?_uriEncodePath cfg key.bytes
    simp [none] at first
  rw [HTTPRequest.send, if_neg reachable]
  simp only [escapedPath_objectURL, if_neg written]
  rfl

end Aavishield.Storage
