import Aavishield.Lib.Joining
import Aavishield.Storage.Objects

/-!
# Requests that name their object

The canonical request of every method is the one the receiver derives.  Only the content type of an
upload is signed as it came, while the receiver trims it.
-/

namespace Aavishield.Storage

open Percent SigV4

def Visible (value : Bytes) : Prop := ∀ byte ∈ value, isAddressByte byte = true

theorem isSpace_of_isAddressByte {byte : UInt8} (isByte : isAddressByte byte = true) :
    isSpace byte = false := by
  simp only [isAddressByte, isWritten, Bool.or_eq_true, beq_iff_eq] at isByte
  rcases isByte with ((plain | rfl) | rfl) | rfl
  · rw [← Bool.not_eq_true]
    simp only [isUnreserved, isSpace, Bool.or_eq_true, Bool.and_eq_true, decide_eq_true_eq,
      List.contains_iff_mem, List.mem_cons, List.not_mem_nil, or_false] at plain ⊢
    omega
  · decide
  · decide
  · decide

variable {value : Bytes}

theorem Visible.sendable (visible : Visible value) :
    value.all isValueByte = true := by
  apply List.all_eq_true.mpr
  intro byte mem
  simp [isValueByte, (seen_of_isAddressByte (visible byte mem)).1]

theorem Visible.trimAll_eq (visible : Visible value) : trimAll value = value := by
  apply (trimAll_eq_self_iff value).mpr
  apply tidy_of_unspaced
  exact fun byte mem => isSpace_of_isAddressByte (visible byte mem)

theorem dropWhile_of_same {first second : UInt8 → Bool}
    (same : ∀ byte ∈ value, first byte = second byte) :
    value.dropWhile first = value.dropWhile second := by
  induction value with
  | nil => rfl
  | cons byte rest ih =>
    have here := same byte (by simp)
    have there := ih fun other mem => same other (by simp [mem])
    simp only [List.dropWhile_cons, here, there]

theorem trimString_of_sendable (sendable : value.all isValueByte = true) :
    trimString value = trim value := by
  have same : ∀ byte ∈ value, isASCIISpace byte = isSpace byte := by
    intro byte mem
    have valid := List.all_eq_true.mp sendable byte mem
    simp only [isValueByte, isCTL, isSpace, Bool.or_eq_true, Bool.not_eq_true',
      Bool.or_eq_false_iff, decide_eq_false_iff_not, beq_eq_false_iff_ne,
      List.contains_iff_mem, List.mem_cons, List.not_mem_nil, or_false] at valid
    rw [Bool.eq_iff_iff]
    simp only [isASCIISpace, isSpace, List.contains_iff_mem, List.mem_cons, List.not_mem_nil,
      or_false]
    omega
  have back : ∀ byte ∈ (value.dropWhile isSpace).reverse, isASCIISpace byte = isSpace byte := by
    intro byte mem
    exact same byte ((List.dropWhile_sublist isSpace).subset (List.mem_reverse.mp mem))
  rw [trimString, trim, dropWhile_of_same same, List.rdropWhile, List.rdropWhile,
    dropWhile_of_same back]

theorem trimAll_trimString (sendable : value.all isValueByte = true) :
    trimAll (trimString value) = trimAll value := by
  rw [trimString_of_sendable sendable, trimAll_trim]

theorem visible_amzDate (now : Moment) : Visible now.amzDate := by
  intro byte mem
  simp only [Moment.amzDate, List.mem_append] at mem
  rcases mem with ((inDate | inMark) | inClock) | inMark
  · simp [isAddressByte, isWritten, isUnreserved_of_isDigit (now.isDate byte inDate)]
  · revert byte
    exact List.all_eq_true.mp rfl
  · simp [isAddressByte, isWritten, isUnreserved_of_isDigit (now.isClock byte inClock)]
  · revert byte
    exact List.all_eq_true.mp rfl

theorem visible_hex (bytes : Bytes) : Visible (hex bytes) := by
  have digit : ∀ value < 16, isAddressByte (smallDigit value) = true := by
    intro value small
    interval_cases value <;> decide
  intro byte mem
  obtain ⟨origin, -, written⟩ := List.mem_flatMap.mp mem
  have bounded : origin.toNat < 256 := origin.toNat_lt
  simp only [List.mem_cons, List.not_mem_nil, or_false] at written
  rcases written with rfl | rfl
  · exact digit _ (by omega)
  · exact digit _ (by omega)

theorem visible_host (host : Host) : Visible host.text := by
  intro byte mem
  rcases host.mem_text mem with plain | rfl
  · simp [isAddressByte, isWritten, plain]
  · decide

variable (hashes : Hashes)

def typesOf (contentType : Bytes) : List Bytes := if contentType = [] then [] else [contentType]

def S3Config.unsigned (cfg : S3Config) (key : Key) (method contentType body : Bytes) :
    HTTPRequest where
  method
  url := cfg.objectURL key []
  host := cfg.host.text
  header := (typesOf contentType).map fun value => (ascii "Content-Type", value)
  body

def sentHeader (now : Moment) (payload contentType authorization : Bytes) :
    List (Bytes × Bytes) :=
  (typesOf contentType).map (fun value => (ascii "Content-Type", trimString value)) ++ [
    (ascii "X-Amz-Date", trimString now.amzDate),
    (ascii "X-Amz-Content-Sha256", trimString (sha256Hex hashes payload)),
    (ascii "Authorization", trimString authorization)]

def fieldsOf (cfg : S3Config) (now : Moment) (payloadHash : Bytes) (types : List Bytes) :
    List (Bytes × Bytes) :=
  types.map (fun value => (ascii "content-type", value)) ++ [
    (ascii "host", cfg.host.text),
    (ascii "x-amz-content-sha256", payloadHash),
    (ascii "x-amz-date", now.amzDate)]

def writeField (field : Bytes × Bytes) : Bytes := field.1 ++ ascii ":" ++ field.2

theorem lines_eq {fields : List (Bytes × Bytes)} (some : fields ≠ []) :
    [newline].intercalate (fields.map writeField) ++ [newline] =
      fields.flatMap fun field => writeField field ++ [newline] := by
  induction fields with
  | nil => exact absurd rfl some
  | cons field rest ih =>
    cases rest with
    | nil => simp
    | cons next rest =>
      have later := ih (by simp)
      rw [List.map_cons, List.intercalate_cons_of_ne_nil (by simp), List.append_assoc, later]
      simp

theorem signedFields_unsigned (cfg : S3Config) (key : Key) (now : Moment)
    (method contentType body payloadHash : Bytes) :
    signedFields (cfg.unsigned key method contentType body) now payloadHash =
      fieldsOf cfg now payloadHash (typesOf contentType) := by
  by_cases untyped : contentType = []
  · subst untyped
    rfl
  · have types : typesOf contentType = [contentType] := if_neg untyped
    have given : (cfg.unsigned key method contentType body).getHeader (ascii "Content-Type") =
        contentType := by
      simp only [S3Config.unsigned, HTTPRequest.getHeader, types]
      rfl
    rw [signedFields, given, if_pos untyped, types]
    rfl

theorem lines_sent (cfg : S3Config) (key : Key) (now : Moment)
    (method contentType payload authorization : Bytes) :
    let sent := cfg.sent key method []
      (sentHeader hashes now payload contentType authorization) payload
    (signedHeaders sent).map Prod.fst =
        (fieldsOf cfg now (sha256Hex hashes payload) (typesOf contentType)).map Prod.fst ∧
      (signedHeaders sent).flatMap writeHeader =
        (fieldsOf cfg now (sha256Hex hashes payload)
          ((typesOf contentType).map (trimAll ∘ trimString))).flatMap
            fun field => writeField field ++ [newline] := by
  have date : trimAll (trimString now.amzDate) = now.amzDate := by
    rw [trimAll_trimString (visible_amzDate now).sendable, (visible_amzDate now).trimAll_eq]
  have visibleHash : Visible (sha256Hex hashes payload) := visible_hex _
  have hash : trimAll (trimString (sha256Hex hashes payload)) = sha256Hex hashes payload := by
    rw [trimAll_trimString visibleHash.sendable, visibleHash.trimAll_eq]
  have host := (visible_host cfg.host).trimAll_eq
  by_cases untyped : contentType = []
  · subst untyped
    have headers : signedHeaders (cfg.sent key method []
        (sentHeader hashes now payload [] authorization) payload) = [
          (ascii "host", cfg.host.text),
          (ascii "x-amz-content-sha256", trimString (sha256Hex hashes payload)),
          (ascii "x-amz-date", trimString now.amzDate)] := rfl
    intro sent
    rw [show signedHeaders sent = _ from headers]
    refine ⟨rfl, ?_⟩
    simp [writeHeader, writeField, fieldsOf, typesOf, host, hash, date]
  · have types : typesOf contentType = [contentType] := if_neg untyped
    have headers : signedHeaders (cfg.sent key method []
        (sentHeader hashes now payload contentType authorization) payload) = [
          (ascii "content-type", trimString contentType),
          (ascii "host", cfg.host.text),
          (ascii "x-amz-content-sha256", trimString (sha256Hex hashes payload)),
          (ascii "x-amz-date", trimString now.amzDate)] := by
      rw [sentHeader, types]
      rfl
    intro sent
    rw [show signedHeaders sent = _ from headers, types]
    refine ⟨rfl, ?_⟩
    simp [writeHeader, writeField, fieldsOf, host, hash, date]

theorem canonicalRequest_iff (cfg : S3Config) (key : Key) (now : Moment)
    (method contentType payload authorization : Bytes) :
    canonicalRequest hashes.sha256
        (cfg.sent key method [] (sentHeader hashes now payload contentType authorization) payload) =
      headerRequest hashes (cfg.unsigned key method contentType payload) now payload ↔
    trimAll (trimString contentType) = contentType := by
  obtain ⟨names, lines⟩ := lines_sent hashes cfg key now method contentType payload authorization
  have uri : canonicalUri (uriEncodePath (cfg.objectPath key.bytes)) =
      uriEncodePath (cfg.objectPath key.bytes) := by
    rw [canonicalUri, unescape_uriEncodePath, Option.elim_some]
  have path : (cfg.unsigned key method contentType payload).url.escapedPath =
      uriEncodePath (cfg.objectPath key.bytes) := escapedPath_objectURL cfg key []
  -- both forms have the same pieces but for the lines of the header
  let form (lines : Bytes) : Bytes := [newline].intercalate [
    method, uriEncodePath (cfg.objectPath key.bytes), [], lines,
    (ascii ";").intercalate
      ((fieldsOf cfg now (sha256Hex hashes payload) (typesOf contentType)).map Prod.fst),
    sha256Hex hashes payload]
  have sameForm : ∀ first second, form first = form second ↔ first = second := by
    intro first second
    simp [form]
  have derived : canonicalRequest hashes.sha256 (cfg.sent key method []
      (sentHeader hashes now payload contentType authorization) payload) =
      form ((fieldsOf cfg now (sha256Hex hashes payload)
        ((typesOf contentType).map (trimAll ∘ trimString))).flatMap
          fun field => writeField field ++ [newline]) := by
    rw [canonicalRequest, names, lines]
    simp only [S3Config.sent, uri]
    rfl
  have signed : headerRequest hashes (cfg.unsigned key method contentType payload) now payload =
      form ((fieldsOf cfg now (sha256Hex hashes payload) (typesOf contentType)).flatMap
        fun field => writeField field ++ [newline]) := by
    rw [← lines_eq (by simp [fieldsOf]), headerRequest, signedFields_unsigned, path]
    rfl
  rw [derived, signed, sameForm]
  by_cases untyped : contentType = []
  · subst untyped
    simp [typesOf, trimString, trimAll, trim, collapse]
  · have types : typesOf contentType = [contentType] := if_neg untyped
    simp [types, fieldsOf, writeField]

/-- Nothing of an upload or of the configuration makes the transport refuse a header. -/
def S3Config.Sendable (cfg : S3Config) (contentType : Bytes) : Prop :=
  ∀ byte ∈ contentType ++ cfg.accessKey ++ cfg.region, isValueByte byte = true

def S3Config.authorization (cfg : S3Config) (now : Moment) (payload : Bytes)
    (unsigned : HTTPRequest) : Bytes :=
  (newS3 cfg).authorization now
    ((ascii ";").intercalate
      ((signedFields unsigned now (sha256Hex hashes payload)).map Prod.fst))
    ((newS3 cfg).signature hashes now (headerRequest hashes unsigned now payload))

theorem authorization_sendable (cfg : S3Config) (key : Key) (now : Moment)
    (method contentType payload : Bytes) :
    (cfg.authorization hashes now payload
      (cfg.unsigned key method contentType payload)).all isValueByte =
      (cfg.accessKey.all isValueByte && cfg.region.all isValueByte) := by
  have names : ((ascii ";").intercalate ((signedFields (cfg.unsigned key method contentType payload)
      now (sha256Hex hashes payload)).map Prod.fst)).all isValueByte = true := by
    rw [signedFields_unsigned, typesOf]
    by_cases untyped : contentType = []
    · rw [if_pos untyped]
      rfl
    · rw [if_neg untyped]
      rfl
  have signature : ((newS3 cfg).signature hashes now
      (headerRequest hashes (cfg.unsigned key method contentType payload) now payload)).all
        isValueByte = true := by
    apply Visible.sendable
    exact visible_hex _
  have date : now.date.all isValueByte = true := by
    apply Visible.sendable
    intro byte mem
    simp [isAddressByte, isWritten, isUnreserved_of_isDigit (now.isDate byte mem)]
  have region : (newS3 cfg).region.all isValueByte = cfg.region.all isValueByte := by
    by_cases unset : cfg.region = []
    · simp only [newS3, if_pos unset]
      rw [unset]
      rfl
    · simp only [newS3, if_neg unset]
  have access : (newS3 cfg).accessKey = cfg.accessKey := rfl
  have literals : ∀ text ∈ ["AWS4-HMAC-SHA256 Credential=", "/", "/s3/aws4_request",
      ", SignedHeaders=", ", Signature="], (ascii text).all isValueByte = true := by
    decide
  simp only [List.forall_mem_cons] at literals
  obtain ⟨first, second, third, fourth, fifth, -⟩ := literals
  simp only [S3Config.authorization, Backend.authorization, Backend.scope, List.all_append, names,
    signature, date, region, access, first, second, third, fourth, fifth, Bool.and_true,
    Bool.true_and]

theorem send_signed (cfg : S3Config) (key : Key) (now : Moment)
    (method contentType payload : Bytes) :
    let unsigned := cfg.unsigned key method contentType payload
    ((newS3 cfg).signV4 hashes now unsigned payload).send =
      if contentType.all isValueByte && cfg.accessKey.all isValueByte &&
          cfg.region.all isValueByte then
        some (cfg.sent key method [] (sentHeader hashes now payload contentType
          (cfg.authorization hashes now payload unsigned)) payload)
      else none := by
  intro unsigned
  have header : (newS3 cfg).signV4 hashes now unsigned payload = {
      method
      url := cfg.objectURL key []
      host := cfg.host.text
      header := (typesOf contentType).map (fun value => (ascii "Content-Type", value)) ++ [
        (ascii "Host", cfg.host.text),
        (ascii "X-Amz-Date", now.amzDate),
        (ascii "X-Amz-Content-Sha256", sha256Hex hashes payload),
        (ascii "Authorization", cfg.authorization hashes now payload unsigned)]
      body := payload } := by
    by_cases untyped : contentType = []
    · subst untyped
      rfl
    · have types : typesOf contentType = [contentType] := if_neg untyped
      have plain : unsigned.header = [(ascii "Content-Type", contentType)] := by
        simp only [unsigned, S3Config.unsigned, types]
        rfl
      simp only [Backend.signV4, HTTPRequest.setHeader, plain, types]
      rfl
  have visibleHash : Visible (sha256Hex hashes payload) := visible_hex _
  have types : (typesOf contentType).all (fun value => value.all isValueByte) =
      contentType.all isValueByte := by
    by_cases untyped : contentType = []
    · subst untyped
      rfl
    · simp [typesOf, if_neg untyped]
  have valid : ((typesOf contentType).map (fun value => (ascii "Content-Type", value)) ++ [
      (ascii "Host", cfg.host.text),
      (ascii "X-Amz-Date", now.amzDate),
      (ascii "X-Amz-Content-Sha256", sha256Hex hashes payload),
      (ascii "Authorization", cfg.authorization hashes now payload unsigned)]).all
        (fun field => field.2.all isValueByte) =
      (contentType.all isValueByte && (cfg.accessKey.all isValueByte &&
        cfg.region.all isValueByte)) := by
    simp only [List.all_append, List.all_map, List.all_cons, List.all_nil, Bool.and_true,
      (visible_host cfg.host).sendable, (visible_amzDate now).sendable, visibleHash.sendable,
      Bool.true_and, unsigned, authorization_sendable, ← types]
    rfl
  rw [header, send_object, valid, Bool.and_assoc]
  by_cases untyped : contentType = []
  · subst untyped
    rfl
  · have types : typesOf contentType = [contentType] := if_neg untyped
    rw [sentHeader, types]
    rfl

def linkFields (b : Backend) (now : Moment) (ttl : ℤ) (signatures : List Bytes) :
    List (Bytes × Bytes) :=
  [(ascii "X-Amz-Algorithm", ascii "AWS4-HMAC-SHA256"),
    (ascii "X-Amz-Credential", b.accessKey ++ ascii "/" ++ b.scope now),
    (ascii "X-Amz-Date", now.amzDate),
    (ascii "X-Amz-Expires", ascii (toString ttl))] ++
  signatures.map (fun signature => (signatureName, signature)) ++
  [(ascii "X-Amz-SignedHeaders", ascii "host")]

theorem encodeQuerySorted_linkValues (b : Backend) (now : Moment) (ttl : ℤ) :
    encodeQuerySorted (b.linkValues now ttl) = writeQuery (linkFields b now ttl []) := by
  have fields : b.linkValues now ttl = linkFields b now ttl [] := rfl
  have keys : ((linkFields b now ttl []).map Prod.fst).insertionSort (· ≤ ·) =
      (linkFields b now ttl []).map Prod.fst := by
    apply List.Pairwise.insertionSort_eq
    change List.Pairwise (· ≤ ·) [ascii "X-Amz-Algorithm", ascii "X-Amz-Credential",
      ascii "X-Amz-Date", ascii "X-Amz-Expires", ascii "X-Amz-SignedHeaders"]
    decide
  rw [encodeQuerySorted, fields]
  simp only [keys]
  rfl

theorem encodeQuerySorted_signed (b : Backend) (now : Moment) (ttl : ℤ) (signature : Bytes) :
    encodeQuerySorted ((b.linkValues now ttl).set (ascii "X-Amz-Signature") signature) =
      writeQuery (linkFields b now ttl [signature]) := by
  have fields : (b.linkValues now ttl).set (ascii "X-Amz-Signature") signature =
      linkFields b now ttl [] ++ [(ascii "X-Amz-Signature", signature)] := rfl
  have keys : ((linkFields b now ttl [] ++ [(ascii "X-Amz-Signature", signature)]).map
      Prod.fst).insertionSort (· ≤ ·) = (linkFields b now ttl [signature]).map Prod.fst := by
    change List.insertionSort (· ≤ ·) [ascii "X-Amz-Algorithm", ascii "X-Amz-Credential",
      ascii "X-Amz-Date", ascii "X-Amz-Expires", ascii "X-Amz-SignedHeaders",
      ascii "X-Amz-Signature"] = [ascii "X-Amz-Algorithm", ascii "X-Amz-Credential",
      ascii "X-Amz-Date", ascii "X-Amz-Expires", ascii "X-Amz-Signature",
      ascii "X-Amz-SignedHeaders"]
    decide
  rw [encodeQuerySorted, fields]
  simp only [keys]
  rfl

theorem canonicalQuery_link (b : Backend) (now : Moment) (ttl : ℤ) (signature : Bytes) :
    canonicalQuery (writeQuery (linkFields b now ttl [signature])) =
      writeQuery (linkFields b now ttl []) := by
  have names : (linkFields b now ttl [signature]).map Prod.fst =
      [ascii "X-Amz-Algorithm", ascii "X-Amz-Credential", ascii "X-Amz-Date",
        ascii "X-Amz-Expires", ascii "X-Amz-Signature", ascii "X-Amz-SignedHeaders"] := rfl
  have plain : ∀ name ∈ (linkFields b now ttl [signature]).map Prod.fst,
      ∀ byte ∈ name, isUnreserved byte = true := by
    rw [names]
    simp only [List.forall_mem_cons, ← List.all_eq_true]
    decide
  have ordered : ((linkFields b now ttl [signature]).map Prod.fst).Pairwise (· < ·) := by
    rw [names]
    decide
  rw [List.pairwise_map] at ordered
  rw [canonicalQuery_writeQuery (by simp [linkFields])
    (fun pair mem => plain pair.1 (List.mem_map_of_mem mem)) ordered]
  rfl

theorem visible_escape (text : Bytes) :
    ∀ byte ∈ escape isUnreserved text, isAddressByte byte = true := by
  apply @forall_mem_escape _ (isAddressByte · = true)
  · intro byte plain
    simp [isAddressByte, isWritten, plain]
  · decide
  · intro value small
    simp [isAddressByte, isWritten, isUnreserved_hexDigit small]

theorem visible_writeQuery (query : List (Bytes × Bytes)) :
    ∀ byte ∈ writeQuery query, isCTL byte = false ∧ byte ≠ hash := by
  intro byte mem
  rcases Joining.mem_intercalate mem with rfl | ⟨piece, pieceMem, inside⟩
  · decide
  · obtain ⟨pair, -, rfl⟩ := List.mem_map.mp pieceMem
    rcases List.mem_append.mp inside with inName | inValue
    · exact seen_of_isAddressByte (visible_escape _ byte inName)
    · rcases List.mem_cons.mp inValue with rfl | inValue
      · decide
      · exact seen_of_isAddressByte (visible_escape _ byte inValue)

theorem follow_link (cfg : S3Config) (now : Moment) (ttl : ℤ) (key : Key) :
    ∃ query, follow ((newS3 cfg).signedURL hashes now ttl key.bytes) =
        some (cfg.sent key (ascii "GET") query [] []) ∧
      canonicalRequest hashes.sha256 (cfg.sent key (ascii "GET") query [] []) =
        (newS3 cfg).linkRequest now ttl key.bytes := by
  let signature := (newS3 cfg).signature hashes now ((newS3 cfg).linkRequest now ttl key.bytes)
  let fields := linkFields (newS3 cfg) now ttl [signature]
  refine ⟨writeQuery fields, ?_, ?_⟩
  · have link : (newS3 cfg).signedURL hashes now ttl key.bytes =
        (newS3 cfg).objectURL key.bytes ++ questionMark :: writeQuery fields := by
      have mark : ascii "?" = [questionMark] := rfl
      simp only [Backend.signedURL, Backend.objectURL, encodeQuerySorted_signed, mark,
        List.append_assoc]
      rfl
    have tail : ∀ byte ∈ questionMark :: writeQuery fields, isCTL byte = false ∧ byte ≠ hash := by
      intro byte mem
      rcases List.mem_cons.mp mem with rfl | inQuery
      · decide
      · exact visible_writeQuery fields byte inQuery
    rw [follow, link, newRequest_object cfg key _ _ (by simp) tail]
    exact send_object cfg key _ _ _ []
  · have uri : canonicalUri (uriEncodePath (cfg.objectPath key.bytes)) =
        uriEncodePath (cfg.objectPath key.bytes) := by
      rw [canonicalUri, unescape_uriEncodePath, Option.elim_some]
    have presigned : isPresigned (cfg.sent key (ascii "GET") (writeQuery fields) [] []) = true := by
      have read : pairs (writeQuery fields) = fields := pairs_writeQuery (by simp [fields, linkFields])
      simp only [isPresigned, S3Config.sent, read]
      rfl
    have host := (visible_host cfg.host).trimAll_eq
    have headers : signedHeaders (cfg.sent key (ascii "GET") (writeQuery fields) [] []) =
        [(ascii "host", cfg.host.text)] := rfl
    have marks : ascii "host:" = ascii "host" ++ ascii ":" := rfl
    rw [canonicalRequest, payloadHash, presigned, headers, Backend.linkRequest, location_newS3,
      encodeQuerySorted_linkValues, ← canonicalQuery_link _ _ _ signature]
    simp [S3Config.sent, uri, writeHeader, host, marks, fields]

def S3Config.Addresses (cfg : S3Config) (key : Key) (sent : Request) : Prop :=
  sent.host = cfg.host.text ∧ unescape sent.path = some (cfg.objectPath key.bytes)

/-- What is sent for a key is signed as it will be read, and addresses the object of that key and of
no other. -/
structure NamesItsObject (cfg : S3Config) (now : Moment) (key : Key)
    (contentType data : Bytes) : Prop where
  putSent : cfg.Sendable contentType →
    ((newS3 cfg).put hashes now key.bytes contentType data).isSome = true
  deleteSent : cfg.Sendable [] → ((newS3 cfg).delete hashes now key.bytes).isSome = true
  put : ∀ req ∈ (newS3 cfg).putRequest key.bytes contentType data,
    ∀ sent ∈ (newS3 cfg).put hashes now key.bytes contentType data,
      canonicalRequest hashes.sha256 sent = headerRequest hashes req now data ∧
        cfg.Addresses key sent
  delete : ∀ req ∈ (newS3 cfg).deleteRequest key.bytes,
    ∀ sent ∈ (newS3 cfg).delete hashes now key.bytes,
      canonicalRequest hashes.sha256 sent = headerRequest hashes req now [] ∧
        cfg.Addresses key sent
  link : ∀ ttl, ∃ sent, follow ((newS3 cfg).signedURL hashes now ttl key.bytes) = some sent ∧
    canonicalRequest hashes.sha256 sent = (newS3 cfg).linkRequest now ttl key.bytes ∧
      cfg.Addresses key sent
  opened : ∃ sent, (newS3 cfg).openObject hashes now key.bytes = some sent ∧
    canonicalRequest hashes.sha256 sent = (newS3 cfg).linkRequest now 300 key.bytes ∧
      cfg.Addresses key sent
  alone : ∀ other sent, cfg.Addresses key sent → cfg.Addresses other sent →
    other.bytes = key.bytes

theorem addresses_sent (cfg : S3Config) (key : Key) (method query : Bytes)
    (headers : List (Bytes × Bytes)) (body : Bytes) :
    cfg.Addresses key (cfg.sent key method query headers body) :=
  ⟨rfl, unescape_uriEncodePath _⟩

/-- The content type `Put` sends. -/
def sentType (contentType : Bytes) : Bytes :=
  if contentType = [] then ascii "application/octet-stream" else contentType

theorem putRequest_eq (cfg : S3Config) (key : Key) (contentType data : Bytes) :
    (newS3 cfg).putRequest key.bytes contentType data =
      some (cfg.unsigned key (ascii "PUT") (sentType contentType) data) := by
  have made := @newRequest_object cfg key (ascii "PUT") data [] (by simp) (by simp)
  rw [List.append_nil] at made
  rw [Backend.putRequest, made]
  by_cases untyped : contentType = []
  · subst untyped
    rfl
  · simp only [if_neg untyped, S3Config.unsigned, typesOf, sentType]
    rfl

theorem deleteRequest_eq (cfg : S3Config) (key : Key) :
    (newS3 cfg).deleteRequest key.bytes = some (cfg.unsigned key (ascii "DELETE") [] []) := by
  have made := @newRequest_object cfg key (ascii "DELETE") [] [] (by simp) (by simp)
  rw [List.append_nil] at made
  rw [Backend.deleteRequest, made]
  rfl

theorem all_sentType (contentType : Bytes) :
    (sentType contentType).all isValueByte = contentType.all isValueByte := by
  by_cases untyped : contentType = []
  · subst untyped
    rfl
  · rw [sentType, if_neg untyped]

theorem tidy_sentType (contentType : Bytes) : Tidy (sentType contentType) ↔ Tidy contentType := by
  by_cases untyped : contentType = []
  · subst untyped
    rw [← trimAll_eq_self_iff, ← trimAll_eq_self_iff]
    decide
  · rw [sentType, if_neg untyped]

theorem sendable_iff (cfg : S3Config) (contentType : Bytes) :
    cfg.Sendable contentType ↔
      (contentType.all isValueByte && cfg.accessKey.all isValueByte &&
        cfg.region.all isValueByte) = true := by
  simp only [S3Config.Sendable, ← List.all_eq_true, List.all_append]

theorem put_eq_some_iff (cfg : S3Config) (now : Moment) (key : Key) (contentType data : Bytes)
    (sent : Request) :
    (newS3 cfg).put hashes now key.bytes contentType data = some sent ↔
      cfg.Sendable contentType ∧
        cfg.sent key (ascii "PUT") [] (sentHeader hashes now data (sentType contentType)
          (cfg.authorization hashes now data
            (cfg.unsigned key (ascii "PUT") (sentType contentType) data))) data = sent := by
  have signed := send_signed hashes cfg key now (ascii "PUT") (sentType contentType) data
  rw [all_sentType] at signed
  rw [Backend.put, putRequest_eq, sendable_iff]
  exact (Eq.congr_left signed).trans (by simp)

theorem put_canonical_iff (cfg : S3Config) (now : Moment) (key : Key)
    (contentType data authorization : Bytes) (sendable : cfg.Sendable contentType) :
    canonicalRequest hashes.sha256 (cfg.sent key (ascii "PUT") []
        (sentHeader hashes now data (sentType contentType) authorization) data) =
      headerRequest hashes (cfg.unsigned key (ascii "PUT") (sentType contentType) data) now data ↔
    Tidy contentType := by
  have valid : (sentType contentType).all isValueByte = true := by
    rw [all_sentType]
    apply List.all_eq_true.mpr
    exact fun byte mem => sendable byte (by simp [mem])
  rw [canonicalRequest_iff, trimAll_trimString valid, trimAll_eq_self_iff, tidy_sentType]

theorem isSome_delete_iff (cfg : S3Config) (now : Moment) (key : Key) :
    ((newS3 cfg).delete hashes now key.bytes).isSome = true ↔ cfg.Sendable [] := by
  have signed := send_signed hashes cfg key now (ascii "DELETE") [] []
  rw [Backend.delete, deleteRequest_eq, sendable_iff]
  exact (congrArg (fun sent => Option.isSome sent = true) signed).to_iff.trans (by simp)

theorem delete_canonical (cfg : S3Config) (now : Moment) (key : Key) {sent : Request}
    (isSent : (newS3 cfg).delete hashes now key.bytes = some sent) :
    canonicalRequest hashes.sha256 sent =
        headerRequest hashes (cfg.unsigned key (ascii "DELETE") [] []) now [] ∧
      cfg.Addresses key sent := by
  have signed := send_signed hashes cfg key now (ascii "DELETE") [] []
  rw [Backend.delete, deleteRequest_eq] at isSent
  have same := signed.symm.trans isSent
  split at same
  · obtain rfl := Option.some.inj same
    refine ⟨?_, addresses_sent cfg key _ _ _ _⟩
    rw [canonicalRequest_iff]
    rfl
  · cases same

variable {hashes} in
theorem NamesItsObject.tidy {cfg : S3Config} {now : Moment} {key : Key} {contentType data : Bytes}
    (names : NamesItsObject hashes cfg now key contentType data)
    (sendable : cfg.Sendable contentType) : Tidy contentType := by
  have sent := (put_eq_some_iff hashes cfg now key contentType data _).mpr ⟨sendable, rfl⟩
  have canonical := (names.put _ (putRequest_eq cfg key contentType data) _ sent).1
  exact (put_canonical_iff hashes cfg now key contentType data _ sendable).mp canonical

/-- An upload is the one request that is signed otherwise than it is read: by its content type. -/
theorem namesItsObject_iff (cfg : S3Config) (now : Moment) (key : Key) (contentType data : Bytes) :
    NamesItsObject hashes cfg now key contentType data ↔
      (cfg.Sendable contentType → Tidy contentType) := by
  constructor
  · exact NamesItsObject.tidy
  · intro tidy
    constructor
    · intro sendable
      exact Option.isSome_iff_exists.mpr
        ⟨_, (put_eq_some_iff hashes cfg now key contentType data _).mpr ⟨sendable, rfl⟩⟩
    · exact (isSome_delete_iff hashes cfg now key).mpr
    · intro req made sent isSent
      obtain rfl := Option.some.inj ((putRequest_eq cfg key contentType data).symm.trans made)
      obtain ⟨sendable, rfl⟩ := (put_eq_some_iff hashes cfg now key contentType data sent).mp isSent
      refine ⟨?_, addresses_sent cfg key _ _ _ _⟩
      apply (put_canonical_iff hashes cfg now key contentType data _ sendable).mpr
      exact tidy sendable
    · intro req made sent isSent
      obtain rfl := Option.some.inj ((deleteRequest_eq cfg key).symm.trans made)
      exact delete_canonical hashes cfg now key isSent
    · intro ttl
      obtain ⟨query, sent, canonical⟩ := follow_link hashes cfg now ttl key
      exact ⟨_, sent, canonical, addresses_sent cfg key _ _ _ _⟩
    · obtain ⟨query, sent, canonical⟩ := follow_link hashes cfg now 300 key
      exact ⟨_, sent, canonical, addresses_sent cfg key _ _ _ _⟩
    · rintro other sent ⟨-, first⟩ ⟨-, second⟩
      rw [first] at second
      exact objectPath_injective cfg (Option.some.inj second).symm

def sharedBucket : S3Config where
  endpoint := {
    scheme := none
    host := {
      name := ascii "files.example.com"
      port := some (ascii "9000")
      named := by decide
      isName := List.all_eq_true.mp rfl
      isPort := by
        rintro digits ⟨⟩
        exact ⟨by decide, List.all_eq_true.mp rfl⟩ }
    slashes := 1 }
  region := ascii "us-east-1"
  bucket := ascii "screens"
  keyPrefix := ascii "aavishield"
  accessKey := ascii "AK7"
  secretKey := ascii "s3cr3t"
  pathStyle := true
  isBucket := List.all_eq_true.mp rfl

/-- An image whose type has two spaces before its parameter is signed with both of them. -/
theorem not_namesItsObject_spaced :
    ¬∃ hashes, NamesItsObject hashes sharedBucket
      { date := ascii "20260105"
        clock := ascii "093000"
        isDate := List.all_eq_true.mp rfl
        isClock := List.all_eq_true.mp rfl }
      { bytes := ascii "screenshots/o1/e7/a.webp", rootless := by decide }
      (ascii "image/webp;  q=1") (ascii "RIFF") := by
  rintro ⟨hashes, names⟩
  have sendable : sharedBucket.Sendable (ascii "image/webp;  q=1") := List.all_eq_true.mp rfl
  apply (names.tidy sendable).apart
  decide

end Aavishield.Storage
