import Aavishield.Storage.NetURL

/-!
# The bucket client

One client serves every store that speaks S3.  An object's address and the canonical request that
is signed are put together by hand, once for the header of an upload or a removal and once for a
link that carries its own signature.
-/

namespace Aavishield.Storage

open Percent SigV4

structure HTTPRequest where
  method : Bytes
  url : URL
  host : Bytes
  header : List (Bytes × Bytes) := []
  body : Bytes := []

def HTTPRequest.setHeader (req : HTTPRequest) (name value : Bytes) : HTTPRequest :=
  { req with header := req.header.filter (fun field => field.1 ≠ name) ++ [(name, value)] }

def HTTPRequest.getHeader (req : HTTPRequest) (name : Bytes) : Bytes :=
  (req.header.lookup name).getD []

def removeEmptyPort (host : Bytes) : Bytes :=
  if host.getLast? = some colon then host.dropLast else host

def newRequest (method raw body : Bytes) : Option HTTPRequest := do
  let u ← parse raw
  return { method, url := { u with host := removeEmptyPort u.host }, host := removeEmptyPort u.host, body }

/-- `httpguts.ValidHeaderFieldValue`, by the byte. -/
def isValueByte (byte : UInt8) : Bool := !isCTL byte || isSpace byte

def isASCIISpace (byte : UInt8) : Bool := [32, 9, 10, 13].contains byte.toNat

def trimString (value : Bytes) : Bytes := (value.dropWhile isASCIISpace).rdropWhile isASCIISpace

def HTTPRequest.send (req : HTTPRequest) : Option Request :=
  if req.url.host = [] ∨ req.url.scheme ≠ ascii "http" ∧ req.url.scheme ≠ ascii "https" then none
  else if req.header.all (fun field => field.2.all isValueByte) then
    some {
      method := req.method
      host := req.host
      path := if req.url.escapedPath = [] then [slash] else req.url.escapedPath
      query := req.url.rawQuery
      headers := (req.header.filter fun field => field.1 ≠ ascii "Host").map fun field =>
        (field.1, trimString field.2)
      body := req.body }
  else none

structure Endpoint where
  scheme : Option Scheme
  host : Host
  slashes : ℕ

def Endpoint.text (endpoint : Endpoint) : Bytes :=
  endpoint.scheme.elim [] (fun scheme => scheme.text ++ ascii "://") ++ endpoint.host.text ++
    List.replicate endpoint.slashes slash

/-- The settings of a bucket. -/
structure S3Config where
  endpoint : Endpoint
  region : Bytes
  bucket : Bytes
  keyPrefix : Bytes
  accessKey : Bytes
  secretKey : Bytes
  pathStyle : Bool
  isBucket : ∀ byte ∈ bucket, isUnreserved byte = true

structure Backend where
  endpoint : Bytes
  bucket : Bytes
  accessKey : Bytes
  secretKey : Bytes
  region : Bytes
  keyPrefix : Bytes
  pathStyle : Bool

def isSlash (byte : UInt8) : Bool := byte == slash

def newS3 (cfg : S3Config) : Backend where
  endpoint := cfg.endpoint.text.rdropWhile isSlash
  bucket := cfg.bucket
  accessKey := cfg.accessKey
  secretKey := cfg.secretKey
  region := if cfg.region = [] then ascii "auto" else cfg.region
  keyPrefix := cfg.keyPrefix
  pathStyle := cfg.pathStyle

def s3Escape : Bytes → Bytes := escape isUnreserved

def s3EscapePath (key : Bytes) : Bytes := [slash].intercalate ((key.splitOn slash).map s3Escape)

namespace Backend

variable (b : Backend)

def fullKey (key : Bytes) : Bytes :=
  if b.keyPrefix = [] then key
  else (b.keyPrefix.dropWhile isSlash).rdropWhile isSlash ++ slash :: key.dropWhile isSlash

/-- The address `location` works with: an endpoint that has no host in it is one. -/
def endpointURL : URL :=
  match parse b.endpoint with
  | some u => if u.host = [] then { scheme := ascii "https", host := b.endpoint } else u
  | none => { scheme := ascii "https", host := b.endpoint }

structure Location where
  base : Bytes
  host : Bytes
  path : Bytes

def location (key : Bytes) : Location :=
  let u := b.endpointURL
  let escaped := s3EscapePath (b.fullKey key)
  if b.pathStyle then
    { base := u.scheme ++ ascii "://" ++ u.host
      host := u.host
      path := slash :: b.bucket ++ slash :: escaped }
  else
    { base := u.scheme ++ ascii "://" ++ (b.bucket ++ ascii "." ++ u.host)
      host := b.bucket ++ ascii "." ++ u.host
      path := slash :: escaped }

def objectURL (key : Bytes) : Bytes := (b.location key).base ++ (b.location key).path

end Backend

/-- The hashes that are signed with. -/
structure Hashes where
  sha256 : Bytes → Bytes
  hmac : Bytes → Bytes → Bytes

/-- A moment as it is written out: `20060102` and `150405`. -/
structure Moment where
  date : Bytes
  clock : Bytes
  isDate : ∀ byte ∈ date, isDigit byte = true
  isClock : ∀ byte ∈ clock, isDigit byte = true

def Moment.amzDate (now : Moment) : Bytes := now.date ++ ascii "T" ++ now.clock ++ ascii "Z"

variable (hashes : Hashes)

def sha256Hex (data : Bytes) : Bytes := hex (hashes.sha256 data)

namespace Backend

variable (b : Backend)

def scope (now : Moment) : Bytes := now.date ++ ascii "/" ++ b.region ++ ascii "/s3/aws4_request"

def signingKey (dateStamp : Bytes) : Bytes :=
  let kDate := hashes.hmac (ascii "AWS4" ++ b.secretKey) dateStamp
  let kRegion := hashes.hmac kDate b.region
  let kService := hashes.hmac kRegion (ascii "s3")
  hashes.hmac kService (ascii "aws4_request")

def signature (now : Moment) (canonicalRequest : Bytes) : Bytes :=
  let stringToSign := [newline].intercalate
    [ascii "AWS4-HMAC-SHA256", now.amzDate, b.scope now, sha256Hex hashes canonicalRequest]
  hex (hashes.hmac (b.signingKey hashes now.date) stringToSign)

end Backend

/-- The names and values that `signV4` signs: only headers the request carries. -/
def signedFields (req : HTTPRequest) (now : Moment) (payloadHash : Bytes) :
    List (Bytes × Bytes) :=
  let fields := [
    (ascii "host", req.url.host),
    (ascii "x-amz-content-sha256", payloadHash),
    (ascii "x-amz-date", now.amzDate)]
  if req.getHeader (ascii "Content-Type") ≠ [] then
    (ascii "content-type", req.getHeader (ascii "Content-Type")) :: fields
  else fields

/-- The canonical request of `signV4`. -/
def headerRequest (req : HTTPRequest) (now : Moment) (payload : Bytes) : Bytes :=
  let payloadHash := sha256Hex hashes payload
  let fields := signedFields req now payloadHash
  [newline].intercalate [
    req.method,
    req.url.escapedPath,
    [],
    [newline].intercalate (fields.map fun field => field.1 ++ ascii ":" ++ field.2) ++ [newline],
    (ascii ";").intercalate (fields.map Prod.fst),
    payloadHash]

namespace Backend

variable (b : Backend)

def authorization (now : Moment) (signedHeaders signature : Bytes) : Bytes :=
  ascii "AWS4-HMAC-SHA256 Credential=" ++ b.accessKey ++ ascii "/" ++ b.scope now ++
    ascii ", SignedHeaders=" ++ signedHeaders ++ ascii ", Signature=" ++ signature

def signV4 (now : Moment) (req : HTTPRequest) (payload : Bytes) : HTTPRequest :=
  let payloadHash := sha256Hex hashes payload
  let signedHeaders := (ascii ";").intercalate ((signedFields req now payloadHash).map Prod.fst)
  let signature := b.signature hashes now (headerRequest hashes req now payload)
  let req := req.setHeader (ascii "Host") req.url.host
  let req := req.setHeader (ascii "X-Amz-Date") now.amzDate
  let req := req.setHeader (ascii "X-Amz-Content-Sha256") payloadHash
  req.setHeader (ascii "Authorization") (b.authorization now signedHeaders signature)

/-- The request of `Put` before it is signed. -/
def putRequest (key contentType data : Bytes) : Option HTTPRequest := do
  let contentType := if contentType = [] then ascii "application/octet-stream" else contentType
  let req ← newRequest (ascii "PUT") (b.objectURL key) data
  return req.setHeader (ascii "Content-Type") contentType

def put (now : Moment) (key contentType data : Bytes) : Option Request := do
  let req ← b.putRequest key contentType data
  (b.signV4 hashes now req data).send

def deleteRequest (key : Bytes) : Option HTTPRequest :=
  newRequest (ascii "DELETE") (b.objectURL key) []

def delete (now : Moment) (key : Bytes) : Option Request := do
  let req ← b.deleteRequest key
  (b.signV4 hashes now req []).send

end Backend

/-- `url.Values`, as `Set` leaves it: one value a name. -/
abbrev Values := List (Bytes × Bytes)

def Values.set (q : Values) (name value : Bytes) : Values :=
  q.filter (fun field => field.1 ≠ name) ++ [(name, value)]

def encodeQuerySorted (q : Values) : Bytes :=
  let keys := (q.map Prod.fst).insertionSort (· ≤ ·)
  [ampersand].intercalate (keys.map fun name =>
    s3Escape name ++ equalsSign :: s3Escape ((q.lookup name).getD []))

namespace Backend

variable (b : Backend)

def linkValues (now : Moment) (ttl : ℤ) : Values :=
  let q : Values := Values.set [] (ascii "X-Amz-Algorithm") (ascii "AWS4-HMAC-SHA256")
  let q := q.set (ascii "X-Amz-Credential") (b.accessKey ++ ascii "/" ++ b.scope now)
  let q := q.set (ascii "X-Amz-Date") now.amzDate
  let q := q.set (ascii "X-Amz-Expires") (ascii (toString ttl))
  q.set (ascii "X-Amz-SignedHeaders") (ascii "host")

/-- The canonical request of `SignedURL`. -/
def linkRequest (now : Moment) (ttl : ℤ) (key : Bytes) : Bytes :=
  [newline].intercalate [
    ascii "GET",
    (b.location key).path,
    encodeQuerySorted (b.linkValues now ttl),
    ascii "host:" ++ (b.location key).host ++ [newline],
    ascii "host",
    ascii "UNSIGNED-PAYLOAD"]

def signedURL (now : Moment) (ttl : ℤ) (key : Bytes) : Bytes :=
  let signature := b.signature hashes now (b.linkRequest now ttl key)
  let q := (b.linkValues now ttl).set (ascii "X-Amz-Signature") signature
  (b.location key).base ++ (b.location key).path ++ ascii "?" ++ encodeQuerySorted q

end Backend

def follow (link : Bytes) : Option Request := do
  let req ← newRequest (ascii "GET") link []
  req.send

def Backend.openObject (b : Backend) (now : Moment) (key : Bytes) : Option Request :=
  follow (b.signedURL hashes now 300 key)

end Aavishield.Storage
