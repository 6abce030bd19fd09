import Aavishield.Lib.ByteText
import Aavishield.Lib.Text

/-!
# Settings of data residency

What a company enters to connect its own database and object storage.  A secret that the form
leaves blank is taken from the settings on file.
-/

namespace Aavishield.Residency

open ByteText Text

/-- What `net/url` makes of a text; the path, the query and the fragment are kept as one. -/
structure URL where
  scheme : List Char
  user : Option (List Char × Option (List Char))
  host : List Char
  rest : List Char
  deriving DecidableEq

structure Primitives where
  /-- `unicode.ToLower`. -/
  lower : Char → Char
  parse : List Char → Option URL
  string : URL → List Char
  string_nil : ∀ url, parse [] = some url → url.user = none ∧ string url = []
  /-- Whether `net.ParseIP` reads the text. -/
  isIP : List Char → Bool

structure DBConfig where
  provider : List Char
  host : List Char
  port : ℤ
  database : List Char
  username : List Char
  password : List Char
  schema : List Char
  tls : List Char
  /-- A connection string of MongoDB, which wins over the host, the port and the password. -/
  uri : List Char
  deriving DecidableEq

structure FilesConfig where
  provider : List Char
  bucket : List Char
  region : List Char
  endpoint : List Char
  accessKeyID : List Char
  secretAccessKey : List Char
  accountID : List Char
  pathStyle : Bool
  accountName : List Char
  accountKey : List Char
  container : List Char
  /-- The `Prefix` of all names. -/
  folder : List Char
  deriving DecidableEq

abbrev FieldErrors := List (String × String)

def isLowerAlnum (letter : Char) : Bool := letter.isLower || letter.isDigit

/-- `strings.TrimRight` with a set of one letter. -/
def trimRight (mark : Char) (text : List Char) : List Char := (text.reverse.dropWhile (· = mark)).reverse

/-- `strings.Trim` with a set of one letter. -/
def trim (mark : Char) (text : List Char) : List Char := trimRight mark (text.dropWhile (· = mark))

/-- `identRe`. -/
def isIdent : List Char → Bool
  | [] => false
  | first :: rest => (first.isAlpha || first = '_') && decide (rest.length ≤ 62) &&
      rest.all fun letter => letter.isAlphanum || letter ∈ ['_', '$', '-']

/-- `bucketRe`. -/
def isBucket (text : List Char) : Bool :=
  decide (3 ≤ text.length ∧ text.length ≤ 223) && text.head?.any isLowerAlnum &&
    text.getLast?.any isLowerAlnum && text.all fun letter => isLowerAlnum letter || letter ∈ ['.', '-', '_']

/-- `regionRe`. -/
def isRegion (text : List Char) : Bool :=
  decide (2 ≤ text.length ∧ text.length ≤ 32) && text.all fun letter => isLowerAlnum letter || letter = '-'

/-- `acctRe`. -/
def isAccount (text : List Char) : Bool :=
  decide (3 ≤ text.length ∧ text.length ≤ 24) && text.all isLowerAlnum

/-- `hexRe`. -/
def isHex (text : List Char) : Bool :=
  decide (text.length = 32) && text.all fun letter => letter.isDigit || letter ∈ "abcdef".toList

def hyphenated : List Char → Option ℕ
  | [] => some 0
  | '-' :: letter :: rest => if isLowerAlnum letter then (hyphenated rest).map (· + 1) else none
  | letter :: rest => if isLowerAlnum letter then (hyphenated rest).map (· + 1) else none

def isContainer : List Char → Bool
  | [] => false
  | first :: rest => isLowerAlnum first && (hyphenated rest).any fun count => decide (2 ≤ count ∧ count ≤ 62)

def isHostLabel (label : List Char) : Bool :=
  label.head?.any Char.isAlphanum && label.getLast?.any Char.isAlphanum &&
    label.all fun letter => letter.isAlphanum || letter = '-'

section Settings

variable (env : Primitives)

def validHost (host : List Char) : Bool :=
  if host = [] ∨ byteLength host > 253 ∨ host.any (· ∈ " /\\?#@".toList) then false
  else env.isIP host || (host.splitOn '.').all isHostLabel

def validURL (text : List Char) : Bool :=
  (env.parse text).any fun url =>
    decide ((url.scheme = "https".toList ∨ url.scheme = "http".toList) ∧ url.host ≠ [] ∧ url.user = none)

def redactURI (raw : List Char) : List Char :=
  match env.parse raw with
  | none => []
  | some url => match url.user with
    | some (name, some _) => env.string { url with user := some (name, some "xxxxx".toList) }
    | _ => env.string url

def lowerTrimmed (text : List Char) : List Char := (trimSpace text).map env.lower

def dbProviders : List (List Char) :=
  ["postgres", "mysql", "mariadb", "sqlserver", "mongodb"].map String.toList

def defaultPort (provider : List Char) : ℤ :=
  if provider = "postgres".toList then 5432
  else if provider = "mysql".toList ∨ provider = "mariadb".toList then 3306
  else if provider = "sqlserver".toList then 1433
  else if provider = "mongodb".toList then 27017
  else 0

namespace DBConfig

def normalize (c : DBConfig) : DBConfig :=
  let provider := lowerTrimmed env c.provider
  let schema := trimSpace c.schema
  { provider
    host := trimSpace c.host
    port := if c.port = 0 then defaultPort provider else c.port
    database := trimSpace c.database
    username := trimSpace c.username
    password := c.password
    schema := if provider = "postgres".toList ∧ schema = [] then "public".toList else schema
    tls := if c.tls ∈ ["verify-full", "require", "disable"].map String.toList then c.tls
      else "require".toList
    uri := trimSpace c.uri }

def usesURI (c : DBConfig) : Bool := decide (c.provider = "mongodb".toList ∧ c.uri ≠ [])

def validate (c : DBConfig) : FieldErrors :=
  if c.provider ∉ dbProviders then
    [("provider", "Choose PostgreSQL, MySQL, MariaDB, SQL Server or MongoDB")]
  else
    (if c.usesURI then
      if (env.parse c.uri).any fun url => decide ((url.scheme = "mongodb".toList ∨
          url.scheme = "mongodb+srv".toList) ∧ url.host ≠ []) then []
      else [("uri", "Use a connection string that starts with mongodb:// or mongodb+srv://")]
    else
      (if validHost env c.host then []
        else [("host", "Enter the server's hostname or public IP address")]) ++
      (if c.port < 1 ∨ c.port > 65535 then [("port", "Enter a port between 1 and 65535")] else []) ++
      (if c.username = [] then
        [("username", "Enter the database user Aavishield should sign in as")] else []) ++
      (if c.password = [] then [("password", "Enter the password for that user")] else [])) ++
    (if isIdent c.database then []
      else [("database", "Enter the database name (letters, digits and underscores)")]) ++
    (if c.provider = "postgres".toList ∧ !isIdent c.schema then
      [("schema", "Enter a schema name (letters, digits and underscores)")] else [])

/-- A blank password means the one on file, and so does a connection string as the page shows it. -/
def mergeSecrets (c prev : DBConfig) : DBConfig :=
  if prev.provider ≠ c.provider then c
  else { c with
    password := if c.password = [] ∧ c.host = prev.host ∧ c.username = prev.username then prev.password
      else c.password
    uri := if c.uri ≠ [] ∧ c.uri = redactURI env prev.uri then prev.uri else c.uri }

end DBConfig

namespace FilesConfig

def normalize (c : FilesConfig) : FilesConfig :=
  let provider := lowerTrimmed env c.provider
  let region := lowerTrimmed env c.region
  { provider
    bucket := trimSpace c.bucket
    region := if provider = "r2".toList ∨ provider = "gcs".toList then "auto".toList
      else if provider = "s3_compatible".toList ∧ region = [] then "us-east-1".toList
      else region
    endpoint := trimRight '/' (trimSpace c.endpoint)
    accessKeyID := trimSpace c.accessKeyID
    secretAccessKey := trimSpace c.secretAccessKey
    accountID := lowerTrimmed env c.accountID
    pathStyle := c.pathStyle
    accountName := lowerTrimmed env c.accountName
    accountKey := trimSpace c.accountKey
    container := trimSpace c.container
    folder := trim '/' (trimSpace c.folder) }

def isAzure (c : FilesConfig) : Bool := decide (c.provider = "azure_blob".toList)

def validateProvider (c : FilesConfig) : Option FieldErrors :=
  if c.isAzure then some <|
    (if isAccount c.accountName then []
      else [("account_name", "Enter the storage account name (3–24 lowercase letters and digits)")]) ++
    (if c.accountKey = [] then
      [("account_key", "Paste one of the storage account's access keys")] else []) ++
    (if isContainer c.container then []
      else [("container", "Enter the container name (3–63 lowercase letters, digits and hyphens)")]) ++
    (if c.endpoint ≠ [] ∧ !validURL env c.endpoint then
      [("endpoint", "Enter the blob service URL, e.g. https://account.blob.core.windows.net")] else [])
  else if c.provider ∈ ["s3", "r2", "gcs", "s3_compatible"].map String.toList then some <|
    (if isBucket c.bucket then []
      else [("bucket", "Enter the bucket name (lowercase letters, digits, dots and hyphens)")]) ++
    (if c.accessKeyID = [] then [("access_key_id", "Enter the access key ID")] else []) ++
    (if c.secretAccessKey = [] then [("secret_access_key", "Enter the secret access key")] else []) ++
    (if c.provider = "s3".toList ∧ !isRegion c.region then
      [("region", "Enter the bucket's region, e.g. ap-south-1")] else []) ++
    (if c.provider = "r2".toList ∧ !isHex c.accountID then
      [("account_id", "Enter your Cloudflare account ID (32 characters, on the R2 overview page)")] else []) ++
    (if c.provider = "s3_compatible".toList then
      (if validURL env c.endpoint then []
        else [("endpoint", "Enter the S3 endpoint URL, e.g. https://s3.eu-central-1.wasabisys.com")]) ++
      (if isRegion c.region then []
        else [("region", "Enter the region the endpoint expects (often us-east-1)")])
    else [])
  else none

def validate (c : FilesConfig) : FieldErrors :=
  match c.validateProvider env with
  | none => [("provider",
      "Choose Amazon S3, Cloudflare R2, Google Cloud Storage, Azure Blob Storage or an S3-compatible store")]
  | some errors => errors ++
      if byteLength c.folder > 200 ∨ contains c.folder "..".toList then
        [("prefix", "Use a short folder name, without '..'")] else []

def mergeSecrets (c prev : FilesConfig) : FilesConfig :=
  if prev.provider ≠ c.provider then c
  else { c with
    secretAccessKey := if c.secretAccessKey = [] ∧ c.accessKeyID = prev.accessKeyID then prev.secretAccessKey
      else c.secretAccessKey
    accountKey := if c.accountKey = [] ∧ c.accountName = prev.accountName then prev.accountKey
      else c.accountKey }

/-- Where the objects are kept (`endpoint`). -/
def bucketEndpoint (c : FilesConfig) : List Char :=
  if c.provider = "s3".toList then
    if c.endpoint ≠ [] then c.endpoint
    else "https://s3.".toList ++ c.region ++ ".amazonaws.com".toList
  else if c.provider = "r2".toList then
    "https://".toList ++ c.accountID ++ ".r2.cloudflarestorage.com".toList
  else if c.provider = "gcs".toList then "https://storage.googleapis.com".toList
  else c.endpoint

/-- The service that an Azure account is reached at (`NewAzure`). -/
def azureEndpoint (c : FilesConfig) : List Char :=
  let endpoint := trimRight '/' c.endpoint
  if endpoint = [] then "https://".toList ++ c.accountName ++ ".blob.core.windows.net".toList else endpoint

end FilesConfig

end Settings

end Aavishield.Residency
