import Aavishield.Basic
import Aavishield.Lib.Text

/-!
# Domains of rules

How the services bring the domain of a rule or of a request into the form that they
compare.  The API is written in Go and the agent in Rust, which do not change the case of
every letter alike.
-/

namespace Aavishield.DomainRules

open Text

def IsAscii (text : List Char) : Prop := ∀ letter ∈ text, letter.toNat < 128

instance (text : List Char) : Decidable (IsAscii text) :=
  List.decidableBAll _ text

/-- How both languages take letters, and in what order maps are walked. -/
structure Primitives where
  /-- `unicode.ToLower`. -/
  lower : Char → Char
  toLowercase : List Char → List Char
  lower_ascii : ∀ letter : Char, letter.toNat < 128 → lower letter = letter.toLower
  toLowercase_ascii : ∀ text, IsAscii text → toLowercase text = text.map Char.toLower
  /-- The Kelvin sign is the only other letter that Rust lowers into ASCII, and Go agrees. -/
  map_lower : ∀ text, IsAscii (toLowercase text) → text.map lower = toLowercase text
  walk : List (List Char) → List (List Char)
  walk_perm : ∀ keys, (walk keys).Perm keys
  readJSON : List Char → Option (List Char)

def Primitives.ascii : Primitives where
  lower := Char.toLower
  toLowercase text := text.map Char.toLower
  lower_ascii _ _ := rfl
  toLowercase_ascii _ _ := rfl
  map_lower _ _ := rfl
  walk := id
  walk_perm _ := .refl _
  readJSON := some

inductive PolicyAction where
  | block
  | allow
  | alert
  | log
  deriving DecidableEq

structure DomainRule where
  orgID : Option UUID
  domain : List Char
  action : PolicyAction
  category : String
  reason : String
  riskScore : ℤ
  deriving DecidableEq

variable (env : Primitives)

/-- `strings.ToLower(strings.TrimSpace(text))`. -/
def lowerTrimmed (text : List Char) : List Char := (trimSpace text).map env.lower

def normDomain (domain : List Char) : List Char :=
  trimPrefix "www.".toList (trimSuffix ['.'] (lowerTrimmed env domain))

def normalizePolicyDomain (raw : List Char) : List Char :=
  let domain := lowerTrimmed env raw
  if domain = [] then []
  else
    let domain := (afterFirst "://".toList domain).getD domain
    let domain := trimPrefix "*.".toList domain
    let domain := domain.takeWhile fun letter => letter ∉ "/?#".toList
    let domain := afterLast '@' domain
    -- the colons of an IPv6 literal stand before no port
    let domain := if ']' ∈ domain then domain else beforeLast ':' domain
    trimPrefix "www.".toList (trimSuffix ['.'] (trimSpace domain))

end Aavishield.DomainRules
