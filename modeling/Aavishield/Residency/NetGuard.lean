import Aavishield.Lib.Addresses

/-!
# The guard of outgoing connections

A company types in a host and the data plane connects to it.  The settings form looks at the
addresses of the host once, and the dialer looks at each address when it connects to it, after
the name was resolved again.
-/

namespace Aavishield.Residency

open Internet Digits

def blockedNets : List Block := [
  cidr4 0 0 0 0 8,
  cidr4 10 0 0 0 8,
  cidr4 100 64 0 0 10,
  cidr4 127 0 0 0 8,
  cidr4 169 254 0 0 16,
  cidr4 172 16 0 0 12,
  cidr4 192 0 0 0 24,
  cidr4 192 168 0 0 16,
  cidr4 198 18 0 0 15,
  cidr4 224 0 0 0 4,
  cidr4 240 0 0 0 4,
  cidr6 [] 128,
  cidr6 [0, 0, 0, 0, 0, 0, 0, 1] 128,
  cidr6 [0xfc00] 7,
  cidr6 [0xfe80] 10,
  cidr6 [0xff00] 8,
  cidr6 [0x64, 0xff9b] 96]

def publicIP (ip : IP) : Bool :=
  blockedNets.all fun net => !net.contains (ip.to4.elim ip .v4)

/-- `guardControl`: whether the dialer may connect to the address. -/
def guardControl (allowPrivateNetworks : Bool) (address : List Char) : Bool :=
  allowPrivateNetworks ||
    match parseIP ((splitHost address).getD address) with
    | none => false
    | some ip => publicIP ip

abbrev Lookup (Address : Type) := Option (List Address)

def checkHostResolvable (allowPrivateNetworks : Bool) (host : List Char) (answer : Lookup IP) :
    Bool :=
  allowPrivateNetworks ||
    match parseIP host with
    | some ip => publicIP ip
    | none =>
      match answer with
      | none => false
      | some addresses => addresses.all publicIP

/-- All that happens for one host: what it resolves to when its settings are opened, and where
the dialer then tries to connect to, as often and in whichever order it does. -/
structure Dialling where
  allowPrivateNetworks : Bool
  host : List Char
  /-- A host that is part of a connection string is not checked beforehand. -/
  inURI : Bool
  checked : Lookup IP
  attempts : List Endpoint
  literal : ∀ ip ∈ parseIP host, ∀ endpoint ∈ attempts, endpoint.ip = ip ∧ endpoint.zone = []

/-- The host passes the check before it is dialled. -/
def Dialling.opens (dialling : Dialling) : Bool :=
  dialling.inURI || checkHostResolvable dialling.allowPrivateNetworks dialling.host dialling.checked

/-- The addresses that are connected to. -/
def Dialling.dialled (dialling : Dialling) : List Endpoint :=
  if dialling.opens then
    dialling.attempts.filter fun endpoint =>
      guardControl dialling.allowPrivateNetworks endpoint.text
  else []

/-- `::/96`, whose addresses were made from those of the fourth version. -/
def compatible : Block := cidr6 [] 96

/-- `64:ff9b::/96`. -/
def nat64 : Block := cidr6 [0x64, 0xff9b] 96

/-- `2002::/16`, with an address of the fourth version in the two groups that follow. -/
def sixToFour : Block := cidr6 [0x2002] 16

def carried (ip : IP) : Option (BitVec 32) :=
  match ip, ip.to4 with
  | _, some bits => some bits
  | .v4 bits, none => some bits
  | .v6 bits, none =>
    if compatible.contains ip || nat64.contains ip then some (low bits)
    else if sixToFour.contains ip then some (low (bits >>> 80))
    else none

/-- An address that is public, also by the IPv4 address it carries. -/
def Public (ip : IP) : Prop :=
  publicIP ip = true ∧ (carried ip).all (fun bits => publicIP (.v4 bits)) = true

instance : DecidablePred Public := fun _ => inferInstanceAs (Decidable (_ ∧ _))

/-- The list does not have the address, but the one of the fourth version that it was made from or
is tunnelled to. -/
def Smuggles (ip : IP) : Prop :=
  publicIP ip = true ∧ (compatible.contains ip || sixToFour.contains ip) = true ∧
    (carried ip).any (fun bits => !publicIP (.v4 bits)) = true

instance : DecidablePred Smuggles := fun _ => inferInstanceAs (Decidable (_ ∧ _ ∧ _))

theorem publicIP_to16 (ip : IP) : publicIP ip.to16 = publicIP ip := by
  cases four : ip.to4 with
  | none => simp [IP.to16, four]
  | some bits => simp [IP.to16, publicIP, four]

/-- The hook decides about the address that is connected to; one that is bound to an interface of
the server is not connected to. -/
theorem guardControl_text (allowPrivateNetworks : Bool) (endpoint : Endpoint) :
    guardControl allowPrivateNetworks endpoint.text =
      (allowPrivateNetworks || (decide (endpoint.zone = []) && publicIP endpoint.ip)) := by
  by_cases noZone : endpoint.zone = []
  · simp [guardControl, splitHost_text noZone, parseIP_text, publicIP_to16, noZone]
  · have zoned : '%' ∈ (splitHost endpoint.text).getD endpoint.text := percent_mem_of_zone noZone
    simp [guardControl, parseIP, zoned, noZone]

theorem publicIP_v4_of_to4 {ip : IP} {bits : BitVec 32} (four : ip.to4 = some bits) :
    publicIP (.v4 bits) = publicIP ip := by
  simp [publicIP, four]

theorem not_publicIP_of_nat64 {bits : BitVec 128} (six : (IP.v6 bits).to4 = none)
    (inside : nat64.contains (.v6 bits) = true) : publicIP (.v6 bits) = false := by
  simp only [publicIP, six, Option.elim_none]
  apply List.all_eq_false.mpr
  exact ⟨nat64, by simp [blockedNets, nat64], by simp [inside]⟩

/-- Of the forms that carry another address, the list has one and misses two. -/
theorem public_iff (ip : IP) : Public ip ↔ publicIP ip = true ∧ ¬Smuggles ip := by
  unfold Public Smuggles
  cases isPublic : publicIP ip with
  | false => simp
  | true =>
    cases ip with
    | v4 bits => simp [carried, isPublic]
    | v6 bits =>
      cases six : (IP.v6 bits).to4 with
      | some inner => simp [carried, six, publicIP_v4_of_to4 six, isPublic]
      | none =>
        have noNat : nat64.contains (.v6 bits) = false := by
          by_contra inside
          simp [not_publicIP_of_nat64 six (by simpa using inside)] at isPublic
        cases made : compatible.contains (.v6 bits) <;>
          cases tunnelled : sixToFour.contains (.v6 bits) <;>
            simp [carried, six, made, tunnelled, noNat]

theorem mem_dialled {dialling : Dialling} {endpoint : Endpoint} :
    endpoint ∈ dialling.dialled ↔ dialling.opens = true ∧ endpoint ∈ dialling.attempts ∧
      (dialling.allowPrivateNetworks = true ∨ endpoint.zone = [] ∧ publicIP endpoint.ip = true) := by
  cases opens : dialling.opens <;> simp [Dialling.dialled, opens, guardControl_text]

/-- Every address that is connected to is public, unless the guard is lifted or one of the
addresses smuggles another one past the list. -/
theorem dialled_public_iff (dialling : Dialling) :
    (∀ endpoint ∈ dialling.dialled, Public endpoint.ip) ↔
      dialling.opens = false ∨ ∀ endpoint ∈ dialling.attempts,
        if dialling.allowPrivateNetworks then Public endpoint.ip
        else endpoint.zone = [] → ¬Smuggles endpoint.ip := by
  simp only [mem_dialled]
  cases opens : dialling.opens with
  | false => simp
  | true =>
    cases dialling.allowPrivateNetworks with
    | true => simp
    | false =>
      simp only [public_iff]
      constructor
      · intro allPublic
        right
        intro endpoint mem noZone smuggles
        exact (allPublic endpoint ⟨trivial, mem, .inr ⟨noZone, smuggles.1⟩⟩).2 smuggles
      · rintro (closed | none) endpoint ⟨-, mem, lifted | ⟨noZone, isPublic⟩⟩
        · simp at closed
        · simp at closed
        · simp at lifted
        · exact ⟨isPublic, none endpoint mem noZone⟩

/-- `2002:7f00:1::`, which is tunnelled to the loopback of the server. -/
def tunnelled : IP := .v6 (BitVec.ofNat 128 (0x20027f000001 * 2 ^ 80))

def tunnelledName : Dialling where
  allowPrivateNetworks := false
  host := "db.example.com".toList
  inURI := false
  checked := some [tunnelled]
  attempts := [{ ip := tunnelled, zone := [], port := 5432 }]
  literal := by
    intro ip isLiteral
    have noAddress : parseIP "db.example.com".toList = none := by decide
    exact absurd (noAddress.symm.trans isLiteral) (by simp)

/-- A 6to4 address carries a private one. -/
theorem not_dialled_public : ¬∀ dialling : Dialling, dialling.allowPrivateNetworks = false →
    ∀ endpoint ∈ dialling.dialled, Public endpoint.ip := by
  intro allPublic
  have reached : { ip := tunnelled, zone := [], port := 5432 } ∈ tunnelledName.dialled := by
    apply mem_dialled.mpr
    exact ⟨by decide, by simp [tunnelledName], .inr ⟨rfl, by decide⟩⟩
  have isPublic := allPublic tunnelledName rfl _ reached
  have loopback : ¬Public tunnelled := by decide
  exact loopback isPublic

end Aavishield.Residency
