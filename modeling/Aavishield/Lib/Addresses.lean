import Aavishield.Lib.Digits
import Aavishield.Lib.Joining
import Aavishield.Lib.Text

/-!
# Internet addresses

Addresses of both families, the blocks of addresses that share their first bits, and the
texts that stand for them.  What is written for an address is read as the same address,
up to the form in which one of the fourth version is part of one of the sixth.
-/

namespace Internet

open Digits Text

/-- An address in four or in sixteen bytes (`net.IP`). -/
inductive IP where
  | v4 (bits : BitVec 32)
  | v6 (bits : BitVec 128)
  deriving DecidableEq

def mapped (bits : BitVec 32) : BitVec 128 := BitVec.ofNat 128 (0xffff * 2 ^ 32 + bits.toNat)

def low (bits : BitVec 128) : BitVec 32 := BitVec.ofNat 32 (bits.toNat % 2 ^ 32)

def IP.to4 : IP → Option (BitVec 32)
  | .v4 bits => some bits
  | .v6 bits => if bits.toNat / 2 ^ 32 = 0xffff then some (low bits) else none

/-- Addresses that have their first bits in common (`net.IPNet`). -/
inductive Block where
  | v4 (base : BitVec 32) (ones : ℕ)
  | v6 (base : BitVec 128) (ones : ℕ)

def agree {width : ℕ} (ones : ℕ) (first second : BitVec width) : Bool :=
  first.toNat / 2 ^ (width - ones) == second.toNat / 2 ^ (width - ones)

/-- `IPNet.Contains`: an address that has a form in four bytes is looked at in that form. -/
def Block.contains (block : Block) (ip : IP) : Bool :=
  match block, ip, ip.to4 with
  | .v4 base ones, _, some bits => agree ones base bits
  | .v6 base ones, .v6 bits, none => agree ones base bits
  | _, _, _ => false

def cidr4 (first second third fourth ones : ℕ) : Block :=
  .v4 (BitVec.ofNat 32 (value 256 [first, second, third, fourth])) ones

def cidr6 (groups : List ℕ) (ones : ℕ) : Block :=
  .v6 (BitVec.ofNat 128 (value 65536 (groups ++ List.replicate (8 - groups.length) 0))) ones

def readOctet (field : List Char) : Option ℕ :=
  if field = [] ∨ field.head? = some '0' ∧ 1 < field.length then none
  else (readNumber 10 field).filter (· ≤ 255)

def readIPv4 (text : List Char) : Option (BitVec 32) :=
  let fields := text.splitOn '.'
  if fields.length = 4 then
    (fields.mapM readOctet).map fun octets => BitVec.ofNat 32 (value 256 octets)
  else none

def readGroup (field : List Char) : Option ℕ :=
  if field = [] ∨ 4 < field.length then none else readNumber 16 field

def fieldsOf (text : List Char) : List (List Char) :=
  if text = [] then [] else text.splitOn ':'

def readLastGroups (text : List Char) : Option (List ℕ) :=
  let fields := fieldsOf text
  match fields.getLast? with
  | none => some []
  | some last =>
    if '.' ∈ last then
      (fields.dropLast.mapM readGroup).bind fun groups =>
        (readIPv4 last).map fun bits => groups ++ digits 65536 2 bits.toNat
    else fields.mapM readGroup

def splitEllipsis : List Char → Option (List Char × List Char)
  | ':' :: ':' :: rest => some ([], rest)
  | letter :: rest =>
    (splitEllipsis rest).map fun (front, back) => (letter :: front, back)
  | [] => none

def readIPv6 (text : List Char) : Option (BitVec 128) :=
  match splitEllipsis text with
  | some (front, back) =>
    ((fieldsOf front).mapM readGroup).bind fun first =>
      (readLastGroups back).bind fun last =>
        if first.length + last.length < 8 then
          some (BitVec.ofNat 128 (value 65536
            (first ++ List.replicate (8 - (first.length + last.length)) 0 ++ last)))
        else none
  | none =>
    ((readLastGroups text).filter fun groups => groups.length = 8).map fun groups =>
      BitVec.ofNat 128 (value 65536 groups)

/-- `net.ParseIP`, which takes no zones and returns sixteen bytes. -/
def parseIP (text : List Char) : Option IP :=
  if '%' ∈ text then none
  else
    match text.find? (· ∈ ['.', ':']) with
    | some '.' => (readIPv4 text).map fun bits => .v6 (mapped bits)
    | some ':' => (readIPv6 text).map .v6
    | _ => none

def fourOctets (bits : BitVec 32) : List Char :=
  ['.'].intercalate ((digits 256 4 bits.toNat).map (Nat.toDigits 10))

def colonGroups (groups : List ℕ) : List Char :=
  [':'].intercalate (groups.map (Nat.toDigits 16))

def zerosFrom (groups : List ℕ) (start : ℕ) : ℕ :=
  ((groups.drop start).takeWhile (· = 0)).length

def longerRun (groups : List ℕ) (best : Option (ℕ × ℕ)) (start : ℕ) : Option (ℕ × ℕ) :=
  if 2 ≤ zerosFrom groups start ∧ (best.elim 0 Prod.snd) < zerosFrom groups start then
    some (start, zerosFrom groups start)
  else best

def zeroRun (groups : List ℕ) : Option (ℕ × ℕ) :=
  (List.range groups.length).foldl (longerRun groups) none

/-- `IP.String`. -/
def IP.text (ip : IP) : List Char :=
  match ip, ip.to4 with
  | _, some bits => fourOctets bits
  | .v4 bits, none => fourOctets bits
  | .v6 bits, none =>
    let groups := digits 65536 8 bits.toNat
    match zeroRun groups with
    | none => colonGroups groups
    | some (start, length) =>
      colonGroups (groups.take start) ++ [':', ':'] ++ colonGroups (groups.drop (start + length))

def joinHostPort (host : List Char) (port : ℕ) : List Char :=
  if ':' ∈ host then ['['] ++ host ++ [']', ':'] ++ Nat.toDigits 10 port
  else host ++ [':'] ++ Nat.toDigits 10 port

/-- The host of `net.SplitHostPort`. -/
def splitHost (text : List Char) : Option (List Char) :=
  if ':' ∉ text then none
  else
    match text with
    | '[' :: rest =>
      match rest.dropWhile (· ≠ ']') with
      | ']' :: ':' :: port =>
        if ':' ∈ port ∨ '[' ∈ rest ∨ ']' ∈ port then none
        else some (rest.takeWhile (· ≠ ']'))
      | _ => none
    | _ =>
      let host := beforeLast ':' text
      if ':' ∈ host ∨ '[' ∈ text ∨ ']' ∈ text then none else some host

/-- An address to connect to. -/
structure Endpoint where
  ip : IP
  zone : List Char
  port : ℕ

/-- `TCPAddr.String`. -/
def Endpoint.text (endpoint : Endpoint) : List Char :=
  if endpoint.zone = [] then joinHostPort endpoint.ip.text endpoint.port
  else joinHostPort (endpoint.ip.text ++ ['%'] ++ endpoint.zone) endpoint.port

theorem readOctet_toDigits : ∀ octet < 256, readOctet (Nat.toDigits 10 octet) = some octet := by
  decide +kernel

theorem readIPv4_fourOctets (bits : BitVec 32) : readIPv4 (fourOctets bits) = some bits := by
  have split : (fourOctets bits).splitOn '.' = (digits 256 4 bits.toNat).map (Nat.toDigits 10) := by
    apply List.splitOn_intercalate
    · intro field mem
      rcases List.mem_map.mp mem with ⟨octet, -, rfl⟩
      exact not_mem_toDigits (by decide) (by decide) (by decide)
    · simp [digits]
  have octets : ((digits 256 4 bits.toNat).map (Nat.toDigits 10)).mapM readOctet =
      some (digits 256 4 bits.toNat) := by
    apply mapM_map_eq_some
    intro octet mem
    exact readOctet_toDigits octet (lt_of_mem_digits (by decide) octet mem)
  have whole : value 256 (digits 256 4 bits.toNat) = bits.toNat := value_digits bits.isLt
  simp [readIPv4, split, octets, whole]

theorem readGroup_toDigits {group : ℕ} (fits : group < 65536) :
    readGroup (Nat.toDigits 16 group) = some group := by
  have short : ¬4 < (Nat.toDigits 16 group).length := by
    apply Nat.not_lt.mpr
    apply (Nat.length_toDigits_le_iff (by omega) (by omega)).mpr
    omega
  simp [readGroup, short, readNumber_toDigits]

theorem colonGroups_cons_cons (first second : ℕ) (rest : List ℕ) :
    colonGroups (first :: second :: rest) =
      Nat.toDigits 16 first ++ ':' :: colonGroups (second :: rest) := by
  simp [colonGroups]

theorem exists_digits_append (first : ℕ) (rest : List ℕ) :
    ∃ ending, colonGroups (first :: rest) = Nat.toDigits 16 first ++ ending := by
  cases rest with
  | nil => exact ⟨[], by simp [colonGroups]⟩
  | cons second rest => exact ⟨_, colonGroups_cons_cons first second rest⟩

theorem fieldsOf_colonGroups (groups : List ℕ) :
    fieldsOf (colonGroups groups) = groups.map (Nat.toDigits 16) := by
  cases groups with
  | nil => rfl
  | cons first rest =>
    have filled : colonGroups (first :: rest) ≠ [] := by
      rcases exists_digits_append first rest with ⟨ending, starts⟩
      simp [starts]
    simp only [fieldsOf, filled, if_false]
    apply List.splitOn_intercalate
    · intro field mem
      rcases List.mem_map.mp mem with ⟨group, -, rfl⟩
      exact not_mem_toDigits (by omega) (by omega) (by simp)
    · simp

variable {groups : List ℕ}

theorem mapM_readGroup (fit : ∀ group ∈ groups, group < 65536) :
    (groups.map (Nat.toDigits 16)).mapM readGroup = some groups := by
  apply mapM_map_eq_some
  intro group mem
  exact readGroup_toDigits (fit group mem)

theorem readLastGroups_colonGroups (fit : ∀ group ∈ groups, group < 65536) :
    readLastGroups (colonGroups groups) = some groups := by
  cases found : (groups.map (Nat.toDigits 16)).getLast? with
  | none =>
    have empty : groups = [] := by simpa using found
    simp [readLastGroups, empty, colonGroups, fieldsOf]
  | some last =>
    rcases List.mem_map.mp (List.mem_of_getLast? found) with ⟨group, -, rfl⟩
    have noDot : '.' ∉ Nat.toDigits 16 group :=
      not_mem_toDigits (by omega) (by omega) (by simp)
    simp [readLastGroups, fieldsOf_colonGroups, found, noDot, mapM_readGroup fit]

theorem splitEllipsis_cons {letter : Char} (other : letter ≠ ':') (rest : List Char) :
    splitEllipsis (letter :: rest) =
      (splitEllipsis rest).map fun parts => (letter :: parts.1, parts.2) := by
  rw [splitEllipsis]
  intro later starts
  exact absurd starts other

theorem splitEllipsis_colon {letter : Char} (other : letter ≠ ':') (rest : List Char) :
    splitEllipsis (':' :: letter :: rest) =
      (splitEllipsis (letter :: rest)).map fun parts => (':' :: parts.1, parts.2) := by
  rw [splitEllipsis]
  intro later starts
  simp_all

theorem splitEllipsis_append {word : List Char} (plain : ':' ∉ word) (rest : List Char) :
    splitEllipsis (word ++ rest) =
      (splitEllipsis rest).map fun parts => (word ++ parts.1, parts.2) := by
  induction word with
  | nil => simp
  | cons letter word ih =>
    simp only [List.mem_cons, not_or] at plain
    simp [splitEllipsis_cons (Ne.symm plain.1), ih plain.2, Function.comp_def]

theorem splitEllipsis_colonGroups (groups : List ℕ) (rest : List Char) :
    splitEllipsis (colonGroups groups ++ rest) =
      (splitEllipsis rest).map fun parts => (colonGroups groups ++ parts.1, parts.2) := by
  have plain : ∀ group, ':' ∉ Nat.toDigits 16 group := by
    intro group
    exact not_mem_toDigits (by omega) (by omega) (by simp)
  induction groups with
  | nil => simp [colonGroups]
  | cons first groups ih =>
    cases groups with
    | nil => simpa [colonGroups] using splitEllipsis_append (plain first) rest
    | cons second groups =>
      rcases exists_digits_append second groups with ⟨ending, starts⟩
      rcases List.exists_cons_of_ne_nil (show Nat.toDigits 16 second ≠ [] by simp) with
        ⟨letter, letters, spelled⟩
      have other : letter ≠ ':' := by
        rintro rfl
        exact plain second (by simp [spelled])
      have step := splitEllipsis_colon other (letters ++ ending ++ rest)
      have same : letter :: (letters ++ ending ++ rest) =
          colonGroups (second :: groups) ++ rest := by simp [starts, spelled]
      simp only [same, ih] at step
      simp [colonGroups_cons_cons, splitEllipsis_append (plain first), step,
        Function.comp_def]

theorem zeros_of_zeroRun {start length : ℕ} (found : zeroRun groups = some (start, length)) :
    2 ≤ length ∧ length = zerosFrom groups start := by
  have rows : ∀ run ∈ zeroRun groups, 2 ≤ run.2 ∧ run.2 = zerosFrom groups run.1 := by
    apply List.foldlRecOn (motive := fun best : Option (ℕ × ℕ) =>
      ∀ run ∈ best, 2 ≤ run.2 ∧ run.2 = zerosFrom groups run.1)
    · simp
    · intro best isRow start _
      simp only [longerRun]
      split
      · rename_i longer
        simp [longer.1]
      · exact isRow
  exact rows _ found

theorem eq_of_zerosFrom (groups : List ℕ) (start : ℕ) :
    groups = groups.take start ++
      (List.replicate (zerosFrom groups start) 0 ++ groups.drop (start + zerosFrom groups start)) := by
  have zeros : (groups.drop start).takeWhile (· = 0) =
      List.replicate (zerosFrom groups start) 0 := by
    apply List.eq_replicate_of_mem
    intro group mem
    simpa using List.mem_takeWhile_imp mem
  have rest : (groups.drop start).dropWhile (· = 0) =
      groups.drop (start + zerosFrom groups start) := by
    have whole := List.takeWhile_append_dropWhile (p := (· = 0)) (l := groups.drop start)
    have dropped := congrArg (List.drop (zerosFrom groups start)) whole
    simpa [zeros, List.drop_drop] using dropped
  have whole := List.takeWhile_append_dropWhile (p := (· = 0)) (l := groups.drop start)
  simp only [zeros, rest] at whole
  simp [whole]

theorem readIPv6_text {bits : BitVec 128} (other : (IP.v6 bits).to4 = none) :
    readIPv6 (IP.v6 bits).text = some bits := by
  have fit : ∀ group ∈ digits 65536 8 bits.toNat, group < 65536 :=
    lt_of_mem_digits (by omega)
  have whole : BitVec.ofNat 128 (value 65536 (digits 65536 8 bits.toNat)) = bits := by
    have same : value 65536 (digits 65536 8 bits.toNat) = bits.toNat := value_digits bits.isLt
    simp [same]
  have count : (digits 65536 8 bits.toNat).length = 8 := length_digits
  simp only [IP.text, other]
  generalize digits 65536 8 bits.toNat = groups at fit whole count
  cases found : zeroRun groups with
  | none =>
    have noEllipsis := splitEllipsis_colonGroups groups []
    simp only [List.append_nil, splitEllipsis, Option.map_none] at noEllipsis
    simp [readIPv6, noEllipsis, readLastGroups_colonGroups fit, count, whole]
  | some run =>
    rcases run with ⟨start, length⟩
    rcases zeros_of_zeroRun found with ⟨long, rfl⟩
    have ellipsis := splitEllipsis_colonGroups (groups.take start)
      (':' :: ':' :: colonGroups (groups.drop (start + zerosFrom groups start)))
    have first : (fieldsOf (colonGroups (groups.take start))).mapM readGroup =
        some (groups.take start) := by
      simp only [fieldsOf_colonGroups]
      exact mapM_readGroup fun group mem => fit group (List.mem_of_mem_take mem)
    have last : readLastGroups (colonGroups (groups.drop (start + zerosFrom groups start))) =
        some (groups.drop (start + zerosFrom groups start)) := by
      apply readLastGroups_colonGroups
      intro group mem
      exact fit group (List.mem_of_mem_drop mem)
    have parts := eq_of_zerosFrom groups start
    have counted : (groups.take start).length + (zerosFrom groups start +
        (groups.drop (start + zerosFrom groups start)).length) = 8 := by
      have lengths := congrArg List.length parts
      simp only [List.length_append, List.length_replicate, count] at lengths
      omega
    simp only [splitEllipsis, Option.map_some, List.append_nil] at ellipsis
    simp only [readIPv6, List.append_assoc, List.cons_append, List.nil_append, ellipsis, first,
      last, Option.bind_some]
    generalize groups.take start = front at counted parts
    generalize groups.drop (start + zerosFrom groups start) = back at counted parts
    generalize zerosFrom groups start = length at counted parts long
    have short : front.length + back.length < 8 := by omega
    have left : 8 - (front.length + back.length) = length := by omega
    simp [short, left, ← parts, whole]

def IP.to16 (ip : IP) : IP := ip.to4.elim ip fun bits => .v6 (mapped bits)

@[simp]
theorem to4_v4 (bits : BitVec 32) : (IP.v4 bits).to4 = some bits := rfl

@[simp]
theorem to4_mapped (bits : BitVec 32) : (IP.v6 (mapped bits)).to4 = some bits := by
  have number : (mapped bits).toNat = 0xffff * 2 ^ 32 + bits.toNat := by
    simp only [mapped, BitVec.toNat_ofNat]
    omega
  have front : (mapped bits).toNat / 2 ^ 32 = 0xffff := by omega
  have back : (mapped bits).toNat % 2 ^ 32 = bits.toNat := by omega
  rw [IP.to4, if_pos front, low, back, BitVec.ofNat_toNat, BitVec.setWidth_eq]

variable {mark : Char}

theorem not_mem_fourOctets {bits : BitVec 32}
    (isMark : mark ∈ [':', '%', '[', ']']) : mark ∉ fourOctets bits := by
  intro mem
  rcases Joining.mem_intercalate mem with rfl | ⟨word, wordMem, letterMem⟩
  · simp at isMark
  · rcases List.mem_map.mp wordMem with ⟨octet, -, rfl⟩
    exact not_mem_toDigits (by omega) (by omega) (List.mem_cons_of_mem _ isMark) letterMem

theorem not_mem_colonGroups (isMark : mark ∈ ['.', '%', '[', ']']) : mark ∉ colonGroups groups := by
  intro mem
  rcases Joining.mem_intercalate mem with rfl | ⟨word, wordMem, letterMem⟩
  · simp at isMark
  · rcases List.mem_map.mp wordMem with ⟨group, -, rfl⟩
    apply not_mem_toDigits (by omega) (by omega) _ letterMem
    simp at isMark ⊢
    tauto

theorem not_mem_text {ip : IP} (isMark : mark ∈ ['%', '[', ']']) : mark ∉ ip.text := by
  have octets : ∀ bits, mark ∉ fourOctets bits := fun bits =>
    not_mem_fourOctets (List.mem_cons_of_mem _ isMark)
  have groups : ∀ groups, mark ∉ colonGroups groups := fun groups =>
    not_mem_colonGroups (List.mem_cons_of_mem _ isMark)
  have other : mark ≠ ':' := by
    rintro rfl
    simp at isMark
  unfold IP.text
  split
  · exact octets _
  · exact octets _
  · dsimp only
    split
    · exact groups _
    · simp [groups, other]

theorem find?_mark {text marks : List Char} {mark other : Char}
    (two : ∀ letter, letter ∈ marks ↔ letter = mark ∨ letter = other) (mem : mark ∈ text)
    (none : other ∉ text) : text.find? (· ∈ marks) = some mark := by
  cases found : text.find? (· ∈ marks) with
  | none =>
    have missing := List.find?_eq_none.mp found mark mem
    simp [two] at missing
  | some letter =>
    have isMark : letter ∈ marks := by simpa using List.find?_some found
    rcases (two letter).mp isMark with rfl | rfl
    · rfl
    · exact absurd (List.mem_of_find?_eq_some found) none

theorem parseIP_fourOctets (bits : BitVec 32) :
    parseIP (fourOctets bits) = some (.v6 (mapped bits)) := by
  have noZone : '%' ∉ fourOctets bits := not_mem_fourOctets (by simp)
  have dotted : '.' ∈ fourOctets bits := by
    simp [fourOctets, digits]
  have noColon : ':' ∉ fourOctets bits := not_mem_fourOctets (by simp)
  have first : (fourOctets bits).find? (· ∈ ['.', ':']) = some '.' :=
    find?_mark (by simp) dotted noColon
  simp only [parseIP, noZone, if_false, first, readIPv4_fourOctets, Option.map_some]

theorem parseIP_text (ip : IP) : parseIP ip.text = some ip.to16 := by
  cases four : ip.to4 with
  | some bits =>
    have text : ip.text = fourOctets bits := by
      cases ip <;> simp [IP.text, four]
    simp [text, parseIP_fourOctets, IP.to16, four]
  | none =>
    cases ip with
    | v4 bits => simp [IP.to4] at four
    | v6 bits =>
      have noZone : '%' ∉ (IP.v6 bits).text := not_mem_text (by simp)
      have noDot : '.' ∉ (IP.v6 bits).text := by
        have groups : ∀ groups, '.' ∉ colonGroups groups := fun groups =>
          not_mem_colonGroups (by simp)
        simp only [IP.text, four]
        split <;> simp [groups]
      have colons : ':' ∈ (IP.v6 bits).text := by
        simp only [IP.text, four]
        split
        · simp [digits, colonGroups]
        · simp
      have first : (IP.v6 bits).text.find? (· ∈ ['.', ':']) = some ':' :=
        find?_mark (by simp; tauto) colons noDot
      simp only [parseIP, noZone, if_false, first, readIPv6_text four, Option.map_some, IP.to16,
        four, Option.elim_none]

theorem splitHost_joinHostPort {host : List Char} (plain : '[' ∉ host ∧ ']' ∉ host) (port : ℕ) :
    splitHost (joinHostPort host port) = some host := by
  have bare : ∀ mark ∈ [':', '[', ']'], mark ∉ Nat.toDigits 10 port := by
    intro mark isMark
    apply not_mem_toDigits (by omega) (by omega)
    simp at isMark ⊢
    tauto
  have noColon := bare ':' (by simp)
  have noOpening := bare '[' (by simp)
  have noClosing := bare ']' (by simp)
  by_cases colons : ':' ∈ host
  · have written : joinHostPort host port =
        '[' :: (host ++ ']' :: ':' :: Nat.toDigits 10 port) := by
      simp [joinHostPort, colons]
    have inside : ∀ letter ∈ host, decide (letter ≠ ']') = true := by
      intro letter mem
      apply decide_eq_true
      rintro rfl
      exact plain.2 mem
    have rest : (host ++ ']' :: ':' :: Nat.toDigits 10 port).dropWhile (· ≠ ']') =
        ']' :: ':' :: Nat.toDigits 10 port := by
      simp only [List.dropWhile_append_of_pos inside]
      simp
    have front : (host ++ ']' :: ':' :: Nat.toDigits 10 port).takeWhile (· ≠ ']') = host := by
      simp only [List.takeWhile_append_of_pos inside]
      simp
    simp only [written, splitHost, rest, front]
    simp [plain, noColon, noOpening, noClosing]
  · have written : joinHostPort host port = host ++ ':' :: Nat.toDigits 10 port := by
      simp [joinHostPort, colons]
    have before := beforeLast_append noColon host
    have unopened : '[' ∉ host ++ ':' :: Nat.toDigits 10 port := by
      simp [plain, noOpening]
    have unclosed : ']' ∉ host ++ ':' :: Nat.toDigits 10 port := by
      simp [plain, noClosing]
    have parted : ':' ∈ host ++ ':' :: Nat.toDigits 10 port := by simp
    simp only [written]
    generalize host ++ ':' :: Nat.toDigits 10 port = text at before unopened unclosed parted
    unfold splitHost
    split
    · contradiction
    · split
      · simp at unopened
      · simp [before, colons, unopened, unclosed]

theorem splitHost_text {endpoint : Endpoint} (noZone : endpoint.zone = []) :
    splitHost endpoint.text = some endpoint.ip.text := by
  simp only [Endpoint.text, noZone, if_true]
  apply splitHost_joinHostPort
  exact ⟨not_mem_text (by simp), not_mem_text (by simp)⟩

theorem mem_of_splitHost {front back host : List Char} {port : ℕ}
    (plain : '[' ∉ front ∧ ']' ∉ front) (other : mark ∉ [':', '[', ']'])
    (split : splitHost (joinHostPort (front ++ mark :: back) port) = some host) : mark ∈ host := by
  simp only [List.mem_cons, List.not_mem_nil, or_false, not_or] at other
  have noColon : ':' ∉ Nat.toDigits 10 port := not_mem_toDigits (by omega) (by omega) (by simp)
  by_cases colons : ':' ∈ front ++ mark :: back
  · have inside : ∀ letter ∈ front ++ [mark], decide (letter ≠ ']') = true := by
      intro letter mem
      apply decide_eq_true
      rintro rfl
      simp only [List.mem_append, List.mem_singleton] at mem
      rcases mem with isFront | isMark
      · exact plain.2 isFront
      · exact other.2.2 isMark.symm
    have written : joinHostPort (front ++ mark :: back) port =
        '[' :: ((front ++ [mark]) ++ (back ++ ']' :: ':' :: Nat.toDigits 10 port)) := by
      simp [joinHostPort, colons]
    simp only [written, splitHost, List.takeWhile_append_of_pos inside] at split
    split at split
    · simp at split
    · split at split
      · split at split
        · simp at split
        · simp only [Option.some.injEq] at split
          simp [← split]
      · simp at split
  · have written : joinHostPort (front ++ mark :: back) port =
        (front ++ mark :: back) ++ ':' :: Nat.toDigits 10 port := by
      simp [joinHostPort, colons]
    have before := beforeLast_append noColon (front ++ mark :: back)
    simp only [written] at split
    unfold splitHost at split
    split at split
    · simp at split
    · split at split
      · rename_i rest starts
        cases front with
        | nil => simp [other.2.1] at starts
        | cons letter front => simp_all
      · simp only [before] at split
        split at split
        · simp at split
        · simp only [Option.some.injEq] at split
          simp [← split]

theorem percent_mem_of_zone {endpoint : Endpoint} (zoned : endpoint.zone ≠ []) :
    '%' ∈ (splitHost endpoint.text).getD endpoint.text := by
  have plain : '[' ∉ endpoint.ip.text ∧ ']' ∉ endpoint.ip.text :=
    ⟨not_mem_text (by simp), not_mem_text (by simp)⟩
  simp only [Endpoint.text, zoned, if_false, List.append_assoc, List.singleton_append]
  cases split : splitHost (joinHostPort (endpoint.ip.text ++ '%' :: endpoint.zone) endpoint.port) with
  | none =>
    simp only [Option.getD_none, joinHostPort]
    split <;> simp
  | some host => exact mem_of_splitHost plain (by simp) split

end Internet
