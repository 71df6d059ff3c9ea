import Xi2p.Router.Parsing

/-!
# Writing router infos

`CreateRouterInfo` of `core/router/info.cc`, and the part of `StringStream` of
`core/util/filesystem.cc` that it is written with. A key or a value of more than 255 bytes is refused
with an exception, and so is an identity of more than 1024 bytes.

An introducer is numbered by a `std::uint8_t`. This is a character type, so that
`boost::lexical_cast<std::string>` turns the number `n` into the character with code `n`.

* `createRouterInfo`: the bytes that are then signed.
* `createRouterInfo_ok`: what fits the length bytes is written.
-/

namespace Router

open Bytes I2NP Identity

/-! ## Texts -/

/-- Functions of boost and of Crypto++. -/
structure WriteEnv where
  /-- `boost::asio::ip::address::to_string`. -/
  toString : SSU.IPAddress → List UInt8
  /-- `Base64::Encode`. -/
  base64Encode : List UInt8 → List UInt8

/-- `boost::lexical_cast<std::string>`, for a number of 16 or 32 bits. -/
def decimal (n : ℕ) : List UInt8 := (Nat.toDigits 10 n).map fun c => UInt8.ofNat c.toNat

/-- `boost::lexical_cast<std::string>`, for a `std::uint8_t`. -/
def characterText (n : UInt8) : List UInt8 := [n]

theorem length_decimal_le {n : ℕ} (h : n < 2 ^ 32) : (decimal n).length ≤ 255 := by
  have hdigits : (Nat.toDigits 10 n).length ≤ 10 := Nat.toDigits_length 10 n 10 (by omega) (by omega)
  rw [decimal, List.length_map]
  omega

/-! ## Key pairs -/

/-- A key and its value. -/
abbrev KeyPair := List UInt8 × List UInt8

/-- `WriteByteAndString`. -/
def writeByteAndString (string : List UInt8) : Except Failure (List UInt8) :=
  if 255 < string.length then .error (.lengthError "StringStream: WriteByteAndStringinvalid length")
  else .ok (UInt8.ofNat string.length :: string)

/-- `WriteKeyPair`. -/
def writeKeyPair (key value : List UInt8) : Except Failure (List UInt8) := do
  let key ← writeByteAndString key
  let value ← writeByteAndString value
  return key ++ trait "=" ++ value ++ trait ";"

/-- Calls of `WriteKeyPair`, one after the other. -/
def writeKeyPairs : List KeyPair → Except Failure (List UInt8)
  | [] => return []
  | (key, value) :: pairs => do
    let pair ← writeKeyPair key value
    let rest ← writeKeyPairs pairs
    return pair ++ rest

/-- The options of an address or of a router info: their size, in 16 bits, and the key pairs. -/
def writeOptions (pairs : List KeyPair) : Except Failure (List UInt8) := do
  let options ← writeKeyPairs pairs
  return writeU16 (UInt16.ofNat options.length) ++ options

/-! ## Addresses -/

/-- `Cap::SSUTesting`. -/
abbrev capSSUTesting : UInt8 := 0x10

/-- `Cap::SSUIntroducer`. -/
abbrev capSSUIntroducer : UInt8 := 0x20

/-- The SSU capabilities flags. -/
def ssuCapsFlags (c : Contents) : List UInt8 :=
  (if c.caps &&& capSSUTesting ≠ 0 then trait "B" else []) ++
    (if c.caps &&& capSSUIntroducer ≠ 0 then trait "C" else [])

/-- What is written for one introducer. -/
def introducerPairs (env : WriteEnv) (count : UInt8) (introducer : Introducer) : List KeyPair :=
  let num := characterText count
  [(trait "ihost" ++ num, env.toString introducer.host),
    (trait "ikey" ++ num, env.base64Encode introducer.key),
    (trait "iport" ++ num, decimal introducer.port.toNat),
    (trait "itag" ++ num, decimal introducer.tag.toNat)]

/-- The loop over the introducers. -/
def introducersPairs (env : WriteEnv) : UInt8 → List Introducer → List KeyPair
  | _, [] => []
  | count, introducer :: introducers =>
    introducerPairs env count introducer ++ introducersPairs env (count + 1) introducers

/-- What is written for an SSU address only. -/
def ssuPairs (env : WriteEnv) (address : Address) : List KeyPair :=
  introducersPairs env 0 address.introducers ++
    (trait "key", env.base64Encode address.key) ::
      (if address.mtu ≠ 0 then [(trait "mtu", decimal address.mtu.toNat)] else [])

/-- The options of an address. -/
def addressPairs (env : WriteEnv) (caps : List UInt8) (address : Address) : List KeyPair :=
  (if address.transport = .ssu then [(trait "caps", caps)] else []) ++
    (trait "host", env.toString address.host) ::
      (if address.transport = .ssu then ssuPairs env address else []) ++
    [(trait "port", decimal address.port.toNat)]

/-- `GetTrait(transport)`. -/
def Transport.name : Transport → List UInt8
  | ntcp => trait "NTCP"
  | ssu => trait "SSU"
  | unknown => []

/-- One round of the loop over the addresses. The date is written as it stands in memory. -/
def writeAddress (env : WriteEnv) (caps : List UInt8) (address : Address) :
    Except Failure (List UInt8) := do
  let transport ← writeByteAndString address.transport.name
  let options ← writeOptions (addressPairs env caps address)
  return address.cost :: (writeBE 8 address.date.toNat).reverse ++ transport ++ options

/-- The loop over the addresses. -/
def writeAddresses (env : WriteEnv) (caps : List UInt8) : List Address → Except Failure (List UInt8)
  | [] => return []
  | address :: addresses => do
    let address ← writeAddress env caps address
    let rest ← writeAddresses env caps addresses
    return address ++ rest

/-! ## Router infos -/

/-- `ToBuffer`, into a buffer of 1024 bytes. -/
def writeIdentity (identity : IdentityEx) : Except Failure (List UInt8) :=
  if 1024 < identity.toBuffer.length then
    .error (.lengthError "IdentityEx: supplied buffer is too small")
  else .ok identity.toBuffer

/-- What stands between the timestamp and the signature. -/
def writeMembers (env : WriteEnv) (c : Contents) : Except Failure (List UInt8) := do
  let addresses ← writeAddresses env (ssuCapsFlags c) c.addresses
  let options ← writeOptions c.options
  -- no peers
  return UInt8.ofNat c.addresses.length :: addresses ++ 0 :: options

/-- `CreateRouterInfo`, at time `now`. -/
def createRouterInfo (env : WriteEnv) (identity : IdentityEx) (now : UInt64) (c : Contents) :
    Except Failure (Contents × List UInt8) := do
  let ident ← writeIdentity identity
  let c := { c with timestamp := now }
  let members ← writeMembers env c
  return (c, ident ++ writeBE 8 now.toNat ++ members)

/-! ## What is written -/

/-- The bytes of a key pair. -/
def keyPairBytes (pair : KeyPair) : List UInt8 :=
  (UInt8.ofNat pair.1.length :: pair.1) ++ 61 :: (UInt8.ofNat pair.2.length :: pair.2) ++ [59]

/-- The bytes of key pairs. -/
def keyPairsBytes (pairs : List KeyPair) : List UInt8 := pairs.flatMap keyPairBytes

/-- The bytes of an options block. -/
def optionsBytes (pairs : List KeyPair) : List UInt8 :=
  writeU16 (UInt16.ofNat (keyPairsBytes pairs).length) ++ keyPairsBytes pairs

/-- The bytes of an address. -/
def addressBytes (env : WriteEnv) (caps : List UInt8) (address : Address) : List UInt8 :=
  address.cost :: (writeBE 8 address.date.toNat).reverse ++
    (UInt8.ofNat address.transport.name.length :: address.transport.name) ++
    optionsBytes (addressPairs env caps address)

/-- The bytes of the members. -/
def membersBytes (env : WriteEnv) (c : Contents) : List UInt8 :=
  UInt8.ofNat c.addresses.length :: c.addresses.flatMap (addressBytes env (ssuCapsFlags c)) ++
    0 :: optionsBytes c.options

/-- The keys and the values fit their length bytes. -/
def PairsFit (pairs : List KeyPair) : Prop :=
  ∀ pair ∈ pairs, pair.1.length ≤ 255 ∧ pair.2.length ≤ 255

/-- The texts of a host fit a length byte. -/
def WriteEnv.HostFits (env : WriteEnv) (host : SSU.IPAddress) : Prop :=
  (env.toString host).length ≤ 255

/-- The texts of a key fit a length byte. -/
def WriteEnv.KeyFits (env : WriteEnv) (key : List UInt8) : Prop := (env.base64Encode key).length ≤ 255

/-- The texts of an address fit their length bytes. -/
structure WriteEnv.AddressFits (env : WriteEnv) (address : Address) : Prop where
  host : env.HostFits address.host
  key : env.KeyFits address.key
  introducer : ∀ introducer ∈ address.introducers,
    env.HostFits introducer.host ∧ env.KeyFits introducer.key

theorem writeByteAndString_ok {string : List UInt8} (h : string.length ≤ 255) :
    writeByteAndString string = .ok (UInt8.ofNat string.length :: string) :=
  if_neg (Nat.not_lt.mpr h)

theorem writeKeyPairs_ok {pairs : List KeyPair} (h : PairsFit pairs) :
    writeKeyPairs pairs = .ok (keyPairsBytes pairs) := by
  induction pairs with
  | nil => rfl
  | cons pair pairs ih =>
    obtain ⟨hkey, hvalue⟩ := h pair List.mem_cons_self
    have hrest := ih fun p hp => h p (List.mem_cons_of_mem _ hp)
    have hdelimiter : trait "=" = [61] := by decide +kernel
    have hterminator : trait ";" = [59] := by decide +kernel
    rw [writeKeyPairs, writeKeyPair, writeByteAndString_ok hkey, writeByteAndString_ok hvalue, hrest]
    simp [keyPairsBytes, keyPairBytes, hdelimiter, hterminator, Bind.bind, Except.bind, Pure.pure,
      Except.pure]

theorem writeOptions_ok {pairs : List KeyPair} (h : PairsFit pairs) :
    writeOptions pairs = .ok (optionsBytes pairs) := by
  rw [writeOptions, writeKeyPairs_ok h]
  rfl

theorem pairsFit_append {ps qs : List KeyPair} : PairsFit (ps ++ qs) ↔ PairsFit ps ∧ PairsFit qs :=
  List.forall_mem_append

theorem pairsFit_cons {key value : List UInt8} {ps : List KeyPair} :
    PairsFit ((key, value) :: ps) ↔ (key.length ≤ 255 ∧ value.length ≤ 255) ∧ PairsFit ps :=
  List.forall_mem_cons

theorem pairsFit_nil : PairsFit [] := fun _ h => nomatch h

theorem pairsFit_introducersPairs {env : WriteEnv} (count : UInt8) {introducers : List Introducer}
    (h : ∀ introducer ∈ introducers, env.HostFits introducer.host ∧ env.KeyFits introducer.key) :
    PairsFit (introducersPairs env count introducers) := by
  induction introducers generalizing count with
  | nil => exact pairsFit_nil
  | cons introducer introducers ih =>
    obtain ⟨hhost, hkey⟩ := h introducer List.mem_cons_self
    have hport := introducer.port.toNat_lt
    have htag := introducer.tag.toNat_lt
    have hname (name : String) (hname : (trait name).length ≤ 254) :
        (trait name ++ characterText count).length ≤ 255 := by
      rw [List.length_append]
      exact Nat.succ_le_succ hname
    refine pairsFit_append.mpr ⟨?_, ih (count + 1) fun i hi => h i (List.mem_cons_of_mem _ hi)⟩
    simp only [introducerPairs, pairsFit_cons]
    exact ⟨⟨hname "ihost" (by decide +kernel), hhost⟩, ⟨hname "ikey" (by decide +kernel), hkey⟩,
      ⟨hname "iport" (by decide +kernel), length_decimal_le (by omega)⟩,
      ⟨hname "itag" (by decide +kernel), length_decimal_le (by omega)⟩, pairsFit_nil⟩

theorem length_ssuCapsFlags_le (c : Contents) : (ssuCapsFlags c).length ≤ 255 := by
  have hB : (trait "B").length = 1 := by decide +kernel
  have hC : (trait "C").length = 1 := by decide +kernel
  rw [ssuCapsFlags, List.length_append]
  split <;> split <;> simp [hB, hC]

theorem pairsFit_addressPairs {env : WriteEnv} {caps : List UInt8} {address : Address}
    (hcaps : caps.length ≤ 255) (h : env.AddressFits address) :
    PairsFit (addressPairs env caps address) := by
  have hport := address.port.toNat_lt
  have hmtu := address.mtu.toNat_lt
  have hssu : PairsFit (ssuPairs env address) := by
    refine pairsFit_append.mpr ⟨pairsFit_introducersPairs 0 h.introducer, ?_⟩
    refine pairsFit_cons.mpr ⟨⟨by decide +kernel, h.key⟩, ?_⟩
    split
    · exact pairsFit_cons.mpr ⟨⟨by decide +kernel, length_decimal_le (by omega)⟩, pairsFit_nil⟩
    · exact pairsFit_nil
  refine pairsFit_append.mpr ⟨pairsFit_append.mpr ⟨?_, pairsFit_cons.mpr ⟨?_, ?_⟩⟩, ?_⟩
  · split
    · exact pairsFit_cons.mpr ⟨⟨by decide +kernel, hcaps⟩, pairsFit_nil⟩
    · exact pairsFit_nil
  · exact ⟨by decide +kernel, h.host⟩
  · split
    · exact hssu
    · exact pairsFit_nil
  · exact pairsFit_cons.mpr ⟨⟨by decide +kernel, length_decimal_le (by omega)⟩, pairsFit_nil⟩

theorem Transport.length_name_le (transport : Transport) : transport.name.length ≤ 255 := by
  cases transport <;> decide +kernel

theorem writeAddresses_ok {env : WriteEnv} {caps : List UInt8} (hcaps : caps.length ≤ 255)
    {addresses : List Address} (h : ∀ address ∈ addresses, env.AddressFits address) :
    writeAddresses env caps addresses = .ok (addresses.flatMap (addressBytes env caps)) := by
  induction addresses with
  | nil => rfl
  | cons address addresses ih =>
    have hrest := ih fun a ha => h a (List.mem_cons_of_mem _ ha)
    have hoptions := writeOptions_ok (pairsFit_addressPairs hcaps (h address List.mem_cons_self))
    rw [writeAddresses, writeAddress, writeByteAndString_ok address.transport.length_name_le,
      hoptions, hrest]
    rfl

/-- What fits the length bytes is written. -/
theorem createRouterInfo_ok {env : WriteEnv} {identity : IdentityEx} {c : Contents} (now : UInt64)
    (hidentity : identity.toBuffer.length ≤ 1024)
    (haddresses : ∀ address ∈ c.addresses, env.AddressFits address) (hoptions : PairsFit c.options) :
    createRouterInfo env identity now c =
      .ok ({ c with timestamp := now },
        identity.toBuffer ++ writeBE 8 now.toNat ++ membersBytes env c) := by
  have hident : writeIdentity identity = .ok identity.toBuffer := if_neg (Nat.not_lt.mpr hidentity)
  have hmembers : writeMembers env { c with timestamp := now } = .ok (membersBytes env c) := by
    rw [writeMembers, writeAddresses_ok (length_ssuCapsFlags_le _) haddresses,
      writeOptions_ok hoptions]
    rfl
  rw [createRouterInfo, hident]
  simp only [Bind.bind, Except.bind]
  rw [hmembers]
  rfl

/-! ## What fits is written -/

theorem except_bind_eq_ok_iff {ε α β : Type} {x : Except ε α} {f : α → Except ε β} {r : β} :
    x >>= f = .ok r ↔ ∃ a, x = .ok a ∧ f a = .ok r := by
  rcases x with e | a
  · exact iff_of_false nofun (by rintro ⟨a, h, -⟩; cases h)
  · exact ⟨fun h => ⟨a, rfl, h⟩, fun ⟨_, h, hf⟩ => (Except.ok.inj h) ▸ hf⟩

theorem writeByteAndString_eq_ok_iff {string bytes : List UInt8} :
    writeByteAndString string = .ok bytes ↔
      string.length ≤ 255 ∧ bytes = UInt8.ofNat string.length :: string := by
  rw [writeByteAndString]
  split
  next hlong => exact iff_of_false nofun fun h => Nat.not_lt.mpr h.1 hlong
  next hshort =>
    rw [Except.ok.injEq]
    exact ⟨fun h => ⟨Nat.not_lt.mp hshort, h.symm⟩, fun h => h.2.symm⟩

/-- Key pairs are written if they fit the length bytes. -/
theorem writeKeyPairs_eq_ok_iff {pairs : List KeyPair} {bytes : List UInt8} :
    writeKeyPairs pairs = .ok bytes ↔ PairsFit pairs ∧ bytes = keyPairsBytes pairs := by
  constructor
  · intro h
    suffices hfit : PairsFit pairs by
      rw [writeKeyPairs_ok hfit] at h
      exact ⟨hfit, (Except.ok.inj h).symm⟩
    induction pairs generalizing bytes with
    | nil => exact pairsFit_nil
    | cons pair pairs ih =>
      obtain ⟨_, hpair, h⟩ := except_bind_eq_ok_iff.mp h
      obtain ⟨_, hrest, -⟩ := except_bind_eq_ok_iff.mp h
      obtain ⟨_, hkey, hpair⟩ := except_bind_eq_ok_iff.mp hpair
      obtain ⟨_, hvalue, -⟩ := except_bind_eq_ok_iff.mp hpair
      refine pairsFit_cons.mpr ⟨⟨?_, ?_⟩, ih hrest⟩
      · exact (writeByteAndString_eq_ok_iff.mp hkey).1
      · exact (writeByteAndString_eq_ok_iff.mp hvalue).1
  · rintro ⟨hfit, rfl⟩
    exact writeKeyPairs_ok hfit

theorem writeOptions_eq_ok_iff {pairs : List KeyPair} {bytes : List UInt8} :
    writeOptions pairs = .ok bytes ↔ PairsFit pairs ∧ bytes = optionsBytes pairs := by
  constructor
  · intro h
    obtain ⟨_, hpairs, -⟩ := except_bind_eq_ok_iff.mp h
    have hfit := (writeKeyPairs_eq_ok_iff.mp hpairs).1
    rw [writeOptions_ok hfit] at h
    exact ⟨hfit, (Except.ok.inj h).symm⟩
  · rintro ⟨hfit, rfl⟩
    exact writeOptions_ok hfit

/-- Addresses are written if the key pairs of each fit. -/
theorem writeAddresses_eq_ok_iff {env : WriteEnv} {caps : List UInt8} {addresses : List Address}
    {bytes : List UInt8} :
    writeAddresses env caps addresses = .ok bytes ↔
      (∀ a ∈ addresses, PairsFit (addressPairs env caps a)) ∧
        bytes = addresses.flatMap (addressBytes env caps) := by
  induction addresses generalizing bytes with
  | nil => exact ⟨fun h => ⟨nofun, (Except.ok.inj h).symm⟩, fun h => congrArg Except.ok h.2.symm⟩
  | cons address addresses ih =>
    have hone (written : List UInt8) : writeAddress env caps address = .ok written ↔
        PairsFit (addressPairs env caps address) ∧ written = addressBytes env caps address := by
      rw [writeAddress, writeByteAndString_ok address.transport.length_name_le]
      constructor
      · intro h
        obtain ⟨_, hname, h⟩ := except_bind_eq_ok_iff.mp h
        obtain ⟨_, hoptions, h⟩ := except_bind_eq_ok_iff.mp h
        obtain ⟨hfit, rfl⟩ := writeOptions_eq_ok_iff.mp hoptions
        obtain rfl := Except.ok.inj hname
        exact ⟨hfit, (Except.ok.inj h).symm⟩
      · rintro ⟨hfit, rfl⟩
        rw [writeOptions_ok hfit]
        rfl
    rw [writeAddresses, except_bind_eq_ok_iff, List.forall_mem_cons, List.flatMap_cons]
    simp only [hone, except_bind_eq_ok_iff, ih]
    constructor
    · rintro ⟨_, ⟨hfit, rfl⟩, _, ⟨hrest, rfl⟩, h⟩
      exact ⟨⟨hfit, hrest⟩, (Except.ok.inj h).symm⟩
    · rintro ⟨⟨hfit, hrest⟩, rfl⟩
      exact ⟨_, ⟨hfit, rfl⟩, _, ⟨hrest, rfl⟩, rfl⟩

theorem writeMembers_eq_ok_iff {env : WriteEnv} {c : Contents} {bytes : List UInt8} :
    writeMembers env c = .ok bytes ↔ ∃ addresses,
      writeAddresses env (ssuCapsFlags c) c.addresses = .ok addresses ∧ PairsFit c.options ∧
        bytes = UInt8.ofNat c.addresses.length :: addresses ++ 0 :: optionsBytes c.options := by
  rw [writeMembers, except_bind_eq_ok_iff]
  refine exists_congr fun addresses => and_congr_right fun _ => ?_
  rw [except_bind_eq_ok_iff]
  constructor
  · rintro ⟨options, hoptions, hbytes⟩
    obtain ⟨hfit, rfl⟩ := writeOptions_eq_ok_iff.mp hoptions
    exact ⟨hfit, (Except.ok.inj hbytes).symm⟩
  · rintro ⟨hfit, rfl⟩
    exact ⟨_, writeOptions_ok hfit, rfl⟩

theorem createRouterInfo_eq_ok_iff {env : WriteEnv} {identity : IdentityEx} {now : UInt64}
    {c : Contents} {r : Contents × List UInt8} :
    createRouterInfo env identity now c = .ok r ↔
      identity.toBuffer.length ≤ 1024 ∧ ∃ members, writeMembers env c = .ok members ∧
        r = ({ c with timestamp := now },
          identity.toBuffer ++ writeBE 8 now.toNat ++ members) := by
  rw [createRouterInfo, except_bind_eq_ok_iff, writeIdentity]
  split
  next hlong =>
    exact iff_of_false (by rintro ⟨_, h, -⟩; cases h) fun h => Nat.not_lt.mpr h.1 hlong
  next hshort =>
    simp only [Except.ok.injEq, exists_eq_left', except_bind_eq_ok_iff]
    constructor
    · rintro ⟨members, hmembers, h⟩
      exact ⟨Nat.not_lt.mp hshort, members, hmembers, (Except.ok.inj h).symm⟩
    · rintro ⟨-, members, hmembers, rfl⟩
      exact ⟨members, hmembers, rfl⟩

/-- The identity fits its buffer, and the keys and the values their length bytes. -/
structure WriteEnv.Fits (env : WriteEnv) (identity : IdentityEx) (c : Contents) : Prop where
  identity_le : identity.toBuffer.length ≤ 1024
  address : ∀ a ∈ c.addresses, PairsFit (addressPairs env (ssuCapsFlags c) a)
  options : PairsFit c.options

/-- What fits is written, and nothing else. -/
theorem createRouterInfo_eq_ok_iff_fits {env : WriteEnv} {identity : IdentityEx} {now : UInt64}
    {c : Contents} {r : Contents × List UInt8} :
    createRouterInfo env identity now c = .ok r ↔
      env.Fits identity c ∧ r = ({ c with timestamp := now },
        identity.toBuffer ++ writeBE 8 now.toNat ++ membersBytes env c) := by
  simp only [createRouterInfo_eq_ok_iff, writeMembers_eq_ok_iff, writeAddresses_eq_ok_iff]
  constructor
  · rintro ⟨hidentity, _, ⟨_, ⟨haddress, rfl⟩, hoptions, rfl⟩, rfl⟩
    exact ⟨⟨hidentity, haddress, hoptions⟩, rfl⟩
  · rintro ⟨h, rfl⟩
    exact ⟨h.identity_le, _, ⟨_, ⟨h.address, rfl⟩, h.options, rfl⟩, rfl⟩

end Router
