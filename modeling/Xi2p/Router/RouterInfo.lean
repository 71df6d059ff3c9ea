import Xi2p.Identity
import Xi2p.Lib.KeyedSet
import Xi2p.SSU.Packet

/-!
# Router infos

`RouterInfo` of `core/router/info.cc`, and the `StringStream` of `core/util/filesystem.cc` that it is
parsed from. `ParseRouterInfo` writes to the members of the router info as it reads, so an exception
leaves what it has written so far; the members that it writes are the `Contents`.

A stream that has failed reads nothing more, and variables that were to be read keep what they had.
For a variable without an initial value this is whatever the memory holds: the bytes of `junk`, in the
order in which they are used. The loops over key pairs count in 16 bits and need not end; they are
given `fuel`.

* `RouterInfo.ofBuffer`, `RouterInfo.update`: a router info from the network.
-/

namespace Router

open Bytes I2NP Identity

/-! ## Streams -/

/-- `StringStream`, as it is read. -/
structure StringStream where
  /-- The bytes that have not been read. -/
  rest : List UInt8
  /-- `failbit`. -/
  failed : Bool := false
  /-- What variables without a value hold. -/
  junk : ℕ → UInt8
  /-- The block sizes that have been read. The source keeps no record of them. -/
  blockSizes : List UInt16 := []

namespace StringStream

/-- `n` bytes of variables without a value. -/
def uninitialised (n : ℕ) : StateM StringStream (List UInt8) := fun s =>
  ((List.range n).map s.junk, { s with junk := fun i => s.junk (i + n) })

/-- `Read` into a variable that holds `old`. -/
def readOver (old : List UInt8) : StateM StringStream (List UInt8) := fun s =>
  if s.failed then (old, s)
  else
    let got := s.rest.take old.length
    (got ++ old.drop got.length,
      { s with rest := s.rest.drop old.length, failed := s.rest.length < old.length })

/-- `Seekg(n, std::ios_base::cur)`. -/
def seekg (n : ℕ) : StateM StringStream Unit := fun s =>
  if s.failed then ((), s)
  else if n ≤ s.rest.length then ((), { s with rest := s.rest.drop n })
  else ((), { s with failed := true })

/-- `Read` into an 8-bit variable. -/
def readU8 (old : UInt8) : StateM StringStream UInt8 := do
  let bs ← readOver [old]
  return bs.headD 0

/-- `Read` of a block size, and `big_to_native_inplace`; in memory its low byte is first. -/
def readBlockSize (old : UInt16) : StateM StringStream UInt16 := do
  let bs ← readOver (writeU16 old).reverse
  modify fun s => { s with blockSizes := s.blockSizes ++ [readU16 bs] }
  return readU16 bs

/-- `Read` into a 64-bit variable, and `big_to_native_inplace`. -/
def readBig64 (old : UInt64) : StateM StringStream UInt64 := do
  let bs ← readOver (writeBE 8 old.toNat).reverse
  return UInt64.ofNat (readBE bs)

/-- `Read` into a 64-bit variable. -/
def readNative64 (old : UInt64) : StateM StringStream UInt64 := do
  let bs ← readOver (writeBE 8 old.toNat).reverse
  return UInt64.ofNat (readBE bs.reverse)

/-- `ReadStringFromByte`. -/
def readStringFromByte : StateM StringStream (List UInt8) := do
  let len ← uninitialised 1
  let len ← readU8 (len.headD 0)
  let buf ← uninitialised len.toNat
  readOver buf

/-- `ReadKeyPair`: the key, the value and the size. -/
def readKeyPair : StateM StringStream (List UInt8 × List UInt8 × UInt16) := do
  let key ← readStringFromByte
  -- skip delimiter
  seekg 1
  let value ← readStringFromByte
  -- skip terminator
  seekg 1
  return (key, value, UInt16.ofNat (key.length + 2 + value.length + 2))

end StringStream

/-! ## Addresses and capabilities -/

/-- `Transport`. -/
inductive Transport
  | ntcp
  | ssu
  | unknown
  deriving DecidableEq

/-- `Introducer`. -/
structure Introducer where
  host : SSU.IPAddress := .unspecified
  port : UInt16 := 0
  key : List UInt8 := List.replicate 32 0
  tag : UInt32 := 0

/-- `Address`. -/
structure Address where
  transport : Transport
  host : SSU.IPAddress := .unspecified
  /-- A host that has not been resolved. -/
  address : List UInt8 := []
  port : UInt16 := 0
  mtu : UInt16 := 0
  date : UInt64 := 0
  cost : UInt8 := 0
  key : List UInt8 := List.replicate 32 0
  introducers : List Introducer := []

/-- `SupportedTransport`, for a transport and an IP version. -/
def supportedTransport (isNTCP isV4 : Bool) : UInt8 :=
  match isNTCP, isV4 with
  | true, true => 0x01
  | true, false => 0x02
  | false, true => 0x04
  | false, false => 0x08

/-- `Cap::Floodfill`. -/
abbrev capFloodfill : UInt8 := 0x01

/-- `Cap::Unreachable`. -/
abbrev capUnreachable : UInt8 := 0x80

/-- The bits of a flag in the `caps` option. -/
def capOfFlag (flag : UInt8) : UInt8 :=
  match Char.ofNat flag.toNat with
  | 'f' => capFloodfill
  | 'X' => 0x02
  | 'M' | 'N' | 'O' | 'P' => 0x04
  | 'R' => 0x08
  | 'B' => 0x10
  | 'C' => 0x20
  | 'H' => 0x40
  | 'U' => capUnreachable
  -- low bandwidth, and unknown flags
  | _ => 0

/-! ## Parsing -/

/-- Functions of boost and of Crypto++. -/
structure ParseEnv where
  /-- `boost::asio::ip::address::from_string`; an error is an invalid argument, or another one. -/
  fromString : List UInt8 → Except Bool SSU.IPAddress
  /-- `boost::lexical_cast<std::uint16_t>`. -/
  lexicalCast16 : List UInt8 → Option UInt16
  /-- `boost::lexical_cast<std::uint32_t>`. -/
  lexicalCast32 : List UInt8 → Option UInt32
  /-- `Base64::Decode`. -/
  base64Decode : List UInt8 → Option (List UInt8)

/-- The members that `ParseRouterInfo` writes. -/
structure Contents where
  /-- `m_Timestamp`. -/
  timestamp : UInt64 := 0
  /-- `m_Addresses`. -/
  addresses : List Address := []
  /-- `m_Options`, in the order of the map. -/
  options : List (List UInt8 × List UInt8) := []
  /-- `m_SupportedTransports`. -/
  supportedTransports : UInt8 := 0
  /-- `m_Caps`. -/
  caps : UInt8 := 0
  /-- `m_IsUnreachable`. -/
  isUnreachable : Bool := false

/-- Why a call does not return normally. -/
inductive Failure
  | lengthError (what : String)
  | badLexicalCast
  | badBase64
  /-- It does not return. -/
  | hangs
  deriving DecidableEq

/-- Reading and writing; what has been written stays when an exception is thrown. -/
abbrev ParseM := ExceptT Failure (StateM (StringStream × Contents))

namespace Contents

/-- `SetCaps`. -/
def setCaps (c : Contents) (caps : List UInt8) : Contents :=
  { c with caps := caps.foldl (fun caps flag => caps ||| capOfFlag flag) c.caps }

/-- `SetOption`. -/
def setOption (c : Contents) (key value : List UInt8) : Contents :=
  let others := c.options.filter (·.1 ≠ key)
  { c with options := KeyedSet.insert (fun option => option.1.map UInt8.toNat) (key, value) others }

/-- `HasCap(Cap::Floodfill)`. -/
def hasFloodfill (c : Contents) : Bool := c.caps &&& capFloodfill ≠ 0

/-- `UsesIntroducer`. -/
def usesIntroducer (c : Contents) : Bool := c.caps &&& capUnreachable ≠ 0

end Contents

namespace ParseM

/-- A read from the stream. -/
def stream {α : Type} (read : StateM StringStream α) : ParseM α := fun s =>
  let r := read s.1
  (.ok r.1, (r.2, s.2))

/-- A write to the members. -/
def write (f : Contents → Contents) : ParseM Unit := fun s => (.ok (), (s.1, f s.2))

/-- The result of a conversion, or its exception. -/
def orThrow {α : Type} (e : Failure) : Option α → ParseM α
  | some a => pure a
  | none => throw e

/-- `memcpy` of a key from a vector, which may be shorter. -/
def copyKey (decoded : List UInt8) : ParseM (List UInt8) := do
  let outside ← stream (StringStream.uninitialised (32 - decoded.length))
  return decoded.take 32 ++ outside

end ParseM

open ParseM

/-- The variables of the loop over the options of an address. -/
structure AddressState where
  address : Address
  /-- `is_valid_address`. -/
  isValid : Bool := true
  /-- `has_introducers`. -/
  hasIntroducers : Bool

/-- The text of a trait. -/
def trait (name : String) : List UInt8 := name.toUTF8.toList

/-- `Trait::Host`. -/
def parseHost (env : ParseEnv) (st : AddressState) (value : List UInt8) : ParseM AddressState := do
  let isNTCP := st.address.transport = .ntcp
  match env.fromString value with
  | .ok host =>
    write fun c => { c with
      supportedTransports := c.supportedTransports ||| supportedTransport isNTCP host.isV4 }
    return { st with address.host := host }
  | .error isInvalidArgument =>
    -- unresolved hosts return invalid argument
    let st := { st with
      isValid := st.isValid && isInvalidArgument
      address.host := .unspecified }
    if isNTCP then
      write fun c => { c with
        supportedTransports := c.supportedTransports ||| supportedTransport true true }
      return { st with address.address := value }
    else return { st with isValid := false }

/-- The introducer options; the last character of the key is the number of the introducer. -/
def parseIntroducer (env : ParseEnv) (st : AddressState) (key value : List UInt8) :
    ParseM AddressState := do
  let index := (key.getLastD 0 - 48).toNat
  let introducers := st.address.introducers
  let introducers := introducers ++ List.replicate (index + 1 - introducers.length) ({} : Introducer)
  let st := { st with hasIntroducers := true, address.introducers := introducers }
  let introducer := introducers.getD index {}
  let set (introducer : Introducer) : AddressState :=
    { st with address.introducers := introducers.set index introducer }
  let key := key.dropLast
  if key = trait "ihost" then
    match env.fromString value with
    | .ok host => return set { introducer with host }
    | .error _ =>
      let host := SSU.IPAddress.unspecified
      return { set { introducer with host } with isValid := false }
  else if key = trait "iport" then
    let port ← orThrow .badLexicalCast (env.lexicalCast16 value)
    return set { introducer with port }
  else if key = trait "itag" then
    let tag ← orThrow .badLexicalCast (env.lexicalCast32 value)
    return set { introducer with tag }
  else if key = trait "ikey" then
    let decoded ← orThrow .badBase64 (env.base64Decode value)
    let key ← copyKey decoded
    return set { introducer with key }
  else return { st with isValid := false }

/-- One option of an address. -/
def parseAddressOption (env : ParseEnv) (st : AddressState) (key value : List UInt8) :
    ParseM AddressState := do
  if key = trait "host" then parseHost env st value
  else if key = trait "port" then
    let port ← orThrow .badLexicalCast (env.lexicalCast16 value)
    return { st with address.port := port }
  else if key = trait "mtu" then
    let mtu ← orThrow .badLexicalCast (env.lexicalCast16 value)
    return { st with address.mtu := mtu }
  else if key = trait "key" then
    let decoded := env.base64Decode value
    let key ← copyKey (decoded.getD [])
    return { st with isValid := st.isValid && decoded.isSome, address.key := key }
  else if key = trait "caps" then
    write fun c => c.setCaps value
    return st
  -- a key that starts with an `i`
  else if key.headD 0 = 105 then parseIntroducer env st key value
  else return st

/-- The loop over the options of an address. -/
def parseAddressOptions (env : ParseEnv) (givenSize : UInt16) :
    ℕ → UInt16 → AddressState → ParseM AddressState
  | 0, _, _ => throw .hangs
  | fuel + 1, remainingSize, st => do
    if remainingSize < givenSize then
      let (key, value, readSize) ← stream StringStream.readKeyPair
      let st ← parseAddressOption env st key value
      parseAddressOptions env givenSize fuel (remainingSize + readSize) st
    else return st

/-- The loop over the addresses. The variables `given_size` and `has_introducers` are shared. -/
def parseAddresses (env : ParseEnv) (fuel : ℕ) : ℕ → UInt16 → Bool → ParseM (UInt16 × Bool)
  | 0, givenSize, hasIntroducers => return (givenSize, hasIntroducers)
  | n + 1, givenSize, hasIntroducers => do
    let cost ← stream (StringStream.readU8 0)
    let date ← stream (StringStream.readNative64 0)
    let name ← stream StringStream.readStringFromByte
    let transport :=
      if name = trait "NTCP" then .ntcp else if name = trait "SSU" then .ssu else .unknown
    let givenSize ← stream (StringStream.readBlockSize givenSize)
    let st ← parseAddressOptions env givenSize fuel 0
      { address := { transport, cost, date }, hasIntroducers }
    if st.isValid then write fun c => { c with addresses := c.addresses ++ [st.address] }
    parseAddresses env fuel n givenSize st.hasIntroducers

/-- The loop over the remaining options. -/
def parseOptions (givenSize : UInt16) : ℕ → UInt16 → ParseM Unit
  | 0, _ => throw .hangs
  | fuel + 1, remainingSize => do
    if remainingSize < givenSize then
      let (key, value, readSize) ← stream StringStream.readKeyPair
      write fun c => c.setOption key value
      if key = trait "caps" then write fun c => c.setCaps value
      parseOptions givenSize fuel (remainingSize + readSize)

/-- The part of `ParseRouterInfo` behind the timestamp. -/
def parseMembers (env : ParseEnv) (fuel : ℕ) : ParseM Unit := do
  let junk ← stream (StringStream.uninitialised 1)
  let numAddresses ← stream (StringStream.readU8 (junk.headD 0))
  let (givenSize, hasIntroducers) ← parseAddresses env fuel numAddresses.toNat 0 false
  let junk ← stream (StringStream.uninitialised 1)
  let numPeers ← stream (StringStream.readU8 (junk.headD 0))
  stream (StringStream.seekg (numPeers.toNat * 32))
  let givenSize ← stream (StringStream.readBlockSize givenSize)
  parseOptions givenSize fuel 0
  -- router *should* be unreachable
  write fun c => { c with
    isUnreachable := c.isUnreachable || c.supportedTransports = 0 || c.addresses.isEmpty ||
      (c.usesIntroducer && !hasIntroducers) }

/-- `ParseRouterInfo`, on the stream. -/
def parseRouterInfo (env : ParseEnv) (fuel : ℕ) : ParseM Unit := do
  let old := (← get).2.timestamp
  let timestamp ← stream (StringStream.readBig64 old)
  write fun c => { c with timestamp }
  parseMembers env fuel

/-! ## Router infos -/

/-- `Size::MinBuffer`. -/
abbrev minBuffer : ℕ := 40

/-- `Size::MaxBuffer`. -/
abbrev maxBuffer : ℕ := 2048

/-- Functions that are the same in every call. -/
structure Env where
  crypto : Crypto
  parse : ParseEnv

/-- What a call finds in memory that it has not written, and how long it may run. -/
structure Ambient where
  /-- The values of variables without one. -/
  junk : ℕ → UInt8
  /-- The bytes behind a new buffer. -/
  outside : Mem
  fuel : ℕ

/-- A new buffer of `size` bytes. -/
def Ambient.newBuffer (ambient : Ambient) (size : ℕ) : Mem := fun i =>
  if i < size then 0 else ambient.outside i

/-- `RouterInfo`. -/
structure RouterInfo where
  /-- `m_RouterIdentity`. -/
  identity : IdentityEx := {}
  /-- `m_Buffer`, or null. -/
  buffer : Option Mem := none
  /-- `m_BufferLen`. -/
  bufferLen : ℕ := 0
  /-- `m_IsUpdated`. -/
  isUpdated : Bool := false
  /-- The other members. -/
  contents : Contents := {}

namespace RouterInfo

/-- `GetIdentHash`. -/
def getIdentHash (r : RouterInfo) : IdentHash := r.identity.identHash

/-- `IsUnreachable`. -/
def isUnreachable (r : RouterInfo) : Bool := r.contents.isUnreachable

/-- `SetUnreachable`. -/
def setUnreachable (r : RouterInfo) (unreachable : Bool) : RouterInfo :=
  { r with contents.isUnreachable := unreachable }

/-- The verification of the signature that stands at the end of the buffer. The length of the signed
part has 16 bits. -/
def verify (crypto : Crypto) (identity : IdentityEx) (m : Mem) (bufferLen : ℕ) : Bool :=
  let signatureLen := identity.getSignatureLen
  let len := (bufferLen + 65536 - signatureLen) % 65536
  identity.verify crypto (slice m 0 len) (slice m len signatureLen)

/-- `ParseRouterInfo`, on the bytes behind the identity. -/
def parseContents (env : Env) (ambient : Ambient) (contents : Contents) (bytes : List UInt8) :
    Except Failure Unit × Contents :=
  let stream : StringStream := { rest := bytes, junk := ambient.junk }
  let (result, _, contents) := parseRouterInfo env.parse ambient.fuel (stream, contents)
  (result, contents)

/-- `ReadFromBuffer`, on the buffer `m`: whether the signature was found to be valid, if it was
verified. -/
def readFromBuffer (env : Env) (ambient : Ambient) (verifySignature : Bool) (r : RouterInfo)
    (m : Mem) : Except Failure (Option Bool) × RouterInfo :=
  let (identity, identLen) := r.identity.fromBuffer env.crypto m 0 r.bufferLen
  if identLen = 0 then (.error (.lengthError "null ident length"), { r with identity })
  else
    match parseContents env ambient r.contents (slice m identLen (r.bufferLen - identLen)) with
    | (.error e, contents) => (.error e, { r with identity, contents })
    | (.ok _, contents) =>
      if verifySignature then
        let verified := verify env.crypto identity m r.bufferLen
        let contents := if verified then contents else { contents with isUnreachable := true }
        -- `DropVerifier`
        (.ok (some verified), { r with identity := { identity with verifier := none }, contents })
      else (.ok none, { r with identity, contents })

/-- `RouterInfo(buf, len)`. -/
def ofBuffer (env : Env) (ambient : Ambient) (data : List UInt8) :
    Except Failure (Bool × RouterInfo) :=
  if data.length < minBuffer ∨ maxBuffer < data.length then
    .error (.lengthError "RouterInfo: invalid buffer length")
  else
    let m := store (ambient.newBuffer maxBuffer) 0 data
    let r : RouterInfo := { buffer := some m, bufferLen := data.length }
    match r.readFromBuffer env ambient true m with
    | (.error e, _) => .error e
    | (.ok verified, r) => .ok (verified.getD true, { r with isUpdated := true })

/-- `RouterInfo(path)`, for a file with the given bytes. -/
def ofFile (env : Env) (ambient : Ambient) (file : List UInt8) : Except Failure RouterInfo :=
  if file.length < minBuffer ∨ maxBuffer < file.length then
    .error (.lengthError "RouterInfo: file is malformed")
  else
    let m := store (ambient.newBuffer maxBuffer) 0 file
    let r : RouterInfo := { buffer := some m, bufferLen := file.length }
    match r.readFromBuffer env ambient false m with
    | (.error e, _) => .error e
    | (.ok _, r) => .ok r

/-- What `Update` does before it reads the new buffer. -/
def clear (ambient : Ambient) (r : RouterInfo) (data : List UInt8) : RouterInfo × Mem :=
  let m := store (r.buffer.getD (ambient.newBuffer maxBuffer)) 0 data
  ({ r with
      buffer := some m
      bufferLen := data.length
      isUpdated := true
      contents := { timestamp := r.contents.timestamp } }, m)

/-- `Update`. -/
def update (env : Env) (ambient : Ambient) (r : RouterInfo) (data : List UInt8) :
    Except Failure (Option Bool) × RouterInfo :=
  if data.length < minBuffer ∨ maxBuffer < data.length then
    (.error (.lengthError "RouterInfo: Update: invalid buffer length"), r)
  else
    let (r, m) := r.clear ambient data
    r.readFromBuffer env ambient true m

end RouterInfo

/-! ## Identities of router infos -/

/-- The hash of the identity at the start of the data, if there is one. -/
def dataIdent (crypto : Crypto) (data : List UInt8) : Option IdentHash :=
  let identLen := IdentityEx.lenIn (store (fun _ => 0) 0 data) 0 data.length
  if identLen = 0 then none else some (crypto.sha256 (data.take identLen))

/-- An identity is read from the data, whatever was in the buffer before. -/
theorem lenIn_store (m : Mem) (data : List UInt8) :
    IdentityEx.lenIn (store m 0 data) 0 data.length =
      IdentityEx.lenIn (store (fun _ => 0) 0 data) 0 data.length := by
  by_cases hlen : data.length < defaultIdentitySize
  · simp [IdentityEx.lenIn, hlen]
  · have hcertificate (m : Mem) : slice (store m 0 data) (0 + 385) 2 = (data.drop 385).take 2 := by
      refine slice_store_sub m ?_
      simp only [defaultIdentitySize] at hlen
      omega
    simp [IdentityEx.lenIn, hcertificate]

theorem lenIn_le (m : Mem) (pos len : ℕ) : IdentityEx.lenIn m pos len ≤ len := by
  unfold IdentityEx.lenIn
  dsimp only
  split
  · exact Nat.zero_le _
  · split
    · assumption
    · exact Nat.zero_le _

/-- The hash after reading an identity from the data. -/
theorem fromBuffer_store_identHash (crypto : Crypto) (id : IdentityEx) (m : Mem)
    (data : List UInt8) :
    (id.fromBuffer crypto (store m 0 data) 0 data.length).1.identHash =
      (dataIdent crypto data).getD id.identHash := by
  rw [IdentityEx.fromBuffer_identHash, lenIn_store, dataIdent]
  split
  · rfl
  next hpos =>
    generalize hlen : IdentityEx.lenIn (store (fun _ => 0) 0 data) 0 data.length = identLen at hpos
    have hle : 0 + identLen ≤ data.length := by
      rw [Nat.zero_add, ← hlen]
      exact lenIn_le _ 0 data.length
    have hslice : slice (store m 0 data) (0 + 0) identLen = (data.drop 0).take identLen :=
      slice_store_sub m hle
    rw [Nat.add_zero, List.drop_zero] at hslice
    rw [hslice]
    rfl

namespace RouterInfo

/-- Whatever happens after the identity has been read, it stays. -/
theorem readFromBuffer_identHash (env : Env) (ambient : Ambient) (verifySignature : Bool)
    (r : RouterInfo) (m : Mem) :
    (r.readFromBuffer env ambient verifySignature m).2.getIdentHash =
      (r.identity.fromBuffer env.crypto m 0 r.bufferLen).1.identHash := by
  unfold readFromBuffer
  dsimp only
  split
  · rfl
  · split
    · rfl
    · split
      · rfl
      · rfl

/-- An identity was read if reading the buffer succeeds. -/
theorem lenIn_ne_zero_of_readFromBuffer {env : Env} {ambient : Ambient} {verifySignature : Bool}
    {r r' : RouterInfo} {m : Mem} {verified : Option Bool}
    (h : r.readFromBuffer env ambient verifySignature m = (.ok verified, r')) :
    IdentityEx.lenIn m 0 r.bufferLen ≠ 0 := by
  unfold readFromBuffer at h
  dsimp only at h
  split at h
  · cases h
  next hne =>
    rw [IdentityEx.fromBuffer_snd] at hne
    exact hne

theorem ofBuffer_identHash {env : Env} {ambient : Ambient} {data : List UInt8} {verified : Bool}
    {r : RouterInfo} (h : ofBuffer env ambient data = .ok (verified, r)) :
    dataIdent env.crypto data = some r.getIdentHash := by
  unfold ofBuffer at h
  split at h
  · cases h
  · dsimp only at h
    split at h
    · cases h
    next verified' r' hread =>
      have hhash := readFromBuffer_identHash env ambient true
        { buffer := some (store (ambient.newBuffer maxBuffer) 0 data), bufferLen := data.length }
        (store (ambient.newBuffer maxBuffer) 0 data)
      have hlen := lenIn_ne_zero_of_readFromBuffer hread
      rw [hread] at hhash
      obtain ⟨-, rfl⟩ := Prod.mk.inj (Except.ok.inj h)
      rw [lenIn_store] at hlen
      have hsome : dataIdent env.crypto data = some _ := if_neg hlen
      rw [fromBuffer_store_identHash, hsome] at hhash
      rw [hsome]
      exact congrArg some hhash.symm

theorem length_le_of_ofBuffer {env : Env} {ambient : Ambient} {data : List UInt8}
    {result : Bool × RouterInfo} (h : ofBuffer env ambient data = .ok result) :
    data.length ≤ maxBuffer := by
  unfold ofBuffer at h
  split at h
  · cases h
  · omega

/-- After an update the hash is the one before, or the one of the data. -/
theorem update_identHash (env : Env) (ambient : Ambient) (r : RouterInfo) (data : List UInt8) :
    (r.update env ambient data).2.getIdentHash = r.getIdentHash ∨
      data.length ≤ maxBuffer ∧
        dataIdent env.crypto data = some (r.update env ambient data).2.getIdentHash := by
  unfold update
  split
  · exact .inl rfl
  next hlen =>
    have hhash := readFromBuffer_identHash env ambient true (r.clear ambient data).1
      (r.clear ambient data).2
    simp only [clear] at hhash
    rw [fromBuffer_store_identHash] at hhash
    simp only [clear]
    rw [hhash]
    cases hdata : dataIdent env.crypto data with
    | none => exact .inl rfl
    | some h => exact .inr ⟨by omega, rfl⟩

end RouterInfo

end Router
