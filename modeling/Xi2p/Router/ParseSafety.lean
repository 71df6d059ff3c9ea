import Xi2p.Router.Parsing

/-!
# What the parser reads

The reads of `ParseRouterInfo` that nothing guards: of variables that have been read from the stream, of decoded keys,
of the first character of a key and of introducers. A byte string is listed as addresses with key pairs, without looking
at what the parser makes of them.

* `parsesSafely_iff`: when all that is read is defined and the supported transports are those of the addresses.
-/

namespace Router

open Bytes I2NP ParseM

/-! ## Reads -/

/-- A read of memory. -/
inductive Access
  /-- Of a variable that has been read from the stream, or not. -/
  | value (isRead : Bool)
  /-- Of 32 bytes of a decoded key. -/
  | keyCopy (size : ℕ)
  /-- Of the first character of a key. -/
  | front (key : List UInt8)
  /-- Of an introducer. -/
  | introducer (index : ℕ)
  deriving DecidableEq

/-- What is read is there, and an introducer has one digit. -/
def Access.Defined : Access → Prop
  | .value isRead => isRead = true
  | .keyCopy size => 32 ≤ size
  | .front key => key ≠ []
  | .introducer index => index ≤ 9

/-- The reads of a computation. -/
abbrev Watch := StringStream × Contents → List Access

/-- The reads of a step, and those of the rest unless it throws. -/
def Watch.andThen {α : Type} (w : Watch) (x : ParseM α) (f : α → Watch) : Watch := fun p =>
  w p ++ match x p with
    | (.ok a, p') => f a p'
    | (.error _, _) => []

/-- No reads. -/
def Watch.silent : Watch := fun _ => []

namespace StringStream

/-- There are `n` bytes to read. -/
def has (s : StringStream) (n : ℕ) : Bool := n = 0 || !s.failed && n ≤ s.rest.length

/-- The reads of `ReadStringFromByte`: the length, and the characters. -/
def watchString (s : StringStream) : List Access :=
  let (old, s) := uninitialised 1 s
  let (len, s') := readU8 (old.headD 0) s
  [.value (s.has 1), .value (s'.has len.toNat)]

/-- The reads of `ReadKeyPair`. -/
def watchKeyPair (s : StringStream) : List Access :=
  watchString s ++ watchString (seekg 1 (readStringFromByte s).2).2

end StringStream

/-- The reads for one option of an address. -/
def watchOption (env : ParseEnv) (key value : List UInt8) : List Access :=
  if key = trait "host" then []
  else if key = trait "port" then []
  else if key = trait "mtu" then []
  else if key = trait "key" then [.keyCopy ((env.base64Decode value).getD []).length]
  else if key = trait "caps" then []
  else if key.headD 0 = 105 then
    .front key :: .introducer (key.getLastD 0 - 48).toNat ::
      if key.dropLast = trait "ikey" then ((env.base64Decode value).map fun decoded => .keyCopy decoded.length).toList
      else []
  else [.front key]

/-- The reads of `parseAddressOptions`. -/
def watchAddressOptions (env : ParseEnv) (givenSize : UInt16) : ℕ → UInt16 → AddressState → Watch
  | 0, _, _ => .silent
  | fuel + 1, remainingSize, st =>
    if remainingSize < givenSize then
      .andThen (fun p => p.1.watchKeyPair) (stream StringStream.readKeyPair) fun (key, value, readSize) =>
        .andThen (fun _ => watchOption env key value) (parseAddressOption env st key value) fun st =>
          watchAddressOptions env givenSize fuel (remainingSize + readSize) st
    else .silent

/-- The reads of `parseAddresses`. -/
def watchAddresses (env : ParseEnv) (fuel : ℕ) : ℕ → UInt16 → Bool → Watch
  | 0, _, _ => .silent
  | n + 1, givenSize, hasIntroducers =>
    .andThen .silent (stream (StringStream.readU8 0)) fun cost =>
    .andThen .silent (stream (StringStream.readNative64 0)) fun date =>
    .andThen (fun p => p.1.watchString) (stream StringStream.readStringFromByte) fun name =>
    let transport := if name = trait "NTCP" then .ntcp else if name = trait "SSU" then .ssu else .unknown
    .andThen .silent (stream (StringStream.readBlockSize givenSize)) fun givenSize =>
    let st := { address := { transport, cost, date }, hasIntroducers }
    .andThen (watchAddressOptions env givenSize fuel 0 st) (parseAddressOptions env givenSize fuel 0 st) fun st =>
    .andThen .silent
      (if st.isValid then write fun c => { c with addresses := c.addresses ++ [st.address] } else pure ()) fun _ =>
    watchAddresses env fuel n givenSize st.hasIntroducers

/-- The reads of `parseOptions`. -/
def watchOptions (givenSize : UInt16) : ℕ → UInt16 → Watch
  | 0, _ => .silent
  | fuel + 1, remainingSize =>
    if remainingSize < givenSize then
      .andThen (fun p => p.1.watchKeyPair) (stream StringStream.readKeyPair) fun (_, _, readSize) =>
        watchOptions givenSize fuel (remainingSize + readSize)
    else .silent

/-- The reads of `parseMembers`: the numbers of addresses and peers are variables without a value. -/
def watchMembers (env : ParseEnv) (fuel : ℕ) : Watch :=
  .andThen (fun p => [.value (p.1.has 1)]) (stream (StringStream.uninitialised 1)) fun junk =>
  .andThen .silent (stream (StringStream.readU8 (junk.headD 0))) fun numAddresses =>
  .andThen (watchAddresses env fuel numAddresses.toNat 0 false) (parseAddresses env fuel numAddresses.toNat 0 false)
    fun (givenSize, _) =>
  .andThen (fun p => [.value (p.1.has 1)]) (stream (StringStream.uninitialised 1)) fun junk =>
  .andThen .silent (stream (StringStream.readU8 (junk.headD 0))) fun numPeers =>
  .andThen .silent (stream (StringStream.seekg (numPeers.toNat * 32))) fun _ =>
  .andThen .silent (stream (StringStream.readBlockSize givenSize)) fun givenSize =>
  watchOptions givenSize fuel 0

/-- The reads of `parseRouterInfo`. -/
def watchRouterInfo (env : ParseEnv) (fuel : ℕ) : Watch := fun p =>
  Watch.andThen .silent (stream (StringStream.readBig64 p.2.timestamp))
    (fun timestamp => .andThen .silent (write fun c => { c with timestamp }) fun _ => watchMembers env fuel) p

/-! ## Safety -/

/-- The bit of a transport and an IP version is set. -/
def HasTransport (transports : UInt8) (isNTCP isV4 : Bool) : Prop :=
  transports &&& supportedTransport isNTCP isV4 ≠ 0

/-- The transport as in `SupportedTransport`. -/
def transportOf (isNTCP : Bool) : Transport := if isNTCP then .ntcp else .ssu

/-- All that is read is defined, and afterwards a transport is supported if an address has it. -/
structure SafeRun (env : ParseEnv) (fuel : ℕ) (p : StringStream × Contents) : Prop where
  defined : ∀ a ∈ watchRouterInfo env fuel p, a.Defined
  transports : (parseRouterInfo env fuel p).1 = .ok () → ∀ isNTCP isV4,
    HasTransport (parseRouterInfo env fuel p).2.2.supportedTransports isNTCP isV4 ↔
      ∃ a ∈ (parseRouterInfo env fuel p).2.2.addresses, a.transport = transportOf isNTCP ∧ a.host.isV4 = isV4

/-- The parser is safe on a byte string, whatever memory holds. -/
def ParsesSafely (env : ParseEnv) (bytes : List UInt8) : Prop :=
  ∀ (junk : ℕ → UInt8) (fuel : ℕ) (c : Contents), bytes.length < fuel → c.supportedTransports = 0 →
    c.addresses = [] → SafeRun env fuel ({ rest := bytes, junk }, c)

/-! ## Listing -/

/-- What is left of a byte string, or nothing if something has been missing. -/
abbrev Cursor := Option (List UInt8)

namespace Cursor

/-- Go over `n` bytes. -/
def advance (n : ℕ) : Cursor → Cursor
  | some rest => if n ≤ rest.length then some (rest.drop n) else none
  | none => none

/-- A byte. -/
def byte : Cursor → Option (UInt8 × Cursor)
  | some (b :: rest) => some (b, some rest)
  | _ => none

/-- A byte string behind its length. -/
def string : Cursor → Option (List UInt8 × Cursor)
  | some (len :: rest) =>
    if len.toNat ≤ rest.length then some (rest.take len.toNat, some (rest.drop len.toNat)) else none
  | _ => none

/-- A key pair. -/
def pair (c : Cursor) : Option ((List UInt8 × List UInt8) × Cursor) := do
  let (key, c) ← c.string
  let (value, c) ← (advance 1 c).string
  return ((key, value), advance 1 c)

/-- A block size, read over another one, whose low byte is first in memory. -/
def blockSize (old : UInt16) : Cursor → UInt16
  | some rest => readU16 (rest.take 2 ++ (writeU16 old).reverse.drop (rest.take 2).length)
  | none => readU16 (writeU16 old).reverse

/-- Key pairs up to a block size, and whether the last one throws. -/
def pairs (throws : List UInt8 × List UInt8 → Bool) (givenSize : UInt16) :
    ℕ → UInt16 → Cursor → Option ((List (List UInt8 × List UInt8) × Bool) × Cursor)
  | 0, _, _ => none
  | fuel + 1, remainingSize, c =>
    if remainingSize < givenSize then do
      let (pair, c) ← c.pair
      if throws pair then return (([pair], true), c)
      let readSize := UInt16.ofNat (pair.1.length + 2 + pair.2.length + 2)
      let ((rest, threw), c) ← pairs throws givenSize fuel (remainingSize + readSize) c
      return ((pair :: rest, threw), c)
    else return (([], false), c)

end Cursor

/-- An address of a byte string. -/
structure AddressItem where
  transport : Transport
  pairs : List (List UInt8 × List UInt8)

/-- An option of an address that cannot be converted. -/
def throwsOption (env : ParseEnv) (pair : List UInt8 × List UInt8) : Bool :=
  if pair.1 = trait "host" then false
  else if pair.1 = trait "port" then (env.lexicalCast16 pair.2).isNone
  else if pair.1 = trait "mtu" then (env.lexicalCast16 pair.2).isNone
  else if pair.1 = trait "key" then false
  else if pair.1 = trait "caps" then false
  else if pair.1.headD 0 = 105 then
    if pair.1.dropLast = trait "ihost" then false
    else if pair.1.dropLast = trait "iport" then (env.lexicalCast16 pair.2).isNone
    else if pair.1.dropLast = trait "itag" then (env.lexicalCast32 pair.2).isNone
    else if pair.1.dropLast = trait "ikey" then (env.base64Decode pair.2).isNone
    else false
  else false

/-- Addresses, and whether the last option throws. -/
def Cursor.addresses (env : ParseEnv) (fuel : ℕ) :
    ℕ → UInt16 → Cursor → Option ((List AddressItem × Bool) × UInt16 × Cursor)
  | 0, givenSize, c => some (([], false), givenSize, c)
  | n + 1, givenSize, c => do
    -- cost and date
    let (name, c) ← (Cursor.advance 8 (Cursor.advance 1 c)).string
    let transport := if name = trait "NTCP" then .ntcp else if name = trait "SSU" then .ssu else .unknown
    let givenSize := c.blockSize givenSize
    let ((pairs, threw), c) ← (Cursor.advance 2 c).pairs (throwsOption env) givenSize fuel 0
    if threw then return (([{ transport, pairs }], true), givenSize, c)
    let ((items, threw), givenSize, c) ← Cursor.addresses env fuel n givenSize c
    return (({ transport, pairs } :: items, threw), givenSize, c)

/-- The addresses behind the timestamp, and whether the last option throws; nothing if a byte is missing. -/
def Cursor.members (env : ParseEnv) (fuel : ℕ) (c : Cursor) : Option (List AddressItem × Bool) := do
  let (numAddresses, c) ← c.byte
  let ((items, threw), givenSize, c) ← c.addresses env fuel numAddresses.toNat 0
  if threw then return (items, true)
  let (numPeers, c) ← c.byte
  let c := Cursor.advance (numPeers.toNat * 32) c
  let _rest ← (Cursor.advance 2 c).pairs (fun _ => false) (c.blockSize givenSize) fuel 0
  return (items, false)

/-- The addresses of a byte string. -/
def listing (env : ParseEnv) (bytes : List UInt8) : Option (List AddressItem × Bool) :=
  (Cursor.advance 8 (some bytes)).members env (bytes.length + 1)

/-- An option that starts with an `i` is one of an introducer. -/
def IsIntroducerKey (key : List UInt8) : Prop := key.head? = some 105

/-- The reads for an option are defined: its key is not empty, a key decodes to at least 32 bytes, and an introducer has
a digit. -/
structure OptionSafe (env : ParseEnv) (pair : List UInt8 × List UInt8) : Prop where
  nonempty : pair.1 ≠ []
  key : pair.1 = trait "key" → ∃ decoded, env.base64Decode pair.2 = some decoded ∧ 32 ≤ decoded.length
  digit : IsIntroducerKey pair.1 → 48 ≤ pair.1.getLastD 0 ∧ pair.1.getLastD 0 ≤ 57
  introducerKey : IsIntroducerKey pair.1 → pair.1.dropLast = trait "ikey" →
    ∀ decoded, env.base64Decode pair.2 = some decoded → 32 ≤ decoded.length

/-- An option does not make its address invalid. -/
def optionValid (env : ParseEnv) (transport : Transport) (pair : List UInt8 × List UInt8) : Bool :=
  if pair.1 = trait "host" then
    match env.fromString pair.2 with
    | .ok _ => true
    | .error isInvalidArgument => isInvalidArgument && transport = .ntcp
  else if pair.1 = trait "port" then true
  else if pair.1 = trait "mtu" then true
  else if pair.1 = trait "key" then (env.base64Decode pair.2).isSome
  else if pair.1 = trait "caps" then true
  else if pair.1.headD 0 = 105 then
    if pair.1.dropLast = trait "ihost" then (env.fromString pair.2).toOption.isSome
    else if pair.1.dropLast = trait "iport" then true
    else if pair.1.dropLast = trait "itag" then true
    else if pair.1.dropLast = trait "ikey" then true
    else false
  else true

/-- The host after an option. -/
def optionHost (env : ParseEnv) (host : SSU.IPAddress) (pair : List UInt8 × List UInt8) : SSU.IPAddress :=
  if pair.1 = trait "host" then (env.fromString pair.2).toOption.getD .unspecified else host

/-- The transport and the IP version that a host declares; one that cannot be resolved counts for NTCP. -/
def declares (env : ParseEnv) (transport : Transport) (pair : List UInt8 × List UInt8) : Option (Bool × Bool) :=
  if pair.1 = trait "host" then
    match env.fromString pair.2 with
    | .ok host => some (transport = .ntcp, host.isV4)
    | .error _ => if transport = .ntcp then some (true, true) else none
  else none

/-- The address is kept. -/
def AddressItem.Accepted (env : ParseEnv) (item : AddressItem) : Prop :=
  ∀ pair ∈ item.pairs, optionValid env item.transport pair = true

/-- The host of an address: its last one. -/
def AddressItem.host (env : ParseEnv) (item : AddressItem) : SSU.IPAddress :=
  item.pairs.foldl (optionHost env) .unspecified

/-- A byte string that is safe to read: its options are, and the transports that hosts declare are those of the addresses
that are kept. -/
structure ListingSafe (env : ParseEnv) (items : List AddressItem) (threw : Bool) : Prop where
  options : ∀ item ∈ items, ∀ pair ∈ item.pairs, OptionSafe env pair
  transports : threw = false → ∀ isNTCP isV4,
    (∃ item ∈ items, ∃ pair ∈ item.pairs, declares env item.transport pair = some (isNTCP, isV4)) ↔
      ∃ item ∈ items, item.Accepted env ∧ item.transport = transportOf isNTCP ∧ (item.host env).isV4 = isV4

/-! ## The stream -/

namespace StringStream

/-- What is left of a stream. -/
def cursor (s : StringStream) : Cursor := if s.failed then none else some s.rest

theorem cursor_uninitialised (n : ℕ) (s : StringStream) : (uninitialised n s).2.cursor = s.cursor := rfl

theorem cursor_readOver (old : List UInt8) (s : StringStream) :
    (readOver old s).2.cursor = Cursor.advance old.length s.cursor := by
  unfold readOver cursor
  cases hfailed : s.failed with
  | true => simp [hfailed, Cursor.advance]
  | false =>
    by_cases hle : old.length ≤ s.rest.length <;> simp [Cursor.advance, hle, Nat.not_lt.mpr]

theorem cursor_seekg (n : ℕ) (s : StringStream) : (seekg n s).2.cursor = Cursor.advance n s.cursor := by
  unfold seekg cursor
  cases hfailed : s.failed with
  | true => simp [hfailed, Cursor.advance]
  | false => by_cases hle : n ≤ s.rest.length <;> simp [Cursor.advance, hle]

/-- What is read in full is what is there. -/
theorem fst_readOver {s : StringStream} {rest : List UInt8} (h : s.cursor = some rest) {old : List UInt8}
    (hle : old.length ≤ rest.length) : (readOver old s).1 = rest.take old.length := by
  unfold cursor at h
  split_ifs at h with hfailed
  obtain rfl := Option.some.inj h
  unfold readOver
  rw [if_neg hfailed]
  simp [hle]

theorem has_iff {s : StringStream} {n : ℕ} :
    s.has n = true ↔ n = 0 ∨ ∃ rest, s.cursor = some rest ∧ n ≤ rest.length := by
  unfold has cursor
  cases hfailed : s.failed <;> simp

theorem fst_readBlockSize (old : UInt16) (s : StringStream) :
    (readBlockSize old s).1 = Cursor.blockSize old s.cursor := by
  show readU16 (readOver (writeU16 old).reverse s).1 = _
  unfold readOver cursor
  cases hfailed : s.failed <;> simp [Cursor.blockSize]

theorem cursor_readBlockSize (old : UInt16) (s : StringStream) :
    (readBlockSize old s).2.cursor = Cursor.advance 2 s.cursor := by
  have hlength : (writeU16 old).reverse.length = 2 := by simp
  rw [← hlength]
  exact cursor_readOver _ s

/-- A byte that is there is read. -/
theorem readU8_of_byte {s : StringStream} {b : UInt8} {c : Cursor} (h : s.cursor.byte = some (b, c)) (old : UInt8) :
    (readU8 old s).1 = b ∧ (readU8 old s).2.cursor = c ∧ s.has 1 = true := by
  cases hcursor : s.cursor with
  | none =>
    rw [hcursor] at h
    cases h
  | some bytes =>
    cases bytes with
    | nil =>
      rw [hcursor] at h
      cases h
    | cons b' rest =>
      rw [hcursor] at h
      obtain ⟨rfl, rfl⟩ := Prod.mk.inj (Option.some.inj h)
      have hlength : [old].length ≤ (b' :: rest).length := by simp
      refine ⟨?_, ?_, has_iff.mpr (.inr ⟨_, hcursor, by simp⟩)⟩
      · show (readOver [old] s).1.headD 0 = b'
        rw [fst_readOver hcursor hlength]
        rfl
      · show (readOver [old] s).2.cursor = _
        rw [cursor_readOver, hcursor, Cursor.advance, if_pos hlength]
        rfl

theorem has_of_byte {s : StringStream} (h : s.cursor.byte = none) : s.has 1 = false := by
  rw [← Bool.not_eq_true, has_iff]
  rintro (hzero | ⟨rest, hrest, hlength⟩)
  · cases hzero
  · rw [hrest] at h
    cases rest with
    | nil => simp at hlength
    | cons b rest => cases h

theorem length_uninitialised (n : ℕ) (s : StringStream) : (uninitialised n s).1.length = n := by
  show ((List.range n).map s.junk).length = n
  rw [List.length_map, List.length_range]

theorem exists_cons_of_string {c c' : Cursor} {bytes : List UInt8} (h : c.string = some (bytes, c')) :
    ∃ len rest, c = some (len :: rest) ∧ len.toNat ≤ rest.length ∧ bytes = rest.take len.toNat ∧
      c' = some (rest.drop len.toNat) := by
  cases c with
  | none => cases h
  | some all =>
    cases all with
    | nil => cases h
    | cons len rest =>
      rw [Cursor.string] at h
      split_ifs at h with hle
      obtain ⟨rfl, rfl⟩ := Prod.mk.inj (Option.some.inj h)
      exact ⟨len, rest, rfl, hle, rfl, rfl⟩

theorem watchString_eq (s : StringStream) :
    watchString s = [.value (s.has 1),
      .value ((readU8 ((uninitialised 1 s).1.headD 0) (uninitialised 1 s).2).2.has
        (readU8 ((uninitialised 1 s).1.headD 0) (uninitialised 1 s).2).1.toNat)] := rfl

/-- A string that is there is read. -/
theorem readStringFromByte_of_string {s : StringStream} {bytes : List UInt8} {c : Cursor}
    (h : s.cursor.string = some (bytes, c)) :
    (readStringFromByte s).1 = bytes ∧ (readStringFromByte s).2.cursor = c ∧ ∀ a ∈ watchString s, a.Defined := by
  obtain ⟨len, rest, hcursor, hle, rfl, rfl⟩ := exists_cons_of_string h
  have hbyte : (uninitialised 1 s).2.cursor.byte = some (len, some rest) := by
    rw [cursor_uninitialised, hcursor]
    rfl
  obtain ⟨hlen, hrest, hhas⟩ := readU8_of_byte hbyte ((uninitialised 1 s).1.headD 0)
  have hsplit : readStringFromByte s =
      readOver (uninitialised len.toNat (readU8 ((uninitialised 1 s).1.headD 0) (uninitialised 1 s).2).2).1
        (uninitialised len.toNat (readU8 ((uninitialised 1 s).1.headD 0) (uninitialised 1 s).2).2).2 := by
    rw [← hlen]
    rfl
  rw [← cursor_uninitialised len.toNat] at hrest
  have hbuf := length_uninitialised len.toNat (readU8 ((uninitialised 1 s).1.headD 0) (uninitialised 1 s).2).2
  refine ⟨?_, ?_, ?_⟩
  · rw [hsplit, fst_readOver hrest (hbuf.le.trans hle), hbuf]
  · rw [hsplit, cursor_readOver, hrest, Cursor.advance, hbuf, if_pos hle]
  · rw [watchString_eq, hlen]
    simp only [List.mem_cons, List.not_mem_nil, or_false, forall_eq_or_imp, forall_eq]
    exact ⟨hhas, has_iff.mpr (.inr ⟨rest, hrest, hle⟩)⟩

/-- Of a string that is not there a byte is read that has no value. -/
theorem exists_undefined_of_string {s : StringStream} (h : s.cursor.string = none) :
    ∃ a ∈ watchString s, ¬ a.Defined := by
  rw [watchString_eq]
  cases hbyte : s.cursor.byte with
  | none =>
    refine ⟨_, List.mem_cons_self, ?_⟩
    rw [Access.Defined, has_of_byte hbyte]
    exact Bool.false_ne_true
  | some p =>
    obtain ⟨len, c⟩ := p
    have hbyte' : (uninitialised 1 s).2.cursor.byte = some (len, c) := hbyte
    obtain ⟨hlen, hrest, -⟩ := readU8_of_byte hbyte' ((uninitialised 1 s).1.headD 0)
    refine ⟨_, List.mem_cons_of_mem _ List.mem_cons_self, ?_⟩
    rw [Access.Defined, has_iff, hlen, hrest]
    -- the length is there, and more characters than are left
    have hshort : ∃ rest, c = some rest ∧ ¬ len.toNat ≤ rest.length := by
      cases hcursor : s.cursor with
      | none => rw [hcursor] at hbyte; cases hbyte
      | some all =>
        cases all with
        | nil => rw [hcursor] at hbyte; cases hbyte
        | cons b rest =>
          rw [hcursor] at hbyte h
          obtain ⟨rfl, rfl⟩ := Prod.mk.inj (Option.some.inj hbyte)
          refine ⟨rest, rfl, fun hle => ?_⟩
          rw [Cursor.string, if_pos hle] at h
          cases h
    obtain ⟨rest, rfl, hgt⟩ := hshort
    rintro (hzero | ⟨rest', hrest', hle⟩)
    · omega
    · exact hgt (Option.some.inj hrest' ▸ hle)

/-- A key pair that is there is read. -/
theorem readKeyPair_of_pair {s : StringStream} {pair : List UInt8 × List UInt8} {c : Cursor}
    (h : s.cursor.pair = some (pair, c)) :
    (readKeyPair s).1 = (pair.1, pair.2, UInt16.ofNat (pair.1.length + 2 + pair.2.length + 2)) ∧
      (readKeyPair s).2.cursor = c ∧ ∀ a ∈ watchKeyPair s, a.Defined := by
  rw [Cursor.pair] at h
  obtain ⟨⟨key, c₁⟩, hkey, h⟩ := Option.bind_eq_some_iff.mp h
  obtain ⟨⟨value, c₂⟩, hvalue, h⟩ := Option.bind_eq_some_iff.mp h
  obtain ⟨rfl, rfl⟩ := Prod.mk.inj (Option.some.inj h)
  obtain ⟨hkey, hafter, hdefined⟩ := readStringFromByte_of_string hkey
  have hvalue : (seekg 1 (readStringFromByte s).2).2.cursor.string = some (value, c₂) := by
    rw [cursor_seekg, hafter]
    exact hvalue
  obtain ⟨hvalue, hend, hdefined'⟩ := readStringFromByte_of_string hvalue
  refine ⟨?_, ?_, ?_⟩
  · rw [← hkey, ← hvalue]
    rfl
  · show (seekg 1 (readStringFromByte (seekg 1 (readStringFromByte s).2).2).2).2.cursor = _
    rw [cursor_seekg, hend]
  · intro a ha
    rcases List.mem_append.mp ha with ha | ha
    · exact hdefined a ha
    · exact hdefined' a ha

theorem exists_undefined_of_pair {s : StringStream} (h : s.cursor.pair = none) :
    ∃ a ∈ watchKeyPair s, ¬ a.Defined := by
  rw [Cursor.pair] at h
  cases hkey : s.cursor.string with
  | none =>
    obtain ⟨a, ha, hundefined⟩ := exists_undefined_of_string hkey
    exact ⟨a, List.mem_append_left _ ha, hundefined⟩
  | some p =>
    obtain ⟨key, c₁⟩ := p
    rw [hkey] at h
    obtain ⟨-, hafter, -⟩ := readStringFromByte_of_string hkey
    have hvalue : (seekg 1 (readStringFromByte s).2).2.cursor.string = none := by
      rw [cursor_seekg, hafter]
      cases hvalue : (Cursor.advance 1 c₁).string with
      | none => rfl
      | some p =>
        rw [Option.bind_eq_bind, Option.bind_some] at h
        dsimp only at h
        rw [hvalue] at h
        cases h
    obtain ⟨a, ha, hundefined⟩ := exists_undefined_of_string hvalue
    exact ⟨a, List.mem_append_right _ ha, hundefined⟩

end StringStream

/-! ## Options -/

open StringStream

/-- What an option does to its address and to the supported transports. -/
structure OptionStep (env : ParseEnv) (pair : List UInt8 × List UInt8) (st st' : AddressState) (c c' : Contents) :
    Prop where
  transport : st'.address.transport = st.address.transport
  host : st'.address.host = optionHost env st.address.host pair
  isValid : st'.isValid = (st.isValid && optionValid env st.address.transport pair)
  addresses : c'.addresses = c.addresses
  transports : ∀ isNTCP isV4, HasTransport c'.supportedTransports isNTCP isV4 ↔
    HasTransport c.supportedTransports isNTCP isV4 ∨ declares env st.address.transport pair = some (isNTCP, isV4)

theorem hasTransport_or (a b : UInt8) (isNTCP isV4 : Bool) :
    HasTransport (a ||| b) isNTCP isV4 ↔ HasTransport a isNTCP isV4 ∨ HasTransport b isNTCP isV4 := by
  have hdistrib : ∀ bit : UInt8, (a ||| b) &&& bit = a &&& bit ||| b &&& bit :=
    fun _ => UInt8.toBitVec_inj.mp BitVec.and_or_distrib_right
  rw [HasTransport, hdistrib, ne_eq, UInt8.or_eq_zero_iff, not_and_or]
  rfl

theorem hasTransport_supportedTransport (isNTCP isV4 isNTCP' isV4' : Bool) :
    HasTransport (supportedTransport isNTCP isV4) isNTCP' isV4' ↔ (isNTCP, isV4) = (isNTCP', isV4') := by
  unfold HasTransport
  revert isNTCP isV4 isNTCP' isV4'
  decide

/-- Only hosts matter for the host and the supported transports. -/
theorem OptionStep.of_other {env : ParseEnv} {pair : List UInt8 × List UInt8} {st st' : AddressState} {c c' : Contents}
    (hhost : pair.1 ≠ trait "host") (haddress : st'.address.transport = st.address.transport)
    (hsame : st'.address.host = st.address.host)
    (hvalid : st'.isValid = (st.isValid && optionValid env st.address.transport pair))
    (haddresses : c'.addresses = c.addresses) (htransports : c'.supportedTransports = c.supportedTransports) :
    OptionStep env pair st st' c c' where
  transport := haddress
  host := by rw [hsame, optionHost, if_neg hhost]
  isValid := hvalid
  addresses := haddresses
  transports _ _ := by rw [htransports, declares, if_neg hhost]; simp

theorem parseHost_spec (env : ParseEnv) (st : AddressState) (value : List UInt8) (s : StringStream) (c : Contents) :
    ∃ st' c', parseHost env st value (s, c) = (.ok st', (s, c')) ∧
      OptionStep env (trait "host", value) st st' c c' := by
  unfold parseHost
  cases hresolved : env.fromString value with
  | ok host =>
    refine ⟨_, _, rfl, rfl, ?_, ?_, rfl, ?_⟩
    · simp [optionHost, hresolved, Except.toOption]
    · simp [optionValid, hresolved]
    · intro isNTCP isV4
      rw [hasTransport_or, hasTransport_supportedTransport]
      simp [declares, hresolved]
  | error isInvalidArgument =>
    by_cases hntcp : st.address.transport = .ntcp
    · simp only [hntcp, if_true]
      refine ⟨_, _, rfl, hntcp.symm, ?_, ?_, rfl, ?_⟩
      · simp [optionHost, hresolved, Except.toOption]
      · simp [optionValid, hresolved, hntcp]
      · intro isNTCP isV4
        rw [hasTransport_or, hasTransport_supportedTransport]
        simp [declares, hresolved, hntcp]
    · simp only [hntcp, if_false]
      refine ⟨_, _, rfl, rfl, ?_, ?_, rfl, ?_⟩
      · simp [optionHost, hresolved, Except.toOption]
      · simp [optionValid, hresolved, hntcp]
      · simp [declares, hresolved, hntcp]

/-- Either an option throws, or parsing goes on where it was. -/
def OptionOutcome (env : ParseEnv) (pair : List UInt8 × List UInt8) (st : AddressState) (s : StringStream) (c : Contents)
    (throws : Bool) : Except Failure AddressState × StringStream × Contents → Prop
  | (.error _, _) => throws = true
  | (.ok st', (s', c')) => throws = false ∧ s'.cursor = s.cursor ∧ OptionStep env pair st st' c c'

theorem parseAddressOption_spec (env : ParseEnv) (st : AddressState) (pair : List UInt8 × List UInt8)
    (s : StringStream) (c : Contents) :
    OptionOutcome env pair st s c (throwsOption env pair) (parseAddressOption env st pair.1 pair.2 (s, c)) := by
  obtain ⟨key, value⟩ := pair
  unfold throwsOption parseAddressOption
  dsimp only
  by_cases hhost : key = trait "host"
  · subst hhost
    rw [if_pos rfl, if_pos rfl]
    obtain ⟨st', c', hparse, hstep⟩ := parseHost_spec env st value s c
    rw [hparse]
    exact ⟨rfl, rfl, hstep⟩
  rw [if_neg hhost, if_neg hhost]
  by_cases hport : key = trait "port"
  · rw [if_pos hport, if_pos hport]
    cases hcast : env.lexicalCast16 value with
    | none => exact rfl
    | some port =>
      refine ⟨rfl, rfl, .of_other hhost rfl rfl ?_ rfl rfl⟩
      simp only [optionValid, if_neg hhost, if_pos hport, Bool.and_true]
  rw [if_neg hport, if_neg hport]
  by_cases hmtu : key = trait "mtu"
  · rw [if_pos hmtu, if_pos hmtu]
    cases hcast : env.lexicalCast16 value with
    | none => exact rfl
    | some mtu =>
      refine ⟨rfl, rfl, .of_other hhost rfl rfl ?_ rfl rfl⟩
      simp only [optionValid, if_neg hhost, if_neg hport, if_pos hmtu, Bool.and_true]
  rw [if_neg hmtu, if_neg hmtu]
  by_cases hkey : key = trait "key"
  · rw [if_pos hkey, if_pos hkey]
    refine ⟨rfl, rfl, .of_other hhost rfl rfl ?_ rfl rfl⟩
    simp only [optionValid, if_neg hhost, if_neg hport, if_neg hmtu, if_pos hkey]
  rw [if_neg hkey, if_neg hkey]
  by_cases hcaps : key = trait "caps"
  · rw [if_pos hcaps, if_pos hcaps]
    refine ⟨rfl, rfl, .of_other hhost rfl rfl ?_ rfl rfl⟩
    simp only [optionValid, if_neg hhost, if_neg hport, if_neg hmtu, if_neg hkey, if_pos hcaps, Bool.and_true]
  rw [if_neg hcaps, if_neg hcaps]
  by_cases hintroducer : key.headD 0 = 105
  · rw [if_pos hintroducer, if_pos hintroducer]
    unfold parseIntroducer
    dsimp only
    have hvalid : optionValid env st.address.transport (key, value) =
        if key.dropLast = trait "ihost" then (env.fromString value).toOption.isSome
        else if key.dropLast = trait "iport" then true
        else if key.dropLast = trait "itag" then true
        else if key.dropLast = trait "ikey" then true
        else false := by
      simp only [optionValid, if_neg hhost, if_neg hport, if_neg hmtu, if_neg hkey, if_neg hcaps, if_pos hintroducer]
    by_cases hihost : key.dropLast = trait "ihost"
    · rw [if_pos hihost] at hvalid
      rw [if_pos hihost, if_pos hihost]
      cases hresolved : env.fromString value with
      | ok host => exact ⟨rfl, rfl, .of_other hhost rfl rfl (by simp [hvalid, hresolved, Except.toOption]) rfl rfl⟩
      | error e => exact ⟨rfl, rfl, .of_other hhost rfl rfl (by simp [hvalid, hresolved, Except.toOption]) rfl rfl⟩
    rw [if_neg hihost] at hvalid
    rw [if_neg hihost, if_neg hihost]
    by_cases hiport : key.dropLast = trait "iport"
    · rw [if_pos hiport] at hvalid
      rw [if_pos hiport, if_pos hiport]
      cases env.lexicalCast16 value with
      | none => exact rfl
      | some port => exact ⟨rfl, rfl, .of_other hhost rfl rfl (by rw [hvalid, Bool.and_true]) rfl rfl⟩
    rw [if_neg hiport] at hvalid
    rw [if_neg hiport, if_neg hiport]
    by_cases hitag : key.dropLast = trait "itag"
    · rw [if_pos hitag] at hvalid
      rw [if_pos hitag, if_pos hitag]
      cases env.lexicalCast32 value with
      | none => exact rfl
      | some tag => exact ⟨rfl, rfl, .of_other hhost rfl rfl (by rw [hvalid, Bool.and_true]) rfl rfl⟩
    rw [if_neg hitag] at hvalid
    rw [if_neg hitag, if_neg hitag]
    by_cases hikey : key.dropLast = trait "ikey"
    · rw [if_pos hikey] at hvalid
      rw [if_pos hikey, if_pos hikey]
      cases env.base64Decode value with
      | none => exact rfl
      | some decoded => exact ⟨rfl, rfl, .of_other hhost rfl rfl (by rw [hvalid, Bool.and_true]) rfl rfl⟩
    rw [if_neg hikey] at hvalid
    rw [if_neg hikey, if_neg hikey]
    exact ⟨rfl, rfl, .of_other hhost rfl rfl (by rw [hvalid, Bool.and_false]) rfl rfl⟩
  · rw [if_neg hintroducer, if_neg hintroducer]
    refine ⟨rfl, rfl, .of_other hhost rfl rfl ?_ rfl rfl⟩
    simp only [optionValid, if_neg hhost, if_neg hport, if_neg hmtu, if_neg hkey, if_neg hcaps, if_neg hintroducer,
      Bool.and_true]

theorem digit_iff (last : UInt8) : (last - 48).toNat ≤ 9 ↔ 48 ≤ last ∧ last ≤ 57 := by
  have hall : ∀ n : Fin 256, (UInt8.ofFin n - 48).toNat ≤ 9 ↔ 48 ≤ UInt8.ofFin n ∧ UInt8.ofFin n ≤ 57 := by
    decide +kernel
  exact hall last.toFin

theorem headD_eq_iff (key : List UInt8) : key.headD 0 = 105 ↔ IsIntroducerKey key := by
  cases key with
  | nil => simp [IsIntroducerKey]
  | cons b rest => simp [IsIntroducerKey]

/-- The options with a name of their own do not start with an `i`. -/
theorem not_isIntroducerKey_trait (name : String) (h : name ∈ ["host", "port", "mtu", "key", "caps"]) :
    ¬ IsIntroducerKey (trait name) ∧ trait name ≠ [] ∧ (trait name = trait "key" → name = "key") := by
  revert name
  unfold IsIntroducerKey
  decide +kernel

/-- The reads for an option are defined exactly if it is safe. -/
theorem watchOption_iff (env : ParseEnv) (pair : List UInt8 × List UInt8) :
    (∀ a ∈ watchOption env pair.1 pair.2, a.Defined) ↔ OptionSafe env pair := by
  obtain ⟨key, value⟩ := pair
  have hplain : ∀ name ∈ ["host", "port", "mtu", "caps"], key = trait name →
      OptionSafe env (key, value) := by
    rintro name hname rfl
    obtain ⟨hnot, hne, hkey⟩ := not_isIntroducerKey_trait name (by simp at hname ⊢; tauto)
    refine ⟨hne, fun h => ?_, fun h => absurd h hnot, fun h => absurd h hnot⟩
    obtain rfl := hkey h
    simp at hname
  unfold watchOption
  dsimp only
  split_ifs with hhost hport hmtu hkey hcaps hintroducer hikey
  · simpa using hplain "host" (by simp) hhost
  · simpa using hplain "port" (by simp) hport
  · simpa using hplain "mtu" (by simp) hmtu
  · obtain ⟨hnot, hne, -⟩ := not_isIntroducerKey_trait "key" (by simp)
    rw [← hkey] at hnot hne
    simp only [List.mem_singleton, forall_eq, Access.Defined]
    constructor
    · intro hlength
      refine ⟨hne, fun _ => ?_, fun h => absurd h hnot, fun h => absurd h hnot⟩
      cases hdecoded : env.base64Decode value with
      | none => simp [hdecoded] at hlength
      | some decoded => exact ⟨decoded, rfl, by simpa [hdecoded] using hlength⟩
    · intro h
      obtain ⟨decoded, hdecoded, hlength⟩ := h.key hkey
      have hdecoded : env.base64Decode value = some decoded := hdecoded
      rwa [hdecoded]
  · simpa using hplain "caps" (by simp) hcaps
  · have hi := (headD_eq_iff key).mp hintroducer
    simp only [List.mem_cons, Option.mem_toList, Option.map_eq_some_iff, forall_eq_or_imp, Access.Defined, digit_iff]
    constructor
    · rintro ⟨hne, hdigit, hcopy⟩
      refine ⟨hne, fun h => absurd h hkey, fun _ => hdigit, fun _ _ decoded hdecoded => ?_⟩
      exact hcopy _ ⟨decoded, hdecoded, rfl⟩
    · intro h
      refine ⟨h.nonempty, h.digit hi, ?_⟩
      rintro a ⟨decoded, hdecoded, rfl⟩
      exact h.introducerKey hi hikey decoded hdecoded
  · have hi := (headD_eq_iff key).mp hintroducer
    simp only [List.mem_cons, List.not_mem_nil, or_false, forall_eq_or_imp, forall_eq, Access.Defined, digit_iff]
    constructor
    · rintro ⟨hne, hdigit⟩
      exact ⟨hne, fun h => absurd h hkey, fun _ => hdigit, fun _ h => absurd h hikey⟩
    · exact fun h => ⟨h.nonempty, h.digit hi⟩
  · have hnot : ¬ IsIntroducerKey key := fun h => hintroducer ((headD_eq_iff key).mpr h)
    simp only [List.mem_singleton, forall_eq, Access.Defined]
    constructor
    · exact fun hne => ⟨hne, fun h => absurd h hkey, fun h => absurd h hnot, fun h => absurd h hnot⟩
    · exact fun h => h.nonempty

/-! ## The loops over key pairs -/

namespace Cursor

/-- The number of bytes that are left. -/
def size : Cursor → ℕ
  | some rest => rest.length
  | none => 0

theorem size_advance_le (n : ℕ) (c : Cursor) : (advance n c).size ≤ c.size := by
  cases c with
  | none => exact le_rfl
  | some rest =>
    rw [advance]
    split
    · rw [size, List.length_drop]
      exact Nat.sub_le _ _
    · exact Nat.zero_le _

theorem size_byte_le {c c' : Cursor} {b : UInt8} (h : c.byte = some (b, c')) : c'.size ≤ c.size := by
  cases c with
  | none => cases h
  | some bytes =>
    cases bytes with
    | nil => cases h
    | cons b' rest =>
      obtain ⟨-, rfl⟩ := Prod.mk.inj (Option.some.inj h)
      exact Nat.le_succ _

theorem size_string_lt {c c' : Cursor} {bytes : List UInt8} (h : c.string = some (bytes, c')) : c'.size < c.size := by
  obtain ⟨len, rest, rfl, -, -, rfl⟩ := StringStream.exists_cons_of_string h
  rw [size, size, List.length_drop, List.length_cons]
  omega

theorem size_pair_lt {c c' : Cursor} {pair : List UInt8 × List UInt8} (h : c.pair = some (pair, c')) :
    c'.size < c.size := by
  rw [Cursor.pair] at h
  obtain ⟨⟨key, c₁⟩, hkey, h⟩ := Option.bind_eq_some_iff.mp h
  obtain ⟨⟨value, c₂⟩, hvalue, h⟩ := Option.bind_eq_some_iff.mp h
  obtain ⟨-, rfl⟩ := Prod.mk.inj (Option.some.inj h)
  have h₁ := size_string_lt hkey
  have h₂ := size_advance_le 1 c₁
  have h₃ := size_string_lt hvalue
  have h₄ := size_advance_le 1 c₂
  omega

/-- The loop over key pairs, one pair after the other. -/
theorem pairs_succ {throws : List UInt8 × List UInt8 → Bool} {givenSize remainingSize : UInt16} {fuel : ℕ} {c : Cursor}
    (h : remainingSize < givenSize) :
    c.pairs throws givenSize (fuel + 1) remainingSize =
      c.pair.bind fun p =>
        if throws p.1 then some (([p.1], true), p.2)
        else (p.2.pairs throws givenSize fuel
            (remainingSize + UInt16.ofNat (p.1.1.length + 2 + p.1.2.length + 2))).map
          fun r => ((p.1 :: r.1.1, r.1.2), r.2) := by
  rw [pairs, if_pos h, Option.bind_eq_bind]
  refine congrArg _ (funext fun p => ?_)
  obtain ⟨pair, c⟩ := p
  dsimp only
  split_ifs
  · rfl
  · cases c.pairs throws givenSize fuel _ <;> rfl

theorem size_pairs_le {throws : List UInt8 × List UInt8 → Bool} {givenSize : UInt16} {fuel : ℕ} {remainingSize : UInt16}
    {c c' : Cursor} {r : List (List UInt8 × List UInt8) × Bool}
    (h : c.pairs throws givenSize fuel remainingSize = some (r, c')) : c'.size ≤ c.size := by
  induction fuel generalizing remainingSize c r with
  | zero => cases h
  | succ fuel ih =>
    by_cases hlt : remainingSize < givenSize
    · rw [pairs_succ hlt] at h
      obtain ⟨⟨pair, c₁⟩, hpair, h⟩ := Option.bind_eq_some_iff.mp h
      have hless := size_pair_lt hpair
      split_ifs at h
      · obtain ⟨-, rfl⟩ := Prod.mk.inj (Option.some.inj h)
        exact hless.le
      · obtain ⟨r', hr', h⟩ := Option.map_eq_some_iff.mp h
        obtain ⟨-, rfl⟩ := Prod.mk.inj h
        exact (ih hr').trans hless.le
    · rw [pairs, if_neg hlt] at h
      obtain ⟨-, rfl⟩ := Prod.mk.inj (Option.some.inj h)
      exact le_rfl

end Cursor

/-- What the options of an address do to it and to the supported transports. -/
structure OptionsStep (env : ParseEnv) (pairs : List (List UInt8 × List UInt8)) (st st' : AddressState)
    (c c' : Contents) : Prop where
  transport : st'.address.transport = st.address.transport
  host : st'.address.host = pairs.foldl (optionHost env) st.address.host
  isValid : st'.isValid = (st.isValid && pairs.all (optionValid env st.address.transport))
  addresses : c'.addresses = c.addresses
  transports : ∀ isNTCP isV4, HasTransport c'.supportedTransports isNTCP isV4 ↔
    HasTransport c.supportedTransports isNTCP isV4 ∨
      ∃ pair ∈ pairs, declares env st.address.transport pair = some (isNTCP, isV4)

theorem OptionsStep.nil (env : ParseEnv) (st : AddressState) (c : Contents) : OptionsStep env [] st st c c :=
  ⟨rfl, rfl, by simp, rfl, by simp⟩

theorem OptionStep.cons {env : ParseEnv} {pair : List UInt8 × List UInt8} {pairs : List (List UInt8 × List UInt8)}
    {st st₁ st' : AddressState} {c c₁ c' : Contents} (h : OptionStep env pair st st₁ c c₁)
    (hrest : OptionsStep env pairs st₁ st' c₁ c') : OptionsStep env (pair :: pairs) st st' c c' where
  transport := hrest.transport.trans h.transport
  host := by rw [hrest.host, h.host, List.foldl_cons]
  isValid := by rw [hrest.isValid, h.isValid, h.transport, List.all_cons, Bool.and_assoc]
  addresses := hrest.addresses.trans h.addresses
  transports isNTCP isV4 := by
    rw [hrest.transports, h.transports, h.transport, or_assoc]
    simp only [List.mem_cons, exists_eq_or_imp]

/-- Either an option has thrown, or parsing goes on behind the options. -/
def OptionsOutcome (env : ParseEnv) (pairs : List (List UInt8 × List UInt8)) (threw : Bool) (end_ : Cursor)
    (st : AddressState) (c : Contents) : Except Failure AddressState × StringStream × Contents → Prop
  | (.error _, _) => threw = true
  | (.ok st', (s', c')) => threw = false ∧ s'.cursor = end_ ∧ OptionsStep env pairs st st' c c'

theorem parseAddressOptions_succ {env : ParseEnv} {givenSize remainingSize readSize : UInt16} {fuel : ℕ}
    {st : AddressState} {s s' : StringStream} {c : Contents} {key value : List UInt8}
    (hlt : remainingSize < givenSize) (hread : StringStream.readKeyPair s = ((key, value, readSize), s')) :
    parseAddressOptions env givenSize (fuel + 1) remainingSize st (s, c) =
      match parseAddressOption env st key value (s', c) with
      | (.ok st', p) => parseAddressOptions env givenSize fuel (remainingSize + readSize) st' p
      | (.error e, p) => (.error e, p) := by
  have hstream : stream StringStream.readKeyPair (s, c) = (.ok (key, value, readSize), (s', c)) := by
    show (_, _) = _
    rw [hread]
  rw [parseAddressOptions, if_pos hlt, bind_apply, hstream]
  dsimp only
  rw [bind_apply]
  cases hparse : parseAddressOption env st key value (s', c) with
  | mk r p => cases r <;> rfl

theorem watchAddressOptions_succ {env : ParseEnv} {givenSize remainingSize readSize : UInt16} {fuel : ℕ}
    {st : AddressState} {s s' : StringStream} {c : Contents} {key value : List UInt8}
    (hlt : remainingSize < givenSize) (hread : StringStream.readKeyPair s = ((key, value, readSize), s')) :
    watchAddressOptions env givenSize (fuel + 1) remainingSize st (s, c) =
      s.watchKeyPair ++ (watchOption env key value ++
        match parseAddressOption env st key value (s', c) with
        | (.ok st', p) => watchAddressOptions env givenSize fuel (remainingSize + readSize) st' p
        | (.error _, _) => []) := by
  have hstream : stream StringStream.readKeyPair (s, c) = (.ok (key, value, readSize), (s', c)) := by
    show (_, _) = _
    rw [hread]
  rw [watchAddressOptions, if_pos hlt, Watch.andThen, hstream]
  dsimp only
  rw [Watch.andThen]
  cases hparse : parseAddressOption env st key value (s', c) with
  | mk r p => cases r <;> rfl

/-- The options of an address are read as they are listed, or something is read that is not there. -/
theorem parseAddressOptions_spec (env : ParseEnv) (givenSize : UInt16) {fuel fuel' : ℕ} (remainingSize : UInt16)
    (st : AddressState) {s : StringStream} (c : Contents) (hfuel : s.cursor.size < fuel)
    (hfuel' : s.cursor.size < fuel') :
    match s.cursor.pairs (throwsOption env) givenSize fuel' remainingSize with
    | none => ∃ a ∈ watchAddressOptions env givenSize fuel remainingSize st (s, c), ¬ a.Defined
    | some ((pairs, threw), end_) =>
      ((∀ a ∈ watchAddressOptions env givenSize fuel remainingSize st (s, c), a.Defined) ↔
        ∀ pair ∈ pairs, OptionSafe env pair) ∧
      OptionsOutcome env pairs threw end_ st c (parseAddressOptions env givenSize fuel remainingSize st (s, c)) := by
  induction fuel generalizing fuel' remainingSize st s c with
  | zero => cases hfuel
  | succ fuel ih =>
    obtain ⟨fuel', rfl⟩ := Nat.exists_eq_add_one.mpr (Nat.zero_lt_of_lt hfuel')
    by_cases hlt : remainingSize < givenSize
    · rw [Cursor.pairs_succ hlt]
      cases hpair : s.cursor.pair with
      | none =>
        obtain ⟨a, ha, hundefined⟩ := exists_undefined_of_pair hpair
        rw [Option.bind_none, watchAddressOptions_succ hlt rfl]
        exact ⟨a, List.mem_append_left _ ha, hundefined⟩
      | some p =>
        obtain ⟨⟨key, value⟩, c₁⟩ := p
        obtain ⟨hread, hcursor, hdefined⟩ := readKeyPair_of_pair hpair
        have hread : StringStream.readKeyPair s = (_, (StringStream.readKeyPair s).2) := Prod.ext hread rfl
        have hsmaller : (StringStream.readKeyPair s).2.cursor.size < s.cursor.size :=
          hcursor ▸ Cursor.size_pair_lt hpair
        have hsafe : (∀ a ∈ watchOption env key value, a.Defined) ↔ OptionSafe env (key, value) :=
          watchOption_iff env (key, value)
        have houtcome := parseAddressOption_spec env st (key, value) (StringStream.readKeyPair s).2 c
        rw [Option.bind_some, watchAddressOptions_succ hlt hread, parseAddressOptions_succ hlt hread]
        cases hparse : parseAddressOption env st key value ((StringStream.readKeyPair s).2, c) with
        | mk r p =>
          rw [hparse] at houtcome
          cases r with
          | error e =>
            have hthrows : throwsOption env (key, value) = true := houtcome
            dsimp only
            rw [if_pos hthrows]
            refine ⟨?_, rfl⟩
            simp only [List.append_nil, List.mem_append, List.mem_singleton, forall_eq, ← hsafe]
            exact ⟨fun h a ha => h a (.inr ha), fun h a ha => ha.elim (hdefined a) (h a)⟩
          | ok st₁ =>
            obtain ⟨s₁, c'⟩ := p
            obtain ⟨hthrows, hsame, hstep⟩ := houtcome
            have hsize : s₁.cursor.size < s.cursor.size := hsame ▸ hsmaller
            have hrest := ih (remainingSize + UInt16.ofNat (key.length + 2 + value.length + 2)) st₁ c'
              (show s₁.cursor.size < fuel by omega) (show s₁.cursor.size < fuel' by omega)
            dsimp only
            rw [hthrows, if_neg Bool.false_ne_true, ← hcursor, ← hsame]
            cases hlist : s₁.cursor.pairs (throwsOption env) givenSize fuel'
              (remainingSize + UInt16.ofNat (key.length + 2 + value.length + 2)) with
            | none =>
              rw [hlist] at hrest
              obtain ⟨a, ha, hundefined⟩ := hrest
              exact ⟨a, List.mem_append_right _ (List.mem_append_right _ ha), hundefined⟩
            | some r =>
              obtain ⟨⟨pairs, threw⟩, end_⟩ := r
              rw [hlist] at hrest
              obtain ⟨hiff, hend⟩ := hrest
              refine ⟨?_, ?_⟩
              · simp only [List.forall_mem_append, List.forall_mem_cons, hiff, hsafe]
                exact ⟨fun h => h.2, fun h => ⟨hdefined, h⟩⟩
              · cases hparse' : parseAddressOptions env givenSize fuel
                  (remainingSize + UInt16.ofNat (key.length + 2 + value.length + 2)) st₁ (s₁, c') with
                | mk r p =>
                  rw [hparse'] at hend
                  cases r with
                  | error e => exact hend
                  | ok st' =>
                    obtain ⟨hthrew, hcursor', hsteps⟩ := hend
                    exact ⟨hthrew, hcursor', hstep.cons hsteps⟩
    · rw [Cursor.pairs, if_neg hlt, watchAddressOptions, if_neg hlt, parseAddressOptions, if_neg hlt]
      exact ⟨by simp [Watch.silent], rfl, rfl, .nil env st c⟩

/-- The last options are read as they are listed, or something is read that is not there. -/
theorem watchOptions_spec (givenSize : UInt16) {fuel fuel' : ℕ} (remainingSize : UInt16) {s : StringStream}
    (c : Contents) (hfuel : s.cursor.size < fuel) (hfuel' : s.cursor.size < fuel') :
    (∀ a ∈ watchOptions givenSize fuel remainingSize (s, c), a.Defined) ↔
      s.cursor.pairs (fun _ => false) givenSize fuel' remainingSize ≠ none := by
  induction fuel generalizing fuel' remainingSize s c with
  | zero => cases hfuel
  | succ fuel ih =>
    obtain ⟨fuel', rfl⟩ := Nat.exists_eq_add_one.mpr (Nat.zero_lt_of_lt hfuel')
    by_cases hlt : remainingSize < givenSize
    · rw [Cursor.pairs_succ hlt, watchOptions, if_pos hlt]
      cases hpair : s.cursor.pair with
      | none =>
        obtain ⟨a, ha, hundefined⟩ := exists_undefined_of_pair hpair
        rw [Option.bind_none]
        exact ⟨fun h => absurd (h a (List.mem_append_left _ ha)) hundefined, fun h => absurd rfl h⟩
      | some p =>
        obtain ⟨⟨key, value⟩, c₁⟩ := p
        obtain ⟨hread, hcursor, hdefined⟩ := readKeyPair_of_pair hpair
        have hsmaller : (StringStream.readKeyPair s).2.cursor.size < s.cursor.size :=
          hcursor ▸ Cursor.size_pair_lt hpair
        have hrest := ih (remainingSize + (StringStream.readKeyPair s).1.2.2) c
          (show (StringStream.readKeyPair s).2.cursor.size < fuel by omega)
          (show (StringStream.readKeyPair s).2.cursor.size < fuel' by omega)
        rw [Option.bind_some, if_neg Bool.false_ne_true, ne_eq, Option.map_eq_none_iff]
        rw [hcursor, hread] at hrest
        have hwatch : Watch.andThen (fun p => p.1.watchKeyPair) (stream StringStream.readKeyPair)
            (fun (_, _, readSize) => watchOptions givenSize fuel (remainingSize + readSize)) (s, c) =
              s.watchKeyPair ++ watchOptions givenSize fuel
                (remainingSize + (StringStream.readKeyPair s).1.2.2) ((StringStream.readKeyPair s).2, c) := rfl
        rw [hwatch, List.forall_mem_append, hread]
        exact ⟨fun h => hrest.mp h.2, fun h => ⟨hdefined, hrest.mpr h⟩⟩
    · rw [Cursor.pairs, if_neg hlt, watchOptions, if_neg hlt]
      simp [Watch.silent]

/-! ## The addresses -/

/-- What some addresses add to those that are stored, and to the supported transports. -/
structure AddressesStep (env : ParseEnv) (items : List AddressItem) (c c' : Contents) : Prop where
  addresses : ∀ isNTCP isV4,
    (∃ a ∈ c'.addresses, a.transport = transportOf isNTCP ∧ a.host.isV4 = isV4) ↔
      (∃ a ∈ c.addresses, a.transport = transportOf isNTCP ∧ a.host.isV4 = isV4) ∨
        ∃ item ∈ items, item.Accepted env ∧ item.transport = transportOf isNTCP ∧ (item.host env).isV4 = isV4
  transports : ∀ isNTCP isV4, HasTransport c'.supportedTransports isNTCP isV4 ↔
    HasTransport c.supportedTransports isNTCP isV4 ∨
      ∃ item ∈ items, ∃ pair ∈ item.pairs, declares env item.transport pair = some (isNTCP, isV4)

/-- Either an option has thrown, or parsing goes on behind the addresses. -/
def AddressesOutcome (env : ParseEnv) (items : List AddressItem) (threw : Bool) (givenSize : UInt16) (end_ : Cursor)
    (c : Contents) : Except Failure (UInt16 × Bool) × StringStream × Contents → Prop
  | (.error _, _) => threw = true
  | (.ok (givenSize', _), (s', c')) =>
    threw = false ∧ givenSize' = givenSize ∧ s'.cursor = end_ ∧ AddressesStep env items c c'

/-- An address is stored if it is valid. -/
def storeAddress (st : AddressState) (c : Contents) : Contents :=
  if st.isValid then { c with addresses := c.addresses ++ [st.address] } else c

/-- What is read in front of the options of an address: its variables, the block size, and what follows. -/
def readAddressHead (givenSize : UInt16) (hasIntroducers : Bool) :
    StateM StringStream (AddressState × UInt16) := do
  let cost ← StringStream.readU8 0
  let date ← StringStream.readNative64 0
  let name ← StringStream.readStringFromByte
  let transport := if name = trait "NTCP" then .ntcp else if name = trait "SSU" then .ssu else .unknown
  let givenSize ← StringStream.readBlockSize givenSize
  return ({ address := { transport, cost, date }, hasIntroducers }, givenSize)

theorem watchAddresses_succ {env : ParseEnv} {fuel n : ℕ} {givenSize givenSize' : UInt16} {hasIntroducers : Bool}
    {s s' : StringStream} {c : Contents} {st : AddressState}
    (hhead : readAddressHead givenSize hasIntroducers s = ((st, givenSize'), s')) :
    watchAddresses env fuel (n + 1) givenSize hasIntroducers (s, c) =
      (StringStream.readNative64 0 (StringStream.readU8 0 s).2).2.watchString ++
        (watchAddressOptions env givenSize' fuel 0 st (s', c) ++
          match parseAddressOptions env givenSize' fuel 0 st (s', c) with
          | (.ok st', (s', c')) => watchAddresses env fuel n givenSize' st'.hasIntroducers (s', storeAddress st' c')
          | (.error _, _) => []) := by
  have hrest : watchAddresses env fuel (n + 1) givenSize hasIntroducers (s, c) =
      (StringStream.readNative64 0 (StringStream.readU8 0 s).2).2.watchString ++
        Watch.andThen (watchAddressOptions env (readAddressHead givenSize hasIntroducers s).1.2 fuel 0
            (readAddressHead givenSize hasIntroducers s).1.1)
          (parseAddressOptions env (readAddressHead givenSize hasIntroducers s).1.2 fuel 0
            (readAddressHead givenSize hasIntroducers s).1.1)
          (fun st => .andThen .silent
            (if st.isValid then write fun c => { c with addresses := c.addresses ++ [st.address] } else pure ())
            fun _ => watchAddresses env fuel n (readAddressHead givenSize hasIntroducers s).1.2 st.hasIntroducers)
          ((readAddressHead givenSize hasIntroducers s).2, c) := rfl
  rw [hrest, hhead, Watch.andThen]
  dsimp only
  cases hparse : parseAddressOptions env givenSize' fuel 0 st (s', c) with
  | mk r p =>
    cases r with
    | error e => rfl
    | ok st' =>
      obtain ⟨s₁, c₁⟩ := p
      dsimp only
      rw [storeAddress]
      cases st'.isValid <;> rfl

theorem parseAddresses_succ {env : ParseEnv} {fuel n : ℕ} {givenSize givenSize' : UInt16} {hasIntroducers : Bool}
    {s s' : StringStream} {c : Contents} {st : AddressState}
    (hhead : readAddressHead givenSize hasIntroducers s = ((st, givenSize'), s')) :
    parseAddresses env fuel (n + 1) givenSize hasIntroducers (s, c) =
      match parseAddressOptions env givenSize' fuel 0 st (s', c) with
      | (.ok st', (s', c')) => parseAddresses env fuel n givenSize' st'.hasIntroducers (s', storeAddress st' c')
      | (.error e, p) => (.error e, p) := by
  have hrest : parseAddresses env fuel (n + 1) givenSize hasIntroducers (s, c) =
      (parseAddressOptions env (readAddressHead givenSize hasIntroducers s).1.2 fuel 0
          (readAddressHead givenSize hasIntroducers s).1.1 >>= fun st =>
        if st.isValid then
          write (fun c => { c with addresses := c.addresses ++ [st.address] }) >>= fun _ =>
            parseAddresses env fuel n (readAddressHead givenSize hasIntroducers s).1.2 st.hasIntroducers
        else parseAddresses env fuel n (readAddressHead givenSize hasIntroducers s).1.2 st.hasIntroducers)
        ((readAddressHead givenSize hasIntroducers s).2, c) := rfl
  rw [hrest, hhead, bind_apply]
  dsimp only
  cases hparse : parseAddressOptions env givenSize' fuel 0 st (s', c) with
  | mk r p =>
    cases r with
    | error e => rfl
    | ok st' =>
      obtain ⟨s₁, c₁⟩ := p
      dsimp only
      rw [storeAddress]
      cases st'.isValid <;> rfl

theorem cursor_costAndDate (s : StringStream) :
    (StringStream.readNative64 0 (StringStream.readU8 0 s).2).2.cursor = Cursor.advance 8 (Cursor.advance 1 s.cursor) := by
  show (StringStream.readOver _ _).2.cursor = _
  rw [cursor_readOver]
  have hone : (StringStream.readU8 0 s).2.cursor = Cursor.advance 1 s.cursor := cursor_readOver _ s
  rw [hone]
  rfl

/-- The transport of a name. -/
def transportOfName (name : List UInt8) : Transport :=
  if name = trait "NTCP" then .ntcp else if name = trait "SSU" then .ssu else .unknown

/-- An address whose name is there. -/
theorem readAddressHead_of_string {s : StringStream} {name : List UInt8} {c : Cursor}
    (h : (Cursor.advance 8 (Cursor.advance 1 s.cursor)).string = some (name, c)) (givenSize : UInt16)
    (hasIntroducers : Bool) :
    ∃ st s', readAddressHead givenSize hasIntroducers s = ((st, c.blockSize givenSize), s') ∧
      st.address.transport = transportOfName name ∧ st.address.host = .unspecified ∧ st.isValid = true ∧
      s'.cursor = Cursor.advance 2 c ∧
      ∀ a ∈ (StringStream.readNative64 0 (StringStream.readU8 0 s).2).2.watchString, a.Defined := by
  rw [← cursor_costAndDate] at h
  obtain ⟨hname, hcursor, hdefined⟩ := readStringFromByte_of_string h
  refine ⟨_, _, Prod.ext (Prod.ext rfl ?_) rfl, ?_, rfl, rfl, ?_, hdefined⟩
  · rw [← hcursor]
    exact fst_readBlockSize _ _
  · rw [← hname]
    rfl
  · rw [← hcursor]
    exact cursor_readBlockSize _ _

namespace Cursor

theorem addresses_succ (env : ParseEnv) (fuel n : ℕ) (givenSize : UInt16) (c : Cursor) :
    c.addresses env fuel (n + 1) givenSize =
      (advance 8 (advance 1 c)).string.bind fun p =>
        ((advance 2 p.2).pairs (throwsOption env) (p.2.blockSize givenSize) fuel 0).bind fun r =>
          if r.1.2 then some (([⟨transportOfName p.1, r.1.1⟩], true), p.2.blockSize givenSize, r.2)
          else (r.2.addresses env fuel n (p.2.blockSize givenSize)).map fun q =>
            ((⟨transportOfName p.1, r.1.1⟩ :: q.1.1, q.1.2), q.2) := by
  rw [addresses, Option.bind_eq_bind]
  refine congrArg _ (funext fun p => ?_)
  obtain ⟨name, c₁⟩ := p
  dsimp only
  refine congrArg _ (funext fun r => ?_)
  obtain ⟨⟨pairs, threw⟩, c₂⟩ := r
  cases threw with
  | true => rfl
  | false =>
    dsimp only
    cases c₂.addresses env fuel n _ <;> rfl

theorem size_addresses_le {env : ParseEnv} {fuel n : ℕ} {givenSize givenSize' : UInt16} {c c' : Cursor}
    {r : List AddressItem × Bool} (h : c.addresses env fuel n givenSize = some (r, givenSize', c')) :
    c'.size ≤ c.size := by
  induction n generalizing givenSize givenSize' c r with
  | zero =>
    obtain ⟨-, h⟩ := Prod.mk.inj (Option.some.inj h)
    obtain ⟨-, rfl⟩ := Prod.mk.inj h
    exact le_rfl
  | succ n ih =>
    rw [addresses_succ] at h
    obtain ⟨⟨name, c₁⟩, hname, h⟩ := Option.bind_eq_some_iff.mp h
    obtain ⟨⟨⟨pairs, threw⟩, c₂⟩, hpairs, h⟩ := Option.bind_eq_some_iff.mp h
    have h₁ := size_advance_le 1 c
    have h₂ := size_advance_le 8 (advance 1 c)
    have h₃ := size_string_lt hname
    have h₄ := size_advance_le 2 c₁
    have h₅ := size_pairs_le hpairs
    dsimp only at h h₅
    split_ifs at h
    · obtain ⟨-, h⟩ := Prod.mk.inj (Option.some.inj h)
      obtain ⟨-, rfl⟩ := Prod.mk.inj h
      omega
    · obtain ⟨⟨r', givenSize'', c₃⟩, hrest, h⟩ := Option.map_eq_some_iff.mp h
      obtain ⟨-, h⟩ := Prod.mk.inj h
      obtain ⟨-, rfl⟩ := Prod.mk.inj h
      have h₆ := ih hrest
      omega

end Cursor

/-- An address with its options, stored if it is valid. -/
theorem OptionsStep.addressesStep {env : ParseEnv} {pairs : List (List UInt8 × List UInt8)} {st st' : AddressState}
    {c c' : Contents} (h : OptionsStep env pairs st st' c c') (hhost : st.address.host = .unspecified)
    (hvalid : st.isValid = true) :
    AddressesStep env [⟨st.address.transport, pairs⟩] c (storeAddress st' c') := by
  have haccepted : (AddressItem.mk st.address.transport pairs).Accepted env ↔ st'.isValid = true := by
    rw [h.isValid, hvalid, Bool.true_and, List.all_eq_true]
    rfl
  have hlast : (AddressItem.mk st.address.transport pairs).host env = st'.address.host := by
    rw [h.host, hhost]
    rfl
  constructor
  · intro isNTCP isV4
    simp only [List.mem_singleton, exists_eq_left, haccepted, hlast]
    rw [storeAddress]
    split_ifs with hstored
    · simp only [List.mem_append, List.mem_singleton, or_and_right, exists_or, exists_eq_left, h.addresses,
        h.transport, hstored, true_and]
    · simp only [h.addresses, hstored, Bool.false_eq_true, false_and, or_false]
  · intro isNTCP isV4
    have hsame : (storeAddress st' c').supportedTransports = c'.supportedTransports := by
      rw [storeAddress]
      split <;> rfl
    rw [hsame, h.transports]
    simp only [List.mem_singleton, exists_eq_left]

theorem AddressesStep.trans {env : ParseEnv} {items items' : List AddressItem} {c₁ c₂ c₃ : Contents}
    (h : AddressesStep env items c₁ c₂) (h' : AddressesStep env items' c₂ c₃) :
    AddressesStep env (items ++ items') c₁ c₃ := by
  constructor
  · intro isNTCP isV4
    rw [h'.addresses, h.addresses, or_assoc]
    simp only [List.mem_append, or_and_right, exists_or]
  · intro isNTCP isV4
    rw [h'.transports, h.transports, or_assoc]
    simp only [List.mem_append, or_and_right, exists_or]

theorem parseAddresses_spec (env : ParseEnv) {fuel fuel' : ℕ} (n : ℕ) (givenSize : UInt16) (hasIntroducers : Bool)
    {s : StringStream} (c : Contents) (hfuel : s.cursor.size < fuel) (hfuel' : s.cursor.size < fuel') :
    match s.cursor.addresses env fuel' n givenSize with
    | none => ∃ a ∈ watchAddresses env fuel n givenSize hasIntroducers (s, c), ¬ a.Defined
    | some ((items, threw), givenSize', end_) =>
      ((∀ a ∈ watchAddresses env fuel n givenSize hasIntroducers (s, c), a.Defined) ↔
        ∀ item ∈ items, ∀ pair ∈ item.pairs, OptionSafe env pair) ∧
      AddressesOutcome env items threw givenSize' end_ c
        (parseAddresses env fuel n givenSize hasIntroducers (s, c)) := by
  induction n generalizing givenSize hasIntroducers s c with
  | zero => exact ⟨by simp [watchAddresses, Watch.silent], rfl, rfl, rfl, by simp, by simp⟩
  | succ n ih =>
    rw [Cursor.addresses_succ]
    cases hname : (Cursor.advance 8 (Cursor.advance 1 s.cursor)).string with
    | none =>
      rw [← cursor_costAndDate] at hname
      obtain ⟨a, ha, hundefined⟩ := exists_undefined_of_string hname
      rw [Option.bind_none, watchAddresses_succ rfl]
      exact ⟨a, List.mem_append_left _ ha, hundefined⟩
    | some p =>
      obtain ⟨name, c₁⟩ := p
      obtain ⟨st, s', hhead, htransport, hhost, hvalid, hcursor, hdefined⟩ :=
        readAddressHead_of_string hname givenSize hasIntroducers
      have hsize : s'.cursor.size ≤ s.cursor.size := by
        have h₁ := Cursor.size_advance_le 1 s.cursor
        have h₂ := Cursor.size_advance_le 8 (Cursor.advance 1 s.cursor)
        have h₃ := Cursor.size_string_lt hname
        have h₄ := Cursor.size_advance_le 2 c₁
        rw [hcursor]
        omega
      have hoptions := parseAddressOptions_spec env (c₁.blockSize givenSize) 0 st c
        (hsize.trans_lt hfuel) (hsize.trans_lt hfuel')
      rw [Option.bind_some, watchAddresses_succ hhead, parseAddresses_succ hhead]
      dsimp only
      rw [← hcursor, ← htransport]
      cases hpairs : s'.cursor.pairs (throwsOption env) (c₁.blockSize givenSize) fuel' 0 with
      | none =>
        rw [hpairs] at hoptions
        obtain ⟨a, ha, hundefined⟩ := hoptions
        exact ⟨a, List.mem_append_right _ (List.mem_append_left _ ha), hundefined⟩
      | some r =>
        obtain ⟨⟨pairs, threw⟩, c₂⟩ := r
        rw [hpairs] at hoptions
        obtain ⟨hsafe, houtcome⟩ := hoptions
        have hsize' : c₂.size ≤ s'.cursor.size := Cursor.size_pairs_le hpairs
        rw [Option.bind_some]
        cases hparse : parseAddressOptions env (c₁.blockSize givenSize) fuel 0 st (s', c) with
        | mk r p =>
          rw [hparse] at houtcome
          cases r with
          | error e =>
            obtain rfl : threw = true := houtcome
            dsimp only
            rw [if_pos rfl]
            refine ⟨?_, rfl⟩
            simp only [List.append_nil, List.forall_mem_append, List.mem_singleton, forall_eq, hsafe]
            exact ⟨fun h => h.2, fun h => ⟨hdefined, h⟩⟩
          | ok st' =>
            obtain ⟨s₂, c'⟩ := p
            obtain ⟨rfl, hcursor₂, hstep⟩ := houtcome
            have hrest := ih (c₁.blockSize givenSize) st'.hasIntroducers (storeAddress st' c')
              (show s₂.cursor.size < fuel by rw [hcursor₂]; omega)
              (show s₂.cursor.size < fuel' by rw [hcursor₂]; omega)
            dsimp only
            rw [if_neg Bool.false_ne_true, ← hcursor₂]
            cases hlist : s₂.cursor.addresses env fuel' n (c₁.blockSize givenSize) with
            | none =>
              rw [hlist] at hrest
              obtain ⟨a, ha, hundefined⟩ := hrest
              exact ⟨a, List.mem_append_right _ (List.mem_append_right _ ha), hundefined⟩
            | some q =>
              obtain ⟨⟨items, threw⟩, givenSize', end_⟩ := q
              rw [hlist] at hrest
              obtain ⟨hiff, hend⟩ := hrest
              refine ⟨?_, ?_⟩
              · simp only [List.forall_mem_append, List.forall_mem_cons, hiff, hsafe]
                exact ⟨fun h => h.2, fun h => ⟨hdefined, h⟩⟩
              · cases hparse' : parseAddresses env fuel n (c₁.blockSize givenSize) st'.hasIntroducers
                  (s₂, storeAddress st' c') with
                | mk r p =>
                  rw [hparse'] at hend
                  cases r with
                  | error e => exact hend
                  | ok r =>
                    obtain ⟨hthrew, hgiven, hcursor', hsteps⟩ := hend
                    exact ⟨hthrew, hgiven, hcursor', (hstep.addressesStep hhost hvalid).trans hsteps⟩

/-! ## The members -/

/-- The last options change neither addresses nor supported transports. -/
theorem parseOptions_spec (givenSize : UInt16) {fuel fuel' : ℕ} (remainingSize : UInt16) {s : StringStream}
    (c : Contents) (hfuel : s.cursor.size < fuel) (hfuel' : s.cursor.size < fuel')
    (hlist : s.cursor.pairs (fun _ => false) givenSize fuel' remainingSize ≠ none) :
    ∃ s' c', parseOptions givenSize fuel remainingSize (s, c) = (.ok (), (s', c')) ∧
      c'.addresses = c.addresses ∧ c'.supportedTransports = c.supportedTransports := by
  induction fuel generalizing fuel' remainingSize s c with
  | zero => cases hfuel
  | succ fuel ih =>
    obtain ⟨fuel', rfl⟩ := Nat.exists_eq_add_one.mpr (Nat.zero_lt_of_lt hfuel')
    rw [parseOptions]
    by_cases hlt : remainingSize < givenSize
    · rw [Cursor.pairs_succ hlt] at hlist
      cases hpair : s.cursor.pair with
      | none => exact absurd (by rw [hpair]; rfl) hlist
      | some p =>
        obtain ⟨⟨key, value⟩, c₁⟩ := p
        obtain ⟨hread, hcursor, -⟩ := readKeyPair_of_pair hpair
        have hsmaller : (StringStream.readKeyPair s).2.cursor.size < s.cursor.size :=
          hcursor ▸ Cursor.size_pair_lt hpair
        rw [hpair, Option.bind_some, if_neg Bool.false_ne_true, ne_eq, Option.map_eq_none_iff] at hlist
        have hstream : stream StringStream.readKeyPair (s, c) =
            (.ok (StringStream.readKeyPair s).1, ((StringStream.readKeyPair s).2, c)) := rfl
        rw [if_pos hlt, bind_apply, hstream, hread]
        dsimp only
        rw [bind_apply]
        have hnext : ∀ c' : Contents, c'.addresses = c.addresses → c'.supportedTransports = c.supportedTransports →
            ∃ s' c'', parseOptions givenSize fuel
                (remainingSize + UInt16.ofNat (key.length + 2 + value.length + 2))
                ((StringStream.readKeyPair s).2, c') = (.ok (), (s', c'')) ∧
              c''.addresses = c.addresses ∧ c''.supportedTransports = c.supportedTransports := by
          intro c' haddresses htransports
          obtain ⟨s', c'', hparse, haddresses', htransports'⟩ :=
            ih (remainingSize + UInt16.ofNat (key.length + 2 + value.length + 2)) c'
              (show (StringStream.readKeyPair s).2.cursor.size < fuel by omega)
              (show (StringStream.readKeyPair s).2.cursor.size < fuel' by omega) (by rw [hcursor]; exact hlist)
          exact ⟨s', c'', hparse, haddresses'.trans haddresses, htransports'.trans htransports⟩
        split_ifs
        · exact hnext ((c.setOption key value).setCaps value) rfl rfl
        · exact hnext (c.setOption key value) rfl rfl
    · rw [if_neg hlt]
      exact ⟨s, c, rfl, rfl, rfl⟩

/-- The part of `parseMembers` behind the addresses. -/
def parseTail (fuel : ℕ) (givenSize : UInt16) (hasIntroducers : Bool) : ParseM Unit := do
  let junk ← stream (StringStream.uninitialised 1)
  let numPeers ← stream (StringStream.readU8 (junk.headD 0))
  stream (StringStream.seekg (numPeers.toNat * 32))
  let givenSize ← stream (StringStream.readBlockSize givenSize)
  parseOptions givenSize fuel 0
  write fun c => { c with
    isUnreachable := c.isUnreachable || c.supportedTransports = 0 || c.addresses.isEmpty ||
      (c.usesIntroducer && !hasIntroducers) }

/-- Its reads. -/
def watchTail (fuel : ℕ) (givenSize : UInt16) : Watch :=
  .andThen (fun p => [.value (p.1.has 1)]) (stream (StringStream.uninitialised 1)) fun junk =>
  .andThen .silent (stream (StringStream.readU8 (junk.headD 0))) fun numPeers =>
  .andThen .silent (stream (StringStream.seekg (numPeers.toNat * 32))) fun _ =>
  .andThen .silent (stream (StringStream.readBlockSize givenSize)) fun givenSize =>
  watchOptions givenSize fuel 0

/-- What it is listed as. -/
def Cursor.tail (fuel : ℕ) (givenSize : UInt16) (c : Cursor) :
    Option ((List (List UInt8 × List UInt8) × Bool) × Cursor) :=
  c.byte.bind fun p =>
    (Cursor.advance 2 (Cursor.advance (p.1.toNat * 32) p.2)).pairs (fun _ => false)
      ((Cursor.advance (p.1.toNat * 32) p.2).blockSize givenSize) fuel 0

/-- The part behind the addresses is read as it is listed, or something is read that is not there. -/
theorem tail_spec (givenSize : UInt16) (hasIntroducers : Bool) {fuel fuel' : ℕ} {s : StringStream} (c : Contents)
    (hfuel : s.cursor.size < fuel) (hfuel' : s.cursor.size < fuel') :
    ((∀ a ∈ watchTail fuel givenSize (s, c), a.Defined) ↔ s.cursor.tail fuel' givenSize ≠ none) ∧
      (s.cursor.tail fuel' givenSize ≠ none →
        ∃ s' c', parseTail fuel givenSize hasIntroducers (s, c) = (.ok (), (s', c')) ∧
          c'.addresses = c.addresses ∧ c'.supportedTransports = c.supportedTransports) := by
  rw [Cursor.tail]
  cases hbyte : s.cursor.byte with
  | none =>
    have hundefined : ¬ (Access.value (s.has 1)).Defined := by
      rw [Access.Defined, has_of_byte hbyte]
      exact Bool.false_ne_true
    rw [Option.bind_none]
    refine ⟨⟨fun h => ?_, fun h => absurd rfl h⟩, fun h => absurd rfl h⟩
    exact absurd (h _ (List.mem_append_left _ List.mem_cons_self)) hundefined
  | some p =>
    obtain ⟨numPeers, c₁⟩ := p
    have hbyte' : (StringStream.uninitialised 1 s).2.cursor.byte = some (numPeers, c₁) := hbyte
    obtain ⟨hnum, hcursor, hhas⟩ := readU8_of_byte hbyte' ((StringStream.uninitialised 1 s).1.headD 0)
    have hless := Cursor.size_byte_le hbyte
    rw [Option.bind_some]
    set s₁ := (StringStream.readU8 ((StringStream.uninitialised 1 s).1.headD 0) (StringStream.uninitialised 1 s).2).2
      with hs₁
    set s₂ := (StringStream.seekg (numPeers.toNat * 32) s₁).2 with hs₂
    have hcursor₂ : s₂.cursor = Cursor.advance (numPeers.toNat * 32) c₁ := by rw [hs₂, cursor_seekg, hcursor]
    have hcursor₃ := cursor_readBlockSize givenSize s₂
    have hgiven := fst_readBlockSize givenSize s₂
    have hsize : (StringStream.readBlockSize givenSize s₂).2.cursor.size ≤ s.cursor.size := by
      rw [hcursor₃, hcursor₂]
      exact ((Cursor.size_advance_le _ _).trans (Cursor.size_advance_le _ _)).trans hless
    have hwatch : watchTail fuel givenSize (s, c) = .value (s.has 1) ::
        watchOptions (StringStream.readBlockSize givenSize s₂).1 fuel 0
          ((StringStream.readBlockSize givenSize s₂).2, c) := by
      rw [hs₂, ← hnum]
      rfl
    have hparse : parseTail fuel givenSize hasIntroducers (s, c) =
        (parseOptions (StringStream.readBlockSize givenSize s₂).1 fuel 0 >>= fun _ =>
          write fun c => { c with
            isUnreachable := c.isUnreachable || c.supportedTransports = 0 || c.addresses.isEmpty ||
              (c.usesIntroducer && !hasIntroducers) })
          ((StringStream.readBlockSize givenSize s₂).2, c) := by
      rw [hs₂, ← hnum]
      rfl
    dsimp only
    rw [← hcursor₂, ← hcursor₃, ← hgiven, hwatch, hparse]
    have hoptions := watchOptions_spec (StringStream.readBlockSize givenSize s₂).1 0 c
      (hsize.trans_lt hfuel) (hsize.trans_lt hfuel')
    refine ⟨?_, ?_⟩
    · rw [List.forall_mem_cons, ← hoptions]
      exact ⟨fun h => h.2, fun h => ⟨hhas, h⟩⟩
    · intro hlist
      obtain ⟨s', c', hend, haddresses, htransports⟩ :=
        parseOptions_spec (StringStream.readBlockSize givenSize s₂).1 0 c (hsize.trans_lt hfuel)
          (hsize.trans_lt hfuel') hlist
      rw [bind_apply, hend]
      exact ⟨_, _, rfl, haddresses, htransports⟩

/-- Either an option has thrown, or everything has been parsed. -/
def MembersOutcome (env : ParseEnv) (items : List AddressItem) (threw : Bool) (c : Contents) :
    Except Failure Unit × StringStream × Contents → Prop
  | (.error _, _) => threw = true
  | (.ok _, (_, c')) => threw = false ∧ AddressesStep env items c c'

theorem parseMembers_spec (env : ParseEnv) {fuel fuel' : ℕ} {s : StringStream} (c : Contents)
    (hfuel : s.cursor.size < fuel) (hfuel' : s.cursor.size < fuel') :
    match s.cursor.members env fuel' with
    | none => ∃ a ∈ watchMembers env fuel (s, c), ¬ a.Defined
    | some (items, threw) =>
      ((∀ a ∈ watchMembers env fuel (s, c), a.Defined) ↔ ∀ item ∈ items, ∀ pair ∈ item.pairs, OptionSafe env pair) ∧
      MembersOutcome env items threw c (parseMembers env fuel (s, c)) := by
  have hlist : s.cursor.members env fuel' =
      s.cursor.byte.bind fun p => (p.2.addresses env fuel' p.1.toNat 0).bind fun r =>
        if r.1.2 then some (r.1.1, true) else (r.2.2.tail fuel' r.2.1).map fun _ => (r.1.1, false) := by
    rw [Cursor.members, Option.bind_eq_bind]
    refine congrArg _ (funext fun p => ?_)
    obtain ⟨numAddresses, c⟩ := p
    dsimp only
    rw [Option.bind_eq_bind]
    refine congrArg _ (funext fun r => ?_)
    obtain ⟨⟨items, threw⟩, givenSize, c⟩ := r
    cases threw with
    | true => rfl
    | false =>
      dsimp only
      rw [Cursor.tail]
      cases hpeers : c.byte with
      | none => rfl
      | some q =>
        obtain ⟨numPeers, c₁⟩ := q
        show Option.bind _ _ = _
        dsimp only [Option.bind_some]
        cases (Cursor.advance 2 (Cursor.advance (numPeers.toNat * 32) c₁)).pairs (fun _ => false)
          ((Cursor.advance (numPeers.toNat * 32) c₁).blockSize givenSize) fuel' 0 <;> rfl
  rw [hlist]
  cases hbyte : s.cursor.byte with
  | none =>
    refine ⟨.value (s.has 1), List.mem_append_left _ List.mem_cons_self, ?_⟩
    rw [Access.Defined, has_of_byte hbyte]
    exact Bool.false_ne_true
  | some p =>
    obtain ⟨numAddresses, c₁⟩ := p
    have hbyte' : (StringStream.uninitialised 1 s).2.cursor.byte = some (numAddresses, c₁) := hbyte
    obtain ⟨hnum, hcursor, hhas⟩ := readU8_of_byte hbyte' ((StringStream.uninitialised 1 s).1.headD 0)
    have hless := Cursor.size_byte_le hbyte
    set s₁ := (StringStream.readU8 ((StringStream.uninitialised 1 s).1.headD 0) (StringStream.uninitialised 1 s).2).2
      with hs₁
    have hless : s₁.cursor.size ≤ s.cursor.size := hcursor ▸ hless
    have haddresses := parseAddresses_spec env numAddresses.toNat 0 false c
      (hless.trans_lt hfuel) (hless.trans_lt hfuel')
    have hwatch : watchMembers env fuel (s, c) = .value (s.has 1) ::
        (watchAddresses env fuel numAddresses.toNat 0 false (s₁, c) ++
          match parseAddresses env fuel numAddresses.toNat 0 false (s₁, c) with
          | (.ok (givenSize, _), p) => watchTail fuel givenSize p
          | (.error _, _) => []) := by
      have hsame : watchMembers env fuel (s, c) = .value (s.has 1) ::
          Watch.andThen (watchAddresses env fuel numAddresses.toNat 0 false)
            (parseAddresses env fuel numAddresses.toNat 0 false) (fun r => watchTail fuel r.1) (s₁, c) := by
        rw [← hnum]
        rfl
      rw [hsame, Watch.andThen]
      cases parseAddresses env fuel numAddresses.toNat 0 false (s₁, c) with
      | mk r p => cases r <;> rfl
    have hparse : parseMembers env fuel (s, c) =
        match parseAddresses env fuel numAddresses.toNat 0 false (s₁, c) with
        | (.ok (givenSize, hasIntroducers), p) => parseTail fuel givenSize hasIntroducers p
        | (.error e, p) => (.error e, p) := by
      have hsame : parseMembers env fuel (s, c) =
          (parseAddresses env fuel numAddresses.toNat 0 false >>= fun r => parseTail fuel r.1 r.2) (s₁, c) := by
        rw [← hnum]
        rfl
      rw [hsame, bind_apply]
      cases parseAddresses env fuel numAddresses.toNat 0 false (s₁, c) with
      | mk r p => cases r <;> rfl
    rw [hwatch, hparse, Option.bind_some]
    dsimp only
    rw [← hcursor]
    cases hitems : s₁.cursor.addresses env fuel' numAddresses.toNat 0 with
    | none =>
      rw [hitems] at haddresses
      obtain ⟨a, ha, hundefined⟩ := haddresses
      exact ⟨a, List.mem_cons_of_mem _ (List.mem_append_left _ ha), hundefined⟩
    | some r =>
      obtain ⟨⟨items, threw⟩, givenSize, end_⟩ := r
      rw [hitems] at haddresses
      obtain ⟨hsafe, houtcome⟩ := haddresses
      have hend := Cursor.size_addresses_le hitems
      rw [Option.bind_some]
      cases hresult : parseAddresses env fuel numAddresses.toNat 0 false (s₁, c) with
      | mk r p =>
        rw [hresult] at houtcome
        cases r with
        | error e =>
          obtain rfl : threw = true := houtcome
          refine ⟨?_, rfl⟩
          rw [List.append_nil, List.forall_mem_cons, hsafe]
          exact ⟨fun h => h.2, fun h => ⟨hhas, h⟩⟩
        | ok r =>
          obtain ⟨givenSize', hasIntroducers⟩ := r
          obtain ⟨s₂, c'⟩ := p
          obtain ⟨rfl, rfl, hcursor₂, hstep⟩ := houtcome
          obtain ⟨htail, hdone⟩ := tail_spec givenSize' hasIntroducers c'
            (show s₂.cursor.size < fuel by rw [hcursor₂]; omega) (show s₂.cursor.size < fuel' by rw [hcursor₂]; omega)
          dsimp only
          rw [if_neg Bool.false_ne_true, ← hcursor₂]
          cases hrest : s₂.cursor.tail fuel' givenSize' with
          | none =>
            rw [hrest] at htail
            have hundefined : ¬ ∀ a ∈ watchTail fuel givenSize' (s₂, c'), a.Defined := fun h => htail.mp h rfl
            push Not at hundefined
            obtain ⟨a, ha, hundefined⟩ := hundefined
            exact ⟨a, List.mem_cons_of_mem _ (List.mem_append_right _ ha), hundefined⟩
          | some rest =>
            rw [hrest] at htail hdone
            obtain ⟨s₃, c₃, hfinal, hkept, hkept'⟩ := hdone (Option.some_ne_none rest)
            refine ⟨?_, ?_⟩
            · rw [List.forall_mem_cons, List.forall_mem_append, hsafe, htail]
              exact ⟨fun h => h.2.1, fun h => ⟨hhas, h, Option.some_ne_none rest⟩⟩
            · rw [hfinal]
              refine ⟨rfl, ⟨fun isNTCP isV4 => ?_, fun isNTCP isV4 => ?_⟩⟩
              · rw [hkept, hstep.addresses]
              · rw [hkept', hstep.transports]

/-! ## The result -/

theorem safeRun_iff (env : ParseEnv) (bytes : List UInt8) {junk : ℕ → UInt8} {fuel : ℕ} {c : Contents}
    (hfuel : bytes.length < fuel) (htransports : c.supportedTransports = 0) (haddresses : c.addresses = []) :
    SafeRun env fuel ({ rest := bytes, junk }, c) ↔
      ∃ items threw, listing env bytes = some (items, threw) ∧ ListingSafe env items threw := by
  set s : StringStream := { rest := bytes, junk } with hs
  set s₁ := (StringStream.readBig64 c.timestamp s).2 with hs₁
  set c₁ : Contents := { c with timestamp := (StringStream.readBig64 c.timestamp s).1 } with hc₁
  have hwatch : watchRouterInfo env fuel (s, c) = watchMembers env fuel (s₁, c₁) := rfl
  have hparse : parseRouterInfo env fuel (s, c) = parseMembers env fuel (s₁, c₁) := rfl
  have hcursor : s₁.cursor = Cursor.advance 8 (some bytes) := by
    have hlength : (writeBE 8 c.timestamp.toNat).reverse.length = 8 := by simp
    exact (cursor_readOver _ s).trans (by rw [hlength]; rfl)
  have hsize : s₁.cursor.size ≤ bytes.length := hcursor ▸ Cursor.size_advance_le 8 (some bytes)
  have hmembers := parseMembers_spec env c₁ (hsize.trans_lt hfuel) (Nat.lt_succ_of_le hsize)
  rw [listing, ← hcursor]
  have hstart : ∀ isNTCP isV4, ¬ HasTransport c₁.supportedTransports isNTCP isV4 := by
    intro isNTCP isV4
    rw [HasTransport, show c₁.supportedTransports = 0 from htransports]
    simp
  have hnone : ∀ isNTCP isV4, ¬ ∃ a ∈ c₁.addresses, a.transport = transportOf isNTCP ∧ a.host.isV4 = isV4 := by
    intro isNTCP isV4
    rw [show c₁.addresses = [] from haddresses]
    simp
  cases hlist : s₁.cursor.members env (bytes.length + 1) with
  | none =>
    rw [hlist] at hmembers
    obtain ⟨a, ha, hundefined⟩ := hmembers
    constructor
    · rintro ⟨hdefined, -⟩
      exact absurd (hdefined a (hwatch ▸ ha)) hundefined
    · rintro ⟨_, _, h, -⟩
      cases h
  | some r =>
    obtain ⟨items, threw⟩ := r
    rw [hlist] at hmembers
    obtain ⟨hsafe, houtcome⟩ := hmembers
    have hsome : (∃ items' threw', some (items, threw) = some (items', threw') ∧ ListingSafe env items' threw') ↔
        ListingSafe env items threw := by
      constructor
      · rintro ⟨_, _, h, hsafe⟩
        obtain ⟨rfl, rfl⟩ := Prod.mk.inj (Option.some.inj h)
        exact hsafe
      · exact fun h => ⟨items, threw, rfl, h⟩
    rw [hsome]
    cases hresult : parseMembers env fuel (s₁, c₁) with
    | mk r p =>
      rw [hresult] at houtcome
      cases r with
      | error e =>
        obtain rfl : threw = true := houtcome
        constructor
        · rintro ⟨hdefined, -⟩
          exact ⟨hsafe.mp (hwatch ▸ hdefined), nofun⟩
        · rintro ⟨hoptions, -⟩
          refine ⟨hwatch ▸ hsafe.mpr hoptions, fun hok => ?_⟩
          rw [hparse, hresult] at hok
          cases hok
      | ok u =>
        obtain ⟨s', c'⟩ := p
        obtain ⟨rfl, hstep⟩ := houtcome
        -- the run starts without addresses and without supported transports
        have hbits : ∀ isNTCP isV4, HasTransport c'.supportedTransports isNTCP isV4 ↔
            ∃ item ∈ items, ∃ pair ∈ item.pairs, declares env item.transport pair = some (isNTCP, isV4) :=
          fun isNTCP isV4 => (hstep.transports isNTCP isV4).trans (or_iff_right (hstart isNTCP isV4))
        have hstored : ∀ isNTCP isV4, (∃ a ∈ c'.addresses, a.transport = transportOf isNTCP ∧ a.host.isV4 = isV4) ↔
            ∃ item ∈ items, item.Accepted env ∧ item.transport = transportOf isNTCP ∧ (item.host env).isV4 = isV4 :=
          fun isNTCP isV4 => (hstep.addresses isNTCP isV4).trans (or_iff_right (hnone isNTCP isV4))
        constructor
        · rintro ⟨hdefined, hall⟩
          rw [hparse, hresult] at hall
          refine ⟨hsafe.mp (hwatch ▸ hdefined), fun _ isNTCP isV4 => ?_⟩
          exact (hbits isNTCP isV4).symm.trans ((hall rfl isNTCP isV4).trans (hstored isNTCP isV4))
        · rintro ⟨hoptions, hall⟩
          refine ⟨hwatch ▸ hsafe.mpr hoptions, fun _ isNTCP isV4 => ?_⟩
          rw [hparse, hresult]
          exact (hbits isNTCP isV4).trans ((hall rfl isNTCP isV4).trans (hstored isNTCP isV4).symm)

/-- All that the parser reads is defined, and the supported transports are those of the addresses, exactly if no byte is
missing, every option is safe to read and the transports that hosts declare are those of the addresses that are kept. -/
theorem parsesSafely_iff (env : ParseEnv) (bytes : List UInt8) :
    ParsesSafely env bytes ↔
      ∃ items threw, listing env bytes = some (items, threw) ∧ ListingSafe env items threw := by
  constructor
  · intro h
    exact (safeRun_iff env bytes (Nat.lt_succ_self _) rfl rfl).mp (h (fun _ => 0) _ {} (Nat.lt_succ_self _) rfl rfl)
  · intro h junk fuel c hfuel htransports haddresses
    exact (safeRun_iff env bytes hfuel htransports haddresses).mpr h

/-- `AQID` is the only text that can be decoded. -/
def exampleParse : ParseEnv where
  fromString _ := .error true
  lexicalCast16 _ := none
  lexicalCast32 _ := none
  base64Decode text := if text = trait "AQID" then some [1, 2, 3] else none

/-- One address, with a key of three bytes. -/
def exampleShortKey : List UInt8 :=
  List.replicate 8 0 ++ [1] ++ List.replicate 9 0 ++ (3 :: trait "SSU") ++ [0, 11] ++
    (3 :: trait "key") ++ [61] ++ (4 :: trait "AQID") ++ [59] ++ [0] ++ [0, 0]

/-- 32 bytes are copied from the three that have been decoded. -/
theorem not_parsesSafely_exampleShortKey : ¬ ParsesSafely exampleParse exampleShortKey := by
  intro h
  have hrun := h (fun _ => 0) (exampleShortKey.length + 1) {} (Nat.lt_succ_self _) rfl rfl
  have hmem : Access.keyCopy 3 ∈ watchRouterInfo exampleParse (exampleShortKey.length + 1)
      ({ rest := exampleShortKey, junk := fun _ => 0 }, {}) := by decide +kernel
  exact absurd (hrun.defined _ hmem) (by unfold Access.Defined; decide)

end Router
