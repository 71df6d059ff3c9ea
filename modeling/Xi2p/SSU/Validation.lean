import Xi2p.SSU.Acks
import Xi2p.SSU.Packet

/-!
# Validated data payloads

A data packet is read twice: `SSUPacketParser::ParseData` checks every length, and
`SSUData::ProcessMessage` then walks through the same bytes without a check.

* `parseData_sound`, `parseData_complete`: the layout of the payloads that `ParseData` accepts.
* `scanMessage`: what `ProcessMessage` takes from its buffer, with the addresses it reads;
  `processMessage_eq_scanMessage` ties it to `ProcessMessage`.
* `agrees_iff_of_singleChain`: when both see the same ACKs and fragments. The two layouts of the bit
  fields differ: all message IDs and then a single chain against a chain behind every message ID.
-/

namespace SSU

open Bytes ByteStream

/-! ## The layout that is accepted -/

/-- A fragment of a data payload. -/
structure FragmentEntry where
  /-- The message ID. -/
  msgID : UInt32
  /-- The fragment information. -/
  info : ℕ
  /-- The data. -/
  data : List UInt8
  /-- The fragment information has three bytes. -/
  info_lt : info < 256 ^ 3
  /-- It ends in the size of the data. -/
  size_eq : info &&& 0x3FFF = data.length
  /-- There is some data. -/
  data_pos : 0 < data.length

namespace FragmentEntry

/-- The bytes of a fragment. -/
def encode (e : FragmentEntry) : List UInt8 := writeU32 e.msgID ++ (writeBE 3 e.info ++ e.data)

/-- The fragment that `ParseFragment` makes of the bytes. -/
def toFragment (e : FragmentEntry) : SSUFragment :=
  ⟨e.msgID.toUInt8, UInt8.ofNat (e.info >>> 17), e.info.testBit 16, e.data⟩

/-- The header that `ProcessFragments` reads at position `pos`. -/
def headerAt (e : FragmentEntry) (pos : ℕ) : FragmentHeader :=
  { msgID := e.msgID
    size := e.data.length
    isLast := e.info.testBit 16
    fragmentNum := e.info >>> 17
    pos := pos + 7 }

/-- The headers of several fragments, from position `pos` on. -/
def headersAt : ℕ → List FragmentEntry → List FragmentHeader
  | _, [] => []
  | pos, e :: es => e.headerAt pos :: headersAt (pos + e.encode.length) es

/-- `ProcessFragments` does not stop at the fragment. -/
def Fits (e : FragmentEntry) : Prop := e.data.length < packetMaxIPv4

instance (e : FragmentEntry) : Decidable e.Fits :=
  inferInstanceAs (Decidable (e.data.length < packetMaxIPv4))

theorem length_encode (e : FragmentEntry) : e.encode.length = 7 + e.data.length := by
  simp only [encode, List.length_append, length_writeU32, length_writeBE]
  omega

end FragmentEntry

/-- The bytes of a part that is there only if `flag` is set. -/
def optionalPart (flags flag : UInt8) (bytes : List UInt8) : List UInt8 :=
  if flags &&& flag ≠ 0 then bytes else []

/-- A data payload. -/
structure DataPayload where
  /-- The flags. -/
  flags : UInt8
  /-- The explicit ACKs. -/
  explicitACKs : List UInt32
  /-- The message IDs of the bit fields. -/
  acks : List UInt32
  /-- The chain of bit fields. -/
  chain : List UInt8
  /-- The extended data. -/
  extendedData : List UInt8
  /-- The fragments. -/
  fragments : List FragmentEntry
  /-- Explicit ACKs need their flag. -/
  explicitACKs_eq_nil : flags &&& dataExplicitACKsIncluded = 0 → explicitACKs = []
  /-- Bit fields need their flag. -/
  acks_eq_nil : flags &&& dataACKBitfieldsIncluded = 0 → acks = [] ∧ chain = []
  /-- Announced extended data is not empty. -/
  extendedData_pos : flags &&& dataExtendedIncluded ≠ 0 → 0 < extendedData.length
  /-- The bit fields are a chain. -/
  isChain : flags &&& dataACKBitfieldsIncluded ≠ 0 → IsChain chain
  /-- Every count is a single byte. -/
  length_lt : explicitACKs.length < 256 ∧ acks.length < 256 ∧ extendedData.length < 256 ∧
    fragments.length < 256

namespace DataPayload

/-- The bytes of the explicit ACKs. -/
def explicitPart (flags : UInt8) (ids : List UInt32) : List UInt8 :=
  optionalPart flags dataExplicitACKsIncluded (UInt8.ofNat ids.length :: ids.flatMap writeU32)

/-- The bytes of the bit fields. -/
def bitfieldPart (flags : UInt8) (ids : List UInt32) (chain : List UInt8) : List UInt8 :=
  optionalPart flags dataACKBitfieldsIncluded
    (UInt8.ofNat ids.length :: (ids.flatMap writeU32 ++ chain))

/-- The bytes of the extended data. -/
def extendedPart (flags : UInt8) (data : List UInt8) : List UInt8 :=
  optionalPart flags dataExtendedIncluded (UInt8.ofNat data.length :: data)

/-- The bytes of the fragments. -/
def fragmentPart (es : List FragmentEntry) : List UInt8 :=
  UInt8.ofNat es.length :: es.flatMap FragmentEntry.encode

/-- The bytes of a payload. -/
def encode (p : DataPayload) : List UInt8 :=
  p.flags :: (explicitPart p.flags p.explicitACKs ++ (bitfieldPart p.flags p.acks p.chain ++
    (extendedPart p.flags p.extendedData ++ fragmentPart p.fragments)))

/-- The packet that `ParseData` makes of a payload. -/
def toPacket (p : DataPayload) : SSUDataPacket :=
  { explicitACKs := p.explicitACKs
    acks := p.acks
    ackBitfields := p.chain
    fragments := p.fragments.map FragmentEntry.toFragment }

end DataPayload

/-! ## What is accepted has the layout -/

/-- A reader that is run several times takes a sequence of encodings, if every run takes one. -/
theorem readMany_sound {α β : Type} {p : Parser α} {enc : β → List UInt8} {dec : β → α}
    (hp : ∀ s a s', p s = .ok (a, s') → ∃ e, s.rest = enc e ++ s'.rest ∧ a = dec e)
    {n : ℕ} {s s' : InputByteStream} {as : List α} (h : readMany p n s = .ok (as, s')) :
    ∃ es : List β, es.length = n ∧ s.rest = es.flatMap enc ++ s'.rest ∧ as = es.map dec := by
  induction n generalizing s as with
  | zero =>
    obtain ⟨rfl, rfl⟩ := Prod.mk.inj (Except.ok.inj h)
    exact ⟨[], rfl, rfl, rfl⟩
  | succ n ih =>
    obtain ⟨a, s₁, ha, h⟩ := bind_eq_ok_iff.mp h
    obtain ⟨as', s₂, has, h⟩ := bind_eq_ok_iff.mp h
    obtain ⟨rfl, rfl⟩ := Prod.mk.inj (Except.ok.inj h)
    obtain ⟨e, hrest, rfl⟩ := hp s a s₁ ha
    obtain ⟨es, rfl, hrest', rfl⟩ := ih has
    refine ⟨e :: es, rfl, ?_, rfl⟩
    rw [hrest, hrest', List.flatMap_cons, List.append_assoc]

theorem readMany_read32_sound {n : ℕ} {s s' : InputByteStream} {ids : List UInt32}
    (h : readMany read32 n s = .ok (ids, s')) :
    ids.length = n ∧ s.rest = ids.flatMap writeU32 ++ s'.rest := by
  have hread : ∀ s v s', read32 s = .ok (v, s') →
      ∃ e, s.rest = writeU32 e ++ s'.rest ∧ v = id e :=
    fun s v s' hv => ⟨v, (eq_append_of_read32 hv).2, rfl⟩
  obtain ⟨es, hlen, hrest, rfl⟩ := readMany_sound hread h
  rw [List.map_id]
  exact ⟨hlen, hrest⟩

theorem parseFragment_sound {s s' : InputByteStream} {f : SSUFragment}
    (h : parseFragment s = .ok (f, s')) :
    ∃ e : FragmentEntry, s.rest = e.encode ++ s'.rest ∧ f = e.toFragment := by
  obtain ⟨msgID, s₁, hid, h⟩ := bind_eq_ok_iff.mp h
  obtain ⟨infoBytes, s₂, hinfo, h⟩ := bind_eq_ok_iff.mp h
  obtain ⟨s₂', s₃, hget, h⟩ := bind_eq_ok_iff.mp h
  obtain ⟨rfl, rfl⟩ := Prod.mk.inj (Except.ok.inj hget)
  split at h
  · cases h
  obtain ⟨data, s₄, hdata, h⟩ := bind_eq_ok_iff.mp h
  obtain ⟨rfl, rfl⟩ := Prod.mk.inj (Except.ok.inj h)
  obtain ⟨-, hid⟩ := eq_append_of_read32 hid
  obtain ⟨-, hinfoLen, -, hinfo⟩ := eq_append_of_readBytes hinfo
  obtain ⟨hdataPos, hdataLen, -, hdata⟩ := eq_append_of_readBytes hdata
  have hlt : readBE infoBytes < 256 ^ 3 := by
    rw [← hinfoLen]
    exact readBE_lt infoBytes
  have hwrite : writeBE 3 (readBE infoBytes) = infoBytes := by
    rw [← hinfoLen]
    exact writeBE_readBE infoBytes
  refine ⟨⟨msgID, readBE infoBytes, data, hlt, hdataLen.symm, hdataLen ▸ hdataPos⟩, ?_, rfl⟩
  rw [FragmentEntry.encode, hwrite, hid, hinfo, hdata]
  simp

theorem readBitfields_sound {rounds : ℕ} {s s' : InputByteStream} {bs : List UInt8}
    (h : readBitfields rounds s = .ok (bs, s')) : IsChain bs ∧ s.rest = bs ++ s'.rest := by
  induction rounds generalizing s bs with
  | zero => cases h
  | succ rounds ih =>
    obtain ⟨b, s₁, hb, h⟩ := bind_eq_ok_iff.mp h
    obtain ⟨-, hrest⟩ := eq_cons_of_read8 hb
    split at h
    next hnext =>
      obtain ⟨bs', s₂, hbs, h⟩ := bind_eq_ok_iff.mp h
      obtain ⟨rfl, rfl⟩ := Prod.mk.inj (Except.ok.inj h)
      obtain ⟨⟨init, last, rfl, hinit, hlast⟩, hrest'⟩ := ih hbs
      refine ⟨⟨b :: init, last, rfl, ?_, hlast⟩, ?_⟩
      · intro c hc
        rcases List.mem_cons.mp hc with rfl | hc
        · exact hnext
        · exact hinit c hc
      · rw [hrest, hrest']
        rfl
    next hlast =>
      obtain ⟨rfl, rfl⟩ := Prod.mk.inj (Except.ok.inj h)
      exact ⟨⟨[], b, rfl, by simp, not_not.mp hlast⟩, hrest⟩

theorem optionalPart_of_ne {flags flag : UInt8} {bytes : List UInt8} (h : flags &&& flag ≠ 0) :
    optionalPart flags flag bytes = bytes := if_pos h

theorem optionalPart_of_eq {flags flag : UInt8} {bytes : List UInt8} (h : flags &&& flag = 0) :
    optionalPart flags flag bytes = [] := if_neg (not_not.mpr h)

open DataPayload in
theorem parseExplicitACKs_sound {flags : UInt8} {s s' : InputByteStream} {ids : List UInt32}
    (h : parseExplicitACKs flags s = .ok (ids, s')) :
    ids.length < 256 ∧ (flags &&& dataExplicitACKsIncluded = 0 → ids = []) ∧
      s.rest = explicitPart flags ids ++ s'.rest := by
  unfold parseExplicitACKs at h
  split at h
  next hflag =>
    obtain ⟨count, s₁, hcount, h⟩ := bind_eq_ok_iff.mp h
    obtain ⟨hlen, hrest'⟩ := readMany_read32_sound h
    obtain ⟨-, hrest⟩ := eq_cons_of_read8 hcount
    refine ⟨hlen ▸ count.toNat_lt, fun hclear => absurd hclear hflag, ?_⟩
    rw [explicitPart, optionalPart_of_ne hflag, hlen, UInt8.ofNat_toNat, hrest, hrest']
    rfl
  next hflag =>
    obtain ⟨rfl, rfl⟩ := Prod.mk.inj (Except.ok.inj h)
    refine ⟨by decide, fun _ => rfl, ?_⟩
    rw [explicitPart, optionalPart_of_eq (not_not.mp hflag)]
    rfl

open DataPayload in
theorem parseACKBitfields_sound {flags : UInt8} {s s' : InputByteStream} {ids : List UInt32}
    {chain : List UInt8} (h : parseACKBitfields flags s = .ok ((ids, chain), s')) :
    ids.length < 256 ∧ (flags &&& dataACKBitfieldsIncluded = 0 → ids = [] ∧ chain = []) ∧
      (flags &&& dataACKBitfieldsIncluded ≠ 0 → IsChain chain) ∧
      s.rest = bitfieldPart flags ids chain ++ s'.rest := by
  unfold parseACKBitfields at h
  split at h
  next hflag =>
    obtain ⟨count, s₁, hcount, h⟩ := bind_eq_ok_iff.mp h
    obtain ⟨ids', s₂, hids, h⟩ := bind_eq_ok_iff.mp h
    obtain ⟨s₂', s₃, hget, h⟩ := bind_eq_ok_iff.mp h
    obtain ⟨rfl, rfl⟩ := Prod.mk.inj (Except.ok.inj hget)
    obtain ⟨chain', s₄, hchain, h⟩ := bind_eq_ok_iff.mp h
    obtain ⟨hpair, rfl⟩ := Prod.mk.inj (Except.ok.inj h)
    obtain ⟨rfl, rfl⟩ := Prod.mk.inj hpair
    obtain ⟨-, hrest⟩ := eq_cons_of_read8 hcount
    obtain ⟨hlen, hrest₁⟩ := readMany_read32_sound hids
    obtain ⟨hisChain, hrest₂⟩ := readBitfields_sound hchain
    refine ⟨hlen ▸ count.toNat_lt, fun hclear => absurd hclear hflag, fun _ => hisChain, ?_⟩
    rw [bitfieldPart, optionalPart_of_ne hflag, hlen, UInt8.ofNat_toNat, hrest, hrest₁, hrest₂]
    simp
  next hflag =>
    obtain ⟨hpair, rfl⟩ := Prod.mk.inj (Except.ok.inj h)
    obtain ⟨rfl, rfl⟩ := Prod.mk.inj hpair
    refine ⟨by decide, fun _ => ⟨rfl, rfl⟩, fun hset => absurd hset hflag, ?_⟩
    rw [bitfieldPart, optionalPart_of_eq (not_not.mp hflag)]
    rfl

open DataPayload in
theorem skipExtendedData_sound {flags : UInt8} {s s' : InputByteStream}
    (h : skipExtendedData flags s = .ok ((), s')) :
    ∃ data : List UInt8, data.length < 256 ∧
      (flags &&& dataExtendedIncluded ≠ 0 → 0 < data.length) ∧
      s.rest = extendedPart flags data ++ s'.rest := by
  unfold skipExtendedData at h
  split at h
  next hflag =>
    obtain ⟨size, s₁, hsize, h⟩ := bind_eq_ok_iff.mp h
    obtain ⟨-, hrest⟩ := eq_cons_of_read8 hsize
    obtain ⟨data, hpos, hlen, -, hrest'⟩ := eq_append_of_skipBytes h
    refine ⟨data, hlen ▸ size.toNat_lt, fun _ => hlen ▸ hpos, ?_⟩
    rw [extendedPart, optionalPart_of_ne hflag, hlen, UInt8.ofNat_toNat, hrest, hrest']
    rfl
  next hflag =>
    obtain ⟨-, rfl⟩ := Prod.mk.inj (Except.ok.inj h)
    refine ⟨[], by decide, fun hset => absurd hset hflag, ?_⟩
    rw [extendedPart, optionalPart_of_eq (not_not.mp hflag)]
    rfl

/-- `ParseData` accepts payloads in the layout only. -/
theorem parseData_sound {s s' : InputByteStream} {packet : SSUDataPacket}
    (h : parseData s = .ok (packet, s')) :
    ∃ p : DataPayload, s.rest = p.encode ++ s'.rest ∧ packet = p.toPacket := by
  obtain ⟨flags, s₁, hflags, h⟩ := bind_eq_ok_iff.mp h
  obtain ⟨explicitACKs, s₂, hexplicit, h⟩ := bind_eq_ok_iff.mp h
  obtain ⟨⟨acks, chain⟩, s₃, hacks, h⟩ := bind_eq_ok_iff.mp h
  obtain ⟨⟨⟩, s₄, hextended, h⟩ := bind_eq_ok_iff.mp h
  obtain ⟨count, s₅, hcount, h⟩ := bind_eq_ok_iff.mp h
  obtain ⟨fragments, s₆, hfragments, h⟩ := bind_eq_ok_iff.mp h
  obtain ⟨rfl, rfl⟩ := Prod.mk.inj (Except.ok.inj h)
  obtain ⟨-, hrest⟩ := eq_cons_of_read8 hflags
  obtain ⟨hexplicitLen, hexplicitNil, hrest₁⟩ := parseExplicitACKs_sound hexplicit
  obtain ⟨hacksLen, hacksNil, hchain, hrest₂⟩ := parseACKBitfields_sound hacks
  obtain ⟨extendedData, hextendedLen, hextendedPos, hrest₃⟩ := skipExtendedData_sound hextended
  obtain ⟨-, hrest₄⟩ := eq_cons_of_read8 hcount
  obtain ⟨es, heslen, hrest₅, rfl⟩ :=
    readMany_sound (fun s f s' hf => parseFragment_sound hf) hfragments
  have heslt : es.length < 256 := heslen ▸ count.toNat_lt
  refine ⟨⟨flags, explicitACKs, acks, chain, extendedData, es, hexplicitNil, hacksNil,
    hextendedPos, hchain, hexplicitLen, hacksLen, hextendedLen, heslt⟩, ?_, rfl⟩
  rw [hrest, hrest₁, hrest₂, hrest₃, hrest₄, hrest₅]
  simp [DataPayload.encode, DataPayload.fragmentPart, heslen]

/-! ## The layout is accepted -/

theorem toNat_ofNat_of_lt {n : ℕ} (h : n < 256) : (UInt8.ofNat n).toNat = n := by
  rw [UInt8.toNat_ofNat']
  exact Nat.mod_eq_of_lt h

section Complete

variable {size : ℕ}

theorem readMany_complete {α β : Type} {p : Parser α} {enc : β → List UInt8} {dec : β → α}
    {es : List β}
    (hp : ∀ e ∈ es, ∀ rest, p ⟨size, enc e ++ rest⟩ = .ok (dec e, ⟨size, rest⟩))
    (rest : List UInt8) :
    readMany p es.length ⟨size, es.flatMap enc ++ rest⟩ = .ok (es.map dec, ⟨size, rest⟩) := by
  induction es with
  | nil => rfl
  | cons e es ih =>
    rw [List.flatMap_cons, List.append_assoc, List.length_cons, readMany,
      bind_of_eq_ok (hp e List.mem_cons_self _),
      bind_of_eq_ok (ih fun e he => hp e (List.mem_cons_of_mem _ he))]
    rfl

theorem readMany_read32_complete (ids : List UInt32) (rest : List UInt8) :
    readMany read32 ids.length ⟨size, ids.flatMap writeU32 ++ rest⟩ = .ok (ids, ⟨size, rest⟩) := by
  have hread : ∀ v ∈ ids, ∀ rest, read32 ⟨size, writeU32 v ++ rest⟩ = .ok (id v, ⟨size, rest⟩) :=
    fun v _ rest => read32_append v
  rw [readMany_complete hread rest, List.map_id]

theorem parseFragment_complete {e : FragmentEntry} (hsize : e.data.length ≤ size)
    (rest : List UInt8) :
    parseFragment ⟨size, e.encode ++ rest⟩ = .ok (e.toFragment, ⟨size, rest⟩) := by
  have hget : ∀ s : InputByteStream, (get : Parser InputByteStream) s = .ok (s, s) := fun _ => rfl
  have hinfo : readBE (writeBE 3 e.info) = e.info := by
    rw [readBE_writeBE]
    exact Nat.mod_eq_of_lt e.info_lt
  rw [FragmentEntry.encode, List.append_assoc, List.append_assoc, parseFragment,
    bind_of_eq_ok (reads_read32 e.msgID size _),
    bind_of_eq_ok (reads_readBytes (length_writeBE 3 _) (by decide) size _), hinfo, e.size_eq,
    bind_of_eq_ok (hget _)]
  dsimp only
  rw [if_neg (Nat.not_lt.mpr hsize), bind_of_eq_ok (reads_readBytes rfl e.data_pos size rest)]
  rfl

theorem readBitfields_complete {bs : List UInt8} (hchain : IsChain bs) {rounds : ℕ}
    (hrounds : bs.length ≤ rounds) (rest : List UInt8) :
    readBitfields rounds ⟨size, bs ++ rest⟩ = .ok (bs, ⟨size, rest⟩) := by
  obtain ⟨init, last, rfl, hinit, hlast⟩ := hchain
  induction init generalizing rounds with
  | nil =>
    obtain ⟨rounds, rfl⟩ : ∃ r, rounds = r + 1 := ⟨rounds - 1, by simp at hrounds; omega⟩
    rw [readBitfields, List.nil_append, bind_of_eq_ok (reads_read8 last size rest),
      if_neg (not_not.mpr hlast)]
    rfl
  | cons b init ih =>
    obtain ⟨rounds, rfl⟩ : ∃ r, rounds = r + 1 := ⟨rounds - 1, by simp at hrounds; omega⟩
    rw [List.cons_append, List.length_cons] at hrounds
    have hrest := ih (Nat.le_of_succ_le_succ hrounds) fun c hc => hinit c (List.mem_cons_of_mem _ hc)
    have hb : b &&& dataACKBitFieldHasNext ≠ 0 := hinit b List.mem_cons_self
    rw [readBitfields, List.cons_append, List.cons_append, bind_of_eq_ok (read8_append b),
      if_pos hb]
    exact bind_of_eq_ok hrest

open DataPayload in
theorem parseExplicitACKs_complete {flags : UInt8} {ids : List UInt32} (hlen : ids.length < 256)
    (hnil : flags &&& dataExplicitACKsIncluded = 0 → ids = []) (rest : List UInt8) :
    parseExplicitACKs flags ⟨size, explicitPart flags ids ++ rest⟩ = .ok (ids, ⟨size, rest⟩) := by
  unfold parseExplicitACKs explicitPart
  by_cases hflag : flags &&& dataExplicitACKsIncluded = 0
  · rw [if_neg (not_not.mpr hflag), optionalPart_of_eq hflag, hnil hflag]
    rfl
  · rw [if_pos hflag, optionalPart_of_ne hflag, List.cons_append, bind_of_eq_ok (read8_append _),
      toNat_ofNat_of_lt hlen]
    exact readMany_read32_complete ids rest

open DataPayload in
theorem parseACKBitfields_complete {flags : UInt8} {ids : List UInt32} {chain : List UInt8}
    (hlen : ids.length < 256)
    (hnil : flags &&& dataACKBitfieldsIncluded = 0 → ids = [] ∧ chain = [])
    (hchain : flags &&& dataACKBitfieldsIncluded ≠ 0 → IsChain chain) (rest : List UInt8) :
    parseACKBitfields flags ⟨size, bitfieldPart flags ids chain ++ rest⟩ =
      .ok ((ids, chain), ⟨size, rest⟩) := by
  have hget : ∀ s : InputByteStream, (get : Parser InputByteStream) s = .ok (s, s) := fun _ => rfl
  unfold parseACKBitfields bitfieldPart
  by_cases hflag : flags &&& dataACKBitfieldsIncluded = 0
  · obtain ⟨rfl, rfl⟩ := hnil hflag
    rw [if_neg (not_not.mpr hflag), optionalPart_of_eq hflag]
    rfl
  · have hroom : chain.length ≤ (chain ++ rest).length := by
      rw [List.length_append]
      omega
    rw [if_pos hflag, optionalPart_of_ne hflag, List.cons_append, bind_of_eq_ok (read8_append _),
      toNat_ofNat_of_lt hlen, List.append_assoc,
      bind_of_eq_ok (readMany_read32_complete ids _), bind_of_eq_ok (hget _),
      bind_of_eq_ok (readBitfields_complete (hchain hflag) hroom rest)]
    rfl

open DataPayload in
theorem skipExtendedData_complete {flags : UInt8} {data : List UInt8} (hlen : data.length < 256)
    (hpos : flags &&& dataExtendedIncluded ≠ 0 → 0 < data.length) (rest : List UInt8) :
    skipExtendedData flags ⟨size, extendedPart flags data ++ rest⟩ = .ok ((), ⟨size, rest⟩) := by
  unfold skipExtendedData extendedPart
  by_cases hflag : flags &&& dataExtendedIncluded = 0
  · rw [if_neg (not_not.mpr hflag), optionalPart_of_eq hflag]
    rfl
  · rw [if_pos hflag, optionalPart_of_ne hflag, List.cons_append, bind_of_eq_ok (read8_append _),
      toNat_ofNat_of_lt hlen]
    exact reads_skipBytes rfl (hpos hflag) size rest

/-- `ParseData` accepts every payload in the layout. -/
theorem parseData_complete {p : DataPayload} (hsize : ∀ e ∈ p.fragments, e.data.length ≤ size)
    (rest : List UInt8) :
    parseData ⟨size, p.encode ++ rest⟩ = .ok (p.toPacket, ⟨size, rest⟩) := by
  obtain ⟨hexplicitLen, hacksLen, hextendedLen, hfragmentsLen⟩ := p.length_lt
  simp only [DataPayload.encode, DataPayload.fragmentPart, List.cons_append, List.append_assoc]
  rw [parseData, bind_of_eq_ok (read8_append _),
    bind_of_eq_ok (parseExplicitACKs_complete hexplicitLen p.explicitACKs_eq_nil _),
    bind_of_eq_ok (parseACKBitfields_complete hacksLen p.acks_eq_nil p.isChain _)]
  dsimp only
  rw [bind_of_eq_ok (skipExtendedData_complete hextendedLen p.extendedData_pos _),
    bind_of_eq_ok (read8_append _), toNat_ofNat_of_lt hfragmentsLen,
    bind_of_eq_ok
      (readMany_complete (fun e he rest => parseFragment_complete (hsize e he) rest) rest)]
  rfl

end Complete

/-! ## What `ProcessMessage` takes from its buffer -/

/-- The ACKs and fragments that `ProcessMessage` finds. -/
structure MessageScan where
  /-- The explicit ACKs. -/
  explicitACKs : List UInt32
  /-- The message IDs of the bit fields, each with its chain. -/
  bitfields : List (UInt32 × List UInt8)
  /-- The fragments. -/
  fragments : List FragmentHeader

/-- The explicit ACKs. -/
def scanExplicitACKs (m : Mem) : ℕ → ℕ → Traced (List UInt32)
  | 0, _ => pure []
  | n + 1, pos => do
    let id ← Traced.read m pos 4
    return readU32 id :: (← scanExplicitACKs m n (pos + 4))

/-- The chain of bit fields of one message; `none` if it has no end within `limit` bytes. -/
def scanChain (m : Mem) : ℕ → ℕ → Traced (Option (List UInt8))
  | 0, _ => pure none
  | limit + 1, pos => do
    let bitfield ← Traced.readByte m pos
    if bitfield &&& 0x80 ≠ 0 then return (← scanChain m limit (pos + 1)).map (bitfield :: ·)
    else return some [bitfield]

/-- The bit fields, and the position behind them. -/
def scanBitfields (m : Mem) (bound : ℕ) : ℕ → ℕ → Traced (Option (List (UInt32 × List UInt8) × ℕ))
  | 0, pos => pure (some ([], pos))
  | n + 1, pos => do
    let id ← Traced.read m pos 4
    match ← scanChain m (bound - (pos + 4)) (pos + 4) with
    | none => return none
    | some chain =>
      return (← scanBitfields m bound n (pos + 4 + chain.length)).map fun r =>
        ((readU32 id, chain) :: r.1, r.2)

/-- The fragments; one that is too large ends the loop. The data of a duplicate counts as read. -/
def scanFragments (m : Mem) : ℕ → ℕ → Traced (List FragmentHeader)
  | 0, _ => pure []
  | n + 1, pos => do
    Traced.touch pos 7
    let f := readFragmentHeader m pos
    if f.size ≥ packetMaxIPv4 then return []
    else
      Traced.touch f.pos f.size
      return f :: (← scanFragments m n (f.pos + f.size))

/-- The explicit ACKs, and the position behind them. -/
def scanExplicitPart (m : Mem) (flag : UInt8) (pos : ℕ) : Traced (List UInt32 × ℕ) :=
  if flag &&& dataExplicitACKsIncluded ≠ 0 then do
    let count ← Traced.readByte m pos
    let ids ← scanExplicitACKs m count.toNat (pos + 1)
    return (ids, pos + 1 + count.toNat * 4)
  else return ([], pos)

/-- The bit fields, if there are any, and the position behind them. -/
def scanBitfieldPart (m : Mem) (bound : ℕ) (flag : UInt8) (pos : ℕ) :
    Traced (Option (List (UInt32 × List UInt8) × ℕ)) :=
  if flag &&& dataACKBitfieldsIncluded ≠ 0 then do
    let count ← Traced.readByte m pos
    scanBitfields m bound count.toNat (pos + 1)
  else return some ([], pos)

/-- The position behind the extended data. -/
def scanExtendedPart (m : Mem) (flag : UInt8) (pos : ℕ) : Traced ℕ :=
  if flag &&& dataExtendedIncluded ≠ 0 then do
    let size ← Traced.readByte m pos
    return pos + 1 + size.toNat
  else return pos

/-- The fragments behind their number. -/
def scanFragmentPart (m : Mem) (pos : ℕ) : Traced (List FragmentHeader) := do
  let count ← Traced.readByte m pos
  scanFragments m count.toNat (pos + 1)

/-- The walk of `ProcessMessage` through the payload at position `pos` of a buffer that ends at
`bound`; `none` if a chain of bit fields runs out of the buffer. -/
def scanMessage (m : Mem) (bound pos : ℕ) : Traced (Option MessageScan) := do
  let flag ← Traced.readByte m pos
  let (explicitACKs, pos) ← scanExplicitPart m flag (pos + 1)
  match ← scanBitfieldPart m bound flag pos with
  | none => return none
  | some (bitfields, pos) =>
    let pos ← scanExtendedPart m flag pos
    let fragments ← scanFragmentPart m pos
    return some { explicitACKs, bitfields, fragments }

theorem scanChain_of_next {m : Mem} {pos : ℕ} (h : m pos &&& 0x80 ≠ 0) (limit : ℕ) :
    scanChain m (limit + 1) pos =
      ⟨(scanChain m limit (pos + 1)).val.map (m pos :: ·),
        pos :: (scanChain m limit (pos + 1)).reads⟩ := by
  rw [scanChain, Traced.readByte_bind, if_pos h, Traced.val_bind, Traced.reads_bind,
    Traced.reads_pure, List.append_nil]
  rfl

theorem scanChain_of_last {m : Mem} {pos : ℕ} (h : m pos &&& 0x80 = 0) (limit : ℕ) :
    scanChain m (limit + 1) pos = ⟨some [m pos], [pos]⟩ := by
  rw [scanChain, Traced.readByte_bind, if_neg (not_not.mpr h)]
  rfl

/-- What `ProcessMessage` does with what it found. -/
def MessageScan.process (scan : MessageScan) (env : DataEnv) (now : UInt32) (m : Mem)
    (d : SSUData) : SSUData :=
  let d := scan.explicitACKs.foldl SSUData.processSentMessageACK d
  let d := scan.bitfields.foldl (fun d b => d.modifySent b.1 (release (released b.2 0))) d
  scan.fragments.foldl (SSUData.processFragment env now m) d

namespace SSUData

theorem processExplicitACKs_eq_foldl (m : Mem) (n pos : ℕ) (d : SSUData) :
    processExplicitACKs m pos n d =
      (scanExplicitACKs m n pos).val.foldl processSentMessageACK d := by
  induction n generalizing pos d with
  | zero => rfl
  | succ n ih => exact ih (pos + 4) _

theorem scanChain_sound {m : Mem} {limit pos : ℕ} {bs : List UInt8}
    (h : (scanChain m limit pos).val = some bs) :
    IsChain bs ∧ StandsAt m pos bs ∧ bs.length ≤ limit := by
  induction limit generalizing pos bs with
  | zero => cases h
  | succ limit ih =>
    by_cases hnext : m pos &&& 0x80 = 0
    · rw [scanChain_of_last hnext] at h
      obtain rfl := Option.some.inj h
      exact ⟨⟨[], m pos, rfl, by simp, hnext⟩, standsAt_cons.mpr ⟨rfl, rfl⟩,
        Nat.succ_le_succ (Nat.zero_le _)⟩
    · rw [scanChain_of_next hnext] at h
      obtain ⟨bs', hbs', rfl⟩ := Option.map_eq_some_iff.mp h
      obtain ⟨⟨init, last, rfl, hinit, hlast⟩, hstands, hle⟩ := ih hbs'
      refine ⟨⟨m pos :: init, last, rfl, ?_, hlast⟩, standsAt_cons.mpr ⟨rfl, hstands⟩, ?_⟩
      · intro c hc
        rcases List.mem_cons.mp hc with rfl | hc
        · exact hnext
        · exact hinit c hc
      · exact Nat.succ_le_succ hle

theorem processBitfieldChain_eq_none {m : Mem} {msgID : UInt32} {limit pos fragment : ℕ}
    {d : SSUData} (h : (scanChain m limit pos).val = none) :
    processBitfieldChain m msgID limit pos fragment d = none := by
  induction limit generalizing pos fragment d with
  | zero => rfl
  | succ limit ih =>
    by_cases hnext : m pos &&& 0x80 = 0
    · rw [scanChain_of_last hnext] at h
      cases h
    · rw [scanChain_of_next hnext] at h
      have hrest : (scanChain m limit (pos + 1)).val = none := Option.map_eq_none_iff.mp h
      simp only [processBitfieldChain, ne_eq, hnext, not_false_eq_true, if_true]
      exact ih hrest

theorem processBitfieldChain_eq_scanChain (m : Mem) (msgID : UInt32) (limit pos : ℕ)
    (d : SSUData) :
    processBitfieldChain m msgID limit pos 0 d =
      (scanChain m limit pos).val.map fun bs =>
        (d.modifySent msgID (release (released bs 0)), pos + bs.length) := by
  cases h : (scanChain m limit pos).val with
  | none => exact processBitfieldChain_eq_none h
  | some bs =>
    obtain ⟨hchain, hstands, hle⟩ := scanChain_sound h
    exact processBitfieldChain_of_standsAt hchain hstands hle 0

theorem processBitfields_eq_scanBitfields (m : Mem) (bound n pos : ℕ) (d : SSUData) :
    processBitfields m bound n pos d =
      (scanBitfields m bound n pos).val.map fun r =>
        (r.1.foldl (fun d b => d.modifySent b.1 (release (released b.2 0))) d, r.2) := by
  induction n generalizing pos d with
  | zero => rfl
  | succ n ih =>
    simp only [processBitfields, scanBitfields, Traced.val_bind, Traced.val_read,
      processBitfieldChain_eq_scanChain]
    cases h : (scanChain m (bound - (pos + 4)) (pos + 4)).val with
    | none => rfl
    | some bs =>
      simp only [Option.map_some, ih, Traced.val_bind, Traced.val_pure, Option.map_map]
      rfl

theorem processFragmentsFrom_eq_foldl (env : DataEnv) (now : UInt32) (m : Mem) (n pos : ℕ)
    (d : SSUData) :
    processFragmentsFrom env now m n pos d =
      (scanFragments m n pos).val.foldl (processFragment env now m) d := by
  induction n generalizing pos d with
  | zero => rfl
  | succ n ih =>
    simp only [processFragmentsFrom, scanFragments, Traced.val_bind]
    split
    · rfl
    · exact ih _ _

theorem processACKs_eq_scan (m : Mem) (bound pos : ℕ) (flag : UInt8) (d : SSUData) :
    processACKs m bound pos flag d =
      (scanBitfieldPart m bound flag (scanExplicitPart m flag pos).val.2).val.map fun r =>
        (r.1.foldl (fun d b => d.modifySent b.1 (release (released b.2 0)))
          ((scanExplicitPart m flag pos).val.1.foldl processSentMessageACK d), r.2) := by
  have hexplicit : scanExplicitPart m flag pos =
      if flag &&& dataExplicitACKsIncluded ≠ 0 then
        (do
          let count ← Traced.readByte m pos
          let ids ← scanExplicitACKs m count.toNat (pos + 1)
          return (ids, pos + 1 + count.toNat * 4))
      else return ([], pos) := rfl
  by_cases hflag : flag &&& dataExplicitACKsIncluded ≠ 0
  · rw [if_pos hflag] at hexplicit
    rw [hexplicit]
    simp only [processACKs, if_pos hflag, processExplicitACKs_eq_foldl,
      processBitfields_eq_scanBitfields, scanBitfieldPart]
    split
    · rfl
    · rfl
  · rw [if_neg hflag] at hexplicit
    rw [hexplicit]
    simp only [processACKs, if_neg hflag, processBitfields_eq_scanBitfields, scanBitfieldPart]
    split
    · rfl
    · rfl

/-- `ProcessMessage` processes what the walk through its buffer finds. -/
theorem processMessage_eq_scanMessage (env : DataEnv) (now : UInt32) (m : Mem) (bound pos : ℕ)
    (d : SSUData) :
    d.processMessage env now m bound pos =
      (scanMessage m bound pos).val.map fun scan => scan.process env now m d := by
  simp only [processMessage, processACKs_eq_scan, scanMessage, Traced.val_bind,
    Traced.val_readByte]
  cases (scanBitfieldPart m bound (m pos) (scanExplicitPart m (m pos) (pos + 1)).val.2).val with
  | none => rfl
  | some r =>
    simp only [Option.map_some, processFragments, processFragmentsFrom_eq_foldl, Traced.val_bind,
      Traced.val_pure, scanExtendedPart, scanFragmentPart]
    split
    · rfl
    · rfl

end SSUData

/-! ## The walk through a payload -/

section Walk

variable {m : Mem} {pos : ℕ}

theorem scanExplicitACKs_of_standsAt {ids : List UInt32}
    (h : StandsAt m pos (ids.flatMap writeU32)) :
    (scanExplicitACKs m ids.length pos).val = ids ∧
      (scanExplicitACKs m ids.length pos).Within pos (pos + ids.length * 4) := by
  induction ids generalizing pos with
  | nil => exact ⟨rfl, Traced.within_pure _ _ _⟩
  | cons id ids ih =>
    rw [List.flatMap_cons, standsAt_append, length_writeU32] at h
    obtain ⟨hid, hids⟩ := h
    obtain ⟨hval, hwithin⟩ := ih hids
    have hlen : (id :: ids).length * 4 = 4 + ids.length * 4 := by
      rw [List.length_cons]
      omega
    rw [hlen]
    constructor
    · show readU32 (slice m pos 4) :: (scanExplicitACKs m ids.length (pos + 4)).val = _
      rw [hval, hid.readU32_eq]
    · exact (Traced.within_read m le_rfl (by omega)).bind
        ((hwithin.mono (by omega) (by omega)).bind (Traced.within_pure _ _ _))

theorem scanChain_of_standsAt {bs : List UInt8} (hchain : IsChain bs) (hstands : StandsAt m pos bs)
    {limit : ℕ} (hlimit : bs.length ≤ limit) :
    (scanChain m limit pos).val = some bs ∧
      (scanChain m limit pos).Within pos (pos + bs.length) := by
  obtain ⟨init, last, rfl, hinit, hlast⟩ := hchain
  induction init generalizing limit pos with
  | nil =>
    obtain ⟨limit, rfl⟩ : ∃ l, limit = l + 1 := ⟨limit - 1, by simp at hlimit; omega⟩
    have hbyte : m pos = last := (standsAt_cons.mp hstands).1
    subst hbyte
    rw [scanChain_of_last hlast]
    refine ⟨rfl, fun i hi => ?_⟩
    obtain rfl := List.mem_singleton.mp hi
    exact ⟨le_rfl, Nat.lt_succ_self i⟩
  | cons b init ih =>
    obtain ⟨limit, rfl⟩ : ∃ l, limit = l + 1 := ⟨limit - 1, by simp at hlimit; omega⟩
    rw [List.cons_append, standsAt_cons] at hstands
    obtain ⟨rfl, hrest⟩ := hstands
    rw [List.cons_append, List.length_cons] at hlimit ⊢
    obtain ⟨hval, hwithin⟩ := ih hrest (Nat.le_of_succ_le_succ hlimit)
      fun c hc => hinit c (List.mem_cons_of_mem _ hc)
    rw [scanChain_of_next (hinit _ List.mem_cons_self)]
    refine ⟨by rw [hval]; rfl, fun i hi => ?_⟩
    rcases List.mem_cons.mp hi with rfl | hi
    · omega
    · have := hwithin i hi
      omega

theorem readFragmentHeader_of_entry {e : FragmentEntry} (h : StandsAt m pos e.encode) :
    readFragmentHeader m pos = e.headerAt pos ∧ StandsAt m (pos + 7) e.data := by
  rw [FragmentEntry.encode, standsAt_append, standsAt_append, length_writeU32, length_writeBE] at h
  obtain ⟨hid, hinfo, hdata⟩ := h
  have hread : readBE (slice m (pos + 4) 3) = e.info := by
    rw [hinfo.readBE_eq]
    exact Nat.mod_eq_of_lt e.info_lt
  refine ⟨?_, hdata⟩
  simp only [readFragmentHeader, FragmentEntry.headerAt, hread, hid.readU32_eq, e.size_eq]

open FragmentEntry in
/-- The fragments are found up to the first one that is too large. -/
theorem scanFragments_of_standsAt {es : List FragmentEntry}
    (h : StandsAt m pos (es.flatMap encode)) :
    (scanFragments m es.length pos).val = headersAt pos (es.takeWhile (Fits ·)) ∧
      (scanFragments m es.length pos).Within pos (pos + (es.flatMap encode).length) := by
  induction es generalizing pos with
  | nil => exact ⟨rfl, Traced.within_pure _ _ _⟩
  | cons e es ih =>
    rw [List.flatMap_cons, standsAt_append] at h
    obtain ⟨hfirst, hrest⟩ := h
    obtain ⟨hheader, -⟩ := readFragmentHeader_of_entry hfirst
    obtain ⟨hval, hwithin⟩ := ih hrest
    have hlen : ((e :: es).flatMap encode).length =
        7 + e.data.length + (es.flatMap encode).length := by
      rw [List.flatMap_cons, List.length_append, length_encode]
    have hnext : (e.headerAt pos).pos + (e.headerAt pos).size = pos + (7 + e.data.length) :=
      Nat.add_assoc _ _ _
    rw [length_encode] at hval hwithin
    rw [hlen, List.length_cons, scanFragments, hheader]
    dsimp only
    rw [hnext]
    by_cases hfits : e.Fits
    · have hsize : ¬ (e.headerAt pos).size ≥ packetMaxIPv4 := Nat.not_le.mpr hfits
      rw [if_neg hsize, List.takeWhile_cons_of_pos (by simpa using hfits)]
      constructor
      · show e.headerAt pos :: _ = e.headerAt pos :: headersAt (pos + e.encode.length) _
        rw [hval, length_encode]
      · refine (Traced.within_touch le_rfl (by omega)).bind
          ((Traced.within_touch ?_ ?_).bind ((hwithin.mono ?_ ?_).bind (Traced.within_pure _ _ _)))
        · exact Nat.le_add_right _ _
        · show pos + 7 + e.data.length ≤ _
          omega
        · omega
        · omega
    · have hsize : (e.headerAt pos).size ≥ packetMaxIPv4 := Nat.not_lt.mp hfits
      rw [if_pos hsize, List.takeWhile_cons_of_neg (by simpa using hfits)]
      exact ⟨rfl, (Traced.within_touch le_rfl (by omega)).bind (Traced.within_pure _ _ _)⟩

open DataPayload in
theorem scanExplicitPart_of_standsAt {flags : UInt8} {ids : List UInt32} (hlen : ids.length < 256)
    (hnil : flags &&& dataExplicitACKsIncluded = 0 → ids = [])
    (h : StandsAt m pos (explicitPart flags ids)) :
    (scanExplicitPart m flags pos).val = (ids, pos + (explicitPart flags ids).length) ∧
      (scanExplicitPart m flags pos).Within pos (pos + (explicitPart flags ids).length) := by
  unfold scanExplicitPart explicitPart at *
  by_cases hflag : flags &&& dataExplicitACKsIncluded = 0
  · rw [hnil hflag, optionalPart_of_eq hflag, if_neg (not_not.mpr hflag)]
    exact ⟨rfl, Traced.within_pure _ _ _⟩
  · rw [optionalPart_of_ne hflag, standsAt_cons] at h
    obtain ⟨hcount, hids⟩ := h
    obtain ⟨hval, hwithin⟩ := scanExplicitACKs_of_standsAt hids
    have hpart : (ids.flatMap writeU32).length = ids.length * 4 := by
      rw [List.length_flatMap]
      simp
    have hend : pos + 1 + ids.length * 4 = pos + (ids.length * 4 + 1) := by omega
    rw [if_pos hflag, optionalPart_of_ne hflag, List.length_cons, hpart, Traced.val_bind,
      Traced.val_readByte, hcount, toNat_ofNat_of_lt hlen, hend]
    constructor
    · rw [Traced.val_bind, hval]
      rfl
    · refine (Traced.within_readByte m le_rfl (by omega)).bind ?_
      rw [Traced.val_readByte, hcount, toNat_ofNat_of_lt hlen]
      exact (hwithin.mono (by omega) (by omega)).bind (Traced.within_pure _ _ _)

open DataPayload in
/-- Behind a single message ID, both layouts have its chain. -/
theorem scanBitfieldPart_of_standsAt {flags : UInt8} {ids : List UInt32} {chain : List UInt8}
    (hone : flags &&& dataACKBitfieldsIncluded ≠ 0 → IsChain chain ∧ ids.length = 1)
    (h : StandsAt m pos (bitfieldPart flags ids chain)) (bound : ℕ)
    (hbound : pos + (bitfieldPart flags ids chain).length ≤ bound) :
    (∃ bitfields, (scanBitfieldPart m bound flags pos).val =
        some (bitfields, pos + (bitfieldPart flags ids chain).length)) ∧
      (scanBitfieldPart m bound flags pos).Within pos
        (pos + (bitfieldPart flags ids chain).length) := by
  unfold scanBitfieldPart bitfieldPart at *
  by_cases hflag : flags &&& dataACKBitfieldsIncluded = 0
  · rw [optionalPart_of_eq hflag, if_neg (not_not.mpr hflag)]
    exact ⟨⟨[], rfl⟩, Traced.within_pure _ _ _⟩
  · obtain ⟨hchain, hids⟩ := hone hflag
    obtain ⟨id, rfl⟩ := List.length_eq_one_iff.mp hids
    rw [optionalPart_of_ne hflag] at h hbound ⊢
    rw [standsAt_cons, List.flatMap_singleton, standsAt_append, length_writeU32] at h
    obtain ⟨hcount, hid, hstands⟩ := h
    have hpart : (UInt8.ofNat [id].length :: ([id].flatMap writeU32 ++ chain)).length =
        5 + chain.length := by
      simp only [List.flatMap_singleton, List.length_cons, List.length_append, length_writeU32]
      omega
    rw [hpart] at hbound ⊢
    obtain ⟨hval, hwithin⟩ : (scanChain m (bound - (pos + 1 + 4)) (pos + 1 + 4)).val = some chain ∧
        (scanChain m (bound - (pos + 1 + 4)) (pos + 1 + 4)).Within (pos + 1 + 4)
          (pos + 1 + 4 + chain.length) :=
      scanChain_of_standsAt hchain hstands (by omega)
    have hscan : (scanBitfields m bound 1 (pos + 1)).val =
          some ([(readU32 (slice m (pos + 1) 4), chain)], pos + 1 + 4 + chain.length) ∧
        (scanBitfields m bound 1 (pos + 1)).Within pos (pos + (5 + chain.length)) := by
      rw [scanBitfields]
      constructor
      · rw [Traced.val_bind, Traced.val_bind, hval]
        rfl
      · refine (Traced.within_read m (by omega) (by omega)).bind
          ((hwithin.mono (by omega) (by omega)).bind ?_)
        rw [hval]
        exact (Traced.within_pure _ _ _).bind (Traced.within_pure _ _ _)
    have hend : pos + 1 + 4 + chain.length = pos + (5 + chain.length) := by omega
    rw [hend] at hscan
    rw [if_pos hflag, Traced.val_bind, Traced.val_readByte, hcount]
    refine ⟨⟨_, hscan.1⟩, (Traced.within_readByte m le_rfl (by omega)).bind ?_⟩
    rw [Traced.val_readByte, hcount]
    exact hscan.2

open DataPayload in
theorem scanExtendedPart_of_standsAt {flags : UInt8} {data : List UInt8} (hlen : data.length < 256)
    (h : StandsAt m pos (extendedPart flags data)) :
    (scanExtendedPart m flags pos).val = pos + (extendedPart flags data).length ∧
      (scanExtendedPart m flags pos).Within pos (pos + (extendedPart flags data).length) := by
  unfold scanExtendedPart extendedPart at *
  by_cases hflag : flags &&& dataExtendedIncluded = 0
  · rw [optionalPart_of_eq hflag, if_neg (not_not.mpr hflag)]
    exact ⟨rfl, Traced.within_pure _ _ _⟩
  · rw [optionalPart_of_ne hflag] at h ⊢
    obtain ⟨hsize, -⟩ := standsAt_cons.mp h
    rw [if_pos hflag, List.length_cons, Traced.val_bind, Traced.val_readByte, hsize,
      toNat_ofNat_of_lt hlen]
    refine ⟨?_, (Traced.within_readByte m le_rfl (by omega)).bind (Traced.within_pure _ _ _)⟩
    rw [Traced.val_pure]
    omega

open DataPayload FragmentEntry in
theorem scanFragmentPart_of_standsAt {es : List FragmentEntry} (hlen : es.length < 256)
    (h : StandsAt m pos (fragmentPart es)) :
    (scanFragmentPart m pos).val = headersAt (pos + 1) (es.takeWhile (Fits ·)) ∧
      (scanFragmentPart m pos).Within pos (pos + (fragmentPart es).length) := by
  unfold scanFragmentPart fragmentPart at *
  obtain ⟨hcount, hes⟩ := standsAt_cons.mp h
  obtain ⟨hval, hwithin⟩ := scanFragments_of_standsAt hes
  rw [Traced.val_bind, Traced.val_readByte, hcount, toNat_ofNat_of_lt hlen, List.length_cons]
  refine ⟨hval, (Traced.within_readByte m le_rfl (by omega)).bind ?_⟩
  rw [Traced.val_readByte, hcount, toNat_ofNat_of_lt hlen]
  exact hwithin.mono (by omega) (by omega)

/-- There are no bit fields, or those of a single message. -/
def DataPayload.SingleChain (p : DataPayload) : Prop :=
  p.flags &&& dataACKBitfieldsIncluded ≠ 0 → p.acks.length = 1

open FragmentEntry in
/-- The walk through a payload in which the two layouts are the same. -/
theorem scanMessage_of_standsAt {p : DataPayload} (hsingle : p.SingleChain)
    (h : StandsAt m pos p.encode) (bound : ℕ) (hbound : pos + p.encode.length ≤ bound) :
    (∃ bitfields start, StandsAt m start (p.fragments.flatMap encode) ∧
        (scanMessage m bound pos).val =
          some ⟨p.explicitACKs, bitfields, headersAt start (p.fragments.takeWhile (Fits ·))⟩) ∧
      (scanMessage m bound pos).Within pos (pos + p.encode.length) := by
  obtain ⟨hexplicitLen, -, hextendedLen, hfragmentsLen⟩ := p.length_lt
  rw [DataPayload.encode] at h hbound ⊢
  simp only [List.length_cons, List.length_append] at hbound ⊢
  rw [standsAt_cons, standsAt_append, standsAt_append, standsAt_append] at h
  obtain ⟨hflag, hexplicit, hbitfields, hextended, hfragments⟩ := h
  -- every part ends where the next one stands
  obtain ⟨hval₁, hwithin₁⟩ :=
    scanExplicitPart_of_standsAt hexplicitLen p.explicitACKs_eq_nil hexplicit
  obtain ⟨⟨bitfields, hval₂⟩, hwithin₂⟩ :=
    scanBitfieldPart_of_standsAt (fun hset => ⟨p.isChain hset, hsingle hset⟩) hbitfields bound
      (by omega)
  obtain ⟨hval₃, hwithin₃⟩ := scanExtendedPart_of_standsAt hextendedLen hextended
  obtain ⟨hval₄, hwithin₄⟩ := scanFragmentPart_of_standsAt hfragmentsLen hfragments
  refine ⟨⟨bitfields, _, (standsAt_cons.mp hfragments).2, ?_⟩, ?_⟩
  · simp only [scanMessage, Traced.val_bind, Traced.val_readByte, hflag, hval₁, hval₂, hval₃, hval₄,
      Traced.val_pure]
  · unfold scanMessage
    refine (Traced.within_readByte m le_rfl (by omega)).bind ?_
    rw [Traced.val_readByte, hflag]
    refine (hwithin₁.mono (by omega) (by omega)).bind ?_
    rw [hval₁]
    refine (hwithin₂.mono (by omega) (by omega)).bind ?_
    rw [hval₂]
    refine (hwithin₃.mono (by omega) (by omega)).bind ?_
    rw [hval₃]
    exact (hwithin₄.mono (by omega) (by omega)).bind (Traced.within_pure _ _ _)

end Walk

/-! ## Agreement -/

/-- `ProcessFragments` processes the fragment that `ParseFragment` made. -/
def SameFragment (m : Mem) (parsed : SSUFragment) (f : FragmentHeader) : Prop :=
  f.msgID.toNat = parsed.messageID.toNat ∧ f.fragmentNum = parsed.number.toNat ∧
    f.isLast = parsed.isLast ∧ slice m f.pos f.size = parsed.data

/-- `ProcessMessage`, on the `len` bytes at position `pos`, processes the explicit ACKs and the
fragments of the packet, in the same order, and stays within these bytes. -/
def Agrees (m : Mem) (pos len : ℕ) (packet : SSUDataPacket) : Prop :=
  ∃ scan, (scanMessage m (pos + len) pos).val = some scan ∧
    (∀ (env : DataEnv) (now : UInt32) (d : SSUData),
      d.processMessage env now m (pos + len) pos = some (scan.process env now m d)) ∧
    scan.explicitACKs = packet.explicitACKs ∧
    List.Forall₂ (SameFragment m) packet.fragments scan.fragments ∧
    (scanMessage m (pos + len) pos).Within pos (pos + len)

open FragmentEntry in
theorem sameFragment_iff {m : Mem} {pos : ℕ} {e : FragmentEntry} (h : StandsAt m pos e.encode) :
    SameFragment m e.toFragment (e.headerAt pos) ↔ e.msgID.toNat < 256 := by
  obtain ⟨-, hdata⟩ := readFragmentHeader_of_entry h
  have hnum : e.info >>> 17 < 256 := by
    have := e.info_lt
    rw [Nat.shiftRight_eq_div_pow]
    omega
  constructor
  · rintro ⟨hid, -⟩
    have hbyte : e.toFragment.messageID.toNat < 256 := UInt8.toNat_lt _
    exact hid ▸ hbyte
  · intro hid
    refine ⟨?_, (toNat_ofNat_of_lt hnum).symm, rfl, hdata⟩
    show e.msgID.toNat = e.msgID.toUInt8.toNat
    rw [UInt32.toNat_toUInt8]
    exact (Nat.mod_eq_of_lt hid).symm

open FragmentEntry in
theorem forall₂_sameFragment_iff {m : Mem} {pos : ℕ} {es : List FragmentEntry}
    (h : StandsAt m pos (es.flatMap encode)) :
    List.Forall₂ (SameFragment m) (es.map toFragment) (headersAt pos (es.takeWhile (Fits ·))) ↔
      ∀ e ∈ es, e.Fits ∧ e.msgID.toNat < 256 := by
  induction es generalizing pos with
  | nil => simp [headersAt]
  | cons e es ih =>
    rw [List.flatMap_cons, standsAt_append] at h
    by_cases hfits : e.Fits
    · rw [List.takeWhile_cons_of_pos (by simpa using hfits), List.map_cons, headersAt,
        List.forall₂_cons, sameFragment_iff h.1, ih h.2]
      simp [hfits]
    · rw [List.takeWhile_cons_of_neg (by simpa using hfits), headersAt]
      simp [hfits]

/-- Wherever the two layouts of the bit fields are the same, the parsers agree exactly on the
payloads in which every fragment is shorter than the largest packet and every message ID is kept
by the single byte that `SSUFragment` has for it. -/
theorem agrees_iff_of_singleChain {m : Mem} {pos len : ℕ} {p : DataPayload}
    (hsingle : p.SingleChain) (h : StandsAt m pos p.encode) (hlen : p.encode.length ≤ len) :
    Agrees m pos len p.toPacket ↔ ∀ e ∈ p.fragments, e.Fits ∧ e.msgID.toNat < 256 := by
  obtain ⟨⟨bitfields, start, hstands, hval⟩, hwithin⟩ :=
    scanMessage_of_standsAt hsingle h (pos + len) (by omega)
  rw [← forall₂_sameFragment_iff hstands]
  constructor
  · rintro ⟨scan, hscan, -, -, hsame, -⟩
    obtain rfl := Option.some.inj (hval.symm.trans hscan)
    exact hsame
  · intro hsame
    refine ⟨_, hval, fun env now d => ?_, rfl, hsame, hwithin.mono le_rfl (by omega)⟩
    rw [SSUData.processMessage_eq_scanMessage, hval, Option.map_some]

/-- Every payload that `ParseData` accepts has the layout; where its bit fields are absent or those
of a single message, acceptance and two bounds on the fragments make `ProcessMessage` agree. -/
theorem parseData_agrees_iff {m : Mem} {pos size : ℕ} {bytes : List UInt8}
    (hm : StandsAt m pos bytes) {packet : SSUDataPacket} {s' : InputByteStream}
    (h : parseData ⟨size, bytes⟩ = .ok (packet, s')) :
    ∃ p : DataPayload, bytes = p.encode ++ s'.rest ∧ packet = p.toPacket ∧
      (p.SingleChain →
        (Agrees m pos bytes.length packet ↔
          ∀ e ∈ p.fragments, e.Fits ∧ e.msgID.toNat < 256)) := by
  obtain ⟨p, hbytes, rfl⟩ := parseData_sound h
  have hbytes : bytes = p.encode ++ s'.rest := hbytes
  have hlen : p.encode.length ≤ bytes.length := by
    rw [hbytes, List.length_append]
    exact Nat.le_add_right _ _
  refine ⟨p, hbytes, rfl, fun hsingle => ?_⟩
  rw [hbytes, standsAt_append] at hm
  exact agrees_iff_of_singleChain hsingle hm.1 hlen

/-- A payload with an explicit ACK, one chain of bit fields and a fragment of two bytes. -/
def ackedPayload : List UInt8 :=
  [0xC0, 1, 0, 0, 0, 9, 1, 0, 0, 0, 8, 0x80, 0x01, 1, 0, 0, 0, 7, 0x01, 0, 2, 0xAA, 0xBB]

theorem parseData_agrees_iff_ackedPayload :
    ∃ packet s', parseData (.of ackedPayload) = .ok (packet, s') ∧
      ∃ p : DataPayload, ackedPayload = p.encode ++ s'.rest ∧ packet = p.toPacket ∧
        (p.SingleChain →
          (Agrees (store (fun _ => 0) 0 ackedPayload) 0 ackedPayload.length packet ↔
            ∀ e ∈ p.fragments, e.Fits ∧ e.msgID.toNat < 256)) := by
  have haccepted : ∃ r, parseData ⟨23, ackedPayload⟩ = .ok r := ⟨_, rfl⟩
  obtain ⟨⟨packet, s'⟩, h⟩ := haccepted
  exact ⟨packet, s', h, parseData_agrees_iff (standsAt_store _ _ _) h⟩

/-- Two messages with bit fields: the first chain of `ProcessMessage` takes the second message ID,
and its second message ID stands behind the payload. -/
def twoChains : List UInt8 := [0x40, 2, 0, 0, 0, 1, 0x80, 0x80, 0x80, 0x80, 0, 0]

theorem not_agrees_twoChains :
    ¬ ∀ (m : Mem) (pos size : ℕ) (bytes : List UInt8) (packet : SSUDataPacket)
      (s' : InputByteStream), StandsAt m pos bytes → parseData ⟨size, bytes⟩ = .ok (packet, s') →
        Agrees m pos bytes.length packet := by
  intro hall
  obtain ⟨scan, hscan, -⟩ :=
    hall (store (fun _ => 0) 0 twoChains) 0 12 twoChains _ _ (standsAt_store _ _ _) rfl
  have hnone : (scanMessage (store (fun _ => 0) 0 twoChains) 12 0).val.isNone := by decide
  rw [show (0 : ℕ) + twoChains.length = 12 from rfl] at hscan
  rw [hscan] at hnone
  cases hnone

end SSU
