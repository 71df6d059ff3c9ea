import Xi2p.SSU.Messages
import Xi2p.SSU.Validation

/-!
# Relay and keep-alive messages

What the parser of the receiver makes of the messages that `SSUSession` writes for relaying, and of
its keep-alive message. Senders leave out a field by writing a size of zero; the parser reads the
field all the same, and its stream rejects a read of no bytes.

* `accepted_iff_survives`: relay responses always arrive, relay requests and introductions never do,
  and a keep-alive message does if the memory of its buffer happens to hold an empty payload.
-/

namespace SSU

open Bytes ByteStream CBC Identity

/-! ## Messages -/

/-- The relay messages, with the arguments of their senders, and the keep-alive message. -/
inductive RelayMessage
  | relayRequest (introducerTag nonce : UInt32) (key : Block introKeySize)
  | relayResponse (nonce : UInt32) (alice charlie : Endpoint)
  | relayIntro (alice : Endpoint)
  | keepAlive

namespace RelayMessage

/-- The message that is sent, unless the sender rejects an address. -/
def send : RelayMessage → Option OutMessage
  | relayRequest introducerTag nonce key => some (sendRelayRequest introducerTag nonce key)
  | relayResponse nonce alice charlie => sendRelayResponse nonce alice charlie
  | relayIntro alice => sendRelayIntro alice
  | keepAlive => some sendKeepAlive

/-- The payload has the values that were sent. -/
def Carried : RelayMessage → SSUPayload → Prop
  | relayRequest introducerTag nonce key, .relayRequest p =>
    p.relayTag = introducerTag ∧ p.introKey = key.bytes ∧ p.nonce = nonce
  | relayResponse nonce alice charlie, .relayResponse p =>
    p = ⟨charlie.address.bytes, charlie.port, alice.address.bytes, alice.port, nonce⟩
  | relayIntro alice, .relayIntro p => p.ipAddress = alice.address.bytes ∧ p.port = alice.port
  | keepAlive, .data p => p.explicitACKs = [] ∧ p.acks = [] ∧ p.fragments = []
  | _, _ => False

/-- The bytes begin with a data payload without ACKs and fragments. -/
def EmptyPayload (bytes : List UInt8) : Prop :=
  ∃ (p : DataPayload) (rest : List UInt8), bytes = p.encode ++ rest ∧ p.explicitACKs = [] ∧
    p.acks = [] ∧ p.fragments = []

/-- The messages that arrive, from a buffer whose memory held `fresh`. -/
def Survives (fresh : Mem) : RelayMessage → Prop
  | relayRequest _ _ _ => False
  | relayResponse _ _ _ => True
  | relayIntro _ => False
  | keepAlive => EmptyPayload (slice fresh headerMin (sendKeepAlive.size - headerMin))

end RelayMessage

/-- The plain text of the message is accepted, with the values that were sent. -/
def Accepted (c : Crypto) (fresh : Mem) (fill : HeaderFill) (m : RelayMessage) (msg : OutMessage) :
    Prop :=
  ∃ bytes packet s', msg.plaintext fresh fill = .ok bytes ∧
    parsePacket c (.of bytes) = .ok (packet, s') ∧ m.Carried packet.payload

section Accepted

variable {c : Crypto} {fresh : Mem} {fill : HeaderFill} {m : RelayMessage} {msg : OutMessage}

theorem not_accepted_of_error {bytes : List UInt8} (htext : msg.plaintext fresh fill =
      .ok ((fill.header msg.payloadType).bytes ++ bytes)) {e : StdException}
    (herror : ∀ size, parsePayload c (fill.header msg.payloadType) ⟨size, bytes⟩ = .error e) :
    ¬ Accepted c fresh fill m msg := by
  rintro ⟨bytes', packet, s', htext', hpacket, -⟩
  obtain rfl := Except.ok.inj (htext.symm.trans htext')
  cases (parsePacket_plaintext_error (herror _)).symm.trans hpacket

theorem accepted_of_ok {bytes : List UInt8} (htext : msg.plaintext fresh fill =
      .ok ((fill.header msg.payloadType).bytes ++ bytes)) {payload : SSUPayload}
    (hok : ∀ size, ∃ s', parsePayload c (fill.header msg.payloadType) ⟨size, bytes⟩ =
      .ok (payload, s')) :
    Accepted c fresh fill m msg ↔ m.Carried payload := by
  obtain ⟨s, hok⟩ := hok ((fill.header msg.payloadType).bytes ++ bytes).length
  have hparse := parsePacket_plaintext hok
  constructor
  · rintro ⟨bytes', packet, s', htext', hpacket, hcarried⟩
    obtain rfl := Except.ok.inj (htext.symm.trans htext')
    obtain ⟨rfl, -⟩ := Prod.mk.inj (Except.ok.inj (hparse.symm.trans hpacket))
    exact hcarried
  · intro hcarried
    exact ⟨_, _, _, htext, hparse, hcarried⟩

/-! ## Relay requests -/

theorem writes_sendRelayRequest (introducerTag nonce : UInt32) (key : Block introKeySize) :
    Writes (sendRelayRequest introducerTag nonce key).write
      (List.replicate headerMin 0 ++ (writeU32 introducerTag ++ ([0, 0, 0, 0] ++
        (writeU32 (readU32 (key.bytes.take 4)) ++ writeU32 nonce)))) :=
  (writes_writeZeros (by decide)).bind ((writes_write32 _).bind
    ((writes_writeZeros (by decide)).bind ((writes_write32 _).bind (writes_write32 _))))

/-- The size of the address is zero, and the read of the address is rejected. -/
theorem not_accepted_relayRequest (introducerTag nonce : UInt32) (key : Block introKeySize) :
    ¬ Accepted c fresh fill m (sendRelayRequest introducerTag nonce key) := by
  have htext := OutMessage.plaintext_of_body (writes_sendRelayRequest introducerTag nonce key)
    (show _ ≤ relayRequestBuffer by simp only [List.length_append, length_writeU32]; decide) fresh fill
  refine not_accepted_of_error htext (e := .lengthError "ByteStream: invalid length advancement") ?_
  intro size
  apply map_of_eq_error
  rw [List.append_assoc, parseRelayRequest, bind_of_eq_ok (read32_append _)]
  rfl

/-! ## Relay responses and introductions -/

theorem IPAddress.length_bytes_of_isV4 {a : IPAddress} (h : a.isV4) : a.bytes.length = 4 := by
  cases a with
  | v4 b => exact b.length_bytes
  | v6 b => cases h

/-- An IPv4 address that is written as a word. -/
theorem IPAddress.sized_of_isV4 {a : IPAddress} (h : a.isV4) :
    a.sized = [4] ++ writeU32 (readU32 a.bytes) := by
  rw [sized, length_bytes_of_isV4 h, writeU32_readU32 (length_bytes_of_isV4 h)]
  rfl

theorem reads_readSized_sized (a : IPAddress) : Reads readSized a.sized a.bytes := by
  have hlen := a.length_bytes_eq
  exact reads_readSized (by omega) (by omega)

theorem checkAddressSize_of_mem {sizes : List ℕ} {address : List UInt8}
    (h : address.length ∈ sizes) (s : InputByteStream) :
    checkAddressSize sizes address s = .ok (address, s) := by
  rw [checkAddressSize, if_pos h]
  rfl

theorem reads_checkAddressSize {sizes : List ℕ} {address : List UInt8}
    (h : address.length ∈ sizes) : Reads (checkAddressSize sizes address) [] address :=
  fun _ _ => checkAddressSize_of_mem h _

theorem IPAddress.length_bytes_mem_of_isV4 {a : IPAddress} (h : a.isV4) :
    a.bytes.length ∈ [4] := by
  rw [length_bytes_of_isV4 h]
  exact List.mem_singleton_self 4

theorem writes_sendRelayResponse {nonce : UInt32} {alice charlie : Endpoint}
    (hv4 : charlie.address.isV4) (hsend : sendRelayResponse nonce alice charlie = some msg) :
    msg.payloadType = .relayResponse ∧
      msg.size = (if alice.address.isV4 then relayResponseBuffer - 16 else relayResponseBuffer) ∧
      Writes msg.write (List.replicate headerMin 0 ++ (charlie.address.sized ++
        (writeU16 charlie.port ++ (alice.address.sized ++ (writeU16 alice.port ++
          writeU32 nonce))))) := by
  rw [sendRelayResponse, if_pos hv4] at hsend
  obtain rfl := Option.some.inj hsend
  refine ⟨rfl, rfl, ?_⟩
  rw [IPAddress.sized_of_isV4 hv4, List.append_assoc]
  exact (writes_writeZeros (by decide)).bind ((writes_write8 _).bind ((writes_write32 _).bind
    ((writes_write16 _).bind ((writes_writeIPAddress _).bind ((writes_write16 _).bind
      (writes_write32 _))))))

theorem parseRelayResponse_append {nonce : UInt32} {alice charlie : Endpoint}
    (hv4 : charlie.address.isV4) :
    Reads parseRelayResponse (charlie.address.sized ++ (writeU16 charlie.port ++
        (alice.address.sized ++ (writeU16 alice.port ++ writeU32 nonce))))
      ⟨charlie.address.bytes, charlie.port, alice.address.bytes, alice.port, nonce⟩ := by
  have halice : alice.address.bytes.length ∈ [4, 16] := by
    simpa using alice.address.length_bytes_eq
  have hcharlie := IPAddress.length_bytes_mem_of_isV4 hv4
  exact (reads_readSized_sized _).bind ((reads_checkAddressSize hcharlie).bind
    ((reads_read16 _).bind ((reads_readSized_sized _).bind ((reads_checkAddressSize halice).bind
      ((reads_read16 _).bind ((reads_read32 _).bind_pure _))))))

theorem accepted_relayResponse {nonce : UInt32} {alice charlie : Endpoint}
    (hsend : sendRelayResponse nonce alice charlie = some msg) :
    Accepted c fresh fill (.relayResponse nonce alice charlie) msg := by
  have hv4 : charlie.address.isV4 := by
    by_contra hv6
    rw [sendRelayResponse, if_neg hv6] at hsend
    cases hsend
  obtain ⟨htype, hsize, hwrites⟩ := writes_sendRelayResponse hv4 hsend
  have hroom : headerMin + (charlie.address.sized ++ (writeU16 charlie.port ++
      (alice.address.sized ++ (writeU16 alice.port ++ writeU32 nonce)))).length ≤ msg.size := by
    simp only [List.length_append, IPAddress.length_sized, length_writeU16, length_writeU32,
      IPAddress.length_bytes_of_isV4 hv4, hsize, headerMin, relayResponseBuffer]
    split
    next halice =>
      rw [IPAddress.length_bytes_of_isV4 halice]
      decide
    next =>
      have := alice.address.length_bytes_eq
      omega
  have htext := OutMessage.plaintext_of_body hwrites hroom fresh fill
  have hcarried : (RelayMessage.relayResponse nonce alice charlie).Carried (.relayResponse
      ⟨charlie.address.bytes, charlie.port, alice.address.bytes, alice.port, nonce⟩) := rfl
  refine (accepted_of_ok htext fun size => ?_).mpr hcarried
  rw [htype]
  exact ⟨_, map_of_eq_ok (parseRelayResponse_append hv4 size _)⟩

theorem writes_sendRelayIntro {alice : Endpoint} (hv4 : alice.address.isV4)
    (hsend : sendRelayIntro alice = some msg) :
    msg.payloadType = .relayIntro ∧ msg.size = relayIntroBuffer ∧
      Writes msg.write (List.replicate headerMin 0 ++ (alice.address.sized ++
        (writeU16 alice.port ++ [0]))) := by
  rw [sendRelayIntro, if_pos hv4] at hsend
  obtain rfl := Option.some.inj hsend
  refine ⟨rfl, rfl, ?_⟩
  rw [IPAddress.sized_of_isV4 hv4, List.append_assoc]
  exact (writes_writeZeros (by decide)).bind ((writes_write8 _).bind ((writes_write32 _).bind
    ((writes_write16 _).bind (writes_writeZeros Nat.one_pos))))

/-- The size of the challenge is zero, and the read of the challenge is rejected. -/
theorem not_accepted_relayIntro {alice : Endpoint} (hsend : sendRelayIntro alice = some msg) :
    ¬ Accepted c fresh fill m msg := by
  have hv4 : alice.address.isV4 := by
    by_contra hv6
    rw [sendRelayIntro, if_neg hv6] at hsend
    cases hsend
  obtain ⟨htype, hsize, hwrites⟩ := writes_sendRelayIntro hv4 hsend
  have hroom : headerMin + (alice.address.sized ++ (writeU16 alice.port ++ [0])).length ≤
      msg.size := by
    simp only [List.length_append, IPAddress.length_sized, IPAddress.length_bytes_of_isV4 hv4,
      length_writeU16, List.length_singleton, hsize, headerMin, relayIntroBuffer]
    decide
  have htext := OutMessage.plaintext_of_body hwrites hroom fresh fill
  refine not_accepted_of_error htext (e := .lengthError "ByteStream: invalid length advancement") ?_
  intro size
  rw [htype]
  apply map_of_eq_error
  simp only [List.append_assoc]
  rw [parseRelayIntro, bind_of_eq_ok (reads_readSized_sized _ size _),
    bind_of_eq_ok (checkAddressSize_of_mem (IPAddress.length_bytes_mem_of_isV4 hv4) _),
    bind_of_eq_ok (read16_append _)]
  rfl

/-! ## Keep-alive messages -/

/-- The payload of a keep-alive message is what the memory held. -/
theorem accepted_keepAlive_iff :
    Accepted c fresh fill .keepAlive sendKeepAlive ↔
      RelayMessage.EmptyPayload (slice fresh headerMin (sendKeepAlive.size - headerMin)) := by
  have hwrites : Writes (writeZeros 2) [0, 0] := writes_writeZeros Nat.two_pos
  have htext := OutMessage.plaintext_eq (show Writes sendKeepAlive.write _ from hwrites) (by decide)
    (by decide) fresh fill
  have hfresh : slice (store fresh 0 [0, 0]) headerMin (sendKeepAlive.size - headerMin) =
      slice fresh headerMin (sendKeepAlive.size - headerMin) := by
    apply slice_congr
    intro i hi
    exact store_of_le _ _ (by simp only [headerMin, List.length_cons, List.length_nil]; omega)
  rw [hfresh] at htext
  constructor
  · rintro ⟨bytes, packet, s', htext', hpacket, hcarried⟩
    obtain rfl := Except.ok.inj (htext.symm.trans htext')
    generalize slice fresh headerMin (sendKeepAlive.size - headerMin) = bytes at hpacket ⊢
    generalize hn : ((fill.header .data).bytes ++ bytes).length = n
    have hpacket : parsePacket c ⟨n, (fill.header .data).bytes ++ bytes⟩ = .ok (packet, s') := by
      rw [← hn]
      exact hpacket
    cases hdata : parseData ⟨n, bytes⟩ with
    | error e =>
      have herror : parsePayload c (fill.header .data) ⟨n, bytes⟩ = .error e :=
        map_of_eq_error hdata
      cases (parsePacket_plaintext_error herror).symm.trans hpacket
    | ok r =>
      have hok : parsePayload c (fill.header .data) ⟨n, bytes⟩ = .ok (.data r.1, r.2) :=
        map_of_eq_ok hdata
      obtain ⟨rfl, -⟩ := Prod.mk.inj (Except.ok.inj ((parsePacket_plaintext hok).symm.trans hpacket))
      obtain ⟨p, hbytes, hp⟩ := parseData_sound hdata
      obtain ⟨hexplicit, hacks, hfragments⟩ := hcarried
      rw [hp] at hexplicit hacks hfragments
      exact ⟨p, r.2.rest, hbytes, hexplicit, hacks, List.map_eq_nil_iff.mp hfragments⟩
  · rintro ⟨p, rest, hbytes, hexplicit, hacks, hfragments⟩
    rw [hbytes] at htext
    have hcarried : RelayMessage.keepAlive.Carried (.data p.toPacket) := by
      refine ⟨hexplicit, hacks, ?_⟩
      rw [DataPayload.toPacket, hfragments]
      rfl
    refine (accepted_of_ok htext fun size => ?_).mpr hcarried
    have hsize : ∀ e ∈ p.fragments, e.data.length ≤ size := by
      rw [hfragments]
      intro e he
      cases he
    exact ⟨_, map_of_eq_ok (parseData_complete hsize rest)⟩

end Accepted

/-- Which messages are accepted with the values that were sent. -/
theorem accepted_iff_survives {c : Crypto} {fresh : Mem} {fill : HeaderFill} {m : RelayMessage}
    {msg : OutMessage} (hsend : m.send = some msg) :
    Accepted c fresh fill m msg ↔ m.Survives fresh := by
  cases m with
  | relayRequest introducerTag nonce key =>
    obtain rfl := Option.some.inj hsend
    exact iff_false_intro (not_accepted_relayRequest introducerTag nonce key)
  | relayResponse nonce alice charlie => exact iff_true_intro (accepted_relayResponse hsend)
  | relayIntro alice => exact iff_false_intro (not_accepted_relayIntro hsend)
  | keepAlive =>
    obtain rfl := Option.some.inj hsend
    exact accepted_keepAlive_iff

/-- A header of zeros. -/
def zeroFill : HeaderFill := ⟨zeroMAC, ⟨List.replicate ivSize 0, rfl⟩, 0⟩

/-- The payload of two zeros: no flags, no fragments. -/
def emptyPayload : DataPayload :=
  { flags := 0
    explicitACKs := []
    acks := []
    chain := []
    extendedData := []
    fragments := []
    explicitACKs_eq_nil := fun _ => rfl
    acks_eq_nil := fun _ => ⟨rfl, rfl⟩
    extendedData_pos := fun hset => absurd rfl hset
    isChain := fun hset => absurd rfl hset
    length_lt := by decide }

theorem accepted_keepAlive_zeroMemory :
    Accepted noCrypto (fun _ => 0) zeroFill .keepAlive sendKeepAlive := by
  have hempty : RelayMessage.keepAlive.Survives (fun _ => 0) :=
    ⟨emptyPayload, List.replicate 9 0, by decide, rfl, rfl, rfl⟩
  have hsend : RelayMessage.keepAlive.send = some sendKeepAlive := rfl
  exact (accepted_iff_survives hsend).mpr hempty

/-- A relay request is not accepted, from zeroed memory either. -/
theorem not_accepted_relayRequest_one :
    ¬ ∀ (c : Crypto) (fresh : Mem) (fill : HeaderFill) (m : RelayMessage) (msg : OutMessage),
      m.send = some msg → Accepted c fresh fill m msg := by
  intro hall
  have hkey : (List.replicate introKeySize (9 : UInt8)).length = introKeySize := rfl
  exact not_accepted_relayRequest 1 2 ⟨_, hkey⟩
    (hall noCrypto (fun _ => 0) zeroFill (.relayRequest 1 2 ⟨_, hkey⟩) _ rfl)

end SSU
