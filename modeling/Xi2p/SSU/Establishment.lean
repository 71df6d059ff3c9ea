import Xi2p.Lib.Runs
import Xi2p.SSU.Handshake
import Xi2p.SSU.Validation

/-!
# How an SSU session gets established

One session, whatever arrives.

* `SameOrigin`, `Keeps`: what a function of the session leaves as it is.
* `openedPacket`: what a session makes of a datagram.
* `established_only_by_data`: a confirmation is never checked; a session is established by a data message.
-/

namespace SSU.Handshake

open Bytes ByteStream I2NP CBC Identity Envelope

namespace SSUSession

/-! ## What stays -/

/-- The other router, its identity, and that there is nothing to confirm. -/
structure SameOrigin (s s' : SSUSession) : Prop where
  remoteRouter_eq : s'.remoteRouter = s.remoteRouter
  remoteIdentity_eq : s'.remoteIdentity = s.remoteIdentity
  sessionConfirmData_eq : s.sessionConfirmData = [] → s'.sessionConfirmData = []

/-- In addition, the session does not get established. -/
structure Keeps (s s' : SSUSession) : Prop extends SameOrigin s s' where
  state : s'.state = .established → s.state = .established

variable {prim : Primitives} {ctx : Context} {env : Env} {s s' s'' : SSUSession}

theorem SameOrigin.refl (s : SSUSession) : SameOrigin s s := ⟨rfl, rfl, id⟩

theorem SameOrigin.trans (h : SameOrigin s s') (h' : SameOrigin s' s'') : SameOrigin s s'' :=
  ⟨h'.remoteRouter_eq.trans h.remoteRouter_eq, h'.remoteIdentity_eq.trans h.remoteIdentity_eq,
    fun hnil => h'.sessionConfirmData_eq (h.sessionConfirmData_eq hnil)⟩

theorem Keeps.refl (s : SSUSession) : Keeps s s := ⟨.refl s, id⟩

theorem Keeps.trans (h : Keeps s s') (h' : Keeps s' s'') : Keeps s s'' :=
  ⟨h.toSameOrigin.trans h'.toSameOrigin, fun hstate => h.state (h'.state hstate)⟩

/-! ### Sending -/

theorem keeps_fillAndSend (iv : Block ivSize) (payloadType : SSUPayloadType) (buf : Mem) (len : ℕ) :
    Keeps s (s.fillAndSend prim env iv payloadType buf len) := ⟨⟨rfl, rfl, id⟩, id⟩

theorem keeps_sendData (k : ℕ) (datagrams : List Datagram) (s : SSUSession) :
    Keeps s (sendData prim env k datagrams s) := by
  induction datagrams generalizing k s with
  | nil => exact .refl s
  | cons g datagrams ih => exact (keeps_fillAndSend _ _ _ _).trans (ih _ _)

theorem sameOrigin_withData (data : SSUData) : SameOrigin s (s.withData prim env data) := by
  have hset : SameOrigin s { s with data } := ⟨rfl, rfl, id⟩
  exact hset.trans (keeps_sendData _ _ _).toSameOrigin

theorem state_sendData (k : ℕ) (datagrams : List Datagram) (s : SSUSession) :
    (sendData prim env k datagrams s).state = s.state := by
  induction datagrams generalizing k s with
  | nil => rfl
  | cons g datagrams ih => exact ih _ _

theorem state_withData (data : SSUData) : (s.withData prim env data).state = data.sessionState :=
  state_sendData _ _ _

theorem keeps_writeAndSend {keys : Envelope.Keys} {header : SSUHeader} {payload : SSUPayload} {size : ℕ}
    (h : s.writeAndSend env keys header payload size = some s') : Keeps s s' := by
  unfold writeAndSend at h
  split at h
  · cases h
    exact ⟨⟨rfl, rfl, id⟩, id⟩
  · cases h

/-! ### Ends -/

theorem sameOrigin_close (s : SSUSession) : SameOrigin s (s.close prim env) := by
  unfold close sendSessionDestroyed
  split
  · exact ⟨rfl, rfl, id⟩
  · exact ⟨rfl, rfl, id⟩

theorem state_close (s : SSUSession) : (s.close prim env).state = .closed := by
  unfold close sendSessionDestroyed
  split <;> rfl

theorem keeps_close (s : SSUSession) : Keeps s (s.close prim env) := by
  refine ⟨sameOrigin_close s, fun hstate => ?_⟩
  rw [state_close] at hstate
  cases hstate

theorem keeps_deleteSession (s : SSUSession) : Keeps s (s.deleteSession prim env) := keeps_close s

theorem keeps_failed (s : SSUSession) : Keeps s (s.failed prim env) := by
  unfold failed
  split
  · exact .refl s
  · have hset : Keeps s (s.setState .failed) := ⟨⟨rfl, rfl, id⟩, fun hstate => by cases hstate⟩
    exact hset.trans (keeps_deleteSession _)

/-- A function that may throw: the session is deleted then. -/
theorem keeps_getD_deleteSession {o : Option SSUSession} (hs : Keeps s s')
    (h : ∀ t, o = some t → Keeps s' t) : Keeps s (o.getD (s'.deleteSession prim env)) := by
  cases o with
  | none => exact hs.trans (keeps_deleteSession s')
  | some t => exact hs.trans (h t rfl)

/-! ### Handshake -/

theorem keeps_createAESandMACKey {pair : DHKeysPair} {pubKey : Block dhPublic}
    (h : s.createAESandMACKey prim pair pubKey = some s') : Keeps s s' := by
  unfold createAESandMACKey at h
  split at h
  · cases h
  · split at h
    · cases h
    · cases h
      exact ⟨⟨rfl, rfl, id⟩, id⟩

theorem keeps_connect (h : s.connect prim ctx env = some s') : Keeps s s' := by
  unfold connect at h
  split at h
  · have hset : Keeps s { s with dhKeysPair := some env.dhKeysPair } := ⟨⟨rfl, rfl, id⟩, id⟩
    exact hset.trans (keeps_writeAndSend h)
  · cases h
    exact .refl s

theorem keeps_sendSessionCreated {pair : DHKeysPair} {dhX : Block dhPublic}
    (h : s.sendSessionCreated prim ctx env pair dhX = some s') : Keeps s s' := by
  unfold sendSessionCreated at h
  generalize s.createdMessage prim ctx env pair dhX = created at h
  have hset : Keeps s { s with encryption := created.2 } := ⟨⟨rfl, rfl, id⟩, id⟩
  dsimp only at h
  split at h
  · exact hset.trans (keeps_writeAndSend h)
  · cases h
    exact hset

theorem keeps_processSessionRequest (packet : SSUSessionRequestPacket) (sender : Endpoint) :
    Keeps s (s.processSessionRequest prim ctx env packet sender) := by
  unfold processSessionRequest
  split
  · exact .refl s
  · dsimp only
    have hset : Keeps s { s with
        remoteEndpoint := sender, dhKeysPair := some (s.dhKeysPair.getD env.dhKeysPair) } :=
      ⟨⟨rfl, rfl, id⟩, id⟩
    split
    · exact hset
    next hkeys =>
      apply keeps_getD_deleteSession (hset.trans (keeps_createAESandMACKey hkeys))
      exact fun _ hsent => keeps_sendSessionCreated hsent

theorem keeps_processSessionCreated (m : Mem) (len : ℕ) (header : SSUHeader)
    (packet : SSUSessionCreatedPacket) :
    Keeps s (s.processSessionCreated prim ctx env m len header packet) := by
  unfold processSessionCreated
  split
  · split
    · exact .refl s
    next hkeys =>
      have hcreated := keeps_createAESandMACKey hkeys
      dsimp only
      split
      · refine keeps_getD_deleteSession (hcreated.trans ?_) fun _ hsent => keeps_writeAndSend hsent
        exact ⟨⟨rfl, rfl, id⟩, id⟩
      · exact hcreated.trans ⟨⟨rfl, rfl, id⟩, id⟩
  · exact .refl s

/-- There is nothing to confirm. -/
theorem processSessionConfirmed_eq (hnil : s.sessionConfirmData = []) (packet : SSUSessionConfirmedPacket) :
    s.processSessionConfirmed prim ctx env packet = s := if_pos hnil

theorem sameOrigin_processData (m : Mem) (len : ℕ) (rawData : List UInt8) :
    SameOrigin s (s.processData prim env m len rawData) := by
  unfold processData
  split
  · exact .refl s
  · dsimp only
    split
    · exact (sameOrigin_withData _).trans ⟨rfl, rfl, fun _ => rfl⟩
    · exact sameOrigin_withData _

/-! ## Datagrams -/

/-- The packet of a valid datagram. -/
def openedPacket (prim : Primitives) (ctx : Context) (s : SSUSession) (m : Mem) (len : ℕ) :
    Option SSUPacket :=
  let validated := validate (prim.hmac (s.validationKey ctx)) m len
  if validated.valid then
    match decrypt (s.currentDecryption prim ctx) validated.buf len with
    | .error _ => none
    | .ok (m, _) =>
      match parsePacket prim.identity (.of (slice m 0 (len - len % 16))) with
      | .error _ => none
      | .ok (packet, _) => some packet
  else none

/-- A data message arrives. -/
def ReceivesData (prim : Primitives) (ctx : Context) (s : SSUSession) : Env × Input → Prop
  | (_, .receive m len _) => ∃ packet data, s.openedPacket prim ctx m len = some packet ∧ packet.payload = .data data
  | _ => False

theorem processDecryptedMessage_cases (hnil : s.sessionConfirmData = []) (m : Mem) (len : ℕ)
    (sender : Endpoint) :
    Keeps s (s.processDecryptedMessage prim ctx env m len sender) ∨
      SameOrigin s (s.processDecryptedMessage prim ctx env m len sender) ∧
        ∃ packet rest data, parsePacket prim.identity (.of (slice m 0 (len - len % 16))) = .ok (packet, rest) ∧
          packet.payload = .data data := by
  unfold processDecryptedMessage
  dsimp only
  split
  · exact .inl (keeps_deleteSession s)
  next packet rest hpacket =>
    split
    next hdata => exact .inr ⟨sameOrigin_processData _ _ _, packet, rest, _, hpacket, hdata⟩
    · exact .inl (keeps_processSessionRequest _ _)
    · exact .inl (keeps_processSessionCreated _ _ _ _)
    · rw [processSessionConfirmed_eq hnil]
      exact .inl (.refl s)
    · exact .inl (keeps_deleteSession s)
    · split
      · exact .inl (.refl s)
      · exact .inl (keeps_deleteSession s)
    all_goals
      split
      · exact .inl (keeps_deleteSession s)
      · exact .inl ⟨⟨rfl, rfl, id⟩, id⟩

theorem processMessage_cases (hnil : s.sessionConfirmData = []) (m : Mem) (len : ℕ) (sender : Endpoint) :
    Keeps s (s.processMessage prim ctx env m len sender) ∨
      SameOrigin s (s.processMessage prim ctx env m len sender) ∧
        ReceivesData prim ctx s (env, .receive m len sender) := by
  unfold processMessage ReceivesData openedPacket
  dsimp only
  split
  next hvalid =>
    split
    · exact .inl (keeps_deleteSession s)
    next m' decryption hdecrypt =>
      have hset : Keeps s (if s.isSessionKey then { s with decryption } else s) := by
        split
        · exact ⟨⟨rfl, rfl, id⟩, id⟩
        · exact .refl s
      rcases processDecryptedMessage_cases (hset.sessionConfirmData_eq hnil) m' len sender with
        hkeeps | ⟨hsame, packet, rest, data, hpacket, hdata⟩
      · exact .inl (hset.trans hkeeps)
      · refine .inr ⟨hset.toSameOrigin.trans hsame, packet, data, ?_, hdata⟩
        simp only [hdecrypt, hpacket]
  · exact .inl (keeps_deleteSession s)

/-! ## Runs -/

/-- One input: only a data message can establish the session. -/
theorem step_cases (hnil : s.sessionConfirmData = []) (input : Env × Input) :
    Keeps s (s.step prim ctx input) ∨
      SameOrigin s (s.step prim ctx input) ∧ ReceivesData prim ctx s input := by
  obtain ⟨env, input⟩ := input
  cases input with
  | receive m len sender =>
    show Keeps s (s.processNextMessage prim ctx env m len sender) ∨
      SameOrigin s (s.processNextMessage prim ctx env m len sender) ∧ _
    unfold processNextMessage
    split
    · exact .inl (.refl s)
    · split
      · -- the hole punch that the session has waited for
        have hset : Keeps s (s.setState .unknown) := ⟨⟨rfl, rfl, id⟩, fun hstate => by cases hstate⟩
        exact .inl (keeps_getD_deleteSession hset fun _ hconnect => keeps_connect hconnect)
      · exact processMessage_cases hnil m len sender
      · exact processMessage_cases hnil m len sender
      · exact .inl (keeps_deleteSession s)
      · exact .inl (keeps_deleteSession s)
  | connect =>
    apply Or.inl
    show Keeps s ((s.connect prim ctx env).getD s)
    cases hconnect : s.connect prim ctx env with
    | none => exact .refl s
    | some s' => exact keeps_connect hconnect
  | waitForIntroduction => exact .inl ⟨⟨rfl, rfl, id⟩, fun hstate => by cases hstate⟩
  | failed => exact .inl (keeps_failed s)
  | close => exact .inl (keeps_close s)
  | postI2NPMessages msgs =>
    apply Or.inl
    show Keeps s (s.postI2NPMessages prim env msgs)
    unfold postI2NPMessages
    split
    next hestablished => exact ⟨sameOrigin_withData _, fun _ => hestablished⟩
    · exact .refl s
  | sendKeepAlive =>
    apply Or.inl
    show Keeps s (s.sendKeepAlive prim env)
    unfold sendKeepAlive
    split
    · exact keeps_fillAndSend _ _ _ _
    · exact .refl s
  | resendTimer => exact .inl ⟨⟨rfl, rfl, id⟩, id⟩
  | decayTimer => exact .inl ⟨⟨rfl, rfl, id⟩, id⟩
  | cleanupTimer => exact .inl ⟨⟨rfl, rfl, id⟩, id⟩

/-- A session and some inputs: the session after them. -/
def after (prim : Primitives) (ctx : Context) (s : SSUSession) (inputs : List (Env × Input)) : SSUSession :=
  Runs.exec (step prim ctx) s inputs

theorem sameOrigin_after (hnil : s.sessionConfirmData = []) (inputs : List (Env × Input)) :
    SameOrigin s (s.after prim ctx inputs) := by
  induction inputs generalizing s with
  | nil => exact .refl s
  | cons input inputs ih =>
    have hstep : SameOrigin s (s.step prim ctx input) :=
      (step_cases hnil input).elim Keeps.toSameOrigin And.left
    exact hstep.trans (ih (hstep.sessionConfirmData_eq hnil))

theorem after_concat (before : List (Env × Input)) (input : Env × Input) :
    s.after prim ctx (before ++ [input]) = (s.after prim ctx before).step prim ctx input :=
  Runs.exec_append s before [input]

/-- A confirmation never counts: there is nothing to confirm, the other router keeps the identity that the
session was created with, and a session that is established has become so when data arrived. -/
theorem established_only_by_data (prim : Primitives) (ctx : Context) (remoteEndpoint : Endpoint)
    (remoteRouter : Option RemoteRouter) (packetSize : ℕ) (unsetKey : List UInt8)
    (inputs : List (Env × Input)) :
    let s := new remoteEndpoint remoteRouter packetSize unsetKey
    (s.after prim ctx inputs).sessionConfirmData = [] ∧
      (s.after prim ctx inputs).remoteIdentity = s.remoteIdentity ∧
      ((s.after prim ctx inputs).state = .established →
        ∃ before input rest, inputs = before ++ input :: rest ∧
          (s.after prim ctx before).state ≠ .established ∧
          (s.after prim ctx (before ++ [input])).state = .established ∧
          ReceivesData prim ctx (s.after prim ctx before) input) := by
  intro s
  have hnil : s.sessionConfirmData = [] := rfl
  have hsame : SameOrigin s (s.after prim ctx inputs) := sameOrigin_after hnil inputs
  refine ⟨hsame.sessionConfirmData_eq hnil, hsame.remoteIdentity_eq, fun hend => ?_⟩
  have hstart : s.state ≠ .established := fun hnew => by cases hnew
  obtain ⟨before, input, rest, rfl, hbefore, hgained⟩ :=
    Runs.exists_turn (P := fun t : SSUSession => t.state = .established) hstart hend
  refine ⟨before, input, rest, rfl, hbefore, hgained, ?_⟩
  have hnilBefore : (s.after prim ctx before).sessionConfirmData = [] :=
    (sameOrigin_after hnil before).sessionConfirmData_eq hnil
  have hstep : ((s.after prim ctx before).step prim ctx input).state = .established := by
    rw [← after_concat]
    exact hgained
  have hcases : Keeps (s.after prim ctx before) ((s.after prim ctx before).step prim ctx input) ∨ _ :=
    step_cases hnilBefore input
  -- a step that keeps the session as it was has not established it
  exact (hcases.resolve_left fun hkeeps => hbefore (hkeeps.state hstep)).2

/-! ## Greetings -/

section Greeting

variable {msg : I2NPMessage}

/-- A message in a single fragment is parsed. -/
theorem parseData_single (hlt : msg.ssuBytes.length < packetMaxIPv4) {size : ℕ}
    (hsize : msg.ssuBytes.length ≤ size) (rest : List UInt8) :
    ∃ packet, parseData ⟨size, dataWantReply ::
      (fragmentSection msg.getMsgID 0 true msg.ssuBytes ++ rest)⟩ = .ok (packet, ⟨size, rest⟩) := by
  have hlt' : msg.ssuBytes.length < 2 ^ 14 := hlt.trans (by decide)
  have hinfo : fragmentInfo 0 true msg.ssuBytes.length = 2 ^ 16 + msg.ssuBytes.length := by
    rw [fragmentInfo_eq hlt']
    simp
  have hinfoLt : fragmentInfo 0 true msg.ssuBytes.length < 256 ^ 3 := by
    rw [hinfo]
    omega
  have hsizeBits : fragmentInfo 0 true msg.ssuBytes.length &&& 0x3FFF = msg.ssuBytes.length := by
    rw [hinfo, show (0x3FFF : ℕ) = 2 ^ 14 - 1 from rfl, Nat.and_two_pow_sub_one_eq_mod]
    omega
  have hpos : 0 < msg.ssuBytes.length := by
    rw [I2NPMessage.length_ssuBytes]
    exact Nat.add_pos_left (by decide) _
  let p : DataPayload :=
    { flags := dataWantReply
      explicitACKs := []
      acks := []
      chain := []
      extendedData := []
      fragments := [⟨msg.getMsgID, _, msg.ssuBytes, hinfoLt, hsizeBits, hpos⟩]
      explicitACKs_eq_nil := fun _ => rfl
      acks_eq_nil := fun _ => ⟨rfl, rfl⟩
      extendedData_pos := fun h => absurd rfl h
      isChain := fun h => absurd rfl h
      length_lt := ⟨by decide, by decide, by decide, by simp⟩ }
  have hall : ∀ e ∈ p.fragments, e.data.length ≤ size := by
    intro e he
    rw [List.mem_singleton.mp he]
    exact hsize
  have hparse := parseData_complete hall rest
  have hencode : p.encode = dataWantReply :: fragmentSection msg.getMsgID 0 true msg.ssuBytes := by
    have hexplicit : dataWantReply &&& dataExplicitACKsIncluded = 0 := by decide
    have hbitfields : dataWantReply &&& dataACKBitfieldsIncluded = 0 := by decide
    have hextended : dataWantReply &&& dataExtendedIncluded = 0 := by decide
    simp [p, DataPayload.encode, DataPayload.explicitPart, DataPayload.bitfieldPart, DataPayload.extendedPart,
      DataPayload.fragmentPart, optionalPart, FragmentEntry.encode, fragmentSection, hexplicit, hbitfields,
      hextended]
  rw [hencode] at hparse
  exact ⟨_, hparse⟩

theorem sessionState_completeMessage {d : SSUData} (hstate : d.sessionState ≠ .established) {msgID : UInt32}
    (htype : (msg.fromSSU msgID).getTypeID = i2npDeliveryStatus) :
    (d.completeMessage env.data env.seconds msgID msg).sessionState = .established := by
  unfold SSUData.completeMessage
  dsimp only
  split
  next hestablished => exact absurd hestablished hstate
  · exact (SSUData.apart_foldl_send _ _ _).sessionState_eq

/-- A delivery status in a single fragment establishes the session. -/
theorem sessionState_processMessage {d : SSUData} (hstate : d.sessionState ≠ .established)
    (hnew : d.incompleteMessages msg.getMsgID = none) (htype : msg.getTypeID = i2npDeliveryStatus)
    (hlt : msg.ssuBytes.length < packetMaxIPv4) {m : Mem} {pos : ℕ} (hflag : m pos = dataWantReply)
    (hcarries : (⟨env.seconds, m, pos + 1⟩ : Call).Carries
      (makeFragment msg.getMsgID 0 true msg.ssuBytes).datagram) (bound : ℕ) :
    ∃ d', d.processMessage env.data env.seconds m bound pos = some d' ∧ d'.sessionState = .established := by
  obtain ⟨hfragments, hdata⟩ := fragments_of_carries (by decide) hlt hcarries
  have hreceive : d.processMessage env.data env.seconds m bound pos =
      some (d.receive env.data ⟨env.seconds, m, pos + 1⟩) := by
    simp only [SSUData.processMessage, SSUData.processACKs, hflag]
    rfl
  refine ⟨_, hreceive, ?_⟩
  rw [SSUData.receive_eq_foldl, hfragments, List.foldl_cons, List.foldl_nil]
  -- the only fragment completes the message
  have hgathers : Gathers [msg.ssuBytes] ∅ ((d.incompleteMessages msg.getMsgID).getD newIncompleteMessage) := by
    rw [hnew]
    exact gathers_newIncompleteMessage _
  have hmex : Reassembly.mex (insert 0 ∅) = 1 := Reassembly.mex_eq_iff.mpr ⟨by simp, by simp⟩
  obtain ⟨inc, hinc, hprocess⟩ := SSUData.processFragment_own env.data env.seconds hgathers
    (Finset.empty_subset _) (Reassembly.mex_empty.trans_lt Nat.one_pos) (m := m)
    (f := ⟨msg.getMsgID, msg.ssuBytes.length, true, 0, pos + 1 + 8⟩) ⟨rfl, Nat.one_pos, rfl, rfl, hdata⟩
  have harrived : Arrived msg (inc.msg.fromSSU msg.getMsgID) := hinc.arrived hmex (by simp)
  have hcomplete := hprocess.trans (if_pos hmex)
  rw [hcomplete]
  exact sessionState_completeMessage hstate (harrived.getTypeID_eq.trans htype)

theorem isSessionKey_sendData (k : ℕ) (datagrams : List Datagram) (s : SSUSession) :
    (sendData prim env k datagrams s).isSessionKey = s.isSessionKey := by
  induction datagrams generalizing k s with
  | nil => rfl
  | cons g datagrams ih => exact ih _ _

/-- A plain text of whole blocks is parsed with its header. -/
theorem parsePacket_of_slice {c : Crypto} {m : Mem} {len : ℕ} {payloadType : SSUPayloadType} {time : UInt32}
    {body : List UInt8} {payload : SSUPayload} {rest : InputByteStream} (hmin : encryptedPos ≤ len)
    (hplain : slice m encryptedPos (len - encryptedPos) = (payloadType.code <<< 4) :: (writeU32 time ++ body))
    (hbody : parsePayload c ((⟨Block.ofMem m 0, Block.ofMem m ivPos, time⟩ : HeaderFill).header payloadType)
      ⟨len, body⟩ = .ok (payload, rest)) :
    ∃ header, parsePacket c (.of (slice m 0 len)) = .ok (⟨header, payload, body⟩, rest) := by
  obtain ⟨n, rfl⟩ := Nat.exists_eq_add_of_le hmin
  rw [Nat.add_sub_cancel_left] at hplain
  have hfront : slice m 0 encryptedPos = slice m 0 macSize ++ slice m ivPos ivSize := slice_add m 0 16 16
  have hall : slice m 0 (encryptedPos + n) =
      ((⟨Block.ofMem m 0, Block.ofMem m ivPos, time⟩ : HeaderFill).header payloadType).bytes ++ body := by
    rw [slice_add, Nat.zero_add, hplain, hfront, HeaderFill.bytes_header]
    simp only [List.append_assoc, List.cons_append]
    rfl
  have hparse := parsePacket_plaintext hbody
  rw [← hall] at hparse
  rw [InputByteStream.of, length_slice]
  exact ⟨_, hparse⟩

theorem padTo16_mod (size : ℕ) : padTo16 size % 16 = 0 := by
  unfold padTo16
  split
  · exact Nat.mul_mod_left _ _
  · omega

/-- A message in a single fragment, under the introduction key. -/
def greeting (prim : Primitives) (ctx : Context) (s : SSUSession) (iv : Block ivSize) (time : UInt32)
    (msg : I2NPMessage) : Signed :=
  let f := makeFragment msg.getMsgID 0 true msg.ssuBytes
  fillHeaderAndEncrypt (s.introKeys prim ctx) iv time SSUPayloadType.data.code f.buffer f.len 0

/-- A fragment is what stands behind the header, and zeros. -/
theorem slice_makeFragment (msg : I2NPMessage) {len : ℕ} (hle : headerMin + 9 + msg.ssuBytes.length ≤ len) :
    ∃ rest, slice (makeFragment msg.getMsgID 0 true msg.ssuBytes).buffer headerMin (len - headerMin) =
      dataWantReply :: (fragmentSection msg.getMsgID 0 true msg.ssuBytes ++ rest) := by
  have hsection : (dataWantReply :: fragmentSection msg.getMsgID 0 true msg.ssuBytes).length =
      9 + msg.ssuBytes.length := by
    simp only [fragmentSection, List.length_cons, List.length_append, length_writeU32, length_writeBE]
    omega
  obtain ⟨n, hn⟩ := Nat.exists_eq_add_of_le (show 9 + msg.ssuBytes.length ≤ len - headerMin by omega)
  have hstands := standsAt_store (fun _ => 0) headerMin
    (dataWantReply :: fragmentSection msg.getMsgID 0 true msg.ssuBytes)
  rw [StandsAt, hsection] at hstands
  rw [hn, slice_add]
  exact ⟨_, congrArg (· ++ _) hstands⟩

/-- A buffer with the bytes of a datagram behind the header carries its fragments. -/
theorem carries_of_slice {f : Fragment} (hlen : headerMin < f.len) {m : Mem}
    (hslice : slice m headerMin (f.len - headerMin) = slice f.buffer headerMin (f.len - headerMin)) (now : UInt32) :
    m headerMin = f.buffer headerMin ∧ (⟨now, m, headerMin + 1⟩ : Call).Carries f.datagram := by
  have hsucc : f.len - headerMin = f.datagram.len - (headerMin + 1) + 1 := by
    show f.len - headerMin = f.len - (headerMin + 1) + 1
    omega
  rw [hsucc, slice_succ, slice_succ, List.cons_eq_cons] at hslice
  exact hslice

/-- A valid data message under the introduction key. -/
theorem processNextMessage_eq_processData (hstate : s.state = .unknown) (hkey : s.isSessionKey = false)
    {m m' : Mem} {len : ℕ} (hpos : 0 < len) (hblocks : len % 16 = 0) {d' : Decryption ivSize}
    (hvalid : (validate (s.introKeys prim ctx).mac m len).valid = true)
    (hdecrypted : decrypt ⟨(s.introKeys prim ctx).aes, Block.const 0⟩
      (validate (s.introKeys prim ctx).mac m len).buf len = .ok (m', d')) {header : SSUHeader}
    {packet : SSUDataPacket} {body : List UInt8} {rest : InputByteStream}
    (hparse : parsePacket prim.identity (.of (slice m' 0 len)) = .ok (⟨header, .data packet, body⟩, rest))
    (sender : Endpoint) :
    s.processNextMessage prim ctx env m len sender = s.processData prim env m' len body := by
  have hzero : ¬ (len = 0 ∧ s.state ≠ .introduced) := fun h => absurd h.1 (by omega)
  have hvalidation : s.validationKey ctx = (s.introKey ctx).bytes := by
    rw [validationKey, hkey]
    rfl
  have hdecryption : s.currentDecryption prim ctx = ⟨(s.introKeys prim ctx).aes, Block.const 0⟩ := by
    rw [currentDecryption, hkey]
    rfl
  have hmac : prim.hmac (s.introKey ctx).bytes = (s.introKeys prim ctx).mac := rfl
  rw [processNextMessage, if_neg hzero]
  simp only [hstate, processMessage, hvalidation, hmac, hvalid, hdecryption, hdecrypted, hkey,
    processDecryptedMessage, hblocks, Nat.sub_zero, hparse, if_true, Bool.false_eq_true, if_false]

/-- A greeting is valid under the introduction key, and is read as a data message with the fragment. -/
theorem greeting_received (hlt : msg.ssuBytes.length < packetMaxIPv4) (iv : Block ivSize) (time now : UInt32)
    {m : Mem} {len : ℕ} (hlen : len = padTo16 (headerMin + 9 + msg.ssuBytes.length))
    (hsame : slice m 0 len = slice (greeting prim ctx s iv time msg).buf 0 len) :
    (validate (s.introKeys prim ctx).mac m len).valid = true ∧
      ∃ m' d' header packet body rest,
        decrypt ⟨(s.introKeys prim ctx).aes, Block.const 0⟩ (validate (s.introKeys prim ctx).mac m len).buf len =
          .ok (m', d') ∧
        parsePacket prim.identity (.of (slice m' 0 len)) = .ok (⟨header, .data packet, body⟩, rest) ∧
        len - body.length = headerMin ∧ m' headerMin = dataWantReply ∧
        (⟨now, m', headerMin + 1⟩ : Call).Carries (makeFragment msg.getMsgID 0 true msg.ssuBytes).datagram := by
  have hblocks : len % 16 = 0 := hlen ▸ padTo16_mod _
  have hle : headerMin + 9 + msg.ssuBytes.length ≤ len := hlen ▸ le_padTo16 _
  have hmin : 48 ≤ len := by
    simp only [headerMin] at hle
    omega
  set f := makeFragment msg.getMsgID 0 true msg.ssuBytes
  have hflen : f.len = len := hlen.symm
  have hgreeting : (greeting prim ctx s iv time msg).buf =
      (fillAndEncrypt ⟨(s.introKeys prim ctx).aes, iv⟩ (s.introKeys prim ctx).mac iv time
        SSUPayloadType.data.code f.buffer len 0).1.buf := by
    rw [← hflen]
    rfl
  rw [hgreeting] at hsame
  obtain ⟨hvalid, -, hdecrypt⟩ := fillAndEncrypt_received rfl iv time SSUPayloadType.data.code 0 f.buffer hmin
    hblocks hsame
  obtain ⟨m', d', hdecrypted, hplain⟩ := hdecrypt ⟨(s.introKeys prim ctx).aes, Block.const 0⟩ rfl
  rw [UInt8.zero_or] at hplain
  -- the payload is the fragment, and what is behind it
  set body := slice f.buffer headerMin (len - headerMin)
  obtain ⟨rest, hrest⟩ : ∃ rest, body = _ := slice_makeFragment msg hle
  obtain ⟨packet, hdata⟩ := parseData_single hlt (show msg.ssuBytes.length ≤ len by omega) rest
  rw [← hrest] at hdata
  obtain ⟨header, hparse⟩ := parsePacket_of_slice (c := prim.identity) (hmin.trans' (by decide)) hplain
    (map_of_eq_ok hdata)
  -- so the memory behind the header is that of the fragment
  have hstands : StandsAt m' encryptedPos ((SSUPayloadType.data.code <<< 4) :: (writeU32 time ++ body)) := by
    have hlength := congrArg List.length hplain
    rw [length_slice] at hlength
    rw [StandsAt, ← hlength, hplain]
  rw [standsAt_cons, standsAt_append, length_writeU32] at hstands
  have hlength : body.length = len - headerMin := length_slice _ _ _
  have hslice : slice m' headerMin body.length = body := hstands.2.2
  rw [hlength, ← hflen] at hslice
  obtain ⟨hflag, hcarries⟩ := carries_of_slice (by omega) (hslice.trans (by rw [hflen])) now
  have hwant : f.buffer headerMin = dataWantReply := (standsAt_cons.mp (standsAt_store (fun _ => 0) headerMin
    (dataWantReply :: fragmentSection msg.getMsgID 0 true msg.ssuBytes))).1
  exact ⟨hvalid, m', d', header, packet, body, _, hdecrypted, hparse, by omega, hflag.trans hwant, hcarries⟩

/-! ### An example -/

/-- Primitives that leave everything as it is. -/
def plainPrimitives : Primitives where
  identity := { sha256 := fun _ => .zero, verify := fun _ _ _ _ => true }
  schemes :=
    { createRandomKeys := fun _ _ => ([], [])
      sign := fun _ _ _ _ => []
      generateElGamalKeyPair := fun _ => (Block.const 0, Block.const 0) }
  agree _ _ := none
  aes _ := plainKeys.aes
  hmac _ := plainKeys.mac

def exampleEndpoint : Endpoint := ⟨.v4 (Block.const 10), 8887⟩

def exampleContext : Context where
  keys := { privateKey := [], signingPrivateKey := [] }
  address _ := ⟨exampleEndpoint, Block.const 7⟩
  hasV6 := false
  isIntroducer := false
  isOK := true
  nativeBytes _ := [0, 0, 0, 0]

def exampleEnv : Env where
  seconds := 0
  iv _ := Block.const 0
  randBytes _ := Block.const 0
  padding _ := Block.const 0
  relayTag := 0
  random := []
  dhKeysPair := ⟨[], Block.const 0⟩
  fresh _ := 0
  data := ⟨fun _ => 0, []⟩
  packetSize _ := none
  others _ := none

/-- A delivery status without a payload. -/
def bareDeliveryStatus : I2NPMessage :=
  let msg := I2NPMessage.newI2NPShortMessage
  { msg with buf := store msg.buf msg.offset [i2npDeliveryStatus] }

/-- An inbound session. -/
def exampleSession : SSUSession := new exampleEndpoint none packetMaxIPv4 []

/-- It in a data message, under the introduction key. -/
def exampleGreeting : Signed :=
  greeting plainPrimitives exampleContext exampleSession (Block.const 0) 0 bareDeliveryStatus

theorem length_ssuBytes_bareDeliveryStatus : bareDeliveryStatus.ssuBytes.length = 5 := by
  rw [I2NPMessage.length_ssuBytes]
  decide

/-- Whoever knows the introduction key, which is published, can establish a session that has no keys yet:
a delivery status in a single fragment is enough. -/
theorem established_of_greeting (hstate : s.state = .unknown) (hkey : s.isSessionKey = false)
    (hnew : s.data.incompleteMessages msg.getMsgID = none) (htype : msg.getTypeID = i2npDeliveryStatus)
    (hlt : msg.ssuBytes.length < packetMaxIPv4) (iv : Block ivSize) (time : UInt32) {m : Mem} {len : ℕ}
    (hlen : len = padTo16 (headerMin + 9 + msg.ssuBytes.length))
    (hsame : slice m 0 len = slice (greeting prim ctx s iv time msg).buf 0 len) (sender : Endpoint) :
    (s.processNextMessage prim ctx env m len sender).state = .established ∧
      (s.processNextMessage prim ctx env m len sender).isSessionKey = false := by
  obtain ⟨hvalid, m', d', header, packet, body, rest, hdecrypted, hparse, hpos, hflag, hcarries⟩ :=
    greeting_received hlt iv time env.seconds hlen hsame
  have hblocks : len % 16 = 0 := hlen ▸ padTo16_mod _
  have hnonzero : 0 < len := by
    have hle : headerMin + 9 + msg.ssuBytes.length ≤ len := hlen ▸ le_padTo16 _
    omega
  have hclosed : s.state ≠ .established := by
    rw [hstate]
    decide
  -- the session hands the fragment on to its data
  obtain ⟨data, hdata, hestablished⟩ := sessionState_processMessage hclosed hnew htype hlt hflag hcarries
    rawPacketBuffer
  rw [processNextMessage_eq_processData hstate hkey hnonzero hblocks hvalid hdecrypted hparse, processData, hpos,
    hdata]
  dsimp only
  rw [if_pos ⟨hclosed, hestablished⟩]
  exact ⟨(state_withData data).trans hestablished, (isSessionKey_sendData _ _ _).trans hkey⟩

theorem established_of_greeting_bareDeliveryStatus :
    (exampleSession.processNextMessage plainPrimitives exampleContext exampleEnv exampleGreeting.buf 64
        exampleEndpoint).state = .established ∧
      (exampleSession.processNextMessage plainPrimitives exampleContext exampleEnv exampleGreeting.buf 64
        exampleEndpoint).isSessionKey = false :=
  established_of_greeting rfl rfl rfl (by decide)
    (by rw [length_ssuBytes_bareDeliveryStatus]; decide) (Block.const 0) 0
    (by rw [length_ssuBytes_bareDeliveryStatus]; decide) rfl exampleEndpoint

end Greeting

end SSUSession

end SSU.Handshake
