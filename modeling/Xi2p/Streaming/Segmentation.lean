import Xi2p.Streaming.QuickAck
import Xi2p.Streaming.Sender

/-!
# Packets from bytes

`SendBuffer` of `client/api/streaming.cc` cuts the bytes that the application hands over into packets.
`Outbox log handed` describes the sending half of a stream that has created the packets of `log`, in the
order of their numbers, after the bytes `handed` have been handed over:

* the payloads of the log and the unread bytes of the buffer are what was handed over;
* what is on the wire, posted or waiting for an acknowledgement is a packet of the log or a plain
  acknowledgement.

* `exists_outbox`: so it is after every run.
* `kept_or_released`: a packet of data waits in `m_SentPackets` until an acknowledgement releases it.
-/

namespace Streaming

open Bytes Identity Runs

/-! ## The owner of a stream -/

/-- A destination whose streams can be opened: the signatures have the length that goes with the identity,
and a SYN with both of them fits a packet. -/
structure Owner where
  /-- The surroundings of its streams. -/
  env : StreamEnv
  identity_wellFormed : env.identity.WellFormed env.crypto
  length_sign : ∀ m, (env.sign m).length = env.identity.getSignatureLen
  syn_fits : 22 + env.identity.getFullLen + 2 + env.identity.getSignatureLen ≤ streamingMTU

theorem wellFormed_quietEnv : quietEnv.identity.WellFormed quietEnv.crypto where
  length_standardIdentity := List.length_replicate
  extendedLen_eq := by decide +kernel
  extendedBuffer_eq_none := fun _ => rfl
  extendedBuffer_eq_some := fun hne => absurd rfl hne
  identHash_eq := rfl
  verifier_eq := Or.inl rfl

theorem length_sign_quietEnv (m : List UInt8) :
    (quietEnv.sign m).length = quietEnv.identity.getSignatureLen := List.length_replicate

theorem syn_fits_quietEnv : 22 + quietEnv.identity.getFullLen + 2 +
    quietEnv.identity.getSignatureLen ≤ streamingMTU := by decide

/-- The owner of both ends on a quiet network. -/
def quietOwner : Owner := ⟨quietEnv, wellFormed_quietEnv, length_sign_quietEnv, syn_fits_quietEnv⟩

/-! ## The packets of a stream -/

namespace Packet

/-- The packet without its send time. -/
def untimed (p : Packet) : Packet := { p with sendTime := 0 }

/-- The packet carries an acknowledgement and nothing else. -/
def IsPlainAck (p : Packet) : Prop := p.getSeqn = 0 ∧ ¬ p.isSYN

/-- A packet as a stream creates it. -/
structure Fits (p : Packet) : Prop where
  offset_eq : p.offset = 0
  sendTime_eq : p.sendTime = 0
  payloadOffset_le : p.payloadOffset ≤ p.len
  len_le : p.len ≤ streamingMTU

theorem Fits.untimed_eq {p : Packet} (h : p.Fits) : p.untimed = p := by
  unfold untimed
  rw [← h.sendTime_eq]

theorem untimed_sendTime (p : Packet) (now : UInt64) :
    { p with sendTime := now }.untimed = p.untimed := rfl

theorem getSeqn_untimed (p : Packet) : p.untimed.getSeqn = p.getSeqn := rfl

variable {p : Packet} {s : Stream} {seqn ackThrough : UInt32} {nacks : List UInt32}
  {resendDelay : UInt8} {flags : UInt16} {optionsSize : ℕ}

theorem HasHeader.payloadOffset_eq
    (h : p.HasHeader s seqn ackThrough [] resendDelay flags optionsSize)
    (hoptions : optionsSize < 65536) : p.payloadOffset = 22 + optionsSize := by
  have hcount : p.getNACKCount = 0 := h.getNACKCount_eq (by decide)
  have htail := h.tail
  rw [Stream.packetTail, List.cons_append, standsAt_cons, standsAt_append, standsAt_cons,
    standsAt_append] at htail
  -- no NACKs stand between the counter and the options
  have hoption : p.optionOffset = 20 := by
    unfold optionOffset
    rw [hcount]
  have hsize : p.getOptionSize = optionsSize := by
    unfold getOptionSize
    rw [hoption]
    exact htail.2.2.2.2.readBE_eq.trans (Nat.mod_eq_of_lt hoptions)
  unfold payloadOffset optionDataOffset
  rw [hoption, hsize]

end Packet

namespace StringStream

variable (b : StringStream) (n : ℕ)

theorem read_append_unread : (b.read n).2 ++ (b.read n).1.unread = b.unread := by
  unfold read
  split
  · rfl
  · split
    · exact List.append_nil _
    · exact List.take_append_drop n b.unread

theorem length_read_le : (b.read n).2.length ≤ n := by
  unfold read
  split
  · exact Nat.zero_le n
  · split
    next hlt => exact hlt.le
    next => exact List.length_take_le n b.unread

/-- At end of file nothing is unread. -/
theorem unread_eq_nil_read {b : StringStream} (h : b.eof → b.unread = [])
    (heof : (b.read n).1.eof) : (b.read n).1.unread = [] := by
  revert heof
  unfold read
  split
  next hb => exact fun _ => h hb
  next hb =>
    split
    · exact fun _ => rfl
    · exact fun heof => absurd heof hb

end StringStream

namespace Stream

variable {owner : Owner} {now : UInt64} {s t : Stream} {packet : Packet}

/-! ## What the packets carry -/

/-- A SYN carries the bytes that are read for it. -/
theorem payload_synPacket (owner : Owner) (s : Stream) (isNoAck : Bool) :
    (s.synPacket owner.env isNoAck).2.Fits ∧
      (s.synPacket owner.env isNoAck).2.payload ++
        (s.synPacket owner.env isNoAck).1.sendBuffer.unread = s.sendBuffer.unread := by
  have hheader := hasHeader_synPacket owner.env s isNoAck
  have hfits := owner.syn_fits
  have hoffset := hheader.payloadOffset_eq (by simp only [streamingMTU] at hfits; omega)
  set size := 22 + owner.env.identity.getFullLen + 2 + owner.env.identity.getSignatureLen with hsize
  set read := s.sendBuffer.read (streamingMTU - size) with hread
  have hlen : (s.synPacket owner.env isNoAck).2.len = size + read.2.length := rfl
  have hle : read.2.length ≤ streamingMTU - size := StringStream.length_read_le _ _
  have hoffset' : (s.synPacket owner.env isNoAck).2.payloadOffset = size := by
    rw [hoffset]
    omega
  -- the signature is written over its zeros, in front of the payload
  have hstands : StandsAt (s.synPacket owner.env isNoAck).2.buf size read.2 := by
    apply StandsAt.store_of_ge
    · exact standsAt_store _ _ _
    · rw [owner.length_sign]
  refine ⟨⟨rfl, rfl, ?_, ?_⟩, ?_⟩
  · rw [hoffset', hlen]
    omega
  · rw [hlen]
    omega
  · unfold Packet.payload
    rw [hoffset', hlen, Nat.add_sub_cancel_left, show slice _ size read.2.length = read.2 from hstands]
    exact StringStream.read_append_unread _ _

theorem payload_followOnPacket (env : StreamEnv) (s : Stream) (isNoAck : Bool) :
    (s.followOnPacket env isNoAck).2.Fits ∧
      (s.followOnPacket env isNoAck).2.payload ++
        (s.followOnPacket env isNoAck).1.sendBuffer.unread = s.sendBuffer.unread := by
  -- without options, the payload stands right behind the fixed part of the header
  have hoffset : (s.followOnPacket env isNoAck).2.payloadOffset = 22 :=
    (hasHeader_followOnPacket env s isNoAck).payloadOffset_eq (by decide)
  set read := s.sendBuffer.read (streamingMTU - 22) with hread
  have hlen : (s.followOnPacket env isNoAck).2.len = 22 + read.2.length := rfl
  have hle : read.2.length ≤ streamingMTU - 22 := StringStream.length_read_le _ _
  have hstands : StandsAt (s.followOnPacket env isNoAck).2.buf 22 read.2 := standsAt_store _ _ _
  refine ⟨⟨rfl, rfl, ?_, ?_⟩, ?_⟩
  · rw [hoffset, hlen]
    omega
  · rw [hlen]
    simp only [streamingMTU] at hle ⊢
    omega
  · unfold Packet.payload
    rw [hoffset, hlen, Nat.add_sub_cancel_left, show slice _ 22 read.2.length = read.2 from hstands]
    exact StringStream.read_append_unread _ _

/-- A FIN carries nothing. -/
theorem payload_closePacket (owner : Owner) (s : Stream) :
    (s.closePacket owner.env).Fits ∧ (s.closePacket owner.env).payload = [] := by
  have hfits := owner.syn_fits
  simp only [streamingMTU] at hfits
  have hoffset := (hasHeader_closePacket owner.env s).payloadOffset_eq (by omega)
  have hlen : (s.closePacket owner.env).len = 22 + owner.env.identity.getSignatureLen := rfl
  refine ⟨⟨rfl, rfl, ?_, ?_⟩, ?_⟩
  · rw [hoffset, hlen]
  · rw [hlen]
    simp only [streamingMTU]
    omega
  · unfold Packet.payload
    rw [hoffset, hlen, Nat.sub_self, slice_zero]

theorem isPlainAck_quickAckPacket (env : StreamEnv)
    (hsorted : KeyedSet.Sorted Packet.order s.savedPackets) :
    (s.quickAckPacket env).IsPlainAck := by
  have hcount : (quickAckNacks s.lastReceivedSequenceNumber s.savedPackets).1.length < 256 :=
    length_quickAckNacks hsorted
  have hheader : (s.quickAckPacket env).HasHeader s 0 _ _ _ 0 0 := standsAt_store env.newBuffer 0 _
  refine ⟨hheader.getSeqn_eq, fun hsyn => ?_⟩
  unfold Packet.isSYN at hsyn
  rw [hheader.getFlags_eq hcount] at hsyn
  exact absurd hsyn (by decide)

end Stream

/-! ## The log -/

/-- The packet is a FIN. -/
def Packet.isFIN (p : Packet) : Bool := Packet.hasFlag p.getFlags packetFlagClose

/-- The packets of `log` have been created from the bytes `handed`. -/
structure Ledger (log : List Packet) (handed : List UInt8) (o : Outbound) : Prop where
  sequenceNumber_eq : o.sequenceNumber = UInt32.ofNat log.length
  getSeqn_eq : ∀ {i : ℕ} {p : Packet}, log[i]? = some p → p.getSeqn = UInt32.ofNat i
  eq_zero_of_isSYN : ∀ {i : ℕ} {p : Packet}, log[i]? = some p → p.isSYN → i = 0
  fits : ∀ p ∈ log, p.Fits
  payload_eq_nil : ∀ p ∈ log, p.isFIN → p.payload = []
  handed_eq : (log.map Packet.payload).flatten ++ o.sendBuffer.unread = handed
  unread_eq_nil : o.sendBuffer.eof → o.sendBuffer.unread = []
  eq_nil_of_new : o.status = .new → log = []

/-- The packets of `log` have been created from the bytes `handed`, and nothing else is on its way. -/
structure Outbox (log : List Packet) (handed : List UInt8) (o : Outbound) : Prop
    extends Ledger log handed o where
  wire : ∀ p ∈ o.wire, p.IsPlainAck ∨ p.untimed ∈ log
  posted : ∀ p ∈ o.posted, p.untimed ∈ log
  sent : ∀ p ∈ o.sentPackets, p.untimed ∈ log
  sorted : KeyedSet.Sorted Packet.order o.sentPackets
  logged : ∀ p ∈ log, ∃ q ∈ o.wire ++ o.posted, q.untimed = p
  length_le : log.length ≤ o.wire.length + o.posted.length
  status_of_posted : o.posted ≠ [] → o.status ≠ .new ∧ o.status ≠ .open
  kept : log.length ≤ 2 ^ 32 → ∀ p ∈ log, ¬ p.isFIN →
    p.getSeqn ∈ o.released ∨ ∃ q ∈ o.sentPackets, q.untimed = p

variable {log : List Packet} {handed : List UInt8} {o o' : Outbound}

theorem getElem?_concat_cases {p q : Packet} {i : ℕ} (h : (log ++ [p])[i]? = some q) :
    log[i]? = some q ∨ i = log.length ∧ q = p := by
  rcases Nat.lt_trichotomy i log.length with hlt | rfl | hgt
  · rw [List.getElem?_append_left hlt] at h
    exact Or.inl h
  · rw [List.getElem?_concat_length] at h
    exact Or.inr ⟨rfl, (Option.some.inj h).symm⟩
  · rw [List.getElem?_eq_none (by rw [List.length_append, List.length_singleton]; omega)] at h
    cases h

/-- One more packet, with the next number and the next bytes. -/
theorem Ledger.append (h : Ledger log handed o) {p : Packet} (hseqn : p.getSeqn = o.sequenceNumber)
    (hsyn : p.isSYN → log = []) (hfits : p.Fits) (hfin : p.isFIN → p.payload = [])
    (hnext : o'.sequenceNumber = o.sequenceNumber + 1)
    (hbytes : p.payload ++ o'.sendBuffer.unread = o.sendBuffer.unread)
    (heof : o'.sendBuffer.eof → o'.sendBuffer.unread = []) (hne : o'.status ≠ .new) :
    Ledger (log ++ [p]) handed o' where
  sequenceNumber_eq := by
    rw [hnext, h.sequenceNumber_eq, List.length_append, UInt32.ofNat_add]
    rfl
  getSeqn_eq := by
    intro i q hq
    rcases getElem?_concat_cases hq with hq | ⟨rfl, rfl⟩
    · exact h.getSeqn_eq hq
    · rw [hseqn, h.sequenceNumber_eq]
  eq_zero_of_isSYN := by
    intro i q hq hisSYN
    rcases getElem?_concat_cases hq with hq | ⟨rfl, rfl⟩
    · exact h.eq_zero_of_isSYN hq hisSYN
    · rw [hsyn hisSYN, List.length_nil]
  fits := by
    intro q hq
    rcases List.mem_append.mp hq with hq | hq
    · exact h.fits q hq
    · rw [List.mem_singleton.mp hq]
      exact hfits
  payload_eq_nil := by
    intro q hq
    rcases List.mem_append.mp hq with hq | hq
    · exact h.payload_eq_nil q hq
    · rw [List.mem_singleton.mp hq]
      exact hfin
  handed_eq := by
    rw [List.map_append, List.flatten_append, List.map_singleton, List.flatten_singleton,
      List.append_assoc, hbytes, h.handed_eq]
  unread_eq_nil := heof
  eq_nil_of_new := fun hnew => absurd hnew hne

/-! ## `SendBuffer` -/

namespace Stream

variable {owner : Owner} {now : UInt64} {s t : Stream}

theorem isSYN_followOnPacket (env : StreamEnv) (s : Stream) (isNoAck : Bool) :
    ¬ (s.followOnPacket env isNoAck).2.isSYN ∧ ¬ (s.followOnPacket env isNoAck).2.isFIN := by
  unfold Packet.isSYN Packet.isFIN
  rw [(hasHeader_followOnPacket env s isNoAck).getFlags_eq (by decide)]
  exact ⟨by decide, by decide⟩

theorem isFIN_synPacket (env : StreamEnv) (isNoAck : Bool) :
    ¬ (s.synPacket env isNoAck).2.isFIN := by
  unfold Packet.isFIN
  rw [(hasHeader_synPacket env s isNoAck).getFlags_eq (by decide), synFlags]
  cases isNoAck <;> decide

theorem isSYN_closePacket (env : StreamEnv) (s : Stream) :
    ¬ (s.closePacket env).isSYN ∧ (s.closePacket env).isFIN := by
  unfold Packet.isSYN Packet.isFIN
  rw [(hasHeader_closePacket env s).getFlags_eq (by decide)]
  exact ⟨by decide, by decide⟩

/-- The loop of `SendBuffer`: the packets it creates are the next ones of the log. -/
theorem ledger_createPackets (owner : Owner) (isNoAck : Bool) (n : ℕ) {log : List Packet}
    (h : Ledger log handed s.outbound) :
    Ledger (log ++ (s.createPackets owner.env isNoAck n).2) handed
      (s.createPackets owner.env isNoAck n).1.outbound := by
  induction n generalizing s log with
  | zero =>
    rw [createPackets, List.append_nil]
    exact h
  | succ n ih =>
    rw [createPackets]
    split
    next hnew =>
      -- a new stream has sent nothing, so the SYN is the first packet of the log
      obtain ⟨hfits, hbytes⟩ := payload_synPacket owner s isNoAck
      have hsyn : Ledger (log ++ [(s.synPacket owner.env isNoAck).2]) handed
          (s.synPacket owner.env isNoAck).1.outbound :=
        h.append (hasHeader_synPacket owner.env s isNoAck).getSeqn_eq
          (fun _ => h.eq_nil_of_new hnew) hfits
          (fun hfin => absurd hfin (isFIN_synPacket owner.env isNoAck)) rfl hbytes
          (StringStream.unread_eq_nil_read _ h.unread_eq_nil)
          (show StreamStatus.open ≠ .new by decide)
      have hrest := ih hsyn
      rw [List.append_assoc] at hrest
      exact hrest
    next hne =>
      split
      · -- what is left of the buffer
        obtain ⟨hfits, hbytes⟩ := payload_followOnPacket owner.env s isNoAck
        obtain ⟨hnosyn, hnofin⟩ := isSYN_followOnPacket owner.env s isNoAck
        have hnext : Ledger (log ++ [(s.followOnPacket owner.env isNoAck).2]) handed
            (s.followOnPacket owner.env isNoAck).1.outbound :=
          h.append (hasHeader_followOnPacket owner.env s isNoAck).getSeqn_eq
            (fun hsyn => absurd hsyn hnosyn) hfits (fun hfin => absurd hfin hnofin) rfl hbytes
            (StringStream.unread_eq_nil_read _ h.unread_eq_nil) hne
        have hrest := ih hnext
        rw [List.append_assoc] at hrest
        exact hrest
      · rw [List.append_nil]
        exact h

end Stream

/-! ## Packets on their way -/

/-- Numbers that have not wrapped around increase along the log. -/
theorem Ledger.pairwise_order (h : Ledger log handed o) (hlen : log.length ≤ 2 ^ 32) :
    log.Pairwise fun p q => p.order < q.order := by
  have horder : ∀ {i : ℕ} (hi : i < log.length), log[i].order = i := fun hi => by
    unfold Packet.order
    rw [h.getSeqn_eq (List.getElem?_eq_getElem hi), UInt32.toNat_ofNat']
    omega
  rw [List.pairwise_iff_getElem]
  intro i j hi hj hij
  rwa [horder hi, horder hj]

theorem mem_foldl_insertPacket {packets sent : List Packet} {q : Packet}
    (hq : q ∈ packets.foldl (fun sent p => insertPacket p sent) sent) : q ∈ packets ∨ q ∈ sent := by
  induction packets generalizing sent with
  | nil => exact Or.inr hq
  | cons p packets ih =>
    rcases ih hq with hq | hq
    · exact Or.inl (List.mem_cons_of_mem _ hq)
    · rcases KeyedSet.eq_or_mem_of_mem_insert hq with rfl | hq
      · exact Or.inl List.mem_cons_self
      · exact Or.inr hq

theorem mem_foldl_insertPacket_of_mem {packets sent : List Packet} {q : Packet} (hq : q ∈ sent) :
    q ∈ packets.foldl (fun sent p => insertPacket p sent) sent := by
  induction packets generalizing sent with
  | nil => exact hq
  | cons p packets ih => exact ih (KeyedSet.mem_insert_of_mem hq)

theorem sorted_foldl_insertPacket {packets sent : List Packet}
    (h : KeyedSet.Sorted Packet.order sent) :
    KeyedSet.Sorted Packet.order (packets.foldl (fun sent p => insertPacket p sent) sent) := by
  induction packets generalizing sent with
  | nil => exact h
  | cons p packets ih => exact ih h.insert

/-- Packets with greater and greater numbers are appended. -/
theorem foldl_insertPacket_eq_append {packets sent : List Packet}
    (hsorted : (sent ++ packets).Pairwise fun p q => p.order < q.order) :
    packets.foldl (fun sent p => insertPacket p sent) sent = sent ++ packets := by
  induction packets generalizing sent with
  | nil => exact (List.append_nil sent).symm
  | cons p packets ih =>
    have hlast : insertPacket p sent = sent ++ [p] := by
      apply KeyedSet.insert_eq_append
      exact fun q hq => (List.pairwise_append.mp hsorted).2.2 q hq p List.mem_cons_self
    rw [List.append_cons] at hsorted ⊢
    rw [List.foldl_cons, hlast, ih hsorted]

/-- The numbers of new packets are not in use, so that all of them are kept. -/
theorem Outbox.exists_sent_of_mem (h : Outbox log handed o) (now : UInt64) {packets : List Packet}
    (hledger : Ledger (log ++ packets) handed o') (hlen : (log ++ packets).length ≤ 2 ^ 32) {p : Packet}
    (hp : p ∈ packets) :
    ∃ q ∈ (packets.map fun p => { p with sendTime := now }).foldl
      (fun sent p => insertPacket p sent) o.sentPackets, q.untimed = p := by
  have hpairwise := List.pairwise_append.mp (hledger.pairwise_order hlen)
  have hsorted : List.Pairwise (fun p q => p.order < q.order)
      (o.sentPackets ++ packets.map fun p => { p with sendTime := now }) := by
    refine List.pairwise_append.mpr ⟨h.sorted, ?_, ?_⟩
    · exact List.pairwise_map.mpr hpairwise.2.1
    · intro q hq r hr
      obtain ⟨r', hr', rfl⟩ := List.mem_map.mp hr
      exact hpairwise.2.2 q.untimed (h.sent q hq) r' hr'
  refine ⟨{ p with sendTime := now }, ?_, ?_⟩
  · rw [foldl_insertPacket_eq_append hsorted]
    exact List.mem_append_right _ (List.mem_map.mpr ⟨p, hp, rfl⟩)
  · rw [Packet.untimed_sendTime, (hledger.fits p (List.mem_append_right _ hp)).untimed_eq]

/-- The packets that `SendBuffer` has created are sent and kept. -/
theorem Outbox.transmit (h : Outbox log handed o) (now : UInt64) {packets : List Packet}
    (hledger : Ledger (log ++ packets) handed o')
    (hwire : o'.wire = o.wire ++ packets.map fun p => { p with sendTime := now })
    (hsent : o'.sentPackets = (packets.map fun p => { p with sendTime := now }).foldl
      (fun sent p => insertPacket p sent) o.sentPackets)
    (hposted : o'.posted = o.posted) (hreleased : o'.released = o.released)
    (hstatus : o'.posted ≠ [] → o'.status ≠ .new ∧ o'.status ≠ .open) :
    Outbox (log ++ packets) handed o' := by
  -- apart from the time at which they are sent, these are the packets of the log
  have huntimed : ∀ q ∈ packets.map fun p => { p with sendTime := now }, q.untimed ∈ packets := by
    intro q hq
    obtain ⟨p, hp, rfl⟩ := List.mem_map.mp hq
    rw [Packet.untimed_sendTime, (hledger.fits p (List.mem_append_right _ hp)).untimed_eq]
    exact hp
  refine { hledger with
    wire := ?_, posted := ?_, sent := ?_, sorted := ?_, logged := ?_, length_le := ?_,
    status_of_posted := hstatus, kept := ?_ }
  · intro p hp
    rw [hwire] at hp
    rcases List.mem_append.mp hp with hp | hp
    · exact (h.wire p hp).imp_right (List.mem_append_left _)
    · exact Or.inr (List.mem_append_right _ (huntimed p hp))
  · intro p hp
    rw [hposted] at hp
    exact List.mem_append_left _ (h.posted p hp)
  · intro p hp
    rw [hsent] at hp
    rcases mem_foldl_insertPacket hp with hp | hp
    · exact List.mem_append_right _ (huntimed p hp)
    · exact List.mem_append_left _ (h.sent p hp)
  · rw [hsent]
    exact sorted_foldl_insertPacket h.sorted
  · intro p hp
    rw [hwire, hposted]
    rcases List.mem_append.mp hp with hp | hp
    · obtain ⟨q, hq, hqp⟩ := h.logged p hp
      refine ⟨q, ?_, hqp⟩
      rcases List.mem_append.mp hq with hq | hq
      · exact List.mem_append_left _ (List.mem_append_left _ hq)
      · exact List.mem_append_right _ hq
    · refine ⟨{ p with sendTime := now }, ?_, ?_⟩
      · exact List.mem_append_left _ (List.mem_append_right _ (List.mem_map.mpr ⟨p, hp, rfl⟩))
      · rw [Packet.untimed_sendTime, (hledger.fits p (List.mem_append_right _ hp)).untimed_eq]
  · have hlen := h.length_le
    rw [hwire, hposted, List.length_append, List.length_append, List.length_map]
    omega
  · intro hlen p hp hnofin
    -- an old packet stays where it was
    rw [hreleased, hsent]
    rcases List.mem_append.mp hp with hp | hp
    · have hlen' : log.length ≤ 2 ^ 32 := by
        rw [List.length_append] at hlen
        omega
      refine (h.kept hlen' p hp hnofin).imp_right ?_
      rintro ⟨q, hq, hqp⟩
      exact ⟨q, mem_foldl_insertPacket_of_mem hq, hqp⟩
    · exact Or.inr (h.exists_sent_of_mem now hledger hlen hp)

theorem StreamStatus.closing_ne : StreamStatus.closing ≠ .new ∧ StreamStatus.closing ≠ .open :=
  ⟨by decide, by decide⟩

theorem StreamStatus.closed_ne : StreamStatus.closed ≠ .new ∧ StreamStatus.closed ≠ .open :=
  ⟨by decide, by decide⟩

theorem StreamStatus.reset_ne : StreamStatus.reset ≠ .new ∧ StreamStatus.reset ≠ .open :=
  ⟨by decide, by decide⟩

/-- `Outbox` looks at these fields only. -/
theorem Outbox.congr (h : Outbox log handed o)
    (hcreate : (o'.sequenceNumber, o'.sendBuffer) = (o.sequenceNumber, o.sendBuffer))
    (hpackets : (o'.wire, o'.posted, o'.sentPackets, o'.released) =
      (o.wire, o.posted, o.sentPackets, o.released))
    (hstatus : o'.status = o.status ∨ o'.status ≠ .new ∧ o'.status ≠ .open) :
    Outbox log handed o' := by
  simp only [Prod.mk.injEq] at hcreate hpackets
  obtain ⟨hseqn, hbuffer⟩ := hcreate
  obtain ⟨hwire, hposted, hsent, hreleased⟩ := hpackets
  refine ⟨⟨?_, h.getSeqn_eq, h.eq_zero_of_isSYN, h.fits, h.payload_eq_nil, ?_, ?_, ?_⟩, ?_, ?_, ?_, ?_, ?_, ?_, ?_, ?_⟩
  · rw [hseqn, h.sequenceNumber_eq]
  · rw [hbuffer, h.handed_eq]
  · rw [hbuffer]
    exact h.unread_eq_nil
  · -- only a status that is not new may be another one
    intro hnew
    rcases hstatus with heq | hne
    · exact h.eq_nil_of_new (heq ▸ hnew)
    · exact absurd hnew hne.1
  · rw [hwire]
    exact h.wire
  · rw [hposted]
    exact h.posted
  · rw [hsent]
    exact h.sent
  · rw [hsent]
    exact h.sorted
  · rw [hwire, hposted]
    exact h.logged
  · rw [hwire, hposted]
    exact h.length_le
  · intro hne
    rw [hposted] at hne
    rcases hstatus with heq | hstatus
    · rw [heq]
      exact h.status_of_posted hne
    · exact hstatus
  · rw [hreleased, hsent]
    exact h.kept

/-- The stream goes on with more packets in its log. -/
def Grown (log : List Packet) (handed : List UInt8) (o : Outbound) : Prop :=
  ∃ more, Outbox (log ++ more) handed o

theorem Outbox.grown (h : Outbox log handed o) : Grown log handed o := ⟨[], by rwa [List.append_nil]⟩

theorem Grown.of_append (more : List Packet) (h : Grown (log ++ more) handed o) :
    Grown log handed o := by
  obtain ⟨rest, h⟩ := h
  rw [List.append_assoc] at h
  exact ⟨more ++ rest, h⟩

namespace Stream

variable {owner : Owner} {now : UInt64} {s t : Stream}

/-- A FIN takes the next number. -/
theorem outbox_sendClose (owner : Owner) (h : Outbox log handed s.outbound)
    (hstatus : s.status ≠ .new ∧ s.status ≠ .open) :
    Outbox (log ++ [s.closePacket owner.env]) handed (s.sendClose owner.env).outbound := by
  obtain ⟨hfits, hpayload⟩ := payload_closePacket owner s
  obtain ⟨hnosyn, hfin⟩ := isSYN_closePacket owner.env s
  -- the FIN takes the next number, and no bytes
  have hledger : Ledger (log ++ [s.closePacket owner.env]) handed (s.sendClose owner.env).outbound :=
    h.toLedger.append (hasHeader_closePacket owner.env s).getSeqn_eq (fun hsyn => absurd hsyn hnosyn)
      hfits (fun _ => hpayload) rfl (by rw [hpayload]; rfl) h.unread_eq_nil hstatus.1
  refine { hledger with
    wire := ?_, posted := ?_, sent := ?_, sorted := h.sorted, logged := ?_, length_le := ?_,
    status_of_posted := fun _ => hstatus, kept := ?_ }
  · exact fun p hp => (h.wire p hp).imp_right (List.mem_append_left _)
  · intro p hp
    rcases List.mem_append.mp hp with hp | hp
    · exact List.mem_append_left _ (h.posted p hp)
    · rw [List.mem_singleton.mp hp, hfits.untimed_eq]
      exact List.mem_append_right _ (List.mem_singleton_self _)
  · exact fun p hp => List.mem_append_left _ (h.sent p hp)
  · intro p hp
    show ∃ q ∈ s.wire ++ (s.posted ++ [s.closePacket owner.env]), q.untimed = p
    rw [← List.append_assoc]
    rcases List.mem_append.mp hp with hp | hp
    · obtain ⟨q, hq, hqp⟩ := h.logged p hp
      exact ⟨q, List.mem_append_left _ hq, hqp⟩
    · rw [List.mem_singleton.mp hp]
      exact ⟨_, List.mem_append_right _ (List.mem_singleton_self _), hfits.untimed_eq⟩
  · have hlen := h.length_le
    show (log ++ [_]).length ≤ s.wire.length + (s.posted ++ [_]).length
    rw [List.length_append, List.length_append, List.length_singleton]
    change log.length ≤ s.wire.length + s.posted.length at hlen
    omega
  · intro hlen p hp hnofin
    rcases List.mem_append.mp hp with hp | hp
    · refine h.kept ?_ p hp hnofin
      rw [List.length_append] at hlen
      omega
    · -- nobody waits for a FIN
      rw [List.mem_singleton.mp hp] at hnofin
      exact absurd hfin hnofin

theorem outbox_terminate (h : Outbox log handed s.outbound) :
    Outbox log handed s.terminate.outbound := by
  rw [outbound_terminate]
  exact h.congr rfl rfl (Or.inl rfl)

theorem grown_closeClosing (h : Outbox log handed s.outbound) :
    Grown log handed (s.closeClosing owner.env).outbound := by
  unfold closeClosing
  split
  · have hclosed : Outbox log handed { s with status := .closed }.outbound :=
      h.congr rfl rfl (Or.inr StreamStatus.closed_ne)
    exact ⟨_, outbox_terminate (outbox_sendClose owner hclosed StreamStatus.closed_ne)⟩
  · exact h.grown

theorem grown_close (h : Outbox log handed s.outbound) :
    Grown log handed (s.close owner.env).outbound := by
  unfold close
  split
  · apply grown_closeClosing
    exact h.congr rfl rfl (Or.inr StreamStatus.closing_ne)
  next hreset =>
    exact ⟨_, outbox_terminate (outbox_sendClose owner h (hreset ▸ StreamStatus.reset_ne))⟩
  · exact grown_closeClosing h
  · exact (outbox_terminate h).grown
  · exact h.grown

/-- The end of `SendBuffer`, for a stream that has created `packets`. -/
theorem grown_sendCreated {packets : List Packet} (h : Outbox log handed o)
    (hledger : Ledger (log ++ packets) handed s.outbound)
    (hpackets : (s.wire, s.posted, s.sentPackets, s.released) =
      (o.wire, o.posted, o.sentPackets, o.released))
    (hstatus : s.posted ≠ [] → s.status ≠ .new ∧ s.status ≠ .open) :
    Grown log handed (s.sendCreated owner.env now packets).outbound := by
  simp only [Prod.mk.injEq] at hpackets
  obtain ⟨hwire, hposted, hsent, hreleased⟩ := hpackets
  unfold sendCreated
  dsimp only
  set base : Stream := sendPackets { s with
    isAckSendScheduled := false
    sentPackets := (packets.map fun p => { p with sendTime := now }).foldl
      (fun sent p => insertPacket p sent) s.sentPackets }
    (packets.map fun p => { p with sendTime := now }) with hbase
  have htransmit : Outbox (log ++ packets) handed base.outbound := by
    apply h.transmit now
    · exact ⟨hledger.sequenceNumber_eq, hledger.getSeqn_eq, hledger.eq_zero_of_isSYN, hledger.fits,
        hledger.payload_eq_nil, hledger.handed_eq, hledger.unread_eq_nil, hledger.eq_nil_of_new⟩
    · exact congrArg (· ++ packets.map fun p => { p with sendTime := now }) hwire
    · show _ = (packets.map fun p => { p with sendTime := now }).foldl _ o.sentPackets
      rw [← hsent]
      rfl
    · exact hposted
    · exact hreleased
    · exact hstatus
  -- the FIN of a closing stream follows the packets
  have hclose : Grown log handed
      (if base.status = .closing && base.sendBuffer.eof then base.sendClose owner.env
        else base).outbound := by
    split
    next hclosing =>
      have hclosing' : base.status = .closing := by simp_all
      have hfinal := outbox_sendClose owner htransmit
        (hclosing' ▸ StreamStatus.closing_ne)
      exact (hfinal.grown.of_append _).of_append _
    next => exact htransmit.grown.of_append _
  split
  · obtain ⟨more, hmore⟩ := hclose
    exact ⟨more, hmore.congr rfl rfl (Or.inl rfl)⟩
  · exact hclose

/-- `SendBuffer`. -/
theorem grown_sendBufferPackets (h : Outbox log handed s.outbound) :
    Grown log handed (s.sendBufferPackets owner.env now).outbound := by
  unfold sendBufferPackets
  dsimp only
  split
  · exact h.grown
  set isNoAck := decide (s.lastReceivedSequenceNumber < 0)
  set n := (s.windowSize - s.sentPackets.length).toNat
  have hledger := ledger_createPackets owner isNoAck n h.toLedger
  obtain ⟨sequenceNumber, status, sendBuffer, hcreate⟩ :=
    outbound_createPackets owner.env isNoAck n s
  obtain ⟨sendHandler, completions, hcomplete⟩ :=
    outbound_completeSend (s.createPackets owner.env isNoAck n).1
  set created := (s.createPackets owner.env isNoAck n).2
  set t := (s.createPackets owner.env isNoAck n).1.completeSend with ht
  have hledger' : Ledger (log ++ created) handed t.outbound := by
    rw [hcomplete]
    exact ⟨hledger.sequenceNumber_eq, hledger.getSeqn_eq, hledger.eq_zero_of_isSYN, hledger.fits,
        hledger.payload_eq_nil, hledger.handed_eq, hledger.unread_eq_nil, hledger.eq_nil_of_new⟩
  have hout : t.outbound =
      { s.outbound with sequenceNumber, status, sendBuffer, sendHandler, completions } := by
    rw [hcomplete, hcreate]
  have hpackets : (t.wire, t.posted, t.sentPackets, t.released) =
      (s.outbound.wire, s.outbound.posted, s.outbound.sentPackets, s.outbound.released) :=
    congrArg (fun o => (o.wire, o.posted, o.sentPackets, o.released)) hout
  have hposted : t.posted = s.posted := congrArg Outbound.posted hout
  have hstatus : t.posted ≠ [] → t.status ≠ .new ∧ t.status ≠ .open := by
    intro hne
    rw [hposted] at hne
    have hold : s.status ≠ .new ∧ s.status ≠ .open := h.status_of_posted hne
    rwa [ht, status_completeSend, status_createPackets owner.env isNoAck n hold.1]
  split
  next hempty =>
    -- nothing has been created
    have hnil : created = [] := List.isEmpty_iff.mp hempty
    simp only [Prod.mk.injEq] at hpackets
    obtain ⟨hwire, hposted, hsent, hreleased⟩ := hpackets
    refine (h.transmit now hledger' ?_ ?_ hposted hreleased hstatus).grown.of_append _
    · rw [hnil, List.map_nil, List.append_nil]
      exact hwire
    · rw [hnil]
      exact hsent
  next => exact grown_sendCreated h hledger' hpackets hstatus

/-! ## Stages -/

theorem outbox_releasePackets (now : UInt64) (packet : Packet) (h : Outbox log handed s.outbound) :
    Outbox log handed (s.releasePackets now packet).outbound := by
  obtain ⟨windowSize, released, kept, hout, -, hsub, hall⟩ :=
    outbound_releasePackets now s packet
  rw [hout]
  refine { h with
    sent := fun p hp => h.sent p (hsub.subset hp), sorted := h.sorted.sublist hsub, kept := ?_ }
  intro hlen p hp hnofin
  rcases h.kept hlen p hp hnofin with hreleased | ⟨q, hq, rfl⟩
  · exact Or.inl (List.mem_append_left _ hreleased)
  · rcases hall q hq with hq | hq
    · exact Or.inr ⟨q, hq, rfl⟩
    · exact Or.inl (List.mem_append_right _ hq)

theorem outbox_sendQuickAck (env : StreamEnv) (hsorted : KeyedSet.Sorted Packet.order s.savedPackets)
    (h : Outbox log handed s.outbound) : Outbox log handed (s.sendQuickAck env).outbound := by
  unfold sendQuickAck
  split
  · exact h
  · refine { h with wire := ?_, logged := ?_, length_le := ?_ }
    · intro p hp
      rcases List.mem_append.mp hp with hp | hp
      · exact h.wire p hp
      · rw [List.mem_singleton.mp hp]
        exact Or.inl (isPlainAck_quickAckPacket env hsorted)
    · -- the log is still on the wire, in front of the quick ack
      intro p hp
      obtain ⟨q, hq, hqp⟩ := h.logged p hp
      refine ⟨q, ?_, hqp⟩
      rcases List.mem_append.mp hq with hq | hq
      · exact List.mem_append_left _ (List.mem_append_left _ hq)
      · exact List.mem_append_right _ hq
    · have hlen := h.length_le
      show log.length ≤ (s.wire ++ [_]).length + s.posted.length
      rw [List.length_append]
      change log.length ≤ s.wire.length + s.posted.length at hlen
      omega

end Stream

namespace Stream

variable {owner : Owner} {now : UInt64} {s t : Stream}

theorem outbox_handleResendTimer (env : StreamEnv) (now : UInt64)
    (hattempts : s.numResendAttempts < maxNumResendAttempts)
    (h : Outbox log handed s.outbound) :
    Outbox log handed (s.handleResendTimer env now).outbound := by
  obtain ⟨windowSize, attempts, resent, hout, -, hresent⟩ :=
    outbound_handleResendTimer env now hattempts
  -- a packet that waits is the same packet, whether it is sent again or not
  have huntimed : ∀ p : Packet, (if s.isDue now p then { p with sendTime := now } else p).untimed =
      p.untimed := fun p => by split <;> rfl
  have horder : ∀ p : Packet, (if s.isDue now p then { p with sendTime := now } else p).order =
      p.order := fun p => by split <;> rfl
  rw [hout]
  refine { h with wire := ?_, sent := ?_, sorted := ?_, logged := ?_, length_le := ?_, kept := ?_ }
  · intro p hp
    rcases List.mem_append.mp hp with hp | hp
    · exact h.wire p hp
    · obtain ⟨q, hq, rfl⟩ := hresent p hp
      exact Or.inr (h.sent q hq)
  · intro p hp
    obtain ⟨q, hq, rfl⟩ := List.mem_map.mp hp
    rw [huntimed]
    exact h.sent q hq
  · refine List.pairwise_map.mpr (h.sorted.imp ?_)
    intro p q hpq
    rwa [horder, horder]
  · intro p hp
    obtain ⟨q, hq, hqp⟩ := h.logged p hp
    refine ⟨q, ?_, hqp⟩
    rcases List.mem_append.mp hq with hq | hq
    · exact List.mem_append_left _ (List.mem_append_left _ hq)
    · exact List.mem_append_right _ hq
  · have hlen := h.length_le
    show log.length ≤ (s.wire ++ resent).length + s.posted.length
    rw [List.length_append]
    change log.length ≤ s.wire.length + s.posted.length at hlen
    omega
  · intro hlen p hp hnofin
    refine (h.kept hlen p hp hnofin).imp_right ?_
    rintro ⟨q, hq, rfl⟩
    exact ⟨_, List.mem_map.mpr ⟨q, hq, rfl⟩, huntimed q⟩

theorem outbox_runPosted (h : Outbox log handed s.outbound) :
    Outbox log handed s.runPosted.outbound := by
  rcases outbound_runPosted s with hsame | ⟨p, rest, hposted, hout⟩
  · rwa [hsame]
  have hposted' : s.outbound.posted = p :: rest := hposted
  have hstatus : s.status ≠ .new ∧ s.status ≠ .open :=
    h.status_of_posted (by rw [hposted']; exact List.cons_ne_nil p rest)
  have hmem : ∀ q ∈ rest, q ∈ s.outbound.posted := fun q hq => by
    rw [hposted']
    exact List.mem_cons_of_mem p hq
  rw [if_neg hstatus.2] at hout
  rw [hout]
  -- one packet moves from those that are posted to the wire
  refine { h with
    wire := ?_, posted := fun q hq => h.posted q (hmem q hq), logged := ?_, length_le := ?_,
    status_of_posted := fun _ => hstatus }
  · intro q hq
    rcases List.mem_append.mp hq with hq | hq
    · exact h.wire q hq
    · rw [List.mem_singleton.mp hq]
      exact Or.inr (h.posted p (by rw [hposted']; exact List.mem_cons_self))
  · intro q hq
    show ∃ r ∈ s.wire ++ [p] ++ rest, r.untimed = q
    rw [← List.append_cons]
    have hlogged := h.logged q hq
    rwa [hposted'] at hlogged
  · have hlen := h.length_le
    show log.length ≤ (s.wire ++ [p]).length + rest.length
    rw [hposted', List.length_cons] at hlen
    rw [List.length_append, List.length_singleton]
    change log.length ≤ s.wire.length + (rest.length + 1) at hlen
    omega

/-- What each stage does to the log. -/
theorem grown_of_stage (hstage : Stage owner.env now s t) (h : Grown log handed s.outbound) :
    Grown log handed t.outbound := by
  obtain ⟨more, h⟩ := h
  apply Grown.of_append more
  cases hstage with
  | inward hsame =>
    rw [hsame]
    exact h.grown
  | learn packet =>
    obtain ⟨sendStreamID, hout⟩ := outbound_learnSendStreamID s packet
    rw [hout]
    exact Outbox.grown (h.congr rfl rfl (Or.inl rfl))
  | release packet => exact (outbox_releasePackets now packet h).grown
  | acked => exact Outbox.grown (h.congr rfl rfl (Or.inl rfl))
  | sendBuffer => exact grown_sendBufferPackets h
  | close => exact grown_close h
  | reset => exact Outbox.grown (h.congr rfl rfl (Or.inr StreamStatus.reset_ne))
  | quickAck hsorted => exact (outbox_sendQuickAck owner.env hsorted h).grown
  | resend hattempts => exact (outbox_handleResendTimer owner.env now hattempts h).grown
  | runPosted => exact (outbox_runPosted h).grown

end Stream

/-! ## Runs -/

/-- The bytes that an operation hands over. -/
def Operation.bytes : Operation → List UInt8
  | .send buf | .asyncSend buf _ => buf
  | _ => []

theorem Operation.bytes_eq_nil {op : Operation} (h : op.isStaged) : op.bytes = [] := by
  cases op <;> first | rfl | cases h

namespace Stream

variable {owner : Owner} {now : UInt64} {s : Stream}

theorem outbox_send (h : Outbox log handed s.outbound) (buf : List UInt8) :
    Outbox log (handed ++ buf) (s.send buf).outbound := by
  unfold send
  split
  next hempty =>
    rw [List.isEmpty_iff.mp hempty, List.append_nil]
    exact h
  next =>
    refine { h with handed_eq := ?_, unread_eq_nil := fun heof => by cases heof }
    show (log.map Packet.payload).flatten ++ (s.sendBuffer.unread ++ buf) = _
    rw [← List.append_assoc]
    exact congrArg (· ++ buf) h.handed_eq

theorem outbox_asyncSend (h : Outbox log handed s.outbound) (buf : List UInt8) (handler : ℕ) :
    Outbox log (handed ++ buf) (s.asyncSend buf handler).outbound := by
  unfold asyncSend
  split
  · apply outbox_send
    exact h.congr rfl rfl (Or.inl rfl)
  · apply outbox_send
    exact h.congr rfl rfl (Or.inl rfl)

/-- One operation. -/
theorem grown_step (owner : Owner) (now : UInt64) (h : Outbox log handed s.outbound)
    (hsaved : KeyedSet.Sorted Packet.order s.savedPackets) (op : Operation) :
    Grown log (handed ++ op.bytes) (s.step owner.env now op).outbound := by
  by_cases hop : op.isStaged
  · rw [Operation.bytes_eq_nil hop, List.append_nil]
    -- each stage of the operation keeps the log
    exact of_stages (P := Grown log handed) grown_of_stage (stages_step hop hsaved) h.grown
  · cases op with
    | send buf => exact (outbox_send h buf).grown
    | asyncSend buf handler => exact (outbox_asyncSend h buf handler).grown
    | terminate =>
      show Grown log (handed ++ []) s.terminate.outbound
      rw [List.append_nil]
      exact (outbox_terminate h).grown
    | _ => exact absurd rfl hop

/-- The bytes handed over in a run. -/
def handedBytes (ops : List TimedOperation) : List UInt8 := ops.flatMap fun op => op.2.bytes

theorem exists_outbox_exec (owner : Owner) {log : List Packet} {handed : List UInt8} (h : Outbox log handed s.outbound)
    (hsaved : KeyedSet.Sorted Packet.order s.savedPackets) (ops : List TimedOperation) :
    Grown log (handed ++ handedBytes ops) (exec (stepAt owner.env) s ops).outbound := by
  induction ops generalizing s log handed with
  | nil =>
    rw [handedBytes, List.flatMap_nil, List.append_nil]
    exact h.grown
  | cons op ops ih =>
    obtain ⟨more, hmore⟩ := grown_step owner op.1 h hsaved op.2
    have hrest := ih (s := s.stepAt owner.env op) hmore (sorted_step hsaved op.2)
    rw [List.append_assoc] at hrest
    exact hrest.of_append more

/-- The sending half of a new stream. -/
theorem outbox_new (recvStreamID : UInt32) (remoteIdentity : IdentityEx) :
    Outbox [] [] (outbound { recvStreamID, remoteIdentity }) where
  sequenceNumber_eq := rfl
  getSeqn_eq := by simp
  eq_zero_of_isSYN := by simp
  fits := by simp
  payload_eq_nil := by simp
  handed_eq := rfl
  unread_eq_nil := fun heof => by cases heof
  eq_nil_of_new := fun _ => rfl
  wire := by simp [outbound]
  posted := by simp [outbound]
  sent := by simp [outbound]
  sorted := List.Pairwise.nil
  logged := by simp
  length_le := Nat.zero_le _
  status_of_posted := fun hne => absurd rfl hne
  kept := by simp

/-- In every run of a new stream, whatever arrives and whenever its timers fire, the packets that it has
created have consecutive numbers and hold, with what is still unread, the bytes handed over; nothing else
but plain acknowledgements is sent, and what carries data waits until it is released. -/
theorem exists_outbox (owner : Owner) (recvStreamID : UInt32) (remoteIdentity : IdentityEx)
    (ops : List TimedOperation) :
    ∃ log, Outbox log (handedBytes ops)
      (exec (stepAt owner.env) { recvStreamID, remoteIdentity } ops).outbound := by
  obtain ⟨log, h⟩ := exists_outbox_exec owner (outbox_new recvStreamID remoteIdentity)
    List.Pairwise.nil ops
  exact ⟨log, h⟩

end Stream

end Streaming
