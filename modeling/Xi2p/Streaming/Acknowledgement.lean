import Xi2p.Streaming.Header
import Xi2p.Streaming.Receiver

/-!
# What a stream acknowledges

`Honest R s`: every packet that `s` has sent, or may still send, acknowledges only packets that `s`
has accepted, and `R` is what its peer has acknowledged so far. Two branches of the code break this:

* `SendBuffer` writes `m_LastReceivedSequenceNumber` into a follow-on packet exactly when it is
  negative. Before the SYN of the peer has come that is `-1`, on the wire the largest sequence
  number, and a follow-on packet has no NO_ACK flag (`blindFollowOn`).
* `SendQuickAck` acknowledges through the first missing packet when its NACKs do not fit
  (`nacksOverflow`).

`Honest.step`: an operation that takes neither branch keeps a stream honest. A FIN that is sent
before the SYN of the peer has come acknowledges everything as well (`isBlindClose`); it is told
apart on arrival.
-/

namespace Streaming

open Bytes Identity

/-! ## Acknowledged packets -/

namespace Packet

/-- The packet acknowledges the sequence number `n`. -/
def Acks (p : Packet) (n : UInt32) : Prop :=
  ¬ p.isNoAck ∧ n ≤ p.getAckThrough ∧ n ∉ p.nacks

/-- A FIN from a stream that has received nothing. -/
def isBlindClose (p : Packet) : Bool :=
  hasFlag p.getFlags packetFlagClose && p.getAckThrough == 0xFFFFFFFF

/-- What a stream that has accepted the numbers `accepted` puts on the wire. -/
structure Told (accepted : List UInt32) (p : Packet) : Prop where
  seqn_of_isSYN : p.isSYN → p.getSeqn = 0
  acks : p.isBlindClose ∨ ∀ n, p.Acks n → n ∈ accepted

theorem Told.mono {acc acc' : List UInt32} (hsub : acc ⊆ acc') {p : Packet} (h : p.Told acc) :
    p.Told acc' :=
  ⟨h.seqn_of_isSYN, h.acks.imp_right fun hacks n hn => hsub (hacks n hn)⟩

end Packet

/-! ## What has been received -/

/-- Everything up to the last sequence number, and everything saved, has been accepted. -/
structure Inbound.Complete (r : Inbound) : Prop where
  zero_mem : r.last ≠ -1 → 0 ∈ r.accepted
  received : 0 ∈ r.accepted → ∀ n ≤ r.last.toUInt32, n ∈ r.accepted
  saved : ∀ p ∈ r.saved, p.getSeqn ∈ r.accepted
  sorted : KeyedSet.Sorted Packet.order r.saved

namespace Inbound

variable {r : Inbound} {p : Packet}

theorem accepted_process : (r.process p).accepted = r.accepted ++ [p.getSeqn] := rfl

theorem last_process : (r.process p).last.toUInt32 = p.getSeqn := rfl

theorem Complete.erase (h : r.Complete) {rest : List Packet} (hsaved : r.saved = p :: rest) :
    { r with saved := rest }.Complete where
  zero_mem := h.zero_mem
  received := h.received
  saved := fun q hq => h.saved q (by rw [hsaved]; exact List.mem_cons_of_mem _ hq)
  sorted := by
    have hsorted := h.sorted
    rw [hsaved] at hsorted
    exact (List.pairwise_cons.mp hsorted).2

/-- Processing saved packets forgets nothing. -/
theorem accepted_subset_drain (saved : List Packet) (r : Inbound) :
    r.accepted ⊆ (r.drain saved).accepted := by
  induction saved generalizing r with
  | nil => exact fun _ hn => hn
  | cons p saved ih =>
    rw [drain]
    split
    · refine fun n hn => ih _ ?_
      exact List.mem_append_left _ hn
    · exact fun _ hn => hn

theorem accepted_subset_receive (r : Inbound) (p : Packet) :
    r.accepted ⊆ (r.receive p).accepted := by
  unfold receive
  split
  · exact fun _ hn => hn
  · split
    · refine fun n hn => accepted_subset_drain _ _ ?_
      exact List.mem_append_left _ hn
    · split
      · exact fun _ hn => hn
      · exact List.subset_append_left _ _

/-- A stream that has not received a SYN waits for the number `0`. -/
theorem Complete.last_eq_of_notMem (h : r.Complete) (h0 : 0 ∉ r.accepted) : r.last = -1 := by
  by_contra hne
  exact h0 (h.zero_mem hne)

theorem toNat_add_one_of_ne {a : UInt32} (h : a + 1 ≠ 0) : (a + 1).toNat = a.toNat + 1 := by
  have hlt := a.toNat_lt
  have hadd : (a + 1).toNat = (a.toNat + 1) % 2 ^ 32 := UInt32.toNat_add a 1
  have hne : (a + 1).toNat ≠ 0 := fun h0 => h (UInt32.toNat_inj.mp h0)
  omega

/-- `ProcessPacket` on the packet that comes next. -/
theorem Complete.process_next (h : r.Complete) (hnext : p.getSeqn = (r.last + 1).toUInt32) :
    (r.process p).Complete := by
  have hsucc : p.getSeqn = r.last.toUInt32 + 1 := hnext
  -- numbers up to the new one are old ones or the new one
  have hreceived : ∀ n ≤ p.getSeqn, n ∈ r.accepted ++ [p.getSeqn] := by
    intro n hn
    by_cases h0 : p.getSeqn = 0
    · have : n = p.getSeqn := by
        rw [h0] at hn ⊢
        exact UInt32.le_zero_iff.mp hn
      simp [this]
    · have hlast := toNat_add_one_of_ne (a := r.last.toUInt32) (by rwa [← hsucc])
      have hmem : 0 ∈ r.accepted := by
        by_contra hnot
        rw [h.last_eq_of_notMem hnot] at hsucc
        exact h0 hsucc
      by_cases hle : n ≤ r.last.toUInt32
      · exact List.mem_append_left _ (h.received hmem n hle)
      · have : n = p.getSeqn := by
          rw [UInt32.le_iff_toNat_le] at hn hle
          rw [hsucc, hlast] at hn
          apply UInt32.toNat_inj.mp
          rw [hsucc, hlast]
          omega
        simp [this]
  refine ⟨fun _ => hreceived 0 (UInt32.zero_le), fun _ => hreceived, ?_, h.sorted⟩
  exact fun q hq => List.mem_append_left _ (h.saved q hq)

/-- `ProcessPacket` on a SYN. -/
theorem Complete.process_syn (h : r.Complete) (hseqn : p.getSeqn = 0) :
    (r.process p).Complete := by
  have hmem : (0 : UInt32) ∈ r.accepted ++ [p.getSeqn] := by simp [hseqn]
  refine ⟨fun _ => hmem, ?_, fun q hq => List.mem_append_left _ (h.saved q hq), h.sorted⟩
  intro _ n hn
  rw [last_process, hseqn] at hn
  rw [UInt32.le_zero_iff.mp hn]
  exact hmem

theorem Complete.save (h : r.Complete) (hseqn : p.getSeqn ≠ 0) : (r.save p).Complete := by
  have hmono : ∀ {n}, n ∈ r.accepted → n ∈ r.accepted ++ [p.getSeqn] := List.mem_append_left _
  refine ⟨fun hne => hmono (h.zero_mem hne), ?_, ?_, h.sorted.insert⟩
  · intro h0 n hn
    rcases List.mem_append.mp h0 with h0 | h0
    · exact hmono (h.received h0 n hn)
    · exact absurd (List.mem_singleton.mp h0).symm hseqn
  · intro q hq
    rcases KeyedSet.eq_or_mem_of_mem_insert hq with rfl | hq
    · exact List.mem_append_right _ (List.mem_singleton_self _)
    · exact hmono (h.saved q hq)

end Inbound

/-! ## NACKs of a quick ack -/

namespace Stream

/-- Every number between `nextSeqn` and a saved packet is reported missing or saved. -/
theorem mem_fillNacks_or_mem {saved : List Packet} {nextSeqn n : UInt32} {numNacks : ℕ}
    (hfits : (fillNacks saved nextSeqn numNacks).2 = none) (hnext : nextSeqn ≤ n)
    (hle : ∃ q ∈ saved, n ≤ q.getSeqn) :
    n ∈ (fillNacks saved nextSeqn numNacks).1 ∨ ∃ q ∈ saved, q.getSeqn = n := by
  induction saved generalizing nextSeqn numNacks with
  | nil => simp at hle
  | cons p saved ih =>
    rw [fillNacks] at hfits ⊢
    dsimp only at hfits ⊢
    split at hfits
    next => simp at hfits
    next hroom =>
      rw [if_neg hroom]
      rw [UInt32.le_iff_toNat_le] at hnext
      rcases lt_trichotomy n.toNat p.getSeqn.toNat with hlt | heq | hgt
      · -- below the packet: one of its missing predecessors
        refine Or.inl (List.mem_append_left _ (List.mem_map.mpr ⟨n.toNat - nextSeqn.toNat, ?_, ?_⟩))
        · rw [List.mem_range]
          omega
        · apply UInt32.toNat_inj.mp
          have hn := n.toNat_lt
          rw [UInt32.toNat_add, UInt32.toNat_ofNat']
          omega
      · exact Or.inr ⟨p, List.mem_cons_self, UInt32.toNat_inj.mp heq.symm⟩
      · -- above it: the search goes on behind it
        obtain ⟨q, hq, hnq⟩ := hle
        rw [UInt32.le_iff_toNat_le] at hnq
        have hq' : q ∈ saved := by
          rcases List.mem_cons.mp hq with rfl | hq
          · omega
          · exact hq
        have hstep : p.getSeqn + 1 ≤ n := by
          have hlt := n.toNat_lt
          rw [UInt32.le_iff_toNat_le, UInt32.toNat_add]
          show (p.getSeqn.toNat + 1) % 2 ^ 32 ≤ n.toNat
          omega
        rcases ih hfits hstep ⟨q, hq', UInt32.le_iff_toNat_le.mpr hnq⟩ with hmem | ⟨q, hq, hqn⟩
        · exact Or.inl (List.mem_append_right _ hmem)
        · exact Or.inr ⟨q, List.mem_cons_of_mem _ hq, hqn⟩

/-- At most 255 NACKs, if the saved packets lie behind `nextSeqn`. -/
theorem length_fillNacks_of_le {saved : List Packet} (nextSeqn : UInt32) (numNacks : ℕ)
    (hsorted : KeyedSet.Sorted Packet.order saved)
    (hnext : ∀ q ∈ saved, nextSeqn.toNat ≤ q.order ∧ numNacks ≤ nextSeqn.toNat)
    (hnum : numNacks < 256) :
    numNacks + (fillNacks saved nextSeqn numNacks).1.length < 256 := by
  induction saved generalizing nextSeqn numNacks with
  | nil => simpa [fillNacks] using hnum
  | cons p saved ih =>
    rw [fillNacks]
    dsimp only
    split
    next => simpa using hnum
    next hroom =>
      obtain ⟨hle, hnum'⟩ := hnext p List.mem_cons_self
      unfold Packet.order at hle
      obtain ⟨hp, hsaved⟩ := List.pairwise_cons.mp hsorted
      have hlt := p.getSeqn.toNat_lt
      -- no wrap-around: there are at most as many NACKs as numbers
      have hsub : (p.getSeqn - nextSeqn).toNat = p.getSeqn.toNat - nextSeqn.toNat :=
        UInt32.toNat_sub_of_le _ _ (UInt32.le_iff_toNat_le.mpr hle)
      have hsum : (UInt32.ofNat numNacks + (p.getSeqn - nextSeqn)).toNat =
          numNacks + (p.getSeqn.toNat - nextSeqn.toNat) := by
        rw [UInt32.toNat_add, hsub, UInt32.toNat_ofNat']
        omega
      rw [hsum] at hroom
      have hrest := ih (p.getSeqn + 1) (numNacks + (p.getSeqn.toNat - nextSeqn.toNat)) hsaved ?_
        (by omega)
      · simp only [List.length_append, List.length_map, List.length_range]
        omega
      · intro q hq
        have hpq := hp q hq
        unfold Packet.order at hpq ⊢
        have hq32 := q.getSeqn.toNat_lt
        have hone : (p.getSeqn + 1).toNat = p.getSeqn.toNat + 1 := by
          rw [UInt32.toNat_add]
          show (p.getSeqn.toNat + 1) % 2 ^ 32 = _
          omega
        omega

/-- A quick ack holds at most 255 NACKs. -/
theorem length_quickAckNacks {last : Int32} {saved : List Packet}
    (hsorted : KeyedSet.Sorted Packet.order saved) :
    (quickAckNacks last saved).1.length < 256 := by
  unfold quickAckNacks
  split
  next =>
    cases saved with
    | nil => simp [fillNacks]
    | cons p saved =>
      obtain ⟨hp, hsaved⟩ := List.pairwise_cons.mp hsorted
      by_cases hle : (last + 1).toUInt32.toNat ≤ p.order
      · have hall := length_fillNacks_of_le (last + 1).toUInt32 0 hsorted ?_ (by omega)
        · simpa using hall
        · intro q hq
          rcases List.mem_cons.mp hq with rfl | hq
          · exact ⟨hle, Nat.zero_le _⟩
          · exact ⟨hle.trans (hp q hq).le, Nat.zero_le _⟩
      · -- a first packet below the expected number counts no NACKs
        have hzero : p.getSeqn.toNat - (last + 1).toUInt32.toNat = 0 := by
          unfold Packet.order at hle
          omega
        rw [fillNacks]
        dsimp only
        split
        next => simp
        next =>
          have hrest := length_fillNacks_of_le (p.getSeqn + 1) 0 hsaved ?_ (by omega)
          · simpa only [hzero, List.range_zero, List.map_nil, List.nil_append, List.length_nil,
              Nat.add_zero, Nat.zero_add] using hrest
          · intro q hq
            have hpq := hp q hq
            unfold Packet.order at hpq ⊢
            have hq32 := q.getSeqn.toNat_lt
            rw [UInt32.toNat_add]
            show (p.getSeqn.toNat + 1) % 2 ^ 32 ≤ _ ∧ _
            omega
  next => simp

/-! ## The packets of a stream tell the truth -/

variable (env : StreamEnv) (now : UInt64) {s : Stream}

theorem ne_neg_one_of_not_lt {l : Int32} (h : ¬ l < 0) : l ≠ -1 := by
  rintro rfl
  exact h (by decide)

theorem told_synPacket (hc : s.inbound.Complete) (hseqn : s.sequenceNumber = 0) :
    (s.synPacket env (decide (s.lastReceivedSequenceNumber < 0))).2.Told s.accepted := by
  have hheader := hasHeader_synPacket env s (decide (s.lastReceivedSequenceNumber < 0))
  refine ⟨fun _ => by rw [hheader.getSeqn_eq, hseqn], Or.inr ?_⟩
  rintro n ⟨hack, hle, -⟩
  by_cases hlast : s.lastReceivedSequenceNumber < 0
  · -- nothing received: the packet carries NO_ACK
    refine absurd ?_ hack
    unfold Packet.isNoAck
    rw [hheader.getFlags_eq (by decide), decide_eq_true hlast]
    decide
  · rw [hheader.getAckThrough_eq, sentAckThrough, decide_eq_false hlast] at hle
    rw [UInt32.le_zero_iff.mp hle]
    exact hc.zero_mem (ne_neg_one_of_not_lt hlast)

theorem told_followOnPacket (hc : s.inbound.Complete) (h0 : 0 ∈ s.accepted) (isNoAck : Bool) :
    (s.followOnPacket env isNoAck).2.Told s.accepted := by
  have hheader := hasHeader_followOnPacket env s isNoAck
  refine ⟨fun hsyn => ?_, Or.inr ?_⟩
  · unfold Packet.isSYN at hsyn
    rw [hheader.getFlags_eq (by decide)] at hsyn
    exact absurd hsyn (by decide)
  · rintro n ⟨-, hle, -⟩
    rw [hheader.getAckThrough_eq, sentAckThrough] at hle
    split at hle
    · exact hc.received h0 n hle
    · rwa [UInt32.le_zero_iff.mp hle]

theorem told_closePacket (hc : s.inbound.Complete) : (s.closePacket env).Told s.accepted := by
  have hheader := hasHeader_closePacket env s
  refine ⟨fun hsyn => ?_, ?_⟩
  · unfold Packet.isSYN at hsyn
    rw [hheader.getFlags_eq (by decide)] at hsyn
    exact absurd hsyn (by decide)
  · by_cases h0 : (0 : UInt32) ∈ s.accepted
    · refine Or.inr fun n hn => hc.received h0 n ?_
      have hle := hn.2.1
      rwa [hheader.getAckThrough_eq] at hle
    · have hlast : s.lastReceivedSequenceNumber = -1 := hc.last_eq_of_notMem h0
      left
      unfold Packet.isBlindClose
      rw [hheader.getFlags_eq (by decide), hheader.getAckThrough_eq, hlast]
      decide

/-- `last_received_seqn` is the last number received, or that of a saved packet above it. -/
theorem lastReceivedSeqn_cases (last : Int32) (saved : List Packet) :
    (last < lastReceivedSeqn last saved ∧
        ∃ q ∈ saved, lastReceivedSeqn last saved = q.getSeqn.toInt32) ∨
      ¬ last < lastReceivedSeqn last saved ∧ lastReceivedSeqn last saved = last := by
  have hirrefl : ¬ last < last := by
    rw [Int32.lt_iff_toInt_lt]
    exact lt_irrefl _
  unfold lastReceivedSeqn
  split
  next p hp =>
    split
    next hlt => exact Or.inl ⟨hlt, p, List.mem_of_getLast? hp, rfl⟩
    next => exact Or.inr ⟨hirrefl, rfl⟩
  next => exact Or.inr ⟨hirrefl, rfl⟩

/-- A quick ack whose NACKs fit acknowledges only what has been accepted. -/
theorem told_quickAckPacket (hc : s.inbound.Complete)
    (hfits : (quickAckNacks s.lastReceivedSequenceNumber s.savedPackets).2 = none)
    (hpos : ¬ lastReceivedSeqn s.lastReceivedSequenceNumber s.savedPackets < 0) :
    (s.quickAckPacket env).Told s.accepted := by
  have hheader := hasHeader_quickAckPacket env s hfits
  have hcount : (quickAckNacks s.lastReceivedSequenceNumber s.savedPackets).1.length < 256 :=
    length_quickAckNacks hc.sorted
  refine ⟨fun hsyn => ?_, Or.inr ?_⟩
  · unfold Packet.isSYN at hsyn
    rw [hheader.getFlags_eq hcount] at hsyn
    exact absurd hsyn (by decide)
  rintro n ⟨-, hle, hnack⟩
  rw [hheader.getAckThrough_eq] at hle
  rw [hheader.nacks_eq hcount] at hnack
  rcases lastReceivedSeqn_cases s.lastReceivedSequenceNumber s.savedPackets with
    ⟨hlt, q, hq, heq⟩ | ⟨-, heq⟩
  · by_cases hreceived : 0 ∈ s.accepted ∧ n ≤ s.lastReceivedSequenceNumber.toUInt32
    · exact hc.received hreceived.1 n hreceived.2
    · -- above the last number received: reported missing, or saved
      unfold quickAckNacks at hfits hnack
      rw [if_pos hlt] at hfits hnack
      have hnext : (s.lastReceivedSequenceNumber + 1).toUInt32 ≤ n := by
        show s.lastReceivedSequenceNumber.toUInt32 + 1 ≤ n
        by_cases h0 : (0 : UInt32) ∈ s.accepted
        · have hgt : ¬ n ≤ s.lastReceivedSequenceNumber.toUInt32 := fun hle =>
            hreceived ⟨h0, hle⟩
          have hn := n.toNat_lt
          rw [UInt32.le_iff_toNat_le] at hgt
          rw [UInt32.le_iff_toNat_le, UInt32.toNat_add]
          show (s.lastReceivedSequenceNumber.toUInt32.toNat + 1) % 2 ^ 32 ≤ n.toNat
          omega
        · have hlast : s.lastReceivedSequenceNumber = -1 := hc.last_eq_of_notMem h0
          rw [hlast]
          exact UInt32.zero_le
      rw [heq] at hle
      rcases mem_fillNacks_or_mem hfits hnext ⟨q, hq, hle⟩ with hmem | ⟨q', hq', rfl⟩
      · exact absurd hmem hnack
      · exact hc.saved q' hq'
  · rw [heq] at hpos hle
    exact hc.received (hc.zero_mem (ne_neg_one_of_not_lt hpos)) n hle

/-! ## Honest streams -/

/-- The state of a stream all of whose packets tell the truth, and which has released the numbers
`released`. A new stream has room for one packet and has sent none. -/
structure Honest (released : List UInt32) (s : Stream) : Prop where
  complete : s.inbound.Complete
  wire : ∀ p ∈ s.wire, p.Told s.accepted
  posted : ∀ p ∈ s.posted, p.Told s.accepted
  sent : ∀ p ∈ s.sentPackets, p.Told s.accepted
  released_eq : s.released = released
  new : s.status = .new → s.windowSize = 1 ∧ s.sentPackets = [] ∧ s.sequenceNumber = 0

theorem accepted_of_inbound_eq {s s' : Stream} (h : s'.inbound = s.inbound) :
    s'.accepted = s.accepted :=
  congrArg Inbound.accepted h

variable {R : List UInt32}

/-- `Honest` looks at these fields only. -/
theorem Honest.congr (h : Honest R s) {s' : Stream} (hinbound : s'.inbound = s.inbound)
    (hpackets : (s'.wire, s'.posted, s'.sentPackets, s'.released) =
      (s.wire, s.posted, s.sentPackets, s.released))
    (hstatus : (s'.status, s'.windowSize, s'.sequenceNumber) =
      (s.status, s.windowSize, s.sequenceNumber)) : Honest R s' := by
  have haccepted := accepted_of_inbound_eq hinbound
  simp only [Prod.mk.injEq] at hpackets hstatus
  obtain ⟨hwire, hposted, hsent, hreleased⟩ := hpackets
  obtain ⟨hst, hwindow, hseqn⟩ := hstatus
  refine ⟨?_, ?_, ?_, ?_, ?_, ?_⟩
  · rw [hinbound]
    exact h.complete
  · rw [hwire, haccepted]
    exact h.wire
  · rw [hposted, haccepted]
    exact h.posted
  · rw [hsent, haccepted]
    exact h.sent
  · rw [hreleased, h.released_eq]
  · rw [hst, hwindow, hsent, hseqn]
    exact h.new

theorem Honest.withStatus (h : Honest R s) {status : StreamStatus} (hne : status ≠ .new) :
    Honest R { s with status } :=
  ⟨h.complete, h.wire, h.posted, h.sent, h.released_eq, fun hnew => absurd hnew hne⟩

theorem Honest.sendPackets (h : Honest R s) {packets : List Packet}
    (htold : ∀ p ∈ packets, p.Told s.accepted) : Honest R (s.sendPackets packets) := by
  refine ⟨h.complete, ?_, h.posted, h.sent, h.released_eq, h.new⟩
  intro p hp
  rcases List.mem_append.mp hp with hp | hp
  · exact h.wire p hp
  · exact htold p hp

theorem told_insertPacket {acc : List UInt32} {p : Packet} {ps : List Packet} (hp : p.Told acc)
    (hps : ∀ q ∈ ps, q.Told acc) : ∀ q ∈ insertPacket p ps, q.Told acc := by
  intro q hq
  rcases KeyedSet.eq_or_mem_of_mem_insert hq with rfl | hq
  · exact hp
  · exact hps q hq

theorem Honest.sendPacket (h : Honest R s) {p : Packet} (hp : p.Told s.accepted) :
    Honest R (s.sendPacket p) := by
  have hbase : Honest R { s with isAckSendScheduled := false } := h.congr rfl rfl rfl
  have hsend := hbase.sendPackets (show ∀ q ∈ [p], q.Told s.accepted by simpa using hp)
  unfold Stream.sendPacket
  dsimp only
  split
  next hopen =>
    refine ⟨hsend.complete, hsend.wire, hsend.posted, told_insertPacket hp hsend.sent,
      hsend.released_eq, fun hnew => ?_⟩
    rw [hopen] at hnew
    cases hnew
  next => exact hsend

theorem Honest.sendClose (h : Honest R s) (hne : s.status ≠ .new) :
    Honest R (s.sendClose env) := by
  have htold : (s.closePacket env).Told s.accepted := told_closePacket env h.complete
  refine ⟨h.complete, h.wire, ?_, h.sent, h.released_eq, fun hnew => absurd hnew hne⟩
  intro p hp
  rcases List.mem_append.mp hp with hp | hp
  · exact h.posted p hp
  · rw [List.mem_singleton.mp hp]
    exact htold

theorem Honest.terminate (h : Honest R s) : Honest R s.terminate := by
  unfold Stream.terminate
  split <;> exact h.congr rfl rfl rfl

theorem Honest.closeClosing (h : Honest R s) : Honest R (s.closeClosing env) := by
  unfold Stream.closeClosing
  split
  · have hclosed : Honest R { s with status := .closed } := h.withStatus (by decide)
    exact (hclosed.sendClose env (show StreamStatus.closed ≠ .new by decide)).terminate
  · exact h

theorem Honest.close (h : Honest R s) : Honest R (s.close env) := by
  unfold Stream.close
  split
  · exact (h.withStatus (by decide)).closeClosing env
  next hreset => exact (h.sendClose env (by rw [hreset]; decide)).terminate
  · exact h.closeClosing env
  · exact h.terminate
  · exact h

/-! ## `SendBuffer` -/

/-- `SendBuffer` creates follow-on packets although the SYN of the peer has not come. -/
def blindFollowOn (s : Stream) : Bool :=
  !s.accepted.contains 0 && s.status != .new && s.isEstablished && !s.sendBuffer.eof &&
    decide (s.sentPackets.length < s.windowSize)

theorem status_createPackets (isNoAck : Bool) (n : ℕ) (h : s.status ≠ .new) :
    (s.createPackets env isNoAck n).1.status = s.status := by
  induction n generalizing s with
  | zero => rfl
  | succ n ih =>
    rw [Stream.createPackets, if_neg h]
    split
    · exact ih (s := (s.followOnPacket env isNoAck).1) h
    · rfl

/-- The loop of `SendBuffer` leaves a stream that is not new. -/
theorem status_createPackets_ne (isNoAck : Bool) {n : ℕ} (hn : 0 < n) :
    (s.createPackets env isNoAck n).1.status ≠ .new := by
  obtain ⟨n, rfl⟩ := Nat.exists_eq_succ_of_ne_zero hn.ne'
  by_cases hnew : s.status = .new
  · rw [Stream.createPackets, if_pos hnew]
    have hopen := status_createPackets env (s := (s.synPacket env isNoAck).1) isNoAck n
      (show StreamStatus.open ≠ .new by decide)
    dsimp only
    rw [hopen]
    show StreamStatus.open ≠ .new
    decide
  · rwa [status_createPackets env isNoAck _ hnew]

theorem Honest.createPackets (h : Honest R s) (n : ℕ)
    (hblind : 0 ∉ s.accepted → n = 0 ∨ s.status = .new ∧ n = 1 ∨
      s.status ≠ .new ∧ (s.isEstablished && !s.sendBuffer.eof) = false) :
    Honest R (s.createPackets env (decide (s.lastReceivedSequenceNumber < 0)) n).1 ∧
      ∀ p ∈ (s.createPackets env (decide (s.lastReceivedSequenceNumber < 0)) n).2,
        p.Told s.accepted := by
  induction n generalizing s with
  | zero => exact ⟨h, by simp [Stream.createPackets]⟩
  | succ n ih =>
    rw [Stream.createPackets]
    split
    next hnew =>
      -- a SYN; a stream that has received nothing has room for it alone
      have hopen : Honest R (s.synPacket env (decide (s.lastReceivedSequenceNumber < 0))).1 :=
        ⟨h.complete, h.wire, h.posted, h.sent, h.released_eq,
          fun hst => absurd hst (show StreamStatus.open ≠ .new by decide)⟩
      have htold := told_synPacket env h.complete (h.new hnew).2.2
      have hlast : 0 ∉ s.accepted → n = 0 := by
        intro h0
        rcases hblind h0 with hn | ⟨-, hn⟩ | ⟨hne, -⟩
        · cases hn
        · omega
        · exact absurd hnew hne
      obtain ⟨hrest, hpackets⟩ := ih hopen fun h0 => Or.inl (hlast h0)
      refine ⟨hrest, ?_⟩
      intro p hp
      rcases List.mem_cons.mp hp with rfl | hp
      · exact htold
      · exact hpackets p hp
    next hnew =>
      split
      next hgo =>
        have h0 : 0 ∈ s.accepted := by
          by_contra h0
          rcases hblind h0 with hn | ⟨hst, -⟩ | ⟨-, hstop⟩
          · omega
          · exact hnew hst
          · rw [hgo] at hstop
            cases hstop
        have hnext :
            Honest R (s.followOnPacket env (decide (s.lastReceivedSequenceNumber < 0))).1 :=
          ⟨h.complete, h.wire, h.posted, h.sent, h.released_eq, fun hst => absurd hst hnew⟩
        have htold := told_followOnPacket env h.complete h0
          (decide (s.lastReceivedSequenceNumber < 0))
        obtain ⟨hrest, hpackets⟩ := ih hnext (fun hnot => absurd h0 hnot)
        refine ⟨hrest, ?_⟩
        intro p hp
        rcases List.mem_cons.mp hp with rfl | hp
        · exact htold
        · exact hpackets p hp
      next => exact ⟨h, by simp⟩

theorem Honest.completeSend (h : Honest R s) : Honest R s.completeSend := by
  unfold Stream.completeSend
  split
  · split
    · exact h.congr rfl rfl rfl
    · exact h
  · exact h

theorem status_completeSend : s.completeSend.status = s.status := by
  unfold Stream.completeSend
  split
  · split <;> rfl
  · rfl

theorem told_foldl_insertPacket {acc : List UInt32} {packets sent : List Packet}
    (hpackets : ∀ p ∈ packets, p.Told acc) (hsent : ∀ p ∈ sent, p.Told acc) :
    ∀ p ∈ packets.foldl (fun sent p => insertPacket p sent) sent, p.Told acc := by
  induction packets generalizing sent with
  | nil => exact hsent
  | cons p packets ih =>
    apply ih
    · exact fun q hq => hpackets q (List.mem_cons_of_mem _ hq)
    · exact told_insertPacket (hpackets p List.mem_cons_self) hsent

theorem Honest.sendCreated (h : Honest R s) (hne : s.status ≠ .new) {packets : List Packet}
    (htold : ∀ p ∈ packets, p.Told s.accepted) : Honest R (s.sendCreated env now packets) := by
  have htimed : ∀ p ∈ packets.map fun p => { p with sendTime := now }, p.Told s.accepted := by
    intro p hp
    obtain ⟨q, hq, rfl⟩ := List.mem_map.mp hp
    exact ⟨(htold q hq).seqn_of_isSYN, (htold q hq).acks⟩
  have hinsert : Honest R { s with
      isAckSendScheduled := false
      sentPackets := (packets.map fun p => { p with sendTime := now }).foldl
        (fun sent p => insertPacket p sent) s.sentPackets } :=
    ⟨h.complete, h.wire, h.posted, told_foldl_insertPacket htimed h.sent, h.released_eq,
      fun hst => absurd hst hne⟩
  have hsend := hinsert.sendPackets htimed
  unfold Stream.sendCreated
  dsimp only
  -- the FIN of a closing stream follows the packets, then the resend timer is started
  split
  · split
    · exact (hsend.sendClose env hne).congr rfl rfl rfl
    · exact hsend.congr rfl rfl rfl
  · split
    · exact hsend.sendClose env hne
    · exact hsend

/-- `SendBuffer` sends the truth unless it creates follow-on packets blindly. -/
theorem Honest.sendBufferPackets (h : Honest R s) (hblind : s.blindFollowOn = false) :
    Honest R (s.sendBufferPackets env now) := by
  unfold Stream.sendBufferPackets
  dsimp only
  split
  · exact h
  next hroom =>
    have hn : 0 < (s.windowSize - s.sentPackets.length).toNat := by omega
    have hroom' : 0 ∉ s.accepted → (s.windowSize - s.sentPackets.length).toNat = 0 ∨
        s.status = .new ∧ (s.windowSize - s.sentPackets.length).toNat = 1 ∨
        s.status ≠ .new ∧ (s.isEstablished && !s.sendBuffer.eof) = false := by
      intro h0
      right
      by_cases hnew : s.status = .new
      · obtain ⟨hwindow, hsent, -⟩ := h.new hnew
        left
        rw [hwindow, hsent]
        exact ⟨hnew, rfl⟩
      · right
        refine ⟨hnew, ?_⟩
        have hlt : (s.sentPackets.length : ℤ) < s.windowSize := by omega
        unfold blindFollowOn at hblind
        simpa [h0, hnew, hlt] using hblind
    obtain ⟨hcreated, hpackets⟩ := h.createPackets env _ hroom'
    have hne := status_createPackets_ne env (s := s)
      (decide (s.lastReceivedSequenceNumber < 0)) hn
    have hinbound := inbound_completeSend (s.createPackets env
      (decide (s.lastReceivedSequenceNumber < 0)) (s.windowSize - s.sentPackets.length).toNat).1
    rw [inbound_createPackets] at hinbound
    split
    · exact hcreated.completeSend
    · apply hcreated.completeSend.sendCreated env now
      · rwa [status_completeSend]
      · rwa [accepted_of_inbound_eq hinbound]

theorem Honest.send (h : Honest R s) (buf : List UInt8) : Honest R (s.send buf) := by
  unfold Stream.send
  split
  · exact h
  · exact h.congr rfl rfl rfl

theorem Honest.asyncSend (h : Honest R s) (buf : List UInt8) (handler : ℕ) :
    Honest R (s.asyncSend buf handler) := by
  unfold Stream.asyncSend
  split
  · apply Honest.send
    exact h.congr rfl rfl rfl
  · apply Honest.send
    exact h.congr rfl rfl rfl

/-! ## `ProcessAck` -/

/-- The fields that decide what `SendBuffer` creates. -/
def sending (s : Stream) : StreamStatus × StringStream × UInt32 :=
  (s.status, s.sendBuffer, s.sendStreamID)

theorem sending_acknowledge (sent : Packet) : (s.acknowledge now sent).sending = s.sending := by
  unfold acknowledge
  dsimp only
  split
  · rfl
  · split <;> rfl

theorem sending_releaseAcked (packet : Packet) (sent : List Packet) :
    (releaseAcked now packet sent s).1.sending = s.sending := by
  induction sent generalizing s with
  | nil => rfl
  | cons p sent ih =>
    rw [releaseAcked]
    split
    · split
      · exact ih
      · rw [ih, sending_acknowledge]
    · rfl

theorem status_acknowledge (sent : Packet) : (s.acknowledge now sent).status = s.status :=
  congrArg Prod.fst (sending_acknowledge now sent)

theorem Honest.acknowledge (h : Honest R s) (hne : s.status ≠ .new) (sent : Packet) :
    Honest (R ++ [sent.getSeqn]) (s.acknowledge now sent) := by
  have hreleased : s.released ++ [sent.getSeqn] = R ++ [sent.getSeqn] := by rw [h.released_eq]
  unfold Stream.acknowledge
  dsimp only
  split
  · exact ⟨h.complete, h.wire, h.posted, h.sent, hreleased, fun hst => absurd hst hne⟩
  · split <;>
      exact ⟨h.complete, h.wire, h.posted, h.sent, hreleased, fun hst => absurd hst hne⟩

/-- The loop of `ProcessAck`: what it keeps was there, and what it releases is acknowledged. -/
theorem Honest.releaseAcked (h : Honest R s) (hne : s.status ≠ .new) (packet : Packet)
    (sent : List Packet) :
    (∀ p ∈ (Stream.releaseAcked now packet sent s).2, p ∈ sent) ∧
      ∃ R', Honest R' (Stream.releaseAcked now packet sent s).1 ∧
        ∀ n ∈ R', n ∈ R ∨ n ≤ packet.getAckThrough ∧ n ∉ packet.nacks := by
  induction sent generalizing R s with
  | nil => exact ⟨by simp [Stream.releaseAcked], R, h, fun n hn => Or.inl hn⟩
  | cons p sent ih =>
    rw [Stream.releaseAcked]
    split
    next hle =>
      split
      next hnack =>
        obtain ⟨hkept, hrest⟩ := ih h hne
        refine ⟨?_, hrest⟩
        intro q hq
        rcases List.mem_cons.mp hq with rfl | hq
        · exact List.mem_cons_self
        · exact List.mem_cons_of_mem _ (hkept q hq)
      next hnack =>
        obtain ⟨hkept, R', hrest, hreleased⟩ := ih (h.acknowledge now hne p)
          (by rwa [status_acknowledge])
        refine ⟨fun q hq => List.mem_cons_of_mem _ (hkept q hq), R', hrest, ?_⟩
        intro n hn
        rcases hreleased n hn with hn | hn
        · rcases List.mem_append.mp hn with hn | hn
          · exact Or.inl hn
          · rw [List.mem_singleton.mp hn]
            exact Or.inr ⟨hle, hnack⟩
        · exact Or.inr hn
    next => exact ⟨fun q hq => hq, R, h, fun n hn => Or.inl hn⟩

theorem Honest.releasePackets (h : Honest R s) (packet : Packet) :
    ∃ R', Honest R' (s.releasePackets now packet) ∧
      ∀ n ∈ R', n ∈ R ∨ n ≤ packet.getAckThrough ∧ n ∉ packet.nacks := by
  unfold Stream.releasePackets
  dsimp only
  by_cases hnew : s.status = .new
  · -- a new stream has nothing to release
    rw [(h.new hnew).2.1]
    refine ⟨R, ?_, fun n hn => Or.inl hn⟩
    exact ⟨h.complete, h.wire, h.posted, by simp [Stream.releaseAcked], h.released_eq,
      fun hst => ⟨(h.new hst).1, rfl, (h.new hst).2.2⟩⟩
  · obtain ⟨hkept, R', hrest, hreleased⟩ := h.releaseAcked now hnew packet s.sentPackets
    have hstatus : (Stream.releaseAcked now packet s.sentPackets s).1.status = s.status :=
      congrArg Prod.fst (sending_releaseAcked now packet s.sentPackets)
    have hinbound := inbound_releaseAcked now packet s.sentPackets s
    refine ⟨R', ⟨hrest.complete, hrest.wire, hrest.posted, ?_, hrest.released_eq, ?_⟩, hreleased⟩
    · intro p hp
      have hp' := h.sent p (hkept p hp)
      rwa [← accepted_of_inbound_eq hinbound] at hp'
    · intro hst
      exact absurd (hstatus.symm.trans hst) hnew

/-- `ProcessAck` releases a packet and then creates follow-on packets blindly. -/
def blindAck (s : Stream) (packet : Packet) : Bool :=
  acknowledges packet s.sentPackets && !s.accepted.contains 0 && s.status != .new &&
    s.isEstablished && !s.sendBuffer.eof

theorem blindFollowOn_releasePackets {packet : Packet} (hblind : s.blindAck packet = false)
    (hack : acknowledges packet s.sentPackets = true) :
    { s.releasePackets now packet with numResendAttempts := 0 }.blindFollowOn = false := by
  have hinbound := accepted_of_inbound_eq (inbound_releasePackets now s packet)
  have hsending := sending_releaseAcked (s := s) now packet s.sentPackets
  simp only [sending, Prod.mk.injEq] at hsending
  obtain ⟨hstatus, hbuffer, hid⟩ := hsending
  unfold blindAck at hblind
  unfold blindFollowOn
  rw [hack, Bool.true_and] at hblind
  show (!(s.releasePackets now packet).accepted.contains 0 &&
    (releaseAcked now packet s.sentPackets s).1.status != .new &&
    (releaseAcked now packet s.sentPackets s).1.sendStreamID != 0 &&
    !(releaseAcked now packet s.sentPackets s).1.sendBuffer.eof && _) = false
  rw [hinbound, hstatus, hbuffer, hid]
  unfold isEstablished at hblind
  rw [hblind, Bool.false_and]

theorem Honest.processAck (h : Honest R s) {packet : Packet}
    (hblind : s.blindAck packet = false) :
    ∃ R', Honest R' (s.processAck env now packet) ∧
      ∀ n ∈ R', n ∈ R ∨ n ≤ packet.getAckThrough ∧ n ∉ packet.nacks := by
  obtain ⟨R', hrelease, hreleased⟩ := h.releasePackets now packet
  refine ⟨R', ?_, hreleased⟩
  have hsend : Honest R' (s.releaseAndSend env now packet) := by
    unfold Stream.releaseAndSend
    split
    next hack =>
      have hbase : Honest R' { s.releasePackets now packet with numResendAttempts := 0 } :=
        hrelease.congr rfl rfl rfl
      exact hbase.sendBufferPackets env now (blindFollowOn_releasePackets now hblind hack)
    next => exact hrelease
  unfold Stream.processAck
  dsimp only
  split
  · exact hsend.close env
  · exact hsend

/-! ## Receiving -/

/-- The NACKs of a quick ack do not fit. -/
def nacksOverflow (last : Int32) (saved : List Packet) : Bool := (quickAckNacks last saved).2.isSome

theorem Honest.sendQuickAck (h : Honest R s)
    (hfits : nacksOverflow s.lastReceivedSequenceNumber s.savedPackets = false) :
    Honest R (s.sendQuickAck env) := by
  unfold Stream.sendQuickAck
  split
  next => exact h
  next hpos =>
    have hnone : (quickAckNacks s.lastReceivedSequenceNumber s.savedPackets).2 = none := by
      simpa [nacksOverflow] using hfits
    apply h.sendPackets
    intro p hp
    rw [List.mem_singleton.mp hp]
    exact told_quickAckPacket env h.complete hnone hpos

theorem Honest.processOptions (h : Honest R s) (packet : Packet) :
    Honest R (s.processOptions env packet).1 := by
  have hfrom : Honest R (s.processFrom env packet).1 := h.congr rfl rfl rfl
  unfold Stream.processOptions
  dsimp only
  split
  · have hbase : Honest R { (s.processFrom env packet).1 with
        remoteIdentity := (s.processFrom env packet).1.remoteIdentity.withVerifier } :=
      hfrom.congr rfl rfl rfl
    split
    · exact hbase
    · exact hbase.close env
  · exact hfrom

theorem Honest.processPacket (h : Honest R s) {packet : Packet}
    (hcomplete : (s.inbound.process packet).Complete) :
    Honest R (s.processPacket env packet) := by
  have hoptions := h.processOptions env packet
  have hinbound := inbound_processOptions env s packet
  have hqueue := inbound_processPacket env s packet
  -- accepting the packet leaves what was told before true
  have hmono : ∀ {p : Packet}, p.Told (s.processOptions env packet).1.accepted →
      p.Told ((s.processOptions env packet).1.accepted ++ [packet.getSeqn]) := fun hp =>
    hp.mono (List.subset_append_left _ _)
  rw [← hinbound] at hcomplete
  unfold Stream.processPacket
  dsimp only
  split
  · apply Honest.close
    exact ⟨hcomplete, fun p hp => hmono (hoptions.wire p hp),
      fun p hp => hmono (hoptions.posted p hp), fun p hp => hmono (hoptions.sent p hp),
      hoptions.released_eq, fun hst => absurd hst (show StreamStatus.reset ≠ .new by decide)⟩
  · exact ⟨hcomplete, fun p hp => hmono (hoptions.wire p hp),
      fun p hp => hmono (hoptions.posted p hp), fun p hp => hmono (hoptions.sent p hp),
      hoptions.released_eq, hoptions.new⟩

theorem Honest.processSaved (h : Honest R s) {saved : List Packet}
    (hsaved : s.savedPackets = saved) : Honest R (s.processSaved env saved) := by
  induction saved generalizing s with
  | nil => exact h
  | cons p saved ih =>
    rw [Stream.processSaved]
    split
    next hnext =>
      have herase : Honest R { s with savedPackets := saved } :=
        ⟨h.complete.erase (p := p) hsaved, h.wire, h.posted, h.sent, h.released_eq, h.new⟩
      apply ih
      · apply herase.processPacket env
        exact herase.complete.process_next hnext
      · exact congrArg Inbound.saved
          (inbound_processPacket env { s with savedPackets := saved } p)
    next => exact h

theorem Honest.handleInSequence (h : Honest R s) {packet : Packet}
    (hcomplete : (s.inbound.process packet).Complete)
    (hzero : packet.isSYN → packet.getSeqn = 0) :
    Honest R (s.handleInSequence env now packet) := by
  have hprocess := h.processPacket env hcomplete
  have hsaved := hprocess.processSaved env rfl
  have hinbound := inbound_processSaved env (s.processPacket env packet).savedPackets
    (s.processPacket env packet)
  unfold Stream.handleInSequence
  dsimp only
  split
  · exact hsaved.congr rfl rfl rfl
  · split
    next hsyn =>
      -- the SYN has been accepted, so nothing is sent blindly
      apply hsaved.sendBufferPackets env now
      have hmem : (0 : UInt32) ∈ ((s.processPacket env packet).processSaved env
          (s.processPacket env packet).savedPackets).accepted := by
        have hsub := Inbound.accepted_subset_drain (s.processPacket env packet).savedPackets
          (s.processPacket env packet).inbound
        have hfirst : (0 : UInt32) ∈ (s.processPacket env packet).inbound.accepted := by
          rw [inbound_processPacket, Inbound.accepted_process, hzero hsyn]
          simp
        have := hsub hfirst
        rwa [← hinbound] at this
      simp [blindFollowOn, hmem]
    next => exact hsaved

/-- The quick ack that answers a packet out of sequence has too many NACKs. -/
def quickAckOverflows (s : Stream) (packet : Packet) : Bool :=
  !packet.isSYN && packet.getSeqn != 0 &&
    decide (packet.getSeqn.toInt32 ≠ s.lastReceivedSequenceNumber + 1) &&
    if packet.getSeqn.toInt32 ≤ s.lastReceivedSequenceNumber then
      nacksOverflow s.lastReceivedSequenceNumber s.savedPackets
    else
      decide (0 ≤ s.lastReceivedSequenceNumber) &&
        nacksOverflow s.lastReceivedSequenceNumber (insertPacket packet s.savedPackets)

theorem Honest.handleOutOfSequence (h : Honest R s) {packet : Packet}
    (hzero : packet.getSeqn ≠ 0)
    (hfits : (if packet.getSeqn.toInt32 ≤ s.lastReceivedSequenceNumber then
        nacksOverflow s.lastReceivedSequenceNumber s.savedPackets
      else
        decide (0 ≤ s.lastReceivedSequenceNumber) &&
          nacksOverflow s.lastReceivedSequenceNumber
            (insertPacket packet s.savedPackets)) = false) :
    Honest R (s.handleOutOfSequence env packet) := by
  unfold Stream.handleOutOfSequence
  dsimp only
  by_cases hdup : packet.getSeqn.toInt32 ≤ s.lastReceivedSequenceNumber
  · rw [if_pos hdup] at hfits ⊢
    exact h.sendQuickAck env hfits
  · rw [if_neg hdup] at hfits ⊢
    have hmono : ∀ {p : Packet}, p.Told s.accepted →
        p.Told (s.accepted ++ [packet.getSeqn]) := fun hp =>
      hp.mono (List.subset_append_left _ _)
    have hsave : Honest R (s.savePacket packet) :=
      ⟨h.complete.save hzero, fun p hp => hmono (h.wire p hp), fun p hp => hmono (h.posted p hp),
        fun p hp => hmono (h.sent p hp), h.released_eq, h.new⟩
    split
    next hpos =>
      have hbase : Honest R { s.savePacket packet with isAckSendScheduled := false } :=
        hsave.congr rfl rfl rfl
      apply hbase.sendQuickAck env
      have hpos' : 0 ≤ s.lastReceivedSequenceNumber := hpos
      rw [decide_eq_true hpos', Bool.true_and] at hfits
      exact hfits
    next => exact hsave.congr rfl rfl rfl

/-- The branches that acknowledge what has not been received, for one incoming packet. -/
def takesFalseAckBranchOn (s : Stream) (packet : Packet) : Bool :=
  packet.isBlindClose || (!packet.isNoAck && (s.learnSendStreamID packet).blindAck packet) ||
    s.quickAckOverflows packet

theorem Honest.beforeSequence (h : Honest R s) {packet : Packet}
    (hblind : (!packet.isNoAck && (s.learnSendStreamID packet).blindAck packet) = false) :
    ∃ R', Honest R' (s.beforeSequence env now packet) ∧
      ∀ n ∈ R', n ∈ R ∨ packet.Acks n := by
  have hlearn : Honest R (s.learnSendStreamID packet) := by
    unfold Stream.learnSendStreamID
    split
    · exact h.congr rfl rfl rfl
    · exact h
  unfold Stream.beforeSequence
  split
  next => exact ⟨R, hlearn, fun n hn => Or.inl hn⟩
  next hack =>
    have hblind' : (s.learnSendStreamID packet).blindAck packet = false := by
      simpa [hack] using hblind
    obtain ⟨R', hprocess, hreleased⟩ := hlearn.processAck env now hblind'
    exact ⟨R', hprocess, fun n hn => (hreleased n hn).imp_right fun hn => ⟨hack, hn⟩⟩

/-- A packet whose SYN flag tells the truth keeps an honest stream honest, and it releases only
what it acknowledges. -/
theorem Honest.handleNextPacket (h : Honest R s) {packet : Packet}
    (hsyn : packet.isSYN → packet.getSeqn = 0)
    (hbranch : s.takesFalseAckBranchOn packet = false) :
    ∃ R', Honest R' (s.handleNextPacket env now packet) ∧
      ∀ n ∈ R', n ∈ R ∨ packet.Acks n := by
  unfold takesFalseAckBranchOn at hbranch
  rw [Bool.or_eq_false_iff, Bool.or_eq_false_iff] at hbranch
  obtain ⟨⟨-, hblind⟩, hoverflow⟩ := hbranch
  obtain ⟨R', hbefore, hreleased⟩ := h.beforeSequence env now hblind
  refine ⟨R', ?_, hreleased⟩
  have hinbound := inbound_beforeSequence env now s packet
  have hlast : (s.beforeSequence env now packet).lastReceivedSequenceNumber =
      s.lastReceivedSequenceNumber := congrArg Inbound.last hinbound
  have hsaved : (s.beforeSequence env now packet).savedPackets = s.savedPackets :=
    congrArg Inbound.saved hinbound
  unfold Stream.handleNextPacket
  dsimp only
  split
  next => exact hbefore
  next hplain =>
    by_cases hisSYN : packet.isSYN
    · rw [if_pos (by simp [hisSYN])]
      exact hbefore.handleInSequence env now (hbefore.complete.process_syn (hsyn hisSYN)) hsyn
    have hzero : packet.getSeqn ≠ 0 := by
      intro h0
      apply hplain
      rw [h0]
      simp only [hisSYN]
      rfl
    split
    next hnext =>
      have hnext' : packet.getSeqn.toInt32 =
          (s.beforeSequence env now packet).lastReceivedSequenceNumber + 1 := by
        simpa [hisSYN] using hnext
      apply hbefore.handleInSequence env now _ hsyn
      apply hbefore.complete.process_next
      exact congrArg Int32.toUInt32 hnext'
    next hnext =>
      have hne : packet.getSeqn.toInt32 ≠ s.lastReceivedSequenceNumber + 1 := by
        rw [hlast] at hnext
        simpa [hisSYN] using hnext
      apply hbefore.handleOutOfSequence env hzero
      rw [hlast, hsaved]
      unfold quickAckOverflows at hoverflow
      simpa only [hisSYN, hzero, hne, ne_eq, not_false_eq_true, decide_true, Bool.not_false,
        Bool.true_and, bne_iff_ne, Bool.and_true, bne, beq_eq_false_iff_ne.mpr hzero]
        using hoverflow

/-! ## Timers and posted packets -/

theorem Honest.handleResendTimer (h : Honest R s) : Honest R (s.handleResendTimer env now) := by
  have hdue : ∀ p ∈ (s.sentPackets.filter (s.isDue now)).map fun p => { p with sendTime := now },
      p.Told s.accepted := by
    intro p hp
    obtain ⟨q, hq, rfl⟩ := List.mem_map.mp hp
    have hq' := h.sent q (List.mem_of_mem_filter hq)
    exact ⟨hq'.seqn_of_isSYN, hq'.acks⟩
  have hsent : ∀ p ∈ s.sentPackets.map fun p =>
      if s.isDue now p then { p with sendTime := now } else p, p.Told s.accepted := by
    intro p hp
    obtain ⟨q, hq, rfl⟩ := List.mem_map.mp hp
    have hq' := h.sent q hq
    split
    · exact ⟨hq'.seqn_of_isSYN, hq'.acks⟩
    · exact hq'
  unfold Stream.handleResendTimer
  dsimp only
  split
  · exact (h.withStatus (by decide)).close env
  · by_cases hnew : s.status = .new
    · -- a new stream has nothing to resend
      rw [(h.new hnew).2.1]
      have hnil := h.new hnew
      exact ⟨h.complete, h.wire, h.posted, by simp, h.released_eq,
        fun _ => ⟨hnil.1, rfl, hnil.2.2⟩⟩
    · split
      · exact ⟨h.complete, h.wire, h.posted, hsent, h.released_eq, fun hst => absurd hst hnew⟩
      · refine ⟨h.complete, ?_, h.posted, hsent, h.released_eq, fun hst => absurd hst hnew⟩
        intro p hp
        rcases List.mem_append.mp hp with hp | hp
        · exact h.wire p hp
        · exact hdue p hp

/-- The acknowledgement timer sends a quick ack that has too many NACKs. -/
def ackTimerOverflows (s : Stream) : Bool :=
  s.isAckSendScheduled && s.status == .open &&
    nacksOverflow s.lastReceivedSequenceNumber s.savedPackets

theorem Honest.handleAckSendTimer (h : Honest R s) (hfits : s.ackTimerOverflows = false) :
    Honest R (s.handleAckSendTimer env) := by
  unfold Stream.handleAckSendTimer
  split
  next hscheduled =>
    split
    · exact (h.withStatus (by decide)).close env
    · dsimp only
      split
      next hopen =>
        have hfits' : nacksOverflow s.lastReceivedSequenceNumber s.savedPackets = false := by
          simpa [ackTimerOverflows, hscheduled, hopen] using hfits
        exact (h.sendQuickAck env hfits').congr rfl rfl rfl
      next => exact h.congr rfl rfl rfl
  next => exact h

theorem Honest.runPosted (h : Honest R s) : Honest R s.runPosted := by
  unfold Stream.runPosted
  split
  next => exact h
  next p rest hposted =>
    have hrest : Honest R { s with posted := rest } :=
      ⟨h.complete, h.wire, fun q hq => h.posted q (by rw [hposted]; exact List.mem_cons_of_mem _ hq),
        h.sent, h.released_eq, h.new⟩
    apply hrest.sendPacket
    exact h.posted p (by rw [hposted]; exact List.mem_cons_self)

theorem Honest.readSome (h : Honest R s) (len : ℕ) : Honest R (s.readSome len) :=
  ⟨⟨h.complete.zero_mem, h.complete.received, h.complete.saved, h.complete.sorted⟩, h.wire,
    h.posted, h.sent, h.released_eq, h.new⟩

/-! ## Operations -/

/-- The operation takes one of the branches that acknowledge what has not been received. -/
def takesFalseAckBranch (s : Stream) : Operation → Bool
  | .handleNextPacket packet => s.takesFalseAckBranchOn packet
  | .sendBuffer => s.blindFollowOn
  | .handleAckSendTimer => s.ackTimerOverflows
  | _ => false

/-- One operation of an honest stream. -/
theorem Honest.step (h : Honest R s) {op : Operation}
    (hsyn : ∀ packet, op = .handleNextPacket packet → packet.isSYN → packet.getSeqn = 0)
    (hbranch : s.takesFalseAckBranch op = false) :
    ∃ R', Honest R' (s.step env now op) ∧
      ∀ n ∈ R', n ∈ R ∨ ∃ packet, op = .handleNextPacket packet ∧ packet.Acks n := by
  -- only an incoming packet releases anything
  have hkeep : Honest R (s.step env now op) → ∃ R', Honest R' (s.step env now op) ∧
      ∀ n ∈ R', n ∈ R ∨ ∃ packet, op = .handleNextPacket packet ∧ packet.Acks n := fun h' =>
    ⟨R, h', fun n hn => Or.inl hn⟩
  cases op with
  | handleNextPacket packet =>
    obtain ⟨R', h', hreleased⟩ := h.handleNextPacket env now (hsyn packet rfl) hbranch
    exact ⟨R', h', fun n hn => (hreleased n hn).imp_right fun hn => ⟨packet, rfl, hn⟩⟩
  | send buf => exact hkeep (h.send buf)
  | asyncSend buf handler => exact hkeep (h.asyncSend buf handler)
  | sendBuffer => exact hkeep (h.sendBufferPackets env now hbranch)
  | sendPacket => exact hkeep h.runPosted
  | readSome len => exact hkeep (h.readSome len)
  | close => exact hkeep (h.close env)
  | terminate => exact hkeep h.terminate
  | handleResendTimer => exact hkeep (h.handleResendTimer env now)
  | handleAckSendTimer => exact hkeep (h.handleAckSendTimer env hbranch)

end Stream

end Streaming
