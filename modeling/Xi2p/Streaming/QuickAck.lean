import Xi2p.Lib.Gaps
import Xi2p.Streaming.Acknowledgement
import Xi2p.Streaming.Delivery

/-!
# What the peer releases for a quick ack

The NACKs that `SendQuickAck` of `client/api/streaming.cc` writes are the gaps between the saved
packets. If they do not fit, the packet acknowledges through the first number of the gap that is left
out, and with it a packet that has not arrived.

* `Stream.fillNacks_of_length_lt`, `Stream.fillNacks_of_le_length`: the NACKs with and without the
  truncation.
* `Stream.released_processAck`: the numbers that `ProcessAck` releases.
* `Stream.quickAckCodec_iff`: the streams whose quick acks are read as they were meant.
-/

namespace Streaming

open Bytes Identity Gaps

namespace Stream

/-! ## The NACKs -/

section FillNacks

variable {p : Packet} {saved : List Packet} {nextSeqn : UInt32} {numNacks : ℕ}

/-- The missing numbers in front of one saved packet. -/
theorem missing_eq_gap :
    ((List.range (p.getSeqn.toNat - nextSeqn.toNat)).map fun i => nextSeqn + UInt32.ofNat i) =
      (List.range' nextSeqn.toNat (p.order - nextSeqn.toNat)).map UInt32.ofNat := by
  rw [List.range'_eq_map_range, List.map_map]
  refine List.map_congr_left fun i hi => ?_
  apply UInt32.toNat_inj.mp
  have hlt := p.getSeqn.toNat_lt
  have hi' := List.mem_range.mp hi
  simp only [Function.comp_apply, UInt32.toNat_add, UInt32.toNat_ofNat']
  omega

theorem toNat_roomNeeded (hle : nextSeqn.toNat ≤ p.order) (hnum : numNacks ≤ nextSeqn.toNat) :
    (UInt32.ofNat numNacks + (p.getSeqn - nextSeqn)).toNat =
      numNacks + (p.order - nextSeqn.toNat) := by
  unfold Packet.order at hle ⊢
  have hlt := p.getSeqn.toNat_lt
  rw [UInt32.toNat_add, UInt32.toNat_sub_of_le _ _ (UInt32.le_iff_toNat_le.mpr hle),
    UInt32.toNat_ofNat']
  omega

/-- Where the next gap starts. -/
theorem toNat_seqn_add_one (h : p.order < 2 ^ 31) : (p.getSeqn + 1).toNat = p.order + 1 := by
  unfold Packet.order at h ⊢
  rw [UInt32.toNat_add]
  show (p.getSeqn.toNat + 1) % 2 ^ 32 = _
  omega

/-- The NACKs are the gaps if there are fewer than `256` of them; otherwise they end at the first
number of a gap. -/
theorem fillNacks_cases (hsorted : KeyedSet.Sorted Packet.order saved)
    (hnext : ∀ q ∈ saved, nextSeqn.toNat ≤ q.order ∧ q.order < 2 ^ 31)
    (hnum : numNacks ≤ nextSeqn.toNat) (hlt : numNacks < 256) :
    if numNacks + (gaps nextSeqn.toNat (saved.map Packet.order)).length < 256 then
      fillNacks saved nextSeqn numNacks =
        ((gaps nextSeqn.toNat (saved.map Packet.order)).map UInt32.ofNat, none)
    else ∃ front a back, gaps nextSeqn.toNat (saved.map Packet.order) = front ++ a :: back ∧
      fillNacks saved nextSeqn numNacks = (front.map UInt32.ofNat, some (UInt32.ofNat a)) := by
  induction saved generalizing nextSeqn numNacks with
  | nil =>
    rw [if_pos (by simpa [gaps] using hlt)]
    rfl
  | cons p saved ih =>
    obtain ⟨hfirst, hrest⟩ := List.pairwise_cons.mp hsorted
    obtain ⟨hle, hp⟩ := hnext p List.mem_cons_self
    have hone := toNat_seqn_add_one hp
    rw [fillNacks, List.map_cons, gaps]
    dsimp only
    rw [toNat_roomNeeded hle hnum, missing_eq_gap]
    simp only [List.length_append, List.length_range', List.length_map]
    by_cases hroom : 256 ≤ numNacks + (p.order - nextSeqn.toNat)
    · -- the gap is not empty, since fewer than 256 NACKs were there
      rw [if_neg (by omega), if_pos hroom]
      obtain ⟨n, hn⟩ : ∃ n, p.order - nextSeqn.toNat = n + 1 := ⟨p.order - nextSeqn.toNat - 1, by omega⟩
      refine ⟨[], nextSeqn.toNat, List.range' (nextSeqn.toNat + 1) n ++ gaps (p.order + 1)
        (saved.map Packet.order), ?_, ?_⟩
      · rw [hn, List.range'_succ]
        rfl
      · rw [UInt32.ofNat_toNat]
        rfl
    · rw [if_neg hroom]
      have hnext' : ∀ q ∈ saved, (p.getSeqn + 1).toNat ≤ q.order ∧ q.order < 2 ^ 31 := fun q hq =>
        ⟨by rw [hone]; exact hfirst q hq, (hnext q (List.mem_cons_of_mem _ hq)).2⟩
      have hcases := ih hrest hnext'
        (show numNacks + (p.order - nextSeqn.toNat) ≤ (p.getSeqn + 1).toNat by omega) (by omega)
      rw [hone] at hcases
      by_cases hfits : numNacks + (p.order - nextSeqn.toNat) +
          (gaps (p.order + 1) (saved.map Packet.order)).length < 256
      · rw [if_pos hfits] at hcases
        rw [if_pos (by omega), hcases, List.map_append]
      · rw [if_neg hfits] at hcases
        obtain ⟨front, a, back, hgaps, hfill⟩ := hcases
        rw [if_neg (by omega), hfill, hgaps]
        exact ⟨List.range' nextSeqn.toNat (p.order - nextSeqn.toNat) ++ front, a, back, by simp,
          by rw [List.map_append]⟩

end FillNacks

/-! ## What `ProcessAck` releases -/

section Released

variable {env : StreamEnv} {now : UInt64} {s : Stream}

theorem released_acknowledge (sent : Packet) :
    (s.acknowledge now sent).released = s.released ++ [sent.getSeqn] := by
  unfold acknowledge
  dsimp only
  split
  · rfl
  · split <;> rfl

/-- The loop stops at the first packet behind the acknowledged ones; the set is sorted. -/
theorem released_releaseAcked (packet : Packet) {sent : List Packet}
    (hsorted : KeyedSet.Sorted Packet.order sent) (s : Stream) :
    (releaseAcked now packet sent s).1.released =
      s.released ++ (sent.map Packet.getSeqn).filter
        fun n => n ≤ packet.getAckThrough ∧ n ∉ packet.nacks := by
  induction sent generalizing s with
  | nil => simp [releaseAcked]
  | cons p sent ih =>
    obtain ⟨hfirst, hrest⟩ := List.pairwise_cons.mp hsorted
    rw [releaseAcked, List.map_cons]
    by_cases hle : p.getSeqn ≤ packet.getAckThrough
    · rw [if_pos hle]
      by_cases hnack : p.getSeqn ∈ packet.nacks
      · rw [if_pos hnack, List.filter_cons_of_neg (by simp [hnack])]
        exact ih hrest s
      · rw [if_neg hnack, List.filter_cons_of_pos (by simp [hle, hnack]), ih hrest,
          released_acknowledge, List.append_assoc]
        rfl
    · rw [if_neg hle]
      have hnone : (p.getSeqn :: sent.map Packet.getSeqn).filter
          (fun n => n ≤ packet.getAckThrough ∧ n ∉ packet.nacks) = [] := by
        refine List.filter_eq_nil_iff.mpr fun n hn => ?_
        have hge : p.getSeqn ≤ n := by
          rcases List.mem_cons.mp hn with rfl | hn
          · exact UInt32.le_refl _
          · obtain ⟨q, hq, rfl⟩ := List.mem_map.mp hn
            exact UInt32.le_iff_toNat_le.mpr (hfirst q hq).le
        have hgt : ¬ n ≤ packet.getAckThrough := fun h => hle (UInt32.le_trans hge h)
        simp [hgt]
      rw [hnone, List.append_nil]

theorem released_sendClose : (s.sendClose env).released = s.released := rfl

theorem released_terminate : s.terminate.released = s.released := by
  unfold terminate
  split <;> rfl

theorem released_closeClosing : (s.closeClosing env).released = s.released := by
  unfold closeClosing
  split
  · rw [released_terminate, released_sendClose]
  · rfl

theorem released_close : (s.close env).released = s.released := by
  unfold close
  split
  · exact released_closeClosing
  · rw [released_terminate, released_sendClose]
  · exact released_closeClosing
  · exact released_terminate
  · rfl

theorem released_createPackets (isNoAck : Bool) (n : ℕ) (s : Stream) :
    (s.createPackets env isNoAck n).1.released = s.released := by
  induction n generalizing s with
  | zero => rfl
  | succ n ih =>
    rw [createPackets]
    split
    · exact ih _
    · split
      · exact ih _
      · rfl

theorem released_completeSend : s.completeSend.released = s.released := by
  unfold completeSend
  split
  · split <;> rfl
  · rfl

theorem released_sendCreated (packets : List Packet) :
    (s.sendCreated env now packets).released = s.released := by
  unfold sendCreated
  dsimp only
  split <;> split <;> rfl

theorem released_sendBufferPackets : (s.sendBufferPackets env now).released = s.released := by
  unfold sendBufferPackets
  dsimp only
  split
  · rfl
  · have hcreate := @released_createPackets env (s.lastReceivedSequenceNumber < 0)
      (s.windowSize - s.sentPackets.length).toNat s
    split
    · rw [released_completeSend, hcreate]
    · rw [released_sendCreated, released_completeSend, hcreate]

/-- `ProcessAck` releases the packets up to the ack-through that are not reported missing. -/
theorem released_processAck (packet : Packet) (hsorted : KeyedSet.Sorted Packet.order s.sentPackets) :
    (s.processAck env now packet).released =
      s.released ++ (s.sentPackets.map Packet.getSeqn).filter
        fun n => n ≤ packet.getAckThrough ∧ n ∉ packet.nacks := by
  have hsend : (s.releaseAndSend env now packet).released =
      (s.releasePackets now packet).released := by
    rw [releaseAndSend]
    split
    · exact released_sendBufferPackets
    · rfl
  have hloop := hsend.trans (released_releaseAcked packet hsorted s)
  rw [processAck]
  split
  · exact released_close.trans hloop
  · exact hloop

end Released

/-! ## Quick acks -/

variable (env : StreamEnv) (s : Stream)

/-- The sequence numbers of the saved packets. -/
def savedNumbers : List ℕ := s.savedPackets.map Packet.order

/-- The number is at most the last one received, or that of a saved packet. -/
def Arrived (n : UInt32) : Prop :=
  (n.toNat : ℤ) ≤ s.lastReceivedSequenceNumber.toInt ∨ n.toNat ∈ s.savedNumbers

instance (n : UInt32) : Decidable (s.Arrived n) := inferInstanceAs (Decidable (_ ∨ _))

/-- The missing numbers between the last one received and that of the last saved packet. -/
def missingNumbers : Finset ℕ :=
  missing (s.lastReceivedSequenceNumber.toInt.toNat + 1) s.savedNumbers

/-- What a peer with these sent packets releases for the packet. -/
def releasedFor (peer : StreamEnv) (now : UInt64) (t : Stream) (packet : Packet) : List UInt32 :=
  (t.processAck peer now packet).released.drop t.released.length

/-- Whoever gets the quick ack releases only packets that have arrived. -/
def AcksOnlyArrived : Prop :=
  ∀ (peer : StreamEnv) (now : UInt64) (t : Stream), KeyedSet.Sorted Packet.order t.sentPackets →
    ∀ n ∈ t.releasedFor peer now (s.quickAckPacket env), s.Arrived n

/-- Whoever gets the quick ack releases all of its packets that have arrived, and no others. -/
def AcksArrived : Prop :=
  ∀ (peer : StreamEnv) (now : UInt64) (t : Stream), KeyedSet.Sorted Packet.order t.sentPackets →
    t.releasedFor peer now (s.quickAckPacket env) =
      (t.sentPackets.map Packet.getSeqn).filter fun n => s.Arrived n

/-- A quick ack is sent and fits the buffer of a packet, it releases only packets that have arrived,
and all of them if fewer than `256` are missing. -/
structure QuickAckCodec : Prop where
  sendQuickAck_eq : s.sendQuickAck env = s.sendPackets [s.quickAckPacket env]
  len_le : (s.quickAckPacket env).len ≤ maxPacketSize
  acksOnlyArrived : s.AcksOnlyArrived env
  acksArrived : s.missingNumbers.card < 256 → s.AcksArrived env

/-! ## The header of a quick ack -/

section QuickAck

variable (env : StreamEnv) {s : Stream}

theorem toInt_toInt32 (n : UInt32) :
    n.toInt32.toInt = if n.toNat < 2 ^ 31 then (n.toNat : ℤ) else n.toNat - 2 ^ 32 := by
  show n.toBitVec.toInt = _
  rw [BitVec.toInt_eq_toNat_cond]
  have hnat : n.toBitVec.toNat = n.toNat := rfl
  rw [hnat]
  split <;> split <;> omega

theorem toNat_toUInt32 {l : Int32} (h : 0 ≤ l.toInt) :
    l.toUInt32.toNat = l.toInt.toNat ∧ (l + 1).toUInt32.toNat = l.toInt.toNat + 1 := by
  have hcond := toInt_toInt32 l.toUInt32
  have hback : l.toUInt32.toInt32 = l := rfl
  rw [hback] at hcond
  have hlt := l.toUInt32.toNat_lt
  have hnat : l.toUInt32.toNat = l.toInt.toNat ∧ l.toUInt32.toNat < 2 ^ 31 := by
    split at hcond <;> omega
  refine ⟨hnat.1, ?_⟩
  show (l.toUInt32 + 1).toNat = _
  rw [UInt32.toNat_add]
  show (l.toUInt32.toNat + 1) % 2 ^ 32 = _
  omega

theorem header_quickAckPacket (hsorted : KeyedSet.Sorted Packet.order s.savedPackets) :
    (s.quickAckPacket env).getAckThrough =
        (quickAckNacks s.lastReceivedSequenceNumber s.savedPackets).2.getD
          (lastReceivedSeqn s.lastReceivedSequenceNumber s.savedPackets).toUInt32 ∧
      (s.quickAckPacket env).nacks =
        (quickAckNacks s.lastReceivedSequenceNumber s.savedPackets).1 ∧
      (s.quickAckPacket env).len ≤ maxPacketSize := by
  have hcount : (quickAckNacks s.lastReceivedSequenceNumber s.savedPackets).1.length < 256 :=
    length_quickAckNacks hsorted
  have hheader : (s.quickAckPacket env).HasHeader s 0 _ _ _ 0 0 := standsAt_store env.newBuffer 0 _
  refine ⟨hheader.getAckThrough_eq, hheader.nacks_eq hcount, ?_⟩
  have hlen : (s.quickAckPacket env).len =
      16 + (4 * (quickAckNacks s.lastReceivedSequenceNumber s.savedPackets).1.length + (4 + 1) + 1) := by
    show (s.packetHead 0 _ ++ packetTail _ _ 0 0).length = _
    rw [List.length_append, length_packetHead, packetTail]
    simp only [List.length_append, List.length_cons, Packet.length_flatten_writeU32, length_writeBE]
    rfl
  rw [hlen]
  show _ ≤ 4096
  omega

theorem sendQuickAck_eq (h : 0 ≤ s.lastReceivedSequenceNumber.toInt) :
    s.sendQuickAck env = s.sendPackets [s.quickAckPacket env] := by
  rw [sendQuickAck, if_neg]
  intro hneg
  rw [Int32.lt_iff_toInt_lt] at hneg
  have hzero : (0 : Int32).toInt = 0 := rfl
  rcases lastReceivedSeqn_cases s.lastReceivedSequenceNumber s.savedPackets with ⟨hlt, -⟩ | ⟨-, heq⟩
  · rw [Int32.lt_iff_toInt_lt] at hlt
    omega
  · rw [heq] at hneg
    omega

/-- What is released for a quick ack. -/
theorem releasedFor_quickAckPacket (hsorted : KeyedSet.Sorted Packet.order s.savedPackets)
    (peer : StreamEnv) (now : UInt64) {t : Stream}
    (ht : KeyedSet.Sorted Packet.order t.sentPackets) :
    t.releasedFor peer now (s.quickAckPacket env) =
      (t.sentPackets.map Packet.getSeqn).filter fun n =>
        n ≤ (quickAckNacks s.lastReceivedSequenceNumber s.savedPackets).2.getD
            (lastReceivedSeqn s.lastReceivedSequenceNumber s.savedPackets).toUInt32 ∧
          n ∉ (quickAckNacks s.lastReceivedSequenceNumber s.savedPackets).1 := by
  obtain ⟨hack, hnacks, -⟩ := header_quickAckPacket env hsorted
  rw [releasedFor, released_processAck _ ht, List.drop_left, hack, hnacks]

/-! ## Saved packets -/

/-- The last packet of a set has the largest number. -/
theorem order_getLast (hsorted : KeyedSet.Sorted Packet.order s.savedPackets) {p : Packet}
    (hp : s.savedPackets.getLast? = some p) : p.order = top s.savedNumbers := by
  obtain ⟨init, hinit⟩ := List.getLast?_eq_some_iff.mp hp
  refine le_antisymm (le_top (List.mem_map_of_mem (hinit ▸ List.mem_concat_self))) ?_
  have hne : s.savedNumbers ≠ [] := by
    rw [savedNumbers, hinit]
    simp
  obtain ⟨q, hq, hqtop⟩ := List.mem_map.mp (top_mem hne)
  rw [show top s.savedNumbers = q.order from hqtop.symm]
  rw [KeyedSet.Sorted, hinit, List.pairwise_append] at hsorted
  rw [hinit] at hq
  rcases List.mem_append.mp hq with hq | hq
  · exact (hsorted.2.2 q hq p List.mem_cons_self).le
  · rw [List.mem_singleton.mp hq]

/-- What the claim asks of the saved packets: a set of packets behind the first missing one. -/
structure SavedBehind (s : Stream) : Prop where
  last_nonneg : 0 ≤ s.lastReceivedSequenceNumber.toInt
  sorted : KeyedSet.Sorted Packet.order s.savedPackets
  behind : ∀ p ∈ s.savedPackets, s.lastReceivedSequenceNumber.toInt + 1 < p.order

theorem SavedBehind.pairwise (h : s.SavedBehind) : s.savedNumbers.Pairwise (· < ·) :=
  List.pairwise_map.mpr h.sorted

theorem SavedBehind.next_le (h : s.SavedBehind) :
    ∀ n ∈ s.savedNumbers, s.lastReceivedSequenceNumber.toInt.toNat + 1 ≤ n := by
  intro n hn
  obtain ⟨p, hp, rfl⟩ := List.mem_map.mp hn
  have := h.behind p hp
  have := h.last_nonneg
  omega

theorem SavedBehind.card_missingNumbers (h : s.SavedBehind) :
    s.missingNumbers.card =
      (gaps (s.lastReceivedSequenceNumber.toInt.toNat + 1) s.savedNumbers).length :=
  card_missing h.pairwise h.next_le

/-- With no saved number from `2 ^ 31` on, the quick ack is about the last saved packet. -/
theorem SavedBehind.lastReceivedSeqn_eq (h : s.SavedBehind) (hne : s.savedPackets ≠ [])
    (htop : top s.savedNumbers < 2 ^ 31) :
    s.lastReceivedSequenceNumber < lastReceivedSeqn s.lastReceivedSequenceNumber s.savedPackets ∧
      (lastReceivedSeqn s.lastReceivedSequenceNumber s.savedPackets).toUInt32.toNat =
        top s.savedNumbers := by
  obtain ⟨p, hp⟩ : ∃ p, s.savedPackets.getLast? = some p := ⟨_, List.getLast?_eq_some_getLast hne⟩
  have horder := order_getLast h.sorted hp
  have hbehind := h.behind p (List.mem_of_getLast? hp)
  have hlt : s.lastReceivedSequenceNumber < p.getSeqn.toInt32 := by
    rw [Int32.lt_iff_toInt_lt, toInt_toInt32, if_pos (by unfold Packet.order at horder; omega)]
    unfold Packet.order at hbehind
    omega
  have heq : lastReceivedSeqn s.lastReceivedSequenceNumber s.savedPackets = p.getSeqn.toInt32 := by
    rw [lastReceivedSeqn, hp]
    exact if_pos hlt
  rw [heq]
  exact ⟨hlt, horder⟩

/-- With a saved number from `2 ^ 31` on, it is about the last number received in sequence. -/
theorem SavedBehind.lastReceivedSeqn_eq_last (h : s.SavedBehind)
    (htop : s.savedPackets = [] ∨ 2 ^ 31 ≤ top s.savedNumbers) :
    lastReceivedSeqn s.lastReceivedSequenceNumber s.savedPackets = s.lastReceivedSequenceNumber ∧
      quickAckNacks s.lastReceivedSequenceNumber s.savedPackets = ([], none) := by
  have hirrefl : ¬ s.lastReceivedSequenceNumber < s.lastReceivedSequenceNumber := by
    rw [Int32.lt_iff_toInt_lt]
    exact lt_irrefl _
  have heq : lastReceivedSeqn s.lastReceivedSequenceNumber s.savedPackets =
      s.lastReceivedSequenceNumber := by
    rw [lastReceivedSeqn]
    cases hp : s.savedPackets.getLast? with
    | none => rfl
    | some p =>
      have horder := order_getLast h.sorted hp
      refine if_neg fun hlt => ?_
      rw [Int32.lt_iff_toInt_lt, toInt_toInt32] at hlt
      rcases htop with hnil | htop
      · rw [hnil] at hp
        cases hp
      · have := h.last_nonneg
        have := p.getSeqn.toNat_lt
        unfold Packet.order at horder
        rw [if_neg (by omega)] at hlt
        omega
  refine ⟨heq, ?_⟩
  rw [quickAckNacks, heq, if_neg hirrefl]

theorem mem_map_ofNat_gaps (h : s.SavedBehind) {n : UInt32} :
    n ∈ (gaps (s.lastReceivedSequenceNumber.toInt.toNat + 1) s.savedNumbers).map UInt32.ofNat ↔
      n.toNat ∈ gaps (s.lastReceivedSequenceNumber.toInt.toNat + 1) s.savedNumbers := by
  rw [List.mem_map]
  constructor
  · rintro ⟨k, hk, rfl⟩
    obtain ⟨-, -, m, hm, hlt⟩ := (mem_gaps h.pairwise h.next_le).mp hk
    obtain ⟨p, hp, rfl⟩ := List.mem_map.mp hm
    have hp32 := p.getSeqn.toNat_lt
    unfold Packet.order at hlt
    rwa [UInt32.toNat_ofNat', Nat.mod_eq_of_lt (by omega)]
  · intro hn
    exact ⟨n.toNat, hn, UInt32.ofNat_toNat⟩

/-- The NACKs, once there are saved packets and no number from `2 ^ 31` on. -/
theorem SavedBehind.quickAckNacks_cases (h : s.SavedBehind) (hne : s.savedPackets ≠ [])
    (htop : top s.savedNumbers < 2 ^ 31) :
    if s.missingNumbers.card < 256 then
      quickAckNacks s.lastReceivedSequenceNumber s.savedPackets =
        ((gaps (s.lastReceivedSequenceNumber.toInt.toNat + 1) s.savedNumbers).map UInt32.ofNat, none)
    else ∃ front a back,
      gaps (s.lastReceivedSequenceNumber.toInt.toNat + 1) s.savedNumbers = front ++ a :: back ∧
        quickAckNacks s.lastReceivedSequenceNumber s.savedPackets =
          (front.map UInt32.ofNat, some (UInt32.ofNat a)) := by
  obtain ⟨-, hone⟩ := toNat_toUInt32 h.last_nonneg
  have hnext : ∀ q ∈ s.savedPackets,
      (s.lastReceivedSequenceNumber + 1).toUInt32.toNat ≤ q.order ∧ q.order < 2 ^ 31 := by
    intro q hq
    have hmem : q.order ∈ s.savedNumbers := List.mem_map_of_mem hq
    rw [hone]
    exact ⟨h.next_le _ hmem, (le_top hmem).trans_lt htop⟩
  have hcases := fillNacks_cases h.sorted hnext (Nat.zero_le _) (show 0 < 256 by decide)
  rw [hone, Nat.zero_add] at hcases
  rw [h.card_missingNumbers, quickAckNacks, if_pos (h.lastReceivedSeqn_eq hne htop).1]
  exact hcases

/-! ## When the peer understands a quick ack -/

variable {env} in
theorem AcksArrived.acksOnlyArrived (h : s.AcksArrived env) : s.AcksOnlyArrived env := by
  intro peer now t ht n hn
  rw [h peer now t ht] at hn
  exact of_decide_eq_true (List.mem_filter.mp hn).2

/-- If all NACKs fit, exactly the packets that have arrived are released. -/
theorem SavedBehind.acksArrived (h : s.SavedBehind) (hne : s.savedPackets ≠ [])
    (htop : top s.savedNumbers < 2 ^ 31) (hcard : s.missingNumbers.card < 256) :
    s.AcksArrived env := by
  intro peer now t ht
  have hnacks := h.quickAckNacks_cases hne htop
  rw [if_pos hcard] at hnacks
  rw [releasedFor_quickAckPacket env h.sorted peer now ht, hnacks]
  refine List.filter_congr fun n _ => decide_eq_decide.mpr ?_
  rw [Option.getD_none, UInt32.le_iff_toNat_le, (h.lastReceivedSeqn_eq hne htop).2,
    mem_map_ofNat_gaps h, mem_gaps h.pairwise h.next_le, Arrived]
  have hmem : top s.savedNumbers ∈ s.savedNumbers := top_mem (by simpa [savedNumbers] using hne)
  have hlast := h.last_nonneg
  constructor
  · rintro ⟨hle, hgap⟩
    by_contra hnot
    obtain ⟨hgt, hnotMem⟩ := not_or.mp hnot
    have hnetop : n.toNat ≠ top s.savedNumbers := fun heq => hnotMem (heq ▸ hmem)
    exact hgap ⟨by omega, hnotMem, _, hmem, by omega⟩
  · rintro (hle | hsaved)
    · have hbound := h.next_le _ hmem
      exact ⟨by omega, fun hgap => by omega⟩
    · exact ⟨le_top hsaved, fun hgap => hgap.2.1 hsaved⟩

/-- Without NACKs, exactly the packets up to the last one in sequence are released. -/
theorem SavedBehind.releasedFor_of_last (h : s.SavedBehind)
    (htop : s.savedPackets = [] ∨ 2 ^ 31 ≤ top s.savedNumbers) (peer : StreamEnv) (now : UInt64)
    {t : Stream} (ht : KeyedSet.Sorted Packet.order t.sentPackets) :
    t.releasedFor peer now (s.quickAckPacket env) =
      (t.sentPackets.map Packet.getSeqn).filter
        fun n => (n.toNat : ℤ) ≤ s.lastReceivedSequenceNumber.toInt := by
  obtain ⟨heq, hnacks⟩ := h.lastReceivedSeqn_eq_last htop
  rw [releasedFor_quickAckPacket env h.sorted peer now ht, hnacks, heq]
  refine List.filter_congr fun n _ => decide_eq_decide.mpr ?_
  have hlast := h.last_nonneg
  rw [Option.getD_none, UInt32.le_iff_toNat_le, (toNat_toUInt32 hlast).1]
  constructor
  · rintro ⟨hle, -⟩
    omega
  · intro hle
    exact ⟨by omega, List.not_mem_nil⟩

/-- A packet with this sequence number. -/
def packetWith (seqn : UInt32) : Packet := { buf := store (fun _ => 0) 8 (writeU32 seqn), len := 22 }

theorem getSeqn_packetWith (seqn : UInt32) : (packetWith seqn).getSeqn = seqn :=
  (standsAt_store (fun _ => 0) 8 (writeU32 seqn)).readU32_eq

/-- A peer that has sent one packet with this number. -/
def sentOnly (seqn : UInt32) : Stream := { recvStreamID := 0, sentPackets := [packetWith seqn] }

theorem sorted_sentOnly (seqn : UInt32) :
    KeyedSet.Sorted Packet.order (sentOnly seqn).sentPackets := List.pairwise_singleton _ _

theorem map_getSeqn_sentOnly (seqn : UInt32) :
    (sentOnly seqn).sentPackets.map Packet.getSeqn = [seqn] :=
  congrArg (· :: []) (getSeqn_packetWith seqn)

/-- With nothing saved, the last number received is all there is to tell. -/
theorem SavedBehind.acksArrived_of_nil (h : s.SavedBehind) (hnil : s.savedPackets = []) :
    s.AcksArrived env := by
  intro peer now t ht
  rw [h.releasedFor_of_last env (.inl hnil) peer now ht]
  refine List.filter_congr fun n _ => decide_eq_decide.mpr ?_
  rw [Arrived, savedNumbers, hnil]
  exact (or_iff_left List.not_mem_nil).symm

/-- If the NACKs do not fit, the first number of a gap is released. -/
theorem SavedBehind.not_acksOnlyArrived (h : s.SavedBehind) (hne : s.savedPackets ≠ [])
    (htop : top s.savedNumbers < 2 ^ 31) (hcard : ¬ s.missingNumbers.card < 256) :
    ¬ s.AcksOnlyArrived env := by
  intro honly
  have hnacks := h.quickAckNacks_cases hne htop
  rw [if_neg hcard] at hnacks
  obtain ⟨front, a, back, hgaps, hnacks⟩ := hnacks
  have hgap : a ∈ gaps (s.lastReceivedSequenceNumber.toInt.toNat + 1) s.savedNumbers :=
    hgaps ▸ List.mem_append_right _ List.mem_cons_self
  obtain ⟨hge, hnotMem, m, hm, hlt⟩ := (mem_gaps h.pairwise h.next_le).mp hgap
  have ha : (UInt32.ofNat a).toNat = a := by
    have := (le_top hm).trans_lt htop
    rw [UInt32.toNat_ofNat', Nat.mod_eq_of_lt (by omega)]
  -- it is acknowledged, and no NACK is for it
  have hreleased := releasedFor_quickAckPacket env h.sorted env 0
    (sorted_sentOnly (UInt32.ofNat a))
  rw [map_getSeqn_sentOnly, hnacks] at hreleased
  have hfront : UInt32.ofNat a ∉ front.map UInt32.ofNat := by
    intro hmem
    obtain ⟨b, hb, heq⟩ := List.mem_map.mp hmem
    have hbgap : b ∈ gaps (s.lastReceivedSequenceNumber.toInt.toNat + 1) s.savedNumbers :=
      hgaps ▸ List.mem_append_left _ hb
    obtain ⟨-, -, m', hm', hlt'⟩ := (mem_gaps h.pairwise h.next_le).mp hbgap
    have hab : b = a := by
      have := (le_top hm').trans_lt htop
      have hnat := congrArg UInt32.toNat heq
      rwa [ha, UInt32.toNat_ofNat', Nat.mod_eq_of_lt (by omega)] at hnat
    subst hab
    have hnodup := nodup_gaps h.pairwise h.next_le
    rw [hgaps, List.nodup_append] at hnodup
    exact hnodup.2.2 b hb b List.mem_cons_self rfl
  rw [List.filter_cons_of_pos (by simpa using hfront)] at hreleased
  have harrived := honly env 0 _ (sorted_sentOnly (UInt32.ofNat a)) (UInt32.ofNat a)
    (hreleased ▸ List.mem_cons_self)
  rw [Arrived, ha] at harrived
  have := h.last_nonneg
  rcases harrived with hle | hmem
  · omega
  · exact hnotMem hmem

/-- A saved packet with a number from `2 ^ 31` on is not acknowledged. -/
theorem SavedBehind.not_acksArrived (h : s.SavedBehind) (hne : s.savedPackets ≠ [])
    (htop : 2 ^ 31 ≤ top s.savedNumbers) : ¬ s.AcksArrived env := by
  intro hall
  have hmem : top s.savedNumbers ∈ s.savedNumbers := top_mem (by simpa [savedNumbers] using hne)
  obtain ⟨p, -, hp⟩ := List.mem_map.mp hmem
  have hsent := hall env 0 _ (sorted_sentOnly p.getSeqn)
  rw [h.releasedFor_of_last env (.inr htop) env 0 (sorted_sentOnly p.getSeqn), map_getSeqn_sentOnly,
    List.filter_cons_of_pos (p := fun n => decide (s.Arrived n))
      (decide_eq_true (.inr (show p.order ∈ s.savedNumbers from hp ▸ hmem)))] at hsent
  have hin : p.getSeqn ∈ [p.getSeqn].filter
      fun n => (n.toNat : ℤ) ≤ s.lastReceivedSequenceNumber.toInt := by
    rw [hsent]
    exact List.mem_cons_self
  have hle := of_decide_eq_true (List.mem_filter.mp hin).2
  have hbehind := h.next_le _ hmem
  rw [← hp] at hbehind
  unfold Packet.order at hbehind
  omega

end QuickAck

/-- The quick ack of a stream is understood iff nothing is saved, or fewer than `256` numbers are
missing exactly when no saved number is from `2 ^ 31` on. -/
theorem quickAckCodec_iff (env : StreamEnv) (s : Stream) (h : s.SavedBehind) :
    s.QuickAckCodec env ↔
      s.savedPackets = [] ∨ (s.missingNumbers.card < 256 ↔ top s.savedNumbers < 2 ^ 31) := by
  have hsend := sendQuickAck_eq env h.last_nonneg
  have hlen := (header_quickAckPacket env h.sorted).2.2
  by_cases hnil : s.savedPackets = []
  · have hall := h.acksArrived_of_nil env hnil
    exact iff_of_true ⟨hsend, hlen, hall.acksOnlyArrived, fun _ => hall⟩ (.inl hnil)
  · rw [or_iff_right hnil]
    by_cases htop : top s.savedNumbers < 2 ^ 31
    · by_cases hcard : s.missingNumbers.card < 256
      · have hall := h.acksArrived env hnil htop hcard
        exact iff_of_true ⟨hsend, hlen, hall.acksOnlyArrived, fun _ => hall⟩
          (iff_of_true hcard htop)
      · exact iff_of_false (fun hcodec => h.not_acksOnlyArrived env hnil htop hcard hcodec.acksOnlyArrived)
          fun hiff => hcard (hiff.mpr htop)
    · have hge : 2 ^ 31 ≤ top s.savedNumbers := not_lt.mp htop
      by_cases hcard : s.missingNumbers.card < 256
      · exact iff_of_false
          (fun hcodec => h.not_acksArrived env hnil hge (hcodec.acksArrived hcard))
          fun hiff => htop (hiff.mp hcard)
      · refine iff_of_true ⟨hsend, hlen, fun peer now t ht n hn => ?_, fun hlt => absurd hlt hcard⟩
          (iff_of_false hcard htop)
        rw [h.releasedFor_of_last env (.inr hge) peer now ht] at hn
        exact .inl (of_decide_eq_true (List.mem_filter.mp hn).2)

/-- A stream that has received packet `0`, and then the ones with these numbers. -/
def withSaved (saved : List UInt32) : Stream :=
  { recvStreamID := 1
    lastReceivedSequenceNumber := 0
    savedPackets := saved.map packetWith }

theorem savedBehind_withSaved (seqn : UInt32) (h : 1 < seqn.toNat) :
    (withSaved [seqn]).SavedBehind where
  last_nonneg := le_rfl
  sorted := List.pairwise_singleton _ _
  behind p hp := by
    rw [List.mem_singleton.mp hp, Packet.order, getSeqn_packetWith]
    show (0 : ℤ) + 1 < seqn.toNat
    omega

/-- One packet overtakes another. -/
theorem quickAckCodec_withSaved_two :
    (withSaved [2]).QuickAckCodec quietEnv ↔
      (withSaved [2]).savedPackets = [] ∨ ((withSaved [2]).missingNumbers.card < 256 ↔
        top (withSaved [2]).savedNumbers < 2 ^ 31) :=
  quickAckCodec_iff quietEnv (withSaved [2]) (savedBehind_withSaved 2 (by decide))

/-- Packet `300` overtakes the 299 packets between it and the last one received. Packet `1` is
released by its sender, although it has not arrived. -/
theorem not_quickAckCodec_withSaved :
    (withSaved [300]).SavedBehind ∧
      (sentOnly 1).releasedFor quietEnv 0 ((withSaved [300]).quickAckPacket quietEnv) = [1] ∧
      ¬ (withSaved [300]).Arrived 1 ∧ ¬ (withSaved [300]).QuickAckCodec quietEnv := by
  have hbehind : (withSaved [300]).SavedBehind := savedBehind_withSaved 300 (by decide)
  have hreleased : (sentOnly 1).releasedFor quietEnv 0 ((withSaved [300]).quickAckPacket quietEnv) =
      [1] := by decide +kernel
  have hnot : ¬ (withSaved [300]).Arrived 1 := by decide +kernel
  refine ⟨hbehind, hreleased, hnot, fun h => hnot ?_⟩
  exact h.acksOnlyArrived quietEnv 0 _ (sorted_sentOnly 1) 1 (hreleased ▸ List.mem_cons_self)

end Stream

end Streaming
