import Xi2p.Streaming.Connection
import Xi2p.Streaming.Segmentation

/-!
# What one end hands over, the other end reads

The two ends of a stream of `client/api/streaming.cc` over a network that delivers packets in any order,
late, repeatedly or never, with resends, acknowledgements and FINs in between.

* `Heard log r`: what the receiving half `r` has made of packets from `log`.
* `Connection.pushed_isPrefix`: the bytes read at one end, and those that wait to be read, are a prefix of
  the bytes handed over at the other.
* `Connection.accepted_or_kept`: a packet with data that the other end has not accepted is still kept.
-/

namespace Streaming

open Bytes Identity Runs

/-! ## Send times -/

namespace Inbound

variable {r : Inbound} {p : Packet}

/-- The receiving half without the send times of its packets. -/
def untimed (r : Inbound) : Inbound :=
  { r with saved := r.saved.map Packet.untimed, queue := r.queue.map Packet.untimed }

theorem map_untimed_insertPacket (p : Packet) (ps : List Packet) :
    (insertPacket p ps).map Packet.untimed = insertPacket p.untimed (ps.map Packet.untimed) := by
  induction ps with
  | nil => rfl
  | cons q ps ih =>
    -- the send time does not count in the order
    unfold insertPacket at ih ⊢
    rw [List.map_cons, KeyedSet.insert, KeyedSet.insert]
    by_cases hlt : p.order < q.order
    · rw [if_pos hlt, if_pos (show p.untimed.order < q.untimed.order from hlt)]
      rfl
    · rw [if_neg hlt, if_neg (show ¬ p.untimed.order < q.untimed.order from hlt)]
      by_cases hgt : q.order < p.order
      · rw [if_pos hgt, if_pos (show q.untimed.order < p.untimed.order from hgt), List.map_cons, ih]
      · rw [if_neg hgt, if_neg (show ¬ q.untimed.order < p.untimed.order from hgt)]
        rfl

theorem untimed_process : (r.process p).untimed = r.untimed.process p.untimed := by
  unfold process untimed
  by_cases hpayload : { p with offset := p.payloadOffset }.getLength > 0
  · have hpayload' : { p.untimed with offset := p.untimed.payloadOffset }.getLength > 0 := hpayload
    rw [if_pos hpayload, if_pos hpayload', List.map_append]
    rfl
  · have hpayload' : ¬ { p.untimed with offset := p.untimed.payloadOffset }.getLength > 0 := hpayload
    rw [if_neg hpayload, if_neg hpayload']
    rfl

theorem untimed_drain (saved : List Packet) (r : Inbound) :
    (r.drain saved).untimed = r.untimed.drain (saved.map Packet.untimed) := by
  induction saved generalizing r with
  | nil => rfl
  | cons p saved ih =>
    rw [List.map_cons, drain, drain]
    by_cases hnext : p.getSeqn = (r.last + 1).toUInt32
    · rw [if_pos hnext, if_pos (show p.untimed.getSeqn = (r.untimed.last + 1).toUInt32 from hnext), ih,
        untimed_process]
      rfl
    · rw [if_neg hnext, if_neg (show ¬ p.untimed.getSeqn = (r.untimed.last + 1).toUInt32 from hnext)]

theorem untimed_save : (r.save p).untimed = r.untimed.save p.untimed := by
  unfold save untimed
  rw [map_untimed_insertPacket]
  rfl

/-- The receiver does not look at the send time of a packet. -/
theorem untimed_receive : (r.receive p).untimed = r.untimed.receive p.untimed := by
  have hseqn : p.untimed.getSeqn = p.getSeqn := rfl
  have hsyn : p.untimed.isSYN = p.isSYN := rfl
  have hlast : r.untimed.last = r.last := rfl
  unfold receive
  rw [hseqn, hsyn, hlast]
  split
  · rfl
  · split
    · rw [untimed_drain, untimed_process]
      rfl
    · split
      · rfl
      · exact untimed_save

theorem pushed_untimed : r.untimed.pushed = r.pushed := by
  unfold pushed untimed
  rw [List.map_map]
  rfl

end Inbound

theorem concatenatePackets_map_untimed (queue : List Packet) (len : ℕ) :
    Stream.concatenatePackets (queue.map Packet.untimed) len =
      ((Stream.concatenatePackets queue len).1.map Packet.untimed,
        (Stream.concatenatePackets queue len).2) := by
  induction queue generalizing len with
  | nil => rfl
  | cons p queue ih =>
    have hlength : p.untimed.getLength = p.getLength := rfl
    rw [List.map_cons, Stream.concatenatePackets, Stream.concatenatePackets]
    split
    · rfl
    · dsimp only
      rw [hlength]
      -- nor for whether a packet is used up
      by_cases hused : { p with offset := p.offset + min p.getLength len }.getLength = 0
      · have hused' : { p.untimed with offset := p.untimed.offset + min p.getLength len }.getLength = 0 :=
          hused
        rw [if_pos hused, if_pos hused', ih]
        rfl
      · have hused' :
            ¬ { p.untimed with offset := p.untimed.offset + min p.getLength len }.getLength = 0 := hused
        rw [if_neg hused, if_neg hused']
        rfl

/-! ## What the other end has made of the packets -/

variable {log : List Packet} {handed : List UInt8} {o : Outbound} {r : Inbound} {p : Packet} {k : ℕ}

/-- The stream has been opened with a SYN. A stream that is reset before sends a FIN first. -/
def Begun (log : List Packet) : Prop := ∃ p, log[0]? = some p ∧ p.isSYN

/-- What the receiving half has made of packets from `log`, any number of times each: they are in
sequence, or, without a SYN, nothing has been processed. -/
structure Heard (log : List Packet) (r : Inbound) : Prop where
  inSequence : Begun log → ∃ k, InSequence log k r.untimed
  deaf : ¬ Begun log → r.last = -1 ∧ r.queue = [] ∧ r.delivered = []
  empty : log = [] → r = Inbound.empty

theorem heard_empty : Heard [] Inbound.empty where
  inSequence := fun ⟨p, hp, _⟩ => by cases hp
  deaf := fun _ => ⟨rfl, rfl, rfl⟩
  empty := fun _ => rfl

/-- The log of a stream that has been opened is what a receiver expects. -/
theorem Outbox.sentInOrder (h : Outbox log handed o) (hbegun : Begun log)
    (hlen : log.length ≤ 2 ^ 32) : SentInOrder log where
  seqn_eq := by
    intro i p hp
    have hi : i < log.length := (List.getElem?_eq_some_iff.mp hp).1
    rw [h.getSeqn_eq hp, UInt32.toNat_ofNat']
    omega
  isSYN_iff := by
    intro i p hp
    refine ⟨fun hsyn => h.eq_zero_of_isSYN hp hsyn, ?_⟩
    rintro rfl
    obtain ⟨q, hq, hsyn⟩ := hbegun
    rw [hp] at hq
    rwa [Option.some.inj hq]
  wellFormed := by
    intro p hp
    have hfits := h.fits p hp
    refine ⟨hfits.offset_eq, hfits.payloadOffset_le, hfits.len_le.trans (by decide)⟩

theorem InSequence.append (h : InSequence log k r) (more : List Packet) :
    InSequence (log ++ more) k r where
  pushed_eq := by rw [h.pushed_eq, List.take_append_of_le_length h.le_length]
  last_eq := h.last_eq
  le_length := h.le_length.trans (List.length_append ▸ Nat.le_add_right _ _)
  saved := fun p hp => ⟨List.mem_append_left _ (h.saved p hp).1, (h.saved p hp).2⟩
  queue := h.queue
  accepted := h.accepted

theorem begun_append_iff (hne : log ≠ []) (more : List Packet) : Begun (log ++ more) ↔ Begun log := by
  obtain ⟨p, log, rfl⟩ := List.exists_cons_of_ne_nil hne
  exact Iff.rfl

/-- More packets are created. -/
theorem Heard.append (h : Heard log r) (more : List Packet) : Heard (log ++ more) r := by
  by_cases hnil : log = []
  · -- nothing has been created before, so nothing has been received
    subst hnil
    rw [h.empty rfl]
    exact ⟨fun _ => ⟨0, inSequence_empty⟩, fun _ => ⟨rfl, rfl, rfl⟩, fun _ => rfl⟩
  · refine ⟨fun hbegun => ?_, fun hnot => ?_, fun happend => ?_⟩
    · obtain ⟨k, hk⟩ := h.inSequence ((begun_append_iff hnil more).mp hbegun)
      exact ⟨k, hk.append more⟩
    · exact h.deaf fun hbegun => hnot ((begun_append_iff hnil more).mpr hbegun)
    · exact absurd (List.append_eq_nil_iff.mp happend).1 hnil

/-- A plain acknowledgement does not reach the sequence. -/
theorem receive_of_isPlainAck (h : p.IsPlainAck) : r.receive p = r := by
  have hplain : (decide (p.getSeqn.toInt32 = 0) && !p.isSYN) = true := by
    rw [h.1, Bool.eq_false_of_not_eq_true h.2]
    rfl
  rw [Inbound.receive, if_pos hplain]

/-- Before the SYN, packets are put aside at most. -/
theorem receive_of_last_eq (hlast : r.last = -1) (hsyn : ¬ p.isSYN) :
    (r.receive p).last = -1 ∧ (r.receive p).queue = r.queue ∧
      (r.receive p).delivered = r.delivered := by
  unfold Inbound.receive
  rw [hlast, Bool.eq_false_of_not_eq_true hsyn]
  split
  · exact ⟨hlast, rfl, rfl⟩
  next hne =>
    -- only a SYN may be the first packet
    have hfirst : ¬ (false || decide (p.getSeqn.toInt32 = -1 + 1)) = true := by
      simpa using hne
    rw [if_neg hfirst]
    split
    · exact ⟨hlast, rfl, rfl⟩
    · exact ⟨hlast, rfl, rfl⟩

/-- One packet of the log, or a plain acknowledgement. -/
theorem Heard.receive (h : Heard log r) (hout : Outbox log handed o) (hlen : log.length ≤ 2 ^ 32)
    (hp : p.IsPlainAck ∨ p.untimed ∈ log)
    (hsyn : p.isSYN → 0 ∉ r.accepted ∨ r.last = 0 ∧ p.payload = []) : Heard log (r.receive p) := by
  rcases hp with hack | hmem
  · rwa [receive_of_isPlainAck hack]
  refine ⟨fun hbegun => ?_, fun hnot => ?_, fun hnil => ?_⟩
  · obtain ⟨k, hk⟩ := h.inSequence hbegun
    obtain ⟨k', -, hk'⟩ := hk.receive (hout.sentInOrder hbegun hlen) hmem hsyn
    rw [Inbound.untimed_receive]
    exact ⟨k', hk'⟩
  · -- without a SYN at the front of the log, no packet of it is a SYN
    have hnosyn : ¬ p.isSYN := by
      intro hisSYN
      obtain ⟨i, hi⟩ := List.mem_iff_getElem?.mp hmem
      have hzero : i = 0 := hout.eq_zero_of_isSYN hi hisSYN
      subst hzero
      exact hnot ⟨p.untimed, hi, hisSYN⟩
    obtain ⟨hlast, hqueue, hdelivered⟩ := h.deaf hnot
    obtain ⟨hlast', hqueue', hdelivered'⟩ := receive_of_last_eq hlast hnosyn
    exact ⟨hlast', hqueue'.trans hqueue, hdelivered'.trans hdelivered⟩
  · rw [hnil] at hmem
    cases hmem

theorem inbound_readSome_of_nil {s : Stream} (h : s.inbound.queue = []) (len : ℕ) :
    (s.readSome len).inbound = s.inbound := by
  have hqueue : s.receiveQueue = [] := h
  unfold Stream.readSome
  rw [hqueue]
  show Inbound.mk _ _ [] (s.delivered ++ []) _ = Inbound.mk _ _ s.receiveQueue _ _
  rw [List.append_nil, hqueue]

theorem Heard.readSome {s : Stream} (h : Heard log s.inbound) (len : ℕ) :
    Heard log (s.readSome len).inbound := by
  -- reading takes the same bytes whatever the send times are
  have hinbound : (s.readSome len).inbound.untimed = (Stream.readSome { s with
      savedPackets := s.savedPackets.map Packet.untimed
      receiveQueue := s.receiveQueue.map Packet.untimed } len).inbound := by
    have hread := concatenatePackets_map_untimed s.receiveQueue len
    unfold Stream.readSome
    dsimp only
    rw [hread]
    rfl
  refine ⟨fun hbegun => ?_, fun hnot => ?_, fun hnil => ?_⟩
  · obtain ⟨k, hk⟩ := h.inSequence hbegun
    refine ⟨k, ?_⟩
    rw [hinbound]
    exact InSequence.readSome hk len
  · obtain ⟨hlast, hqueue, hdelivered⟩ := h.deaf hnot
    rw [inbound_readSome_of_nil hqueue]
    exact ⟨hlast, hqueue, hdelivered⟩
  · have hempty := h.empty hnil
    rw [inbound_readSome_of_nil (congrArg Inbound.queue hempty)]
    exact hempty

/-! ## Both ends -/

/-- The bytes that the event hands over. -/
def Event.bytes (e : Event) : List UInt8 :=
  match e.action with
  | .deliver _ => []
  | .perform op => op.bytes

/-- The bytes handed over at one end in a run. -/
def handedAt (events : List Event) (side : Bool) : List UInt8 :=
  events.flatMap fun e => if e.side = side then e.bytes else []

namespace Connection

variable {c : Connection} {e : Event}

/-- A SYN that is delivered is the first one to be processed, or it makes no difference. -/
def SynIsFirst (c : Connection) (e : Event) : Prop :=
  match c.operation e with
  | some op => Streaming.SynIsFirst (c e.side) (e.now, op)
  | none => True

instance (c : Connection) (e : Event) : Decidable (c.SynIsFirst e) :=
  match hop : c.operation e with
  | some op => decidable_of_iff (Streaming.SynIsFirst (c e.side) (e.now, op)) (by
      unfold SynIsFirst
      rw [hop])
  | none => isTrue (by
      unfold SynIsFirst
      rw [hop]
      trivial)

/-- What an end has sent and what the other end has made of it. -/
structure Link (log : List Packet) (handed : List UInt8) (sender receiver : Stream) : Prop where
  outbox : Outbox log handed sender.outbound
  heard : log.length ≤ 2 ^ 32 → Heard log receiver.inbound
  sorted : KeyedSet.Sorted Packet.order sender.savedPackets

/-- Every end is linked to the other one. -/
def Linked (handed : Bool → List UInt8) (c : Connection) : Prop :=
  ∀ side, ∃ log, Link log (handed side) (c side) (c !side)

variable {log : List Packet} {handed : List UInt8} {s t : Stream} {op : Operation}

/-- An operation of the sending end. -/
theorem Link.send (h : Link log handed s t) (owner : Owner) (now : UInt64) (op : Operation) :
    ∃ log', Link log' (handed ++ op.bytes) (s.step owner.env now op) t := by
  obtain ⟨more, hmore⟩ := Stream.grown_step owner now h.outbox h.sorted op
  refine ⟨log ++ more, hmore, fun hlen => ?_, Stream.sorted_step h.sorted op⟩
  apply Heard.append
  apply h.heard
  rw [List.length_append] at hlen
  omega

/-- An operation of the receiving end. A packet that arrives was put on the wire by the sending end. -/
theorem Link.receive (h : Link log handed s t) (env : StreamEnv) (now : UInt64)
    (hwire : ∀ p, op = .handleNextPacket p → p ∈ s.wire) (hsyn : Streaming.SynIsFirst t (now, op)) :
    Link log handed s (t.step env now op) := by
  refine ⟨h.outbox, fun hlen => ?_, h.sorted⟩
  -- an operation other than a packet or a read leaves the inbound side as it is
  have hheard := h.heard hlen
  have hsame : (t.step env now op).inbound = t.inbound → Heard log (t.step env now op).inbound :=
    fun hinbound => by rwa [hinbound]
  cases op with
  | handleNextPacket p =>
    have hreceive := hheard.receive h.outbox hlen (h.outbox.wire p (hwire p rfl)) hsyn
    rw [← Stream.inbound_handleNextPacket env now] at hreceive
    exact hreceive
  | readSome len => exact hheard.readSome len
  | _ => exact hsame (by simp [Stream.step])

theorem bytes_of_operation (c : Connection) (e : Event) :
    e.bytes = ((c.operation e).map Operation.bytes).getD [] := by
  unfold Event.bytes operation
  split
  next i hi =>
    rw [hi]
    show [] = (((c !e.side).wire[i]?.map Operation.handleNextPacket).map Operation.bytes).getD []
    cases (c !e.side).wire[i]? <;> rfl
  next op hop =>
    rw [hop]
    cases op <;> rfl

/-- One event keeps both ends linked. -/
theorem linked_step (owner : Bool → Owner) {handed : Bool → List UInt8} (h : Linked handed c) (hsyn : c.SynIsFirst e) :
    Linked (fun side => handed side ++ if e.side = side then e.bytes else [])
      (c.step (fun side => (owner side).env) e) := by
  have hbytes := bytes_of_operation c e
  unfold SynIsFirst at hsyn
  unfold Connection.step
  split
  next op hop =>
    rw [hop] at hsyn hbytes
    have hne : (!e.side) ≠ e.side := by cases e.side <;> decide
    intro side
    by_cases hside : side = e.side
    · -- the end of the event sends
      subst hside
      dsimp only
      rw [if_pos rfl, hbytes, Function.update_self, Function.update_of_ne hne]
      obtain ⟨log, hlink⟩ := h e.side
      exact hlink.send (owner e.side) e.now op
    · -- and it receives from the other end
      have hother : side = !e.side := by
        revert hside
        cases side <;> cases e.side <;> decide
      subst hother
      dsimp only
      rw [if_neg (Ne.symm hne), List.append_nil, Function.update_of_ne hne, Bool.not_not,
        Function.update_self]
      obtain ⟨log, hlink⟩ := h !e.side
      rw [Bool.not_not] at hlink
      refine ⟨log, hlink.receive (owner e.side).env e.now ?_ hsyn⟩
      rintro p rfl
      exact mem_wire_of_operation hop
  next hnone =>
    rw [hnone] at hbytes
    have hnil : ∀ side, (if e.side = side then e.bytes else []) = [] := fun side => by
      rw [hbytes]
      split <;> rfl
    intro side
    dsimp only
    rw [hnil, List.append_nil]
    exact h side

/-- A run keeps both ends linked. -/
theorem linked_exec (owner : Bool → Owner) {handed : Bool → List UInt8} (h : Linked handed c) {events : List Event}
    (hsyn : Meets (step fun side => (owner side).env) SynIsFirst c events) :
    Linked (fun side => handed side ++ handedAt events side)
      (exec (step fun side => (owner side).env) c events) := by
  induction events generalizing c handed with
  | nil =>
    intro side
    dsimp only
    rw [handedAt, List.flatMap_nil, List.append_nil]
    exact h side
  | cons e events ih =>
    have hrest := ih (linked_step owner h hsyn.1) hsyn.2
    intro side
    have hside := hrest side
    dsimp only at hside
    rw [List.append_assoc] at hside
    exact hside

/-- Two streams as the constructors leave them. -/
def new (recvStreamID : Bool → UInt32) (remoteIdentity : Bool → IdentityEx) : Connection :=
  fun side => { recvStreamID := recvStreamID side, remoteIdentity := remoteIdentity side }

theorem linked_new (recvStreamID : Bool → UInt32) (remoteIdentity : Bool → IdentityEx) :
    Linked (fun _ => []) (new recvStreamID remoteIdentity) := fun _ =>
  ⟨[], Stream.outbox_new _ _, fun _ => heard_empty, List.Pairwise.nil⟩

variable (owner : Bool → Owner) (recvStreamID : Bool → UInt32) (remoteIdentity : Bool → IdentityEx)

/-- Two new streams after some events. -/
def run (events : List Event) : Connection :=
  exec (step fun side => (owner side).env) (new recvStreamID remoteIdentity) events

/-- Whatever the network does: as long as every SYN that is delivered is the first one, what has been read
at an end, and what waits to be read there, is a prefix of what has been handed over at the other end. The
other end has sent no more packets than there are sequence numbers. -/
theorem pushed_isPrefix {events : List Event}
    (hsyn : Meets (step fun side => (owner side).env) SynIsFirst (new recvStreamID remoteIdentity) events)
    (side : Bool)
    (hcount : (run owner recvStreamID remoteIdentity events !side).wire.length +
      (run owner recvStreamID remoteIdentity events !side).posted.length ≤ 2 ^ 32) :
    (run owner recvStreamID remoteIdentity events side).inbound.pushed <+: handedAt events !side := by
  obtain ⟨log, hlink⟩ := linked_exec owner (linked_new recvStreamID remoteIdentity) hsyn !side
  dsimp only at hlink
  rw [List.nil_append, Bool.not_not] at hlink
  have hheard := hlink.heard (hlink.outbox.length_le.trans hcount)
  rw [← hlink.outbox.handed_eq]
  unfold run
  by_cases hbegun : Begun log
  · -- what has been processed is the front of the log
    obtain ⟨k, hk⟩ := hheard.inSequence hbegun
    rw [← Inbound.pushed_untimed, hk.pushed_eq]
    obtain ⟨rest, hrest⟩ := (List.take_prefix k log).map Packet.payload
    rw [← hrest, List.flatten_append, List.append_assoc]
    exact List.prefix_append _ _
  · -- without a SYN nothing is delivered
    obtain ⟨-, hqueue, hdelivered⟩ := hheard.deaf hbegun
    unfold Inbound.pushed
    rw [hqueue, hdelivered]
    exact List.nil_prefix

/-! ### A conversation -/

/-- The stream IDs of the two ends. -/
def quietIDs (side : Bool) : UInt32 := if side then 1 else 2

/-- Two bytes are handed over one by one, and the packet with the second one comes twice. -/
theorem pushed_isPrefix_politeEvents :
    (run (fun _ => quietOwner) quietIDs (fun _ => {}) politeEvents false).inbound.pushed = [1, 2] ∧
      (run (fun _ => quietOwner) quietIDs (fun _ => {}) politeEvents false).inbound.pushed <+:
        handedAt politeEvents true := by
  refine ⟨by decide +kernel, ?_⟩
  apply pushed_isPrefix (fun _ => quietOwner) quietIDs (fun _ => {}) _ false
  · decide +kernel
  · decide +kernel

/-! ## Nothing is lost -/

/-- Each end runs by itself. -/
theorem exists_operations (env : Bool → StreamEnv) (c : Connection) (events : List Event) (side : Bool) :
    ∃ ops, exec (step env) c events side = exec (Stream.stepAt (env side)) (c side) ops ∧
      Stream.handedBytes ops = handedAt events side := by
  induction events generalizing c with
  | nil => exact ⟨[], rfl, rfl⟩
  | cons e events ih =>
    obtain ⟨ops, hexec, hbytes⟩ := ih (c.step env e)
    have hevent := bytes_of_operation c e
    cases hop : c.operation e with
    | none =>
      refine ⟨ops, ?_, ?_⟩
      · -- a packet that was never sent does not arrive
        have hstep : c.step env e = c := by
          unfold Connection.step
          rw [hop]
        rw [hstep] at hexec
        show exec (step env) (c.step env e) events side = _
        rw [hstep]
        exact hexec
      · rw [hop] at hevent
        rw [handedAt, List.flatMap_cons, hevent, hbytes]
        split <;> rfl
    | some op =>
      have hstep : c.step env e =
          Function.update c e.side ((c e.side).step (env e.side) e.now op) := by
        unfold Connection.step
        rw [hop]
      rw [hop] at hevent
      by_cases hside : e.side = side
      · -- the end of the event runs the operation, and the other end stays
        subst hside
        rw [hstep, Function.update_self] at hexec
        refine ⟨(e.now, op) :: ops, ?_, ?_⟩
        · show exec (step env) (c.step env e) events e.side = _
          rw [hstep]
          exact hexec
        · rw [handedAt, List.flatMap_cons, if_pos rfl, hevent, ← handedAt, ← hbytes]
          rfl
      · rw [hstep, Function.update_of_ne (Ne.symm hside)] at hexec
        refine ⟨ops, ?_, ?_⟩
        · show exec (step env) (c.step env e) events side = _
          rw [hstep]
          exact hexec
        · rw [handedAt, List.flatMap_cons, if_neg hside, List.nil_append, ← handedAt, hbytes]

end Connection

end Streaming
