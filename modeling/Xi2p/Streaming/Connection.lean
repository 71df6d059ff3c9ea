import Xi2p.Streaming.Acknowledgement
import Xi2p.Streaming.Delivery

/-!
# Two streams over a network

The two ends of a stream, and a network that delivers the packets they send in any order, late,
repeatedly or never: every packet that was ever put on the wire may be delivered at any time.

* `noFalseAck_of_takesFalseAckBranch_eq_false`: if no step takes one of the branches that
  acknowledge blindly, an end only releases packets that the other end has accepted.
* `not_noFalseAck`: data that is handed to `Send` while the answer to the SYN is under way goes
  into a follow-on packet that acknowledges everything; when that packet is repeated, the other end
  drops a packet nobody has received.
-/

namespace Streaming

open Bytes Runs

/-! ## The network -/

/-- The two ends of a stream. -/
abbrev Connection := Bool → Stream

/-- What happens at one end: the arrival of the packet with index `i` among those the other end has
sent, or an operation of its own. -/
inductive Action
  | deliver (i : ℕ)
  | perform (op : Operation)

/-- An action at one end, with its time. -/
structure Event where
  /-- The end at which it happens. -/
  side : Bool
  /-- When it happens. -/
  now : UInt64
  /-- What happens. -/
  action : Action

namespace Connection

/-- The operation of an event. Packets come from the network only. -/
def operation (c : Connection) (e : Event) : Option Operation :=
  match e.action with
  | .deliver i => (c !e.side).wire[i]?.map .handleNextPacket
  | .perform (.handleNextPacket _) => none
  | .perform op => some op

/-- The effect of an event. -/
def step (env : Bool → StreamEnv) (c : Connection) (e : Event) : Connection :=
  match c.operation e with
  | some op => Function.update c e.side ((c e.side).step (env e.side) e.now op)
  | none => c

/-- A packet that was released at one end has been accepted at the other. -/
def NoFalseAck (c : Connection) : Prop :=
  ∀ side, ∀ n ∈ (c side).released, n ∈ (c !side).accepted

/-- The event takes one of the branches that acknowledge what has not been received. -/
def takesFalseAckBranch (c : Connection) (e : Event) : Bool :=
  match c.operation e with
  | some op => (c e.side).takesFalseAckBranch op
  | none => false

end Connection

/-- A stream as one of the constructors leaves it. -/
def Stream.IsNew (s : Stream) : Prop :=
  ∃ recvStreamID remoteIdentity, s = { recvStreamID, remoteIdentity }

theorem Stream.IsNew.honest {s : Stream} (h : s.IsNew) : Stream.Honest [] s := by
  obtain ⟨recvStreamID, remoteIdentity, rfl⟩ := h
  refine ⟨⟨fun h => absurd rfl h, by simp [Stream.inbound], by simp [Stream.inbound], ?_⟩, by simp,
    by simp, by simp, rfl, fun _ => ⟨rfl, rfl, rfl⟩⟩
  exact List.Pairwise.nil

/-- No operation forgets what has been accepted. -/
theorem Stream.accepted_subset_step (env : StreamEnv) (now : UInt64) (s : Stream)
    (op : Operation) : s.accepted ⊆ (s.step env now op).accepted := by
  have hsame : (s.step env now op).inbound = s.inbound →
      s.accepted ⊆ (s.step env now op).accepted := fun h => by
    rw [accepted_of_inbound_eq h]
    exact List.Subset.refl _
  cases op with
  | handleNextPacket packet =>
    have hreceive := s.inbound.accepted_subset_receive packet
    rw [← inbound_handleNextPacket env now s packet] at hreceive
    exact hreceive
  | readSome len => exact List.Subset.refl _
  | _ => exact hsame (by simp [Stream.step])

/-! ## Safety -/

namespace Connection

variable (env : Bool → StreamEnv)

/-- Both ends are honest, and what one has released the other has accepted. -/
def Sound (c : Connection) : Prop :=
  ∀ side, ∃ released, Stream.Honest released (c side) ∧ ∀ n ∈ released, n ∈ (c !side).accepted

theorem mem_wire_of_operation {c : Connection} {e : Event} {packet : Packet}
    (h : c.operation e = some (.handleNextPacket packet)) : packet ∈ (c !e.side).wire := by
  unfold operation at h
  split at h
  · obtain ⟨p, hp, heq⟩ := Option.map_eq_some_iff.mp h
    cases heq
    exact List.mem_of_getElem? hp
  · cases h
  next hne hop =>
    cases h
    exact absurd rfl (hne packet)

theorem Sound.step {c : Connection} (h : c.Sound) {e : Event}
    (hbranch : c.takesFalseAckBranch e = false) : (c.step env e).Sound := by
  unfold Connection.step
  unfold takesFalseAckBranch at hbranch
  split
  next op hop =>
    rw [hop] at hbranch
    obtain ⟨R, hhonest, hR⟩ := h e.side
    obtain ⟨Rpeer, hpeer, hRpeer⟩ := h !e.side
    have htold : ∀ packet, op = .handleNextPacket packet →
        packet.Told (c !e.side).accepted := by
      rintro packet rfl
      exact hpeer.wire packet (mem_wire_of_operation hop)
    obtain ⟨R', hhonest', hR'⟩ := hhonest.step (env e.side) e.now
      (fun packet hpacket => (htold packet hpacket).seqn_of_isSYN) hbranch
    have hne : (!e.side) ≠ e.side := by cases e.side <;> decide
    intro side
    by_cases hside : side = e.side
    · -- the end of the event: what it releases now was acknowledged truthfully
      subst hside
      refine ⟨R', by rwa [Function.update_self], ?_⟩
      rw [Function.update_of_ne hne]
      intro n hn
      rcases hR' n hn with hn | ⟨packet, rfl, hacks⟩
      · exact hR n hn
      · rcases (htold packet rfl).acks with hclose | hacked
        · have hblind : (c e.side).takesFalseAckBranchOn packet = false := hbranch
          unfold Stream.takesFalseAckBranchOn at hblind
          rw [hclose] at hblind
          simp at hblind
        · exact hacked n hacks
    · -- the other end: the peer has only accepted more
      have hother : side = !e.side := by
        revert hside
        cases side <;> cases e.side <;> decide
      subst hother
      refine ⟨Rpeer, by rwa [Function.update_of_ne hne], ?_⟩
      rw [Bool.not_not] at hRpeer ⊢
      rw [Function.update_self]
      exact fun n hn =>
        Stream.accepted_subset_step (env e.side) e.now (c e.side) op (hRpeer n hn)
  next => exact h

/-- Whatever the network does: as long as no step takes a branch that acknowledges blindly, an end
releases a packet only if the other end has accepted it. -/
theorem noFalseAck_of_takesFalseAckBranch_eq_false {c : Connection}
    (hnew : ∀ side, (c side).IsNew) {events : List Event}
    (hbranch : Meets (step env) (fun c e => c.takesFalseAckBranch e = false) c events) :
    (exec (step env) c events).NoFalseAck := by
  have hinit : c.Sound := fun side => ⟨[], (hnew side).honest, by simp⟩
  have hsound : (exec (step env) c events).Sound :=
    invariant_of_meets (fun _ _ h hb => h.step env hb) hinit hbranch
  intro side n hn
  obtain ⟨R, hhonest, hR⟩ := hsound side
  rw [hhonest.released_eq] at hn
  exact hR n hn

/-! ## A conversation -/

/-- Two new streams; `true` is the end that connects. -/
def pair : Connection := fun side => { recvStreamID := if side then 1 else 2 }

/-- The first byte goes out with the SYN, and the answer arrives before more data is sent. -/
def politeEvents : List Event :=
  [⟨true, 0, .perform (.send [1])⟩, ⟨true, 0, .perform .sendBuffer⟩, ⟨false, 1, .deliver 0⟩,
    ⟨true, 2, .deliver 0⟩, ⟨true, 3, .perform (.send [2])⟩, ⟨true, 3, .perform .sendBuffer⟩,
    ⟨false, 3, .perform (.send [3])⟩, ⟨false, 4, .deliver 1⟩, ⟨false, 4, .deliver 1⟩]

/-- The second byte is handed to `Send` while the answer to the SYN is under way; the follow-on
packet that carries it arrives twice. -/
def hastyEvents : List Event :=
  [⟨true, 0, .perform (.send [1])⟩, ⟨true, 0, .perform .sendBuffer⟩, ⟨false, 1, .deliver 0⟩,
    ⟨true, 2, .perform (.send [2])⟩, ⟨true, 2, .deliver 0⟩, ⟨false, 3, .perform (.send [3])⟩,
    ⟨false, 4, .deliver 1⟩, ⟨false, 5, .deliver 1⟩]

theorem isNew_pair (side : Bool) : (pair side).IsNew := ⟨_, _, rfl⟩

/-- In the polite conversation both SYNs are released, each after it has been accepted. -/
theorem noFalseAck_politeEvents :
    (exec (step fun _ => quietEnv) pair politeEvents true).released = [0] ∧
      (exec (step fun _ => quietEnv) pair politeEvents).NoFalseAck := by
  refine ⟨by decide +kernel, ?_⟩
  apply noFalseAck_of_takesFalseAckBranch_eq_false _ isNew_pair
  decide +kernel

/-- In the hasty conversation the answering end drops its packet `1`, which was never received. -/
theorem not_noFalseAck :
    (∀ side, (pair side).IsNew) ∧
      1 ∈ (exec (step fun _ => quietEnv) pair hastyEvents false).released ∧
      1 ∉ (exec (step fun _ => quietEnv) pair hastyEvents true).accepted ∧
      ¬ (exec (step fun _ => quietEnv) pair hastyEvents).NoFalseAck := by
  have hreleased : 1 ∈ (exec (step fun _ => quietEnv) pair hastyEvents false).released := by
    decide +kernel
  have haccepted : 1 ∉ (exec (step fun _ => quietEnv) pair hastyEvents true).accepted := by
    decide +kernel
  exact ⟨isNew_pair, hreleased, haccepted, fun h => haccepted (h false 1 hreleased)⟩

end Connection

end Streaming
