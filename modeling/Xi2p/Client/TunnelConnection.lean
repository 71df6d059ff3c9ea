import Xi2p.Lib.Bytes
import Xi2p.Lib.Runs

/-!
# Tunnel connections

A connection of a tunnel moves the bytes of a stream to a socket. One operation runs at a time: a
read of the stream into the stream buffer, or a write of the socket.

* `I2PTunnelConnection`: the connection, with the bytes that it has received and written.
* `always_relayed_iff`: when what is written is always a prefix of what was received.
-/

namespace Client

open Bytes

/-- `I2P_TUNNEL_CONNECTION_BUFFER_SIZE`. -/
abbrev tunnelConnectionBufferSize : ℕ := 8192

/-! ## The connection -/

/-- The bytes that a write is to send: some of the stream buffer, or a string of the caller. -/
inductive SendBuffer
  | streamBuffer (len : ℕ)
  | string (bytes : List UInt8)

/-- The operation that has not completed yet. -/
inductive Operation
  | idle
  | asyncReceive
  | asyncSend (buffer : SendBuffer)

/-- A connection whose class keeps a `ω` for its `Write`. -/
structure I2PTunnelConnection (ω : Type) where
  writer : ω
  streamBuffer : Mem
  /-- `m_Stream` is set. -/
  stream : Bool := true
  dead : Bool := false
  pending : Operation := .idle
  /-- The chunks that have been delivered to `HandleStreamReceive`. -/
  received : List UInt8 := []
  /-- What the socket has accepted. -/
  written : List UInt8 := []

/-- The virtual `Write` of a connection: the bytes at the start of the stream buffer, and what is
given to the socket, if anything is. -/
abbrev WriteOf (ω : Type) : Type := ω → List UInt8 → ω × Option SendBuffer

/-- What completes, or happens on the way from the socket. A write that accepts more bytes than it was
offered accepts all of them. -/
inductive TunnelEvent
  | handleStreamReceive (chunk : List UInt8)
  | streamReceiveFailed (aborted : Bool)
  | handleWrite (bytesTransferred : ℕ)
  | writeFailed (aborted : Bool)
  | terminate

namespace I2PTunnelConnection

variable {ω : Type} (write : WriteOf ω) (c : I2PTunnelConnection ω)

/-- The bytes that a write is offered. -/
def contents : SendBuffer → List UInt8
  | .streamBuffer len => slice c.streamBuffer 0 len
  | .string bytes => bytes

def streamReceive : I2PTunnelConnection ω :=
  if c.stream then { c with pending := .asyncReceive } else c

def terminate : I2PTunnelConnection ω :=
  if c.dead then c else { c with dead := true, stream := false }

/-- `HandleStreamReceive` without an error. The read has put the chunk into the stream buffer. -/
def handleStreamReceive (chunk : List UInt8) : I2PTunnelConnection ω :=
  let (writer, buffer) := write c.writer chunk
  { c with
    writer
    streamBuffer := store c.streamBuffer 0 chunk
    received := c.received ++ chunk
    pending := buffer.elim .idle .asyncSend }

/-- `HandleWrite` without an error. It is not told how many bytes the socket has accepted. -/
def handleWrite : I2PTunnelConnection ω := streamReceive { c with pending := .idle }

/-- A handler that is called with an error. -/
def failed (aborted : Bool) : I2PTunnelConnection ω :=
  if aborted then { c with pending := .idle } else terminate { c with pending := .idle }

/-- Only the operation that is pending can complete. -/
def step (e : TunnelEvent) : I2PTunnelConnection ω :=
  match e, c.pending with
  | .handleStreamReceive chunk, .asyncReceive => handleStreamReceive write c chunk
  | .streamReceiveFailed aborted, .asyncReceive => c.failed aborted
  | .handleWrite n, .asyncSend buffer =>
    handleWrite { c with written := c.written ++ (c.contents buffer).take n }
  | .writeFailed aborted, .asyncSend _ => c.failed aborted
  | .terminate, _ => c.terminate
  | _, _ => c

/-- How a connection starts: `I2PConnect`, or `HandleConnect` once the socket is connected. A
connection that is not quiet sends the identity of the other side first. -/
inductive Start
  | i2pConnect
  | handleConnect (isQuiet : Bool) (dest : List UInt8)

/-- A new connection after its start. -/
def started (writer : ω) (streamBuffer : Mem) : Start → I2PTunnelConnection ω
  | .i2pConnect => streamReceive { writer, streamBuffer }
  | .handleConnect isQuiet dest =>
    if isQuiet then streamReceive { writer, streamBuffer }
    else handleStreamReceive write { writer, streamBuffer } (dest ++ [10])

/-- What is written is a prefix of what was received, and a read only runs when all of it is
written. -/
def Relayed : Prop :=
  c.written <+: c.received ∧ (c.pending = .asyncReceive → c.written = c.received)

/-- A write accepts all it is offered, unless there is no stream to read from afterwards. -/
def AcceptsAll : TunnelEvent → Prop
  | .handleWrite n => c.stream = true →
    ∀ buffer, c.pending = .asyncSend buffer → (c.contents buffer).length ≤ n
  | _ => True

/-- `Write` of the plain connection: all of the chunk, from the stream buffer. -/
def plainWrite : WriteOf Unit := fun writer buf => (writer, some (.streamBuffer buf.length))

variable {c}

theorem step_handleStreamReceive (hreceive : c.pending = .asyncReceive) (chunk : List UInt8) :
    c.step write (.handleStreamReceive chunk) = c.handleStreamReceive write chunk := by
  rw [step.eq_def, hreceive]

theorem step_handleWrite {buffer : SendBuffer} (hsend : c.pending = .asyncSend buffer) (n : ℕ) :
    c.step write (.handleWrite n) =
      handleWrite { c with written := c.written ++ (c.contents buffer).take n } := by
  rw [step.eq_def, hsend]

/-! ## What a step keeps -/

/-- What has been written and what the pending write is offered make up what was received. -/
def Invariant (c : I2PTunnelConnection ω) : Prop :=
  match c.pending with
  | .idle => c.written <+: c.received
  | .asyncReceive => c.written = c.received
  | .asyncSend buffer => c.written ++ c.contents buffer = c.received

theorem Invariant.relayed (h : c.Invariant) : c.Relayed := by
  rw [Invariant] at h
  split at h
  next hidle =>
    refine ⟨h, fun hreceive => ?_⟩
    rw [hidle] at hreceive
    cases hreceive
  next hreceive => exact ⟨h ▸ List.prefix_rfl, fun _ => h⟩
  next buffer hsend =>
    refine ⟨h ▸ List.prefix_append _ _, fun hreceive => ?_⟩
    rw [hsend] at hreceive
    cases hreceive

/-- A read is started when all has been written. -/
theorem Invariant.streamReceive (h : c.written = c.received) (hidle : c.pending = .idle) :
    c.streamReceive.Invariant := by
  rw [I2PTunnelConnection.streamReceive]
  split
  · exact h
  · rw [Invariant, hidle]
    exact h ▸ List.prefix_rfl

/-- What `Terminate` leaves of the operation and of the bytes. -/
theorem Invariant.terminate (h : c.Invariant) : c.terminate.Invariant := by
  rw [I2PTunnelConnection.terminate]
  split
  · exact h
  · exact h

theorem Invariant.failed (h : c.Invariant) (aborted : Bool) : (c.failed aborted).Invariant := by
  have hidle : Invariant { c with pending := .idle } := h.relayed.1
  rw [I2PTunnelConnection.failed]
  split
  · exact hidle
  · exact hidle.terminate

/-- The chunk is in the stream buffer, and all of it is offered to the socket. -/
theorem Invariant.handleStreamReceive {c : I2PTunnelConnection Unit} (h : c.written = c.received)
    (chunk : List UInt8) : (c.handleStreamReceive plainWrite chunk).Invariant := by
  show c.written ++ slice (store c.streamBuffer 0 chunk) 0 chunk.length = c.received ++ chunk
  rw [slice_store_self, h]

/-- A write that accepts everything, or that is the last one. -/
theorem Invariant.handleWrite {buffer : SendBuffer} {n : ℕ} (h : c.Invariant)
    (hsend : c.pending = .asyncSend buffer)
    (haccepts : c.stream = true → (c.contents buffer).length ≤ n) :
    (I2PTunnelConnection.handleWrite
      { c with written := c.written ++ (c.contents buffer).take n }).Invariant := by
  rw [Invariant, hsend] at h
  by_cases hstream : c.stream = true
  · refine Invariant.streamReceive ?_ rfl
    rw [← h]
    exact congrArg _ (List.take_of_length_le (haccepts hstream))
  · rw [I2PTunnelConnection.handleWrite, I2PTunnelConnection.streamReceive, if_neg hstream]
    show c.written ++ (c.contents buffer).take n <+: c.received
    rw [← h]
    exact (List.prefix_append_right_inj _).mpr (List.take_prefix n _)

theorem Invariant.step {c : I2PTunnelConnection Unit} {e : TunnelEvent} (h : c.Invariant)
    (haccepts : c.AcceptsAll e) : (c.step plainWrite e).Invariant := by
  rw [I2PTunnelConnection.step.eq_def]
  split
  next chunk hreceive =>
    rw [Invariant, hreceive] at h
    exact Invariant.handleStreamReceive h chunk
  next aborted _ => exact h.failed aborted
  next n buffer hsend => exact h.handleWrite hsend fun hstream => haccepts hstream buffer hsend
  next aborted _ _ => exact h.failed aborted
  next => exact h.terminate
  next => exact h

/-- After a short write the next read starts, and bytes are missing. -/
theorem not_relayed_of_short {c : I2PTunnelConnection Unit} {e : TunnelEvent} (h : c.Invariant)
    (hshort : ¬ c.AcceptsAll e) : ¬ (c.step plainWrite e).Relayed := by
  rcases e with chunk | aborted | n | aborted | _
  case handleWrite =>
    rw [AcceptsAll] at hshort
    push Not at hshort
    obtain ⟨hstream, buffer, hsend, hlen⟩ := hshort
    rw [Invariant, hsend] at h
    rw [step_handleWrite _ hsend, I2PTunnelConnection.handleWrite, I2PTunnelConnection.streamReceive, if_pos hstream]
    rintro ⟨-, hall⟩
    have hlost : c.written ++ (c.contents buffer).take n = c.received := hall rfl
    have htake : (c.contents buffer).take n = c.contents buffer :=
      List.append_cancel_left (hlost.trans h.symm)
    rw [List.take_eq_self_iff] at htake
    omega
  all_goals exact absurd trivial hshort

theorem Invariant.started (streamBuffer : Mem) (start : Start) :
    (started plainWrite () streamBuffer start).Invariant := by
  rcases start with _ | ⟨isQuiet, dest⟩
  · exact Invariant.streamReceive rfl rfl
  · rw [I2PTunnelConnection.started]
    split
    · exact Invariant.streamReceive rfl rfl
    · exact Invariant.handleStreamReceive rfl _

/-! ## Runs -/

/-- The bytes written are always a prefix of the bytes received, and each read starts when all of
them are written, if and only if every write accepts all it is offered, as long as there is a
stream. -/
theorem always_relayed_iff (streamBuffer : Mem) (start : Start) (events : List TunnelEvent) :
    Runs.Always (step plainWrite) Relayed (started plainWrite () streamBuffer start) events ↔
      Runs.Meets (step plainWrite) AcceptsAll (started plainWrite () streamBuffer start) events :=
  Runs.always_iff_meets (I := Invariant) (fun _ _ h haccepts => h.step haccepts) (fun _ h => h.relayed)
    (fun _ _ h hshort => not_relayed_of_short h hshort) (Invariant.started streamBuffer start) events

/-- Two bytes are received, and the socket accepts one of them. -/
theorem short_write_loses_a_byte :
    ¬ Runs.Always (step plainWrite) Relayed
      (started plainWrite () (fun _ => 0) .i2pConnect)
      [.handleStreamReceive [1, 2], .handleWrite 1] := by
  intro h
  have hlost := (h _ List.prefix_rfl).2 rfl
  exact absurd hlost (by decide)

end I2PTunnelConnection

end Client
