import Xi2p.Identity.Codec
import Xi2p.Lib.Runs
import Xi2p.NTCP.Agreement

/-!
# Authentication in the NTCP handshake

One end of a handshake, whatever arrives there.

* `Session.after`: the session after some turns, each of which finds other bytes.
* `Session.ServerKnows`, `Session.ClientKnows`: what an end has checked so far.
* `server_authenticated`: a server that is connected has been sent a request for itself, and a signature
  over its own key that the identity it has read accepts.
* `client_authenticated`: a client that is connected has been sent a signature of the router that it
  wanted to connect to.
-/

namespace NTCP

open Bytes I2NP CBC Identity

namespace Session

variable (crypto : HandshakeCrypto)

/-- A turn, after which the bytes that are left are lost. -/
def receive (s : Session) (arrived : List UInt8) : Session := (s.turn crypto arrived).1

/-- The session after some turns. -/
def after (s : Session) (arrivals : List (List UInt8)) : Session := Runs.exec (receive crypto) s arrivals

/-- Either end of a connection is a session after some turns. -/
theorem exists_after (w : World) (turns : List Turn) :
    (∃ arrivals, (Runs.exec (World.step crypto) w turns).client = w.client.after crypto arrivals) ∧
      ∃ arrivals, (Runs.exec (World.step crypto) w turns).server = w.server.after crypto arrivals := by
  induction turns generalizing w with
  | nil => exact ⟨⟨[], rfl⟩, ⟨[], rfl⟩⟩
  | cons t turns ih =>
    obtain ⟨⟨clientArrivals, hclient⟩, serverArrivals, hserver⟩ := ih (w.step crypto t)
    -- the end whose turn it is has found one more piece of the bytes
    cases t with
    | client => exact ⟨⟨w.toClient :: clientArrivals, hclient⟩, serverArrivals, hserver⟩
    | server => exact ⟨⟨clientArrivals, hclient⟩, w.toServer :: serverArrivals, hserver⟩

/-! ## Server -/

/-- An identity that was read, or one whose hash has never been set. -/
structure IsRead (id : IdentityEx) : Prop where
  verifier_eq : id.verifier = none
  hash : id.WellFormed crypto.identity ∨ id.identHash = IdentHash.zero

/-- The request was meant for this router, and has been answered with its own key. -/
structure IsAsked (s : Session) : Prop where
  ident : s.hxXorHI.xor (hashBlock s.party.keys.pub.identHash) =
    hashBlock (crypto.identity.sha256 s.x.bytes)
  y_eq : s.y = s.party.dhPublicKey

/-- The other end has signed both keys and the hash of this router. -/
def IsSigned (s : Session) (tsB : List UInt8) : Prop :=
  ∃ (tsA : UInt32) (signature : List UInt8), s.remoteIdentity.verify crypto.identity
    (s.signedData s.party.keys.pub.identHash (s.party.order.bytes tsA) tsB) signature = true

/-- What a server has checked so far. -/
inductive ServerKnows (party : Party) (s : Session) : Prop
  | closed (hterminated : s.isTerminated = true) (hestablished : s.isEstablished = false)
  | listening (hpending : s.pending = .phase1Received) (hparty : s.party = party)
    (hremote : s.remoteIdentity = {}) (hestablished : s.isEstablished = false)
  | asked (hpending : s.pending = .phase2Sent (party.order.timestampB party.seconds) ∨
      s.pending = .phase3Received (party.order.timestampB party.seconds))
    (hparty : s.party = party) (hasked : s.IsAsked crypto) (hremote : s.remoteIdentity = {})
    (hestablished : s.isEstablished = false)
  | reading {paddingLen count : ℕ} (hpending : s.pending =
      .phase3ExtraReceived (party.order.timestampB party.seconds) paddingLen count)
    (hparty : s.party = party) (hasked : s.IsAsked crypto) (hread : IsRead crypto s.remoteIdentity)
    (hestablished : s.isEstablished = false)
  | checked (hpending : s.pending = .phase4Sent ∨ s.pending = .payload) (hparty : s.party = party)
    (hasked : s.IsAsked crypto) (hread : IsRead crypto s.remoteIdentity)
    (hsigned : s.IsSigned crypto (party.order.timestampB party.seconds))

variable {crypto} {party : Party} {s : Session}

theorem IsRead.fresh_eq {id : IdentityEx} (h : IsRead crypto id) : id.fresh = id := by
  rw [IdentityEx.fresh, ← h.verifier_eq]

/-- An identity that is rejected leaves a hash of zeros. -/
theorem isRead_fromBuffer (m : Mem) (pos len : ℕ) :
    IsRead crypto (IdentityEx.fromBuffer crypto.identity {} m pos len).1 := by
  rcases Nat.eq_zero_or_pos (IdentityEx.fromBuffer crypto.identity {} m pos len).2 with hzero | hpos
  · rw [IdentityEx.fromBuffer_snd] at hzero
    refine ⟨?_, .inr ?_⟩
    · by_cases hlen : len < defaultIdentitySize
      · rw [IdentityEx.fromBuffer, if_pos hlen]
      · rw [IdentityEx.fromBuffer_of_lenIn_eq_zero hzero (Nat.not_lt.mp hlen)]
    · rw [IdentityEx.fromBuffer_identHash, if_pos hzero]
  · obtain ⟨hwellFormed, hverifier, -⟩ := IdentityEx.fromBuffer_of_pos hpos
    exact ⟨hverifier, .inl hwellFormed⟩

theorem knows_terminate (s : Session) : s.terminate.ServerKnows crypto party := .closed rfl rfl

/-- A session that could not agree on a key differs only in its end. -/
theorem createAESKey_cases (crypto : HandshakeCrypto) (s : Session) (otherKey : Block pubKeySize) :
    (s.createAESKey crypto otherKey).2 = s ∨ (s.createAESKey crypto otherKey).2 = s.terminate := by
  rw [createAESKey]
  split
  · exact .inl rfl
  · exact .inr rfl

theorem knows_handlePhase1Received (hparty : s.party = party) (hremote : s.remoteIdentity = {})
    (hestablished : s.isEstablished = false) (bytes : List UInt8) :
    (s.handlePhase1Received crypto bytes).1.ServerKnows crypto party := by
  rw [handlePhase1Received]
  split
  next hident =>
    subst hparty
    rw [sendPhase2]
    generalize hagreed : createAESKey crypto _ _ = agreed
    -- without a key the session is terminated, and goes on all the same
    have hcases := createAESKey_cases crypto { s with
      x := Block.ofBytes bytes 0
      hxXorHI := Block.ofBytes bytes pubKeySize
      y := s.party.dhPublicKey } (Block.ofBytes bytes 0)
    rw [hagreed] at hcases
    rcases hcases with heq | heq <;> simp only [heq]
    · exact .asked (.inl rfl) rfl ⟨hident, rfl⟩ hremote hestablished
    · exact .asked (.inl rfl) rfl ⟨hident, rfl⟩ hremote rfl
  · exact knows_terminate _

theorem knows_handlePhase3 (hparty : s.party = party) (hasked : s.IsAsked crypto)
    (hread : IsRead crypto s.remoteIdentity) (paddingLen : ℕ) :
    (s.handlePhase3 crypto (party.order.timestampB party.seconds) paddingLen).1.ServerKnows crypto party := by
  rw [handlePhase3]
  split
  next hverify =>
    rw [hread.fresh_eq]
    exact .checked (.inl rfl) hparty ⟨hasked.ident, hasked.y_eq⟩ hread ⟨_, _, hverify⟩
  · exact knows_terminate s

theorem knows_handlePhase3Received (hparty : s.party = party) (hasked : s.IsAsked crypto)
    (hremote : s.remoteIdentity = {}) (hestablished : s.isEstablished = false) (bytes : List UInt8) :
    (s.handlePhase3Received crypto (party.order.timestampB party.seconds) bytes).1.ServerKnows crypto
      party := by
  have hread (m : Mem) (len : ℕ) :
      IsRead crypto (IdentityEx.fromBuffer crypto.identity s.remoteIdentity m phase3AliceRI len).1 := by
    rw [hremote]
    exact isRead_fromBuffer m _ len
  rw [handlePhase3Received]
  dsimp only
  split
  · split
    · exact .closed rfl rfl
    · exact .reading rfl hparty ⟨hasked.ident, hasked.y_eq⟩ (hread _ _) hestablished
  · split
    · apply knows_handlePhase3
      · exact hparty
      · exact ⟨hasked.ident, hasked.y_eq⟩
      · exact hread _ _
    · apply knows_handlePhase3
      · exact hparty
      · exact ⟨hasked.ident, hasked.y_eq⟩
      · exact hread _ _

/-- A turn of a server, whatever has arrived. -/
theorem ServerKnows.receive (h : s.ServerKnows crypto party) (arrived : List UInt8) :
    (s.receive crypto arrived).ServerKnows crypto party := by
  by_cases hopen : s.isTerminated = true
  · rwa [Session.receive, turn, if_pos hopen]
  rw [Bool.not_eq_true] at hopen
  cases h with
  | closed hterminated => simp [hopen] at hterminated
  | listening hpending hparty hremote hestablished =>
    simp only [Session.receive, turn, whenArrived, hopen, hpending, Bool.false_eq_true, if_false]
    split
    · exact .listening hpending hparty hremote hestablished
    · exact knows_handlePhase1Received hparty hremote hestablished _
  | asked hpending hparty hasked hremote hestablished =>
    -- the answer may still have to be sent
    rcases hpending with hpending | hpending <;>
      simp only [Session.receive, turn, whenArrived, hopen, hpending, Bool.false_eq_true, if_false]
    · exact .asked (.inr rfl) hparty ⟨hasked.ident, hasked.y_eq⟩ hremote hestablished
    · split
      · exact .asked (.inr hpending) hparty hasked hremote hestablished
      · exact knows_handlePhase3Received hparty hasked hremote hestablished _
  | reading hpending hparty hasked hread hestablished =>
    simp only [Session.receive, turn, whenArrived, hopen, hpending, Bool.false_eq_true, if_false]
    split
    · exact .reading hpending hparty hasked hread hestablished
    · apply knows_handlePhase3
      · exact hparty
      · exact ⟨hasked.ident, hasked.y_eq⟩
      · exact hread
  | checked hpending hparty hasked hread hsigned =>
    rcases hpending with hpending | hpending <;>
      simp only [Session.receive, turn, hopen, hpending, Bool.false_eq_true, if_false]
    · exact .checked (.inr rfl) hparty ⟨hasked.ident, hasked.y_eq⟩ hread hsigned
    · exact .checked (.inr hpending) hparty hasked hread hsigned

theorem ServerKnows.established (h : s.ServerKnows crypto party) (hestablished : s.isEstablished = true) :
    s.party = party ∧ s.IsAsked crypto ∧ IsRead crypto s.remoteIdentity ∧
      s.IsSigned crypto (party.order.timestampB party.seconds) := by
  cases h with
  | closed _ hfalse => simp [hestablished] at hfalse
  | listening _ _ _ hfalse => simp [hestablished] at hfalse
  | asked _ _ _ _ hfalse => simp [hestablished] at hfalse
  | reading _ _ _ _ hfalse => simp [hestablished] at hfalse
  | checked _ hparty hasked hread hsigned => exact ⟨hparty, hasked, hread, hsigned⟩

/-- Whatever is sent to a server: if it is connected, the request was for its own hash, and the identity
that it has read accepts a signature over the key of the request, its own key, its own hash and its own
time. -/
theorem server_authenticated (crypto : HandshakeCrypto) (party : Party) (buffer : Mem)
    (arrivals : List (List UInt8)) :
    let s := (Session.new party {} buffer .phase1Received).after crypto arrivals
    s.isEstablished = true → s.party = party ∧ s.IsAsked crypto ∧ IsRead crypto s.remoteIdentity ∧
      s.IsSigned crypto (party.order.timestampB party.seconds) := by
  intro s hestablished
  have hknows : s.ServerKnows crypto party :=
    Runs.invariant_exec (fun _ arrived h => h.receive arrived) (.listening rfl rfl rfl rfl) arrivals
  exact hknows.established hestablished

theorem server_authenticated_exampleExchange : ∃ arrivals,
    ((Session.new (exampleParty .little 2 7) {} (fun _ => 0) .phase1Received).after exampleHandshakeCrypto
      arrivals).IsSigned exampleHandshakeCrypto (ByteOrder.timestampB .little 7) := by
  obtain ⟨turns, -, hestablished⟩ := (Exchange.stage_run honest_exampleExchange []).canConnect
    honest_exampleExchange completes_exampleExchange
  obtain ⟨-, arrivals, hafter⟩ := exists_after exampleHandshakeCrypto exampleExchange.start turns
  have hafter := congrArg Session.isEstablished hafter
  exact ⟨arrivals, (server_authenticated _ _ _ arrivals (hafter.symm.trans hestablished)).2.2.2⟩

/-! ## Client -/

/-- What a client has checked so far, of the router that it wants to connect to. -/
inductive ClientKnows (crypto : HandshakeCrypto) (party : Party) (remote : IdentityEx) (s : Session) : Prop
  | closed (hterminated : s.isTerminated = true) (hestablished : s.isEstablished = false)
  | asking (hpending : s.pending = .phase1Sent ∨ s.pending = .phase2Received) (hparty : s.party = party)
    (hremote : s.remoteIdentity = remote) (hx : s.x = party.dhPublicKey)
    (hestablished : s.isEstablished = false)
  | confirming (hpending : s.pending = .phase3Sent (writeBE 4 party.seconds) ∨
      ∃ count, s.pending = .phase4Received (writeBE 4 party.seconds) count)
    (hparty : s.party = party) (hremote : s.remoteIdentity = remote) (hx : s.x = party.dhPublicKey)
    (hestablished : s.isEstablished = false)
  | checked (hpending : s.pending = .payload) (hparty : s.party = party)
    (hremote : s.remoteIdentity = remote.fresh) (hx : s.x = party.dhPublicKey)
    (hsigned : ∃ signature, remote.verify crypto.identity
      (s.signedData party.keys.pub.identHash (writeBE 4 party.seconds) s.timestamp) signature = true)

variable {remote : IdentityEx}

theorem knows_handlePhase2Received (hparty : s.party = party) (hremote : s.remoteIdentity = remote)
    (hx : s.x = party.dhPublicKey) (hestablished : s.isEstablished = false) (bytes : List UInt8) :
    (s.handlePhase2Received crypto bytes).1.ClientKnows crypto party remote := by
  subst hparty
  rw [handlePhase2Received]
  generalize hagreed : createAESKey crypto _ _ = agreed
  -- again, a session without a key goes on
  have hcases := createAESKey_cases crypto { s with y := Block.ofBytes bytes 0 }
    (Block.ofBytes bytes 0)
  rw [hagreed] at hcases
  rcases hcases with heq | heq <;> simp only [heq] <;> split
  · exact .confirming (.inl rfl) rfl hremote hx hestablished
  · exact .closed rfl rfl
  · exact .confirming (.inl rfl) rfl hremote hx rfl
  · exact .closed rfl rfl

theorem knows_handlePhase4Received (hparty : s.party = party) (hremote : s.remoteIdentity = remote)
    (hx : s.x = party.dhPublicKey) (bytes : List UInt8) :
    (s.handlePhase4Received crypto (writeBE 4 party.seconds) bytes).ClientKnows crypto party remote := by
  subst hparty hremote
  rw [handlePhase4Received]
  split
  next hverify => exact .checked rfl rfl rfl hx ⟨_, hverify⟩
  · exact .closed rfl rfl

/-- A turn of a client, whatever has arrived. -/
theorem ClientKnows.receive (h : s.ClientKnows crypto party remote) (arrived : List UInt8) :
    (s.receive crypto arrived).ClientKnows crypto party remote := by
  by_cases hopen : s.isTerminated = true
  · rwa [Session.receive, turn, if_pos hopen]
  rw [Bool.not_eq_true] at hopen
  cases h with
  | closed hterminated => simp [hopen] at hterminated
  | asking hpending hparty hremote hx hestablished =>
    rcases hpending with hpending | hpending <;>
      simp only [Session.receive, turn, whenArrived, hopen, hpending, Bool.false_eq_true, if_false]
    · exact .asking (.inr rfl) hparty hremote hx hestablished
    · split
      · exact .asking (.inr hpending) hparty hremote hx hestablished
      · exact knows_handlePhase2Received hparty hremote hx hestablished _
  | confirming hpending hparty hremote hx hestablished =>
    rcases hpending with hpending | ⟨count, hpending⟩ <;>
      simp only [Session.receive, turn, whenArrived, hopen, hpending, Bool.false_eq_true, if_false]
    · exact .confirming (.inr ⟨_, rfl⟩) hparty hremote hx hestablished
    · split
      · exact .confirming (.inr ⟨count, hpending⟩) hparty hremote hx hestablished
      · exact knows_handlePhase4Received hparty hremote hx _
  | checked hpending hparty hremote hx hsigned =>
    simp only [Session.receive, turn, hopen, hpending, Bool.false_eq_true, if_false]
    exact .checked hpending hparty hremote hx hsigned

theorem ClientKnows.established (h : s.ClientKnows crypto party remote) (hestablished : s.isEstablished = true) :
    s.party = party ∧ s.remoteIdentity = remote.fresh ∧ s.x = party.dhPublicKey ∧
      ∃ signature, remote.verify crypto.identity
        (s.signedData party.keys.pub.identHash (writeBE 4 party.seconds) s.timestamp) signature = true := by
  cases h with
  | closed _ hfalse => simp [hestablished] at hfalse
  | asking _ _ _ _ hfalse => simp [hestablished] at hfalse
  | confirming _ _ _ _ hfalse => simp [hestablished] at hfalse
  | checked _ hparty hremote hx hsigned => exact ⟨hparty, hremote, hx, hsigned⟩

/-- Whatever is sent to a client: if it is connected, the router that it wanted to connect to accepts a
signature over the key of the client, the key that it has received, its hash and both times. -/
theorem client_authenticated (crypto : HandshakeCrypto) (party : Party) (remote : IdentityEx) (buffer : Mem)
    (arrivals : List (List UInt8)) :
    let s := ((Session.new party remote buffer .phase1Sent).sendPhase1 crypto).1.after crypto arrivals
    s.isEstablished = true → s.party = party ∧ s.remoteIdentity = remote.fresh ∧ s.x = party.dhPublicKey ∧
      ∃ signature, remote.verify crypto.identity
        (s.signedData party.keys.pub.identHash (writeBE 4 party.seconds) s.timestamp) signature = true := by
  intro s hestablished
  have hknows : s.ClientKnows crypto party remote :=
    Runs.invariant_exec (fun _ arrived h => h.receive arrived) (.asking (.inl rfl) rfl rfl rfl rfl) arrivals
  exact hknows.established hestablished

theorem client_authenticated_exampleExchange : ∃ arrivals,
    (((Session.new (exampleParty .little 1 0x01020201) {} (fun _ => 0) .phase1Sent).sendPhase1
      exampleHandshakeCrypto).1.after exampleHandshakeCrypto arrivals).remoteIdentity =
        (exampleParty .little 2 7).keys.pub.fresh := by
  obtain ⟨turns, hestablished, -⟩ := (Exchange.stage_run honest_exampleExchange []).canConnect
    honest_exampleExchange completes_exampleExchange
  obtain ⟨⟨arrivals, hafter⟩, -⟩ := exists_after exampleHandshakeCrypto exampleExchange.start turns
  have hafter := congrArg Session.isEstablished hafter
  exact ⟨arrivals, (client_authenticated _ _ {} _ arrivals (hafter.symm.trans hestablished)).2.1⟩

end Session

end NTCP
