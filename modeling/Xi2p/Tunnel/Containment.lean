import Xi2p.Tunnel.RoundTrip

/-!
# Reads outside a tunnel data message

Which bytes of a tunnel data message the endpoint reads while it parses delivery instructions,
delivers fragments and keeps them. Neither the instructions nor the size of a fragment are checked
against the end of the message.

* `uses`: the fragments that are delivered, appended or saved; every other one is discarded.
* `mem_reads_readInstructions`, `reads_handleFragment`: the reads of one round of the loop.
-/

namespace Tunnel

open Bytes I2NP TunnelDeliveryType TunnelGatewayBuffer

/-! ## The reads of one round -/

theorem mem_range'_iff {a pos n : ℕ} : a ∈ List.range' pos n ↔ pos ≤ a ∧ a < pos + n :=
  List.mem_range'_1

/-- The destination is read in one piece. -/
theorem mem_reads_readDestination {buf : Mem} {t : TunnelDeliveryType} {pos a : ℕ} :
    a ∈ (readDestination buf t pos).reads ↔ pos ≤ a ∧ a < pos + destinationSize t := by
  cases t with
  | deliveryTypeLocal =>
    simp only [readDestination, Traced.reads_pure, List.not_mem_nil, destinationSize, false_iff]
    omega
  | deliveryTypeTunnel =>
    simp only [readDestination, readID, readHash, Traced.reads_bind, Traced.reads_read,
      Traced.reads_pure, List.append_nil, List.mem_append, mem_range'_iff, destinationSize]
    omega
  | deliveryTypeRouter =>
    simp only [readDestination, readHash, Traced.reads_bind, Traced.reads_pure, List.append_nil,
      mem_range'_iff, destinationSize]
  | unknown =>
    simp only [readDestination, Traced.reads_pure, List.not_mem_nil, destinationSize, false_iff]
    omega

/-- Exactly the bytes in front of the fragment are read for its instructions. -/
theorem mem_reads_readInstructions {buf : Mem} {pos a : ℕ} :
    a ∈ (readInstructions buf pos).reads ↔
      pos ≤ a ∧ a < (readInstructions buf pos).val.pos := by
  by_cases hflag : buf pos &&& 0x80 = 0
  · by_cases hfrag : buf pos &&& 0x08 = 0
    · simp only [readInstructions, readFirstInstructions, readSize, Traced.reads_bind,
        Traced.val_bind, Traced.val_readByte, Traced.reads_readByte, hflag, hfrag, if_true,
        Traced.reads_read, Traced.reads_pure, Traced.val_pure, List.append_nil, List.mem_append,
        mem_reads_readDestination, List.mem_singleton, mem_range'_iff]
      omega
    · simp only [readInstructions, readFirstInstructions, readSize, readID, Traced.reads_bind,
        Traced.val_bind, Traced.val_readByte, Traced.reads_readByte, hflag, hfrag, if_true,
        if_false, Traced.reads_read, Traced.reads_pure, Traced.val_pure, List.append_nil,
        List.mem_append, mem_reads_readDestination, List.mem_singleton, mem_range'_iff]
      omega
  · simp only [readInstructions, readFollowOnInstructions, readSize, readID, Traced.reads_bind,
      Traced.val_bind, Traced.val_readByte, Traced.reads_readByte, hflag, if_false,
      Traced.reads_read, Traced.reads_pure, Traced.val_pure, List.append_nil, List.mem_append,
      List.mem_singleton, mem_range'_iff]
    omega

namespace TunnelEndpoint

/-- The follow-on fragment is appended to its incomplete message or saved out of sequence. -/
def usesFollowOn (ep : TunnelEndpoint) (msgID : UInt32) (fragmentNum : UInt8) (size : ℕ) : Bool :=
  match ep.incompleteMessages msgID with
  | none => (ep.outOfSequenceFragments msgID).isNone
  | some msg =>
    if fragmentNum = msg.nextFragmentNum then msg.data.len + size < maxMessageSize
    else (ep.outOfSequenceFragments msgID).isNone

/-- The fragment is delivered, appended to an incomplete message or saved out of sequence. -/
def uses (ep : TunnelEndpoint) (di : DeliveryInstructions) : Bool :=
  if !di.isFollowOnFragment && di.isLastFragment then di.deliveryType ≠ unknown
  else if di.msgID = 0 then false
  else if di.isFollowOnFragment then ep.usesFollowOn di.msgID di.fragmentNum di.size
  else (ep.incompleteMessages di.msgID).isNone

theorem reads_handleFollowOnFragment (ep : TunnelEndpoint) (msgID : UInt32) (isLast : Bool)
    (m : TunnelMessageBlockEx) (pos : ℕ) :
    (ep.handleFollowOnFragment msgID isLast m pos).reads =
      if ep.usesFollowOn msgID m.nextFragmentNum m.data.getLength = true then
        List.range' pos m.data.getLength
      else [] := by
  have hsave : (handleFollowOnFragment.saveFragment ep msgID isLast m pos).reads =
      if (ep.outOfSequenceFragments msgID).isNone = true then
        List.range' pos m.data.getLength
      else [] := by
    simp [handleFollowOnFragment.saveFragment]
  cases hinc : ep.incompleteMessages msgID with
  | none =>
    simp only [handleFollowOnFragment, usesFollowOn, hinc]
    exact hsave
  | some msg =>
    by_cases hnum : m.nextFragmentNum = msg.nextFragmentNum
    · by_cases hlen : msg.data.len + m.data.getLength < maxMessageSize
      · cases isLast <;> simp [handleFollowOnFragment, usesFollowOn, hinc, hnum, hlen]
      · simp [handleFollowOnFragment, usesFollowOn, hinc, hnum, hlen]
    · simp only [handleFollowOnFragment, usesFollowOn, hinc, hnum, if_false]
      exact hsave

theorem delivery_isSome_iff (block : TunnelMessageBlock) :
    block.delivery.isSome = decide (block.deliveryType ≠ unknown) := by
  unfold TunnelMessageBlock.delivery
  cases block.deliveryType <;> rfl

/-- The bytes of a fragment are touched iff the fragment is used. -/
theorem reads_handleFragment (ep : TunnelEndpoint) {di : DeliveryInstructions}
    {data : I2NPMessage} (hlen : data.getLength = di.size) :
    (ep.handleFragment di data).reads =
      if ep.uses di = true then List.range' di.pos di.size else [] := by
  by_cases hwhole : (!di.isFollowOnFragment && di.isLastFragment) = true
  · simp [handleFragment, uses, hwhole, delivery_isSome_iff]
  by_cases hid : di.msgID = 0
  · simp [handleFragment, uses, hwhole, hid]
  by_cases hfollow : di.isFollowOnFragment = true
  · simp only [handleFragment, uses, hid, hfollow, Bool.not_true, Bool.false_and,
      Bool.false_eq_true, if_true, if_false]
    rw [reads_handleFollowOnFragment, hlen]
  · have hlast : di.isLastFragment = false := by simpa [hfollow] using hwhole
    cases hinc : ep.incompleteMessages di.msgID with
    | none => simp [handleFragment, uses, hid, hfollow, hlast, hinc]
    | some msg => simp [handleFragment, uses, hid, hfollow, hlast, hinc]

/-! ## Containment -/

/-- An address inside the decrypted area of a tunnel data message. -/
def Inside (msg : I2NPMessage) (a : ℕ) : Prop :=
  decrypted msg ≤ a ∧ a < decrypted msg + tunnelDataEncryptedSize

/-- The instructions end inside the area, and so does the fragment if it is used. -/
def Fits (msg : I2NPMessage) (ep : TunnelEndpoint) (di : DeliveryInstructions) : Prop :=
  di.pos ≤ decrypted msg + tunnelDataEncryptedSize ∧
    (ep.uses di = true → di.pos + di.size ≤ decrypted msg + tunnelDataEncryptedSize)

theorem getLength_fragmentData (msg : I2NPMessage) (stop : ℕ) (di : DeliveryInstructions) :
    (fragmentData msg stop di).getLength = di.size := by
  rw [← I2NPMessage.length_bytes, bytes_fragmentData, length_slice]

/-- The reads of one round of the loop stay below `stop` iff the instructions and the used bytes
end there. -/
theorem forall_mem_round_iff {ep : TunnelEndpoint} {msg : I2NPMessage} {stop pos : ℕ} :
    (∀ a ∈ (readInstructions msg.buf pos).reads ++
        (ep.handleFragment (readInstructions msg.buf pos).val
          (fragmentData msg stop (readInstructions msg.buf pos).val)).reads, a < stop) ↔
      (readInstructions msg.buf pos).val.pos ≤ stop ∧
        (ep.uses (readInstructions msg.buf pos).val = true →
          (readInstructions msg.buf pos).val.pos + (readInstructions msg.buf pos).val.size ≤
            stop) := by
  have hpos := lt_pos_readInstructions msg.buf pos
  set di := (readInstructions msg.buf pos).val with hdi
  simp only [List.mem_append, mem_reads_readInstructions,
    reads_handleFragment ep (getLength_fragmentData msg stop di), ← hdi]
  by_cases huses : ep.uses di = true
  · simp only [huses, if_true, mem_range'_iff, forall_true_left]
    constructor
    · intro h
      have hlast := h (di.pos - 1) (Or.inl ⟨by omega, by omega⟩)
      refine ⟨by omega, ?_⟩
      by_cases hsize : di.size = 0
      · omega
      · have hend := h (di.pos + di.size - 1) (Or.inr ⟨by omega, by omega⟩)
        omega
    · rintro ⟨hin, hend⟩ a (ha | ha) <;> omega
  · simp only [huses, Bool.false_eq_true, if_false, List.not_mem_nil, or_false,
      IsEmpty.forall_iff, and_true]
    constructor
    · intro h
      have hlast := h (di.pos - 1) ⟨by omega, by omega⟩
      omega
    · intro h a ha
      omega

/-- The loop only reads below `stop` iff every fragment it meets fits. -/
theorem forall_mem_processFragments_iff (ep : TunnelEndpoint) (msg : I2NPMessage) (stop pos : ℕ) :
    (∀ a ∈ (ep.processFragments msg stop pos).reads, a < stop) ↔
      ∀ pre f post, fragmentsFrom msg stop pos = pre ++ f :: post →
        f.1.pos ≤ stop ∧
          ((ep.handleFragments pre).uses f.1 = true → f.1.pos + f.1.size ≤ stop) := by
  fun_induction fragmentsFrom msg stop pos generalizing ep with
  | case1 pos hpos di ih =>
    rw [processFragments, if_pos hpos]
    simp only [List.forall_mem_append]
    rw [← List.forall_mem_append, forall_mem_round_iff, ih]
    constructor
    · rintro ⟨hhead, htail⟩ pre f post hsplit
      cases pre with
      | nil =>
        obtain ⟨rfl, -⟩ := List.cons_eq_cons.mp hsplit
        exact hhead
      | cons f' pre =>
        obtain ⟨rfl, hrest⟩ := List.cons_eq_cons.mp hsplit
        exact htail pre f post hrest
    · intro h
      refine ⟨h [] _ _ rfl, fun pre f post hsplit => ?_⟩
      exact h ((di, fragmentData msg stop di) :: pre) f post (by rw [hsplit]; rfl)
  | case2 pos hpos =>
    rw [processFragments, if_neg hpos]
    simp

/-- The loop never reads in front of its position. -/
theorem le_of_mem_processFragments (ep : TunnelEndpoint) (msg : I2NPMessage) (stop pos : ℕ) :
    ∀ a ∈ (ep.processFragments msg stop pos).reads, pos ≤ a := by
  fun_induction fragmentsFrom msg stop pos generalizing ep with
  | case1 pos hpos di ih =>
    rw [processFragments, if_pos hpos]
    have hlt : pos < di.pos := lt_pos_readInstructions msg.buf pos
    intro a ha
    rcases List.mem_append.mp ha with ha | ha
    · rcases List.mem_append.mp ha with ha | ha
      · exact (mem_reads_readInstructions.mp ha).1
      · rw [reads_handleFragment ep (getLength_fragmentData msg stop _)] at ha
        split at ha
        · have hge : di.pos ≤ a := (mem_range'_iff.mp ha).1
          omega
        · exact absurd ha List.not_mem_nil
    · have hge := ih _ a ha
      omega
  | case2 pos hpos =>
    rw [processFragments, if_neg hpos]
    simp

theorem handleDecryptedTunnelDataMsg_eq {sha256 : List UInt8 → List UInt8} {msg : I2NPMessage}
    {pos : ℕ} (hfirst : firstFragmentPos msg = some pos)
    (hsum : checksumVerifies sha256 msg pos = true) (ep : TunnelEndpoint) :
    ep.handleDecryptedTunnelDataMsg sha256 msg =
      ep.processFragments (copyIV msg) (decrypted msg + tunnelDataEncryptedSize) pos := by
  unfold handleDecryptedTunnelDataMsg
  rw [hfirst]
  dsimp only
  rw [hsum, if_pos rfl]

/-- Every byte that is read for delivery instructions, delivered, appended or saved lies inside the
decrypted area of the tunnel data message, if and only if the delivery instructions of every
fragment end inside the area and every fragment that is not discarded ends inside it. -/
theorem reads_inside_iff_fits (sha256 : List UInt8 → List UInt8) (ep : TunnelEndpoint)
    (msg : I2NPMessage) :
    (∀ a ∈ (ep.handleDecryptedTunnelDataMsg sha256 msg).reads, Inside msg a) ↔
      ∀ pre f post, received sha256 msg = pre ++ f :: post →
        Fits msg (ep.handleFragments pre) f.1 := by
  unfold handleDecryptedTunnelDataMsg received
  cases hfirst : firstFragmentPos msg with
  | none => simp
  | some pos =>
    dsimp only
    by_cases hsum : checksumVerifies sha256 msg pos = true
    · rw [if_pos hsum, if_pos hsum]
      -- the fragments start behind the separator, inside the area
      have hpos : decrypted msg ≤ pos := by
        obtain ⟨z, -, hz⟩ := Option.map_eq_some_iff.mp hfirst
        omega
      have hlow := le_of_mem_processFragments ep (copyIV msg)
        (decrypted msg + tunnelDataEncryptedSize) pos
      have hupper := forall_mem_processFragments_iff ep (copyIV msg)
        (decrypted msg + tunnelDataEncryptedSize) pos
      constructor
      · intro h
        exact hupper.mp fun a ha => (h a ha).2
      · intro h a ha
        exact ⟨hpos.trans (hlow a ha), hupper.mpr h a ha⟩
    · rw [if_neg hsum, if_neg hsum]
      simp

/-- A whole message at the end of the area that claims to be `65535` bytes long: the endpoint
delivers what lies behind the tunnel data message. -/
theorem not_reads_inside :
    (∃ pos, firstFragmentPos (arrival (tunnelDataMsg quietEnv 7 0 [0, 255, 255])) = some pos ∧
      checksumVerifies quietEnv.sha256 (arrival (tunnelDataMsg quietEnv 7 0 [0, 255, 255]))
        pos = true) ∧
      ¬ ∀ a ∈ (TunnelEndpoint.init.handleDecryptedTunnelDataMsg quietEnv.sha256
          (arrival (tunnelDataMsg quietEnv 7 0 [0, 255, 255]))).reads,
        Inside (arrival (tunnelDataMsg quietEnv 7 0 [0, 255, 255])) a := by
  have hcarries : Carries (arrival (tunnelDataMsg quietEnv 7 0 [0, 255, 255]))
      (tunnelDataMsg quietEnv 7 0 [0, 255, 255]) := by
    simpa using carries_arrival [tunnelDataMsg quietEnv 7 0 [0, 255, 255]]
  have hlen : [0, 255, (255 : UInt8)].length ≤ tunnelDataMaxPayloadSize := by decide
  set msg := arrival (tunnelDataMsg quietEnv 7 0 [0, 255, 255])
  have hfirst := firstFragmentPos_of_carries hlen hcarries
  have hsum := checksumVerifies_of_carries hlen hcarries
  have hbody := standsAt_copyIV_of_carries hlen hcarries
  have hpad := length_padding quietEnv 0 hlen
  set pos := decrypted msg + 4 + (padding quietEnv 0 [0, 255, (255 : UInt8)].length).length + 1
    with hpos
  have hstop : pos + 3 = decrypted msg + tunnelDataEncryptedSize := by
    simp only [List.length_cons, List.length_nil, tunnelDataMaxPayloadSize] at hpad hpos
    simp only [tunnelDataEncryptedSize, hpos]
    omega
  -- the delivery instructions of the message
  have hread : (readInstructions (copyIV msg).buf pos).val =
      { isFollowOnFragment := false, isLastFragment := true, deliveryType := deliveryTypeLocal
        tunnelID := 0, hash := IdentHash.zero, msgID := 0, fragmentNum := 0, size := 65535
        pos := pos + 3 } := by
    obtain ⟨hflag, hsize⟩ := standsAt_cons.mp hbody
    have hslice : slice (copyIV msg).buf (pos + 1) 2 = [255, 255] := hsize
    have hmark : (0 : UInt8) &&& 0x80 = 0 := by decide
    have hwhole : (0 : UInt8) &&& 0x08 = 0 := by decide
    have htype : ofCode (((0 : UInt8) >>> 5) &&& 0x03).toNat = deliveryTypeLocal := by decide
    simp only [readInstructions, readFirstInstructions, readSize, Traced.val_bind,
      Traced.val_readByte, hflag, hmark, hwhole, if_true, Traced.val_pure, htype, readDestination,
      destinationSize, Nat.add_zero, Traced.val_read, hslice]
    rfl
  refine ⟨⟨pos, hfirst, hsum⟩, fun h => ?_⟩
  rw [handleDecryptedTunnelDataMsg_eq hfirst hsum] at h
  have hall := (forall_mem_processFragments_iff TunnelEndpoint.init (copyIV msg)
    (decrypted msg + tunnelDataEncryptedSize) pos).mp fun a ha => (h a ha).2
  rw [fragmentsFrom, if_pos (by omega)] at hall
  simp only [hread] at hall
  have hend : pos + 3 + 65535 ≤ decrypted msg + tunnelDataEncryptedSize :=
    (hall [] _ _ rfl).2 rfl
  omega

end TunnelEndpoint

end Tunnel
