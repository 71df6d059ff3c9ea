import Xi2p.SSU.Fragmentation

/-!
# Packet sizes

`AdjustPacketSize` takes the packet size of a session from the MTU that the peer publishes, and
`Send` takes the size of the pieces from the packet size.

* `packetSize_adjustAll`: the packet size after any number of adjustments.
* `lt_length_pieces_iff`: how many pieces a message has.
* `sendsWithinBounds_iff`: the MTUs and messages for which the arithmetic of `Send` is right.
-/

namespace SSU

open Bytes I2NP

/-- `SSUSize::HeaderIPv4`. -/
abbrev headerIPv4 : ℕ := 20

/-- `SSUSize::HeaderIPv6`. -/
abbrev headerIPv6 : ℕ := 40

/-- `SSUSize::HeaderUDP`. -/
abbrev headerUDP : ℕ := 8

/-- `SSUSize::BufferMargin`: IV and size are appended on validation. -/
abbrev bufferMargin : ℕ := 18

/-- `SSUSize::FragmentBuffer`. -/
abbrev fragmentBuffer : ℕ := packetMaxIPv4 + bufferMargin

/-- `m_MaxPacketSize`, for an IPv4 or an IPv6 session. -/
def maxPacketSize (v6 : Bool) : ℕ := if v6 then packetMaxIPv6 else packetMaxIPv4

/-- The IP header of a session. -/
def headerIP (v6 : Bool) : ℕ := if v6 then headerIPv6 else headerIPv4

namespace SSUData

/-! ## The model -/

/-- The constructor sets `m_PacketSize` to the maximum. -/
def startPacketSize (v6 : Bool) (d : SSUData) : SSUData := { d with packetSize := maxPacketSize v6 }

/-- `AdjustPacketSize`; `mtu` is the MTU of the SSU address of the peer, if it has one. -/
def adjustPacketSize (v6 : Bool) (d : SSUData) (mtu : Option UInt16) : SSUData :=
  match mtu with
  | none => d
  | some mtu =>
    if mtu = 0 then d
    else
      -- the difference is an `int` and is converted to `std::size_t`, so it is never below zero
      let size := (2 ^ 64 + mtu.toNat - headerIP v6 - headerUDP) % 2 ^ 64
      if size > 0 then
        let size := (size >>> 4) <<< 4
        { d with packetSize := if size > maxPacketSize v6 then maxPacketSize v6 else size }
      else { d with packetSize := maxPacketSize v6 }

/-- The constructor and the calls of `UpdatePacketSize` adjust the size several times. -/
def adjustAll (v6 : Bool) (d : SSUData) (mtus : List (Option UInt16)) : SSUData :=
  mtus.foldl (adjustPacketSize v6) d

/-- What a round of the loop of `Send` leaves of `len`. -/
def remaining (d : SSUData) (len : ℕ) : ℕ := if len ≤ d.payloadSize then 0 else len - d.payloadSize

/-- The arithmetic of `AdjustPacketSize` and `Send` is as intended. -/
structure SendsWithinBounds (v6 : Bool) (d : SSUData) (msg : I2NPMessage) : Prop where
  packetSize_mod : d.packetSize % 16 = 0
  packetSize_le : d.packetSize ≤ maxPacketSize v6
  payloadSize_pos : 0 < d.payloadSize
  /-- The difference does not wrap. -/
  payloadSize_add : d.payloadSize + (headerMin + 9) = d.packetSize
  /-- A padded fragment fits its buffer, with the margin. -/
  len_add_le : ∀ f ∈ d.fragmentsOf msg, f.len + bufferMargin ≤ fragmentBuffer
  /-- A fragment number fits its seven bits. -/
  fragmentNum_lt : ∀ f ∈ d.fragmentsOf msg, f.fragmentNum < 2 ^ 7
  /-- The loop ends. -/
  terminates : ∃ rounds, d.remaining^[rounds] msg.toSSU.1.getLength = 0

end SSUData

/-! ## The packet size of an MTU -/

/-- The MTU that counts: the last one that is published. -/
def lastMTU (mtus : List (Option UInt16)) : UInt16 :=
  mtus.foldl (fun last mtu => if mtu.getD 0 = 0 then last else mtu.getD 0) 0

/-- The packet size for an MTU. An MTU that does not even cover the headers counts as none. -/
def packetSizeOf (v6 : Bool) (mtu : UInt16) : ℕ :=
  if mtu.toNat ≤ headerIP v6 + headerUDP then maxPacketSize v6
  else min (maxPacketSize v6) ((mtu.toNat - (headerIP v6 + headerUDP)) / 16 * 16)

theorem headerIP_le (v6 : Bool) : headerIP v6 ≤ 40 := by
  cases v6 <;> decide

theorem maxPacketSize_le (v6 : Bool) : maxPacketSize v6 ≤ packetMaxIPv4 := by
  cases v6 <;> decide

theorem le_maxPacketSize (v6 : Bool) : 1440 ≤ maxPacketSize v6 := by
  cases v6 <;> decide

theorem maxPacketSize_mod (v6 : Bool) : maxPacketSize v6 % 16 = 0 := by
  cases v6 <;> decide

theorem packetSizeOf_zero (v6 : Bool) : packetSizeOf v6 0 = maxPacketSize v6 := if_pos (Nat.zero_le _)

theorem packetSizeOf_mod (v6 : Bool) (mtu : UInt16) : packetSizeOf v6 mtu % 16 = 0 := by
  have hmod := maxPacketSize_mod v6
  unfold packetSizeOf
  split <;> omega

theorem packetSizeOf_le (v6 : Bool) (mtu : UInt16) : packetSizeOf v6 mtu ≤ maxPacketSize v6 := by
  unfold packetSizeOf
  split
  · exact le_refl _
  · exact min_le_left _ _

/-- Only some small MTUs leave no room behind the header of a data message. -/
theorem lt_packetSizeOf_iff (v6 : Bool) (mtu : UInt16) :
    headerMin + 9 < packetSizeOf v6 mtu ↔
      mtu.toNat ≤ headerIP v6 + headerUDP ∨ headerIP v6 + headerUDP + 48 ≤ mtu.toNat := by
  have hmax := le_maxPacketSize v6
  unfold packetSizeOf
  simp only [headerMin, headerUDP]
  split <;> omega

namespace SSUData

variable {d : SSUData} {msg : I2NPMessage}

theorem packetSize_adjustPacketSize (v6 : Bool) (d : SSUData) (mtu : Option UInt16) :
    (d.adjustPacketSize v6 mtu).packetSize =
      if mtu.getD 0 = 0 then d.packetSize else packetSizeOf v6 (mtu.getD 0) := by
  cases mtu with
  | none => rfl
  | some mtu =>
    by_cases hzero : mtu = 0
    · subst hzero
      rfl
    have hlt : mtu.toNat < 2 ^ 16 := mtu.toNat_lt
    have hheader := headerIP_le v6
    have hmax := maxPacketSize_le v6
    simp only [adjustPacketSize, Option.getD_some, if_neg hzero, packetSizeOf,
      Nat.shiftRight_eq_div_pow, Nat.shiftLeft_eq, headerUDP, packetMaxIPv4] at *
    rcases Nat.lt_trichotomy mtu.toNat (headerIP v6 + 8) with hsmall | hexact | hlarge
    · -- the difference wraps, and the size is cut to the maximum
      have hwrap : (2 ^ 64 + mtu.toNat - headerIP v6 - 8) % 2 ^ 64 =
          2 ^ 64 + mtu.toNat - headerIP v6 - 8 := Nat.mod_eq_of_lt (by omega)
      rw [hwrap, if_pos (by omega), if_pos (by omega), if_pos hsmall.le]
    · have hnone : (2 ^ 64 + mtu.toNat - headerIP v6 - 8) % 2 ^ 64 = 0 := by omega
      rw [hnone, if_neg (lt_irrefl 0), if_pos hexact.le]
    · have hdiff : (2 ^ 64 + mtu.toNat - headerIP v6 - 8) % 2 ^ 64 =
          mtu.toNat - (headerIP v6 + 8) := by omega
      have hcover : ¬ mtu.toNat ≤ headerIP v6 + 8 := by omega
      rw [hdiff, if_pos (by omega), if_neg hcover]
      dsimp only
      split <;> omega

/-- The packet size after any number of adjustments is that of the last MTU. -/
theorem packetSize_adjustAll (v6 : Bool) (d : SSUData) (mtus : List (Option UInt16)) :
    ((d.startPacketSize v6).adjustAll v6 mtus).packetSize = packetSizeOf v6 (lastMTU mtus) := by
  suffices h : ∀ (d : SSUData) (last : UInt16), d.packetSize = packetSizeOf v6 last →
      (d.adjustAll v6 mtus).packetSize = packetSizeOf v6
        (mtus.foldl (fun last mtu => if mtu.getD 0 = 0 then last else mtu.getD 0) last) from
    h _ 0 (packetSizeOf_zero v6).symm
  induction mtus with
  | nil => exact fun d last h => h
  | cons mtu mtus ih =>
    intro d last h
    refine ih (d.adjustPacketSize v6 mtu) _ ?_
    rw [packetSize_adjustPacketSize]
    by_cases hzero : mtu.getD 0 = 0
    · simpa only [if_pos hzero] using h
    · simp only [if_neg hzero]

end SSUData

/-! ## The number of pieces -/

theorem lt_length_pieces_iff {size rounds : ℕ} (hsize : 0 < size) {bytes : List UInt8}
    (hrounds : bytes.length ≤ rounds) (k : ℕ) :
    k < (pieces size rounds bytes).length ↔ k * size < bytes.length := by
  induction rounds generalizing bytes k with
  | zero =>
    have hnil : bytes.length = 0 := by omega
    simp [pieces, hnil]
  | succ rounds ih =>
    rw [pieces]
    split
    next hnil => simp [hnil]
    next hsome =>
      split
      next hle =>
        -- one piece: only `k = 0` is in front of its end
        rw [List.length_singleton]
        rcases Nat.eq_zero_or_pos k with rfl | hk
        · simp only [Nat.zero_mul]
          omega
        · have hmul : 1 * size ≤ k * size := Nat.mul_le_mul_right size hk
          omega
      next hgt =>
        rw [List.length_cons]
        rcases Nat.eq_zero_or_pos k with rfl | hk
        · simp only [Nat.zero_mul]
          omega
        · obtain ⟨j, rfl⟩ : ∃ j, k = j + 1 := ⟨k - 1, by omega⟩
          have hdrop : (bytes.drop size).length ≤ rounds := by
            rw [List.length_drop]
            omega
          rw [Nat.succ_lt_succ_iff, ih hdrop, List.length_drop, Nat.succ_mul]
          omega

theorem padTo16_le {size bound : ℕ} (hbound : bound % 16 = 0) (h : size ≤ bound) :
    padTo16 size ≤ bound := by
  unfold padTo16
  split <;> omega

namespace SSUData

variable {d : SSUData} {msg : I2NPMessage}

/-- A fragment has the number of its piece. -/
theorem exists_piece_of_mem_fragmentsOf (hpayload : 0 < d.payloadSize) {f : Fragment}
    (hf : f ∈ d.fragmentsOf msg) :
    ∃ k, ∃ hk : k < (d.piecesOf msg).length, f.fragmentNum = k ∧
      f.len = padTo16 (headerMin + 9 + ((d.piecesOf msg)[k]).length) := by
  rw [fragmentsOf_eq hpayload] at hf
  obtain ⟨k, hk, rfl⟩ := List.mem_mapIdx.mp hf
  exact ⟨k, hk, rfl, rfl⟩

/-- All fragment numbers fit seven bits exactly if the message is short enough. -/
theorem fragmentNum_lt_iff (hpayload : 0 < d.payloadSize) :
    (∀ f ∈ d.fragmentsOf msg, f.fragmentNum < 2 ^ 7) ↔
      shortHeaderSize + msg.getSize ≤ 128 * d.payloadSize := by
  have hcount := fun k => lt_length_pieces_iff hpayload (le_refl msg.ssuBytes.length) k
  rw [← I2NPMessage.length_ssuBytes]
  constructor
  · intro h
    by_contra hlong
    -- there is a piece with the number 128
    have hpiece : 128 < (d.piecesOf msg).length := (hcount 128).mpr (by omega)
    have hmem : makeFragment msg.getMsgID 128 (decide (128 + 1 = (d.piecesOf msg).length))
        ((d.piecesOf msg)[128]) ∈ d.fragmentsOf msg := by
      rw [fragmentsOf_eq hpayload]
      exact List.mem_mapIdx.mpr ⟨128, hpiece, rfl⟩
    exact absurd (h _ hmem) (lt_irrefl 128)
  · intro h f hf
    obtain ⟨k, hk, hnum, -⟩ := exists_piece_of_mem_fragmentsOf hpayload hf
    have hlt := (hcount k).mp hk
    by_contra hge
    have hmul : 128 * d.payloadSize ≤ k * d.payloadSize := Nat.mul_le_mul_right _ (by omega)
    omega

theorem len_add_le_of_payloadSize_add {bound : ℕ} (hpayload : 0 < d.payloadSize)
    (hadd : d.payloadSize + (headerMin + 9) = d.packetSize) (hmod : d.packetSize % 16 = 0)
    (hle : d.packetSize ≤ bound) {f : Fragment} (hf : f ∈ d.fragmentsOf msg) : f.len ≤ bound := by
  obtain ⟨k, hk, -, hlen⟩ := exists_piece_of_mem_fragmentsOf hpayload hf
  have hpiece : ((d.piecesOf msg)[k]).length ≤ d.payloadSize :=
    length_le_of_mem_pieces (List.getElem_mem hk)
  have hpad : padTo16 (headerMin + 9 + ((d.piecesOf msg)[k]).length) ≤ d.packetSize :=
    padTo16_le hmod (by omega)
  omega

/-- Every round takes something off the length, so the loop ends. -/
theorem exists_remaining_eq_zero (hpayload : 0 < d.payloadSize) (len : ℕ) :
    ∃ rounds, d.remaining^[rounds] len = 0 := by
  induction len using Nat.strong_induction_on with
  | _ len ih =>
    by_cases hle : len ≤ d.payloadSize
    · exact ⟨1, if_pos hle⟩
    · obtain ⟨rounds, hrounds⟩ := ih (len - d.payloadSize) (by omega)
      refine ⟨rounds + 1, ?_⟩
      rw [Function.iterate_succ_apply, remaining, if_neg hle]
      exact hrounds

/-! ## The condition -/

/-- For every sequence of published MTUs and every message, the packet size and the fragments are
within their bounds if and only if the last MTU leaves room behind the headers, or does not even
cover the headers of IP and UDP, and the message has at most `128` pieces. -/
theorem sendsWithinBounds_iff (v6 : Bool) (d : SSUData) (mtus : List (Option UInt16))
    (msg : I2NPMessage) :
    SendsWithinBounds v6 ((d.startPacketSize v6).adjustAll v6 mtus) msg ↔
      ((lastMTU mtus).toNat ≤ headerIP v6 + headerUDP ∨
        headerIP v6 + headerUDP + 48 ≤ (lastMTU mtus).toNat) ∧
      shortHeaderSize + msg.getSize ≤
        128 * (packetSizeOf v6 (lastMTU mtus) - (headerMin + 9)) := by
  have hsize := packetSize_adjustAll v6 d mtus
  generalize (d.startPacketSize v6).adjustAll v6 mtus = d at hsize
  have hmod := packetSizeOf_mod v6 (lastMTU mtus)
  have hle := packetSizeOf_le v6 (lastMTU mtus)
  have hmax := maxPacketSize_le v6
  rw [← lt_packetSizeOf_iff, ← hsize]
  rw [← hsize] at hmod hle
  constructor
  · intro h
    have hpos := h.payloadSize_pos
    have hadd := h.payloadSize_add
    refine ⟨by omega, ?_⟩
    have hpayload : d.packetSize - (headerMin + 9) = d.payloadSize := by omega
    rw [hpayload]
    exact (fragmentNum_lt_iff hpos).mp h.fragmentNum_lt
  · rintro ⟨hroom, hshort⟩
    have hpayload := payloadSize_eq hroom (hle.trans hmax)
    have hadd : d.payloadSize + (headerMin + 9) = d.packetSize := by omega
    have hpos : 0 < d.payloadSize := by omega
    refine ⟨hmod, hle, hpos, hadd, ?_, ?_, exists_remaining_eq_zero hpos _⟩
    · intro f hf
      have hlen := len_add_le_of_payloadSize_add hpos hadd hmod (hle.trans hmax) hf
      simp only [fragmentBuffer]
      omega
    · refine (fragmentNum_lt_iff hpos).mpr ?_
      rwa [← hadd, Nat.add_sub_cancel] at hshort

/-- A peer with the MTU `60` gets packets of `32` bytes, and the payload size wraps. -/
theorem not_sendsWithinBounds_mtu_60 :
    ¬ SendsWithinBounds false
      ((startPacketSize false
        { sessionState := .established
          packetSize := 0
          incompleteMessages := fun _ => none
          sentMessages := []
          receivedMessages := []
          handled := []
          datagrams := []
          timerCalls := [] }).adjustPacketSize false (some 60))
      I2NPMessage.newI2NPShortMessage := by
  intro h
  have hadd := h.payloadSize_add
  revert hadd
  decide

end SSUData

end SSU
