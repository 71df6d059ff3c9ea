import Xi2p.Client.SOCKS

/-!
# The memory of a SOCKS handler

The members of the union `m_Address` share 256 bytes: an IPv4 address is in the first four, an IPv6 address
in the first 16, the size of a host is in the first and the host itself in the others. The replies are built
in `m_Response`, of what stands in the union when they are built.

* `RoundSafe`: the stores, the counters and the replies of one round of `HandleData`.
* `Memory.Sound`: what has been written, in every state of the parser.
* `memorySafe_iff`: for which byte strings the handler keeps to its memory.
-/

namespace Client

open Bytes

namespace SOCKS

/-! ## Memory -/

/-- Bytes of memory; `none` is one that has not been written. -/
abbrev Cells := List (Option UInt8)

/-- The size of `m_Response`. -/
abbrev responseSize : ℕ := 7 + maxHostnameSize

/-- The size of `m_Address`. -/
abbrev addressSize : ℕ := 1 + maxHostnameSize

/-- Writing bytes from a position on. -/
def Cells.put (cells : Cells) (pos : ℕ) : List UInt8 → Cells
  | [] => cells
  | b :: bs => Cells.put (cells.set pos (some b)) (pos + 1) bs

/-- `ip`, the low byte first. -/
def Cells.putIP (cells : Cells) (ip : UInt32) : Cells := cells.put 0 (writeU32 ip).reverse

/-- `dns.PushBack`, where the host has `size` bytes. -/
def Cells.pushBack (cells : Cells) (size : UInt8) (b : UInt8) : Cells :=
  (cells.set (1 + size.toNat) (some b)).set 0 (some (size + 1))

/-- `dns.size`. -/
def Cells.dnsSize (cells : Cells) : ℕ := ((cells.headD none).map UInt8.toNat).getD 0

/-- `FromString`, in a union of its own. -/
def Cells.fromString (str : List UInt8) : Cells :=
  let size := min str.length maxHostnameSize
  let cells : Cells := List.replicate addressSize none
  (cells.put 0 [UInt8.ofNat size]).put 1 (str.take size)

/-- `SOCKSHandler`, with the bytes of the members that are not initialised. -/
structure Memory where
  handler : SOCKSHandler
  /-- `m_Address`. -/
  address : Cells
  /-- `m_SOCKS4aIP`. -/
  socks4aIP : Option UInt32

/-- The constructor. -/
def Memory.new : Memory where
  handler := {}
  address := Cells.putIP (List.replicate addressSize none) 0
  socks4aIP := none

namespace SOCKSHandler

/-- A byte is stored in `dns.value`. -/
def PushesHost (s : SOCKSHandler) (b : UInt8) : Prop :=
  s.state = .getSOCKS5Host ∨
    s.state = .getSOCKS4aHost ∧ b ≠ 0 ∧ ¬ maxHostnameSize ≤ s.dns.size.toNat

instance (s : SOCKSHandler) (b : UInt8) : Decidable (s.PushesHost b) :=
  inferInstanceAs (Decidable (_ ∨ _))

/-- The index in `dns.value` of the byte that is stored. -/
def hostIndex (s : SOCKSHandler) (b : UInt8) : Option ℕ :=
  if s.PushesHost b then some s.dns.size.toNat else none

/-- The index in `ipv6` of the byte that is stored. -/
def ipv6Index (s : SOCKSHandler) : Option ℤ :=
  if s.state = .getSOCKS5IPv6 then some (16 - (s.parseLeft.toNat : ℤ)) else none

/-- `m_ParseLeft` is decreased. -/
def Counts (s : SOCKSHandler) : Prop :=
  s.state = .getSOCKS5Auth ∨ s.state = .getPort ∨ s.state = .getIPv4 ∨ s.state = .getSOCKS5IPv6 ∨
    s.state = .getSOCKS5Host

end SOCKSHandler

namespace Memory

/-- What is in `m_Address` when a byte has been stored. -/
def stored (t : Memory) (b : UInt8) : Cells :=
  if t.handler.PushesHost b then t.address.pushBack t.handler.dns.size b
  else if t.handler.state = .getIPv4 then
    t.address.putIP (t.handler.ip <<< 8 ||| b.toUInt32)
  else if t.handler.state = .getSOCKS5IPv6 then
    t.address.set (16 - t.handler.parseLeft.toNat) (some b)
  else t.address

/-- What is in `m_Address` when `EnterState` has been called, if it has. -/
def entered (s s' : SOCKSHandler) (address : Cells) : Cells :=
  if s'.state = s.state then address
  else
    match s'.state with
    | .getIPv4 => address.putIP 0
    | .getSOCKS4aHost | .getSOCKS5Host => address.set 0 (some 0)
    | _ => address

/-- The memory when a byte has led to `s'`. -/
def next (t : Memory) (b : UInt8) (s' : SOCKSHandler) : Memory where
  handler := s'
  address := entered t.handler s' (t.stored b)
  socks4aIP :=
    if s'.state = .getSOCKS4Ident ∧ t.handler.state ≠ .getSOCKS4Ident then some s'.ip else t.socks4aIP

/-- One round of the loop of `HandleData`. -/
def handleByte (t : Memory) (b : UInt8) : Memory ⊕ Except Rejection SOCKSHandler :=
  match t.handler.handleByte b with
  | .inl s' => .inl (t.next b s')
  | .inr result => .inr result

end Memory

/-! ## Replies -/

/-- The number of an error. -/
def ErrorType.code : ErrorType → UInt8
  | socks5Fail => 1
  | socks5UnsupportedCommand => 7
  | socks5UnsupportedAddress => 8
  | socks4Fail => 91

/-- `SOCKS5HostUnreachable`. -/
abbrev socks5HostUnreachable : UInt8 := 4

/-- The number of an address type. -/
def AddressType.code : AddressType → UInt8
  | ipv4 => 1
  | dns => 3
  | ipv6 => 4

/-- The number of an authentication method. -/
def AuthMethod.code : AuthMethod → UInt8
  | noAuth => 0
  | invalid => 0xff

/-- `GenerateSOCKS4Response`. -/
def generateSOCKS4Response (error : UInt8) (ip : Option UInt32) (port : UInt16) : Cells :=
  [some 0, some error] ++ (writeU16 port).map some ++
    match ip with
    | some ip => (writeU32 ip).map some
    | none => List.replicate 4 none

/-- `GenerateSOCKS5Response`. -/
def generateSOCKS5Response (error : UInt8) (type : AddressType) (address : Cells) (port : UInt16) : Cells :=
  [some 5, some error, some 0, some type.code] ++
    (match type with
    | .ipv4 => (address.take 4).reverse
    | .ipv6 => address.take 16
    | .dns => address.take (1 + address.dnsSize)) ++ (writeU16 port).map some

/-- `SOCKS5ChooseAuth`. -/
def socks5ChooseAuth (method : AuthMethod) : Cells := [some 5, some method.code]

namespace Memory

/-- `SOCKSRequestFailed`; errors of SOCKS5 become `SOCKS4Fail`. -/
def socksRequestFailed (t : Memory) (error : UInt8) : Cells :=
  match t.handler.version with
  | .socks4 => generateSOCKS4Response (if error < 90 then 91 else error) t.socks4aIP t.handler.port
  | .socks5 => generateSOCKS5Response error t.handler.addressType t.address t.handler.port

/-- `SOCKSRequestSuccess`, with the name of the local destination and the ID of the stream. -/
def socksRequestSuccess (t : Memory) (name : List UInt8) (streamID : UInt16) : Cells :=
  match t.handler.version with
  | .socks4 => generateSOCKS4Response 90 t.socks4aIP t.handler.port
  | .socks5 => generateSOCKS5Response 0 .dns (.fromString name) streamID

/-- The replies to a complete request: that it is not valid, or that there is a stream or none. -/
def completeReplies (t : Memory) (name : List UInt8) (streamID : UInt16) : List Cells :=
  match t.handler.validate with
  | .error (.failed error) => [t.socksRequestFailed error.code]
  | .error _ => []
  | .ok _ => [t.socksRequestSuccess name streamID, t.socksRequestFailed socks5HostUnreachable]

/-- The replies to which a byte can lead. -/
def replies (t : Memory) (b : UInt8) (name : List UInt8) (streamID : UInt16) : List Cells :=
  match t.handler.parseByte b with
  | .error .terminated => []
  | .error .noMethod => [socks5ChooseAuth .invalid]
  | .error (.failed error) => [t.socksRequestFailed error.code]
  | .ok s' =>
    (if t.handler.state = .getSOCKS5Auth ∧ s'.state ≠ .getSOCKS5Auth then
      [socks5ChooseAuth s'.authChosen] else []) ++
    if s'.state = .complete then (t.next b s').completeReplies name streamID else []

end Memory

/-! ## Safety -/

/-- A reply fits `m_Response`, and all of it has been written. -/
def IsReply (reply : Cells) : Prop := reply.length ≤ responseSize ∧ none ∉ reply

/-- In a round, bytes are stored inside of `m_Address`, no counter of 8 bits wraps, and replies are right. -/
structure RoundSafe (t : Memory) (b : UInt8) : Prop where
  host : ∀ i, t.handler.hostIndex b = some i → i < maxHostnameSize
  dnsSize : t.handler.PushesHost b → t.handler.dns.size ≠ 255
  ipv6 : ∀ i, t.handler.ipv6Index = some i → 0 ≤ i ∧ i < 16
  parseLeft : t.handler.Counts → t.handler.parseLeft ≠ 0
  replies : ∀ name streamID, ∀ reply ∈ t.replies b name streamID, IsReply reply

/-- However the bytes are cut, every round is safe. -/
def MemorySafe (reads : List (List UInt8)) : Prop :=
  ∀ e ∈ Incremental.feedSteps Memory.handleByte .new reads, RoundSafe e.1 e.2

/-! ## Cells -/

/-- The first cells have been written. -/
def Cells.Written (cells : Cells) (n : ℕ) : Prop := ∀ i < n, ∃ b, cells[i]? = some (some b)

variable {cells : Cells} {n : ℕ}

theorem Cells.Written.mono {m : ℕ} (h : cells.Written n) (hle : m ≤ n) : cells.Written m :=
  fun i hi => h i (lt_of_lt_of_le hi hle)

/-- A store does not make a cell uninitialised. -/
theorem Cells.Written.set (h : cells.Written n) (i : ℕ) (b : UInt8) :
    Cells.Written (cells.set i (some b)) n := by
  intro j hj
  obtain ⟨c, hc⟩ := h j hj
  rw [List.getElem?_set]
  split
  · rw [if_pos (by obtain ⟨hlt, -⟩ := List.getElem?_eq_some_iff.mp hc; omega)]
    exact ⟨b, rfl⟩
  · exact ⟨c, hc⟩

/-- One more cell. -/
theorem Cells.Written.set_self (h : cells.Written n) (hlt : n < cells.length) (b : UInt8) :
    Cells.Written (cells.set n (some b)) (n + 1) := by
  intro j hj
  rcases Nat.lt_succ_iff_lt_or_eq.mp hj with hlt' | rfl
  · exact h.set n b j hlt'
  · exact ⟨b, List.getElem?_set_self hlt⟩

@[simp] theorem Cells.length_put (cells : Cells) (pos : ℕ) (bs : List UInt8) :
    (cells.put pos bs).length = cells.length := by
  induction bs generalizing cells pos with
  | nil => rfl
  | cons b bs ih => rw [Cells.put, ih, List.length_set]

theorem Cells.Written.put (h : cells.Written n) (bs : List UInt8) (hlen : n + bs.length ≤ cells.length) :
    (cells.put n bs).Written (n + bs.length) := by
  induction bs generalizing cells n with
  | nil => exact h
  | cons b bs ih =>
    rw [List.length_cons] at hlen ⊢
    have hmore := ih (h.set_self (by omega) b) (by rw [List.length_set]; omega)
    rw [Cells.put, show n + (bs.length + 1) = n + 1 + bs.length by omega]
    exact hmore

theorem Cells.written_zero (cells : Cells) : cells.Written 0 := fun i hi => absurd hi (Nat.not_lt_zero i)

theorem Cells.written_putIP (hlen : cells.length = addressSize) (ip : UInt32) :
    (cells.putIP ip).Written 4 := by
  have hput := (Cells.written_zero cells).put (writeU32 ip).reverse (by
    rw [hlen, List.length_reverse, length_writeU32]
    decide)
  rw [List.length_reverse, length_writeU32] at hput
  exact hput

theorem Cells.none_not_mem_take (h : cells.Written n) : none ∉ cells.take n := by
  intro hmem
  obtain ⟨i, hi⟩ := List.mem_iff_getElem?.mp hmem
  obtain ⟨hlt, -⟩ := List.getElem?_eq_some_iff.mp hi
  rw [List.length_take] at hlt
  rw [List.getElem?_take_of_lt (by omega)] at hi
  obtain ⟨b, hb⟩ := h i (by omega)
  rw [hi] at hb
  cases hb

/-- A store behind the first cell. -/
theorem Cells.head?_put {pos : ℕ} (hpos : 0 < pos) (bs : List UInt8) :
    (cells.put pos bs).head? = cells.head? := by
  induction bs generalizing cells pos with
  | nil => rfl
  | cons b bs ih =>
    rw [Cells.put, ih (Nat.succ_pos pos), List.head?_eq_getElem?, List.head?_eq_getElem?,
      List.getElem?_set_ne (by omega)]

/-! ## What has been written -/

/-- The member of `m_Address` for a type of addresses has been written; of a host, its size and as many
bytes. -/
def Ready (type : AddressType) (size : UInt8) (address : Cells) : Prop :=
  match type with
  | .ipv4 => address.Written 4
  | .ipv6 => address.Written 16
  | .dns => address.head? = some (some size) ∧ address.Written (1 + size.toNat)

namespace Memory

/-- What a reply takes has been written. -/
structure Answers (t : Memory) : Prop where
  socks4aIP : t.handler.version = .socks4 → t.socks4aIP.isSome
  address : Ready t.handler.addressType t.handler.dns.size t.address

/-- What has been written in a state of the parser, and how far its countdown is. -/
def Phase (t : Memory) : Prop :=
  match t.handler.state with
  | .getSOCKSVersion | .getSOCKS5AuthNum | .getSOCKS5Auth | .getSOCKS5RequestVersion
  | .getSOCKS5ReservedField | .getSOCKS5AddressType | .getSOCKS5HostSize =>
    t.handler.version = .socks5 ∧ t.socks4aIP = none ∧ t.handler.addressType = .ipv4 ∧ t.address.Written 4
  | .getCommand => t.socks4aIP = none ∧ t.handler.addressType = .ipv4 ∧ t.address.Written 4
  | .getPort =>
    t.handler.parseLeft ≠ 0 ∧ Ready t.handler.addressType t.handler.dns.size t.address
  | .getIPv4 => t.handler.parseLeft ≠ 0 ∧ t.handler.addressType = .ipv4 ∧ t.address.Written 4
  | .getSOCKS4Ident => t.socks4aIP.isSome ∧ t.handler.addressType = .ipv4 ∧ t.address.Written 4
  | .getSOCKS4aHost =>
    t.socks4aIP.isSome ∧ t.handler.addressType = .dns ∧ Ready .dns t.handler.dns.size t.address
  | .getSOCKS5IPv6 =>
    t.handler.addressType = .ipv6 ∧ t.handler.parseLeft ≠ 0 ∧ t.handler.parseLeft.toNat ≤ 16 ∧
      t.address.Written (16 - t.handler.parseLeft.toNat)
  | .getSOCKS5Host =>
    t.handler.addressType = .dns ∧ t.handler.dns.size.toNat + t.handler.parseLeft.toNat ≤ 255 ∧
      Ready .dns t.handler.dns.size t.address
  | .complete => t.Answers

/-- The address has its size, and what the state needs has been written. -/
structure Sound (t : Memory) : Prop where
  length_address : t.address.length = addressSize
  phase : t.Phase

end Memory

/-- A countdown goes on from zero, or SOCKS4 has no address yet and the request is rejected. -/
def FaultAt (s : SOCKSHandler) (b : UInt8) : Prop :=
  (s.state = .getSOCKS5Auth ∨ s.state = .getSOCKS5Host) ∧ s.parseLeft = 0 ∨
    s.state = .getCommand ∧ s.version = .socks4 ∧ s.getCommand b = none

/-! ## Replies that are ready -/

/-- Bytes that have been written. -/
theorem none_not_mem_map_some (bs : List UInt8) : none ∉ bs.map some := by
  rintro hmem
  obtain ⟨b, -, hb⟩ := List.mem_map.mp hmem
  cases hb

theorem isReply_generateSOCKS4Response (error : UInt8) {ip : Option UInt32} (hip : ip.isSome)
    (port : UInt16) : IsReply (generateSOCKS4Response error ip port) := by
  obtain ⟨ip, rfl⟩ := Option.isSome_iff_exists.mp hip
  have hbytes : generateSOCKS4Response error (some ip) port =
      ([0, error] ++ writeU16 port ++ writeU32 ip).map some := by
    simp [generateSOCKS4Response]
  rw [hbytes]
  refine ⟨?_, none_not_mem_map_some _⟩
  simp only [List.length_map, List.length_append, length_writeU16, length_writeU32, List.length_cons,
    List.length_nil]
  decide

/-- Without an address, the reply to SOCKS4 has bytes that have not been written. -/
theorem not_isReply_generateSOCKS4Response (error : UInt8) (port : UInt16) :
    ¬ IsReply (generateSOCKS4Response error none port) := by
  rintro ⟨-, hnone⟩
  exact hnone (List.mem_append_right _ (List.mem_replicate.mpr ⟨by decide, rfl⟩))

theorem isReply_generateSOCKS5Response (error : UInt8) {type : AddressType} {size : UInt8}
    {address : Cells} (hready : Ready type size address) (port : UInt16) :
    IsReply (generateSOCKS5Response error type address port) := by
  have hpart (part : Cells) (hlen : part.length ≤ 256) (hnone : none ∉ part) :
      IsReply ([some 5, some error, some 0, some type.code] ++ part ++ (writeU16 port).map some) := by
    refine ⟨?_, ?_⟩
    · simp only [List.length_append, List.length_map, length_writeU16, List.length_cons, List.length_nil,
        responseSize, maxHostnameSize]
      omega
    · simp only [List.mem_append, not_or]
      exact ⟨⟨none_not_mem_map_some [5, error, 0, type.code], hnone⟩, none_not_mem_map_some _⟩
  cases type with
  | ipv4 =>
    refine hpart _ ?_ ?_
    · rw [List.length_reverse, List.length_take]
      omega
    · rw [List.mem_reverse]
      exact Cells.none_not_mem_take hready
  | ipv6 =>
    refine hpart _ ?_ (Cells.none_not_mem_take hready)
    rw [List.length_take]
    omega
  | dns =>
    have hsize : address.dnsSize = size.toNat := by
      rw [Cells.dnsSize, List.headD_eq_head?_getD, hready.1]
      rfl
    refine hpart _ ?_ ?_
    · have hlt := size.toNat_lt
      rw [List.length_take, hsize]
      omega
    · rw [hsize]
      exact Cells.none_not_mem_take hready.2

/-- The name that `FromString` has put in. -/
theorem ready_fromString (name : List UInt8) :
    Ready .dns (UInt8.ofNat (min name.length maxHostnameSize)) (.fromString name) := by
  have hsize : (UInt8.ofNat (min name.length maxHostnameSize)).toNat = min name.length maxHostnameSize := by
    rw [UInt8.toNat_ofNat']
    exact Nat.mod_eq_of_lt (by simp only [maxHostnameSize]; omega)
  refine ⟨Cells.head?_put Nat.one_pos _, ?_⟩
  have hfirst := (Cells.written_zero (List.replicate addressSize none)).put
    [UInt8.ofNat (min name.length maxHostnameSize)] (by simp)
  have hall := hfirst.put (name.take (min name.length maxHostnameSize)) (by simp)
  rw [hsize]
  refine hall.mono ?_
  rw [List.length_take, List.length_singleton, min_eq_left (min_le_left _ _), Nat.zero_add]

namespace Memory

variable {t : Memory} {b : UInt8} {s' : SOCKSHandler}

theorem Answers.isReply_socksRequestFailed (h : t.Answers) (error : UInt8) :
    IsReply (t.socksRequestFailed error) := by
  rw [socksRequestFailed]
  cases hversion : t.handler.version with
  | socks4 => exact isReply_generateSOCKS4Response _ (h.socks4aIP hversion) _
  | socks5 => exact isReply_generateSOCKS5Response _ h.address _

theorem Answers.isReply_socksRequestSuccess (h : t.Answers) (name : List UInt8) (streamID : UInt16) :
    IsReply (t.socksRequestSuccess name streamID) := by
  rw [socksRequestSuccess]
  cases hversion : t.handler.version with
  | socks4 => exact isReply_generateSOCKS4Response _ (h.socks4aIP hversion) _
  | socks5 => exact isReply_generateSOCKS5Response _ (ready_fromString name) _

theorem Answers.isReply_of_mem_completeReplies (h : t.Answers) (name : List UInt8) (streamID : UInt16) :
    ∀ reply ∈ t.completeReplies name streamID, IsReply reply := by
  intro reply hreply
  rw [completeReplies] at hreply
  split at hreply
  · rw [List.mem_singleton.mp hreply]
    exact h.isReply_socksRequestFailed _
  · cases hreply
  · rcases List.mem_pair.mp hreply with rfl | rfl
    · exact h.isReply_socksRequestSuccess name streamID
    · exact h.isReply_socksRequestFailed _

end Memory

/-! ## What a round keeps -/

theorem Ready.pushBack {size : UInt8} {address : Cells} (h : Ready .dns size address)
    (hlen : address.length = addressSize) (hsize : size ≠ 255) (b : UInt8) :
    Ready .dns (size + 1) (address.pushBack size b) := by
  have hlt : size.toNat < 255 := by
    have hne : size.toNat ≠ 255 := fun heq => hsize (UInt8.toNat_inj.mp heq)
    have := size.toNat_lt
    omega
  have hsucc : (size + 1).toNat = size.toNat + 1 := by
    rw [UInt8.toNat_add]
    exact Nat.mod_eq_of_lt (by simp; omega)
  refine ⟨?_, ?_⟩
  · rw [Cells.pushBack, List.head?_eq_getElem?, List.getElem?_set_self]
    rw [List.length_set, hlen]
    exact Nat.succ_pos _
  · have hmore := (h.2.set_self (by rw [hlen, addressSize, maxHostnameSize]; omega) b).set 0 (size + 1)
    rw [hsucc, show 1 + (size.toNat + 1) = 1 + size.toNat + 1 by omega]
    exact hmore

namespace Memory

theorem length_next (t : Memory) (b : UInt8) (s' : SOCKSHandler) :
    (t.next b s').address.length = t.address.length := by
  have hstored : (t.stored b).length = t.address.length := by
    unfold stored
    split_ifs <;> simp [Cells.pushBack, Cells.putIP]
  rw [← hstored]
  change (entered t.handler s' (t.stored b)).length = _
  rw [entered]
  split_ifs
  · rfl
  · split <;> simp [Cells.putIP]

variable {t : Memory} {b : UInt8} {s' : SOCKSHandler}

/-- Where no bytes are stored, a round leaves `m_Address` to `EnterState`. -/
theorem stored_eq (hpush : ¬ t.handler.PushesHost b) (hip : t.handler.state ≠ .getIPv4)
    (hipv6 : t.handler.state ≠ .getSOCKS5IPv6) : t.stored b = t.address := by
  rw [stored, if_neg hpush, if_neg hip, if_neg hipv6]

/-- A countdown that does not go on from zero. -/
theorem toNat_countDown {left : UInt8} (hne : left ≠ 0) : (left - 1).toNat + 1 = left.toNat := by
  have hpos : 0 < left.toNat := Nat.pos_of_ne_zero fun hzero => hne (UInt8.toNat_inj.mp hzero)
  have hle : (1 : UInt8) ≤ left := UInt8.le_iff_toNat_le.mpr hpos
  rw [UInt8.toNat_sub_of_le _ _ hle]
  exact Nat.sub_add_cancel hpos

/-- A host that is empty. -/
theorem ready_empty {address : Cells} (hlen : address.length = addressSize) :
    Ready .dns 0 (address.set 0 (some 0)) := by
  have hlt : 0 < address.length := by rw [hlen]; decide
  exact ⟨by rw [List.head?_eq_getElem?, List.getElem?_set_self hlt],
    (Cells.written_zero address).set_self hlt 0⟩

/-- Two bytes of the port are left. -/
theorem phase_enterPort {s : SOCKSHandler} (hready : Ready s.addressType s.dns.size (t.stored b)) :
    (t.next b (s.enterState .getPort)).Phase := by
  have haddress : (t.next b (s.enterState .getPort)).address = t.stored b := by
    change entered t.handler (s.enterState .getPort) (t.stored b) = _
    unfold entered
    split_ifs <;> rfl
  refine ⟨(by decide : (2 : UInt8) ≠ 0), ?_⟩
  rw [haddress]
  exact hready

theorem phase_getPort (h : t.Sound) (hstate : t.handler.state = .getPort)
    (hparse : t.handler.parseByte b = .ok s') : (t.next b s').Phase := by
  have hphase := h.phase
  rw [SOCKSHandler.parseByte.eq_def] at hparse
  simp only [Phase, hstate, SOCKSHandler.countDown] at hphase hparse
  split_ifs at hparse with hzero
  · cases hversion : t.handler.version <;> simp only [hversion] at hparse <;> cases hparse
    · simp [Phase, next, entered, stored, SOCKSHandler.PushesHost, SOCKSHandler.enterState, hstate,
        Cells.written_putIP h.length_address]
    · refine ⟨?_, ?_⟩
      · simp [next, SOCKSHandler.enterState]
      · simp [next, entered, stored, SOCKSHandler.PushesHost, SOCKSHandler.enterState, hstate, hphase.2]
  · cases hparse
    simp [Phase, next, entered, stored, SOCKSHandler.PushesHost, hstate, hphase.2, hzero]

theorem phase_getIPv4 (h : t.Sound) (hstate : t.handler.state = .getIPv4)
    (hparse : t.handler.parseByte b = .ok s') : (t.next b s').Phase := by
  have hphase := h.phase
  have hstored : (t.stored b).Written 4 := by
    simp [stored, SOCKSHandler.PushesHost, hstate, Cells.written_putIP h.length_address]
  rw [SOCKSHandler.parseByte.eq_def] at hparse
  simp only [Phase, hstate, SOCKSHandler.countDown] at hphase hparse
  split_ifs at hparse with hzero
  · cases hversion : t.handler.version <;> simp only [hversion] at hparse <;> cases hparse
    · simp [Phase, next, entered, SOCKSHandler.enterState, hstate, hphase.2.1, hstored]
    · refine phase_enterPort ?_
      simp only [hphase.2.1]
      exact hstored
  · cases hparse
    simp [Phase, next, entered, hstate, hphase.2.1, hstored, hzero]

theorem phase_getSOCKS5IPv6 (h : t.Sound) (hstate : t.handler.state = .getSOCKS5IPv6)
    (hparse : t.handler.parseByte b = .ok s') : (t.next b s').Phase := by
  have hphase := h.phase
  rw [SOCKSHandler.parseByte.eq_def] at hparse
  simp only [Phase, hstate, SOCKSHandler.countDown] at hphase hparse
  obtain ⟨htype, hne, hle, hwritten⟩ := hphase
  have hleft := toNat_countDown hne
  have hstored : (t.stored b).Written (16 - (t.handler.parseLeft - 1).toNat) := by
    have hmore := hwritten.set_self (by rw [h.length_address, addressSize, maxHostnameSize]; omega) b
    simp only [stored, SOCKSHandler.PushesHost, hstate]
    exact hmore.mono (by omega)
  split_ifs at hparse with hzero
  · cases hparse
    refine phase_enterPort ?_
    simp only [htype]
    rw [hzero] at hstored
    exact hstored
  · cases hparse
    refine ⟨htype, hzero, ?_, ?_⟩
    · change (t.handler.parseLeft - 1).toNat ≤ 16
      omega
    · simpa [next, entered, hstate] using hstored

theorem phase_getSOCKS5Host (h : t.Sound) (hstate : t.handler.state = .getSOCKS5Host)
    (hne : t.handler.parseLeft ≠ 0) (hparse : t.handler.parseByte b = .ok s') : (t.next b s').Phase := by
  have hphase := h.phase
  rw [SOCKSHandler.parseByte.eq_def] at hparse
  simp only [Phase, hstate, SOCKSHandler.countDown] at hphase hparse
  obtain ⟨htype, hle, hready⟩ := hphase
  have hleft := toNat_countDown hne
  have hsize : t.handler.dns.size ≠ 255 := by
    intro heq
    rw [heq] at hle
    simp at hle
    omega
  have hstored : Ready .dns (t.handler.dns.size + 1) (t.stored b) := by
    rw [stored, if_pos (.inl hstate)]
    exact hready.pushBack h.length_address hsize b
  split_ifs at hparse with hzero
  · cases hparse
    refine phase_enterPort ?_
    simp only [htype]
    exact hstored
  · cases hparse
    refine ⟨htype, ?_, ?_⟩
    · change (t.handler.dns.size + 1).toNat + (t.handler.parseLeft - 1).toNat ≤ 255
      have hadd : (t.handler.dns.size + 1).toNat ≤ t.handler.dns.size.toNat + 1 := by
        rw [UInt8.toNat_add]
        exact Nat.mod_le _ _
      omega
    · simpa [next, entered, hstate, DNSAddress.pushBack] using hstored

theorem phase_getSOCKS4aHost (h : t.Sound) (hstate : t.handler.state = .getSOCKS4aHost)
    (hparse : t.handler.parseByte b = .ok s') : (t.next b s').Phase := by
  have hphase := h.phase
  rw [SOCKSHandler.parseByte.eq_def] at hparse
  simp only [Phase, hstate] at hphase hparse
  obtain ⟨hip, htype, hready⟩ := hphase
  split_ifs at hparse with hzero hmax <;> cases hparse
  · refine ⟨fun _ => ?_, ?_⟩
    · simp [next, SOCKSHandler.enterState, hip]
    · simp [next, entered, stored, SOCKSHandler.PushesHost, SOCKSHandler.enterState, hstate, hzero, htype,
        hready]
  · have hsize : t.handler.dns.size ≠ 255 := by
      intro heq
      rw [heq] at hmax
      exact hmax le_rfl
    have hstored : Ready .dns (t.handler.dns.size + 1) (t.stored b) := by
      rw [stored, if_pos (.inr ⟨hstate, hzero, hmax⟩)]
      exact hready.pushBack h.length_address hsize b
    refine ⟨?_, htype, ?_⟩
    · simpa [next] using hip
    · simpa [next, entered, hstate, DNSAddress.pushBack] using hstored

theorem phase_getSOCKS5Auth (h : t.Sound) (hstate : t.handler.state = .getSOCKS5Auth)
    (hparse : t.handler.parseByte b = .ok s') : (t.next b s').Phase := by
  have hphase := h.phase
  rw [SOCKSHandler.parseByte.eq_def] at hparse
  simp only [Phase, hstate, SOCKSHandler.countDown] at hphase hparse
  split_ifs at hparse <;> cases hparse
  all_goals
    simp [Phase, next, entered, stored, SOCKSHandler.PushesHost, SOCKSHandler.enterState, hstate, hphase]

/-- A round that is not at fault keeps what has been written. -/
theorem Sound.next (h : t.Sound) (hfault : ¬ FaultAt t.handler b) (hparse : t.handler.parseByte b = .ok s') :
    (t.next b s').Sound := by
  refine ⟨(t.length_next b s').trans h.length_address, ?_⟩
  have hphase := h.phase
  have hparse' := hparse
  rw [SOCKSHandler.parseByte.eq_def] at hparse
  cases hstate : t.handler.state <;> simp only [Phase, hstate] at hphase hparse
  case getSOCKS5Auth => exact phase_getSOCKS5Auth h hstate hparse'
  case getPort => exact phase_getPort h hstate hparse'
  case getIPv4 => exact phase_getIPv4 h hstate hparse'
  case getSOCKS5IPv6 => exact phase_getSOCKS5IPv6 h hstate hparse'
  case getSOCKS4aHost => exact phase_getSOCKS4aHost h hstate hparse'
  case getSOCKS5Host =>
    exact phase_getSOCKS5Host h hstate (fun hzero => hfault (.inl ⟨.inr hstate, hzero⟩)) hparse'
  case complete => cases hparse
  case getSOCKS5AuthNum =>
    cases hparse
    simp [Phase, Memory.next, entered, stored, SOCKSHandler.PushesHost, SOCKSHandler.enterState, hstate,
      hphase]
  case getSOCKS5HostSize =>
    cases hparse
    have hb := b.toNat_lt
    refine ⟨rfl, ?_, ?_⟩
    · simp only [Memory.next, SOCKSHandler.enterState, UInt8.toNat_zero]
      omega
    · simpa [Memory.next, entered, stored, SOCKSHandler.PushesHost, SOCKSHandler.enterState, hstate]
        using ready_empty h.length_address
  case getCommand =>
    split at hparse
    · cases hparse
    · cases hversion : t.handler.version <;> simp only [hversion] at hparse <;> cases hparse <;>
        simp [Phase, Memory.next, entered, stored, SOCKSHandler.PushesHost, SOCKSHandler.enterState, Ready,
          hstate, hphase]
  case getSOCKS4Ident =>
    split_ifs at hparse <;> cases hparse
    · refine ⟨fun _ => ?_, ?_⟩
      · simp [Memory.next, SOCKSHandler.enterState, hphase]
      · simp [Memory.next, entered, stored, SOCKSHandler.PushesHost, SOCKSHandler.enterState, Ready, hstate,
          hphase]
    · have hempty := ready_empty h.length_address
      simp [Phase, Memory.next, entered, stored, SOCKSHandler.PushesHost, SOCKSHandler.enterState, hstate,
        hphase, hempty]
    · simp [Phase, Memory.next, entered, stored, SOCKSHandler.PushesHost, hstate, hphase]
  all_goals
    split_ifs at hparse <;> cases hparse
    all_goals
      simp [Phase, Memory.next, entered, stored, SOCKSHandler.PushesHost, SOCKSHandler.enterState,
        Cells.written_putIP h.length_address, Cells.written_zero, hstate, hphase]

theorem sound_new : Memory.new.Sound := by
  have hlen : (List.replicate addressSize (none : Option UInt8)).length = addressSize :=
    List.length_replicate
  exact ⟨by rw [new, Cells.putIP, Cells.length_put, hlen], rfl, rfl, rfl, Cells.written_putIP hlen 0⟩

/-! ## Rounds that are safe -/

/-- What a reply to a request that is rejected takes, has been written, but for the first command of
SOCKS4. -/
theorem Sound.answers_of_failed (h : t.Sound) (hfault : ¬ FaultAt t.handler b) {error : ErrorType}
    (hparse : t.handler.parseByte b = .error (.failed error)) : t.Answers := by
  have hphase := h.phase
  rw [SOCKSHandler.parseByte.eq_def] at hparse
  cases hstate : t.handler.state <;>
    simp only [Phase, hstate, SOCKSHandler.countDown] at hphase hparse
  case getCommand =>
    split at hparse
    next hnone =>
      refine ⟨fun hversion => absurd (.inr ⟨hstate, hversion, hnone⟩) hfault, ?_⟩
      simp [Ready, hphase]
    next => split at hparse <;> cases hparse
  case getSOCKS4aHost =>
    refine ⟨fun _ => hphase.1, ?_⟩
    rw [hphase.2.1]
    exact hphase.2.2
  case getSOCKS5RequestVersion | getSOCKS5ReservedField | getSOCKS5AddressType =>
    refine ⟨fun hversion => ?_, ?_⟩
    · rw [hphase.1] at hversion
      cases hversion
    · rw [hphase.2.2.1]
      exact hphase.2.2.2
  all_goals
    repeat' split at hparse
    all_goals cases hparse

/-- The replies to which a byte leads. -/
theorem Sound.isReply_of_mem_replies (h : t.Sound) (hfault : ¬ FaultAt t.handler b) (name : List UInt8)
    (streamID : UInt16) : ∀ reply ∈ t.replies b name streamID, IsReply reply := by
  have hchoose (method : AuthMethod) : IsReply (socks5ChooseAuth method) := by
    cases method <;> exact ⟨by decide, by decide⟩
  intro reply hreply
  rw [replies] at hreply
  split at hreply
  · cases hreply
  · rw [List.mem_singleton.mp hreply]
    exact hchoose _
  next error hparse =>
    rw [List.mem_singleton.mp hreply]
    exact (h.answers_of_failed hfault hparse).isReply_socksRequestFailed _
  next s' hparse =>
    rcases List.mem_append.mp hreply with hreply | hreply
    · split_ifs at hreply
      · rw [List.mem_singleton.mp hreply]
        exact hchoose _
      · cases hreply
    · split_ifs at hreply with hcomplete
      · have hphase := (h.next hfault hparse).phase
        rw [Phase, show (t.next b s').handler.state = .complete from hcomplete] at hphase
        exact hphase.isReply_of_mem_completeReplies name streamID reply hreply
      · cases hreply

/-- The index of a byte of a host, in a round that is not at fault. -/
theorem Sound.size_lt_of_pushesHost (h : t.Sound) (hfault : ¬ FaultAt t.handler b)
    (hpush : t.handler.PushesHost b) : t.handler.dns.size.toNat < maxHostnameSize := by
  have hphase := h.phase
  rcases hpush with hstate | ⟨-, -, hlt⟩
  · simp only [Phase, hstate] at hphase
    have hleft := toNat_countDown fun hzero => hfault (.inl ⟨.inr hstate, hzero⟩)
    rw [maxHostnameSize]
    omega
  · exact not_le.mp hlt

theorem Sound.parseLeft_ne (h : t.Sound) (hfault : ¬ FaultAt t.handler b) (hcounts : t.handler.Counts) :
    t.handler.parseLeft ≠ 0 := by
  have hphase := h.phase
  rcases hcounts with hstate | hstate | hstate | hstate | hstate
  · exact fun hzero => hfault (.inl ⟨.inl hstate, hzero⟩)
  · simp only [Phase, hstate] at hphase
    exact hphase.1
  · simp only [Phase, hstate] at hphase
    exact hphase.1
  · simp only [Phase, hstate] at hphase
    exact hphase.2.1
  · exact fun hzero => hfault (.inl ⟨.inr hstate, hzero⟩)

theorem Sound.ipv6Index_mem (h : t.Sound) {i : ℤ} (hi : t.handler.ipv6Index = some i) : 0 ≤ i ∧ i < 16 := by
  have hphase := h.phase
  unfold SOCKSHandler.ipv6Index at hi
  split_ifs at hi with hstate
  simp only [Phase, hstate] at hphase
  have hleft := toNat_countDown hphase.2.1
  rw [Option.some.injEq] at hi
  omega

/-- A round is safe if and only if it is not at fault. -/
theorem Sound.roundSafe_iff (h : t.Sound) : RoundSafe t b ↔ ¬ FaultAt t.handler b := by
  refine ⟨fun hsafe => ?_, fun hfault => ?_⟩
  · rintro (⟨hstate, hzero⟩ | ⟨hstate, hversion, hnone⟩)
    · refine hsafe.parseLeft ?_ hzero
      rcases hstate with hstate | hstate
      · exact .inl hstate
      · exact .inr (.inr (.inr (.inr hstate)))
    · have hphase := h.phase
      simp only [Phase, hstate] at hphase
      have hparse : t.handler.parseByte b = .error (.failed .socks5Fail) := by
        rw [SOCKSHandler.parseByte.eq_def]
        simp only [hstate, hnone]
      have hreply := hsafe.replies [] 0 (t.socksRequestFailed ErrorType.socks5Fail.code)
        (by rw [replies, hparse]; exact List.mem_singleton_self _)
      rw [socksRequestFailed, hversion, hphase.1] at hreply
      exact not_isReply_generateSOCKS4Response _ _ hreply
  · refine ⟨fun i hi => ?_, fun hpush hsize => ?_, fun i hi => h.ipv6Index_mem hi, h.parseLeft_ne hfault,
      h.isReply_of_mem_replies hfault⟩
    · unfold SOCKSHandler.hostIndex at hi
      split_ifs at hi with hpush
      rw [← Option.some.inj hi]
      exact h.size_lt_of_pushesHost hfault hpush
    · have hlt := h.size_lt_of_pushesHost hfault hpush
      rw [hsize] at hlt
      exact absurd hlt (by decide)

/-- The memory goes along with the parser. -/
theorem handleByte_handler (t : Memory) (b : UInt8) :
    t.handler.handleByte b = (t.handleByte b).map Memory.handler id := by
  rw [handleByte]
  rcases t.handler.handleByte b with s' | result <;> rfl

theorem Sound.handleByte (h : t.Sound) (hfault : ¬ FaultAt t.handler b) {t' : Memory}
    (hstep : t.handleByte b = .inl t') : t'.Sound := by
  rw [Memory.handleByte, SOCKSHandler.handleByte] at hstep
  cases hparse : t.handler.parseByte b with
  | error rejection =>
    rw [hparse] at hstep
    cases hstep
  | ok s' =>
    rw [hparse] at hstep
    dsimp only at hstep
    split_ifs at hstep
    cases hstep
    exact h.next hfault hparse

end Memory

/-- A SOCKS5 request for a host of size zero, and another byte. -/
def HasEmptyHost (bytes : List UInt8) : Prop :=
  ∃ command ∈ ([1, 2, 3] : List UInt8), ∃ x following, bytes = [5, command, 0, 3, 0, x] ++ following

/-- A greeting of SOCKS5 that offers no method, and another byte; or one that offers to use no
authentication, and a request for a host of size zero with another byte; or a SOCKS4 request with a command
that is not supported. -/
def LeadsToFault (bytes : List UInt8) : Prop :=
  (∃ x following, bytes = [5, 0, x] ++ following) ∨
    (∃ methods rest : List UInt8, methods.length ≤ 255 ∧ 0 ∈ methods ∧ HasEmptyHost rest ∧
      bytes = [5, UInt8.ofNat methods.length] ++ methods ++ rest) ∨
    ∃ command following, command ≠ 1 ∧ command ≠ 2 ∧ bytes = [4, command] ++ following

/-! ## Bytes that lead to a fault -/

namespace SOCKSHandler

/-- A step is at fault. -/
def Faulty (s : SOCKSHandler) (bytes : List UInt8) : Prop :=
  ∃ e ∈ Incremental.steps handleByte s bytes, FaultAt e.1 e.2

variable {s s' : SOCKSHandler} {b : UInt8} {bytes : List UInt8}

theorem not_faulty_nil : ¬ s.Faulty [] := by
  rintro ⟨e, he, -⟩
  cases he

theorem faulty_cons : s.Faulty (b :: bytes) ↔
    FaultAt s b ∨ ∃ s', s.parseByte b = .ok s' ∧ s'.state ≠ .complete ∧ s'.Faulty bytes := by
  rw [Faulty, Incremental.steps, handleByte]
  simp only [List.mem_cons, exists_eq_or_imp]
  refine or_congr_right ?_
  cases hparse : s.parseByte b with
  | error rejection => simp
  | ok s' =>
    by_cases hstate : s'.state = .complete
    · simp [hstate]
    · simp [hstate, Faulty]

/-- A step to another state. -/
theorem faulty_enterState {t : SOCKSHandler} {state : State} {parseLeft : UInt8}
    (hfault : ¬ FaultAt s b) (hparse : s.parseByte b = .ok (t.enterState state parseLeft))
    (hstate : state ≠ .complete) :
    s.Faulty (b :: bytes) ↔ (t.enterState state parseLeft).Faulty bytes := by
  rw [faulty_cons, hparse]
  simp [hfault, hstate]

/-- A step that is rejected. -/
theorem not_faulty_error {rejection : Rejection} (hfault : ¬ FaultAt s b)
    (hparse : s.parseByte b = .error rejection) : ¬ s.Faulty (b :: bytes) := by
  rw [faulty_cons, hparse]
  simp [hfault]

/-- States behind the fields that can be at fault. -/
def Calm (s : SOCKSHandler) : Prop :=
  match s.state with
  | .getPort | .getIPv4 | .getSOCKS4Ident | .getSOCKS4aHost | .getSOCKS5IPv6 | .complete => True
  | .getSOCKS5Host => s.parseLeft ≠ 0
  | _ => False

theorem Calm.not_faultAt (h : s.Calm) : ¬ FaultAt s b := by
  rintro (⟨hstate | hstate, hzero⟩ | ⟨hstate, -⟩) <;> simp only [Calm, hstate] at h
  exact h hzero

theorem Calm.parseByte (h : s.Calm) (hparse : s.parseByte b = .ok s') : s'.Calm := by
  rw [SOCKSHandler.parseByte.eq_def] at hparse
  cases hstate : s.state <;> simp only [Calm, hstate] at h <;> simp only [hstate, countDown] at hparse
  case getSOCKS5Host =>
    split_ifs at hparse with hzero <;> cases hparse
    · trivial
    · exact hzero
  all_goals
    repeat' split at hparse
    all_goals cases hparse
    all_goals simp [Calm, enterState, hstate]

theorem Calm.not_faulty (h : s.Calm) (bytes : List UInt8) : ¬ s.Faulty bytes := by
  induction bytes generalizing s with
  | nil => exact not_faulty_nil
  | cons b bytes ih =>
    rw [faulty_cons]
    rintro (hfault | ⟨s', hparse, -, hfaulty⟩)
    · exact h.not_faultAt hfault
    · exact ih (h.parseByte hparse) hfaulty

/-- A state in which only one byte can lead to a fault. -/
theorem faulty_iff_of_byte {t : SOCKSHandler} {state : State} {c parseLeft : UInt8}
    (hfault : ∀ b, ¬ FaultAt s b) (hparse : s.parseByte c = .ok (t.enterState state parseLeft))
    (hstate : state ≠ .complete) (hother : ∀ b bytes, b ≠ c → ¬ s.Faulty (b :: bytes)) :
    s.Faulty bytes ↔ ∃ rest, bytes = c :: rest ∧ (t.enterState state parseLeft).Faulty rest := by
  constructor
  · intro hfaulty
    rcases bytes with _ | ⟨b, rest⟩
    · exact absurd hfaulty not_faulty_nil
    · obtain rfl : b = c := by
        by_contra hne
        exact hother b rest hne hfaulty
      exact ⟨rest, rfl, (faulty_enterState (hfault b) hparse hstate).mp hfaulty⟩
  · rintro ⟨rest, rfl, hfaulty⟩
    exact (faulty_enterState (hfault c) hparse hstate).mpr hfaulty

/-- A state that has no countdown and no command. -/
theorem not_faultAt {state : State} (hstate : s.state = state) (hauth : state ≠ .getSOCKS5Auth)
    (hhost : state ≠ .getSOCKS5Host) (hcommand : state ≠ .getCommand) (b : UInt8) : ¬ FaultAt s b := by
  subst hstate
  rintro (⟨h | h, -⟩ | ⟨h, -⟩)
  · exact hauth h
  · exact hhost h
  · exact hcommand h

/-- A host whose size is zero. -/
theorem faulty_getSOCKS5HostSize (hstate : s.state = .getSOCKS5HostSize) :
    s.Faulty bytes ↔ ∃ x rest, bytes = 0 :: x :: rest := by
  have hfault := not_faultAt hstate (by decide) (by decide) (by decide)
  have hparse (b : UInt8) : s.parseByte b = .ok (s.enterState .getSOCKS5Host b) := by
    rw [parseByte.eq_def, hstate]
  rw [faulty_iff_of_byte hfault (hparse 0) (by decide)]
  · constructor
    · rintro ⟨_ | ⟨x, rest⟩, rfl, hfaulty⟩
      · exact absurd hfaulty not_faulty_nil
      · exact ⟨x, rest, rfl⟩
    · rintro ⟨x, rest, rfl⟩
      exact ⟨x :: rest, rfl, faulty_cons.mpr (.inl (.inl ⟨.inr rfl, rfl⟩))⟩
  · intro b bytes hne
    have hcalm : (s.enterState .getSOCKS5Host b).Calm := hne
    rw [faulty_enterState (hfault b) (hparse b) (by decide)]
    exact hcalm.not_faulty bytes

theorem faulty_getSOCKS5AddressType (hstate : s.state = .getSOCKS5AddressType) :
    s.Faulty bytes ↔ ∃ x rest, bytes = 3 :: 0 :: x :: rest := by
  have hfault := not_faultAt hstate (by decide) (by decide) (by decide)
  have hparse (b : UInt8) : s.parseByte b =
      if b = 1 then .ok (s.enterState .getIPv4)
      else if b = 4 then .ok (s.enterState .getSOCKS5IPv6)
      else if b = 3 then .ok (s.enterState .getSOCKS5HostSize)
      else .error (.failed .socks5Fail) := by
    rw [parseByte.eq_def, hstate]
  rw [faulty_iff_of_byte hfault (hparse 3) (by decide)]
  · simp only [faulty_getSOCKS5HostSize (enterState_state _ _)]
    constructor
    · rintro ⟨-, rfl, x, rest, rfl⟩
      exact ⟨x, rest, rfl⟩
    · rintro ⟨x, rest, rfl⟩
      exact ⟨_, rfl, x, rest, rfl⟩
  · intro b bytes hne
    have hipv4 : (s.enterState .getIPv4).Calm := trivial
    have hipv6 : (s.enterState .getSOCKS5IPv6).Calm := trivial
    by_cases h1 : b = 1
    · rw [faulty_enterState (hfault b) ((hparse b).trans (if_pos h1)) (by decide)]
      exact hipv4.not_faulty bytes
    by_cases h4 : b = 4
    · rw [faulty_enterState (hfault b) ((hparse b).trans ((if_neg h1).trans (if_pos h4))) (by decide)]
      exact hipv6.not_faulty bytes
    exact not_faulty_error (hfault b)
      ((hparse b).trans ((if_neg h1).trans ((if_neg h4).trans (if_neg hne))))

theorem faulty_getSOCKS5ReservedField (hstate : s.state = .getSOCKS5ReservedField) :
    s.Faulty bytes ↔ ∃ x rest, bytes = 0 :: 3 :: 0 :: x :: rest := by
  have hfault := not_faultAt hstate (by decide) (by decide) (by decide)
  have hparse (b : UInt8) : s.parseByte b =
      if b = 0 then .ok (s.enterState .getSOCKS5AddressType) else .error (.failed .socks5Fail) := by
    rw [parseByte.eq_def, hstate]
  rw [faulty_iff_of_byte hfault (hparse 0) (by decide)
    fun b bytes hne => not_faulty_error (hfault b) ((hparse b).trans (if_neg hne))]
  simp only [faulty_getSOCKS5AddressType (enterState_state _ _)]
  constructor
  · rintro ⟨-, rfl, x, rest, rfl⟩
    exact ⟨x, rest, rfl⟩
  · rintro ⟨x, rest, rfl⟩
    exact ⟨_, rfl, x, rest, rfl⟩

/-- The bytes of a command. -/
theorem getCommand_isSome (hversion : s.version = .socks5) :
    (s.getCommand b).isSome ↔ b ∈ ([1, 2, 3] : List UInt8) := by
  unfold getCommand
  split_ifs with h1 h2 h3 <;> simp_all

theorem faulty_getCommand_socks5 (hstate : s.state = .getCommand) (hversion : s.version = .socks5) :
    s.Faulty bytes ↔
      ∃ command ∈ ([1, 2, 3] : List UInt8), ∃ x rest, bytes = command :: 0 :: 3 :: 0 :: x :: rest := by
  have hfault (b : UInt8) : ¬ FaultAt s b := by
    rintro (⟨h | h, -⟩ | ⟨-, h, -⟩)
    · rw [hstate] at h
      cases h
    · rw [hstate] at h
      cases h
    · rw [hversion] at h
      cases h
  rcases bytes with _ | ⟨b, bytes⟩
  · refine iff_of_false not_faulty_nil ?_
    rintro ⟨command, -, x, rest, h⟩
    cases h
  cases hcommand : s.getCommand b with
  | none =>
    have hparse : s.parseByte b = .error (.failed .socks5Fail) := by
      rw [parseByte.eq_def, hstate]
      simp only [hcommand]
    refine iff_of_false (not_faulty_error (hfault b) hparse) ?_
    rintro ⟨command, hmem, x, rest, h⟩
    rw [← (List.cons.inj h).1, ← getCommand_isSome hversion, hcommand] at hmem
    cases hmem
  | some command =>
    have hparse : s.parseByte b = .ok ({ s with command }.enterState .getSOCKS5ReservedField) := by
      rw [parseByte.eq_def, hstate]
      simp only [hcommand, hversion]
    have hmem : b ∈ ([1, 2, 3] : List UInt8) := by
      rw [← getCommand_isSome hversion, hcommand]
      rfl
    rw [faulty_enterState (hfault b) hparse (by decide),
      faulty_getSOCKS5ReservedField (enterState_state _ _)]
    constructor
    · rintro ⟨x, rest, rfl⟩
      exact ⟨b, hmem, x, rest, rfl⟩
    · rintro ⟨c, -, x, rest, h⟩
      exact ⟨x, rest, (List.cons.inj h).2⟩

theorem faulty_getSOCKS5RequestVersion (hstate : s.state = .getSOCKS5RequestVersion)
    (hversion : s.version = .socks5) : s.Faulty bytes ↔ HasEmptyHost bytes := by
  have hfault := not_faultAt hstate (by decide) (by decide) (by decide)
  have hparse (b : UInt8) : s.parseByte b =
      if b = 5 then .ok (s.enterState .getCommand) else .error (.failed .socks5Fail) := by
    rw [parseByte.eq_def, hstate]
  rw [faulty_iff_of_byte hfault (hparse 5) (by decide)
    fun b bytes hne => not_faulty_error (hfault b) ((hparse b).trans (if_neg hne))]
  simp only [faulty_getCommand_socks5 (s := s.enterState .getCommand) rfl hversion]
  constructor
  · rintro ⟨-, rfl, command, hmem, x, rest, rfl⟩
    exact ⟨command, hmem, x, rest, rfl⟩
  · rintro ⟨command, hmem, x, rest, rfl⟩
    exact ⟨_, rfl, command, hmem, x, rest, rfl⟩

/-- The state after a method, with the countdown decreased. -/
def takeMethod (s : SOCKSHandler) (b : UInt8) : SOCKSHandler :=
  { s with authChosen := if b = 0 then .noAuth else s.authChosen, parseLeft := s.parseLeft - 1 }

theorem takeMethod_authChosen : (s.takeMethod b).authChosen = .noAuth ↔ s.authChosen = .noAuth ∨ 0 = b := by
  by_cases hb : b = 0
  · simp [takeMethod, hb]
  · simp [takeMethod, hb, Ne.symm hb]

theorem parseByte_getSOCKS5Auth (hstate : s.state = .getSOCKS5Auth) :
    s.parseByte b =
      if s.parseLeft - 1 = 0 then
        if (s.takeMethod b).authChosen = .invalid then .error .noMethod
        else .ok ((s.takeMethod b).enterState .getSOCKS5RequestVersion)
      else .ok (s.takeMethod b) :=
  countsDown_getSOCKS5Auth.parse s b hstate

theorem not_faultAt_getSOCKS5Auth (hstate : s.state = .getSOCKS5Auth) (hne : s.parseLeft ≠ 0) :
    ¬ FaultAt s b := by
  rintro (⟨-, h⟩ | ⟨h, -⟩)
  · exact hne h
  · rw [hstate] at h
    cases h

/-- The last method of a greeting. -/
theorem faulty_lastMethod (hstate : s.state = .getSOCKS5Auth) (hversion : s.version = .socks5)
    (hleft : s.parseLeft = 1) :
    s.Faulty (b :: bytes) ↔ (s.authChosen = .noAuth ∨ 0 = b) ∧ HasEmptyHost bytes := by
  have hfault : ¬ FaultAt s b := not_faultAt_getSOCKS5Auth hstate (by rw [hleft]; decide)
  have hparse := (parseByte_getSOCKS5Auth (b := b) hstate).trans (if_pos (by rw [hleft]; rfl))
  rw [← takeMethod_authChosen]
  cases hauth : (s.takeMethod b).authChosen with
  | invalid =>
    rw [if_pos hauth] at hparse
    exact iff_of_false (not_faulty_error hfault hparse) fun h => absurd h.1 (by decide)
  | noAuth =>
    rw [if_neg (by rw [hauth]; decide)] at hparse
    rw [faulty_enterState hfault hparse (by decide), faulty_getSOCKS5RequestVersion
      (s := (s.takeMethod b).enterState .getSOCKS5RequestVersion) rfl hversion]
    exact (and_iff_right rfl).symm

/-- The methods of a greeting, with at least one of them to come. -/
theorem faulty_getSOCKS5Auth {k : ℕ} (hk : k < 255) (hstate : s.state = .getSOCKS5Auth)
    (hversion : s.version = .socks5) (hleft : s.parseLeft = UInt8.ofNat (k + 1)) :
    s.Faulty bytes ↔ ∃ methods rest : List UInt8, methods.length = k + 1 ∧
      (s.authChosen = .noAuth ∨ 0 ∈ methods) ∧ HasEmptyHost rest ∧ bytes = methods ++ rest := by
  induction k generalizing s bytes with
  | zero =>
    rcases bytes with _ | ⟨b, bytes⟩
    · refine iff_of_false not_faulty_nil ?_
      rintro ⟨methods, rest, hlen, -, -, h⟩
      rw [(List.append_eq_nil_iff.mp h.symm).1] at hlen
      cases hlen
    rw [faulty_lastMethod hstate hversion hleft]
    constructor
    · rintro ⟨hauth, hrest⟩
      exact ⟨[b], bytes, rfl, hauth.imp_right List.mem_singleton.mpr, hrest, rfl⟩
    · rintro ⟨methods, rest, hlen, hauth, hrest, hbytes⟩
      obtain ⟨c, rfl⟩ := List.length_eq_one_iff.mp hlen
      obtain ⟨rfl, rfl⟩ := List.cons.inj hbytes
      exact ⟨hauth.imp_right List.mem_singleton.mp, hrest⟩
  | succ k ih =>
    rcases bytes with _ | ⟨b, bytes⟩
    · refine iff_of_false not_faulty_nil ?_
      rintro ⟨methods, rest, hlen, -, -, h⟩
      rw [(List.append_eq_nil_iff.mp h.symm).1] at hlen
      cases hlen
    have hne (n : ℕ) (hn : n < 255) : UInt8.ofNat (n + 1) ≠ 0 := by
      intro hzero
      have hnat := congrArg UInt8.toNat hzero
      rw [UInt8.toNat_ofNat', Nat.mod_eq_of_lt (by omega)] at hnat
      cases hnat
    have hnext : s.parseLeft - 1 = UInt8.ofNat (k + 1) := by
      rw [hleft, UInt8.ofNat_add (k + 1) 1]
      exact UInt8.add_sub_cancel _ _
    have hfault : ¬ FaultAt s b := not_faultAt_getSOCKS5Auth hstate (by rw [hleft]; exact hne _ hk)
    have hparse := (parseByte_getSOCKS5Auth (b := b) hstate).trans
      (if_neg (by rw [hnext]; exact hne k (by omega)))
    have hstate' : (s.takeMethod b).state = .getSOCKS5Auth := hstate
    have hcons : s.Faulty (b :: bytes) ↔ (s.takeMethod b).Faulty bytes := by
      rw [faulty_cons, hparse]
      simp [hfault, hstate']
    rw [hcons, ih (by omega) hstate' hversion hnext, takeMethod_authChosen]
    constructor
    · rintro ⟨methods, rest, hlen, hauth, hrest, rfl⟩
      refine ⟨b :: methods, rest, by rw [List.length_cons, hlen], ?_, hrest, rfl⟩
      rw [List.mem_cons, ← or_assoc]
      exact hauth
    · rintro ⟨_ | ⟨c, methods⟩, rest, hlen, hauth, hrest, hbytes⟩
      · cases hlen
      obtain ⟨rfl, rfl⟩ := List.cons.inj hbytes
      rw [List.mem_cons, ← or_assoc] at hauth
      exact ⟨methods, rest, Nat.succ.inj hlen, hauth, hrest, rfl⟩

/-- The methods of a greeting, behind their number. -/
theorem faulty_getSOCKS5AuthNum (hstate : s.state = .getSOCKS5AuthNum) (hversion : s.version = .socks5)
    (hauth : s.authChosen = .invalid) :
    s.Faulty bytes ↔ (∃ x following, bytes = 0 :: x :: following) ∨
      ∃ methods rest : List UInt8, methods.length ≤ 255 ∧ 0 ∈ methods ∧ HasEmptyHost rest ∧
        bytes = UInt8.ofNat methods.length :: (methods ++ rest) := by
  have hfault := not_faultAt hstate (by decide) (by decide) (by decide)
  rcases bytes with _ | ⟨n, bytes⟩
  · refine iff_of_false not_faulty_nil ?_
    rintro (⟨x, following, h⟩ | ⟨methods, rest, -, -, -, h⟩) <;> cases h
  have hparse : s.parseByte n = .ok (s.enterState .getSOCKS5Auth n) := by
    rw [parseByte.eq_def, hstate]
  rw [faulty_enterState (hfault n) hparse (by decide)]
  cases hn : n.toNat with
  | zero =>
    obtain rfl : n = 0 := UInt8.toNat_inj.mp hn
    constructor
    · intro hfaulty
      rcases bytes with _ | ⟨x, following⟩
      · exact absurd hfaulty not_faulty_nil
      · exact .inl ⟨x, following, rfl⟩
    · rintro (⟨x, following, h⟩ | ⟨methods, rest, hlen, hmem, -, h⟩)
      · rw [(List.cons.inj h).2]
        exact faulty_cons.mpr (.inl (.inl ⟨.inl rfl, rfl⟩))
      · have hzero := congrArg UInt8.toNat (List.cons.inj h).1
        rw [UInt8.toNat_ofNat', Nat.mod_eq_of_lt (by omega)] at hzero
        exact absurd (List.length_pos_of_mem hmem) (by rw [← hzero]; decide)
  | succ k =>
    have hlt := n.toNat_lt
    have hofNat : n = UInt8.ofNat (k + 1) := by rw [← hn, UInt8.ofNat_toNat]
    have hauth' : ¬ (s.enterState .getSOCKS5Auth n).authChosen = .noAuth := by
      change ¬ s.authChosen = .noAuth
      rw [hauth]
      decide
    rw [faulty_getSOCKS5Auth (s := s.enterState .getSOCKS5Auth n) (k := k) (by omega) rfl hversion hofNat]
    constructor
    · rintro ⟨methods, rest, hlen, hmem, hrest, rfl⟩
      refine .inr ⟨methods, rest, by omega, hmem.resolve_left hauth', hrest, ?_⟩
      rw [hlen, hofNat]
    · rintro (⟨x, following, h⟩ | ⟨methods, rest, hlen, hmem, hrest, h⟩)
      · rw [(List.cons.inj h).1] at hn
        cases hn
      · obtain ⟨hnum, rfl⟩ := List.cons.inj h
        refine ⟨methods, rest, ?_, .inr hmem, hrest, rfl⟩
        rw [← hn, hnum, UInt8.toNat_ofNat', Nat.mod_eq_of_lt (by omega)]

/-- The command of a SOCKS4 request is the last field that can be at fault. -/
theorem faulty_getCommand_socks4 (hstate : s.state = .getCommand) (hversion : s.version = .socks4) :
    s.Faulty bytes ↔ ∃ command following, command ≠ 1 ∧ command ≠ 2 ∧ bytes = command :: following := by
  have hcommand (b : UInt8) : s.getCommand b = none ↔ b ≠ 1 ∧ b ≠ 2 := by
    unfold getCommand
    split_ifs with h1 h2 h3 <;> simp_all
  rcases bytes with _ | ⟨b, bytes⟩
  · refine iff_of_false not_faulty_nil ?_
    rintro ⟨command, following, -, -, h⟩
    cases h
  rw [faulty_cons]
  constructor
  · rintro (hfault | ⟨s', hparse, -, hfaulty⟩)
    · rcases hfault with ⟨h | h, -⟩ | ⟨-, -, hnone⟩
      · rw [hstate] at h
        cases h
      · rw [hstate] at h
        cases h
      · exact ⟨b, bytes, ((hcommand b).mp hnone).1, ((hcommand b).mp hnone).2, rfl⟩
    · have hcalm : s'.Calm := by
        rw [parseByte.eq_def, hstate] at hparse
        simp only [hversion] at hparse
        split at hparse <;> cases hparse
        trivial
      exact absurd hfaulty (hcalm.not_faulty bytes)
  · rintro ⟨command, following, h1, h2, h⟩
    obtain ⟨rfl, rfl⟩ := List.cons.inj h
    exact .inl (.inr ⟨hstate, hversion, (hcommand b).mpr ⟨h1, h2⟩⟩)

/-- The bytes that lead a new handler to a fault. -/
theorem faulty_new : ({} : SOCKSHandler).Faulty bytes ↔ LeadsToFault bytes := by
  have hfault := not_faultAt (s := {}) rfl (by decide) (by decide) (by decide)
  have hparse (b : UInt8) : ({} : SOCKSHandler).parseByte b =
      if b = 4 then .ok ({ version := .socks4 : SOCKSHandler }.enterState .getCommand)
      else if b = 5 then .ok ({ version := .socks5 : SOCKSHandler }.enterState .getSOCKS5AuthNum)
      else .error .terminated := rfl
  rcases bytes with _ | ⟨b, bytes⟩
  · refine iff_of_false not_faulty_nil ?_
    rintro (⟨x, following, h⟩ | ⟨methods, rest, -, -, -, h⟩ | ⟨command, following, -, -, h⟩) <;> cases h
  by_cases h4 : b = 4
  · subst h4
    rw [faulty_enterState (hfault 4) (hparse 4) (by decide), faulty_getCommand_socks4 rfl rfl]
    constructor
    · rintro ⟨command, following, h1, h2, rfl⟩
      exact .inr (.inr ⟨command, following, h1, h2, rfl⟩)
    · rintro (⟨x, following, h⟩ | ⟨methods, rest, -, -, -, h⟩ | ⟨command, following, h1, h2, h⟩)
      · exact absurd (List.cons.inj h).1 (by decide)
      · exact absurd (List.cons.inj h).1 (by decide)
      · exact ⟨command, following, h1, h2, (List.cons.inj h).2⟩
  by_cases h5 : b = 5
  · subst h5
    rw [faulty_enterState (hfault 5) (hparse 5) (by decide), faulty_getSOCKS5AuthNum rfl rfl rfl]
    constructor
    · rintro (⟨x, following, rfl⟩ | ⟨methods, rest, hlen, hmem, hrest, rfl⟩)
      · exact .inl ⟨x, following, rfl⟩
      · exact .inr (.inl ⟨methods, rest, hlen, hmem, hrest, rfl⟩)
    · rintro (⟨x, following, h⟩ | ⟨methods, rest, hlen, hmem, hrest, h⟩ | ⟨command, following, -, -, h⟩)
      · exact .inl ⟨x, following, (List.cons.inj h).2⟩
      · exact .inr ⟨methods, rest, hlen, hmem, hrest, (List.cons.inj h).2⟩
      · exact absurd (List.cons.inj h).1 (by decide)
  · refine iff_of_false (not_faulty_error (hfault b) ((hparse b).trans ((if_neg h4).trans (if_neg h5)))) ?_
    rintro (⟨x, following, h⟩ | ⟨methods, rest, -, -, -, h⟩ | ⟨command, following, -, -, h⟩)
    · exact h5 (List.cons.inj h).1
    · exact h5 (List.cons.inj h).1
    · exact h4 (List.cons.inj h).1

end SOCKSHandler

/-! ## Reads -/

/-- Rounds are safe while the parser is not at fault. -/
theorem memorySafe_iff_not_faulty (reads : List (List UInt8)) :
    MemorySafe reads ↔ ¬ ({} : SOCKSHandler).Faulty reads.flatten := by
  have hmap := Incremental.map_steps (f := Memory.handler) Memory.handleByte_handler .new reads.flatten
  have hsteps : (∀ e ∈ Incremental.steps Memory.handleByte .new reads.flatten, ¬ FaultAt e.1.handler e.2) ↔
      ¬ ({} : SOCKSHandler).Faulty reads.flatten := by
    rw [SOCKSHandler.Faulty, show ({} : SOCKSHandler) = Memory.new.handler from rfl, ← hmap, not_exists]
    simp only [not_and, List.forall_mem_map, Prod.map_fst, Prod.map_snd, id_eq]
  rw [MemorySafe, Incremental.feedSteps_eq_steps, ← hsteps]
  exact Incremental.forall_steps_iff (I := Memory.Sound) (fun t b h => h.roundSafe_iff)
    (fun t b t' h hfault hstep => h.handleByte hfault hstep) Memory.sound_new reads.flatten

/-- The handler keeps to its memory but for the bytes that lead to a fault. -/
theorem memorySafe_iff (reads : List (List UInt8)) : MemorySafe reads ↔ ¬ LeadsToFault reads.flatten := by
  rw [memorySafe_iff_not_faulty, SOCKSHandler.faulty_new]

/-- A greeting without methods, and another byte. -/
theorem greetingWithoutMethods : ¬ MemorySafe [[5, 0], [0]] := by
  rw [memorySafe_iff_not_faulty, not_not, SOCKSHandler.faulty_new]
  exact .inl ⟨0, [], rfl⟩

end SOCKS

end Client
