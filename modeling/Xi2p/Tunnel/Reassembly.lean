import Xi2p.Lib.Reassembly
import Xi2p.Tunnel.Packing

/-!
# Reassembly at the endpoint

What the endpoint keeps of one message while its fragments arrive in any order, mixed with
fragments of other messages. The fragment numbers that have not been lost form a set `s`: the
incomplete message holds the fragments below `mex s`, and the out-of-sequence slot holds the only
element of `early s`. The slot is a store of one piece, so the set evolves by `retain 1`.

* `Affects`: a fragment only touches the entries of its own message ID.
* `tracks_handleFragments`: the endpoint keeps exactly the fragments `retainAll 1` keeps.
-/

namespace Tunnel

open Bytes I2NP TunnelDeliveryType Reassembly TunnelGatewayBuffer

/-! ## Frame conditions -/

/-- The key under which a fragment is reassembled; a whole message has none. -/
def WireFragment.key : WireFragment → Option UInt32
  | .whole .. => none
  | .first _ _ _ msgID _ => some msgID
  | .followOn msgID _ _ _ => some msgID

namespace TunnelEndpoint

variable {ep ep' ep'' : TunnelEndpoint} {key : Option UInt32} {msgID : UInt32}

/-- Only entries of `key` differ between two states, and only messages of `key` were passed on. -/
structure Affects (key : Option UInt32) (ep ep' : TunnelEndpoint) : Prop where
  incompleteMessages_eq : ∀ id, some id ≠ key →
    ep'.incompleteMessages id = ep.incompleteMessages id
  outOfSequenceFragments_eq : ∀ id, some id ≠ key →
    ep'.outOfSequenceFragments id = ep.outOfSequenceFragments id
  handled_eq : ∃ new, ep'.handled = ep.handled ++ new ∧ ∀ e ∈ new, e.1 = key

theorem Affects.refl (key : Option UInt32) (ep : TunnelEndpoint) : Affects key ep ep :=
  ⟨fun _ _ => rfl, fun _ _ => rfl, [], by simp, by simp⟩

theorem Affects.trans (h : Affects key ep ep') (h' : Affects key ep' ep'') :
    Affects key ep ep'' := by
  obtain ⟨new, hnew, hkey⟩ := h.handled_eq
  obtain ⟨new', hnew', hkey'⟩ := h'.handled_eq
  refine ⟨fun id hid => ?_, fun id hid => ?_, new ++ new', ?_, ?_⟩
  · rw [h'.incompleteMessages_eq id hid, h.incompleteMessages_eq id hid]
  · rw [h'.outOfSequenceFragments_eq id hid, h.outOfSequenceFragments_eq id hid]
  · rw [hnew', hnew, List.append_assoc]
  · intro e he
    rcases List.mem_append.mp he with he | he
    · exact hkey e he
    · exact hkey' e he

theorem affects_handleNextMessage (ep : TunnelEndpoint) (key : Option UInt32)
    (msg : TunnelMessageBlock) : Affects key ep (ep.handleNextMessage key msg) := by
  unfold handleNextMessage
  split
  · exact ⟨fun _ _ => rfl, fun _ _ => rfl, [_], rfl, by simp⟩
  · exact Affects.refl key ep

theorem affects_setIncomplete (ep : TunnelEndpoint) (msgID : UInt32) (msg : TunnelMessageBlockEx) :
    Affects (some msgID) ep (ep.setIncomplete msgID msg) := by
  refine ⟨fun id hid => ?_, fun _ _ => rfl, [], by simp [setIncomplete], by simp⟩
  exact Function.update_of_ne (fun heq => hid (congrArg some heq)) _ _

theorem affects_eraseIncomplete (ep : TunnelEndpoint) (msgID : UInt32) :
    Affects (some msgID) ep (ep.eraseIncomplete msgID) := by
  refine ⟨fun id hid => ?_, fun _ _ => rfl, [], by simp [eraseIncomplete], by simp⟩
  exact Function.update_of_ne (fun heq => hid (congrArg some heq)) _ _

theorem affects_eraseOutOfSequence (ep : TunnelEndpoint) (msgID : UInt32) :
    Affects (some msgID) ep (ep.eraseOutOfSequence msgID) := by
  refine ⟨fun _ _ => rfl, fun id hid => ?_, [], by simp [eraseOutOfSequence], by simp⟩
  exact Function.update_of_ne (fun heq => hid (congrArg some heq)) _ _

theorem affects_addOutOfSequenceFragment (ep : TunnelEndpoint) (msgID : UInt32)
    (fragmentNum : UInt8) (isLastFragment : Bool) (data : I2NPMessage) :
    Affects (some msgID) ep
      (ep.addOutOfSequenceFragment msgID fragmentNum isLastFragment data) := by
  unfold addOutOfSequenceFragment
  split
  · exact Affects.refl _ ep
  · refine ⟨fun _ _ => rfl, fun id hid => ?_, [], by simp, by simp⟩
    exact Function.update_of_ne (fun heq => hid (congrArg some heq)) _ _

theorem affects_handleOutOfSequenceFragment (ep : TunnelEndpoint) (msgID : UInt32)
    (msg : TunnelMessageBlockEx) :
    Affects (some msgID) ep (ep.handleOutOfSequenceFragment msgID msg) := by
  unfold handleOutOfSequenceFragment
  split
  · exact Affects.refl _ ep
  · split
    · refine Affects.trans ?_ (affects_eraseOutOfSequence _ msgID)
      split
      · exact (affects_handleNextMessage _ _ _).trans (affects_eraseIncomplete _ msgID)
      · exact affects_setIncomplete _ _ _
    · exact Affects.refl _ ep

theorem affects_handleFollowOnFragment (ep : TunnelEndpoint) (msgID : UInt32)
    (isLastFragment : Bool) (m : TunnelMessageBlockEx) (pos : ℕ) :
    Affects (some msgID) ep (ep.handleFollowOnFragment msgID isLastFragment m pos).val := by
  have hsave : Affects (some msgID) ep
      (handleFollowOnFragment.saveFragment ep msgID isLastFragment m pos).val :=
    affects_addOutOfSequenceFragment ep msgID _ _ _
  unfold handleFollowOnFragment
  dsimp only
  split
  · split
    · split
      · simp only [Traced.val_bind]
        split
        · exact (affects_handleNextMessage _ _ _).trans (affects_eraseIncomplete _ msgID)
        · exact (affects_setIncomplete _ _ _).trans
            (affects_handleOutOfSequenceFragment _ _ _)
      · exact affects_eraseIncomplete ep msgID
    · exact hsave
  · exact hsave

/-- What the endpoint keeps of a first fragment. -/
def startMessage (t : TunnelDeliveryType) (hash : IdentHash) (tunnelID : UInt32)
    (data : I2NPMessage) : TunnelMessageBlockEx :=
  { deliveryType := t
    hash := WireFragment.readIdentHash t hash
    tunnelID := WireFragment.readTunnelID t tunnelID
    data
    nextFragmentNum := 1 }

/-- A fragment without a message ID is dropped. -/
theorem handleFragment_of_key_eq_zero {w : WireFragment} (hw : w.key = some 0)
    (ep : TunnelEndpoint) (pos : ℕ) (data : I2NPMessage) :
    (ep.handleFragment (w.instructions pos) data).val = ep := by
  cases w with
  | whole t hash tunnelID bytes => exact absurd hw (by simp [WireFragment.key])
  | first t hash tunnelID msgID bytes =>
    obtain rfl : msgID = 0 := by simpa [WireFragment.key] using hw
    rfl
  | followOn msgID fragmentNumber isLast bytes =>
    obtain rfl : msgID = 0 := by simpa [WireFragment.key] using hw
    rfl

theorem handleFragment_first {t : TunnelDeliveryType} {hash : IdentHash} {tunnelID : UInt32}
    {bytes : List UInt8} (hid : msgID ≠ 0) (hinc : ep.incompleteMessages msgID = none) (pos : ℕ)
    (data : I2NPMessage) :
    (ep.handleFragment ((WireFragment.first t hash tunnelID msgID bytes).instructions pos)
        data).val =
      (ep.setIncomplete msgID (startMessage t hash tunnelID data)).handleOutOfSequenceFragment
        msgID (startMessage t hash tunnelID data) := by
  simp only [handleFragment, WireFragment.instructions, hid, hinc, Bool.and_false,
    Bool.false_eq_true, if_false]
  rfl

theorem handleFragment_first_of_some {t : TunnelDeliveryType} {hash : IdentHash}
    {tunnelID : UInt32} {bytes : List UInt8} {msg : TunnelMessageBlockEx} (hid : msgID ≠ 0)
    (hinc : ep.incompleteMessages msgID = some msg) (pos : ℕ) (data : I2NPMessage) :
    (ep.handleFragment ((WireFragment.first t hash tunnelID msgID bytes).instructions pos)
        data).val = ep := by
  simp only [handleFragment, WireFragment.instructions, hid, hinc, Bool.and_false,
    Bool.false_eq_true, if_false]
  rfl

/-- The message block that the endpoint makes of a follow-on fragment. -/
def followOnBlock (fragmentNumber : ℕ) (data : I2NPMessage) : TunnelMessageBlockEx :=
  { deliveryType := deliveryTypeLocal
    hash := IdentHash.zero
    tunnelID := 0
    data
    nextFragmentNum := UInt8.ofNat fragmentNumber }

theorem handleFragment_followOn {fragmentNumber : ℕ} {isLast : Bool} {bytes : List UInt8}
    (hid : msgID ≠ 0) (ep : TunnelEndpoint) (pos : ℕ) (data : I2NPMessage) :
    (ep.handleFragment ((WireFragment.followOn msgID fragmentNumber isLast bytes).instructions
        pos) data).val =
      (ep.handleFollowOnFragment msgID isLast (followOnBlock fragmentNumber data) (pos + 7)).val := by
  simp only [handleFragment, WireFragment.instructions, hid, Bool.not_true, Bool.false_and,
    if_true, Bool.false_eq_true, if_false]
  rfl

/-- A follow-on fragment that the incomplete message waits for. -/
theorem handleFollowOnFragment_next {msg m : TunnelMessageBlockEx}
    (hinc : ep.incompleteMessages msgID = some msg)
    (hnum : m.nextFragmentNum = msg.nextFragmentNum)
    (hlen : msg.data.len + m.data.getLength < maxMessageSize) (isLast : Bool) (pos : ℕ) :
    (ep.handleFollowOnFragment msgID isLast m pos).val =
      if isLast then
        (ep.handleNextMessage (some msgID)
          (concatenate msg m.data).toTunnelMessageBlock).eraseIncomplete msgID
      else
        (ep.setIncomplete msgID { concatenate msg m.data with
          nextFragmentNum := msg.nextFragmentNum + 1 }).handleOutOfSequenceFragment msgID
          { concatenate msg m.data with nextFragmentNum := msg.nextFragmentNum + 1 } := by
  simp only [handleFollowOnFragment, hinc, hnum, hlen, if_true]
  cases isLast <;> rfl

/-- A follow-on fragment that nothing waits for is saved if the slot is free. -/
theorem handleFollowOnFragment_save {m : TunnelMessageBlockEx}
    (h : ∀ msg, ep.incompleteMessages msgID = some msg →
      m.nextFragmentNum ≠ msg.nextFragmentNum) (isLast : Bool) (pos : ℕ) :
    (ep.handleFollowOnFragment msgID isLast m pos).val =
      ep.addOutOfSequenceFragment msgID m.nextFragmentNum isLast m.data := by
  cases hinc : ep.incompleteMessages msgID with
  | none =>
    simp only [handleFollowOnFragment, hinc]
    rfl
  | some msg =>
    simp only [handleFollowOnFragment, hinc, h msg hinc, if_false]
    rfl

/-- A fragment only touches the entries of its own message ID. -/
theorem affects_handleFragment (ep : TunnelEndpoint) (w : WireFragment) (pos : ℕ)
    (data : I2NPMessage) :
    Affects w.key ep (ep.handleFragment (w.instructions pos) data).val := by
  by_cases hzero : w.key = some 0
  · rw [handleFragment_of_key_eq_zero hzero]
    exact Affects.refl _ ep
  cases w with
  | whole t hash tunnelID bytes => exact affects_handleNextMessage ep none _
  | first t hash tunnelID msgID bytes =>
    have hid : msgID ≠ 0 := fun heq => hzero (congrArg some heq)
    cases hinc : ep.incompleteMessages msgID with
    | none =>
      rw [handleFragment_first hid hinc]
      exact (affects_setIncomplete _ _ _).trans (affects_handleOutOfSequenceFragment _ _ _)
    | some msg =>
      rw [handleFragment_first_of_some hid hinc]
      exact Affects.refl _ ep
  | followOn msgID fragmentNumber isLast bytes =>
    have hid : msgID ≠ 0 := fun heq => hzero (congrArg some heq)
    rw [handleFragment_followOn hid]
    exact affects_handleFollowOnFragment ep msgID isLast _ _

theorem affects_handleFragments {ws : List WireFragment}
    {fs : List (DeliveryInstructions × I2NPMessage)} (hrep : List.Forall₂ Represents ws fs)
    (hkey : ∀ w ∈ ws, w.key = key) (ep : TunnelEndpoint) :
    Affects key ep (ep.handleFragments fs) := by
  induction hrep generalizing ep with
  | nil => exact Affects.refl key ep
  | @cons w f ws fs hf _ ih =>
    obtain ⟨pos, hdi⟩ := hf.instructions_eq
    have hone := affects_handleFragment ep w pos f.2
    rw [← hdi, hkey w (by simp)] at hone
    exact hone.trans (ih (fun v hv => hkey v (by simp [hv])) _)

/-- Fragments without a message ID are dropped. -/
theorem handleFragments_of_key_eq_zero {ws : List WireFragment}
    {fs : List (DeliveryInstructions × I2NPMessage)} (hrep : List.Forall₂ Represents ws fs)
    (hkey : ∀ w ∈ ws, w.key = some 0) (ep : TunnelEndpoint) : ep.handleFragments fs = ep := by
  induction hrep with
  | nil => rfl
  | @cons w f ws fs hf _ ih =>
    obtain ⟨pos, hdi⟩ := hf.instructions_eq
    have hone := handleFragment_of_key_eq_zero (hkey w (by simp)) ep pos f.2
    rw [← hdi] at hone
    have hstep : ep.handleFragments (f :: fs) =
        (ep.handleFragment f.1 f.2).val.handleFragments fs := List.foldl_cons ..
    rw [hstep, hone]
    exact ih fun v hv => hkey v (by simp [hv])

end TunnelEndpoint

/-! ## The fragments of a cut message -/

namespace TunnelMessageBlock

/-- The bytes of fragment number `k`, when the first fragment has `size` bytes. -/
def chunk (block : TunnelMessageBlock) (size : ℕ) : ℕ → List UInt8
  | 0 => slice block.data.buf block.data.offset size
  | k + 1 => slice block.data.buf (block.data.offset + (size + 996 * k))
      (min (block.data.getLength - (size + 996 * k)) 996)

/-- The number of the last fragment. -/
def lastNumber (block : TunnelMessageBlock) (size : ℕ) : ℕ :=
  (block.data.getLength - size + 995) / 996

/-- Fragment number `k`. -/
def fragmentAt (block : TunnelMessageBlock) (size k : ℕ) : WireFragment :=
  if k = 0 then block.firstFragment size
  else .followOn block.data.getMsgID k (decide (k = block.lastNumber size)) (block.chunk size k)

theorem key_fragmentAt (block : TunnelMessageBlock) (size k : ℕ) :
    (block.fragmentAt size k).key = some block.data.getMsgID := by
  cases k <;> rfl

theorem data_fragmentAt (block : TunnelMessageBlock) (size k : ℕ) :
    (block.fragmentAt size k).data = block.chunk size k := by
  cases k <;> rfl

/-- The bytes in front of fragment number `k`. -/
def bytesBefore (block : TunnelMessageBlock) (size k : ℕ) : List UInt8 :=
  (List.range k).flatMap (block.chunk size)

theorem followOnFragments_eq (block : TunnelMessageBlock) (size j : ℕ) :
    block.followOnFragments (size + 996 * j) (j + 1) =
      (List.range' (j + 1) (block.lastNumber size - j)).map (block.fragmentAt size) := by
  induction hrest : block.lastNumber size - j generalizing j with
  | zero =>
    rw [followOnFragments, if_neg]
    · rfl
    · simp only [lastNumber] at hrest
      omega
  | succ n ih =>
    have hsize : size + 996 * j < block.data.getLength := by
      simp only [lastNumber] at hrest
      omega
    have hlast : isLastFollowOn (block.data.getLength - (size + 996 * j)) =
        decide (j + 1 = block.lastNumber size) := by
      rw [Bool.eq_iff_iff, isLastFollowOn_iff, decide_eq_true_iff, lastNumber]
      omega
    have hhead : block.followOnFragment (size + 996 * j) (j + 1) =
        block.fragmentAt size (j + 1) := by
      rw [followOnFragment, fragmentAt, if_neg (by omega), hlast, followOnSize_eq_min]
      rfl
    rw [followOnFragments, if_pos hsize, List.range'_succ, List.map_cons, hhead]
    congr 1
    by_cases hmore : block.data.getLength - (size + 996 * j) ≤ 996
    · have hn : n = 0 := by
        simp only [lastNumber] at hrest
        omega
      rw [followOnFragments, if_neg, hn]
      · rfl
      · rw [followOnSize_eq_min]
        omega
    · have hnext : size + 996 * j + followOnSize (block.data.getLength - (size + 996 * j)) =
          size + 996 * (j + 1) := by
        rw [followOnSize_eq_min]
        omega
      rw [hnext]
      exact ih (j + 1) (by omega)

/-- A cut message is the list of its numbered fragments. -/
theorem fragments_eq (block : TunnelMessageBlock) (size : ℕ) :
    block.fragments size =
      (List.range (block.lastNumber size + 1)).map (block.fragmentAt size) := by
  have hfollow := block.followOnFragments_eq size 0
  simp only [Nat.mul_zero, Nat.add_zero, Nat.zero_add, Nat.sub_zero] at hfollow
  rw [fragments, hfollow, List.range_eq_range', List.range'_succ, List.map_cons]
  rfl

/-- The fragments in front of number `k + 1` are a prefix of the message. -/
theorem bytesBefore_succ {block : TunnelMessageBlock} {size : ℕ}
    (h : size ≤ block.data.getLength) (k : ℕ) :
    block.bytesBefore size (k + 1) =
      slice block.data.buf block.data.offset (min block.data.getLength (size + 996 * k)) := by
  induction k with
  | zero => simp [bytesBefore, chunk, Nat.min_eq_right h]
  | succ k ih =>
    have hstep : block.bytesBefore size (k + 1 + 1) =
        block.bytesBefore size (k + 1) ++ block.chunk size (k + 1) := by
      simp [bytesBefore, List.range_succ]
    rw [hstep, ih, chunk]
    by_cases hin : size + 996 * k ≤ block.data.getLength
    · rw [Nat.min_eq_right hin, ← slice_add]
      congr 1
      omega
    · -- everything has been sent
      have hzero : min (block.data.getLength - (size + 996 * k)) 996 = 0 := by omega
      rw [hzero, slice_zero, List.append_nil]
      congr 1
      omega

theorem bytesBefore_lastNumber {block : TunnelMessageBlock} {size : ℕ}
    (h : size ≤ block.data.getLength) :
    block.bytesBefore size (block.lastNumber size + 1) = block.data.bytes := by
  rw [bytesBefore_succ h, I2NPMessage.bytes]
  congr 1
  simp only [lastNumber]
  omega

theorem length_bytesBefore_le {block : TunnelMessageBlock} {size : ℕ}
    (h : size ≤ block.data.getLength) (k : ℕ) :
    (block.bytesBefore size k).length ≤ block.data.getLength := by
  cases k with
  | zero => simp [bytesBefore]
  | succ k =>
    rw [bytesBefore_succ h, length_slice]
    exact Nat.min_le_left _ _

end TunnelMessageBlock

/-! ## What the endpoint keeps of a cut message -/

theorem Holds.concatenate {msg : TunnelMessageBlockEx} {data : I2NPMessage} {bs ds : List UInt8}
    (h : Holds msg.data bs) (hd : Holds data ds) :
    Holds (TunnelEndpoint.concatenate msg data).data (bs ++ ds) := by
  have hbytes : (msg.data.reserve data.getLength).bytes = bs := by
    rw [I2NPMessage.bytes_reserve, h.bytes_eq]
  have hoff := I2NPMessage.offset_le_len_reserve h.offset_le data.getLength
  refine ⟨?_, ?_, ?_, ?_⟩
  · rw [TunnelEndpoint.concatenate, I2NPMessage.bytes_append hoff, hbytes]
    congr 1
    exact hd.bytes_eq
  · exact hoff.trans (Nat.le_add_right _ _)
  · rw [TunnelEndpoint.concatenate, I2NPMessage.maxLen_append, I2NPMessage.maxLen_reserve]
    exact h.maxLen_le
  · have hmax := h.maxLen_le
    simp only [TunnelEndpoint.concatenate, I2NPMessage.len_append, I2NPMessage.offset_append,
      I2NPMessage.reserve]
    by_cases hmove : msg.data.len + data.getLength > msg.data.maxLen
    · rw [if_pos hmove]
      exact Or.inr rfl
    · rw [if_neg hmove]
      exact Or.inl (by omega)

/-- The size check of the endpoint passes below the maximal message size. -/
theorem Holds.len_add_lt {m : I2NPMessage} {bs : List UInt8} (h : Holds m bs) {n : ℕ}
    (hn : n ≤ tunnelDataMaxPayloadSize) (hlen : bs.length + n + 2 < maxMessageSize) :
    m.len + n < maxMessageSize := by
  have hbytes : m.getLength = bs.length := by
    rw [← h.bytes_eq, I2NPMessage.length_bytes]
  have hoff := h.offset_le
  simp only [I2NPMessage.getLength, maxMessageSize, tunnelDataMaxPayloadSize] at *
  rcases h.room with hshort | hmoved
  · simp only [maxShortMessageSize] at hshort
    omega
  · omega

/-- The incomplete message with the fragments in front of number `m`. -/
structure Partial (block : TunnelMessageBlock) (size m : ℕ) (msg : TunnelMessageBlockEx) :
    Prop where
  deliveryType_eq : msg.deliveryType = block.deliveryType
  hash_eq : msg.hash = WireFragment.readIdentHash block.deliveryType block.hash
  tunnelID_eq : msg.tunnelID = WireFragment.readTunnelID block.deliveryType block.tunnelID
  nextFragmentNum_eq : msg.nextFragmentNum = UInt8.ofNat m
  holds : Holds msg.data (block.bytesBefore size m)

/-- Fragment number `k`, saved out of sequence. -/
structure Saved (block : TunnelMessageBlock) (size k : ℕ) (fragment : Fragment) : Prop where
  fragmentNum_eq : fragment.fragmentNum = UInt8.ofNat k
  isLastFragment_eq : fragment.isLastFragment = decide (k = block.lastNumber size)
  holds : Holds fragment.data (block.chunk size k)

/-- The endpoint has passed on the fragments in front of number `m`, or keeps them as an incomplete
message, and waits with fragment `w`. -/
structure KeepsAt (block : TunnelMessageBlock) (size : ℕ)
    (base : List (Option UInt32 × Delivery)) (m : ℕ) (w : Option ℕ) (ep : TunnelEndpoint) :
    Prop where
  incomplete_none : m = 0 ∨ m = block.lastNumber size + 1 →
    ep.incompleteMessages block.data.getMsgID = none
  incomplete_some : 0 < m → m ≤ block.lastNumber size →
    ∃ msg, ep.incompleteMessages block.data.getMsgID = some msg ∧ Partial block size m msg
  saved_none : w = none → ep.outOfSequenceFragments block.data.getMsgID = none
  saved_some : ∀ k, w = some k →
    ∃ f, ep.outOfSequenceFragments block.data.getMsgID = some f ∧ Saved block size k f
  handled_eq : ep.handled.filter (·.1 = some block.data.getMsgID) = base ++
    if m = block.lastNumber size + 1 then
      block.delivery.toList.map (some block.data.getMsgID, ·)
    else []

section Steps

variable {block : TunnelMessageBlock} {size : ℕ} {base : List (Option UInt32 × Delivery)}
  {m : ℕ} {w : Option ℕ} {ep : TunnelEndpoint}

open TunnelEndpoint

/-- The concatenated message is passed on as the original one. -/
theorem delivery_eq_of_partial {msg : TunnelMessageBlockEx} (h : Partial block size m msg)
    {data : I2NPMessage} (hdata : data.bytes = block.data.bytes) :
    TunnelMessageBlock.delivery { msg.toTunnelMessageBlock with data } = block.delivery := by
  simp only [TunnelMessageBlock.delivery, h.deliveryType_eq, h.hash_eq, h.tunnelID_eq, hdata]
  cases block.deliveryType <;> rfl

theorem Partial.concatenate {msg : TunnelMessageBlockEx} (h : Partial block size m msg)
    {data : I2NPMessage} (hdata : Holds data (block.chunk size m)) :
    Partial block size (m + 1)
      { concatenate msg data with nextFragmentNum := msg.nextFragmentNum + 1 } := by
  refine ⟨h.deliveryType_eq, h.hash_eq, h.tunnelID_eq, ?_, ?_⟩
  · show msg.nextFragmentNum + 1 = _
    rw [h.nextFragmentNum_eq, UInt8.ofNat_add]
    rfl
  · have hbytes : block.bytesBefore size (m + 1) =
        block.bytesBefore size m ++ block.chunk size m := by
      simp [TunnelMessageBlock.bytesBefore, List.range_succ]
    rw [hbytes]
    exact h.holds.concatenate hdata

/-- The last fragment completes the message: it is passed on and forgotten. -/
theorem complete_eq {msg : TunnelMessageBlockEx} (hsize : size ≤ block.data.getLength)
    (hmsg : Partial block size (block.lastNumber size) msg) {data : I2NPMessage}
    (hdata : Holds data (block.chunk size (block.lastNumber size))) (ep : TunnelEndpoint) :
    (ep.handleNextMessage (some block.data.getMsgID)
        (concatenate msg data).toTunnelMessageBlock).eraseIncomplete block.data.getMsgID =
      { ep.eraseIncomplete block.data.getMsgID with
        handled := ep.handled ++ block.delivery.toList.map (some block.data.getMsgID, ·) } := by
  have hbytes : (concatenate msg data).data.bytes = block.data.bytes := by
    rw [(hmsg.concatenate hdata).holds.bytes_eq, TunnelMessageBlock.bytesBefore_lastNumber hsize]
  have hdelivery : (concatenate msg data).toTunnelMessageBlock.delivery = block.delivery :=
    delivery_eq_of_partial hmsg hbytes
  simp only [eraseIncomplete, handleNextMessage, hdelivery]
  cases block.delivery <;> simp

theorem lastNumber_lt (hsend : Sendable block) (size : ℕ) : block.lastNumber size < 64 := by
  have hlen := hsend.length_lt
  simp only [maxMessageSize, TunnelMessageBlock.lastNumber] at *
  omega

/-- Fragment numbers are small enough to be told apart. -/
theorem ofNat_eq_ofNat_iff {j k : ℕ} (hj : j < 256) (hk : k < 256) :
    UInt8.ofNat j = UInt8.ofNat k ↔ j = k := by
  constructor
  · intro h
    have hval := congrArg UInt8.toNat h
    simpa [UInt8.toNat_ofNat', Nat.mod_eq_of_lt hj, Nat.mod_eq_of_lt hk] using hval
  · rintro rfl
    rfl

/-- What is kept under the ID of a message that has been passed on. -/
theorem keepsAt_complete (ep : TunnelEndpoint)
    (hhandled : ep.handled.filter (·.1 = some block.data.getMsgID) = base)
    (hsaved : ep.outOfSequenceFragments block.data.getMsgID = none) :
    KeepsAt block size base (block.lastNumber size + 1) none
      { ep.eraseIncomplete block.data.getMsgID with
        handled := ep.handled ++ block.delivery.toList.map (some block.data.getMsgID, ·) } := by
  refine ⟨fun _ => Function.update_self _ _ _, fun _ hle => by omega, fun _ => hsaved,
    fun k hk => by simp at hk, ?_⟩
  rw [List.filter_append, hhandled, if_pos rfl]
  congr 1
  cases block.delivery <;> simp

/-- What is kept under the ID of a message that is still incomplete. -/
theorem keepsAt_setIncomplete (ep : TunnelEndpoint) {msg : TunnelMessageBlockEx} (hmsg : Partial block size m msg)
    (hpos : 0 < m) (hle : m ≤ block.lastNumber size)
    (hnone : w = none → ep.outOfSequenceFragments block.data.getMsgID = none)
    (hsome : ∀ k, w = some k →
      ∃ f, ep.outOfSequenceFragments block.data.getMsgID = some f ∧ Saved block size k f)
    (hhandled : ep.handled.filter (·.1 = some block.data.getMsgID) = base) :
    KeepsAt block size base m w (ep.setIncomplete block.data.getMsgID msg) := by
  refine ⟨fun h => by omega, fun _ _ => ⟨msg, Function.update_self _ _ _, hmsg⟩, hnone, hsome, ?_⟩
  rw [if_neg (by omega), List.append_nil]
  exact hhandled

/-- The incomplete message takes the saved fragment if it is the next one. -/
theorem keepsAt_handleOutOfSequenceFragment (hsend : Sendable block)
    (hsize : size ≤ block.data.getLength)
    {msg : TunnelMessageBlockEx} (hmsg : Partial block size m msg) (hpos : 0 < m)
    (hle : m ≤ block.lastNumber size)
    (hw : ∀ k, w = some k → k ≤ block.lastNumber size)
    (hnone : w = none → ep.outOfSequenceFragments block.data.getMsgID = none)
    (hsome : ∀ k, w = some k →
      ∃ f, ep.outOfSequenceFragments block.data.getMsgID = some f ∧ Saved block size k f)
    (hhandled : ep.handled.filter (·.1 = some block.data.getMsgID) = base) :
    KeepsAt block size base (if w = some m then m + 1 else m) (if w = some m then none else w)
      ((ep.setIncomplete block.data.getMsgID msg).handleOutOfSequenceFragment
        block.data.getMsgID msg) := by
  cases w with
  | none =>
    have hslot : (ep.setIncomplete block.data.getMsgID msg).outOfSequenceFragments
        block.data.getMsgID = none := hnone rfl
    simp only [handleOutOfSequenceFragment, hslot, reduceCtorEq, if_false]
    exact keepsAt_setIncomplete ep hmsg hpos hle hnone hsome hhandled
  | some k =>
    obtain ⟨f, hf, hsaved⟩ := hsome k rfl
    have hslot : (ep.setIncomplete block.data.getMsgID msg).outOfSequenceFragments
        block.data.getMsgID = some f := hf
    have hlast := lastNumber_lt hsend size
    have hk := hw k rfl
    have hnum : f.fragmentNum = msg.nextFragmentNum ↔ k = m := by
      rw [hsaved.fragmentNum_eq, hmsg.nextFragmentNum_eq]
      exact ofNat_eq_ofNat_iff (by omega) (by omega)
    by_cases hkm : k = m
    · subst hkm
      have hempty : ((ep.setIncomplete block.data.getMsgID msg).eraseOutOfSequence
          block.data.getMsgID).outOfSequenceFragments block.data.getMsgID = none :=
        Function.update_self _ _ _
      simp only [handleOutOfSequenceFragment, hslot, hnum.mpr rfl, if_true]
      by_cases hend : k = block.lastNumber size
      · -- the saved fragment was the last one
        subst hend
        rw [if_pos (by simp [hsaved.isLastFragment_eq]), complete_eq hsize hmsg hsaved.holds]
        exact keepsAt_complete ((ep.setIncomplete _ msg).eraseOutOfSequence _) hhandled hempty
      · rw [if_neg (by simp [hsaved.isLastFragment_eq, hend])]
        have hkept := keepsAt_setIncomplete (w := none)
          ((ep.setIncomplete _ msg).eraseOutOfSequence _) (hmsg.concatenate hsaved.holds)
          (Nat.succ_pos k) (by omega) (fun _ => hempty) (fun j hj => by simp at hj) hhandled
        exact hkept
    · simp only [handleOutOfSequenceFragment, hslot, hnum, hkm, if_false, Option.some.injEq]
      exact keepsAt_setIncomplete ep hmsg hpos hle hnone hsome hhandled

/-- The next fragment in order is taken, and behind it the saved one if it is next. -/
theorem keepsAt_of_next (hsend : Sendable block) (hsize : size < block.data.getLength)
    (hid : block.data.getMsgID ≠ 0) (h : KeepsAt block size base m w ep)
    (hle : m ≤ block.lastNumber size) (hw : ∀ k, w = some k → m < k ∧ k ≤ block.lastNumber size)
    {f : DeliveryInstructions × I2NPMessage} (hf : Represents (block.fragmentAt size m) f) :
    KeepsAt block size base (if w = some (m + 1) then m + 2 else m + 1)
      (if w = some (m + 1) then none else w) (ep.handleFragment f.1 f.2).val := by
  obtain ⟨⟨pos, hdi⟩, hdata⟩ := hf
  have hlast := lastNumber_lt hsend size
  have hpos : 0 < block.lastNumber size := by
    simp only [TunnelMessageBlock.lastNumber]
    omega
  have hhandled : ep.handled.filter (·.1 = some block.data.getMsgID) = base := by
    simpa [show m ≠ block.lastNumber size + 1 by omega] using h.handled_eq
  have hbound : ∀ k, w = some k → k ≤ block.lastNumber size := fun k hk => (hw k hk).2
  rw [hdi]
  by_cases hm : m = 0
  · -- the first fragment starts the incomplete message
    subst hm
    have hinc := h.incomplete_none (Or.inl rfl)
    have hstart : Partial block size 1 (startMessage block.deliveryType block.hash block.tunnelID
        f.2) := by
      refine ⟨rfl, rfl, rfl, rfl, ?_⟩
      have hbytes : block.bytesBefore size 1 = block.chunk size 0 := by
        simp [TunnelMessageBlock.bytesBefore]
      rw [hbytes]
      exact hdata
    simp only [TunnelMessageBlock.fragmentAt, if_true, TunnelMessageBlock.firstFragment]
    rw [handleFragment_first hid hinc]
    exact keepsAt_handleOutOfSequenceFragment hsend hsize.le hstart Nat.one_pos hpos hbound
      h.saved_none h.saved_some hhandled
  · obtain ⟨msg, hinc, hmsg⟩ := h.incomplete_some (by omega) hle
    rw [TunnelMessageBlock.data_fragmentAt] at hdata
    have hbytes : block.bytesBefore size (m + 1) =
        block.bytesBefore size m ++ block.chunk size m := by
      simp [TunnelMessageBlock.bytesBefore, List.range_succ]
    have hfits : msg.data.len + f.2.getLength < maxMessageSize := by
      have hlen : f.2.getLength = (block.chunk size m).length := by
        rw [← hdata.bytes_eq, I2NPMessage.length_bytes]
      have htotal := TunnelMessageBlock.length_bytesBefore_le hsize.le (m + 1)
      rw [hbytes, List.length_append] at htotal
      have hsmall : (block.chunk size m).length ≤ tunnelDataMaxPayloadSize := by
        obtain ⟨j, rfl⟩ := Nat.exists_eq_succ_of_ne_zero hm
        simp only [TunnelMessageBlock.chunk, length_slice, tunnelDataMaxPayloadSize]
        omega
      have hroom := hsend.length_lt
      rw [hlen]
      exact hmsg.holds.len_add_lt hsmall (by omega)
    simp only [TunnelMessageBlock.fragmentAt, hm, if_false]
    rw [handleFragment_followOn hid,
      handleFollowOnFragment_next hinc hmsg.nextFragmentNum_eq.symm hfits]
    by_cases hend : m = block.lastNumber size
    · -- nothing can wait behind the last fragment
      subst hend
      have hnone : w = none := by
        cases w with
        | none => rfl
        | some k =>
          have := hw k rfl
          omega
      subst hnone
      simp only [reduceCtorEq, if_false, decide_true, if_true]
      rw [followOnBlock, complete_eq hsize.le hmsg hdata]
      exact keepsAt_complete ep hhandled (h.saved_none rfl)
    · simp only [hend, decide_false, Bool.false_eq_true, if_false]
      exact keepsAt_handleOutOfSequenceFragment hsend hsize.le (hmsg.concatenate hdata)
        (Nat.succ_pos m) (by omega) hbound h.saved_none h.saved_some hhandled

/-- A fragment behind the gap is saved if the slot is free, and lost otherwise. -/
theorem keepsAt_of_later (hsend : Sendable block) (hid : block.data.getMsgID ≠ 0)
    (h : KeepsAt block size base m w ep) {k : ℕ} (hmk : m < k) (hk : k ≤ block.lastNumber size)
    {f : DeliveryInstructions × I2NPMessage} (hf : Represents (block.fragmentAt size k) f) :
    KeepsAt block size base m (some (w.getD k)) (ep.handleFragment f.1 f.2).val := by
  obtain ⟨⟨pos, hdi⟩, hdata⟩ := hf
  rw [TunnelMessageBlock.data_fragmentAt] at hdata
  have hlast := lastNumber_lt hsend size
  -- the incomplete message, if there is one, waits for another fragment
  have hother : ∀ msg, ep.incompleteMessages block.data.getMsgID = some msg →
      (followOnBlock k f.2).nextFragmentNum ≠ msg.nextFragmentNum := by
    intro msg hmsg hnum
    by_cases hm : m = 0
    · rw [h.incomplete_none (Or.inl hm)] at hmsg
      exact absurd hmsg (by simp)
    · obtain ⟨msg', hmsg', hpart⟩ := h.incomplete_some (by omega) (by omega)
      obtain rfl : msg' = msg := by rwa [hmsg', Option.some_inj] at hmsg
      rw [hpart.nextFragmentNum_eq] at hnum
      have := (ofNat_eq_ofNat_iff (by omega) (by omega)).mp hnum
      omega
  rw [hdi, TunnelMessageBlock.fragmentAt, if_neg (by omega), handleFragment_followOn hid,
    handleFollowOnFragment_save hother]
  cases w with
  | none =>
    simp only [addOutOfSequenceFragment, h.saved_none rfl, Option.getD_none]
    refine ⟨h.incomplete_none, h.incomplete_some, fun hk => by simp at hk, ?_, h.handled_eq⟩
    rintro j ⟨⟩
    exact ⟨_, Function.update_self _ _ _, rfl, rfl, hdata⟩
  | some j =>
    obtain ⟨f', hf', hsaved⟩ := h.saved_some j rfl
    simp only [addOutOfSequenceFragment, hf', Option.getD_some]
    exact h

end Steps

/-! ## Runs -/

/-- The endpoint keeps exactly the fragments `s` of a cut message. -/
def Keeps (block : TunnelMessageBlock) (size : ℕ) (base : List (Option UInt32 × Delivery))
    (s : Finset ℕ) (ep : TunnelEndpoint) : Prop :=
  s ⊆ Finset.range (block.lastNumber size + 1) ∧
    ∃ w : Option ℕ, early s = w.toFinset ∧ KeepsAt block size base (mex s) w ep

section Runs

variable {block : TunnelMessageBlock} {size : ℕ} {base : List (Option UInt32 × Delivery)}
  {s : Finset ℕ} {ep : TunnelEndpoint}

open TunnelEndpoint

/-- One fragment of the message: the kept set evolves by `retain 1`. -/
theorem Keeps.handleFragment (hsend : Sendable block) (hsize : size < block.data.getLength)
    (hid : block.data.getMsgID ≠ 0) (h : Keeps block size base s ep) {k : ℕ} (hks : k ∉ s)
    (hk : k ≤ block.lastNumber size) {f : DeliveryInstructions × I2NPMessage}
    (hf : Represents (block.fragmentAt size k) f) :
    Keeps block size base (retain 1 s k) (ep.handleFragment f.1 f.2).val := by
  obtain ⟨hsub, w, hw, hkeeps⟩ := h
  have hmex := mex_le_of_notMem hks
  have hsub' : retain 1 s k ⊆ Finset.range (block.lastNumber size + 1) := by
    refine (retain_subset 1 s k).trans (Finset.insert_subset ?_ hsub)
    simp only [Finset.mem_range]
    omega
  refine ⟨hsub', ?_⟩
  have hwait : ∀ j, w = some j → mex s < j ∧ j ≤ block.lastNumber size := by
    rintro j rfl
    have hj : j ∈ early s := by simp [hw]
    have hrange := hsub (mem_early.mp hj).1
    rw [Finset.mem_range] at hrange
    exact ⟨(mem_early.mp hj).2, by omega⟩
  by_cases hgap : k = mex s
  · subst hgap
    have hnext := keepsAt_of_next hsend hsize hid hkeeps hk hwait hf
    have hretain : retain 1 s (mex s) = insert (mex s) s := if_pos (Or.inl rfl)
    rw [hretain]
    by_cases hsaved : w = some (mex s + 1)
    · obtain ⟨hm, he⟩ := mex_early_insert_mex_of_next (by rw [hw, hsaved]; rfl)
      refine ⟨none, he, ?_⟩
      rw [hm]
      simpa [hsaved] using hnext
    · have hnot : mex s + 1 ∉ early s := by
        rw [hw, Option.mem_toFinset, Option.mem_def]
        exact hsaved
      obtain ⟨hm, he⟩ := mex_early_insert_mex_of_notMem hnot
      refine ⟨w, he.trans hw, ?_⟩
      rw [hm]
      simpa [hsaved] using hnext
  · have hlater := keepsAt_of_later hsend hid hkeeps (by omega) hk hf
    cases w with
    | none =>
      have hretain : retain 1 s k = insert k s := if_pos (Or.inr (by simp [hw]))
      refine ⟨some k, ?_, ?_⟩
      · rw [hretain, early_insert_of_ne (by omega), hw]
        rfl
      · rw [hretain, mex_insert_of_ne hgap]
        exact hlater
    | some j =>
      have hretain : retain 1 s k = s := if_neg (by simp [hw, hgap])
      rw [hretain]
      exact ⟨some j, hw, hlater⟩

/-- Fragments of other messages leave the message alone. -/
theorem Keeps.of_affects {ep' : TunnelEndpoint} {key : Option UInt32}
    (h : Keeps block size base s ep) (hkey : key ≠ some block.data.getMsgID)
    (haff : Affects key ep ep') : Keeps block size base s ep' := by
  obtain ⟨hsub, w, hw, hk⟩ := h
  have hinc := haff.incompleteMessages_eq _ hkey.symm
  have hslot := haff.outOfSequenceFragments_eq _ hkey.symm
  obtain ⟨new, hnew, hnewkey⟩ := haff.handled_eq
  have hnone : new.filter (·.1 = some block.data.getMsgID) = [] := by
    rw [List.filter_eq_nil_iff]
    intro e he
    rw [hnewkey e he]
    simpa using hkey
  refine ⟨hsub, w, hw, ?_, ?_, ?_, ?_, ?_⟩
  · rw [hinc]
    exact hk.incomplete_none
  · rw [hinc]
    exact hk.incomplete_some
  · rw [hslot]
    exact hk.saved_none
  · rw [hslot]
    exact hk.saved_some
  · rw [hnew, List.filter_append, hnone, List.append_nil]
    exact hk.handled_eq

/-- A run: of the fragments `ks` that arrive, the endpoint keeps what `retainAll 1` keeps. -/
theorem keeps_handleFragments (hsend : Sendable block) (hsize : size < block.data.getLength)
    (hid : block.data.getMsgID ≠ 0) {ws : List WireFragment}
    {fs : List (DeliveryInstructions × I2NPMessage)} (hrep : List.Forall₂ Represents ws fs)
    {ks : List ℕ}
    (hks : ws.filter (·.key = some block.data.getMsgID) = ks.map (block.fragmentAt size))
    (hle : ∀ k ∈ ks, k ≤ block.lastNumber size) (hnodup : ks.Nodup) (hnew : ∀ k ∈ ks, k ∉ s)
    (h : Keeps block size base s ep) :
    Keeps block size base (retainAll 1 s ks) (ep.handleFragments fs) := by
  induction hrep generalizing ks s ep with
  | nil =>
    obtain rfl : ks = [] := by simpa using hks.symm
    exact h
  | @cons w f ws fs hf _ ih =>
    have hstep : ep.handleFragments (f :: fs) =
        (ep.handleFragment f.1 f.2).val.handleFragments fs := List.foldl_cons ..
    rw [hstep]
    by_cases hkey : w.key = some block.data.getMsgID
    · -- a fragment of the message itself: it is the first of `ks`
      rw [List.filter_cons_of_pos (by simpa using hkey)] at hks
      cases ks with
      | nil => exact absurd hks (by simp)
      | cons k ks =>
        rw [List.map_cons, List.cons_eq_cons] at hks
        obtain ⟨rfl, htail⟩ := hks
        obtain ⟨hk, hnodup⟩ := List.nodup_cons.mp hnodup
        have hone := h.handleFragment hsend hsize hid (hnew k (by simp)) (hle k (by simp)) hf
        show Keeps block size base (retainAll 1 (retain 1 s k) ks) _
        refine ih htail (fun j hj => hle j (by simp [hj])) hnodup (fun j hj hmem => ?_) hone
        rcases Finset.mem_insert.mp (retain_subset 1 s k hmem) with rfl | hold
        · exact hk hj
        · exact hnew j (by simp [hj]) hold
    · rw [List.filter_cons_of_neg (by simpa using hkey)] at hks
      obtain ⟨pos, hdi⟩ := hf.instructions_eq
      have haff := affects_handleFragment ep w pos f.2
      rw [← hdi] at haff
      exact ih hks hle hnodup hnew (h.of_affects hkey haff)

/-- Before the first fragment nothing is kept. -/
theorem keeps_empty (block : TunnelMessageBlock) (size : ℕ) (ep : TunnelEndpoint)
    (hinc : ep.incompleteMessages block.data.getMsgID = none)
    (hslot : ep.outOfSequenceFragments block.data.getMsgID = none) :
    Keeps block size (ep.handled.filter (·.1 = some block.data.getMsgID)) ∅ ep := by
  refine ⟨by simp, none, by simp [early], fun _ => hinc, fun hpos => ?_, fun _ => hslot,
    fun k hk => by simp at hk, ?_⟩
  · simp at hpos
  · simp

end Runs

end Tunnel
