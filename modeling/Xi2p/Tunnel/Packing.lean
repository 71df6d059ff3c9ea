import Xi2p.Tunnel.Fragments

/-!
# What the gateway sends

The tunnel data messages of the gateway, as wire fragments. `Sends env g ws` says that the finished
messages of `g` and the one under construction carry exactly the fragments `ws`, in order; every
operation of the gateway buffer is described by its effect on `ws`.

* `sends_putI2NPMsg`: `PutI2NPMsg` appends the fragments `wireFragments env g block`.
* `represents_of_carries`: the endpoint finds the fragments of all blocks, in order.
-/

namespace Tunnel

open Bytes I2NP TunnelDeliveryType

/-! ## Fragments of a block -/

namespace TunnelMessageBlock

/-- The block in one piece. -/
def wholeFragment (block : TunnelMessageBlock) : WireFragment :=
  .whole block.deliveryType block.hash block.tunnelID block.data.bytes

/-- The first fragment, with `size` bytes of the message. -/
def firstFragment (block : TunnelMessageBlock) (size : ℕ) : WireFragment :=
  .first block.deliveryType block.hash block.tunnelID block.data.getMsgID
    (slice block.data.buf block.data.offset size)

/-- The follow-on fragment behind the first `size` bytes of the message. -/
def followOnFragment (block : TunnelMessageBlock) (size fragmentNumber : ℕ) : WireFragment :=
  let rest := block.data.getLength - size
  .followOn block.data.getMsgID fragmentNumber (TunnelGatewayBuffer.isLastFollowOn rest)
    (slice block.data.buf (block.data.offset + size) (TunnelGatewayBuffer.followOnSize rest))

/-- The follow-on fragments behind the first `size` bytes of the message. -/
def followOnFragments (block : TunnelMessageBlock) (size fragmentNumber : ℕ) :
    List WireFragment :=
  if size < block.data.getLength then
    block.followOnFragment size fragmentNumber ::
      followOnFragments block
        (size + TunnelGatewayBuffer.followOnSize (block.data.getLength - size))
        (fragmentNumber + 1)
  else []
termination_by block.data.getLength - size
decreasing_by
  rename_i hsize
  have hpos := TunnelGatewayBuffer.followOnSize_pos (Nat.sub_pos_of_lt hsize)
  omega

/-- All fragments of a block whose first fragment has `size` bytes of the message. -/
def fragments (block : TunnelMessageBlock) (size : ℕ) : List WireFragment :=
  block.firstFragment size :: block.followOnFragments size 1

theorem msgIDBytes_eq (block : TunnelMessageBlock) :
    block.msgIDBytes = writeU32 block.data.getMsgID :=
  (writeU32_readU32 (length_slice _ _ _)).symm

theorem length_instructions (block : TunnelMessageBlock) (fragmented : Bool) :
    (block.instructions fragmented).length = block.diLen := by
  unfold instructions diLen
  cases block.deliveryType <;> simp [destination, TunnelDeliveryType.diLen]

theorem encode_wholeFragment (block : TunnelMessageBlock) :
    block.wholeFragment.encode =
      block.instructions false ++ writeBE 2 block.data.getLength ++ block.data.bytes := by
  simp only [WireFragment.encode, wholeFragment, WireFragment.data, I2NPMessage.length_bytes]
  rfl

theorem encode_firstFragment (block : TunnelMessageBlock) (size : ℕ) :
    (block.firstFragment size).encode =
      block.instructions true ++ block.msgIDBytes ++ writeBE 2 size ++
        slice block.data.buf block.data.offset size := by
  simp only [WireFragment.encode, firstFragment, WireFragment.data, length_slice,
    msgIDBytes_eq]
  rfl

theorem encode_followOnFragment (block : TunnelMessageBlock) (size fragmentNumber : ℕ) :
    (block.followOnFragment size fragmentNumber).encode =
      followOnFlag fragmentNumber
          (TunnelGatewayBuffer.isLastFollowOn (block.data.getLength - size)) ::
        block.msgIDBytes ++
        writeBE 2 (TunnelGatewayBuffer.followOnSize (block.data.getLength - size)) ++
        slice block.data.buf (block.data.offset + size)
          (TunnelGatewayBuffer.followOnSize (block.data.getLength - size)) := by
  simp only [WireFragment.encode, followOnFragment, WireFragment.data, length_slice,
    msgIDBytes_eq]
  rfl

theorem length_encode_wholeFragment (block : TunnelMessageBlock) :
    block.wholeFragment.encode.length = block.diLen + 2 + block.data.getLength := by
  simp [encode_wholeFragment, length_instructions, Nat.add_assoc]

theorem length_encode_firstFragment (block : TunnelMessageBlock) (size : ℕ) :
    (block.firstFragment size).encode.length = block.diLen + 6 + size := by
  simp only [encode_firstFragment, msgIDBytes_eq, List.length_append, length_instructions,
    length_writeU32, length_writeBE, length_slice]

theorem length_encode_followOnFragment (block : TunnelMessageBlock) (size fragmentNumber : ℕ) :
    (block.followOnFragment size fragmentNumber).encode.length =
      TunnelGatewayBuffer.followOnSize (block.data.getLength - size) + 7 := by
  simp only [followOnFragment, WireFragment.length_encode, WireFragment.header, WireFragment.data,
    List.length_cons, length_writeU32, length_slice]
  omega

end TunnelMessageBlock

/-! ## Fragments in the buffer -/

namespace TunnelGatewayBuffer

variable {env : GatewayEnv} {tunnelID : UInt32} {g : TunnelGatewayBuffer} {ws : List WireFragment}

/-- The buffer holds the finished messages `done` and the message `cur` under construction. -/
structure Packed (env : GatewayEnv) (tunnelID : UInt32) (g : TunnelGatewayBuffer)
    (done : List (List WireFragment)) (cur : Option (List WireFragment)) : Prop where
  tunnelID_eq : g.tunnelID = tunnelID
  tunnelDataMsgs_eq : g.tunnelDataMsgs =
    done.mapIdx fun i ws => tunnelDataMsg env tunnelID i (WireFragment.encodeAll ws)
  length_le : ∀ ws ∈ done, (WireFragment.encodeAll ws).length ≤ tunnelDataMaxPayloadSize
  current_eq : g.current = cur.map WireFragment.encodeAll
  remainingSize_eq : ∀ ws ∈ cur,
    g.remainingSize + (WireFragment.encodeAll ws).length = tunnelDataMaxPayloadSize

/-- The messages of the buffer carry the fragments `ws`. -/
def Sends (env : GatewayEnv) (tunnelID : UInt32) (g : TunnelGatewayBuffer)
    (ws : List WireFragment) : Prop :=
  ∃ done cur, Packed env tunnelID g done cur ∧ done.flatten ++ cur.getD [] = ws

theorem sends_init (env : GatewayEnv) (tunnelID : UInt32) :
    Sends env tunnelID (init tunnelID) [] :=
  ⟨[], none, ⟨rfl, rfl, by simp, rfl, by simp⟩, rfl⟩

theorem Sends.create (h : Sends env tunnelID g ws) (hcur : g.current = none) :
    Sends env tunnelID g.createCurrentTunnelDataMessage ws := by
  obtain ⟨done, cur, hp, rfl⟩ := h
  have hnone : cur = none := by simpa [hcur] using hp.current_eq.symm
  subst hnone
  refine ⟨done, some [], ⟨hp.tunnelID_eq, hp.tunnelDataMsgs_eq, hp.length_le, rfl, ?_⟩, by simp⟩
  simp [createCurrentTunnelDataMessage, WireFragment.encodeAll]

theorem Packed.complete {done : List (List WireFragment)} {cur : Option (List WireFragment)}
    (h : Packed env tunnelID g done cur) :
    Packed env tunnelID (g.completeCurrentTunnelDataMessage env) (done ++ cur.toList) none := by
  cases cur with
  | none =>
    have hcur : g.current = none := h.current_eq
    have hg : g.completeCurrentTunnelDataMessage env = g := by
      simp [completeCurrentTunnelDataMessage, hcur]
    simpa [hg] using h
  | some ws =>
    have hcur : g.current = some (WireFragment.encodeAll ws) := h.current_eq
    have hlen : g.tunnelDataMsgs.length = done.length := by simp [h.tunnelDataMsgs_eq]
    have hws := h.remainingSize_eq ws rfl
    refine ⟨?_, ?_, ?_, by simp, by simp⟩
    · simp only [completeCurrentTunnelDataMessage, hcur]
      exact h.tunnelID_eq
    · simp only [completeCurrentTunnelDataMessage, hcur, hlen, Option.toList_some,
        List.mapIdx_concat]
      rw [h.tunnelDataMsgs_eq, h.tunnelID_eq]
    · intro vs hvs
      rw [Option.toList_some, List.mem_append, List.mem_singleton] at hvs
      rcases hvs with hvs | rfl
      · exact h.length_le vs hvs
      · omega

theorem Sends.complete (h : Sends env tunnelID g ws) :
    Sends env tunnelID (g.completeCurrentTunnelDataMessage env) ws := by
  obtain ⟨done, cur, hp, rfl⟩ := h
  refine ⟨done ++ cur.toList, none, hp.complete, ?_⟩
  cases cur <;> simp

/-- A message under construction can take a fragment that is not larger than the space left. -/
theorem Packed.write {done : List (List WireFragment)} {vs : List WireFragment}
    {w : WireFragment} (h : Packed env tunnelID g done (some vs))
    (hw : w.encode.length ≤ g.remainingSize) :
    Packed env tunnelID { g.write w.encode with remainingSize := g.remainingSize - w.encode.length } done
      (some (vs ++ [w])) := by
  have hvs := h.remainingSize_eq vs rfl
  refine ⟨h.tunnelID_eq, h.tunnelDataMsgs_eq, h.length_le, ?_, ?_⟩
  · simp [TunnelGatewayBuffer.write, h.current_eq, WireFragment.encodeAll]
  · rintro _ ⟨⟩
    rw [WireFragment.encodeAll_append, List.length_append]
    simp only [WireFragment.encodeAll, List.flatMap_cons, List.flatMap_nil, List.append_nil] at *
    omega

theorem Sends.consume {w : WireFragment} (h : Sends env tunnelID g ws) (hcur : g.current ≠ none)
    (hw : w.encode.length ≤ g.remainingSize) :
    Sends env tunnelID ((g.write w.encode).consume env w.encode.length) (ws ++ [w]) := by
  obtain ⟨done, cur, hp, rfl⟩ := h
  cases cur with
  | none => exact absurd hp.current_eq hcur
  | some vs =>
    have hsends : Sends env tunnelID
        { g.write w.encode with remainingSize := g.remainingSize - w.encode.length }
        (done.flatten ++ (some vs).getD [] ++ [w]) :=
      ⟨done, some (vs ++ [w]), hp.write hw, by simp⟩
    simp only [TunnelGatewayBuffer.consume]
    split
    · exact hsends.complete
    · exact hsends

/-- A fragment that fills the message is written and the message completed at once. -/
theorem Sends.write_complete {w : WireFragment} (h : Sends env tunnelID g ws) (hcur : g.current ≠ none)
    (hw : w.encode.length ≤ g.remainingSize) :
    Sends env tunnelID ((g.write w.encode).completeCurrentTunnelDataMessage env) (ws ++ [w]) := by
  obtain ⟨done, cur, hp, rfl⟩ := h
  cases cur with
  | none => exact absurd hp.current_eq hcur
  | some vs =>
    have hc := (hp.write hw).complete
    -- completing does not look at the remaining size
    have hmsgs : ((g.write w.encode).completeCurrentTunnelDataMessage env).tunnelDataMsgs =
        (completeCurrentTunnelDataMessage env
          { g.write w.encode with
            remainingSize := g.remainingSize - w.encode.length }).tunnelDataMsgs := by
      unfold completeCurrentTunnelDataMessage
      cases (g.write w.encode).current <;> rfl
    have hid : ((g.write w.encode).completeCurrentTunnelDataMessage env).tunnelID =
        (completeCurrentTunnelDataMessage env
          { g.write w.encode with
            remainingSize := g.remainingSize - w.encode.length }).tunnelID := by
      unfold completeCurrentTunnelDataMessage
      cases (g.write w.encode).current <;> rfl
    refine ⟨_, none, ⟨hid.trans hc.tunnelID_eq, hmsgs.trans hc.tunnelDataMsgs_eq, hc.length_le,
      by simp, by simp⟩, by simp⟩

/-! ## Fragments of `PutI2NPMsg` -/

/-- The number of bytes in the first fragment of a block, if the gateway cuts the block. -/
def firstFragmentSize (env : GatewayEnv) (g : TunnelGatewayBuffer) (block : TunnelMessageBlock) :
    Option ℕ :=
  let remainingSize := (g.ensureCurrent.makeRoom env g.current.isNone block).remainingSize
  if block.fullMsgLen ≤ g.ensureCurrent.remainingSize then none
  else if block.diLen + 6 ≤ remainingSize then some (remainingSize - block.diLen - 6)
  -- the block goes to a new message
  else if block.fullMsgLen ≤ tunnelDataMaxPayloadSize then none
  else some (tunnelDataMaxPayloadSize - block.diLen - 6)

/-- The fragments that `PutI2NPMsg` writes. -/
def wireFragments (env : GatewayEnv) (g : TunnelGatewayBuffer) (block : TunnelMessageBlock) :
    List WireFragment :=
  match g.firstFragmentSize env block with
  | none => [block.wholeFragment]
  | some size => block.fragments size

theorem Sends.ensureCurrent (h : Sends env tunnelID g ws) : Sends env tunnelID g.ensureCurrent ws := by
  unfold TunnelGatewayBuffer.ensureCurrent
  split
  · exact h.create (Option.isNone_iff_eq_none.mp ‹_›)
  · exact h

theorem current_ensureCurrent_ne_none (g : TunnelGatewayBuffer) :
    g.ensureCurrent.current ≠ none := by
  unfold TunnelGatewayBuffer.ensureCurrent
  split
  · simp [createCurrentTunnelDataMessage]
  · exact Option.isNone_iff_eq_none.not.mp ‹_›

theorem Sends.makeRoom (h : Sends env tunnelID g ws) (messageCreated : Bool) (block : TunnelMessageBlock) :
    Sends env tunnelID (g.makeRoom env messageCreated block) ws := by
  simp only [TunnelGatewayBuffer.makeRoom]
  split
  · exact h
  · split
    · exact h.complete.create (current_completeCurrentTunnelDataMessage env g)
    · exact h

theorem current_makeRoom_ne_none (h : g.current ≠ none) (messageCreated : Bool)
    (block : TunnelMessageBlock) : (g.makeRoom env messageCreated block).current ≠ none := by
  simp only [TunnelGatewayBuffer.makeRoom]
  split
  · exact h
  · split
    · simp [createCurrentTunnelDataMessage]
    · exact h

theorem Sends.putWhole {block : TunnelMessageBlock} (h : Sends env tunnelID g ws)
    (hcur : g.current ≠ none) (hfit : block.fullMsgLen ≤ g.remainingSize) :
    Sends env tunnelID (g.putWhole env block) (ws ++ [block.wholeFragment]) := by
  have hlen := block.length_encode_wholeFragment
  have hw : block.wholeFragment.encode.length ≤ g.remainingSize := by
    simp only [TunnelMessageBlock.fullMsgLen] at hfit
    omega
  have hsends := h.consume hcur hw
  rwa [hlen, block.encode_wholeFragment] at hsends

/-- The body of the loop over the follow-on fragments appends one fragment. -/
theorem Sends.putFollowOn (h : Sends env tunnelID g ws) (hcur : g.current = none)
    (block : TunnelMessageBlock) (size fragmentNumber : ℕ) :
    Sends env tunnelID (g.putFollowOn env block size fragmentNumber)
      (ws ++ [block.followOnFragment size fragmentNumber]) := by
  have hcreated := h.create hcur
  have hne : g.createCurrentTunnelDataMessage.current ≠ none := by
    simp [createCurrentTunnelDataMessage]
  have hlen := block.length_encode_followOnFragment size fragmentNumber
  have hw : (block.followOnFragment size fragmentNumber).encode.length ≤
      g.createCurrentTunnelDataMessage.remainingSize := by
    rw [hlen, followOnSize_eq_min]
    simp only [createCurrentTunnelDataMessage, tunnelDataMaxPayloadSize]
    omega
  simp only [TunnelGatewayBuffer.putFollowOn, ← block.encode_followOnFragment, ← hlen]
  split
  · exact hcreated.consume hne hw
  · exact hcreated.write_complete hne hw

/-- The loop over the follow-on fragments. -/
theorem Sends.putFollowOnFragments (h : Sends env tunnelID g ws) (hcur : g.current = none)
    (block : TunnelMessageBlock) (size fragmentNumber : ℕ) :
    Sends env tunnelID (g.putFollowOnFragments env block size fragmentNumber)
      (ws ++ block.followOnFragments size fragmentNumber) := by
  fun_induction TunnelGatewayBuffer.putFollowOnFragments env g block size fragmentNumber
    generalizing ws with
  | case1 g size fragmentNumber hsize ih =>
    rw [TunnelMessageBlock.followOnFragments, if_pos hsize]
    have hone := h.putFollowOn hcur block size fragmentNumber
    by_cases hlast : isLastFollowOn (block.data.getLength - size)
    · -- the loop ends behind the last fragment
      have hend : ¬ size + followOnSize (block.data.getLength - size) <
          block.data.getLength := by
        rw [isLastFollowOn_iff] at hlast
        rw [followOnSize_eq_min]
        omega
      rw [TunnelGatewayBuffer.putFollowOnFragments, if_neg hend,
        TunnelMessageBlock.followOnFragments, if_neg hend]
      exact hone
    · have hnone : (g.putFollowOn env block size fragmentNumber).current = none := by
        simp only [TunnelGatewayBuffer.putFollowOn, hlast, if_false, Bool.false_eq_true,
          current_completeCurrentTunnelDataMessage]
      have hrest := ih hone hnone
      rwa [List.append_assoc] at hrest
  | case2 g size fragmentNumber hsize =>
    rw [TunnelMessageBlock.followOnFragments, if_neg hsize, List.append_nil]
    exact h

theorem Sends.putFragments {block : TunnelMessageBlock} (h : Sends env tunnelID g ws)
    (hcur : g.current ≠ none) (hfit : block.diLen + 6 ≤ g.remainingSize) :
    Sends env tunnelID (g.putFragments env block)
      (ws ++ block.fragments (g.remainingSize - block.diLen - 6)) := by
  have hlen := block.length_encode_firstFragment (g.remainingSize - block.diLen - 6)
  have hw : (block.firstFragment (g.remainingSize - block.diLen - 6)).encode.length ≤
      g.remainingSize := by omega
  have hfirst := h.write_complete hcur hw
  have hall := hfirst.putFollowOnFragments (current_completeCurrentTunnelDataMessage env _) block
    (g.remainingSize - block.diLen - 6) 1
  rw [block.encode_firstFragment, List.append_assoc ws] at hall
  exact hall

theorem firstFragmentSize_of_current_eq_none (block : TunnelMessageBlock) (h : g.current = none) :
    g.firstFragmentSize env block =
      if block.fullMsgLen ≤ tunnelDataMaxPayloadSize then none
      else some (tunnelDataMaxPayloadSize - block.diLen - 6) := by
  have hroom : (g.ensureCurrent.makeRoom env g.current.isNone block).remainingSize =
      tunnelDataMaxPayloadSize := by
    simp [TunnelGatewayBuffer.makeRoom, TunnelGatewayBuffer.ensureCurrent, h,
      createCurrentTunnelDataMessage]
  have hfit : block.diLen + 6 ≤ tunnelDataMaxPayloadSize :=
    hroom ▸ instructions_fit_of_current_eq_none block h
  have hcreated : g.ensureCurrent.remainingSize = tunnelDataMaxPayloadSize := by
    simp [TunnelGatewayBuffer.ensureCurrent, h, createCurrentTunnelDataMessage]
  simp only [firstFragmentSize, hroom, hcreated, if_pos hfit]

/-- `PutI2NPMsg` appends the fragments of the block. -/
theorem sends_putI2NPMsg (h : Sends env tunnelID g ws) (block : TunnelMessageBlock) :
    Sends env tunnelID (g.putI2NPMsg env block) (ws ++ g.wireFragments env block) := by
  fun_induction putI2NPMsg env g block generalizing ws with
  | @case1 g hfit =>
    simp only [wireFragments, firstFragmentSize, if_pos hfit]
    exact h.ensureCurrent.putWhole (current_ensureCurrent_ne_none g) hfit
  | @case2 g hfit g' hroom =>
    simp only [wireFragments, firstFragmentSize, if_neg hfit]
    rw [if_pos hroom]
    exact (h.ensureCurrent.makeRoom _ block).putFragments
      (current_makeRoom_ne_none (current_ensureCurrent_ne_none g) _ block) hroom
  | @case3 g hfit g' hroom ih =>
    -- the block is put again, into a new message
    have hagain := ih (h.ensureCurrent.makeRoom g.current.isNone block).complete
    have hsame : (completeCurrentTunnelDataMessage env g').firstFragmentSize env block =
        g.firstFragmentSize env block := by
      rw [firstFragmentSize_of_current_eq_none block
        (current_completeCurrentTunnelDataMessage env _)]
      simp only [firstFragmentSize, if_neg hfit]
      rw [if_neg hroom]
    simpa only [wireFragments, hsame] using hagain

/-- The fragments that a list of blocks is sent in. -/
def sentFragments (env : GatewayEnv) (g : TunnelGatewayBuffer) :
    List TunnelMessageBlock → List WireFragment
  | [] => []
  | block :: blocks => g.wireFragments env block ++
    sentFragments env (g.putI2NPMsg env block) blocks

theorem sends_putAll (blocks : List TunnelMessageBlock) (h : Sends env tunnelID g ws) :
    Sends env tunnelID (g.putAll env blocks) (ws ++ g.sentFragments env blocks) := by
  induction blocks generalizing g ws with
  | nil => simpa [putAll, sentFragments] using h
  | cons block blocks ih =>
    have hrest := ih (sends_putI2NPMsg h block)
    rw [List.append_assoc] at hrest
    exact hrest

/-- The bytes of a tunnel data message with the fragments `ws`. -/
def Encodes (env : GatewayEnv) (tunnelID : UInt32) (wire : List UInt8)
    (ws : List WireFragment) : Prop :=
  (WireFragment.encodeAll ws).length ≤ tunnelDataMaxPayloadSize ∧
    ∃ i, wire = tunnelDataMsg env tunnelID i (WireFragment.encodeAll ws)

/-- The tunnel data messages of a list of blocks carry the fragments of the blocks, in order. -/
theorem encodes_tunnelDataMsgsOf (env : GatewayEnv) (tunnelID : UInt32)
    (blocks : List TunnelMessageBlock) :
    ∃ wss, List.Forall₂ (Encodes env tunnelID) (tunnelDataMsgsOf env tunnelID blocks) wss ∧
      wss.flatten = (init tunnelID).sentFragments env blocks := by
  have hsends := (sends_putAll blocks (sends_init env tunnelID)).complete
  obtain ⟨done, cur, hp, hflat⟩ := hsends
  have hnone : cur = none := by simpa using hp.current_eq.symm
  subst hnone
  refine ⟨done, ?_, by simpa using hflat⟩
  rw [tunnelDataMsgsOf, hp.tunnelDataMsgs_eq, List.forall₂_iff_get]
  refine ⟨by simp, fun i h₁ h₂ => ⟨hp.length_le _ (List.get_mem done ⟨i, h₂⟩), i, ?_⟩⟩
  simp

end TunnelGatewayBuffer

/-! ## Fragments at the endpoint -/

open TunnelGatewayBuffer

/-- A block that the gateway can be given: a known delivery type, and a message that the endpoint
has room for. -/
structure Sendable (block : TunnelMessageBlock) : Prop where
  deliveryType_ne : block.deliveryType ≠ unknown
  length_lt : block.data.getLength + 2 < maxMessageSize

/-- The number of a follow-on fragment is bounded by the bytes in front of it. -/
theorem wellFormed_followOnFragments {block : TunnelMessageBlock}
    (hlen : block.data.getLength < maxMessageSize) (size fragmentNumber : ℕ)
    (h : 996 * fragmentNumber ≤ size + 996) :
    ∀ w ∈ block.followOnFragments size fragmentNumber, w.WellFormed := by
  simp only [maxMessageSize] at hlen
  fun_induction TunnelMessageBlock.followOnFragments block size fragmentNumber with
  | case1 size fragmentNumber hsize ih =>
    intro w hw
    rw [followOnSize_eq_min] at ih hw
    rcases List.mem_cons.mp hw with rfl | hw
    · refine ⟨?_, ?_⟩
      · simp only [TunnelMessageBlock.followOnFragment, WireFragment.data, length_slice,
          followOnSize_eq_min, tunnelDataMaxPayloadSize]
        omega
      · simp only [TunnelMessageBlock.followOnFragment]
        omega
    · -- every fragment but the last one takes 996 bytes
      by_cases hlast : block.data.getLength - size ≤ 996
      · rw [TunnelMessageBlock.followOnFragments, if_neg (by omega)] at hw
        exact absurd hw (List.not_mem_nil)
      · exact ih (by omega) w hw
  | case2 size fragmentNumber hsize => simp

theorem remainingSize_le {env : GatewayEnv} {tunnelID : UInt32} {g : TunnelGatewayBuffer}
    {ws : List WireFragment} (h : Sends env tunnelID g ws) (hcur : g.current ≠ none) :
    g.remainingSize ≤ tunnelDataMaxPayloadSize := by
  obtain ⟨done, cur, hp, -⟩ := h
  cases cur with
  | none => exact absurd hp.current_eq hcur
  | some vs => exact Nat.le.intro (hp.remainingSize_eq vs rfl)

/-- Every fragment of a block fits its delivery instructions. -/
theorem wellFormed_wireFragments {env : GatewayEnv} {tunnelID : UInt32} {g : TunnelGatewayBuffer}
    {ws : List WireFragment} {block : TunnelMessageBlock} (hblock : Sendable block)
    (h : Sends env tunnelID g ws) : ∀ w ∈ g.wireFragments env block, w.WellFormed := by
  have hcur := current_ensureCurrent_ne_none g
  have hcreated := remainingSize_le h.ensureCurrent hcur
  have hroom := remainingSize_le (h.ensureCurrent.makeRoom g.current.isNone block)
    (current_makeRoom_ne_none hcur g.current.isNone block)
  have hfirst : ∀ size, size ≤ tunnelDataMaxPayloadSize →
      ∀ w ∈ block.fragments size, w.WellFormed := by
    intro size hsize w hw
    rcases List.mem_cons.mp hw with rfl | hw
    · refine ⟨?_, hblock.deliveryType_ne⟩
      simpa [TunnelMessageBlock.firstFragment, WireFragment.data] using hsize
    · exact wellFormed_followOnFragments (by have := hblock.length_lt; omega) size 1 (by omega) w hw
  have hwhole : block.fullMsgLen ≤ tunnelDataMaxPayloadSize →
      ∀ w ∈ [block.wholeFragment], w.WellFormed := by
    intro hfit w hw
    rw [List.mem_singleton.mp hw]
    refine ⟨?_, hblock.deliveryType_ne⟩
    simp only [TunnelMessageBlock.wholeFragment, WireFragment.data, I2NPMessage.length_bytes]
    simp only [TunnelMessageBlock.fullMsgLen] at hfit
    omega
  simp only [wireFragments, firstFragmentSize]
  by_cases hfit : block.fullMsgLen ≤ g.ensureCurrent.remainingSize
  · rw [if_pos hfit]
    exact hwhole (hfit.trans hcreated)
  · rw [if_neg hfit]
    split_ifs with hin hnew
    · exact hfirst _ (by omega)
    · exact hwhole hnew
    · exact hfirst _ (by omega)

theorem wellFormed_sentFragments {env : GatewayEnv} {tunnelID : UInt32} {g : TunnelGatewayBuffer}
    {ws : List WireFragment} {blocks : List TunnelMessageBlock}
    (hblocks : ∀ block ∈ blocks, Sendable block) (h : Sends env tunnelID g ws) :
    ∀ w ∈ g.sentFragments env blocks, w.WellFormed := by
  induction blocks generalizing g ws with
  | nil => simp [sentFragments]
  | cons block blocks ih =>
    intro w hw
    rcases List.mem_append.mp hw with hw | hw
    · exact wellFormed_wireFragments (hblocks block (by simp)) h w hw
    · exact ih (fun b hb => hblocks b (by simp [hb])) (sends_putI2NPMsg h block) w hw

/-- The endpoint finds the fragments in the tunnel data messages that carry them. -/
theorem represents_of_encodes {env : GatewayEnv} {tunnelID : UInt32} {msgs : List I2NPMessage}
    {wires : List (List UInt8)} {wss : List (List WireFragment)}
    (hws : ∀ ws ∈ wss, ∀ w ∈ ws, w.WellFormed)
    (hencodes : List.Forall₂ (Encodes env tunnelID) wires wss)
    (hcarries : List.Forall₂ Carries msgs wires) :
    List.Forall₂ Represents wss.flatten
      (msgs.flatMap (TunnelEndpoint.received env.sha256)) := by
  induction hencodes generalizing msgs with
  | nil =>
    cases hcarries
    exact List.Forall₂.nil
  | @cons wire ws wires wss hone _ ih =>
    cases hcarries with
    | @cons msg _ msgs _ hmsg hmsgs =>
      obtain ⟨hlen, i, rfl⟩ := hone
      have hhead := received_of_carries (hws ws (by simp)) hlen hmsg
      have htail := ih (fun vs hvs => hws vs (by simp [hvs])) hmsgs
      rw [List.flatten_cons, List.flatMap_cons]
      exact List.rel_append hhead htail

/-- Tunnel data messages that arrive in any order bring the fragments of all blocks. -/
theorem represents_of_perm {env : GatewayEnv} {tunnelID : UInt32}
    {blocks : List TunnelMessageBlock} (hblocks : ∀ block ∈ blocks, Sendable block)
    {wires : List (List UInt8)} (hperm : wires.Perm (tunnelDataMsgsOf env tunnelID blocks))
    {msgs : List I2NPMessage} (hcarries : List.Forall₂ Carries msgs wires) :
    ∃ ws : List WireFragment, ws.Perm ((init tunnelID).sentFragments env blocks) ∧
      List.Forall₂ Represents ws (msgs.flatMap (TunnelEndpoint.received env.sha256)) := by
  obtain ⟨wss, hencodes, hflat⟩ := encodes_tunnelDataMsgsOf env tunnelID blocks
  obtain ⟨wss', hencodes', hperm'⟩ := List.perm_comp_forall₂ hperm hencodes
  have hwf := wellFormed_sentFragments hblocks (sends_init env tunnelID)
  refine ⟨wss'.flatten, hflat ▸ hperm'.flatten, represents_of_encodes ?_ hencodes' hcarries⟩
  intro ws hws w hw
  refine hwf w (hflat ▸ ?_)
  exact List.mem_flatten.mpr ⟨ws, hperm'.mem_iff.mp hws, hw⟩

/-- Tunnel data messages that arrive in order bring the fragments of all blocks in order. -/
theorem represents_of_carries {env : GatewayEnv} {tunnelID : UInt32}
    {blocks : List TunnelMessageBlock} (hblocks : ∀ block ∈ blocks, Sendable block)
    {msgs : List I2NPMessage}
    (hcarries : List.Forall₂ Carries msgs (tunnelDataMsgsOf env tunnelID blocks)) :
    List.Forall₂ Represents ((init tunnelID).sentFragments env blocks)
      (msgs.flatMap (TunnelEndpoint.received env.sha256)) := by
  obtain ⟨wss, hencodes, hflat⟩ := encodes_tunnelDataMsgsOf env tunnelID blocks
  have hwf := wellFormed_sentFragments hblocks (sends_init env tunnelID)
  rw [← hflat] at hwf ⊢
  refine represents_of_encodes (fun ws hws w hw => ?_) hencodes hcarries
  exact hwf w (List.mem_flatten.mpr ⟨ws, hws, hw⟩)

end Tunnel
