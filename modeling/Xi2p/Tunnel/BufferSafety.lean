import Xi2p.Lib.Runs
import Xi2p.Tunnel.RoundTrip

/-!
# Safety of the gateway buffer

`PutI2NPMsg` once more, with what the code leaves to its callers and to the arithmetic made
explicit: a subtraction of sizes that would wrap and a nested call too many are faults, and the
fragments that are written are recorded.

* `Checked.putI2NPMsg_eq`: one nested call is enough, no subtraction wraps, and the buffer is that
  of `putI2NPMsg`.
* `laidOut_exec`: whatever the calls, every finished tunnel data message has its first zero byte
  directly before the delivery instructions.
* `putsSafely_iff`: a block is put safely unless it is cut needlessly.
-/

namespace Tunnel

open Bytes I2NP TunnelGatewayBuffer

namespace TunnelGatewayBuffer

/-! ## The code with its checks -/

namespace Checked

/-- What can go wrong in `PutI2NPMsg`. -/
inductive Fault
  /-- A subtraction of two `std::size_t` has a negative result. -/
  | wraps
  /-- `PutI2NPMsg` calls itself once too often. -/
  | nested
  deriving DecidableEq

/-- The difference of two sizes. -/
def subSize (a b : ℕ) : Except Fault ℕ :=
  if b ≤ a then .ok (a - b) else .error .wraps

/-- `m_RemainingSize -= n`, and the message is completed when nothing is left. -/
def consume (env : GatewayEnv) (g : TunnelGatewayBuffer) (n : ℕ) :
    Except Fault TunnelGatewayBuffer := do
  let rest ← subSize g.remainingSize n
  let g := { g with remainingSize := rest }
  return if g.remainingSize = 0 then g.completeCurrentTunnelDataMessage env else g

/-- The whole message fits: first and last fragment. -/
def putWhole (env : GatewayEnv) (g : TunnelGatewayBuffer) (block : TunnelMessageBlock) :
    Except Fault (TunnelGatewayBuffer × List WireFragment) := do
  let len := block.data.getLength
  let g := g.write (block.instructions false ++ writeBE 2 len ++ block.data.bytes)
  return (← consume env g (block.diLen + 2 + len), [block.wholeFragment])

/-- The body of the loop over the follow-on fragments. -/
def putFollowOn (env : GatewayEnv) (g : TunnelGatewayBuffer) (block : TunnelMessageBlock)
    (size fragmentNumber : ℕ) : Except Fault TunnelGatewayBuffer := do
  let rest ← subSize block.data.getLength size
  let s := followOnSize rest
  let g := g.createCurrentTunnelDataMessage.write
    (followOnFlag fragmentNumber (isLastFollowOn rest) :: block.msgIDBytes ++ writeBE 2 s ++
      slice block.data.buf (block.data.offset + size) s)
  if isLastFollowOn rest then consume env g (s + 7)
  else return g.completeCurrentTunnelDataMessage env

/-- The loop over the follow-on fragments. -/
def putFollowOnFragments (env : GatewayEnv) (g : TunnelGatewayBuffer)
    (block : TunnelMessageBlock) (size fragmentNumber : ℕ) :
    Except Fault (TunnelGatewayBuffer × List WireFragment) :=
  if size < block.data.getLength then do
    let g ← putFollowOn env g block size fragmentNumber
    let (g, ws) ← putFollowOnFragments env g block
      (size + followOnSize (block.data.getLength - size)) (fragmentNumber + 1)
    return (g, block.followOnFragment size fragmentNumber :: ws)
  else return (g, [])
termination_by block.data.getLength - size
decreasing_by
  rename_i hsize
  have hpos := followOnSize_pos (Nat.sub_pos_of_lt hsize)
  omega

/-- The delivery instructions fit: the first fragment takes the rest of the current message, the
follow-on fragments take new messages. -/
def putFragments (env : GatewayEnv) (g : TunnelGatewayBuffer) (block : TunnelMessageBlock) :
    Except Fault (TunnelGatewayBuffer × List WireFragment) := do
  let size ← subSize (← subSize g.remainingSize block.diLen) 6
  let g := g.write (block.instructions true ++ block.msgIDBytes ++ writeBE 2 size ++
    slice block.data.buf block.data.offset size)
  let (g, ws) ← putFollowOnFragments env (g.completeCurrentTunnelDataMessage env) block size 1
  return (g, block.firstFragment size :: ws)

/-- `PutI2NPMsg` with at most `calls` nested calls of itself. -/
def putI2NPMsg (env : GatewayEnv) (calls : ℕ) (g : TunnelGatewayBuffer)
    (block : TunnelMessageBlock) : Except Fault (TunnelGatewayBuffer × List WireFragment) :=
  if block.fullMsgLen ≤ g.ensureCurrent.remainingSize then
    putWhole env g.ensureCurrent block
  else
    let g' := g.ensureCurrent.makeRoom env g.current.isNone block
    if block.diLen + 6 ≤ g'.remainingSize then
      putFragments env g' block
    else
      match calls with
      | 0 => .error .nested
      | calls + 1 => putI2NPMsg env calls (g'.completeCurrentTunnelDataMessage env) block

/-! ## No fault -/

variable {env : GatewayEnv} {g : TunnelGatewayBuffer} {block : TunnelMessageBlock}

theorem subSize_of_le {a b : ℕ} (h : b ≤ a) : subSize a b = .ok (a - b) := if_pos h

theorem consume_eq {n : ℕ} (h : n ≤ g.remainingSize) :
    consume env g n = .ok (g.consume env n) := by
  rw [consume, subSize_of_le h]
  rfl

theorem putWhole_eq (h : block.fullMsgLen ≤ g.remainingSize) :
    putWhole env g block = .ok (g.putWhole env block, [block.wholeFragment]) := by
  have hfit : ∀ bs, block.diLen + 2 + block.data.getLength ≤ (g.write bs).remainingSize := by
    intro bs
    simp only [TunnelMessageBlock.fullMsgLen] at h
    simp only [TunnelGatewayBuffer.write]
    omega
  rw [putWhole, consume_eq (hfit _)]
  rfl

theorem putFollowOn_eq {size : ℕ} (fragmentNumber : ℕ) (h : size < block.data.getLength) :
    putFollowOn env g block size fragmentNumber =
      .ok (g.putFollowOn env block size fragmentNumber) := by
  have hroom : ∀ bs, followOnSize (block.data.getLength - size) + 7 ≤
      (g.createCurrentTunnelDataMessage.write bs).remainingSize := by
    intro bs
    rw [followOnSize_eq_min]
    simp only [TunnelGatewayBuffer.write, createCurrentTunnelDataMessage,
      tunnelDataMaxPayloadSize]
    omega
  rw [putFollowOn, subSize_of_le h.le, TunnelGatewayBuffer.putFollowOn]
  simp only [bind, Except.bind, consume_eq (hroom _)]
  split <;> rfl

theorem putFollowOnFragments_eq (size fragmentNumber : ℕ) :
    putFollowOnFragments env g block size fragmentNumber =
      .ok (g.putFollowOnFragments env block size fragmentNumber,
        block.followOnFragments size fragmentNumber) := by
  fun_induction TunnelGatewayBuffer.putFollowOnFragments env g block size fragmentNumber with
  | case1 g size fragmentNumber hsize ih =>
    rw [putFollowOnFragments, if_pos hsize, TunnelMessageBlock.followOnFragments, if_pos hsize,
      putFollowOn_eq fragmentNumber hsize]
    simp only [bind, Except.bind, ih]
    rfl
  | case2 g size fragmentNumber hsize =>
    rw [putFollowOnFragments, if_neg hsize, TunnelMessageBlock.followOnFragments, if_neg hsize]
    rfl

theorem putFragments_eq (h : block.diLen + 6 ≤ g.remainingSize) :
    putFragments env g block =
      .ok (g.putFragments env block, block.fragments (g.remainingSize - block.diLen - 6)) := by
  have hdi : block.diLen ≤ g.remainingSize := by omega
  have hsize : 6 ≤ g.remainingSize - block.diLen := by omega
  rw [putFragments, subSize_of_le hdi]
  simp only [bind, Except.bind, subSize_of_le hsize, putFollowOnFragments_eq]
  rfl

/-- A block that is put into a new message needs no nested call. -/
theorem putI2NPMsg_eq_of_current_eq_none (calls : ℕ) (h : g.current = none) :
    putI2NPMsg env calls g block =
      .ok (g.putI2NPMsg env block, g.wireFragments env block) := by
  have hroom : block.diLen + 6 ≤
      (g.ensureCurrent.makeRoom env g.current.isNone block).remainingSize :=
    instructions_fit_of_current_eq_none block h
  rw [putI2NPMsg.eq_def, TunnelGatewayBuffer.putI2NPMsg, wireFragments, firstFragmentSize]
  split
  case isTrue hfit => exact putWhole_eq hfit
  case isFalse hfit =>
    simp only [if_pos hroom]
    exact putFragments_eq hroom

/-- One nested call is enough: it puts the block into a new message. -/
theorem putI2NPMsg_eq (env : GatewayEnv) (g : TunnelGatewayBuffer) (block : TunnelMessageBlock) :
    putI2NPMsg env 1 g block = .ok (g.putI2NPMsg env block, g.wireFragments env block) := by
  by_cases hcur : g.current = none
  · exact putI2NPMsg_eq_of_current_eq_none 1 hcur
  rw [putI2NPMsg, TunnelGatewayBuffer.putI2NPMsg, wireFragments, firstFragmentSize]
  split
  case isTrue hfit => exact putWhole_eq hfit
  case isFalse hfit =>
    dsimp only
    split
    case isTrue hroom => exact putFragments_eq hroom
    case isFalse hroom =>
      have hnew := current_completeCurrentTunnelDataMessage env
        (g.ensureCurrent.makeRoom env g.current.isNone block)
      rw [putI2NPMsg_eq_of_current_eq_none 0 hnew, wireFragments,
        firstFragmentSize_of_current_eq_none block hnew]

end Checked

/-! ## Finished messages -/

/-- The bytes of a tunnel data message in front of the padding: tunnel ID, IV and checksum. -/
abbrev paddingPos : ℕ := 24

/-- A finished tunnel data message: behind the checksum, the first zero byte stands directly before
the delivery instructions of the first fragment. -/
def Separated (wire : List UInt8) : Prop :=
  wire.length = tunnelDataMsgSize ∧
    ∃ n ws, ws ≠ [] ∧ (wire.drop paddingPos).idxOf? 0 = some n ∧
      wire.drop (paddingPos + n + 1) = WireFragment.encodeAll ws

theorem separated_tunnelDataMsg (env : GatewayEnv) (tunnelID : UInt32) (i : ℕ)
    {ws : List WireFragment} (hne : ws ≠ [])
    (hlen : (WireFragment.encodeAll ws).length ≤ tunnelDataMaxPayloadSize) :
    Separated (tunnelDataMsg env tunnelID i (WireFragment.encodeAll ws)) := by
  set payload := WireFragment.encodeAll ws with hpayload
  set front := writeU32 tunnelID ++ env.randIV i ++
    (env.sha256 (payload ++ env.randIV i)).take 4 with hfront
  have hfrontlen : front.length = paddingPos := by
    simp [hfront, env.randIV_length, env.sha256_length]
  have hpad := length_padding env i hlen
  have hwire : tunnelDataMsg env tunnelID i payload =
      front ++ (padding env i payload.length ++ 0 :: payload) := by
    simp [tunnelDataMsg, padding, hfront]
  have hdrop : (tunnelDataMsg env tunnelID i payload).drop paddingPos =
      padding env i payload.length ++ 0 :: payload := by
    rw [hwire, ← hfrontlen, List.drop_left]
  refine ⟨?_, (padding env i payload.length).length, ws, hne, ?_, ?_⟩
  · simp only [hwire, List.length_append, List.length_cons, hfrontlen]
    simp only [tunnelDataMaxPayloadSize, tunnelDataMsgSize, paddingPos] at *
    omega
  · rw [hdrop, idxOf?_zero_append (zero_notMem_padding env i _)]
  · rw [Nat.add_assoc, ← List.drop_drop, hdrop, ← List.drop_drop, List.drop_left]
    rfl

/-- The finished messages are laid out as the endpoint expects, the message under construction
carries the fragments `cur`. -/
structure Laid (g : TunnelGatewayBuffer) (cur : Option (List WireFragment)) : Prop where
  separated : ∀ wire ∈ g.tunnelDataMsgs, Separated wire
  current_eq : g.current = cur.map WireFragment.encodeAll
  remainingSize_eq : ∀ ws ∈ cur,
    g.remainingSize + (WireFragment.encodeAll ws).length = tunnelDataMaxPayloadSize

/-- A message that is left under construction carries a fragment. -/
def LaidOut (g : TunnelGatewayBuffer) : Prop := ∃ cur, Laid g cur ∧ cur ≠ some []

section LaidOut

variable (env : GatewayEnv) {g : TunnelGatewayBuffer} {block : TunnelMessageBlock}

theorem Laid.laidOut_of_none (h : Laid g none) : LaidOut g :=
  ⟨none, h, (Option.some_ne_none _).symm⟩

theorem laidOut_init (tunnelID : UInt32) : LaidOut (init tunnelID) := by
  refine Laid.laidOut_of_none ⟨?_, rfl, ?_⟩
  · intro wire hwire
    exact absurd hwire List.not_mem_nil
  · intro ws hws
    exact absurd hws (Option.not_mem_none ws)

theorem Laid.create (h : Laid g none) : Laid g.createCurrentTunnelDataMessage (some []) := by
  refine ⟨h.separated, rfl, ?_⟩
  rintro _ ⟨⟩
  rfl

theorem Laid.complete {cur : Option (List WireFragment)} (h : Laid g cur) (hne : cur ≠ some []) :
    Laid (g.completeCurrentTunnelDataMessage env) none := by
  cases cur with
  | none =>
    have hsame : g.completeCurrentTunnelDataMessage env = g := by
      simp [completeCurrentTunnelDataMessage, h.current_eq]
    rwa [hsame]
  | some ws =>
    have hws := h.remainingSize_eq ws rfl
    have hcur : g.current = some (WireFragment.encodeAll ws) := h.current_eq
    refine ⟨?_, current_completeCurrentTunnelDataMessage env g, by simp⟩
    intro wire hwire
    simp only [completeCurrentTunnelDataMessage, hcur, List.mem_append, List.mem_singleton]
      at hwire
    rcases hwire with hwire | rfl
    · exact h.separated wire hwire
    · exact separated_tunnelDataMsg env g.tunnelID _ (fun hnil => hne (congrArg some hnil))
        (by omega)

/-- A fragment that is not larger than the space left is written. -/
theorem Laid.write {vs : List WireFragment} {w : WireFragment} (h : Laid g (some vs))
    (hw : w.encode.length ≤ g.remainingSize) :
    Laid { g.write w.encode with remainingSize := g.remainingSize - w.encode.length }
      (some (vs ++ [w])) := by
  have hvs := h.remainingSize_eq vs rfl
  refine ⟨h.separated, ?_, ?_⟩
  · simp [TunnelGatewayBuffer.write, h.current_eq, WireFragment.encodeAll]
  · rintro _ ⟨⟩
    rw [WireFragment.encodeAll_append, List.length_append]
    simp only [WireFragment.encodeAll, List.flatMap_cons, List.flatMap_nil, List.append_nil] at *
    omega

theorem Laid.consume {vs : List WireFragment} {w : WireFragment} (h : Laid g (some vs))
    (hw : w.encode.length ≤ g.remainingSize) :
    LaidOut ((g.write w.encode).consume env w.encode.length) := by
  have hwritten := h.write hw
  have hne : some (vs ++ [w]) ≠ some [] := by simp
  simp only [TunnelGatewayBuffer.consume]
  split
  · exact (hwritten.complete env hne).laidOut_of_none
  · exact ⟨_, hwritten, hne⟩

/-- A fragment that fills the message is written and the message completed at once. -/
theorem Laid.write_complete {vs : List WireFragment} {w : WireFragment} (h : Laid g (some vs))
    (hw : w.encode.length ≤ g.remainingSize) :
    Laid ((g.write w.encode).completeCurrentTunnelDataMessage env) none := by
  have hdone := (h.write hw).complete env (by simp)
  -- completing does not look at the remaining size
  refine ⟨fun wire hwire => hdone.separated wire ?_,
    current_completeCurrentTunnelDataMessage env _, by simp⟩
  revert hwire
  simp only [completeCurrentTunnelDataMessage]
  cases (g.write w.encode).current <;> exact id

theorem LaidOut.complete (h : LaidOut g) : LaidOut (g.completeCurrentTunnelDataMessage env) := by
  obtain ⟨cur, hcur, hne⟩ := h
  exact (hcur.complete env hne).laidOut_of_none

/-- A call starts with a message under construction; only a new one is empty. -/
theorem LaidOut.ensureCurrent (h : LaidOut g) : ∃ vs, Laid g.ensureCurrent (some vs) := by
  obtain ⟨cur, hcur, -⟩ := h
  cases cur with
  | none =>
    have hnone : g.current = none := hcur.current_eq
    refine ⟨[], ?_⟩
    rw [TunnelGatewayBuffer.ensureCurrent, hnone]
    exact hcur.create
  | some vs =>
    have hsome : g.current.isNone = false := by simp [hcur.current_eq]
    refine ⟨vs, ?_⟩
    rw [TunnelGatewayBuffer.ensureCurrent, hsome]
    exact hcur

theorem LaidOut.makeRoom (h : LaidOut g) (block : TunnelMessageBlock) :
    ∃ vs, Laid (g.ensureCurrent.makeRoom env g.current.isNone block) (some vs) := by
  simp only [TunnelGatewayBuffer.makeRoom]
  split
  · exact h.ensureCurrent
  case isFalse hold =>
    have hsame : g.ensureCurrent = g := by
      rw [TunnelGatewayBuffer.ensureCurrent, if_neg hold]
    rw [hsame]
    obtain ⟨cur, hcur, hne⟩ := h
    split
    · exact ⟨[], (hcur.complete env hne).create⟩
    · cases cur with
      | none =>
        have hnone : g.current = none := hcur.current_eq
        simp [hnone] at hold
      | some vs => exact ⟨vs, hcur⟩

theorem Laid.putWhole {vs : List WireFragment} (h : Laid g (some vs))
    (hfit : block.fullMsgLen ≤ g.remainingSize) : LaidOut (g.putWhole env block) := by
  have hlen := block.length_encode_wholeFragment
  have hw : block.wholeFragment.encode.length ≤ g.remainingSize := by
    simp only [TunnelMessageBlock.fullMsgLen] at hfit
    omega
  have hlaid := h.consume env hw
  rwa [hlen, block.encode_wholeFragment] at hlaid

/-- The body of the loop over the follow-on fragments. Every fragment but the last one completes
its message. -/
theorem Laid.putFollowOn (h : Laid g none) (block : TunnelMessageBlock)
    (size fragmentNumber : ℕ) :
    LaidOut (g.putFollowOn env block size fragmentNumber) ∧
      (¬ isLastFollowOn (block.data.getLength - size) →
        Laid (g.putFollowOn env block size fragmentNumber) none) := by
  have hlen := block.length_encode_followOnFragment size fragmentNumber
  have hw : (block.followOnFragment size fragmentNumber).encode.length ≤
      g.createCurrentTunnelDataMessage.remainingSize := by
    rw [hlen, followOnSize_eq_min]
    simp only [createCurrentTunnelDataMessage, tunnelDataMaxPayloadSize]
    omega
  simp only [TunnelGatewayBuffer.putFollowOn, ← block.encode_followOnFragment, ← hlen]
  split
  case isTrue hlast => exact ⟨h.create.consume env hw, fun hnot => absurd hlast hnot⟩
  case isFalse hlast =>
    have hdone := h.create.write_complete env hw
    exact ⟨hdone.laidOut_of_none, fun _ => hdone⟩

theorem Laid.putFollowOnFragments (h : Laid g none) (block : TunnelMessageBlock)
    (size fragmentNumber : ℕ) :
    LaidOut (g.putFollowOnFragments env block size fragmentNumber) := by
  fun_induction TunnelGatewayBuffer.putFollowOnFragments env g block size fragmentNumber with
  | case1 g size fragmentNumber hsize ih =>
    obtain ⟨hone, hmore⟩ := h.putFollowOn env block size fragmentNumber
    by_cases hlast : isLastFollowOn (block.data.getLength - size)
    · -- the loop ends behind the last fragment
      have hend : ¬ size + followOnSize (block.data.getLength - size) <
          block.data.getLength := by
        rw [isLastFollowOn_iff] at hlast
        rw [followOnSize_eq_min]
        omega
      rwa [TunnelGatewayBuffer.putFollowOnFragments, if_neg hend]
    · exact ih (hmore hlast)
  | case2 g size fragmentNumber hsize => exact h.laidOut_of_none

theorem Laid.putFragments {vs : List WireFragment} (h : Laid g (some vs))
    (hfit : block.diLen + 6 ≤ g.remainingSize) : LaidOut (g.putFragments env block) := by
  have hlen := block.length_encode_firstFragment (g.remainingSize - block.diLen - 6)
  have hw : (block.firstFragment (g.remainingSize - block.diLen - 6)).encode.length ≤
      g.remainingSize := by omega
  have hfirst := h.write_complete env hw
  rw [block.encode_firstFragment] at hfirst
  exact hfirst.putFollowOnFragments env block _ 1

theorem LaidOut.putI2NPMsg (h : LaidOut g) (block : TunnelMessageBlock) :
    LaidOut (g.putI2NPMsg env block) := by
  fun_induction TunnelGatewayBuffer.putI2NPMsg env g block with
  | @case1 g hfit =>
    obtain ⟨vs, hvs⟩ := h.ensureCurrent
    exact hvs.putWhole env hfit
  | @case2 g hfit g' hroom =>
    obtain ⟨vs, hvs⟩ := h.makeRoom env block
    exact hvs.putFragments env hroom
  | @case3 g hfit g' hroom ih =>
    obtain ⟨vs, hvs⟩ := h.makeRoom env block
    apply ih
    apply Laid.laidOut_of_none
    apply hvs.complete env
    -- an empty message would have room for the delivery instructions
    rintro ⟨⟩
    have hempty : g'.remainingSize + 0 = tunnelDataMaxPayloadSize := hvs.remainingSize_eq [] rfl
    have hdi : block.diLen ≤ 37 := block.deliveryType.diLen_le
    simp only [tunnelDataMaxPayloadSize] at hempty
    exact hroom (by omega)

end LaidOut

/-! ## Runs of the buffer -/

/-- A call of the buffer. -/
inductive GatewayCall
  | putI2NPMsg (block : TunnelMessageBlock)
  | completeCurrentTunnelDataMessage

/-- The effect of a call. -/
def call (env : GatewayEnv) (g : TunnelGatewayBuffer) : GatewayCall → TunnelGatewayBuffer
  | .putI2NPMsg block => g.putI2NPMsg env block
  | .completeCurrentTunnelDataMessage => g.completeCurrentTunnelDataMessage env

theorem laidOut_exec (env : GatewayEnv) (tunnelID : UInt32) (calls : List GatewayCall) :
    LaidOut (Runs.exec (call env) (init tunnelID) calls) := by
  refine Runs.invariant_exec (fun g c hg => ?_) (laidOut_init tunnelID) calls
  cases c with
  | putI2NPMsg block => exact hg.putI2NPMsg env block
  | completeCurrentTunnelDataMessage => exact hg.complete env

/-- A fragment of a message of `length` bytes as the endpoint needs it: a first fragment ends
inside the message, the number of a follow-on fragment fits its six bits. -/
def InPlace (length : ℕ) : WireFragment → Prop
  | .whole _ _ _ _ => True
  | .first _ _ _ _ data => data.length < length
  | .followOn _ fragmentNumber _ _ => fragmentNumber < 64

/-- `PutI2NPMsg` returns without a fault and with at most one nested call, every fragment that it
writes is in place, and every finished message has its first zero byte in front of the delivery
instructions. -/
def PutsSafely (env : GatewayEnv) (g : TunnelGatewayBuffer) (block : TunnelMessageBlock) : Prop :=
  ∃ g' ws, Checked.putI2NPMsg env 1 g block = .ok (g', ws) ∧
    (∀ w ∈ ws, InPlace block.data.getLength w) ∧ ∀ wire ∈ g'.tunnelDataMsgs, Separated wire

theorem exists_eq_of_mem_followOnFragments {block : TunnelMessageBlock} {w : WireFragment}
    {size fragmentNumber : ℕ} (hw : w ∈ block.followOnFragments size fragmentNumber) :
    ∃ s n, w = block.followOnFragment s n := by
  fun_induction TunnelMessageBlock.followOnFragments block size fragmentNumber with
  | case1 size fragmentNumber hsize ih =>
    rcases List.mem_cons.mp hw with rfl | hw
    · exact ⟨size, fragmentNumber, rfl⟩
    · exact ih hw
  | case2 size fragmentNumber hsize => exact absurd hw List.not_mem_nil

/-- The fragments of a block are in place if its first fragment ends inside the message. -/
theorem inPlace_fragments_iff {block : TunnelMessageBlock}
    (hlen : block.data.getLength ≤ 32767) (size : ℕ) :
    (∀ w ∈ block.fragments size, InPlace block.data.getLength w) ↔
      size < block.data.getLength := by
  have hfirst : InPlace block.data.getLength (block.firstFragment size) ↔
      size < block.data.getLength := by
    simp only [InPlace, TunnelMessageBlock.firstFragment, length_slice]
  rw [TunnelMessageBlock.fragments, List.forall_mem_cons, hfirst]
  refine ⟨And.left, fun h => ⟨h, fun w hw => ?_⟩⟩
  have hfields := (wellFormed_followOnFragments (by simp only [maxMessageSize]; omega) size 1
    (by omega) w hw).fields
  obtain ⟨s, n, rfl⟩ := exists_eq_of_mem_followOnFragments hw
  exact hfields

/-- The fragments that `PutI2NPMsg` writes are in place unless it cuts the block needlessly. -/
theorem inPlace_wireFragments_iff (env : GatewayEnv) {g : TunnelGatewayBuffer}
    {block : TunnelMessageBlock} (hlen : block.data.getLength ≤ 32767)
    (hroom : g.current ≠ none → g.remainingSize ≤ tunnelDataMaxPayloadSize) :
    (∀ w ∈ g.wireFragments env block, InPlace block.data.getLength w) ↔
      ¬ CutNeedlessly g block := by
  rcases firstFragmentSize_cases env g block hroom with ⟨hnone, hcut⟩ | ⟨size, hsome, -, hsize⟩
  · simp only [wireFragments, hnone, List.mem_singleton, forall_eq]
    exact ⟨fun _ hneed => hcut (isCut_of_cutNeedlessly hneed), fun _ => trivial⟩
  · simp only [wireFragments, hsome]
    rw [inPlace_fragments_iff hlen, hsize]

theorem LaidOut.remainingSize_le {g : TunnelGatewayBuffer} (h : LaidOut g)
    (hcur : g.current ≠ none) : g.remainingSize ≤ tunnelDataMaxPayloadSize := by
  obtain ⟨cur, hlaid, -⟩ := h
  cases cur with
  | none => exact absurd hlaid.current_eq hcur
  | some vs => exact Nat.le.intro (hlaid.remainingSize_eq vs rfl)

/-- After any calls, the finished messages are laid out as the endpoint expects, and a block is put
safely if and only if it is not cut although it fits a new message. -/
theorem putsSafely_iff (env : GatewayEnv) (tunnelID : UInt32) (calls : List GatewayCall)
    {block : TunnelMessageBlock} (hlen : block.data.getLength ≤ 32767) :
    ((∀ wire ∈ (Runs.exec (call env) (init tunnelID) calls).tunnelDataMsgs, Separated wire) ∧
        PutsSafely env (Runs.exec (call env) (init tunnelID) calls) block) ↔
      ¬ CutNeedlessly (Runs.exec (call env) (init tunnelID) calls) block := by
  have hlaid := laidOut_exec env tunnelID calls
  set g := Runs.exec (call env) (init tunnelID) calls
  have hiff := inPlace_wireFragments_iff env hlen hlaid.remainingSize_le
  obtain ⟨_, hput, -⟩ := hlaid.putI2NPMsg env block
  obtain ⟨_, hbefore, -⟩ := hlaid
  constructor
  · rintro ⟨-, g', ws, hok, hws, -⟩
    rw [Checked.putI2NPMsg_eq, Except.ok.injEq, Prod.mk.injEq] at hok
    obtain ⟨-, rfl⟩ := hok
    exact hiff.mp hws
  · intro hneed
    exact ⟨hbefore.separated, _, _, Checked.putI2NPMsg_eq env g block, hiff.mpr hneed,
      hput.separated⟩

theorem putsSafely_constantBlock :
    (∀ wire ∈ (Runs.exec (call quietEnv) (init 7)
        [.putI2NPMsg (constantBlock 1 600)]).tunnelDataMsgs, Separated wire) ∧
      PutsSafely quietEnv (Runs.exec (call quietEnv) (init 7) [.putI2NPMsg (constantBlock 1 600)])
        (constantBlock 2 2000) := by
  rw [putsSafely_iff quietEnv 7 _ (by decide)]
  rintro ⟨-, -, hsmall⟩
  exact absurd hsmall (by decide)

/-- A message of 500 bytes behind one of 600 bytes: the first fragment is longer than the
message. -/
theorem not_putsSafely_constantBlock :
    (constantBlock 2 500).data.getLength ≤ 32767 ∧
      ¬ PutsSafely quietEnv
        (Runs.exec (call quietEnv) (init 7) [.putI2NPMsg (constantBlock 1 600)])
        (constantBlock 2 500) := by
  refine ⟨by decide, ?_⟩
  rintro ⟨g', ws, hok, hws, -⟩
  rw [Checked.putI2NPMsg_eq, Except.ok.injEq, Prod.mk.injEq] at hok
  obtain ⟨-, rfl⟩ := hok
  have hlaid := laidOut_exec quietEnv 7 [.putI2NPMsg (constantBlock 1 600)]
  obtain ⟨hrem, hcur⟩ := putI2NPMsg_constantBlock
  have hneed := (inPlace_wireFragments_iff quietEnv (by decide) hlaid.remainingSize_le).mp hws
  apply hneed
  refine ⟨hcur, ?_, by decide⟩
  exact hrem.trans_lt (by decide)

end TunnelGatewayBuffer

end Tunnel
