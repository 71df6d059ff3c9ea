import Xi2p.I2NP

/-!
# Tunnel gateway

`TunnelGatewayBuffer` of `core/router/tunnel/gateway.cc`: I2NP messages with their delivery
instructions are packed into tunnel data messages of `1028` bytes. A message that does not fit the
space left is cut into a first fragment and follow-on fragments.

The buffer of the message under construction is modelled by the payload written so far; the
finished message is laid out by `tunnelDataMsg`. Random bytes come from `GatewayEnv`.
-/

namespace Tunnel

open Bytes I2NP

/-! ## Sizes and delivery instructions -/

/-- `TUNNEL_DATA_MSG_SIZE`: tunnel ID, IV and encrypted part. -/
abbrev tunnelDataMsgSize : ℕ := 1028

/-- `TUNNEL_DATA_ENCRYPTED_SIZE`: checksum, padding, zero byte and payload. -/
abbrev tunnelDataEncryptedSize : ℕ := 1008

/-- `TUNNEL_DATA_MAX_PAYLOAD_SIZE`. -/
abbrev tunnelDataMaxPayloadSize : ℕ := 1003

/-- `TunnelDeliveryType`; `unknown` is the fourth value of the two-bit field on the wire. -/
inductive TunnelDeliveryType
  | deliveryTypeLocal
  | deliveryTypeTunnel
  | deliveryTypeRouter
  | unknown
  deriving DecidableEq

namespace TunnelDeliveryType

/-- The value of the enumerator. -/
def code : TunnelDeliveryType → ℕ
  | deliveryTypeLocal => 0
  | deliveryTypeTunnel => 1
  | deliveryTypeRouter => 2
  | unknown => 3

/-- The conversion from the two-bit field. -/
def ofCode : ℕ → TunnelDeliveryType
  | 0 => deliveryTypeLocal
  | 1 => deliveryTypeTunnel
  | 2 => deliveryTypeRouter
  | _ => unknown

@[simp]
theorem ofCode_code (t : TunnelDeliveryType) : ofCode t.code = t := by
  cases t <;> rfl

/-- `di_len` before the message ID and the size are added. -/
def diLen : TunnelDeliveryType → ℕ
  | deliveryTypeLocal => 1
  | deliveryTypeTunnel => 37
  | _ => 33

theorem diLen_le (t : TunnelDeliveryType) : t.diLen ≤ 37 := by
  cases t <;> decide

theorem diLen_pos (t : TunnelDeliveryType) : 1 ≤ t.diLen := by
  cases t <;> decide

end TunnelDeliveryType

open TunnelDeliveryType

/-- `TunnelMessageBlock`. -/
structure TunnelMessageBlock where
  /-- How the endpoint hands the message on. -/
  deliveryType : TunnelDeliveryType
  /-- The receiving router, or the gateway of the receiving tunnel. -/
  hash : IdentHash
  /-- The receiving tunnel. -/
  tunnelID : UInt32
  /-- The I2NP message. -/
  data : I2NPMessage

/-- The to-tunnel and to-hash fields of the delivery instructions, behind the flag. -/
def destination (t : TunnelDeliveryType) (hash : IdentHash) (tunnelID : UInt32) : List UInt8 :=
  match t with
  | deliveryTypeLocal => []
  | deliveryTypeTunnel => writeU32 tunnelID ++ hash.bytes
  | _ => hash.bytes

/-- `di[0]` of a first fragment: the delivery type, and whether follow-on fragments exist. -/
def firstFlag (t : TunnelDeliveryType) (fragmented : Bool) : UInt8 :=
  UInt8.ofNat (t.code <<< 5) ||| (if fragmented then 0x08 else 0)

/-- `buf[0]` of a follow-on fragment. -/
def followOnFlag (fragmentNumber : ℕ) (isLast : Bool) : UInt8 :=
  UInt8.ofNat (0x80 ||| (fragmentNumber <<< 1)) ||| (if isLast then 0x01 else 0)

namespace TunnelMessageBlock

/-- `msg_ID` as it stands in the I2NP header, in network byte order. -/
def msgIDBytes (block : TunnelMessageBlock) : List UInt8 :=
  slice block.data.buf (block.data.offset + headerMsgIDOffset) 4

/-- `di_len`. -/
def diLen (block : TunnelMessageBlock) : ℕ := block.deliveryType.diLen

/-- `full_msg_len`: delivery instructions, payload and two bytes of length. -/
def fullMsgLen (block : TunnelMessageBlock) : ℕ := block.diLen + block.data.getLength + 2

/-- The delivery instructions up to the destination. -/
def instructions (block : TunnelMessageBlock) (fragmented : Bool) : List UInt8 :=
  firstFlag block.deliveryType fragmented ::
    destination block.deliveryType block.hash block.tunnelID

end TunnelMessageBlock

/-! ## The gateway buffer -/

/-- What the gateway draws from its random generator and its hash function. -/
structure GatewayEnv where
  /-- `SHA256().CalculateDigest`. -/
  sha256 : List UInt8 → List UInt8
  sha256_length : ∀ bs, (sha256 bs).length = 32
  /-- `RandBytes(buf + 4, 16)` for the `i`-th tunnel data message. -/
  randIV : ℕ → List UInt8
  randIV_length : ∀ i, (randIV i).length = 16
  /-- `RandBytes(m_NonZeroRandomBuffer, TUNNEL_DATA_MAX_PAYLOAD_SIZE)`. -/
  randBuffer : List UInt8
  randBuffer_length : randBuffer.length = tunnelDataMaxPayloadSize
  /-- `RandInRange32(0, max)` for the `i`-th tunnel data message. -/
  randOffset : ℕ → ℕ → ℕ
  randOffset_le : ∀ i max, randOffset i max ≤ max

/-- `m_NonZeroRandomBuffer`: the constructor replaces every zero byte. -/
def GatewayEnv.nonZeroRandomBuffer (env : GatewayEnv) : List UInt8 :=
  env.randBuffer.map fun b => if b = 0 then 1 else b

/-- `TunnelGatewayBuffer`. -/
structure TunnelGatewayBuffer where
  /-- `m_TunnelID`. -/
  tunnelID : UInt32
  /-- `m_TunnelDataMsgs`: the payloads of the finished messages. -/
  tunnelDataMsgs : List (List UInt8)
  /-- `m_CurrentTunnelDataMsg`: the bytes written so far. -/
  current : Option (List UInt8)
  /-- `m_RemainingSize`. -/
  remainingSize : ℕ

namespace TunnelGatewayBuffer

/-- The constructor. -/
def init (tunnelID : UInt32) : TunnelGatewayBuffer :=
  { tunnelID, tunnelDataMsgs := [], current := none, remainingSize := 0 }

/-- The layout of the `i`-th tunnel data message with the given payload: tunnel ID, IV, four bytes
of checksum, non-zero padding, a zero byte, payload. -/
def tunnelDataMsg (env : GatewayEnv) (tunnelID : UInt32) (i : ℕ) (payload : List UInt8) :
    List UInt8 :=
  let iv := env.randIV i
  let hash := env.sha256 (payload ++ iv)
  let paddingSize := tunnelDataMsgSize - payload.length - 25
  let randomOffset := env.randOffset i (tunnelDataMaxPayloadSize - paddingSize)
  writeU32 tunnelID ++ iv ++ hash.take 4 ++
    (env.nonZeroRandomBuffer.drop randomOffset).take paddingSize ++ [0] ++ payload

/-- `CreateCurrentTunnelDataMessage`. -/
def createCurrentTunnelDataMessage (g : TunnelGatewayBuffer) : TunnelGatewayBuffer :=
  { g with current := some [], remainingSize := tunnelDataMaxPayloadSize }

/-- `CompleteCurrentTunnelDataMessage`. -/
def completeCurrentTunnelDataMessage (env : GatewayEnv) (g : TunnelGatewayBuffer) :
    TunnelGatewayBuffer :=
  match g.current with
  | none => g
  | some payload =>
    { g with
      tunnelDataMsgs :=
        g.tunnelDataMsgs ++ [tunnelDataMsg env g.tunnelID g.tunnelDataMsgs.length payload]
      current := none }

/-- Write `bs` at the end of the message under construction. -/
def write (g : TunnelGatewayBuffer) (bs : List UInt8) : TunnelGatewayBuffer :=
  { g with current := g.current.map (· ++ bs) }

/-- Take `n` bytes off `m_RemainingSize` and complete the message when nothing is left. -/
def consume (env : GatewayEnv) (g : TunnelGatewayBuffer) (n : ℕ) : TunnelGatewayBuffer :=
  let g := { g with remainingSize := g.remainingSize - n }
  if g.remainingSize = 0 then g.completeCurrentTunnelDataMessage env else g

/-- The first lines of `PutI2NPMsg`: make sure that there is a current message. -/
def ensureCurrent (g : TunnelGatewayBuffer) : TunnelGatewayBuffer :=
  if g.current.isNone then g.createCurrentTunnelDataMessage else g

/-- The whole message fits: first and last fragment. -/
def putWhole (env : GatewayEnv) (g : TunnelGatewayBuffer) (block : TunnelMessageBlock) :
    TunnelGatewayBuffer :=
  let len := block.data.getLength
  (g.write (block.instructions false ++ writeBE 2 len ++ block.data.bytes)).consume env
    (block.diLen + 2 + len)

/-- A previous message is completed when the last fragment would not fit into its free space. -/
def makeRoom (env : GatewayEnv) (g : TunnelGatewayBuffer) (messageCreated : Bool)
    (block : TunnelMessageBlock) : TunnelGatewayBuffer :=
  if messageCreated then g
  else
    let numFollowOnFragments := block.fullMsgLen / tunnelDataMaxPayloadSize
    let nonFit := (block.fullMsgLen + numFollowOnFragments * 7) % tunnelDataMaxPayloadSize
    if nonFit = 0 ∨ g.remainingSize < nonFit then
      (g.completeCurrentTunnelDataMessage env).createCurrentTunnelDataMessage
    else g

/-- `s`: how much of the `rest` of a message the next follow-on fragment takes. -/
def followOnSize (rest : ℕ) : ℕ :=
  if rest > tunnelDataMaxPayloadSize - 7 then tunnelDataMaxPayloadSize - 7 else rest

theorem followOnSize_eq_min (rest : ℕ) : followOnSize rest = min rest 996 := by
  unfold followOnSize tunnelDataMaxPayloadSize
  split <;> omega

theorem followOnSize_pos {rest : ℕ} (h : 0 < rest) : 0 < followOnSize rest := by
  rw [followOnSize_eq_min]
  omega

/-- `is_last_fragment` of the follow-on fragment that takes from `rest` bytes. -/
def isLastFollowOn (rest : ℕ) : Bool := decide (rest ≤ tunnelDataMaxPayloadSize - 7)

theorem isLastFollowOn_iff {rest : ℕ} : isLastFollowOn rest = true ↔ rest ≤ 996 := by
  simp [isLastFollowOn, tunnelDataMaxPayloadSize]

/-- The body of the loop over the follow-on fragments: a new message that carries the next
fragment of the message, of which `size` bytes have been sent. -/
def putFollowOn (env : GatewayEnv) (g : TunnelGatewayBuffer) (block : TunnelMessageBlock)
    (size fragmentNumber : ℕ) : TunnelGatewayBuffer :=
  let rest := block.data.getLength - size
  let s := followOnSize rest
  let g := g.createCurrentTunnelDataMessage.write
    (followOnFlag fragmentNumber (isLastFollowOn rest) :: block.msgIDBytes ++ writeBE 2 s ++
      slice block.data.buf (block.data.offset + size) s)
  if isLastFollowOn rest then g.consume env (s + 7) else g.completeCurrentTunnelDataMessage env

/-- The loop over the follow-on fragments. -/
def putFollowOnFragments (env : GatewayEnv) (g : TunnelGatewayBuffer)
    (block : TunnelMessageBlock) (size fragmentNumber : ℕ) : TunnelGatewayBuffer :=
  if size < block.data.getLength then
    putFollowOnFragments env (g.putFollowOn env block size fragmentNumber) block
      (size + followOnSize (block.data.getLength - size)) (fragmentNumber + 1)
  else g
termination_by block.data.getLength - size
decreasing_by
  rename_i hsize
  have hpos := followOnSize_pos (Nat.sub_pos_of_lt hsize)
  omega

/-- The delivery instructions fit: the first fragment takes the rest of the current message, the
follow-on fragments take new messages. -/
def putFragments (env : GatewayEnv) (g : TunnelGatewayBuffer) (block : TunnelMessageBlock) :
    TunnelGatewayBuffer :=
  let size := g.remainingSize - block.diLen - 6
  let g := g.write (block.instructions true ++ block.msgIDBytes ++ writeBE 2 size ++
    slice block.data.buf block.data.offset size)
  (g.completeCurrentTunnelDataMessage env).putFollowOnFragments env block size 1

@[simp]
theorem current_completeCurrentTunnelDataMessage (env : GatewayEnv) (g : TunnelGatewayBuffer) :
    (g.completeCurrentTunnelDataMessage env).current = none := by
  unfold completeCurrentTunnelDataMessage
  split
  · assumption
  · rfl

/-- A new message always has room for the delivery instructions. -/
theorem instructions_fit_of_current_eq_none {env : GatewayEnv} {g : TunnelGatewayBuffer}
    (block : TunnelMessageBlock) (h : g.current = none) :
    block.diLen + 6 ≤ (g.ensureCurrent.makeRoom env g.current.isNone block).remainingSize := by
  have hle := block.deliveryType.diLen_le
  simp only [ensureCurrent, h, makeRoom, Option.isNone_none, if_true,
    createCurrentTunnelDataMessage, TunnelMessageBlock.diLen, tunnelDataMaxPayloadSize]
  omega

/-- `PutI2NPMsg`. -/
def putI2NPMsg (env : GatewayEnv) (g : TunnelGatewayBuffer) (block : TunnelMessageBlock) :
    TunnelGatewayBuffer :=
  if block.fullMsgLen ≤ g.ensureCurrent.remainingSize then
    g.ensureCurrent.putWhole env block
  else
    let g' := g.ensureCurrent.makeRoom env g.current.isNone block
    if block.diLen + 6 ≤ g'.remainingSize then
      g'.putFragments env block
    else
      -- delivery instructions don't fit: start over with a new message
      putI2NPMsg env (g'.completeCurrentTunnelDataMessage env) block
termination_by if g.current.isSome then 1 else 0
decreasing_by
  rename_i hroom
  have hsome : g.current.isSome := by
    by_contra hnone
    rw [Option.not_isSome_iff_eq_none] at hnone
    exact hroom (instructions_fit_of_current_eq_none block hnone)
  simp [hsome]

/-- Feed a list of blocks to the buffer. -/
def putAll (env : GatewayEnv) (g : TunnelGatewayBuffer) (blocks : List TunnelMessageBlock) :
    TunnelGatewayBuffer :=
  blocks.foldl (putI2NPMsg env) g

/-- The tunnel data messages of a list of blocks, after the last one has been completed. -/
def tunnelDataMsgsOf (env : GatewayEnv) (tunnelID : UInt32) (blocks : List TunnelMessageBlock) :
    List (List UInt8) :=
  (((init tunnelID).putAll env blocks).completeCurrentTunnelDataMessage env).tunnelDataMsgs

end TunnelGatewayBuffer

end Tunnel
