import Xi2p.Garlic.RoundTrip

/-!
# Containment of garlic messages

The lengths in a garlic message are nested: that of the encrypted bytes, the number of tags, the size of
the payload, and the sizes in the headers of the cloves. `HandleGarlicMessage`, `HandleAESBlock` and
`HandleGarlicPayload` compare each with a remainder of its own.

* `val_handleCloves_steps`, `val_handleAESBlock_course`: what is checked, dispatched and added is what the
  functions in question check, dispatch and add.
* `GarlicDestination.contained_iff`: the messages that are handled inside of their bounds.
-/

namespace Garlic

open Bytes I2NP Traced

/-! ## Cloves -/

/-- What happens to a clove, in the order in which it happens. -/
inductive CloveStep
  /-- `check_clove_len` finds that so many bytes end inside of the payload. -/
  | checked (length : ℕ)
  | dispatched (dispatch : Dispatch)

/-- What the loop does with the clove whose message stands at `buf`. -/
structure CloveLog where
  buf : ℕ
  steps : List CloveStep

/-- The dispatches among the steps. -/
def CloveLog.dispatches (log : CloveLog) : List Dispatch :=
  log.steps.filterMap fun
    | .checked _ => none
    | .dispatched dispatch => some dispatch

section Cloves

variable (m : Mem) (buf1 len : ℕ) (hasTunnel : Bool)

/-- Where the delivery instructions go on behind the flag, and behind the session key of an encrypted
clove. -/
def deliveryPos (pos : ℕ) : ℕ := if m pos &&& 0x80 ≠ 0 then pos + 1 + 32 else pos + 1

/-- Where the message of the clove at `pos` stands. -/
def messagePos (pos : ℕ) : ℕ :=
  match GarlicDeliveryType.ofFlag (m pos) with
  | .locally => deliveryPos m pos
  | .destination | .router => deliveryPos m pos + 32
  | .tunnel => deliveryPos m pos + 32 + 4

/-- The full length of a clove from its message on, with the ID, the date and the certificate. -/
def cloveLength (buf : ℕ) : ℕ := readBE (slice m (buf + headerSizeOffset) 2) + headerSize + 15

/-- The check compares 16 bits of the full length. -/
def passesCheck (buf : ℕ) : Prop := buf + cloveLength m buf % 65536 ≤ buf1 + len

instance (buf : ℕ) : Decidable (passesCheck m buf1 len buf) := Nat.decLe _ _

/-- The check behind the dispatch. -/
def checkSteps (buf : ℕ) : List CloveStep :=
  if passesCheck m buf1 len buf then [.checked (cloveLength m buf % 65536)] else []

/-- The steps of the loop for the clove at `pos`. -/
def cloveSteps (pos : ℕ) : List CloveStep :=
  let buf := messagePos m pos
  match GarlicDeliveryType.ofFlag (m pos) with
  | .locally =>
    .dispatched (.handleI2NPMessage .locally (messageAt m buf).val) :: checkSteps m buf1 len buf
  | .destination =>
    .dispatched (.handleI2NPMessage .destination (messageAt m buf).val) ::
      checkSteps m buf1 len buf
  | .tunnel =>
    if hasTunnel ∧ passesCheck m buf1 len buf then
      [.checked (cloveLength m buf % 65536),
        .dispatched (.sendTunnelDataMsg (IdentHash.ofMem m (deliveryPos m pos))
          (readU32 (slice m (deliveryPos m pos + 32) 4))
          (createI2NPMessage m buf ((getI2NPMessageLength m buf).val % 65536)).val),
        .checked (cloveLength m buf % 65536)]
    else checkSteps m buf1 len buf
  | .router => checkSteps m buf1 len buf

/-- The steps of the loop from `pos` on. It ends at a clove that does not pass the check. -/
def cloveLogs : ℕ → ℕ → List CloveLog
  | 0, _ => []
  | n + 1, pos =>
    ⟨messagePos m pos, cloveSteps m buf1 len hasTunnel pos⟩ ::
      if passesCheck m buf1 len (messagePos m pos) then
        cloveLogs n (messagePos m pos + cloveLength m (messagePos m pos) % 65536)
      else []

/-- The loop from `pos` on comes to a clove that does not pass the check, and an exception is thrown. -/
def cloveFails : ℕ → ℕ → Bool
  | 0, _ => false
  | n + 1, pos =>
    !decide (passesCheck m buf1 len (messagePos m pos)) ||
      cloveFails n (messagePos m pos + cloveLength m (messagePos m pos) % 65536)

/-- A clove is dispatched only after its full length was checked. -/
def CloveLog.ChecksFirst (log : CloveLog) : Prop :=
  ∀ before dispatch after, log.steps = before ++ .dispatched dispatch :: after →
    ∃ length, .checked length ∈ before ∧ cloveLength m log.buf ≤ length

/-- The cloves that are not dispatched unless they were checked, inside of `actual` bytes. -/
def ClovesFit (actual : ℕ) : ℕ → ℕ → Prop
  | 0, _ => True
  | n + 1, pos =>
    pos < actual ∧ GarlicDeliveryType.ofFlag (m pos) ≠ .locally ∧
      GarlicDeliveryType.ofFlag (m pos) ≠ .destination ∧
      messagePos m pos + headerSizeOffset + 2 ≤ actual ∧
      (passesCheck m buf1 len (messagePos m pos) →
        -- the length of a clove that is sent through a tunnel has 16 bits
        (GarlicDeliveryType.ofFlag (m pos) = .tunnel → hasTunnel →
          cloveLength m (messagePos m pos) < 65536) ∧
        ClovesFit actual n (messagePos m pos + cloveLength m (messagePos m pos) % 65536))

variable {m buf1 len hasTunnel}

theorem le_messagePos (pos : ℕ) : pos < messagePos m pos := by
  unfold messagePos deliveryPos
  split <;> split <;> omega

/-- What the check gives. -/
theorem val_checkCloveLen_eq (buf : ℕ) :
    (checkCloveLen m buf1 len buf).val =
      if passesCheck m buf1 len buf then
        some ((getI2NPMessageLength m buf).val % 65536, cloveLength m buf % 65536)
      else none := by
  have hoffset : ((readBE (slice m (buf + headerSizeOffset) 2) + headerSize) % 65536 + 4 + 8 + 3) %
      65536 = cloveLength m buf % 65536 := by
    unfold cloveLength
    omega
  show (if len < buf + ((readBE (slice m (buf + headerSizeOffset) 2) + headerSize) % 65536 + 4 + 8 +
    3) % 65536 - buf1 then none else some _) = _
  rw [hoffset]
  by_cases hpasses : passesCheck m buf1 len buf
  · have hle : buf + cloveLength m buf % 65536 ≤ buf1 + len := hpasses
    rw [if_neg (by omega), if_pos hpasses, ← hoffset]
    rfl
  · have hlt : ¬buf + cloveLength m buf % 65536 ≤ buf1 + len := hpasses
    rw [if_pos (by omega), if_neg hpasses]

theorem within_checkCloveLen_iff {buf actual : ℕ} :
    (checkCloveLen m buf1 len buf).Within 0 actual ↔ buf + headerSizeOffset + 2 ≤ actual := by
  simp [checkCloveLen, getI2NPMessageLength, within_bind_iff, within_read_iff]

/-- The loop looks at the flag, dispatches and checks. -/
theorem handleCloves_succ (n pos : ℕ) :
    handleCloves m buf1 len hasTunnel (n + 1) pos =
      (readByte m pos >>= fun _ =>
        dispatchClove m buf1 len hasTunnel (.ofFlag (m pos)) (deliveryPos m pos) >>= fun
          | (_, none) => pure ([], true)
          | (buf, some dispatched) => checkCloveLen m buf1 len buf >>= fun
            | none => pure (dispatched, true)
            | some (_, offset) => handleCloves m buf1 len hasTunnel n (buf + offset) >>= fun others =>
              pure (dispatched ++ others.1, others.2)) := rfl

/-- What the dispatch of the clove at `pos` leaves behind. -/
theorem val_dispatchClove_steps (pos : ℕ) :
    (dispatchClove m buf1 len hasTunnel (.ofFlag (m pos)) (deliveryPos m pos)).val =
      (messagePos m pos,
        if GarlicDeliveryType.ofFlag (m pos) = .tunnel ∧ hasTunnel ∧
          ¬passesCheck m buf1 len (messagePos m pos) then none
        else some (CloveLog.dispatches
          ⟨messagePos m pos, cloveSteps m buf1 len hasTunnel pos⟩)) := by
  have hchecks : ∀ buf, (checkSteps m buf1 len buf).filterMap (fun
      | .checked _ => none
      | .dispatched dispatch => some dispatch) = ([] : List Dispatch) := fun buf => by
    unfold checkSteps
    split <;> rfl
  unfold CloveLog.dispatches cloveSteps
  cases htype : GarlicDeliveryType.ofFlag (m pos) with
  | locally =>
    simp [dispatchClove, messagePos, htype, hchecks]
  | destination =>
    simp [dispatchClove, messagePos, htype, hchecks]
  | router =>
    simp [dispatchClove, messagePos, htype, hchecks]
  | tunnel =>
    have hmessagePos : messagePos m pos = deliveryPos m pos + 36 := by simp [messagePos, htype]
    cases hasTunnel with
    | false => simp [dispatchClove, hmessagePos, hchecks]
    | true =>
      by_cases hpasses : passesCheck m buf1 len (deliveryPos m pos + 36)
      · simp [dispatchClove, hmessagePos, val_checkCloveLen_eq, hpasses]
      · simp [dispatchClove, hmessagePos, val_checkCloveLen_eq, hpasses]

/-- The loop dispatches what its steps say. -/
theorem val_handleCloves_steps (n pos : ℕ) :
    (handleCloves m buf1 len hasTunnel n pos).val =
      ((cloveLogs m buf1 len hasTunnel n pos).flatMap CloveLog.dispatches,
        cloveFails m buf1 len n pos) := by
  induction n generalizing pos with
  | zero => rfl
  | succ n ih =>
    rw [handleCloves_succ, val_bind, val_bind, val_dispatchClove_steps, cloveLogs, List.flatMap_cons,
      cloveFails]
    by_cases hpasses : passesCheck m buf1 len (messagePos m pos)
    · simp only [hpasses, not_true_eq_false, and_false, if_false, if_true, val_bind,
        val_checkCloveLen_eq, val_pure, decide_true, Bool.not_true, Bool.false_or]
      rw [ih]
    · simp only [hpasses, not_false_eq_true, and_true, if_false, List.flatMap_nil, List.append_nil,
        decide_false, Bool.not_false, Bool.true_or]
      by_cases hdropped : GarlicDeliveryType.ofFlag (m pos) = .tunnel ∧ hasTunnel
      · -- a clove for a tunnel that does not pass the check is not dispatched
        simp [hdropped, CloveLog.dispatches, cloveSteps, checkSteps, hpasses]
      · simp only [hdropped, if_false, val_bind, val_checkCloveLen_eq, hpasses, val_pure]

theorem not_checksFirst_cons (buf : ℕ) (dispatch : Dispatch) (steps : List CloveStep) :
    ¬CloveLog.ChecksFirst m ⟨buf, .dispatched dispatch :: steps⟩ := fun h => by
  obtain ⟨length, hmem, -⟩ := h [] dispatch steps rfl
  cases hmem

theorem checksFirst_checkSteps (buf : ℕ) :
    CloveLog.ChecksFirst m ⟨buf, checkSteps m buf1 len buf⟩ := by
  rintro before dispatch after (hsteps : checkSteps m buf1 len buf = _)
  have hmem : CloveStep.dispatched dispatch ∈ checkSteps m buf1 len buf := by
    rw [hsteps]
    exact List.mem_append_right _ List.mem_cons_self
  unfold checkSteps at hmem
  split at hmem
  next => simp at hmem
  next => cases hmem

/-- The check in front of a dispatch is one of the full length if this has 16 bits. -/
theorem checksFirst_sendTunnelDataMsg_iff (buf : ℕ) (dispatch : Dispatch) :
    CloveLog.ChecksFirst m ⟨buf, [.checked (cloveLength m buf % 65536), .dispatched dispatch,
      .checked (cloveLength m buf % 65536)]⟩ ↔ cloveLength m buf < 65536 := by
  constructor
  · intro h
    obtain ⟨length, hmem, hle⟩ := h [.checked _] dispatch [.checked _] rfl
    have heq : length = cloveLength m buf % 65536 := by simpa using hmem
    rw [heq] at hle
    exact hle.trans_lt (Nat.mod_lt _ (by decide))
  · rintro hlt before dispatch' after hsteps
    cases before with
    | nil => cases hsteps
    | cons step before =>
      refine ⟨cloveLength m buf % 65536, ?_, (Nat.mod_eq_of_lt hlt).ge⟩
      obtain ⟨rfl, -⟩ := List.cons.inj hsteps
      exact List.mem_cons_self

theorem checksFirst_cloveSteps_iff (pos : ℕ) :
    CloveLog.ChecksFirst m ⟨messagePos m pos, cloveSteps m buf1 len hasTunnel pos⟩ ↔
      GarlicDeliveryType.ofFlag (m pos) ≠ .locally ∧
        GarlicDeliveryType.ofFlag (m pos) ≠ .destination ∧
        (passesCheck m buf1 len (messagePos m pos) →
          GarlicDeliveryType.ofFlag (m pos) = .tunnel → hasTunnel →
            cloveLength m (messagePos m pos) < 65536) := by
  unfold cloveSteps
  cases GarlicDeliveryType.ofFlag (m pos) with
  | locally => simpa using not_checksFirst_cons _ _ _
  | destination => simpa using not_checksFirst_cons _ _ _
  | router => simpa using checksFirst_checkSteps _
  | tunnel =>
    by_cases hsent : hasTunnel ∧ passesCheck m buf1 len (messagePos m pos)
    · simpa [hsent] using checksFirst_sendTunnelDataMsg_iff _ _
    · simp only [hsent, if_false, ne_eq, reduceCtorEq, not_false_eq_true, true_and, true_implies]
      exact iff_of_true (checksFirst_checkSteps _) fun hpasses htunnel =>
        absurd ⟨htunnel, hpasses⟩ hsent

/-- A clove that is not handed over by address is dispatched inside of the bounds if it passes a check of
its full length. -/
theorem within_dispatchClove {pos actual : ℕ} (hend : buf1 + len ≤ actual)
    (hchecks : CloveLog.ChecksFirst m ⟨messagePos m pos, cloveSteps m buf1 len hasTunnel pos⟩)
    (hheader : messagePos m pos + headerSizeOffset + 2 ≤ actual) :
    (dispatchClove m buf1 len hasTunnel (.ofFlag (m pos)) (deliveryPos m pos)).Within 0 actual := by
  obtain ⟨hlocally, hdestination, hlength⟩ := checksFirst_cloveSteps_iff pos |>.mp hchecks
  cases htype : GarlicDeliveryType.ofFlag (m pos) with
  | locally => exact absurd htype hlocally
  | destination => exact absurd htype hdestination
  | router => exact within_pure _ _ _
  | tunnel =>
    have hmessagePos : messagePos m pos = deliveryPos m pos + 36 := by simp [messagePos, htype]
    rw [hmessagePos] at hheader hlength
    simp only [headerSizeOffset] at hheader
    unfold dispatchClove
    simp only [within_bind_iff, within_touch_iff, within_read_iff]
    refine ⟨by omega, by omega, ?_⟩
    cases hasTunnel with
    | false => exact within_pure _ _ _
    | true =>
      simp only [if_true, within_bind_iff, within_checkCloveLen_iff, val_checkCloveLen_eq]
      refine ⟨by simpa only [headerSizeOffset], ?_⟩
      by_cases hpasses : passesCheck m buf1 len (deliveryPos m pos + 36)
      · have hlt := hlength hpasses htype rfl
        have hle : deliveryPos m pos + 36 + cloveLength m (deliveryPos m pos + 36) % 65536 ≤
          buf1 + len := hpasses
        have hmsgLen : (getI2NPMessageLength m (deliveryPos m pos + 36)).val + 15 =
          cloveLength m (deliveryPos m pos + 36) := rfl
        simp only [hpasses, if_true, within_bind_iff, within_pure_iff, and_true, createI2NPMessage]
        split
        · rw [within_read_iff]
          omega
        · exact within_pure _ _ _
      · simp only [hpasses, if_false]
        exact within_pure _ _ _

/-- The size of a clove that is sent through a tunnel is read before it is sent. -/
theorem header_le_of_within {pos actual : ℕ} (htype : GarlicDeliveryType.ofFlag (m pos) = .tunnel)
    (h : (dispatchClove m buf1 len true (.ofFlag (m pos)) (deliveryPos m pos)).Within 0 actual) :
    messagePos m pos + headerSizeOffset + 2 ≤ actual := by
  have hmessagePos : messagePos m pos = deliveryPos m pos + 36 := by simp [messagePos, htype]
  rw [htype] at h
  unfold dispatchClove at h
  simp only [if_true, within_bind_iff, within_checkCloveLen_iff] at h
  rw [hmessagePos]
  exact h.2.2.1

/-- One clove that is checked before it is dispatched. -/
theorem within_handleCloves_succ_iff {actual : ℕ} (hend : buf1 + len ≤ actual) (n : ℕ) {pos : ℕ}
    (hchecks : CloveLog.ChecksFirst m ⟨messagePos m pos, cloveSteps m buf1 len hasTunnel pos⟩) :
    (handleCloves m buf1 len hasTunnel (n + 1) pos).Within 0 actual ↔
      pos < actual ∧ messagePos m pos + headerSizeOffset + 2 ≤ actual ∧
        (passesCheck m buf1 len (messagePos m pos) → (handleCloves m buf1 len hasTunnel n
          (messagePos m pos + cloveLength m (messagePos m pos) % 65536)).Within 0 actual) := by
  rw [handleCloves_succ]
  simp only [within_bind_iff, within_readByte_iff, val_dispatchClove_steps]
  refine and_congr_right fun _ => ?_
  by_cases hpasses : passesCheck m buf1 len (messagePos m pos)
  · simp only [hpasses, not_true_eq_false, and_false, if_false, if_true, within_bind_iff,
      within_checkCloveLen_iff, val_checkCloveLen_eq, within_pure_iff, and_true, true_implies]
    exact ⟨fun h => h.2, fun h => ⟨within_dispatchClove hend hchecks h.1, h⟩⟩
  simp only [hpasses, not_false_eq_true, and_true, false_implies]
  by_cases hdropped : GarlicDeliveryType.ofFlag (m pos) = .tunnel ∧ hasTunnel
  · obtain ⟨htype, rfl⟩ := hdropped
    simp only [htype, if_true, within_pure_iff, and_true]
    rw [← htype]
    exact ⟨header_le_of_within htype, within_dispatchClove hend hchecks⟩
  · simp only [hdropped, if_false, within_bind_iff, within_checkCloveLen_iff,
      val_checkCloveLen_eq, hpasses, within_pure_iff, and_true]
    exact ⟨fun h => h.2, fun h => ⟨within_dispatchClove hend hchecks h, h⟩⟩

/-- The cloves that are read inside of the bounds and checked before they are dispatched. -/
theorem within_handleCloves_iff {actual : ℕ} (hend : buf1 + len ≤ actual) (n pos : ℕ) :
    (handleCloves m buf1 len hasTunnel n pos).Within 0 actual ∧
      (∀ log ∈ cloveLogs m buf1 len hasTunnel n pos, log.ChecksFirst m) ↔
        ClovesFit m buf1 len hasTunnel actual n pos := by
  induction n generalizing pos with
  | zero => simp [handleCloves, cloveLogs, ClovesFit]
  | succ n ih =>
    have ih := ih (messagePos m pos + cloveLength m (messagePos m pos) % 65536)
    rw [cloveLogs, List.forall_mem_cons, ClovesFit, ← ih]
    constructor
    · rintro ⟨hwithin, hchecks, hothers⟩
      obtain ⟨hpos, hheader, hrest⟩ := (within_handleCloves_succ_iff hend n hchecks).mp hwithin
      obtain ⟨hlocally, hdestination, hlength⟩ := (checksFirst_cloveSteps_iff pos).mp hchecks
      refine ⟨hpos, hlocally, hdestination, hheader, fun hpasses => ?_⟩
      rw [if_pos hpasses] at hothers
      exact ⟨hlength hpasses, hrest hpasses, hothers⟩
    · rintro ⟨hpos, hlocally, hdestination, hheader, hrest⟩
      have hchecks := (checksFirst_cloveSteps_iff pos).mpr
        ⟨hlocally, hdestination, fun hpasses => (hrest hpasses).1⟩
      refine ⟨(within_handleCloves_succ_iff hend n hchecks).mpr
        ⟨hpos, hheader, fun hpasses => (hrest hpasses).2.1⟩, hchecks, ?_⟩
      split
      next hpasses => exact (hrest hpasses).2.2
      next => exact fun _ h => by cases h

end Cloves

/-! ## Messages -/

/-- What a garlic message is taken through. -/
structure Course where
  /-- The operands of the differences of lengths that are formed. -/
  differences : List (ℕ × ℕ) := []
  /-- The tags that are added. -/
  newTags : List Tag := []
  /-- What is handed to `HandleGarlicPayload`: a memory, the position and the size. -/
  payload : Option (Mem × ℕ × ℕ) := none

namespace Course

variable (hasTunnel : Bool) (course : Course)

/-- What is done with the cloves. -/
def dispatched : List Dispatch :=
  match course.payload with
  | none => []
  | some (m, buf, size) =>
    (cloveLogs m buf size hasTunnel (m buf).toNat (buf + 1)).flatMap CloveLog.dispatches

/-- The payload has a clove that does not pass the check. -/
def fails : Bool :=
  match course.payload with
  | none => false
  | some (m, buf, size) => cloveFails m buf size (m buf).toNat (buf + 1)

/-- Every difference is one of a length and a part of it. -/
def Subtracts : Prop := ∀ d ∈ course.differences, d.2 ≤ d.1

/-- Every clove is dispatched only after its full length was checked. -/
def ChecksFirst : Prop :=
  ∀ m buf size, course.payload = some (m, buf, size) →
    ∀ log ∈ cloveLogs m buf size hasTunnel (m buf).toNat (buf + 1), log.ChecksFirst m

/-- One more difference is formed in front of the others. -/
def subtracting (len part : ℕ) (course : Course) : Course :=
  { course with differences := (len, part) :: course.differences }

theorem subtracts_subtracting {len part : ℕ} :
    (subtracting len part course).Subtracts ↔ part ≤ len ∧ course.Subtracts := by
  simp [Subtracts, subtracting]

theorem checksFirst_subtracting {len part : ℕ} :
    (subtracting len part course).ChecksFirst hasTunnel ↔ course.ChecksFirst hasTunnel := Iff.rfl

theorem subtracts_mk (newTags : List Tag) (payload : Option (Mem × ℕ × ℕ)) :
    Subtracts { newTags, payload } := fun _ h => by cases h

theorem checksFirst_mk (newTags : List Tag) : ChecksFirst hasTunnel { newTags } :=
  fun _ _ _ h => by cases h

end Course

/-- The bytes that `x` reads are those of a message of `actual` bytes, every difference is one of a
length and a part of it, and every clove is dispatched only after its full length was checked. -/
def Contained {α : Type} (x : Traced α) (course : Course) (hasTunnel : Bool) (actual : ℕ) : Prop :=
  x.Within 0 actual ∧ course.Subtracts ∧ course.ChecksFirst hasTunnel

namespace GarlicDestination

variable (crypto : Crypto) (now : ℕ) (hasTunnel : Bool) (destination : GarlicDestination)

/-- Where a block of tags goes on behind them. -/
def payloadSizePos (m : Mem) (buf : ℕ) : ℕ := buf + 2 + readBE (slice m buf 2) * 32

/-- Where the payload stands, behind the flag and the session key that it announces. -/
def payloadPos (m : Mem) (pos : ℕ) : ℕ := (if m (pos + 36) ≠ 0 then pos + 36 + 32 else pos + 36) + 1

/-- The tags of a block. -/
def newTags (m : Mem) (buf : ℕ) : List Tag :=
  (List.range (readBE (slice m buf 2))).map fun i => IdentHash.ofMem m (buf + 2 + i * 32)

/-- The tags are added, with the key of the decryption. -/
def withTags (key : Tag) (newTags : List Tag) : GarlicDestination :=
  { destination with tags := newTags.foldl (addTag now key) destination.tags }

/-- What follows the size of the payload, at `pos`, in a block. -/
def handleHashed (m : Mem) (pos payloadSize : ℕ) : Traced Handled := do
  let payloadHash ← Traced.read m (pos + 4) 32
  let _flag ← readByte m (pos + 36)
  let payload ← Traced.read m (payloadPos m pos) payloadSize
  if (crypto.sha256 payload).bytes = payloadHash then
    let (dispatched, threw) ← handleGarlicPayload m (payloadPos m pos) payloadSize hasTunnel
    return { destination, dispatched, threw }
  else return { destination }

/-- A block, with the lengths that are left behind the number of tags and behind the tags. -/
def handleBlock (key : Tag) (m : Mem) (buf left left' : ℕ) : Traced Handled := do
  let _tagCount ← Traced.read m buf 2
  if 0 < readBE (slice m buf 2) ∧ left < readBE (slice m buf 2) * 32 then return { destination }
  else
    touch (buf + 2) (readBE (slice m buf 2) * 32)
    let _payloadSize ← Traced.read m (payloadSizePos m buf) 4
    if left' < readBE (slice m (payloadSizePos m buf) 4) then
      return { destination := destination.withTags now key (newTags m buf) }
    else
      (destination.withTags now key (newTags m buf)).handleHashed crypto hasTunnel m
        (payloadSizePos m buf) (readBE (slice m (payloadSizePos m buf) 4))

theorem handleAESBlock_eq (key : Tag) (m : Mem) (buf len : ℕ) :
    destination.handleAESBlock crypto now hasTunnel key m buf len =
      destination.handleBlock crypto now hasTunnel key m buf (subSize len 2)
        (subSize (subSize len 2) (readBE (slice m buf 2) * 32)) := rfl

/-- What a block is taken through behind the size of the payload, at `pos`. -/
def hashedCourse (newTags : List Tag) (m : Mem) (pos payloadSize : ℕ) : Course :=
  { newTags
    payload :=
      if (crypto.sha256 (slice m (payloadPos m pos) payloadSize)).bytes = slice m (pos + 4) 32 then
        some (m, payloadPos m pos, payloadSize)
      else none }

/-- What a block is taken through behind the number of tags. -/
def courseBehind (m : Mem) (buf left left' : ℕ) : Course :=
  if 0 < readBE (slice m buf 2) ∧ left < readBE (slice m buf 2) * 32 then {}
  else .subtracting left (readBE (slice m buf 2) * 32) <|
    if left' < readBE (slice m (payloadSizePos m buf) 4) then { newTags := newTags m buf }
    else hashedCourse crypto (newTags m buf) m (payloadSizePos m buf)
      (readBE (slice m (payloadSizePos m buf) 4))

/-- What `HandleAESBlock` takes a block through. -/
def blockCourse (m : Mem) (buf len : ℕ) : Course :=
  .subtracting len 2 <| courseBehind crypto m buf (subSize len 2)
    (subSize (subSize len 2) (readBE (slice m buf 2) * 32))

variable {crypto now hasTunnel destination}

/-- What is left behind when a block is taken through a course. -/
def outcome (now : ℕ) (hasTunnel : Bool) (destination : GarlicDestination) (key : Tag)
    (course : Course) : Handled where
  destination := destination.withTags now key course.newTags
  dispatched := course.dispatched hasTunnel
  threw := course.fails

theorem val_handleHashed_course (key : Tag) (newTags : List Tag) (m : Mem) (pos payloadSize : ℕ) :
    ((destination.withTags now key newTags).handleHashed crypto hasTunnel m pos payloadSize).val =
      destination.outcome now hasTunnel key (hashedCourse crypto newTags m pos payloadSize) := by
  unfold handleHashed hashedCourse
  simp only [val_bind, val_read]
  by_cases hhash : (crypto.sha256 (slice m (payloadPos m pos) payloadSize)).bytes =
    slice m (pos + 4) 32
  · simp only [hhash, if_true, val_bind, val_pure]
    have hcloves : (handleGarlicPayload m (payloadPos m pos) payloadSize hasTunnel).val = _ :=
      val_handleCloves_steps _ _
    rw [hcloves]
    rfl
  · simp only [hhash, if_false, val_pure]
    rfl

theorem val_handleBlock_course (key : Tag) (m : Mem) (buf left left' : ℕ) :
    (destination.handleBlock crypto now hasTunnel key m buf left left').val =
      destination.outcome now hasTunnel key (courseBehind crypto m buf left left') := by
  unfold handleBlock courseBehind
  simp only [val_bind]
  by_cases htags : 0 < readBE (slice m buf 2) ∧ left < readBE (slice m buf 2) * 32
  · simp only [if_pos htags]
    rfl
  simp only [if_neg htags, val_bind]
  by_cases hsize : left' < readBE (slice m (payloadSizePos m buf) 4)
  · simp only [if_pos hsize]
    rfl
  · simp only [if_neg hsize, val_handleHashed_course]
    rfl

/-- `HandleAESBlock` adds the tags of its course, and dispatches and throws as the cloves of its course
say. -/
theorem val_handleAESBlock_course (key : Tag) (m : Mem) (buf len : ℕ) :
    (destination.handleAESBlock crypto now hasTunnel key m buf len).val =
      destination.outcome now hasTunnel key (blockCourse crypto m buf len) := by
  rw [handleAESBlock_eq, val_handleBlock_course]
  rfl

/-- What follows the size of the payload, inside of `actual` bytes. The hash and the flag do not count in
the length that the size is compared with. -/
def HashedFits (crypto : Crypto) (hasTunnel : Bool) (m : Mem) (pos payloadSize actual : ℕ) : Prop :=
  pos + 37 ≤ actual ∧ (payloadSize = 0 ∨ payloadPos m pos + payloadSize ≤ actual) ∧
    ((crypto.sha256 (slice m (payloadPos m pos) payloadSize)).bytes = slice m (pos + 4) 32 →
      payloadPos m pos < actual ∧
        ClovesFit m (payloadPos m pos) payloadSize hasTunnel actual (m (payloadPos m pos)).toNat
          (payloadPos m pos + 1))

/-- A block behind the number of tags, inside of `actual` bytes. -/
def BehindFits (crypto : Crypto) (hasTunnel : Bool) (m : Mem) (buf left actual : ℕ) : Prop :=
  readBE (slice m buf 2) * 32 ≤ left → payloadSizePos m buf + 4 ≤ actual ∧
    (readBE (slice m (payloadSizePos m buf) 4) ≤ left - readBE (slice m buf 2) * 32 →
      HashedFits crypto hasTunnel m (payloadSizePos m buf)
        (readBE (slice m (payloadSizePos m buf) 4)) actual)

/-- A block inside of `actual` bytes. -/
def BlockFits (crypto : Crypto) (hasTunnel : Bool) (m : Mem) (buf len actual : ℕ) : Prop :=
  2 ≤ len ∧ buf + 2 ≤ actual ∧ BehindFits crypto hasTunnel m buf (len - 2) actual

theorem contained_handleHashed_iff (newTags : List Tag) {m : Mem} {pos payloadSize actual : ℕ} :
    Contained (destination.handleHashed crypto hasTunnel m pos payloadSize)
      (hashedCourse crypto newTags m pos payloadSize) hasTunnel actual ↔
      HashedFits crypto hasTunnel m pos payloadSize actual := by
  unfold Contained handleHashed HashedFits hashedCourse
  simp only [within_bind_iff, within_read_iff, within_readByte_iff, val_read, Course.subtracts_mk,
    true_and]
  by_cases hhash : (crypto.sha256 (slice m (payloadPos m pos) payloadSize)).bytes =
    slice m (pos + 4) 32
  · simp only [hhash, if_true, handleGarlicPayload, within_bind_iff, within_readByte_iff,
      val_readByte, within_pure_iff, and_true, true_implies]
    have hcourse : Course.ChecksFirst hasTunnel
        { newTags, payload := some (m, payloadPos m pos, payloadSize) } ↔
        ∀ log ∈ cloveLogs m (payloadPos m pos) payloadSize hasTunnel
          (m (payloadPos m pos)).toNat (payloadPos m pos + 1), log.ChecksFirst m := by
      refine ⟨fun h => h _ _ _ rfl, fun h m' buf size hpayload => ?_⟩
      cases hpayload
      exact h
    rw [hcourse]
    constructor
    · rintro ⟨⟨hread, hflag, hsize, hpos, hcloves⟩, hchecks⟩
      refine ⟨by omega, hsize, hpos, (within_handleCloves_iff (by omega) _ _).mp ⟨hcloves, hchecks⟩⟩
    · rintro ⟨hread, hsize, hpos, hcloves⟩
      obtain ⟨hcloves, hchecks⟩ := (within_handleCloves_iff (by omega) _ _).mpr hcloves
      exact ⟨⟨by omega, by omega, hsize, hpos, hcloves⟩, hchecks⟩
  · simp only [hhash, if_false, within_pure_iff, and_true, false_implies, Course.checksFirst_mk]
    omega

theorem contained_handleBlock_iff (key : Tag) {m : Mem} {buf left left' actual : ℕ}
    (hleft : readBE (slice m buf 2) * 32 ≤ left → left' = left - readBE (slice m buf 2) * 32) :
    Contained (destination.handleBlock crypto now hasTunnel key m buf left left')
      (courseBehind crypto m buf left left') hasTunnel actual ↔
      buf + 2 ≤ actual ∧ BehindFits crypto hasTunnel m buf left actual := by
  unfold Contained handleBlock courseBehind BehindFits
  simp only [within_bind_iff, within_read_iff, OfNat.ofNat_ne_zero, false_or, and_assoc]
  refine and_congr_right fun hcount => ?_
  by_cases htags : 0 < readBE (slice m buf 2) ∧ left < readBE (slice m buf 2) * 32
  · have hnot : ¬readBE (slice m buf 2) * 32 ≤ left := Nat.not_le.mpr htags.2
    simp only [htags, and_self, if_true, within_pure_iff, hnot, false_implies, Course.subtracts_mk,
      Course.checksFirst_mk]
  have hle : readBE (slice m buf 2) * 32 ≤ left := by omega
  simp only [htags, if_false, within_bind_iff, within_touch_iff, within_read_iff, OfNat.ofNat_ne_zero,
    false_or, Course.subtracts_subtracting, Course.checksFirst_subtracting, hle, true_and,
    true_implies, ← hleft hle]
  have htouch : payloadSizePos m buf + 4 ≤ actual →
      readBE (slice m buf 2) * 32 = 0 ∨ buf + 2 + readBE (slice m buf 2) * 32 ≤ actual := fun h =>
    Or.inr (by unfold payloadSizePos at h; omega)
  by_cases hsize : left' < readBE (slice m (payloadSizePos m buf) 4)
  · simp only [hsize, if_true, within_pure_iff, and_true, Nat.not_le.mpr hsize, false_implies,
      Course.subtracts_mk, Course.checksFirst_mk]
    exact ⟨fun h => h.2, fun h => ⟨htouch h, h⟩⟩
  · have hhashed : Contained ((destination.withTags now key (newTags m buf)).handleHashed crypto hasTunnel m
        (payloadSizePos m buf) (readBE (slice m (payloadSizePos m buf) 4))) _ hasTunnel actual ↔ _ :=
      contained_handleHashed_iff (newTags m buf)
    simp only [hsize, if_false, Nat.not_lt.mp hsize, true_implies, ← hhashed]
    constructor
    · rintro ⟨⟨-, hread, hwithin⟩, hcourse⟩
      exact ⟨hread, hwithin, hcourse⟩
    · rintro ⟨hread, hwithin, hcourse⟩
      exact ⟨⟨htouch hread, hread, hwithin⟩, hcourse⟩

theorem contained_nil {α : Type} (x : Traced α) (actual : ℕ) :
    Contained x {} hasTunnel actual ↔ x.Within 0 actual := by
  unfold Contained
  simp only [Course.subtracts_mk, Course.checksFirst_mk, and_true]

theorem contained_bind_iff {α β : Type} (x : Traced α) (f : α → Traced β) (course : Course)
    {actual : ℕ} :
    Contained (x >>= f) course hasTunnel actual ↔
      x.Within 0 actual ∧ Contained (f x.val) course hasTunnel actual := by
  unfold Contained
  rw [within_bind_iff, and_assoc]

/-- What reads nothing can follow. -/
theorem contained_bind_left_iff {α β : Type} (x : Traced α) {f : α → Traced β} (course : Course)
    {actual : ℕ} (hf : ∀ a, (f a).Within 0 actual) :
    Contained (x >>= f) course hasTunnel actual ↔ Contained x course hasTunnel actual := by
  unfold Contained
  rw [within_bind_iff, and_iff_left (hf _)]

theorem contained_subtracting_iff {α : Type} (x : Traced α) (course : Course)
    {len part actual : ℕ} :
    Contained x (.subtracting len part course) hasTunnel actual ↔
      part ≤ len ∧ Contained x course hasTunnel actual := by
  unfold Contained
  rw [Course.subtracts_subtracting, Course.checksFirst_subtracting]
  tauto

/-- The blocks that are handled inside of the bounds. -/
theorem contained_handleAESBlock_iff (key : Tag) {m : Mem} {buf len actual : ℕ}
    (hlen : len < 2 ^ 64) :
    Contained (destination.handleAESBlock crypto now hasTunnel key m buf len)
      (blockCourse crypto m buf len) hasTunnel actual ↔
      BlockFits crypto hasTunnel m buf len actual := by
  rw [handleAESBlock_eq, blockCourse, contained_subtracting_iff, BlockFits]
  refine and_congr_right fun hcount => ?_
  have hleft : subSize len 2 = len - 2 := subSize_of_le hcount hlen
  rw [hleft]
  exact contained_handleBlock_iff key fun hle => subSize_of_le hle (by omega)

/-- The memory after the bytes behind the first `start` of a message are decrypted. -/
def decrypted (crypto : Crypto) (key : Tag) (iv : List UInt8) (m : Mem) (buf start length : ℕ) : Mem :=
  store m (buf + start) (crypto.cbcDecrypt key iv (slice m (buf + start) (length - start)))

/-- What a message is taken through once its key is known. -/
def decryptedCourse (crypto : Crypto) (key : Tag) (iv : List UInt8) (m : Mem)
    (buf start length : ℕ) : Course :=
  .subtracting length start <|
    blockCourse crypto (decrypted crypto key iv m buf start length) (buf + start) (length - start)

/-- The encrypted bytes, and the block that they are decrypted to, inside of `actual` bytes. -/
def DecryptedFits (crypto : Crypto) (hasTunnel : Bool) (key : Tag) (iv : List UInt8) (m : Mem)
    (buf start length actual : ℕ) : Prop :=
  buf + length ≤ actual ∧
    BlockFits crypto hasTunnel (decrypted crypto key iv m buf start length) (buf + start)
      (length - start) actual

theorem contained_decryptAndHandle_iff (key : Tag) (iv : List UInt8) {m : Mem}
    {buf start length actual : ℕ} (hstart : start ≤ length) (hlength : length < 2 ^ 64) :
    Contained (destination.decryptAndHandle crypto now hasTunnel key iv m buf start length)
      (decryptedCourse crypto key iv m buf start length) hasTunnel actual ↔
      DecryptedFits crypto hasTunnel key iv m buf start length actual := by
  rw [decryptedCourse, contained_subtracting_iff, DecryptedFits]
  unfold decryptAndHandle
  rw [contained_bind_iff, within_read_iff]
  have hfits : Contained (destination.handleAESBlock crypto now hasTunnel key
      (decrypted crypto key iv m buf start length) (buf + start) (length - start))
      (blockCourse crypto (decrypted crypto key iv m buf start length) (buf + start)
        (length - start)) hasTunnel actual ↔ _ :=
    contained_handleAESBlock_iff key (by omega)
  constructor
  · rintro ⟨-, hencrypted, hblock⟩
    have hfits := hfits.mp hblock
    -- a block has at least the number of tags
    have hcount := hfits.1
    exact ⟨by omega, hfits⟩
  · rintro ⟨hencrypted, hblock⟩
    exact ⟨hstart, by omega, hfits.mpr hblock⟩

section Message

variable (crypto hasTunnel destination)

/-- The length of the encrypted bytes, as it stands in front of them. -/
def encryptedLength (m : Mem) : ℕ := readBE (slice m headerSize 4)

/-- What the part of a message behind its length is taken through. -/
def tagCourse (m : Mem) (buf length : ℕ) : Course :=
  match AssocMap.find destination.tags (IdentHash.ofMem m buf) with
  | some entry =>
    if 32 ≤ length then
      decryptedCourse crypto entry.key (crypto.iv (IdentHash.ofMem m buf)) m buf 32 length
    else {}
  | none =>
    if 514 ≤ length then
      match crypto.elGamalDecrypt destination.privateKey (slice m buf 514) with
      | some block =>
        decryptedCourse crypto (blockTag block 0) (crypto.iv (blockTag block 1)) m buf 514 length
      | none => {}
    else {}

/-- What `HandleGarlicMessage` takes a message through. -/
def messageCourse (m : Mem) (msgLength : ℕ) : Course :=
  if msgLength < encryptedLength m then {}
  else destination.tagCourse crypto m (headerSize + 4) (encryptedLength m)

/-- The part of a message behind its length, inside of `actual` bytes. -/
def TagFits (m : Mem) (buf length actual : ℕ) : Prop :=
  buf + 32 ≤ actual ∧
    match AssocMap.find destination.tags (IdentHash.ofMem m buf) with
    | some entry =>
      32 ≤ length → DecryptedFits crypto hasTunnel entry.key
        (crypto.iv (IdentHash.ofMem m buf)) m buf 32 length actual
    | none =>
      514 ≤ length → buf + 514 ≤ actual ∧
        ∀ block, crypto.elGamalDecrypt destination.privateKey (slice m buf 514) = some block →
          DecryptedFits crypto hasTunnel (blockTag block 0) (crypto.iv (blockTag block 1)) m buf 514
            length actual

/-- A message whose parts are inside of its `actual` bytes. The length is compared with these, and not
with what is left of them behind it. -/
def MessageFits (m : Mem) (actual : ℕ) : Prop :=
  headerSize + 4 ≤ actual ∧
    (encryptedLength m ≤ actual →
      destination.TagFits crypto hasTunnel m (headerSize + 4) (encryptedLength m) actual)

end Message

theorem contained_handleByTag_iff {m : Mem} {buf length actual : ℕ} (hlength : length < 2 ^ 64) :
    Contained (destination.handleByTag crypto now hasTunnel m buf length)
      (destination.tagCourse crypto m buf length) hasTunnel actual ↔
      destination.TagFits crypto hasTunnel m buf length actual := by
  have hreturn : ∀ (handled : Handled) (destination : GarlicDestination),
      (if handled.threw = true then (return handled : Traced Handled)
        else return { handled with destination }).Within 0 actual := fun handled _ => by
    split <;> exact within_pure _ _ _
  unfold handleByTag tagCourse TagFits
  simp only [contained_bind_iff, within_touch_iff, OfNat.ofNat_ne_zero, false_or]
  refine and_congr_right fun htag => ?_
  cases AssocMap.find destination.tags (IdentHash.ofMem m buf) with
  | some entry =>
    by_cases hshort : 32 ≤ length
    · simp only [hshort, if_true, true_implies]
      rw [contained_bind_left_iff _ _ fun handled => hreturn handled _]
      exact contained_decryptAndHandle_iff _ _ hshort hlength
    · simp only [hshort, if_false, false_implies, contained_nil, within_bind_iff, within_pure_iff,
        true_and, iff_true]
      exact hreturn _ _
  | none =>
    simp only
    by_cases hshort : 514 ≤ length
    · simp only [hshort, if_true, true_implies, contained_bind_iff, within_read_iff, val_read,
        OfNat.ofNat_ne_zero, false_or]
      refine and_congr_right fun hencrypted => ?_
      cases crypto.elGamalDecrypt destination.privateKey (slice m buf 514) with
      | some block =>
        simp only [Option.some.injEq, forall_eq']
        exact contained_decryptAndHandle_iff _ _ hshort hlength
      | none => simp [contained_nil]
    · simp only [hshort, if_false, false_implies, contained_nil, within_pure_iff]

/-- `HandleGarlicMessage` dispatches what its course says. -/
theorem dispatched_handleGarlicMessage (m : Mem) (msgLength : ℕ) :
    (destination.handleGarlicMessage crypto now hasTunnel m msgLength).val.dispatched =
      (destination.messageCourse crypto m msgLength).dispatched hasTunnel := by
  have hreturn : ∀ (handled : Handled) (destination : GarlicDestination),
      (if handled.threw = true then (return handled : Traced Handled)
        else return { handled with destination }).val.dispatched = handled.dispatched :=
    fun handled _ => by split <;> rfl
  have hdecrypted : ∀ (key : Tag) (iv : List UInt8) (buf start length : ℕ),
      (destination.decryptAndHandle crypto now hasTunnel key iv m buf start length).val.dispatched =
        (decryptedCourse crypto key iv m buf start length).dispatched hasTunnel :=
    fun key iv buf start length => congrArg Handled.dispatched (val_handleAESBlock_course key _ _ _)
  have htag : ∀ buf length,
      (destination.handleByTag crypto now hasTunnel m buf length).val.dispatched =
        (destination.tagCourse crypto m buf length).dispatched hasTunnel := by
    intro buf length
    unfold handleByTag tagCourse
    simp only [val_bind]
    cases AssocMap.find destination.tags (IdentHash.ofMem m buf) with
    | some entry =>
      by_cases hshort : 32 ≤ length
      · simp only [hshort, if_true, val_bind, hreturn]
        exact hdecrypted _ _ _ _ _
      · simp only [hshort, if_false, val_bind, hreturn]
        rfl
    | none =>
      by_cases hshort : 514 ≤ length
      · simp only [hshort, if_true, val_bind, val_read]
        cases crypto.elGamalDecrypt destination.privateKey (slice m buf 514) with
        | some block => exact hdecrypted _ _ _ _ _
        | none => rfl
      · simp only [hshort, if_false]
        rfl
  unfold handleGarlicMessage messageCourse encryptedLength
  simp only [val_bind, val_read]
  by_cases hexceeds : msgLength < readBE (slice m headerSize 4)
  · simp only [hexceeds, if_true]
    rfl
  · simp only [hexceeds, if_false, val_bind, hreturn]
    exact htag _ _

/-- The garlic messages that are handled inside of their bounds. -/
theorem contained_iff (crypto : Crypto) (now : ℕ) (hasTunnel : Bool)
    (destination : GarlicDestination) (m : Mem) (actual : ℕ) :
    Contained (destination.handleGarlicMessage crypto now hasTunnel m actual)
      (destination.messageCourse crypto m actual) hasTunnel actual ↔
      destination.MessageFits crypto hasTunnel m actual := by
  have hlength : encryptedLength m < 2 ^ 64 :=
    (readBE_lt _).trans_le (by rw [length_slice]; decide)
  unfold handleGarlicMessage messageCourse MessageFits
  simp only [contained_bind_iff, within_read_iff, OfNat.ofNat_ne_zero, false_or, val_read]
  refine and_congr_right fun hheader => ?_
  by_cases hexceeds : actual < encryptedLength m
  · have hnot : ¬encryptedLength m ≤ actual := Nat.not_le.mpr hexceeds
    have hread : actual < readBE (slice m headerSize 4) := hexceeds
    simp only [hexceeds, hread, if_true, hnot, false_implies, contained_nil, within_pure_iff]
  · have hle : encryptedLength m ≤ actual := Nat.not_lt.mp hexceeds
    have hread : ¬actual < readBE (slice m headerSize 4) := hexceeds
    simp only [hexceeds, hread, if_false, hle, true_implies]
    rw [contained_bind_left_iff]
    · exact contained_handleByTag_iff hlength
    · intro handled
      split <;> exact within_pure _ _ _

/-- A held tag and a length of 33 bytes: one decrypted byte is left, which is less than the number of
tags. -/
theorem not_contained_single_byte :
    ¬∀ (crypto : Crypto) (now : ℕ) (hasTunnel : Bool) (destination : GarlicDestination) (m : Mem)
      (actual : ℕ),
      Contained (destination.handleGarlicMessage crypto now hasTunnel m actual)
        (destination.messageCourse crypto m actual) hasTunnel actual := by
  intro h
  have hsubtracts := (h exampleCrypto 1001 false exampleReceiver
    (store (fun _ => 0) headerSize (writeBE 4 33 ++ (exampleTag 8).bytes ++ [0])) 53).2.1
  have hdifference := hsubtracts (1, 2) (by decide +kernel)
  exact absurd hdifference (by decide)

end GarlicDestination

end Garlic
