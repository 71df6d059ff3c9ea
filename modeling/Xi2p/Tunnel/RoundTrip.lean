import Xi2p.Tunnel.Reassembly

/-!
# From the gateway to the endpoint

Tunnel data messages of a gateway, handed to an endpoint in order or in any order.

* `IsCut`, `CutNeedlessly`: when `PutI2NPMsg` cuts a block, and when it cuts a block that would
  have fitted into a new tunnel data message. In the second case the first fragment already runs
  past the end of the message and no follow-on fragment is ever sent.
* `Deliverable`: the blocks that arrive.
-/

namespace Tunnel

open Bytes I2NP TunnelDeliveryType Reassembly TunnelGatewayBuffer

/-! ## When the gateway cuts a block -/

/-- `PutI2NPMsg` cuts the block into fragments. A block that fills a tunnel data message exactly
is put again when its instructions do not fit the current message, and is then sent whole. -/
def IsCut (g : TunnelGatewayBuffer) (block : TunnelMessageBlock) : Prop :=
  tunnelDataMaxPayloadSize < block.fullMsgLen ∨
    g.current ≠ none ∧ g.remainingSize < block.fullMsgLen ∧
      ¬ (block.fullMsgLen = tunnelDataMaxPayloadSize ∧ 7 ≤ g.remainingSize ∧
        g.remainingSize < block.diLen + 6)

/-- `PutI2NPMsg` starts a new message for a block that does not fit the current one, and cuts the
block although it fits the new message. -/
def CutNeedlessly (g : TunnelGatewayBuffer) (block : TunnelMessageBlock) : Prop :=
  g.current ≠ none ∧ g.remainingSize < block.fullMsgLen ∧
    block.fullMsgLen + 4 ≤ tunnelDataMaxPayloadSize

/-- The endpoint gets the block back. -/
def Deliverable (g : TunnelGatewayBuffer) (block : TunnelMessageBlock) : Prop :=
  ¬ CutNeedlessly g block ∧ (IsCut g block → block.data.getMsgID ≠ 0)

instance (g : TunnelGatewayBuffer) (block : TunnelMessageBlock) : Decidable (IsCut g block) :=
  inferInstanceAs (Decidable (_ ∨ _ ∧ _ ∧ ¬ _))

instance (g : TunnelGatewayBuffer) (block : TunnelMessageBlock) :
    Decidable (CutNeedlessly g block) :=
  inferInstanceAs (Decidable (_ ∧ _ ∧ _))

instance (g : TunnelGatewayBuffer) (block : TunnelMessageBlock) :
    Decidable (Deliverable g block) :=
  inferInstanceAs (Decidable (_ ∧ (_ → _)))

section Cutting

variable {g : TunnelGatewayBuffer} {block : TunnelMessageBlock}

/-- The space for a block that does not fit the current message. -/
theorem remainingSize_makeRoom (env : GatewayEnv) (hcur : g.current ≠ none)
    (hfull : g.remainingSize < block.fullMsgLen) (hle : block.fullMsgLen ≤ tunnelDataMaxPayloadSize) :
    (g.ensureCurrent.makeRoom env g.current.isNone block).remainingSize =
      if block.fullMsgLen = tunnelDataMaxPayloadSize ∧ 7 ≤ g.remainingSize then g.remainingSize
      else tunnelDataMaxPayloadSize := by
  have hnone : g.current.isNone = false := by simpa using Option.ne_none_iff_isSome.mp hcur
  simp only [makeRoom, ensureCurrent, hnone, Bool.false_eq_true, if_false]
  by_cases hexact : block.fullMsgLen = tunnelDataMaxPayloadSize
  · -- one follow-on fragment is counted, so seven bytes do not fit
    rw [hexact]
    simp only [tunnelDataMaxPayloadSize] at *
    by_cases hroom : 7 ≤ g.remainingSize
    · have hstay : ¬ g.remainingSize < 7 := by omega
      simp [hroom, hstay]
    · have hnew : g.remainingSize < 7 := by omega
      simp [hroom, hnew, createCurrentTunnelDataMessage]
  · have hdiv : block.fullMsgLen / tunnelDataMaxPayloadSize = 0 :=
      Nat.div_eq_of_lt (lt_of_le_of_ne hle hexact)
    have hmod : block.fullMsgLen % tunnelDataMaxPayloadSize = block.fullMsgLen :=
      Nat.mod_eq_of_lt (lt_of_le_of_ne hle hexact)
    simp [hdiv, hmod, hexact, hfull, createCurrentTunnelDataMessage]

theorem remainingSize_makeRoom_le (env : GatewayEnv) (messageCreated : Bool)
    (block : TunnelMessageBlock) (h : g.remainingSize ≤ tunnelDataMaxPayloadSize) :
    (g.makeRoom env messageCreated block).remainingSize ≤ tunnelDataMaxPayloadSize := by
  simp only [makeRoom]
  split
  · exact h
  · split
    · exact le_refl _
    · exact h

/-- The first fragment ends inside the message, unless the block is cut needlessly. -/
theorem firstFragmentSize_cases (env : GatewayEnv) (g : TunnelGatewayBuffer)
    (block : TunnelMessageBlock) (hroom : g.current ≠ none →
      g.remainingSize ≤ tunnelDataMaxPayloadSize) :
    (g.firstFragmentSize env block = none ∧ ¬ IsCut g block) ∨
      ∃ size, g.firstFragmentSize env block = some size ∧ IsCut g block ∧
        (size < block.data.getLength ↔ ¬ CutNeedlessly g block) := by
  have hfull : block.fullMsgLen = block.diLen + block.data.getLength + 2 := rfl
  have hdi : block.diLen ≤ 37 := block.deliveryType.diLen_le
  by_cases hcur : g.current = none
  · rw [firstFragmentSize_of_current_eq_none block hcur]
    by_cases hfit : block.fullMsgLen ≤ tunnelDataMaxPayloadSize
    · left
      refine ⟨if_pos hfit, ?_⟩
      rintro (hgt | ⟨hne, -⟩)
      · omega
      · exact hne hcur
    · right
      refine ⟨_, if_neg hfit, Or.inl (by omega), ?_⟩
      have hnot : ¬ CutNeedlessly g block := fun h => h.1 hcur
      simp only [hnot, not_false_eq_true, iff_true]
      simp only [tunnelDataMaxPayloadSize] at *
      omega
  · have hrem := hroom hcur
    have hensure : g.ensureCurrent.remainingSize = g.remainingSize := by
      simp [ensureCurrent, hcur]
    by_cases hfit : block.fullMsgLen ≤ g.remainingSize
    · left
      refine ⟨by simp [firstFragmentSize, hensure, hfit], ?_⟩
      rintro (hgt | ⟨-, hlt, -⟩) <;> omega
    have hsize : g.firstFragmentSize env block =
        if block.diLen + 6 ≤ (g.ensureCurrent.makeRoom env g.current.isNone block).remainingSize then
          some ((g.ensureCurrent.makeRoom env g.current.isNone block).remainingSize -
            block.diLen - 6)
        else if block.fullMsgLen ≤ tunnelDataMaxPayloadSize then none
        else some (tunnelDataMaxPayloadSize - block.diLen - 6) := by
      simp only [firstFragmentSize, hensure, if_neg hfit]
    by_cases hle : block.fullMsgLen ≤ tunnelDataMaxPayloadSize
    · rw [hsize, remainingSize_makeRoom env hcur (not_le.mp hfit) hle, if_pos hle]
      by_cases hstay : block.fullMsgLen = tunnelDataMaxPayloadSize ∧ 7 ≤ g.remainingSize
      · rw [if_pos hstay]
        have hneed : ¬ CutNeedlessly g block := by
          rintro ⟨-, -, hsmall⟩
          omega
        by_cases hin : block.diLen + 6 ≤ g.remainingSize
        · right
          refine ⟨_, if_pos hin, Or.inr ⟨hcur, by omega, by omega⟩, ?_⟩
          simp only [hneed, not_false_eq_true, iff_true]
          omega
        · left
          refine ⟨if_neg hin, ?_⟩
          rintro (hgt | ⟨-, -, hnot⟩)
          · omega
          · exact hnot ⟨hstay.1, hstay.2, by omega⟩
      · rw [if_neg hstay]
        right
        refine ⟨_, if_pos ?_, Or.inr ⟨hcur, by omega, fun h => hstay ⟨h.1, h.2.1⟩⟩, ?_⟩
        · simp only [tunnelDataMaxPayloadSize]
          omega
        · simp only [CutNeedlessly, tunnelDataMaxPayloadSize] at *
          constructor
          · rintro hlt ⟨-, -, hsmall⟩
            omega
          · intro hneed
            by_contra hge
            exact hneed ⟨hcur, by omega, by omega⟩
    · right
      have hroom' : (g.ensureCurrent.makeRoom env g.current.isNone block).remainingSize ≤
          tunnelDataMaxPayloadSize := by
        refine remainingSize_makeRoom_le env _ _ ?_
        rw [hensure]
        exact hrem
      have hneed : ¬ CutNeedlessly g block := by
        rintro ⟨-, -, hsmall⟩
        omega
      simp only [hsize, hneed, not_false_eq_true, iff_true, if_neg hle]
      by_cases hin : block.diLen + 6 ≤
          (g.ensureCurrent.makeRoom env g.current.isNone block).remainingSize
      · exact ⟨_, if_pos hin, Or.inl (by omega), by omega⟩
      · refine ⟨_, if_neg hin, Or.inl (by omega), ?_⟩
        simp only [tunnelDataMaxPayloadSize] at *
        omega

theorem isCut_of_cutNeedlessly (h : CutNeedlessly g block) : IsCut g block := by
  obtain ⟨hcur, hlt, hsmall⟩ := h
  refine Or.inr ⟨hcur, hlt, ?_⟩
  rintro ⟨hexact, -⟩
  omega

end Cutting

/-! ## One block -/

section Block

variable {env : GatewayEnv} {tunnelID : UInt32} {g : TunnelGatewayBuffer}
  {ws : List WireFragment} {block : TunnelMessageBlock} {ep : TunnelEndpoint}
  {fs : List (DeliveryInstructions × I2NPMessage)}

open TunnelEndpoint

/-- A whole message is passed on. -/
theorem handleFragments_wholeFragment
    (hrep : List.Forall₂ Represents [block.wholeFragment] fs) :
    ep.handleFragments fs =
      { ep with handled := ep.handled ++ block.delivery.toList.map (none, ·) } := by
  obtain ⟨f, fs, hf, hnil, rfl⟩ := List.forall₂_cons_left_iff.mp hrep
  obtain rfl := List.forall₂_nil_left_iff.mp hnil
  obtain ⟨⟨pos, hdi⟩, hdata⟩ := hf
  have hdelivery : TunnelMessageBlock.delivery
      { deliveryType := block.deliveryType
        hash := WireFragment.readIdentHash block.deliveryType block.hash
        tunnelID := WireFragment.readTunnelID block.deliveryType block.tunnelID
        data := f.2 } = block.delivery := by
    have hbytes : f.2.bytes = block.data.bytes := hdata.bytes_eq
    simp only [TunnelMessageBlock.delivery, hbytes]
    cases block.deliveryType <;> rfl
  have hone : ep.handleFragments [f] = ep.handleNextMessage none
      { deliveryType := block.deliveryType
        hash := WireFragment.readIdentHash block.deliveryType block.hash
        tunnelID := WireFragment.readTunnelID block.deliveryType block.tunnelID
        data := f.2 } := by
    show (ep.handleFragment f.1 f.2).val = _
    rw [hdi]
    rfl
  rw [hone, handleNextMessage, hdelivery]
  cases block.delivery <;> simp

/-- The fragments of a block that is cut inside its message, in order. -/
theorem handleFragments_fragments (hsend : Sendable block) {size : ℕ}
    (hsize : size < block.data.getLength) (hid : block.data.getMsgID ≠ 0)
    (hinc : ep.incompleteMessages block.data.getMsgID = none)
    (hslot : ep.outOfSequenceFragments block.data.getMsgID = none)
    (hrep : List.Forall₂ Represents (block.fragments size) fs) :
    ep.handleFragments fs =
      { ep with
        handled := ep.handled ++ block.delivery.toList.map (some block.data.getMsgID, ·) } := by
  rw [block.fragments_eq] at hrep
  have hkey : ∀ w ∈ (List.range (block.lastNumber size + 1)).map (block.fragmentAt size),
      w.key = some block.data.getMsgID := by
    intro w hw
    obtain ⟨k, -, rfl⟩ := List.mem_map.mp hw
    exact block.key_fragmentAt size k
  have haff := affects_handleFragments hrep hkey ep
  have hall : ((List.range (block.lastNumber size + 1)).map (block.fragmentAt size)).filter
      (·.key = some block.data.getMsgID) =
      (List.range (block.lastNumber size + 1)).map (block.fragmentAt size) := by
    rw [List.filter_eq_self]
    intro w hw
    simpa using hkey w hw
  have hrun := keeps_handleFragments hsend hsize hid hrep hall
    (fun k hk => Nat.lt_succ_iff.mp (List.mem_range.mp hk)) List.nodup_range (by simp)
    (keeps_empty block size ep hinc hslot)
  -- in order, nothing is lost and nothing waits
  rw [retainAll_range] at hrun
  obtain ⟨-, w, hw, hkeeps⟩ := hrun
  rw [mex_range] at hkeeps
  have hwnone : w = none := by
    cases w with
    | none => rfl
    | some k => simp at hw
  obtain ⟨new, hnew, hnewkey⟩ := haff.handled_eq
  have hnewall : new.filter (·.1 = some block.data.getMsgID) = new := by
    rw [List.filter_eq_self]
    intro e he
    simpa using hnewkey e he
  have hnew_eq : new = block.delivery.toList.map (some block.data.getMsgID, ·) := by
    have hfilter := hkeeps.handled_eq
    rw [hnew, List.filter_append, hnewall, if_pos rfl] at hfilter
    exact List.append_cancel_left hfilter
  ext1
  · funext id
    by_cases h : id = block.data.getMsgID
    · rw [h, hkeeps.incomplete_none (Or.inr rfl)]
      exact hinc.symm
    · exact haff.incompleteMessages_eq id (by simpa using h)
  · funext id
    by_cases h : id = block.data.getMsgID
    · rw [h, hkeeps.saved_none hwnone]
      exact hslot.symm
    · exact haff.outOfSequenceFragments_eq id (by simpa using h)
  · rw [hnew, hnew_eq]

/-- A first fragment that runs past the end of the message is kept and never completed. -/
theorem handleFragments_of_length_le {size : ℕ} (hsize : block.data.getLength ≤ size)
    (hid : block.data.getMsgID ≠ 0)
    (hinc : ep.incompleteMessages block.data.getMsgID = none)
    (hslot : ep.outOfSequenceFragments block.data.getMsgID = none)
    (hrep : List.Forall₂ Represents (block.fragments size) fs) :
    ∃ msg, ep.handleFragments fs = ep.setIncomplete block.data.getMsgID msg := by
  have hfirst : block.fragments size = [block.firstFragment size] := by
    rw [TunnelMessageBlock.fragments, TunnelMessageBlock.followOnFragments, if_neg (by omega)]
  rw [hfirst] at hrep
  obtain ⟨f, fs, hf, hnil, rfl⟩ := List.forall₂_cons_left_iff.mp hrep
  obtain rfl := List.forall₂_nil_left_iff.mp hnil
  obtain ⟨⟨pos, hdi⟩, -⟩ := hf
  refine ⟨startMessage block.deliveryType block.hash block.tunnelID f.2, ?_⟩
  show (ep.handleFragment f.1 f.2).val = _
  rw [hdi, TunnelMessageBlock.firstFragment, handleFragment_first hid hinc,
    handleOutOfSequenceFragment]
  have hslot' : (ep.setIncomplete block.data.getMsgID (startMessage block.deliveryType block.hash
      block.tunnelID f.2)).outOfSequenceFragments block.data.getMsgID = none := hslot
  rw [hslot']

/-- What becomes of one block: it is passed on if it is deliverable. Otherwise nothing is passed
on, and only the entry of its message ID can change. -/
theorem handleFragments_wireFragments (hsend : Sendable block) (h : Sends env tunnelID g ws)
    (hinc : block.data.getMsgID ≠ 0 → ep.incompleteMessages block.data.getMsgID = none)
    (hslot : block.data.getMsgID ≠ 0 → ep.outOfSequenceFragments block.data.getMsgID = none)
    (hrep : List.Forall₂ Represents (g.wireFragments env block) fs) :
    if Deliverable g block then
      ∃ key, ep.handleFragments fs =
        { ep with handled := ep.handled ++ block.delivery.toList.map (key, ·) }
    else
      (ep.handleFragments fs).handled = ep.handled ∧
        (ep.handleFragments fs).outOfSequenceFragments = ep.outOfSequenceFragments ∧
        ∀ id, id ≠ block.data.getMsgID ∨ id = 0 →
          (ep.handleFragments fs).incompleteMessages id = ep.incompleteMessages id := by
  rcases firstFragmentSize_cases env g block (remainingSize_le h) with
    ⟨hnone, hcut⟩ | ⟨size, hsome, hcut, hsize⟩
  · have hdel : Deliverable g block :=
      ⟨fun hneed => hcut (isCut_of_cutNeedlessly hneed), fun h => absurd h hcut⟩
    rw [if_pos hdel]
    simp only [wireFragments, hnone] at hrep
    exact ⟨none, handleFragments_wholeFragment hrep⟩
  · simp only [wireFragments, hsome] at hrep
    by_cases hid : block.data.getMsgID = 0
    · -- the endpoint drops fragments without a message ID
      have hnot : ¬ Deliverable g block := fun hdel => hdel.2 hcut hid
      have hsame : ep.handleFragments fs = ep := by
        refine handleFragments_of_key_eq_zero hrep (fun w hw => ?_) ep
        rw [block.fragments_eq] at hw
        obtain ⟨k, -, rfl⟩ := List.mem_map.mp hw
        rw [block.key_fragmentAt, hid]
      rw [if_neg hnot, hsame]
      exact ⟨rfl, rfl, fun _ _ => rfl⟩
    · by_cases hneed : CutNeedlessly g block
      · have hnot : ¬ Deliverable g block := fun hdel => hdel.1 hneed
        have hle : block.data.getLength ≤ size := by
          by_contra hlt
          exact hsize.mp (by omega) hneed
        obtain ⟨msg, hmsg⟩ :=
          handleFragments_of_length_le hle hid (hinc hid) (hslot hid) hrep
        rw [if_neg hnot, hmsg]
        refine ⟨rfl, rfl, fun id hne => Function.update_of_ne ?_ _ _⟩
        rcases hne with hne | rfl
        · exact hne
        · exact Ne.symm hid
      · rw [if_pos ⟨hneed, fun _ => hid⟩]
        exact ⟨_, handleFragments_fragments hsend (hsize.mpr hneed) hid (hinc hid) (hslot hid)
          hrep⟩

end Block

/-! ## A list of blocks -/

section Blocks

variable {env : GatewayEnv} {tunnelID : UInt32} {ws : List WireFragment}
  {blocks : List TunnelMessageBlock}

open TunnelEndpoint

/-- The blocks of a list that arrive, as the gateway takes one after the other. -/
def deliverables (env : GatewayEnv) (g : TunnelGatewayBuffer) :
    List TunnelMessageBlock → List TunnelMessageBlock
  | [] => []
  | block :: blocks =>
    (if Deliverable g block then [block] else []) ++
      deliverables env (g.putI2NPMsg env block) blocks

theorem length_deliverables_le (env : GatewayEnv) (g : TunnelGatewayBuffer)
    (blocks : List TunnelMessageBlock) : (deliverables env g blocks).length ≤ blocks.length := by
  induction blocks generalizing g with
  | nil => rfl
  | cons block blocks ih =>
    have hrest := ih (g.putI2NPMsg env block)
    simp only [deliverables, List.length_append, List.length_cons]
    split
    · simp only [List.length_singleton]
      omega
    · simp only [List.length_nil]
      omega

/-- Every block arrives iff each one is deliverable when the gateway takes it. -/
theorem length_deliverables_eq_iff (env : GatewayEnv) (g : TunnelGatewayBuffer)
    (blocks : List TunnelMessageBlock) :
    (deliverables env g blocks).length = blocks.length ↔
      ∀ pre block post, blocks = pre ++ block :: post → Deliverable (g.putAll env pre) block := by
  induction blocks generalizing g with
  | nil => simp [deliverables]
  | cons block blocks ih =>
    have hle := length_deliverables_le env (g.putI2NPMsg env block) blocks
    simp only [deliverables, List.length_append, List.length_cons]
    constructor
    · intro h pre b post hsplit
      split at h
      case isFalse hdel =>
        simp only [List.length_nil] at h
        omega
      case isTrue hdel =>
        simp only [List.length_singleton] at h
        cases pre with
        | nil =>
          obtain ⟨rfl, -⟩ := List.cons_eq_cons.mp hsplit
          exact hdel
        | cons b' pre =>
          obtain ⟨rfl, hrest⟩ := List.cons_eq_cons.mp hsplit
          exact (ih (g.putI2NPMsg env block)).mp (by omega) pre b post hrest
    · intro h
      have hhead : Deliverable g block := h [] block blocks rfl
      have htail := (ih (g.putI2NPMsg env block)).mpr fun pre b post hsplit =>
        h (block :: pre) b post (by rw [hsplit]; rfl)
      rw [if_pos hhead, List.length_singleton]
      omega

/-- The endpoint passes on the deliverable blocks, in order. If all blocks are deliverable, it
keeps nothing. -/
theorem handleFragments_sentFragments {g : TunnelGatewayBuffer} {ep : TunnelEndpoint}
    {fs : List (DeliveryInstructions × I2NPMessage)} (hsend : ∀ block ∈ blocks, Sendable block)
    (hids : blocks.Pairwise fun a b => a.data.getMsgID ≠ 0 → a.data.getMsgID ≠ b.data.getMsgID)
    (hinc : ∀ block ∈ blocks, block.data.getMsgID ≠ 0 →
      ep.incompleteMessages block.data.getMsgID = none)
    (hslot : ∀ block ∈ blocks, block.data.getMsgID ≠ 0 →
      ep.outOfSequenceFragments block.data.getMsgID = none)
    (h : Sends env tunnelID g ws)
    (hrep : List.Forall₂ Represents (g.sentFragments env blocks) fs) :
    (ep.handleFragments fs).handled.map Prod.snd =
        ep.handled.map Prod.snd ++
          (deliverables env g blocks).filterMap TunnelMessageBlock.delivery ∧
      ((deliverables env g blocks).length = blocks.length →
        (ep.handleFragments fs).incompleteMessages = ep.incompleteMessages ∧
        (ep.handleFragments fs).outOfSequenceFragments = ep.outOfSequenceFragments) := by
  induction blocks generalizing g ws ep fs with
  | nil =>
    obtain rfl := List.forall₂_nil_left_iff.mp hrep
    exact ⟨by simp [handleFragments, deliverables], fun _ => ⟨rfl, rfl⟩⟩
  | cons block blocks ih =>
    -- the fragments of the first block, and those of the others
    set n := (g.wireFragments env block).length with hn
    have hhead : List.Forall₂ Represents (g.wireFragments env block) (fs.take n) := by
      simpa [sentFragments, hn] using List.forall₂_take n hrep
    have htail : List.Forall₂ Represents
        ((g.putI2NPMsg env block).sentFragments env blocks) (fs.drop n) := by
      simpa [sentFragments, hn] using List.forall₂_drop n hrep
    have hfs : ep.handleFragments fs =
        (ep.handleFragments (fs.take n)).handleFragments (fs.drop n) := by
      simp only [handleFragments]
      rw [← List.foldl_append, List.take_append_drop]
    have hone := handleFragments_wireFragments (hsend block (by simp)) h (hinc block (by simp))
      (hslot block (by simp)) hhead
    obtain ⟨hne, hids⟩ := List.pairwise_cons.mp hids
    have hsend' : ∀ b ∈ blocks, Sendable b := fun b hb => hsend b (by simp [hb])
    have hle := length_deliverables_le env (g.putI2NPMsg env block) blocks
    rw [hfs]
    simp only [deliverables]
    by_cases hdel : Deliverable g block
    · rw [if_pos hdel] at hone ⊢
      obtain ⟨key, hone⟩ := hone
      have hincs : (ep.handleFragments (fs.take n)).incompleteMessages = ep.incompleteMessages := by
        rw [hone]
      have hslots : (ep.handleFragments (fs.take n)).outOfSequenceFragments =
          ep.outOfSequenceFragments := by
        rw [hone]
      obtain ⟨hhandled, hmaps⟩ := ih hsend' hids
        (fun b hb hb0 => (congrFun hincs _).trans (hinc b (List.mem_cons_of_mem _ hb) hb0))
        (fun b hb hb0 => (congrFun hslots _).trans (hslot b (List.mem_cons_of_mem _ hb) hb0))
        (sends_putI2NPMsg h block) htail
      refine ⟨?_, fun hlen => ?_⟩
      · rw [hhandled, hone]
        cases hd : block.delivery <;> simp [hd]
      · rw [← hincs, ← hslots]
        rw [List.singleton_append, List.length_cons, List.length_cons] at hlen
        exact hmaps (Nat.succ_inj.mp hlen)
    · rw [if_neg hdel] at hone ⊢
      obtain ⟨hhandled, hslots, hincs⟩ := hone
      have hinc' : ∀ b ∈ blocks, b.data.getMsgID ≠ 0 →
          (ep.handleFragments (fs.take n)).incompleteMessages b.data.getMsgID = none := by
        intro b hb hb0
        rw [hincs, hinc b (List.mem_cons_of_mem _ hb) hb0]
        left
        intro heq
        exact hne b hb (heq ▸ hb0) heq.symm
      have hslot' : ∀ b ∈ blocks, b.data.getMsgID ≠ 0 →
          (ep.handleFragments (fs.take n)).outOfSequenceFragments b.data.getMsgID = none := by
        intro b hb hb0
        rw [hslots, hslot b (List.mem_cons_of_mem _ hb) hb0]
      obtain ⟨hrest, -⟩ := ih hsend' hids hinc' hslot' (sends_putI2NPMsg h block) htail
      refine ⟨by rw [hrest, hhandled, List.nil_append], fun hlen => ?_⟩
      simp only [List.nil_append, List.length_cons] at hlen
      omega

/-- Everything has been passed on, each block once, and nothing is kept. -/
structure RoundTrip (blocks : List TunnelMessageBlock) (ep : TunnelEndpoint) : Prop where
  handled_perm : (ep.handled.map Prod.snd).Perm (blocks.filterMap TunnelMessageBlock.delivery)
  incompleteMessages_eq : ∀ id, ep.incompleteMessages id = none
  outOfSequenceFragments_eq : ∀ id, ep.outOfSequenceFragments id = none

theorem exists_delivery {block : TunnelMessageBlock} (hsend : Sendable block) :
    ∃ d, block.delivery = some d := by
  have htype := hsend.deliveryType_ne
  unfold TunnelMessageBlock.delivery
  cases ht : block.deliveryType <;> simp_all

theorem length_filterMap_delivery (hsend : ∀ block ∈ blocks, Sendable block) :
    (blocks.filterMap TunnelMessageBlock.delivery).length = blocks.length := by
  induction blocks with
  | nil => rfl
  | cons block blocks ih =>
    have htail := ih fun b hb => hsend b (List.mem_cons_of_mem _ hb)
    obtain ⟨d, hd⟩ := exists_delivery (hsend block (by simp))
    rw [List.filterMap_cons_some hd, List.length_cons, List.length_cons, htail]

theorem deliverables_sublist (env : GatewayEnv) (g : TunnelGatewayBuffer)
    (blocks : List TunnelMessageBlock) : (deliverables env g blocks).Sublist blocks := by
  induction blocks generalizing g with
  | nil => exact List.Sublist.slnil
  | cons block blocks ih =>
    simp only [deliverables]
    split
    · exact (ih _).cons_cons block
    · exact (ih _).cons block

/-- The round trip succeeds iff every block is counted as deliverable. -/
theorem roundTrip_iff_length_eq (hsend : ∀ block ∈ blocks, Sendable block)
    (hids : blocks.Pairwise fun a b => a.data.getMsgID ≠ 0 → a.data.getMsgID ≠ b.data.getMsgID)
    {msgs : List I2NPMessage}
    (hcarries : List.Forall₂ Carries msgs (tunnelDataMsgsOf env tunnelID blocks)) :
    RoundTrip blocks (TunnelEndpoint.init.handleAll env.sha256 msgs) ↔
      (deliverables env (TunnelGatewayBuffer.init tunnelID) blocks).length = blocks.length := by
  have hrep := represents_of_carries hsend hcarries
  obtain ⟨hhandled, hmaps⟩ := handleFragments_sentFragments hsend hids
    (fun block _ _ => (rfl : TunnelEndpoint.init.incompleteMessages block.data.getMsgID = none))
    (fun _ _ _ => rfl) (sends_init env tunnelID) hrep
  rw [handleAll_eq_handleFragments]
  have hsub := deliverables_sublist env (TunnelGatewayBuffer.init tunnelID) blocks
  constructor
  · rintro ⟨hperm, -, -⟩
    have hlen := hperm.length_eq
    rw [hhandled, length_filterMap_delivery hsend] at hlen
    have hdel : ∀ block ∈ deliverables env (TunnelGatewayBuffer.init tunnelID) blocks,
        Sendable block := fun b hb => hsend b (hsub.mem hb)
    simpa [TunnelEndpoint.init, length_filterMap_delivery hdel] using hlen
  · intro hlen
    obtain ⟨hinc, hslot⟩ := hmaps hlen
    have hall := hsub.eq_of_length hlen
    refine ⟨?_, fun id => by rw [hinc]; rfl, fun id => by rw [hslot]; rfl⟩
    rw [hhandled, hall]
    exact List.Perm.refl _

/-- Tunnel data messages handed to the endpoint in order: every block is delivered exactly once and
nothing is left over, if and only if every block is deliverable when the gateway takes it. -/
theorem roundTrip_iff_deliverable (env : GatewayEnv) (tunnelID : UInt32)
    {blocks : List TunnelMessageBlock} (hsend : ∀ block ∈ blocks, Sendable block)
    (hids : blocks.Pairwise fun a b => a.data.getMsgID ≠ 0 → a.data.getMsgID ≠ b.data.getMsgID)
    {msgs : List I2NPMessage}
    (hcarries : List.Forall₂ Carries msgs (tunnelDataMsgsOf env tunnelID blocks)) :
    RoundTrip blocks (TunnelEndpoint.init.handleAll env.sha256 msgs) ↔
      ∀ pre block post, blocks = pre ++ block :: post →
        Deliverable ((TunnelGatewayBuffer.init tunnelID).putAll env pre) block := by
  rw [roundTrip_iff_length_eq hsend hids hcarries]
  exact length_deliverables_eq_iff env _ blocks

end Blocks

/-! ## Examples of blocks -/

/-- A tunnel data message as it arrives in a new short buffer. -/
def arrival (wire : List UInt8) : I2NPMessage :=
  { I2NPMessage.newI2NPShortMessage with buf := store (fun _ => 0) 18 wire }

theorem carries_arrival (wires : List (List UInt8)) :
    List.Forall₂ Carries (wires.map arrival) wires := by
  rw [List.forall₂_map_left_iff, List.forall₂_same]
  intro wire _
  have hroom : 18 + 1028 ≤ 4096 := by decide
  exact ⟨slice_store_self _ 18 wire, hroom, le_refl _⟩

/-- A gateway without randomness. -/
def quietEnv : GatewayEnv where
  sha256 _ := List.replicate 32 0
  sha256_length _ := List.length_replicate
  randIV _ := List.replicate 16 0
  randIV_length _ := List.length_replicate
  randBuffer := List.replicate 1003 1
  randBuffer_length := List.length_replicate
  randOffset _ _ := 0
  randOffset_le _ _ := Nat.zero_le _

/-- A local block with a message of `length` bytes, all equal to `byte`. -/
def constantBlock (byte : UInt8) (length : ℕ) : TunnelMessageBlock where
  deliveryType := deliveryTypeLocal
  hash := IdentHash.zero
  tunnelID := 0
  data := { buf := fun _ => byte, capacity := 32784, len := 2 + length, offset := 2, maxLen := 32768 }

theorem sendable_constantBlock (byte : UInt8) {length : ℕ} (h : length + 2 < maxMessageSize) :
    Sendable (constantBlock byte length) := by
  refine ⟨by simp [constantBlock], ?_⟩
  have hlen : (constantBlock byte length).data.getLength = length := Nat.add_sub_cancel_left 2 length
  rw [hlen]
  exact h

/-- A small block leaves room behind it. -/
theorem putI2NPMsg_constantBlock :
    ((TunnelGatewayBuffer.init 7).putI2NPMsg quietEnv (constantBlock 1 600)).remainingSize = 400 ∧
      ((TunnelGatewayBuffer.init 7).putI2NPMsg quietEnv (constantBlock 1 600)).current ≠ none := by
  have hfit : (constantBlock 1 600).fullMsgLen ≤
      (TunnelGatewayBuffer.init 7).ensureCurrent.remainingSize := by decide
  rw [putI2NPMsg, if_pos hfit]
  exact ⟨rfl, Option.some_ne_none _⟩

theorem sendable_constantBlocks {length₁ length₂ : ℕ} (h₁ : length₁ + 2 < maxMessageSize)
    (h₂ : length₂ + 2 < maxMessageSize) :
    ∀ block ∈ [constantBlock 1 length₁, constantBlock 2 length₂], Sendable block := by
  intro block hb
  simp only [List.mem_cons, List.not_mem_nil, or_false] at hb
  rcases hb with rfl | rfl
  · exact sendable_constantBlock 1 h₁
  · exact sendable_constantBlock 2 h₂

theorem roundTrip_constantBlock :
    RoundTrip [constantBlock 1 600, constantBlock 2 2000]
      (TunnelEndpoint.init.handleAll quietEnv.sha256
        ((tunnelDataMsgsOf quietEnv 7 [constantBlock 1 600, constantBlock 2 2000]).map
          arrival)) := by
  rw [roundTrip_iff_deliverable quietEnv 7
    (sendable_constantBlocks (by decide) (by decide)) (by decide) (carries_arrival _)]
  intro pre block post hsplit
  match pre with
  | [] =>
    obtain ⟨rfl, -⟩ := List.cons_eq_cons.mp hsplit
    exact ⟨fun h => h.1 rfl, fun _ => by decide⟩
  | [_] =>
    obtain ⟨-, hsplit⟩ := List.cons_eq_cons.mp hsplit
    obtain ⟨rfl, -⟩ := List.cons_eq_cons.mp hsplit
    refine ⟨fun h => ?_, fun _ => by decide⟩
    exact absurd h.2.2 (by decide)
  | _ :: _ :: pre => simp at hsplit

/-- The second block does not fit behind the first one and is cut although it fits a message of its
own: it is lost. -/
theorem not_roundTrip_constantBlock :
    (∀ block ∈ [constantBlock 1 600, constantBlock 2 500], Sendable block) ∧
      [constantBlock 1 600, constantBlock 2 500].Pairwise (fun a b =>
        a.data.getMsgID ≠ 0 → a.data.getMsgID ≠ b.data.getMsgID) ∧
      ¬ RoundTrip [constantBlock 1 600, constantBlock 2 500]
        (TunnelEndpoint.init.handleAll quietEnv.sha256
          ((tunnelDataMsgsOf quietEnv 7 [constantBlock 1 600, constantBlock 2 500]).map
            arrival)) := by
  have hsend : ∀ block ∈ [constantBlock 1 600, constantBlock 2 500], Sendable block :=
    sendable_constantBlocks (by decide) (by decide)
  refine ⟨hsend, by decide, fun h => ?_⟩
  rw [roundTrip_iff_length_eq hsend (by decide) (carries_arrival _),
    length_deliverables_eq_iff] at h
  obtain ⟨hrem, hcur⟩ := putI2NPMsg_constantBlock
  refine (h [constantBlock 1 600] (constantBlock 2 500) [] rfl).1 ⟨hcur, ?_, by decide⟩
  exact hrem.trans_lt (by decide)

end Tunnel
