import Xi2p.Tunnel.RoundTrip

/-!
# Reordered tunnel data messages

The tunnel data messages of a gateway reach the endpoint in any order. A cut message is delivered
exactly once iff none of its fragments arrives behind more than one fragment with a higher number:
the endpoint saves a single out-of-sequence fragment for each message ID and loses every other one.
-/

namespace Tunnel

open Bytes I2NP TunnelDeliveryType Reassembly TunnelGatewayBuffer TunnelEndpoint

/-! ## Arrival order -/

/-- The number of a fragment of message `id`. -/
def fragmentNumberOf (id : UInt32) (di : DeliveryInstructions) : Option ℕ :=
  if (di.isFollowOnFragment || !di.isLastFragment) ∧ di.msgID = id then
    some di.fragmentNum.toNat
  else none

/-- The numbers of the fragments of message `id`, in the order in which they arrive. -/
def arrivalOrder (sha256 : List UInt8 → List UInt8) (id : UInt32) (msgs : List I2NPMessage) :
    List ℕ :=
  (msgs.flatMap (TunnelEndpoint.received sha256)).filterMap fun f => fragmentNumberOf id f.1

/-- The message of a block has been passed on exactly once from under its ID, and nothing is kept
under the ID. -/
structure Reassembled (block : TunnelMessageBlock) (ep : TunnelEndpoint) : Prop where
  handled_eq : ep.handled.filter (·.1 = some block.data.getMsgID) =
    block.delivery.toList.map (some block.data.getMsgID, ·)
  incompleteMessages_eq : ep.incompleteMessages block.data.getMsgID = none
  outOfSequenceFragments_eq : ep.outOfSequenceFragments block.data.getMsgID = none

theorem fragmentNumberOf_instructions_of_ne {w : WireFragment} {id : UInt32}
    (h : w.key ≠ some id) (pos : ℕ) : fragmentNumberOf id (w.instructions pos) = none := by
  cases w with
  | whole t hash tunnelID bytes => rfl
  | first t hash tunnelID msgID bytes =>
    have hne : msgID ≠ id := by simpa [WireFragment.key] using h
    simp [fragmentNumberOf, WireFragment.instructions, hne]
  | followOn msgID fragmentNumber isLast bytes =>
    have hne : msgID ≠ id := by simpa [WireFragment.key] using h
    simp [fragmentNumberOf, WireFragment.instructions, hne]

theorem fragmentNumberOf_fragmentAt (block : TunnelMessageBlock) (size : ℕ) {k : ℕ} (hk : k < 256)
    (pos : ℕ) :
    fragmentNumberOf block.data.getMsgID ((block.fragmentAt size k).instructions pos) =
      some k := by
  by_cases hzero : k = 0
  · subst hzero
    simp [TunnelMessageBlock.fragmentAt, TunnelMessageBlock.firstFragment, fragmentNumberOf,
      WireFragment.instructions]
  · simp [TunnelMessageBlock.fragmentAt, hzero, fragmentNumberOf, WireFragment.instructions,
      UInt8.toNat_ofNat', Nat.mod_eq_of_lt hk]

/-- The arrival order lists the numbered fragments of the message. -/
theorem arrivalOrder_eq {block : TunnelMessageBlock} {size : ℕ} {ws : List WireFragment}
    {fs : List (DeliveryInstructions × I2NPMessage)} (hrep : List.Forall₂ Represents ws fs)
    {ks : List ℕ} (hlt : ∀ k ∈ ks, k < 256)
    (hks : ws.filter (·.key = some block.data.getMsgID) = ks.map (block.fragmentAt size)) :
    fs.filterMap (fun f => fragmentNumberOf block.data.getMsgID f.1) = ks := by
  induction hrep generalizing ks with
  | nil =>
    obtain rfl : ks = [] := by simpa using hks.symm
    rfl
  | @cons w f ws fs hf _ ih =>
    obtain ⟨pos, hdi⟩ := hf.instructions_eq
    by_cases hkey : w.key = some block.data.getMsgID
    · rw [List.filter_cons_of_pos (by simpa using hkey)] at hks
      cases ks with
      | nil => exact absurd hks (by simp)
      | cons k ks =>
        rw [List.map_cons, List.cons_eq_cons] at hks
        obtain ⟨rfl, htail⟩ := hks
        have hnum := fragmentNumberOf_fragmentAt block size (hlt k (by simp)) pos
        rw [← hdi] at hnum
        simp only [List.filterMap_cons, hnum]
        rw [ih (fun j hj => hlt j (by simp [hj])) htail]
    · rw [List.filter_cons_of_neg (by simpa using hkey)] at hks
      have hnum := fragmentNumberOf_instructions_of_ne hkey pos
      rw [← hdi] at hnum
      simp only [List.filterMap_cons, hnum]
      exact ih hlt hks

/-! ## Which fragments belong to a block -/

section Sent

variable {env : GatewayEnv} {tunnelID : UInt32}

theorem sentFragments_append (g : TunnelGatewayBuffer) (pre post : List TunnelMessageBlock) :
    g.sentFragments env (pre ++ post) =
      g.sentFragments env pre ++ (g.putAll env pre).sentFragments env post := by
  induction pre generalizing g with
  | nil => rfl
  | cons block pre ih =>
    simp only [List.cons_append, sentFragments, ih, List.append_assoc]
    rfl

/-- A block is sent in fragments with its own message ID, or whole. -/
theorem key_of_mem_wireFragments {g : TunnelGatewayBuffer} {block : TunnelMessageBlock}
    {w : WireFragment} (hw : w ∈ g.wireFragments env block) :
    w.key = none ∨ w.key = some block.data.getMsgID := by
  unfold wireFragments at hw
  split at hw
  · left
    rw [List.mem_singleton.mp hw]
    rfl
  · right
    rw [TunnelMessageBlock.fragments_eq] at hw
    obtain ⟨k, -, rfl⟩ := List.mem_map.mp hw
    exact block.key_fragmentAt _ k

theorem filter_sentFragments_eq_nil (env : GatewayEnv) {id : UInt32} (g : TunnelGatewayBuffer)
    {blocks : List TunnelMessageBlock} (hids : ∀ block ∈ blocks, block.data.getMsgID ≠ id) :
    (g.sentFragments env blocks).filter (·.key = some id) = [] := by
  induction blocks generalizing g with
  | nil => rfl
  | cons block blocks ih =>
    rw [sentFragments, List.filter_append, ih _ fun b hb => hids b (List.mem_cons_of_mem _ hb),
      List.append_nil, List.filter_eq_nil_iff]
    intro w hw
    rcases key_of_mem_wireFragments hw with hkey | hkey
    · simp [hkey]
    · simpa [hkey] using hids block (by simp)

/-- Among all fragments sent, those under the ID of a cut block are its own. -/
theorem filter_sentFragments {pre post : List TunnelMessageBlock} {block : TunnelMessageBlock}
    {size : ℕ} (g : TunnelGatewayBuffer)
    (hids : ∀ b ∈ pre ++ post, b.data.getMsgID ≠ block.data.getMsgID)
    (hsize : (g.putAll env pre).firstFragmentSize env block = some size) :
    (g.sentFragments env (pre ++ block :: post)).filter (·.key = some block.data.getMsgID) =
      (List.range (block.lastNumber size + 1)).map (block.fragmentAt size) := by
  have hpre : (g.sentFragments env pre).filter (·.key = some block.data.getMsgID) = [] :=
    filter_sentFragments_eq_nil env g fun b hb => hids b (List.mem_append_left post hb)
  have hpost : (((g.putAll env pre).putI2NPMsg env block).sentFragments env post).filter
      (·.key = some block.data.getMsgID) = [] :=
    filter_sentFragments_eq_nil env _ fun b hb => hids b (List.mem_append_right pre hb)
  have hwire : (g.putAll env pre).wireFragments env block =
      (List.range (block.lastNumber size + 1)).map (block.fragmentAt size) := by
    simp only [wireFragments, hsize]
    exact block.fragments_eq size
  rw [sentFragments_append, List.filter_append, hpre, List.nil_append, sentFragments,
    List.filter_append, hpost, List.append_nil, hwire, List.filter_eq_self]
  intro w hw
  obtain ⟨k, -, rfl⟩ := List.mem_map.mp hw
  simp [block.key_fragmentAt]

end Sent

/-! ## Reassembly in any order -/

section Reorder

variable {block : TunnelMessageBlock} {size : ℕ} {ws : List WireFragment}
  {fs : List (DeliveryInstructions × I2NPMessage)}

/-- A message whose fragments end inside it is reassembled iff no fragment is more than one late. -/
theorem reassembled_iff_lateByAtMost (hsend : Sendable block)
    (hsize : size < block.data.getLength) (hid : block.data.getMsgID ≠ 0)
    (hrep : List.Forall₂ Represents ws fs) {ks : List ℕ}
    (hks : ws.filter (·.key = some block.data.getMsgID) = ks.map (block.fragmentAt size))
    (hperm : ks.Perm (List.range (block.lastNumber size + 1))) :
    Reassembled block (TunnelEndpoint.init.handleFragments fs) ↔ LateByAtMost 1 ks := by
  have hle : ∀ k ∈ ks, k ≤ block.lastNumber size := by
    intro k hk
    exact Nat.lt_succ_iff.mp (List.mem_range.mp (hperm.mem_iff.mp hk))
  have hrun := keeps_handleFragments hsend hsize hid hrep hks hle
    (hperm.nodup_iff.mpr List.nodup_range) (by simp)
    (keeps_empty block size TunnelEndpoint.init rfl rfl)
  obtain ⟨hsub, w, hw, hkeeps⟩ := hrun
  obtain ⟨d, hd⟩ := exists_delivery hsend
  rw [← retainAll_eq_range_iff hperm]
  constructor
  · intro h
    -- the message has been passed on, so no fragment is missing
    have hmex : mex (retainAll 1 ∅ ks) = block.lastNumber size + 1 := by
      by_contra hne
      have hnone := hkeeps.handled_eq
      rw [if_neg hne, h.handled_eq, hd] at hnone
      simp [TunnelEndpoint.init] at hnone
    refine Finset.Subset.antisymm hsub fun k hk => mem_of_lt_mex ?_
    rw [hmex]
    exact Finset.mem_range.mp hk
  · intro h
    rw [h, mex_range] at hkeeps
    rw [h, early_range] at hw
    have hnone : w = none := by
      cases w with
      | none => rfl
      | some k => simp at hw
    refine ⟨?_, hkeeps.incomplete_none (Or.inr rfl), hkeeps.saved_none hnone⟩
    rw [hkeeps.handled_eq, if_pos rfl]
    simp [TunnelEndpoint.init]

/-- Fragments of other messages do not touch the entries of an ID. -/
theorem handleFragments_of_forall_ne {id : UInt32} (hrep : List.Forall₂ Represents ws fs)
    (hne : ∀ w ∈ ws, w.key ≠ some id ∨ id = 0) (ep : TunnelEndpoint) :
    (ep.handleFragments fs).incompleteMessages id = ep.incompleteMessages id ∧
      (ep.handleFragments fs).outOfSequenceFragments id = ep.outOfSequenceFragments id ∧
      (ep.handleFragments fs).handled.filter (·.1 = some id) =
        ep.handled.filter (·.1 = some id) := by
  induction hrep generalizing ep with
  | nil => exact ⟨rfl, rfl, rfl⟩
  | @cons w f ws fs hf _ ih =>
    obtain ⟨pos, hdi⟩ := hf.instructions_eq
    have hstep : ep.handleFragments (f :: fs) =
        (ep.handleFragment f.1 f.2).val.handleFragments fs := List.foldl_cons ..
    obtain ⟨hinc, hslot, hhandled⟩ :=
      ih (fun v hv => hne v (by simp [hv])) (ep.handleFragment f.1 f.2).val
    rw [hstep, hinc, hslot, hhandled]
    by_cases hkey : w.key = some id
    · -- only a message without an ID can be meant here, and that is dropped
      have hzero : id = 0 := (hne w (by simp)).resolve_left (not_not.mpr hkey)
      have hsame := handleFragment_of_key_eq_zero (hzero ▸ hkey) ep pos f.2
      rw [hdi, hsame]
      exact ⟨rfl, rfl, rfl⟩
    · have haff := affects_handleFragment ep w pos f.2
      rw [← hdi] at haff
      obtain ⟨new, hnew, hnewkey⟩ := haff.handled_eq
      refine ⟨haff.incompleteMessages_eq id (Ne.symm hkey),
        haff.outOfSequenceFragments_eq id (Ne.symm hkey), ?_⟩
      have hnil : new.filter (·.1 = some id) = [] := by
        rw [List.filter_eq_nil_iff]
        intro e he
        rw [hnewkey e he]
        simpa using hkey
      rw [hnew, List.filter_append, hnil, List.append_nil]

/-- A message without an ID is never reassembled. -/
theorem not_reassembled_of_msgID_eq_zero (hsend : Sendable block) (hid : block.data.getMsgID = 0)
    (hrep : List.Forall₂ Represents ws fs) :
    ¬ Reassembled block (TunnelEndpoint.init.handleFragments fs) := by
  intro h
  obtain ⟨d, hd⟩ := exists_delivery hsend
  obtain ⟨-, -, hhandled⟩ := handleFragments_of_forall_ne hrep (fun _ _ => Or.inr hid)
    TunnelEndpoint.init
  rw [h.handled_eq, hd] at hhandled
  simp [TunnelEndpoint.init] at hhandled

/-- A message that is cut needlessly is never reassembled: its only fragment waits for ever. -/
theorem not_reassembled_of_length_le (hsize : block.data.getLength ≤ size)
    (hid : block.data.getMsgID ≠ 0) (hrep : List.Forall₂ Represents ws fs)
    (hws : ws.filter (·.key = some block.data.getMsgID) = block.fragments size) :
    ¬ Reassembled block (TunnelEndpoint.init.handleFragments fs) := by
  intro h
  have hfirst : block.fragments size = [block.firstFragment size] := by
    rw [TunnelMessageBlock.fragments, TunnelMessageBlock.followOnFragments, if_neg (by omega)]
  rw [hfirst, List.filter_eq_cons_iff] at hws
  obtain ⟨before, after, rfl, hbefore, -, hafter⟩ := hws
  rw [List.filter_eq_nil_iff] at hafter
  -- the fragments in front of it, the fragment itself, the fragments behind it
  have hrep₁ : List.Forall₂ Represents before (fs.take before.length) := by
    simpa using List.forall₂_take before.length hrep
  have hrep₂ : List.Forall₂ Represents (block.firstFragment size :: after)
      (fs.drop before.length) := by
    simpa using List.forall₂_drop before.length hrep
  obtain ⟨f, fs', hf, hrep₃, hdrop⟩ := List.forall₂_cons_left_iff.mp hrep₂
  obtain ⟨hinc₁, hslot₁, -⟩ := handleFragments_of_forall_ne hrep₁
    (fun w hw => Or.inl (by simpa using hbefore w hw)) TunnelEndpoint.init
  have hsingle : List.Forall₂ Represents (block.fragments size) [f] := by
    rw [hfirst]
    exact List.Forall₂.cons hf List.Forall₂.nil
  obtain ⟨msg, hmsg⟩ := handleFragments_of_length_le hsize hid hinc₁ hslot₁ hsingle
  obtain ⟨hinc₃, -, -⟩ := handleFragments_of_forall_ne hrep₃
    (fun w hw => Or.inl (by simpa using hafter w hw))
    ((TunnelEndpoint.init.handleFragments (fs.take before.length)).handleFragments [f])
  have hfs : TunnelEndpoint.init.handleFragments fs =
      ((TunnelEndpoint.init.handleFragments (fs.take before.length)).handleFragments
        [f]).handleFragments fs' := by
    simp only [handleFragments]
    rw [← List.foldl_append, ← List.foldl_append, List.singleton_append,
      ← hdrop, List.take_append_drop]
  have hnone := h.incompleteMessages_eq
  rw [hfs, hinc₃, hmsg] at hnone
  simp [setIncomplete] at hnone

end Reorder

/-- A cut message whose tunnel data messages arrive in any order, among those of other messages, is
delivered exactly once and leaves nothing behind, if and only if it has an ID, is not cut needlessly
and none of its fragments arrives behind more than one fragment with a higher number. -/
theorem reassembled_iff_of_perm (env : GatewayEnv) (tunnelID : UInt32)
    {pre post : List TunnelMessageBlock} {block : TunnelMessageBlock}
    (hsend : ∀ b ∈ pre ++ block :: post, Sendable b)
    (hids : ∀ b ∈ pre ++ post, b.data.getMsgID ≠ block.data.getMsgID)
    (hcut : IsCut ((TunnelGatewayBuffer.init tunnelID).putAll env pre) block)
    {wires : List (List UInt8)}
    (hperm : wires.Perm (tunnelDataMsgsOf env tunnelID (pre ++ block :: post)))
    {msgs : List I2NPMessage} (hcarries : List.Forall₂ Carries msgs wires) :
    Reassembled block (TunnelEndpoint.init.handleAll env.sha256 msgs) ↔
      block.data.getMsgID ≠ 0 ∧
        ¬ CutNeedlessly ((TunnelGatewayBuffer.init tunnelID).putAll env pre) block ∧
        LateByAtMost 1 (arrivalOrder env.sha256 block.data.getMsgID msgs) := by
  have hblock : Sendable block := hsend block (by simp)
  obtain ⟨ws, hws, hrep⟩ := represents_of_perm hsend hperm hcarries
  have hroom := remainingSize_le (sends_putAll pre (sends_init env tunnelID))
  rw [handleAll_eq_handleFragments]
  by_cases hid : block.data.getMsgID = 0
  · constructor
    · intro h
      exact absurd h (not_reassembled_of_msgID_eq_zero hblock hid hrep)
    · rintro ⟨hne, -⟩
      exact absurd hid hne
  rcases firstFragmentSize_cases env _ block hroom with ⟨-, hnot⟩ | ⟨size, hsize, -, hlt⟩
  · exact absurd hcut hnot
  have hfilter : (ws.filter (·.key = some block.data.getMsgID)).Perm
      ((List.range (block.lastNumber size + 1)).map (block.fragmentAt size)) := by
    rw [← filter_sentFragments (TunnelGatewayBuffer.init tunnelID) hids hsize]
    exact hws.filter _
  by_cases hneed : CutNeedlessly ((TunnelGatewayBuffer.init tunnelID).putAll env pre) block
  · have hle : block.data.getLength ≤ size := by
      by_contra hgt
      exact hlt.mp (by omega) hneed
    -- a single fragment has only one order
    have hone : ws.filter (·.key = some block.data.getMsgID) = block.fragments size := by
      have hlast : block.lastNumber size = 0 := by
        simp only [TunnelMessageBlock.lastNumber]
        omega
      rw [block.fragments_eq]
      rw [hlast] at hfilter ⊢
      exact List.perm_singleton.mp hfilter
    constructor
    · intro h
      exact absurd h (not_reassembled_of_length_le hle hid hrep hone)
    · rintro ⟨-, hnot, -⟩
      exact absurd hneed hnot
  · obtain ⟨ks, hks, hksperm⟩ : ∃ ks : List ℕ,
        ws.filter (·.key = some block.data.getMsgID) = ks.map (block.fragmentAt size) ∧
          ks.Perm (List.range (block.lastNumber size + 1)) := by
      have hmap : List.Forall₂ (fun w k => w = block.fragmentAt size k)
          ((List.range (block.lastNumber size + 1)).map (block.fragmentAt size))
          (List.range (block.lastNumber size + 1)) := by
        rw [List.forall₂_map_left_iff, List.forall₂_same]
        exact fun _ _ => rfl
      obtain ⟨ks, hforall, hperm'⟩ := List.perm_comp_forall₂ hfilter hmap
      refine ⟨ks, ?_, hperm'⟩
      rw [← List.forall₂_eq_eq_eq, List.forall₂_map_right_iff]
      exact hforall
    have horder : arrivalOrder env.sha256 block.data.getMsgID msgs = ks := by
      refine arrivalOrder_eq hrep (fun k hk => ?_) hks
      have hrange := List.mem_range.mp (hksperm.mem_iff.mp hk)
      have hlast := lastNumber_lt hblock size
      omega
    rw [reassembled_iff_lateByAtMost hblock (hlt.mpr hneed) hid hrep hks hksperm, horder]
    exact ⟨fun h => ⟨hid, hneed, h⟩, fun h => h.2.2⟩

/-! ## Two orders of the same messages -/

/-- Tunnel data messages that arrive in order bring the fragments of a cut block in order. -/
theorem arrivalOrder_of_carries {env : GatewayEnv} {tunnelID : UInt32}
    {pre post : List TunnelMessageBlock} {block : TunnelMessageBlock} {size : ℕ}
    (hsend : ∀ b ∈ pre ++ block :: post, Sendable b)
    (hids : ∀ b ∈ pre ++ post, b.data.getMsgID ≠ block.data.getMsgID)
    (hsize : ((TunnelGatewayBuffer.init tunnelID).putAll env pre).firstFragmentSize env block =
      some size)
    {msgs : List I2NPMessage}
    (hcarries : List.Forall₂ Carries msgs
      (tunnelDataMsgsOf env tunnelID (pre ++ block :: post))) :
    arrivalOrder env.sha256 block.data.getMsgID msgs =
      List.range (block.lastNumber size + 1) := by
  refine arrivalOrder_eq (represents_of_carries hsend hcarries) (fun k hk => ?_)
    (filter_sentFragments _ hids hsize)
  have hlast := lastNumber_lt (hsend block (by simp)) size
  have hlt := List.mem_range.mp hk
  omega

/-- A tunnel data message that is filled by one fragment carries no other one, so the reversed
messages bring the reversed fragments. -/
theorem flatten_reverse_of_full {wss : List (List WireFragment)}
    (hlen : ∀ ws ∈ wss, (WireFragment.encodeAll ws).length ≤ tunnelDataMaxPayloadSize)
    (hfull : ∀ w ∈ wss.flatten.dropLast, w.encode.length = tunnelDataMaxPayloadSize) :
    wss.reverse.flatten = wss.flatten.reverse := by
  induction wss with
  | nil => rfl
  | cons ws wss ih =>
    have hrest : ∀ w ∈ wss.flatten.dropLast, w.encode.length = tunnelDataMaxPayloadSize := by
      intro w hw
      refine hfull w ?_
      rw [List.flatten_cons, List.dropLast_append_of_ne_nil]
      · exact List.mem_append_right ws hw
      · rintro hnil
        simp [hnil] at hw
    have htail := ih (fun vs hvs => hlen vs (List.mem_cons_of_mem _ hvs)) hrest
    simp only [List.reverse_cons, List.flatten_append, htail, List.flatten_cons, List.flatten_nil,
      List.append_nil, List.reverse_append]
    congr 1
    match ws with
    | [] => rfl
    | [w] => rfl
    | w :: v :: ws =>
      -- there is no room for a second fragment
      have hw := hfull w (by simp)
      have hsum := hlen (w :: v :: ws) (by simp)
      have hv := v.length_encode
      simp only [WireFragment.encodeAll, List.flatMap_cons, List.length_append] at hsum
      omega

theorem length_le_of_encodes {env : GatewayEnv} {tunnelID : UInt32} {wires : List (List UInt8)}
    {wss : List (List WireFragment)} (h : List.Forall₂ (Encodes env tunnelID) wires wss) :
    ∀ ws ∈ wss, (WireFragment.encodeAll ws).length ≤ tunnelDataMaxPayloadSize := by
  induction h with
  | nil => simp
  | cons hone _ ih =>
    intro ws hws
    rcases List.mem_cons.mp hws with rfl | hws
    · exact hone.1
    · exact ih ws hws

theorem firstFragmentSize_constantBlock :
    (TunnelGatewayBuffer.init 7).firstFragmentSize quietEnv (constantBlock 1 2000) = some 996 := by
  rw [firstFragmentSize_of_current_eq_none _ rfl]
  decide

theorem reassembled_constantBlock :
    Reassembled (constantBlock 1 2000) (TunnelEndpoint.init.handleAll quietEnv.sha256
      ((tunnelDataMsgsOf quietEnv 7 [constantBlock 1 2000]).map arrival)) := by
  have hsend : ∀ b ∈ [] ++ constantBlock 1 2000 :: [], Sendable b := by
    simpa using sendable_constantBlock 1 (by decide)
  have horder := arrivalOrder_of_carries hsend (by simp) firstFragmentSize_constantBlock
    (carries_arrival _)
  refine (reassembled_iff_of_perm quietEnv 7 hsend (by simp) (Or.inl (by decide))
    (List.Perm.refl _) (carries_arrival _)).mpr ⟨by decide, ?_, ?_⟩
  · exact fun h => h.1 rfl
  · rw [horder]
    exact (retainAll_eq_range_iff (List.Perm.refl _)).mp (retainAll_range 1 _)

/-- Three fragments in reverse order: the second one is lost. -/
theorem not_reassembled_reverse :
    IsCut (TunnelGatewayBuffer.init 7) (constantBlock 1 2000) ∧
      ¬ Reassembled (constantBlock 1 2000) (TunnelEndpoint.init.handleAll quietEnv.sha256
        ((tunnelDataMsgsOf quietEnv 7 [constantBlock 1 2000]).reverse.map arrival)) := by
  refine ⟨Or.inl (by decide), ?_⟩
  have hsend : ∀ b ∈ [constantBlock 1 2000], Sendable b := by
    simpa using sendable_constantBlock 1 (by decide)
  have hblock := hsend _ (List.mem_singleton_self _)
  obtain ⟨wss, hencodes, hflat⟩ := encodes_tunnelDataMsgsOf quietEnv 7 [constantBlock 1 2000]
  have hsent : (TunnelGatewayBuffer.init 7).sentFragments quietEnv [constantBlock 1 2000] =
      [0, 1, 2].map ((constantBlock 1 2000).fragmentAt 996) := by
    rw [sentFragments, wireFragments, firstFragmentSize_constantBlock]
    exact (List.append_nil _).trans ((constantBlock 1 2000).fragments_eq 996)
  have hwf := wellFormed_sentFragments hsend (sends_init quietEnv 7)
  rw [hsent] at hflat hwf
  have hfull : ∀ w ∈ wss.flatten.dropLast, w.encode.length = tunnelDataMaxPayloadSize := by
    intro w hw
    have hw' : w = (constantBlock 1 2000).fragmentAt 996 0 ∨
        w = (constantBlock 1 2000).fragmentAt 996 1 := by
      simpa [hflat] using hw
    rcases hw' with rfl | rfl
    all_goals
      rw [WireFragment.length_encode, TunnelMessageBlock.data_fragmentAt]
      simp only [TunnelMessageBlock.chunk, length_slice]
      rfl
  have hreverse : wss.reverse.flatten =
      [2, 1, 0].map ((constantBlock 1 2000).fragmentAt 996) := by
    rw [flatten_reverse_of_full (length_le_of_encodes hencodes) hfull, hflat]
    rfl
  have hrep : List.Forall₂ Represents ([2, 1, 0].map ((constantBlock 1 2000).fragmentAt 996))
      (((tunnelDataMsgsOf quietEnv 7 [constantBlock 1 2000]).reverse.map arrival).flatMap
        (TunnelEndpoint.received quietEnv.sha256)) := by
    rw [← hreverse]
    refine represents_of_encodes (fun ws hws w hw => hwf w ?_)
      (List.forall₂_reverse_iff.mpr hencodes) (carries_arrival _)
    rw [← hflat]
    exact List.mem_flatten.mpr ⟨ws, List.mem_reverse.mp hws, hw⟩
  have hiff := reassembled_iff_lateByAtMost hblock (show 996 < _ by decide) (by decide) hrep
    (show _ = [2, 1, 0].map _ from rfl) (by decide)
  rw [handleAll_eq_handleFragments, hiff]
  intro hlate
  exact absurd (hlate [2, 1] 0 [] rfl) (by decide)

end Tunnel
