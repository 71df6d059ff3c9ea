import Xi2p.Lib.Runs
import Xi2p.Tunnel.RoundTrip

/-!
# Buffers of incomplete tunnel messages

A follow-on fragment is appended only if the message stays below the maximal size; a saved fragment
that is appended right after it is not checked.

* `appended`: the message after each append that a fragment causes.
* `SavedFits`: the saved fragment that is appended with it fits a full-size buffer too.
* `appendsInside_iff_savedFits`: every run stays inside its buffers exactly if this holds for all
  its fragments.
-/

namespace Tunnel

open Bytes I2NP TunnelDeliveryType

/-- `CreateEmptyTunnelDataMsg`. -/
def createEmptyTunnelDataMsg : I2NPMessage :=
  let msg := I2NPMessage.newI2NPShortMessage
  { msg with len := msg.len + tunnelDataMsgSize }

/-- A tunnel data message as the owners of an endpoint hand it over: a message made by
`CreateEmptyTunnelDataMsg`, with any contents. -/
def IsTunnelDataMsg (msg : I2NPMessage) : Prop :=
  msg = { createEmptyTunnelDataMsg with buf := msg.buf }

namespace TunnelEndpoint

/-! ## What is appended -/

/-- The message after `HandleOutOfSequenceFragment` has appended the saved fragment, if it does. -/
def appendedSaved (ep : TunnelEndpoint) (msgID : UInt32) (msg : TunnelMessageBlockEx) :
    List I2NPMessage :=
  match ep.outOfSequenceFragments msgID with
  | none => []
  | some fragment =>
    if fragment.fragmentNum = msg.nextFragmentNum then [(concatenate msg fragment.data).data] else []

/-- The message block of a first fragment. -/
def started (di : DeliveryInstructions) (data : I2NPMessage) : TunnelMessageBlockEx :=
  { deliveryType := di.deliveryType
    hash := di.hash
    tunnelID := di.tunnelID
    data
    nextFragmentNum := 1 }

/-- The incomplete message `msg` with a follow-on fragment, and with the next number. -/
def extended (msg : TunnelMessageBlockEx) (data : I2NPMessage) : TunnelMessageBlockEx :=
  { concatenate msg data with nextFragmentNum := msg.nextFragmentNum + 1 }

/-- The message after each append of `HandleFollowOnFragment` and `HandleOutOfSequenceFragment` that
a fragment causes. -/
def appended (ep : TunnelEndpoint) (f : DeliveryInstructions × I2NPMessage) : List I2NPMessage :=
  let di := f.1
  if !di.isFollowOnFragment && di.isLastFragment then []
  else if di.msgID = 0 then []
  else
    match ep.incompleteMessages di.msgID with
    | some msg =>
      if di.isFollowOnFragment ∧ di.fragmentNum = msg.nextFragmentNum ∧
          msg.data.len + f.2.getLength < maxMessageSize then
        (extended msg f.2).data ::
          if di.isLastFragment then [] else ep.appendedSaved di.msgID (extended msg f.2)
      else []
    | none =>
      if di.isFollowOnFragment then []
      else ep.appendedSaved di.msgID (started di f.2)

/-- Nothing is written behind the end of a buffer. -/
def AppendsInside (ep : TunnelEndpoint) (f : DeliveryInstructions × I2NPMessage) : Prop :=
  ∀ m ∈ ep.appended f, m.Inside

/-- If a follow-on fragment is appended and the saved fragment of the message is next behind it, the
message with both fits a full-size buffer. -/
def SavedFits (ep : TunnelEndpoint) (f : DeliveryInstructions × I2NPMessage) : Prop :=
  ∀ msg ∈ ep.incompleteMessages f.1.msgID, ∀ saved ∈ ep.outOfSequenceFragments f.1.msgID,
    f.1.msgID ≠ 0 → f.1.isFollowOnFragment → f.1.isLastFragment = false →
    f.1.fragmentNum = msg.nextFragmentNum → msg.data.len + f.2.getLength < maxMessageSize →
    saved.fragmentNum = msg.nextFragmentNum + 1 →
      msg.data.getLength + f.2.getLength + saved.data.getLength ≤ maxMessageSize + 14

/-- All incomplete messages have the property `P`. -/
def Entries (P : I2NPMessage → Prop) (ep : TunnelEndpoint) : Prop :=
  ∀ msgID msg, ep.incompleteMessages msgID = some msg → P msg.data

/-- Saved fragments are not longer than a tunnel data message allows. -/
def SavedShort (ep : TunnelEndpoint) : Prop :=
  ∀ msgID fragment, ep.outOfSequenceFragments msgID = some fragment →
    fragment.data.getLength ≤ tunnelDataMaxPayloadSize

variable {ep : TunnelEndpoint} {P : I2NPMessage → Prop}

/-! ## One fragment -/

theorem Entries.setIncomplete (h : Entries P ep) (msgID : UInt32) {msg : TunnelMessageBlockEx}
    (hmsg : P msg.data) : Entries P (ep.setIncomplete msgID msg) := by
  intro id m hm
  by_cases hid : id = msgID
  · subst hid
    have hself : (ep.setIncomplete id msg).incompleteMessages id = some msg :=
      Function.update_self ..
    rw [hself, Option.some.injEq] at hm
    rwa [← hm]
  · have hother : (ep.setIncomplete msgID msg).incompleteMessages id = ep.incompleteMessages id :=
      Function.update_of_ne hid ..
    rw [hother] at hm
    exact h id m hm

theorem Entries.eraseIncomplete (h : Entries P ep) (msgID : UInt32) :
    Entries P (ep.eraseIncomplete msgID) := by
  intro id m hm
  by_cases hid : id = msgID
  · subst hid
    have hself : (ep.eraseIncomplete id).incompleteMessages id = none := Function.update_self ..
    rw [hself] at hm
    cases hm
  · have hother : (ep.eraseIncomplete msgID).incompleteMessages id = ep.incompleteMessages id :=
      Function.update_of_ne hid ..
    rw [hother] at hm
    exact h id m hm

theorem incompleteMessages_handleNextMessage (ep : TunnelEndpoint) (key : Option UInt32)
    (msg : TunnelMessageBlock) :
    (ep.handleNextMessage key msg).incompleteMessages = ep.incompleteMessages := by
  unfold handleNextMessage
  split <;> rfl

theorem outOfSequenceFragments_handleNextMessage (ep : TunnelEndpoint) (key : Option UInt32)
    (msg : TunnelMessageBlock) :
    (ep.handleNextMessage key msg).outOfSequenceFragments = ep.outOfSequenceFragments := by
  unfold handleNextMessage
  split <;> rfl

theorem Entries.handleOutOfSequenceFragment (h : Entries P ep) (msgID : UInt32)
    {msg : TunnelMessageBlockEx} (hall : ∀ m ∈ ep.appendedSaved msgID msg, P m) :
    Entries P (ep.handleOutOfSequenceFragment msgID msg) := by
  unfold TunnelEndpoint.handleOutOfSequenceFragment
  unfold appendedSaved at hall
  cases hsaved : ep.outOfSequenceFragments msgID with
  | none => exact h
  | some fragment =>
    rw [hsaved] at hall
    dsimp only at hall ⊢
    split
    next heq =>
      rw [if_pos heq] at hall
      have hmsg := hall _ List.mem_cons_self
      split
      · apply Entries.eraseIncomplete
        intro id m hm
        rw [incompleteMessages_handleNextMessage] at hm
        exact h id m hm
      · exact h.setIncomplete msgID hmsg
    next => exact h

/-- A follow-on fragment that makes the message too long. -/
theorem handleFollowOnFragment_tooLong {msgID : UInt32} {msg m : TunnelMessageBlockEx}
    (hinc : ep.incompleteMessages msgID = some msg)
    (hnum : m.nextFragmentNum = msg.nextFragmentNum)
    (hlen : ¬ msg.data.len + m.data.getLength < maxMessageSize) (isLast : Bool) (pos : ℕ) :
    (ep.handleFollowOnFragment msgID isLast m pos).val = ep.eraseIncomplete msgID := by
  simp only [handleFollowOnFragment, hinc, hnum, hlen, if_true, if_false]
  rfl

/-- The message of the fragment `f` waits for it, and does not become too long. -/
def IsNext (ep : TunnelEndpoint) (f : DeliveryInstructions × I2NPMessage)
    (msg : TunnelMessageBlockEx) : Prop :=
  ep.incompleteMessages f.1.msgID = some msg ∧ f.1.msgID ≠ 0 ∧ f.1.isFollowOnFragment = true ∧
    f.1.fragmentNum = msg.nextFragmentNum ∧ msg.data.len + f.2.getLength < maxMessageSize

/-- What a fragment can do, and what it appends. -/
theorem handleFragment_cases (ep : TunnelEndpoint) (f : DeliveryInstructions × I2NPMessage) :
    ((ep.handleFragment f.1 f.2).val.incompleteMessages = ep.incompleteMessages ∧
        (ep.handleFragment f.1 f.2).val.outOfSequenceFragments = ep.outOfSequenceFragments ∧
        ep.appended f = []) ∨
      ((ep.handleFragment f.1 f.2).val = ep.addOutOfSequenceFragment f.1.msgID f.1.fragmentNum
          f.1.isLastFragment f.2 ∧ ep.appended f = []) ∨
      ((ep.handleFragment f.1 f.2).val = ep.eraseIncomplete f.1.msgID ∧ ep.appended f = []) ∨
      (∃ msg, ep.IsNext f msg ∧ f.1.isLastFragment = true ∧
        (ep.handleFragment f.1 f.2).val = (ep.handleNextMessage (some f.1.msgID)
          (concatenate msg f.2).toTunnelMessageBlock).eraseIncomplete f.1.msgID ∧
        ep.appended f = [(extended msg f.2).data]) ∨
      (∃ msg, ep.IsNext f msg ∧ f.1.isLastFragment = false ∧
        (ep.handleFragment f.1 f.2).val =
          (ep.setIncomplete f.1.msgID (extended msg f.2)).handleOutOfSequenceFragment f.1.msgID
            (extended msg f.2) ∧
        ep.appended f =
          (extended msg f.2).data :: ep.appendedSaved f.1.msgID (extended msg f.2)) ∨
      (∃ msg : TunnelMessageBlockEx, msg.data = f.2 ∧
        (ep.handleFragment f.1 f.2).val =
          (ep.setIncomplete f.1.msgID msg).handleOutOfSequenceFragment f.1.msgID msg ∧
        ep.appended f = ep.appendedSaved f.1.msgID msg) := by
  obtain ⟨di, data⟩ := f
  unfold appended handleFragment IsNext
  dsimp only
  by_cases hwhole : (!di.isFollowOnFragment && di.isLastFragment) = true
  · rw [if_pos hwhole, if_pos hwhole, Traced.val_bind, Traced.val_pure,
      incompleteMessages_handleNextMessage, outOfSequenceFragments_handleNextMessage]
    exact Or.inl ⟨rfl, rfl, rfl⟩
  rw [if_neg hwhole, if_neg hwhole]
  by_cases hid : di.msgID = 0
  · rw [if_pos hid, if_pos hid]
    exact Or.inl ⟨rfl, rfl, rfl⟩
  rw [if_neg hid, if_neg hid]
  cases hfollow : di.isFollowOnFragment with
  | false =>
    -- a first fragment
    simp only [Bool.false_eq_true, if_false, false_and]
    cases hinc : ep.incompleteMessages di.msgID with
    | some msg => exact Or.inl ⟨rfl, rfl, rfl⟩
    | none =>
      refine Or.inr (Or.inr (Or.inr (Or.inr (Or.inr ⟨?_, ?_, ?_, ?_⟩))))
      · exact started di data
      · rfl
      · rfl
      · rfl
  | true =>
    simp only [if_true, true_and]
    cases hinc : ep.incompleteMessages di.msgID with
    | none =>
      right; left
      refine ⟨?_, rfl⟩
      apply handleFollowOnFragment_save
      intro msg hmsg
      rw [hinc] at hmsg
      cases hmsg
    | some msg =>
      dsimp only
      by_cases hnum : di.fragmentNum = msg.nextFragmentNum
      · by_cases hlen : msg.data.len + data.getLength < maxMessageSize
        · rw [if_pos ⟨hnum, hlen⟩]
          cases hlast : di.isLastFragment with
          | true =>
            refine Or.inr (Or.inr (Or.inr (Or.inl ⟨msg, ⟨rfl, hid, hnum, hlen⟩, rfl, ?_, rfl⟩)))
            exact handleFollowOnFragment_next hinc hnum hlen true di.pos
          | false =>
            refine Or.inr (Or.inr (Or.inr (Or.inr (Or.inl
              ⟨msg, ⟨rfl, hid, hnum, hlen⟩, rfl, ?_, rfl⟩))))
            exact handleFollowOnFragment_next hinc hnum hlen false di.pos
        · rw [if_neg fun h => hlen h.2]
          refine Or.inr (Or.inr (Or.inl ⟨?_, rfl⟩))
          exact handleFollowOnFragment_tooLong hinc hnum hlen _ _
      · rw [if_neg fun h => hnum h.1]
        refine Or.inr (Or.inl ⟨?_, rfl⟩)
        apply handleFollowOnFragment_save
        intro msg' hmsg'
        rw [hinc, Option.some.injEq] at hmsg'
        exact hmsg' ▸ hnum

/-- A property of the fragment itself and of all messages that have been appended to is a property
of all incomplete messages. -/
theorem Entries.handleFragment (h : Entries P ep) {f : DeliveryInstructions × I2NPMessage}
    (hdata : P f.2) (hall : ∀ m ∈ ep.appended f, P m) :
    Entries P (ep.handleFragment f.1 f.2).val := by
  rcases handleFragment_cases ep f with ⟨hinc, -, -⟩ | ⟨hval, -⟩ | ⟨hval, -⟩ |
    ⟨msg, -, -, hval, happ⟩ | ⟨msg, -, -, hval, happ⟩ | ⟨msg, hmsg, hval, happ⟩
  · intro id m hm
    rw [hinc] at hm
    exact h id m hm
  · rw [hval]
    unfold addOutOfSequenceFragment
    split
    · exact h
    · exact h
  · rw [hval]
    exact h.eraseIncomplete _
  · rw [hval]
    apply Entries.eraseIncomplete
    intro id m hm
    rw [incompleteMessages_handleNextMessage] at hm
    exact h id m hm
  · rw [happ, List.forall_mem_cons] at hall
    rw [hval]
    exact (h.setIncomplete _ hall.1).handleOutOfSequenceFragment _ hall.2
  · rw [happ] at hall
    rw [hval]
    exact (h.setIncomplete _ (hmsg ▸ hdata)).handleOutOfSequenceFragment _ hall

theorem SavedShort.handleOutOfSequenceFragment (h : SavedShort ep) (msgID : UInt32)
    (msg : TunnelMessageBlockEx) : SavedShort (ep.handleOutOfSequenceFragment msgID msg) := by
  unfold TunnelEndpoint.handleOutOfSequenceFragment
  cases hsaved : ep.outOfSequenceFragments msgID with
  | none => exact h
  | some fragment =>
    dsimp only
    split
    next =>
      intro id fr hfr
      have herase : ∀ ep' : TunnelEndpoint, ep'.outOfSequenceFragments = ep.outOfSequenceFragments →
          (ep'.eraseOutOfSequence msgID).outOfSequenceFragments id = some fr →
          ep.outOfSequenceFragments id = some fr := by
        intro ep' heq hsome
        by_cases hid : id = msgID
        · subst hid
          have hself : (ep'.eraseOutOfSequence id).outOfSequenceFragments id = none :=
            Function.update_self ..
          rw [hself] at hsome
          cases hsome
        · have hother : (ep'.eraseOutOfSequence msgID).outOfSequenceFragments id =
              ep'.outOfSequenceFragments id := Function.update_of_ne hid ..
          rw [hother, heq] at hsome
          exact hsome
      apply h id fr
      split at hfr
      · exact herase _ (outOfSequenceFragments_handleNextMessage ep _ _) hfr
      · exact herase _ rfl hfr
    next => exact h

theorem SavedShort.handleFragment (h : SavedShort ep) {f : DeliveryInstructions × I2NPMessage}
    (hdata : f.2.getLength ≤ tunnelDataMaxPayloadSize) :
    SavedShort (ep.handleFragment f.1 f.2).val := by
  rcases handleFragment_cases ep f with ⟨-, hsaved, -⟩ | ⟨hval, -⟩ | ⟨hval, -⟩ |
    ⟨msg, -, -, hval, -⟩ | ⟨msg, -, -, hval, -⟩ | ⟨msg, -, hval, -⟩
  · intro id fr hfr
    rw [hsaved] at hfr
    exact h id fr hfr
  · rw [hval]
    unfold addOutOfSequenceFragment
    split
    · exact h
    · intro id fr hfr
      dsimp only at hfr
      by_cases hid : id = f.1.msgID
      · subst hid
        rw [Function.update_self, Option.some.injEq] at hfr
        rw [← hfr]
        exact hdata
      · rw [Function.update_of_ne hid] at hfr
        exact h id fr hfr
  · rw [hval]
    exact h
  · rw [hval]
    intro id fr hfr
    have hsame : ((ep.handleNextMessage (some f.1.msgID)
        (concatenate msg f.2).toTunnelMessageBlock).eraseIncomplete
          f.1.msgID).outOfSequenceFragments = ep.outOfSequenceFragments :=
      outOfSequenceFragments_handleNextMessage ep _ _
    rw [hsame] at hfr
    exact h id fr hfr
  · have hset : SavedShort (ep.setIncomplete f.1.msgID (extended msg f.2)) := h
    rw [hval]
    exact hset.handleOutOfSequenceFragment _ _
  · have hset : SavedShort (ep.setIncomplete f.1.msgID msg) := h
    rw [hval]
    exact hset.handleOutOfSequenceFragment _ _

/-! ## When the appends stay inside -/

/-- The message with a follow-on fragment. -/
theorem growing_extended {msg : TunnelMessageBlockEx} (h : msg.data.Growing) (data : I2NPMessage) :
    (extended msg data).data.Growing := h.append _ _ _

theorem getLength_extended {msg : TunnelMessageBlockEx} (h : msg.data.Growing)
    (data : I2NPMessage) :
    (extended msg data).data.getLength = msg.data.getLength + data.getLength :=
  I2NPMessage.getLength_reserve_append h.offset_le _ _ _

/-- The check of `HandleFollowOnFragment` is enough for its own append. -/
theorem inside_extended {msg : TunnelMessageBlockEx} (h : msg.data.Growing) {data : I2NPMessage}
    (hlen : msg.data.len + data.getLength < maxMessageSize) : (extended msg data).data.Inside := by
  apply (h.inside_append_iff _ _ _).mpr
  simp only [I2NPMessage.getLength] at *
  omega

theorem growing_of_mem_appendedSaved {msgID : UInt32} {msg : TunnelMessageBlockEx}
    (h : msg.data.Growing) {m : I2NPMessage} (hm : m ∈ ep.appendedSaved msgID msg) : m.Growing := by
  unfold appendedSaved at hm
  split at hm
  · cases hm
  · split at hm
    · rw [List.mem_singleton.mp hm]
      exact h.append _ _ _
    · cases hm

theorem growing_of_mem_appended (hep : Entries I2NPMessage.Growing ep)
    {f : DeliveryInstructions × I2NPMessage} (hdata : f.2.Growing) {m : I2NPMessage}
    (hm : m ∈ ep.appended f) : m.Growing := by
  rcases handleFragment_cases ep f with ⟨-, -, happ⟩ | ⟨-, happ⟩ | ⟨-, happ⟩ |
    ⟨msg, hnext, -, -, happ⟩ | ⟨msg, hnext, -, -, happ⟩ | ⟨msg, hmsg, -, happ⟩
  · simp [happ] at hm
  · simp [happ] at hm
  · simp [happ] at hm
  · rw [happ, List.mem_singleton] at hm
    rw [hm]
    exact growing_extended (hep _ msg hnext.1) _
  · rw [happ] at hm
    have hext := growing_extended (hep _ msg hnext.1) f.2
    rcases List.mem_cons.mp hm with rfl | hm
    · exact hext
    · exact growing_of_mem_appendedSaved hext hm
  · rw [happ] at hm
    exact growing_of_mem_appendedSaved (hmsg ▸ hdata) hm

/-- What a fragment of the run must look like: it lies in a short buffer, and is not longer than a
tunnel data message allows. -/
structure IsShort (f : DeliveryInstructions × I2NPMessage) : Prop where
  growing : f.2.Growing
  inside : f.2.Inside
  length_le : f.2.getLength ≤ tunnelDataMaxPayloadSize

/-- One fragment: its appends stay inside exactly if the saved fragment fits. -/
theorem appendsInside_iff (hep : Entries I2NPMessage.Growing ep) (hsaved : SavedShort ep)
    {f : DeliveryInstructions × I2NPMessage} (hf : IsShort f) :
    ep.AppendsInside f ↔ ep.SavedFits f := by
  constructor
  · intro h msg hmsg saved hfr hid hfollow hlast hnum hlen hnext
    have hgrowing := hep _ msg hmsg
    have happ : (concatenate (extended msg f.2) saved.data).data ∈ ep.appended f := by
      unfold appended
      rw [if_neg (by simp [hfollow]), if_neg hid, hmsg]
      dsimp only
      rw [if_pos ⟨hfollow, hnum, hlen⟩, hlast, if_neg (by decide)]
      apply List.mem_cons_of_mem
      unfold appendedSaved
      rw [hfr]
      dsimp only
      rw [if_pos (by exact hnext)]
      exact List.mem_singleton_self _
    have hfits := ((growing_extended hgrowing f.2).inside_append_iff _ _ _).mp (h _ happ)
    rwa [getLength_extended hgrowing] at hfits
  · intro h m hm
    rcases handleFragment_cases ep f with ⟨-, -, happ⟩ | ⟨-, happ⟩ | ⟨-, happ⟩ |
      ⟨msg, hnext, -, -, happ⟩ | ⟨msg, hnext, hlast, -, happ⟩ | ⟨msg, hmsg, -, happ⟩
    · simp [happ] at hm
    · simp [happ] at hm
    · simp [happ] at hm
    · rw [happ, List.mem_singleton] at hm
      rw [hm]
      exact inside_extended (hep _ msg hnext.1) hnext.2.2.2.2
    · obtain ⟨hinc, hid, hfollow, hnum, hlen⟩ := hnext
      have hgrowing := hep _ msg hinc
      rw [happ] at hm
      rcases List.mem_cons.mp hm with rfl | hm
      · exact inside_extended hgrowing hlen
      · unfold appendedSaved at hm
        cases hfr : ep.outOfSequenceFragments f.1.msgID with
        | none => simp [hfr] at hm
        | some saved =>
          rw [hfr] at hm
          dsimp only at hm
          split at hm
          next heq =>
            rw [List.mem_singleton.mp hm]
            apply ((growing_extended hgrowing f.2).inside_append_iff _ _ _).mpr
            rw [getLength_extended hgrowing]
            exact h msg hinc saved hfr hid hfollow hlast hnum hlen heq
          next => cases hm
    · -- a first fragment and a saved one are far from the limit
      rw [happ] at hm
      unfold appendedSaved at hm
      cases hfr : ep.outOfSequenceFragments f.1.msgID with
      | none => simp [hfr] at hm
      | some saved =>
        rw [hfr] at hm
        dsimp only at hm
        split at hm
        next =>
          rw [List.mem_singleton.mp hm]
          have hgrowing : msg.data.Growing := hmsg ▸ hf.growing
          apply (hgrowing.inside_append_iff _ _ _).mpr
          have hshort := hsaved _ saved hfr
          have hlen := hf.length_le
          rw [hmsg]
          simp only [tunnelDataMaxPayloadSize, maxMessageSize] at *
          omega
        next => cases hm

/-! ## Runs -/

/-- The rest of the loop body of `HandleDecryptedTunnelDataMsg`. -/
def takeFragment (ep : TunnelEndpoint) (f : DeliveryInstructions × I2NPMessage) : TunnelEndpoint :=
  (ep.handleFragment f.1 f.2).val

theorem pos_readFirstInstructions_le (buf : Mem) (flag : UInt8) (pos : ℕ) :
    (readFirstInstructions buf flag pos).val.pos ≤ pos + 42 := by
  have hsize : destinationSize (ofCode ((flag >>> 5) &&& 0x03).toNat) ≤ 36 := by
    cases ofCode ((flag >>> 5) &&& 0x03).toNat <;> decide
  simp only [readFirstInstructions, Traced.val_bind]
  split <;> simp only [Traced.val_bind, Traced.val_pure] <;> omega

theorem pos_readInstructions_le (buf : Mem) (pos : ℕ) :
    (readInstructions buf pos).val.pos ≤ pos + 43 := by
  have hfirst := pos_readFirstInstructions_le buf (buf pos) (pos + 1)
  have hfollow : (readFollowOnInstructions buf (buf pos) (pos + 1)).val.pos ≤ pos + 1 + 42 := by
    simp only [readFollowOnInstructions, Traced.val_bind, Traced.val_pure]
    omega
  by_cases hflag : buf pos &&& 0x80 = 0
  · simp only [readInstructions, Traced.val_bind, Traced.val_readByte, hflag, if_true]
    omega
  · simp only [readInstructions, Traced.val_bind, Traced.val_readByte, hflag, if_false]
    omega

/-- A fragment of a tunnel data message in a short buffer. -/
theorem isShort_fragmentData {msg : I2NPMessage} {stop : ℕ} {di : DeliveryInstructions}
    (hcap : msg.capacity = maxShortMessageSize + 16) (hmax : msg.maxLen = maxShortMessageSize)
    (hpos : 2 ≤ di.pos) (hend : di.pos ≤ 1500) (hsize : di.size ≤ tunnelDataMaxPayloadSize) :
    IsShort (di, fragmentData msg stop di) := by
  simp only [tunnelDataMaxPayloadSize] at hsize
  have hlength : (fragmentData msg stop di).getLength ≤ tunnelDataMaxPayloadSize := by
    have hbytes := congrArg List.length (bytes_fragmentData msg stop di)
    rw [I2NPMessage.length_bytes, length_slice] at hbytes
    rw [hbytes]
    exact hsize
  unfold fragmentData at *
  by_cases hcopy : di.pos + di.size < stop
  · rw [if_pos hcopy] at hlength ⊢
    have hlen : (newFragmentMessage.assign (window msg di.pos di.size)).len = 8 + di.size := by
      simp only [I2NPMessage.assign, getLength_window]
      rfl
    refine ⟨⟨hmax, ?_, ?_, Or.inl ⟨rfl, ?_⟩⟩, ?_, hlength⟩
    · show 2 ≤ 8
      omega
    · rw [hlen]
      exact Nat.le_add_right 8 _
    · rw [hlen]
      simp only [maxShortMessageSize]
      omega
    · show (newFragmentMessage.assign (window msg di.pos di.size)).len ≤ 4112
      rw [hlen]
      omega
  · rw [if_neg hcopy] at hlength ⊢
    refine ⟨⟨hmax, hpos, Nat.le_add_right _ _, Or.inl ⟨hcap, ?_⟩⟩, ?_, hlength⟩
    · show di.pos + di.size ≤ maxShortMessageSize
      simp only [maxShortMessageSize]
      omega
    · show di.pos + di.size ≤ msg.capacity
      rw [hcap]
      simp only [maxShortMessageSize]
      omega

/-- All fragments of a tunnel data message that respect the size are short. -/
theorem isShort_of_mem_fragmentsFrom {msg : I2NPMessage} {stop pos : ℕ}
    (hcap : msg.capacity = maxShortMessageSize + 16) (hmax : msg.maxLen = maxShortMessageSize)
    (hpos : 2 ≤ pos) (hstop : stop ≤ 1400) {f : DeliveryInstructions × I2NPMessage}
    (hf : f ∈ fragmentsFrom msg stop pos) (hsize : f.1.size ≤ tunnelDataMaxPayloadSize) :
    IsShort f := by
  fun_induction fragmentsFrom msg stop pos with
  | case1 pos hlt di ih =>
    have hgt : pos < di.pos := lt_pos_readInstructions msg.buf pos
    have hle : di.pos ≤ pos + 43 := pos_readInstructions_le msg.buf pos
    rcases List.mem_cons.mp hf with rfl | hf
    · exact isShort_fragmentData hcap hmax (by omega) (by omega) hsize
    · exact ih (by omega) hf
  | case2 => cases hf

theorem isShort_of_mem_received {sha256 : List UInt8 → List UInt8} {msg : I2NPMessage}
    (hmsg : IsTunnelDataMsg msg) {f : DeliveryInstructions × I2NPMessage}
    (hf : f ∈ received sha256 msg) (hsize : f.1.size ≤ tunnelDataMaxPayloadSize) : IsShort f := by
  unfold received at hf
  cases hpos : firstFragmentPos msg with
  | none => simp [hpos] at hf
  | some pos =>
    rw [hpos] at hf
    dsimp only at hf
    have hge : 2 ≤ pos := by
      unfold firstFragmentPos at hpos
      obtain ⟨k, -, rfl⟩ := Option.map_eq_some_iff.mp hpos
      omega
    split at hf
    · refine isShort_of_mem_fragmentsFrom ?_ ?_ hge ?_ hf hsize
      · rw [hmsg]
        rfl
      · rw [hmsg]
        rfl
      · rw [hmsg]
        show 2 + 16 + 20 + 1008 ≤ 1400
        omega
    · cases hf

theorem entries_init (P : I2NPMessage → Prop) : Entries P TunnelEndpoint.init := by
  intro msgID msg h
  cases h

theorem savedShort_init : SavedShort TunnelEndpoint.init := by
  intro msgID fragment h
  cases h

/-- In every run of tunnel data messages whose fragments have at most `1003` bytes, all appends and
all states reached stay inside the buffers if and only if every saved fragment that is appended
fits. -/
theorem appendsInside_iff_savedFits (sha256 : List UInt8 → List UInt8) {msgs : List I2NPMessage}
    (hmsgs : ∀ msg ∈ msgs, IsTunnelDataMsg msg)
    (hsize : ∀ f ∈ msgs.flatMap (received sha256), f.1.size ≤ tunnelDataMaxPayloadSize) :
    (Runs.Meets takeFragment AppendsInside TunnelEndpoint.init (msgs.flatMap (received sha256)) ∧
        ∀ pre, pre <+: msgs.flatMap (received sha256) →
          Entries I2NPMessage.Inside (TunnelEndpoint.init.handleFragments pre)) ↔
      Runs.Meets takeFragment SavedFits TunnelEndpoint.init (msgs.flatMap (received sha256)) := by
  have hshort : ∀ f ∈ msgs.flatMap (received sha256), IsShort f := by
    intro f hf
    obtain ⟨msg, hmsg, hmem⟩ := List.mem_flatMap.mp hf
    exact isShort_of_mem_received (hmsgs msg hmsg) hmem (hsize f hf)
  generalize msgs.flatMap (received sha256) = fs at hshort
  have hstep : ∀ ep : TunnelEndpoint, ∀ f ∈ fs,
      Entries I2NPMessage.Growing ep ∧ SavedShort ep →
        Entries I2NPMessage.Growing (ep.takeFragment f) ∧ SavedShort (ep.takeFragment f) := by
    intro ep f hf h
    have hgrow := fun m hm => growing_of_mem_appended h.1 (hshort f hf).growing (m := m) hm
    exact ⟨h.1.handleFragment (hshort f hf).growing hgrow, h.2.handleFragment (hshort f hf).length_le⟩
  have hinit : Entries I2NPMessage.Growing TunnelEndpoint.init ∧ SavedShort TunnelEndpoint.init :=
    ⟨entries_init _, savedShort_init⟩
  have hiff := Runs.meets_iff_of_invariant hstep
    (fun ep f hf h => appendsInside_iff h.1 h.2 (hshort f hf)) hinit
  refine ⟨fun h => hiff.mp h.1, fun h => ⟨hiff.mpr h, ?_⟩⟩
  rintro pre ⟨post, rfl⟩
  have hpre : Runs.Meets takeFragment AppendsInside TunnelEndpoint.init pre :=
    Runs.Meets.of_append (hiff.mpr h)
  have hmeets := hpre.and_of_forall fun f hf => hshort f (List.mem_append_left post hf)
  -- the two invariants go along, since they decide what an append does
  have hall := Runs.invariant_of_meets
    (I := fun ep => (Entries I2NPMessage.Growing ep ∧ SavedShort ep) ∧ Entries I2NPMessage.Inside ep)
    (fun ep f h hf => by
      have hgrow := fun m hm => growing_of_mem_appended h.1.1 hf.2.growing (m := m) hm
      exact ⟨⟨h.1.1.handleFragment hf.2.growing hgrow, h.1.2.handleFragment hf.2.length_le⟩,
        h.2.handleFragment hf.2.inside hf.1⟩)
    ⟨hinit, entries_init _⟩ hmeets
  exact hall.2

/-! ## A message that grows too long -/

/-- A tunnel data message with one fragment. -/
def singleFragmentMsg (w : WireFragment) : I2NPMessage :=
  { createEmptyTunnelDataMsg with
    buf := store (fun _ => 0) 18
      (TunnelGatewayBuffer.tunnelDataMsg quietEnv 7 0 (WireFragment.encodeAll [w])) }

/-- As many bytes as fit a tunnel data message with one fragment of a local message. -/
def largestData : List UInt8 := List.replicate 996 0

theorem length_largestData : largestData.length = 996 := List.length_replicate

/-- The largest fragments of a local message: the first one has the number `0`. -/
def largestFragment (k : ℕ) : WireFragment :=
  if k = 0 then .first deliveryTypeLocal IdentHash.zero 0 1 largestData
  else .followOn 1 k false largestData

theorem length_encode_largestFragment (k : ℕ) :
    (WireFragment.encodeAll [largestFragment k]).length = tunnelDataMaxPayloadSize := by
  unfold largestFragment
  split <;> simp [WireFragment.encodeAll, WireFragment.length_encode, WireFragment.header,
    WireFragment.data, destination, length_writeU32, length_largestData]

theorem data_largestFragment (k : ℕ) : (largestFragment k).data = largestData := by
  unfold largestFragment
  split <;> rfl

theorem wellFormed_largestFragment {k : ℕ} (hk : k < 64) : (largestFragment k).WellFormed := by
  have hlen : largestData.length ≤ tunnelDataMaxPayloadSize := by
    rw [length_largestData]
    decide
  unfold largestFragment
  split
  · exact ⟨hlen, TunnelDeliveryType.noConfusion⟩
  · exact ⟨hlen, hk⟩

theorem exists_received_largestFragment {k : ℕ} (hk : k < 64) :
    ∃ f, received quietEnv.sha256 (singleFragmentMsg (largestFragment k)) = [f] ∧
      Represents (largestFragment k) f ∧ f.1.size = 996 ∧ IsShort f := by
  have hlen := length_encode_largestFragment k
  have hcarries : Carries (singleFragmentMsg (largestFragment k))
      (TunnelGatewayBuffer.tunnelDataMsg quietEnv 7 0
        (WireFragment.encodeAll [largestFragment k])) := by
    have hroom : 18 + 1028 ≤ 4096 := by decide
    exact ⟨slice_store_self _ 18 _, hroom, le_refl _⟩
  have hformed : ∀ w ∈ [largestFragment k], w.WellFormed := by
    intro w hw
    rw [List.mem_singleton] at hw
    rw [hw]
    exact wellFormed_largestFragment hk
  have hread := received_of_carries hformed hlen.le hcarries
  obtain ⟨f, fs, hf, hfs, hall⟩ := List.forall₂_cons_left_iff.mp hread
  rw [List.forall₂_nil_left_iff] at hfs
  subst hfs
  obtain ⟨pos, hpos⟩ := hf.instructions_eq
  have hsize : f.1.size = 996 := by
    rw [hpos, WireFragment.size_instructions, data_largestFragment, length_largestData]
  refine ⟨f, hall, hf, hsize, ?_⟩
  have hmem : f ∈ received quietEnv.sha256 (singleFragmentMsg (largestFragment k)) := by
    rw [hall]
    exact List.mem_singleton_self f
  have hmsg : IsTunnelDataMsg (singleFragmentMsg (largestFragment k)) := rfl
  exact isShort_of_mem_received hmsg hmem (by rw [hsize]; decide)

/-- The endpoint has the first `n` of the fragments and none saved. -/
structure Collected (n : ℕ) (msg : TunnelMessageBlockEx) (ep : TunnelEndpoint) : Prop where
  entry : ep.incompleteMessages 1 = some msg
  nextFragmentNum_eq : msg.nextFragmentNum = UInt8.ofNat n
  growing : msg.data.Growing
  length_eq : msg.data.getLength = n * 996

theorem incompleteMessages_setIncomplete_self (ep : TunnelEndpoint) (msgID : UInt32)
    (msg : TunnelMessageBlockEx) :
    (ep.setIncomplete msgID msg).incompleteMessages msgID = some msg := Function.update_self ..

theorem len_le_of_growing {m : I2NPMessage} (h : m.Growing) :
    m.len ≤ max maxShortMessageSize (2 + m.getLength) := by
  obtain ⟨-, -, hle, ⟨-, hlen⟩ | ⟨-, hoffset⟩⟩ := h
  · exact le_max_of_le_left hlen
  · refine le_max_of_le_right ?_
    simp only [I2NPMessage.getLength]
    omega

/-- The block behind the first `n` fragments, with fragment `n`. -/
theorem Collected.extended {n : ℕ} {msg : TunnelMessageBlockEx} (h : Collected n msg ep)
    {data : I2NPMessage} (hdata : data.getLength = 996) :
    (extended msg data).nextFragmentNum = UInt8.ofNat (n + 1) ∧
      (extended msg data).data.Growing ∧ (extended msg data).data.getLength = (n + 1) * 996 := by
  refine ⟨?_, h.growing.append data.buf data.offset data.getLength, ?_⟩
  · show msg.nextFragmentNum + 1 = _
    rw [h.nextFragmentNum_eq, UInt8.ofNat_add]
    rfl
  · have hgrow := I2NPMessage.getLength_reserve_append h.growing.offset_le data.buf data.offset
      data.getLength
    refine hgrow.trans ?_
    rw [h.length_eq, hdata, Nat.succ_mul]

theorem getLength_of_represents {n : ℕ} {f : DeliveryInstructions × I2NPMessage}
    (hf : Represents (largestFragment n) f) : f.2.getLength = 996 := by
  have hbytes := congrArg List.length hf.holds.bytes_eq
  rwa [I2NPMessage.length_bytes, data_largestFragment, length_largestData] at hbytes

/-- A first fragment starts the message. -/
theorem takeFragment_largestFragment_zero {f : DeliveryInstructions × I2NPMessage}
    (hf : Represents (largestFragment 0) f) :
    TunnelEndpoint.init.takeFragment f = TunnelEndpoint.init.setIncomplete 1
      (startMessage deliveryTypeLocal IdentHash.zero 0 f.2) := by
  obtain ⟨pos, hpos⟩ := hf.instructions_eq
  have hfirst : largestFragment 0 = .first deliveryTypeLocal IdentHash.zero 0 1 largestData :=
    if_pos rfl
  rw [takeFragment, hpos, hfirst, handleFragment_first (by decide) rfl]
  rfl

/-- Fragment `k` becomes a follow-on fragment of the endpoint. -/
theorem takeFragment_largestFragment (ep : TunnelEndpoint) {k : ℕ} (hk : 0 < k)
    {f : DeliveryInstructions × I2NPMessage} (hf : Represents (largestFragment k) f) :
    ∃ pos, ep.takeFragment f =
      (ep.handleFollowOnFragment 1 false (followOnBlock k f.2) pos).val := by
  obtain ⟨pos, hpos⟩ := hf.instructions_eq
  have hfollow : largestFragment k = .followOn 1 k false largestData := if_neg (by omega)
  refine ⟨pos + 7, ?_⟩
  rw [takeFragment, hpos, hfollow, handleFragment_followOn (by decide)]

/-- Fragment `n` is appended, and what is saved is looked at. -/
theorem takeFragment_next {n : ℕ} (hn : 0 < n) (hle : n ≤ 31) {msg : TunnelMessageBlockEx}
    (h : Collected n msg ep) {f : DeliveryInstructions × I2NPMessage}
    (hf : Represents (largestFragment n) f) :
    ep.takeFragment f =
      (ep.setIncomplete 1 (extended msg f.2)).handleOutOfSequenceFragment 1 (extended msg f.2) := by
  have hroom : msg.data.len + f.2.getLength < maxMessageSize := by
    have hmax := len_le_of_growing h.growing
    rw [h.length_eq] at hmax
    rw [getLength_of_represents hf]
    simp only [maxShortMessageSize, maxMessageSize] at *
    omega
  obtain ⟨pos, hpos⟩ := takeFragment_largestFragment ep hn hf
  rw [hpos]
  exact (handleFollowOnFragment_next h.entry h.nextFragmentNum_eq.symm hroom false pos).trans rfl

/-- Fragment `32` is saved, and is appended behind fragment `31` without a check. -/
theorem not_inside_of_saved {msg : TunnelMessageBlockEx} (h : Collected 31 msg ep)
    (hnone : ep.outOfSequenceFragments 1 = none) {f f' : DeliveryInstructions × I2NPMessage}
    (hf : Represents (largestFragment 32) f) (hf' : Represents (largestFragment 31) f') :
    ¬ Entries I2NPMessage.Inside ((ep.takeFragment f).takeFragment f') := by
  intro hall
  have hsave : ep.takeFragment f =
      ep.addOutOfSequenceFragment 1 (UInt8.ofNat 32) false f.2 := by
    obtain ⟨pos, hpos⟩ := takeFragment_largestFragment ep (by decide : 0 < 32) hf
    rw [hpos]
    refine (handleFollowOnFragment_save ?_ false pos).trans rfl
    intro msg' hmsg'
    obtain rfl : msg = msg' := Option.some.inj (h.entry.symm.trans hmsg')
    rw [h.nextFragmentNum_eq]
    show UInt8.ofNat 32 ≠ UInt8.ofNat 31
    decide
  have hsaved : (ep.takeFragment f).outOfSequenceFragments 1 =
      some ⟨UInt8.ofNat 32, false, f.2⟩ := by
    simp [hsave, addOutOfSequenceFragment, hnone]
  have hkept : Collected 31 msg (ep.takeFragment f) := by
    refine ⟨?_, h.nextFragmentNum_eq, h.growing, h.length_eq⟩
    simp [hsave, addOutOfSequenceFragment, hnone, h.entry]
  obtain ⟨hnum, hgrowing, hlength⟩ := hkept.extended (getLength_of_represents hf')
  have hentry : ((ep.takeFragment f).takeFragment f').incompleteMessages 1 =
      some (extended (extended msg f'.2) f.2) := by
    rw [takeFragment_next (by decide) (by decide) hkept hf']
    generalize ep.takeFragment f = ep at hsaved
    unfold handleOutOfSequenceFragment
    have hsaved' : (ep.setIncomplete 1 (extended msg f'.2)).outOfSequenceFragments 1 =
        some ⟨UInt8.ofNat 32, false, f.2⟩ := hsaved
    rw [hsaved']
    dsimp only
    rw [if_pos hnum.symm]
    exact incompleteMessages_setIncomplete_self (ep.setIncomplete 1 (extended msg f'.2)) 1
      (extended (extended msg f'.2) f.2)
  have hinside := hall 1 _ hentry
  have hfits := (hgrowing.inside_append_iff f.2.buf f.2.offset f.2.getLength).mp hinside
  rw [hlength, getLength_of_represents hf] at hfits
  simp only [maxMessageSize] at hfits
  omega

/-- Tunnel data messages with the fragments of the numbers `ks`. -/
def largestFragmentMsgs (ks : List ℕ) : List I2NPMessage :=
  ks.map fun k => singleFragmentMsg (largestFragment k)

/-- The endpoint after these messages. -/
def afterLargestFragments (ks : List ℕ) : TunnelEndpoint :=
  TunnelEndpoint.init.handleAll quietEnv.sha256 (largestFragmentMsgs ks)

theorem exists_afterLargestFragments_append (ks : List ℕ) {k : ℕ} (hk : k < 64) :
    ∃ f, Represents (largestFragment k) f ∧ IsShort f ∧
      afterLargestFragments (ks ++ [k]) = (afterLargestFragments ks).takeFragment f := by
  obtain ⟨f, hreceived, hf, -, hshort⟩ := exists_received_largestFragment hk
  refine ⟨f, hf, hshort, ?_⟩
  simp only [afterLargestFragments, handleAll_eq_handleFragments, largestFragmentMsgs,
    List.map_append, List.map_cons, List.map_nil, List.flatMap_append, List.flatMap_cons,
    List.flatMap_nil, List.append_nil, hreceived]
  exact List.foldl_append ..

/-- The message grows by one fragment after the other. The induction is on their number. -/
theorem exists_collected {n : ℕ} (hle : n ≤ 30) :
    ∃ msg, Collected (n + 1) msg (afterLargestFragments (List.range (n + 1))) ∧
      (afterLargestFragments (List.range (n + 1))).outOfSequenceFragments 1 = none := by
  induction n with
  | zero =>
    obtain ⟨f, hf, hshort, hrun⟩ := exists_afterLargestFragments_append [] (by decide : 0 < 64)
    have hstart : afterLargestFragments (List.range 1) = TunnelEndpoint.init.setIncomplete 1
        (startMessage deliveryTypeLocal IdentHash.zero 0 f.2) :=
      hrun.trans (takeFragment_largestFragment_zero hf)
    rw [hstart]
    refine ⟨_, ⟨incompleteMessages_setIncomplete_self .., rfl, hshort.growing, ?_⟩, rfl⟩
    exact (getLength_of_represents hf).trans (Nat.one_mul 996).symm
  | succ n ih =>
    obtain ⟨msg, hmsg, hnone⟩ := ih (by omega)
    obtain ⟨f, hf, hshort, hrun⟩ :=
      exists_afterLargestFragments_append (List.range (n + 1)) (by omega : n + 1 < 64)
    rw [List.range_succ, hrun, takeFragment_next (by omega) (by omega) hmsg hf]
    generalize afterLargestFragments (List.range (n + 1)) = ep at hmsg hnone
    -- nothing is saved, so nothing more is appended
    have hquiet : (ep.setIncomplete 1 (extended msg f.2)).handleOutOfSequenceFragment 1
        (extended msg f.2) = ep.setIncomplete 1 (extended msg f.2) := by
      have hsaved : (ep.setIncomplete 1 (extended msg f.2)).outOfSequenceFragments 1 = none := hnone
      rw [handleOutOfSequenceFragment, hsaved]
    obtain ⟨hnum, hgrowing, hlength⟩ := hmsg.extended (getLength_of_represents hf)
    rw [hquiet]
    exact ⟨_, ⟨incompleteMessages_setIncomplete_self .., hnum, hgrowing, hlength⟩, hnone⟩

theorem isTunnelDataMsg_largestFragmentMsgs (ks : List ℕ) :
    ∀ msg ∈ largestFragmentMsgs ks, IsTunnelDataMsg msg := by
  intro msg hmsg
  obtain ⟨k, -, rfl⟩ := List.mem_map.mp hmsg
  rfl

theorem size_le_largestFragmentMsgs {ks : List ℕ} (hks : ∀ k ∈ ks, k < 64) :
    ∀ f ∈ (largestFragmentMsgs ks).flatMap (received quietEnv.sha256),
      f.1.size ≤ tunnelDataMaxPayloadSize := by
  intro f hf
  obtain ⟨msg, hmsg, hmem⟩ := List.mem_flatMap.mp hf
  obtain ⟨k, hk, rfl⟩ := List.mem_map.mp hmsg
  obtain ⟨f', hreceived, -, hsize, -⟩ := exists_received_largestFragment (hks k hk)
  rw [hreceived, List.mem_singleton] at hmem
  rw [hmem, hsize]
  decide

theorem exists_received_largestFragmentMsgs {k : ℕ} (hk : k < 64) :
    ∃ f, (largestFragmentMsgs [k]).flatMap (received quietEnv.sha256) = [f] := by
  obtain ⟨f, hreceived, -⟩ := exists_received_largestFragment hk
  exact ⟨f, by simp only [largestFragmentMsgs, List.map_cons, List.map_nil, List.flatMap_cons,
    List.flatMap_nil, List.append_nil, hreceived]⟩

theorem savedFits_init {fs : List (DeliveryInstructions × I2NPMessage)} (h : ∃ f, fs = [f]) :
    Runs.Meets takeFragment SavedFits TunnelEndpoint.init fs := by
  obtain ⟨f, rfl⟩ := h
  refine ⟨?_, trivial⟩
  intro msg hmsg
  cases hmsg

/-- A first fragment alone is inside. -/
theorem appendsInside_largestFragment :
    (Runs.Meets takeFragment AppendsInside TunnelEndpoint.init
        ((largestFragmentMsgs [0]).flatMap (received quietEnv.sha256)) ∧
      ∀ pre, pre <+: (largestFragmentMsgs [0]).flatMap (received quietEnv.sha256) →
        Entries I2NPMessage.Inside (TunnelEndpoint.init.handleFragments pre)) := by
  have hks : ∀ k ∈ [0], k < 64 := by decide
  have hk : 0 < 64 := by decide
  have hiff := appendsInside_iff_savedFits quietEnv.sha256
    (isTunnelDataMsg_largestFragmentMsgs [0]) (size_le_largestFragmentMsgs hks)
  have hone := exists_received_largestFragmentMsgs hk
  generalize (largestFragmentMsgs [0]).flatMap (received quietEnv.sha256) = fs at hiff hone ⊢
  exact hiff.mpr (savedFits_init hone)

/-- The message ends behind its buffer after thirty-three fragments of `996` bytes. -/
theorem not_inside_largestFragments :
    (∀ msg ∈ largestFragmentMsgs (List.range 31 ++ [32] ++ [31]), IsTunnelDataMsg msg) ∧
      (∀ f ∈ (largestFragmentMsgs (List.range 31 ++ [32] ++ [31])).flatMap
        (received quietEnv.sha256), f.1.size ≤ tunnelDataMaxPayloadSize) ∧
      ¬ Entries I2NPMessage.Inside (afterLargestFragments (List.range 31 ++ [32] ++ [31])) := by
  refine ⟨isTunnelDataMsg_largestFragmentMsgs _, size_le_largestFragmentMsgs (by decide), ?_⟩
  obtain ⟨msg, hmsg, hnone⟩ := exists_collected (le_refl 30)
  obtain ⟨f, hf, -, hrun⟩ :=
    exists_afterLargestFragments_append (List.range 31) (by decide : 32 < 64)
  obtain ⟨f', hf', -, hrun'⟩ :=
    exists_afterLargestFragments_append (List.range 31 ++ [32]) (by decide : 31 < 64)
  rw [hrun', hrun]
  exact not_inside_of_saved hmsg hnone hf hf'

end TunnelEndpoint

end Tunnel
