import Mathlib.Logic.Relation
import Xi2p.Garlic.SingleUse

/-!
# Exchange of session tags

The tags that a session generates travel in a message; they may be used once the delivery status for this
message is back. Both sides forget tags, at times and with timeouts of their own. The messages in between
may be lost and may overtake each other.

* `World`, `Step`: a session, a destination, and what is on the way between them.
* `Reaches.tagsKnown`: the destination knows the tags that the session may use.
-/

namespace Garlic

open Bytes I2NP CBC Traced GarlicRoutingSession GarlicDestination

/-! ## The system -/

/-- A message on its way to the destination. -/
structure Flight where
  /-- When it was sent, in seconds. -/
  sentAt : ℕ
  bytes : List UInt8
  /-- The tag that it was sent with, or none if it starts with an ElGamal block. -/
  tag : Option Tag
  /-- Its first 32 bytes behind the length. -/
  front : Tag
  /-- The tags that it delivers. -/
  newTags : List Tag
  /-- The ID in the delivery status that it asks for. -/
  statusID : Option UInt32

/-- A session that sends, a destination that receives, and what is on the way. -/
structure World where
  /-- The clock of both sides, in seconds. -/
  clock : ℕ
  session : GarlicRoutingSession
  /-- The IDs that lead to the session in `m_CreatedSessions` of its owner. -/
  createdSessions : List UInt32
  receiver : GarlicDestination
  flying : List Flight
  /-- The delivery statuses on their way back. -/
  statuses : List UInt32
  /-- The tags that messages were sent with so far. -/
  usedTags : List Tag
  /-- The tags that the session has generated so far. -/
  ownTags : List Tag
  /-- What has served as a tag, or has stood where one stands, so far. -/
  seenTags : List Tag
  seenIDs : List UInt32

namespace World

variable (crypto : Crypto) (w : World) (call : Call)

/-- The tags that go with the next message. -/
def drawnTags : List Tag := ((w.session.findTag call).2.sentTags call).map SessionTag.tag

/-- What stands at the start of the next message, if it has no tag. -/
def elGamalFront : Option Tag :=
  w.session.destination.map fun destination =>
    blockTag (crypto.elGamalEncrypt destination.publicKey call.draws.elGamal
      (w.session.elGamalBlock call)) 0

/-- The first 32 bytes of the next message behind its length. -/
def nextFront : Option Tag := (w.session.findTag call).1.or (w.elGamalFront crypto call)

/-- The tags and the message ID that are drawn have not been seen before. A message without a tag does not
start with one by chance. -/
structure Fresh : Prop where
  nodup : (w.drawnTags call).Nodup
  notSeen : ∀ tag ∈ w.drawnTags call, tag ∉ w.seenTags
  front : (w.session.findTag call).1 = none → ∀ tag ∈ w.elGamalFront crypto call,
    tag ∉ w.seenTags ∧ tag ∉ w.drawnTags call
  msgID : call.draws.msgID ∉ w.seenIDs

/-- The ID that is announced to the owner. -/
def announced (calls : List OwnerCall) : Option UInt32 :=
  calls.findSome? fun
    | .deliveryStatusSent msgID => some msgID
    | .submitSessionKey _ _ => none

/-- After a message was sent. -/
def sent (front : Tag) (session : GarlicRoutingSession) (wrapped : List UInt8)
    (calls : List OwnerCall) : World :=
  { w with
    session
    createdSessions := w.createdSessions ++ (announced calls).toList
    flying := w.flying ++ [{
      sentAt := w.clock
      bytes := wrapped
      tag := (w.session.findTag call).1
      front
      newTags := w.drawnTags call
      statusID := announced calls }]
    usedTags := w.usedTags ++ (w.session.findTag call).1.toList
    ownTags := w.ownTags ++ w.drawnTags call
    seenTags := w.seenTags ++ front :: w.drawnTags call
    seenIDs := call.draws.msgID :: w.seenIDs }

/-- The delivery statuses that come back for a message: its own, once the destination has sent something
through a tunnel. -/
def answers (f : Flight) (dispatched : List Dispatch) : List UInt32 :=
  if dispatched.any fun
    | .sendTunnelDataMsg _ _ _ => true
    | .handleI2NPMessage _ _ => false
  then f.statusID.toList else []

/-- `HandleDeliveryStatusMessage` of the owner. -/
def confirmed (msgID : UInt32) : World :=
  if msgID ∈ w.createdSessions then
    let (session, removed) := w.session.messageConfirmed w.clock msgID
    { w with
      session
      createdSessions := w.createdSessions.filter fun id => id ∉ removed ∧ id ≠ msgID }
  else w

/-- `CleanupExpiredTags`, from `CleanupRoutingSessions` of the owner. -/
def cleanedUp : World :=
  let (session, removed) := w.session.cleanupExpiredTags w.clock
  { w with session, createdSessions := w.createdSessions.filter fun id => id ∉ removed }

end World

/-- One step of the system. Messages are not duplicated; those that are later than 240 seconds do not
arrive. -/
inductive Step (crypto : Crypto) : World → World → Prop
  | wait (w : World) (seconds : ℕ) : Step crypto w { w with clock := w.clock + seconds }
  | wrap {w : World} {call : Call} {draws : Draws} {msg : Option (List UInt8)} {front : Tag}
      {session : GarlicRoutingSession} {wrapped : List UInt8} {calls : List OwnerCall}
      (hclock : call.seconds = w.clock)
      (hwrap : w.session.wrapSingleMessage crypto call draws msg = some (session, wrapped, calls))
      (hfits : wrapped.length ≤ maxMessageSize)
      (hfresh : w.Fresh crypto call)
      (hfront : w.nextFront crypto call = some front) :
      Step crypto w (w.sent call front session wrapped calls)
  | lose {w : World} {before after : List Flight} {f : Flight}
      (hflying : w.flying = before ++ f :: after) :
      Step crypto w { w with flying := before ++ after }
  | receive {w : World} {before after : List Flight} {f : Flight} {m : Mem} {hasTunnel : Bool}
      {throws : ℕ → Bool} {handled : Handled}
      (hflying : w.flying = before ++ f :: after)
      (harrives : w.clock ≤ f.sentAt + 240)
      (hm : StandsAt m 0 f.bytes)
      (hhandled : (w.receiver.handleGarlicMessageThrowing crypto w.clock hasTunnel throws m
        f.bytes.length).val = handled) :
      Step crypto w { w with
        receiver := handled.destination
        flying := before ++ after
        statuses := w.statuses ++ World.answers f handled.dispatched }
  | loseStatus {w : World} {before after : List UInt32} {msgID : UInt32}
      (hstatuses : w.statuses = before ++ msgID :: after) :
      Step crypto w { w with statuses := before ++ after }
  | confirm {w : World} {before after : List UInt32} {msgID : UInt32}
      (hstatuses : w.statuses = before ++ msgID :: after) :
      Step crypto w ({ w with statuses := before ++ after }.confirmed msgID)
  | cleanup (w : World) : Step crypto w w.cleanedUp
  | setLeaseSetUpdated (w : World) :
      Step crypto w { w with session := w.session.setLeaseSetUpdated }
  /-- The destination handles a message of another session, which does not know the tags of this one and
  draws tags of its own. -/
  | other {w : World} {m : Mem} {msgLength : ℕ} {hasTunnel : Bool} {throws : ℕ → Bool}
      {handled : Handled}
      (hforeign : messageTag m ∉ w.ownTags)
      (hfresh : ∀ tag ∈ (w.receiver.messageCourse crypto m msgLength).newTags, tag ∉ w.seenTags)
      (hhandled : (w.receiver.handleGarlicMessageThrowing crypto w.clock hasTunnel throws m
        msgLength).val = handled) :
      Step crypto w { w with
        receiver := handled.destination
        seenTags := w.seenTags ++ (w.receiver.messageCourse crypto m msgLength).newTags }
  /-- `AddSessionKey` of the destination, for a delivery status that it asks for itself. -/
  | addSessionKey {w : World} {key tag : Tag} (hfresh : tag ∉ w.seenTags) :
      Step crypto w { w with
        receiver := { w.receiver with tags := addTag w.clock key w.receiver.tags tag }
        seenTags := w.seenTags ++ [tag] }

/-! ## The destination -/

/-- The tags of the destination after a message that starts with `front`: the new ones are added, and
those that are held are kept until they expire. -/
structure Received (now : ℕ) (key : Tag) (newTags : List Tag) (front : Tag) (tags tags' : Tags) :
    Prop where
  distinct : AssocMap.Distinct tags'
  added : ∀ tag ∈ newTags, tag ≠ front → AssocMap.find tags tag = none →
    AssocMap.find tags' tag = some ⟨now, key⟩
  kept : ∀ tag e, tag ∉ newTags → tag ≠ front → AssocMap.find tags tag = some e →
    now ≤ e.creationTime + incomingTagsExpirationTimeout → AssocMap.find tags' tag = some e
  others : ∀ tag ∉ newTags, AssocMap.find tags tag = none → AssocMap.find tags' tag = none

section Received

variable {now : ℕ} {key front : Tag} {newTags : List Tag} {tags tags' : Tags}

theorem received_foldl_addTag (now : ℕ) (key front : Tag) (newTags : List Tag)
    (hdistinct : AssocMap.Distinct tags) :
    Received now key newTags front tags (newTags.foldl (addTag now key) tags) where
  distinct := distinct_foldl_addTag hdistinct now key newTags
  added tag htag _ hnone := find_foldl_addTag_of_mem hdistinct htag (.inl hnone)
  kept tag e htag _ hfind _ := by rw [find_foldl_addTag_of_notMem hdistinct now key htag, hfind]
  others tag htag hnone := by rw [find_foldl_addTag_of_notMem hdistinct now key htag, hnone]

theorem Received.erase (h : Received now key newTags front tags tags') :
    Received now key newTags front tags (AssocMap.erase tags' front) where
  distinct := h.distinct.filter _
  added tag htag hne hnone := by
    rw [AssocMap.find_erase, if_neg hne]
    exact h.added tag htag hne hnone
  kept tag e htag hne hfind hlive := by
    rw [AssocMap.find_erase, if_neg hne]
    exact h.kept tag e htag hne hfind hlive
  others tag htag hnone := by
    rw [AssocMap.find_erase]
    split
    · rfl
    · exact h.others tag htag hnone

/-- A tag that has not expired is not cleaned up. -/
theorem find_cleanupTags_of_live {destination : GarlicDestination} {tag : Tag} {e : IncomingTag}
    (hdistinct : AssocMap.Distinct destination.tags)
    (hlive : now ≤ e.creationTime + incomingTagsExpirationTimeout)
    (h : AssocMap.find destination.tags tag = some e) :
    AssocMap.find (destination.cleanupTags now).tags tag = some e := by
  rw [cleanupTags]
  split
  · dsimp only
    split
    · refine (hdistinct.filter _).find_eq_some (List.mem_filter.mpr ⟨AssocMap.mem_of_find h, ?_⟩)
      simpa using hlive
    · exact h
  · exact h

theorem distinct_cleanupTags {destination : GarlicDestination}
    (hdistinct : AssocMap.Distinct destination.tags) :
    AssocMap.Distinct (destination.cleanupTags now).tags := by
  rw [cleanupTags]
  split
  · dsimp only
    split
    · exact hdistinct.filter _
    · exact hdistinct
  · exact hdistinct

theorem Received.cleanupTags {destination : GarlicDestination}
    (h : Received now key newTags front tags destination.tags) :
    Received now key newTags front tags (destination.cleanupTags now).tags where
  distinct := distinct_cleanupTags h.distinct
  added tag htag hne hnone :=
    find_cleanupTags_of_now h.distinct (h.added tag htag hne hnone)
  kept tag e htag hne hfind hlive :=
    find_cleanupTags_of_live h.distinct hlive (h.kept tag e htag hne hfind hlive)
  others tag htag hnone := find_cleanupTags_eq_none (h.others tag htag hnone)

end Received

/-- The key that a message is decrypted with: that of its tag, or the one in its ElGamal block. -/
def decryptionKey (crypto : Crypto) (destination : GarlicDestination) (m : Mem) : Tag :=
  match AssocMap.find destination.tags (messageTag m) with
  | some entry => entry.key
  | none => ((crypto.elGamalDecrypt destination.privateKey (slice m (headerSize + 4) 514)).map
      (blockTag · 0)).getD (messageTag m)

/-- A destination after a message. -/
def Leaves (now : ℕ) (key : Tag) (newTags : List Tag) (front : Tag)
    (destination after : GarlicDestination) : Prop :=
  after.privateKey = destination.privateKey ∧
    Received now key newTags front destination.tags after.tags

section Leaves

variable {crypto : Crypto} {now : ℕ} {hasTunnel : Bool} {throws : ℕ → Bool}
  {destination : GarlicDestination} (hdistinct : AssocMap.Distinct destination.tags)

include hdistinct

theorem leaves_withTags (key : Tag) (newTags : List Tag) (front : Tag) :
    Leaves now key newTags front destination (destination.withTags now key newTags) :=
  ⟨rfl, received_foldl_addTag now key front newTags hdistinct⟩

theorem leaves_self (key front : Tag) : Leaves now key [] front destination destination :=
  leaves_withTags hdistinct key [] front

theorem leaves_decryptAndHandleThrowing (key front : Tag) (iv : List UInt8) (m : Mem)
    (buf start length : ℕ) :
    Leaves now key (decryptedCourse crypto key iv m buf start length).newTags front destination
      (destination.decryptAndHandleThrowing crypto now hasTunnel throws key iv m buf start
        length).val.destination := by
  rw [val_decryptAndHandleThrowing, destination_interrupt]
  exact leaves_withTags hdistinct key _ front

omit hdistinct in
/-- What has been left behind is changed further unless there was an exception. -/
theorem Leaves.unlessThrew {key front : Tag} {newTags : List Tag} {handled : Handled}
    {after : GarlicDestination}
    (hafter : Leaves now key newTags front destination handled.destination →
      Leaves now key newTags front destination after)
    (h : Leaves now key newTags front destination handled.destination) :
    Leaves now key newTags front destination
      (if handled.threw = true then (return handled : Traced Handled)
        else return { handled with destination := after }).val.destination := by
  split
  · exact h
  · exact hafter h

theorem leaves_handleByTagThrowing (m : Mem) (length : ℕ) :
    Leaves now (decryptionKey crypto destination m)
      (destination.tagCourse crypto m (headerSize + 4) length).newTags (messageTag m) destination
      (destination.handleByTagThrowing crypto now hasTunnel throws m (headerSize + 4)
        length).val.destination := by
  unfold handleByTagThrowing tagCourse decryptionKey messageTag
  simp only [val_bind]
  cases hentry : AssocMap.find destination.tags (IdentHash.ofMem m (headerSize + 4)) with
  | some entry =>
    by_cases hshort : 32 ≤ length
    · simp only [hshort, if_true, val_bind]
      exact Leaves.unlessThrew (fun h => ⟨h.1, h.2.erase⟩)
        (leaves_decryptAndHandleThrowing hdistinct _ _ _ _ _ _ _)
    · simp only [hshort, if_false, val_bind]
      exact Leaves.unlessThrew (fun h => ⟨h.1, h.2.erase⟩) (leaves_self hdistinct _ _)
  | none =>
    by_cases hshort : 514 ≤ length
    · simp only [hshort, if_true, val_bind, val_read]
      cases crypto.elGamalDecrypt destination.privateKey (slice m (headerSize + 4) 514) with
      | some block => exact leaves_decryptAndHandleThrowing hdistinct _ _ _ _ _ _ _
      | none => exact leaves_self hdistinct _ _
    · simp only [hshort, if_false]
      exact leaves_self hdistinct _ _

/-- What any message leaves behind, also if it is handled with an exception. -/
theorem leaves_handleGarlicMessageThrowing (m : Mem) (msgLength : ℕ) :
    Leaves now (decryptionKey crypto destination m)
      (destination.messageCourse crypto m msgLength).newTags (messageTag m) destination
      (destination.handleGarlicMessageThrowing crypto now hasTunnel throws m
        msgLength).val.destination := by
  unfold handleGarlicMessageThrowing messageCourse encryptedLength
  simp only [val_bind, val_read]
  by_cases hexceeds : msgLength < readBE (slice m headerSize 4)
  · simp only [hexceeds, if_true]
    exact leaves_self hdistinct _ _
  · simp only [hexceeds, if_false, val_bind]
    have hprivateKey : ∀ destination : GarlicDestination,
        (destination.cleanupTags now).privateKey = destination.privateKey := fun destination => by
      rw [cleanupTags]
      split <;> rfl
    exact Leaves.unlessThrew (fun h => ⟨(hprivateKey _).trans h.1, h.2.cleanupTags⟩)
      (leaves_handleByTagThrowing hdistinct _ _)

end Leaves

/-! ## The session -/

/-- The tags that wait for a delivery status. -/
def waitingTags (unconfirmed : List (UInt32 × UnconfirmedTags)) : List Tag :=
  unconfirmed.flatMap fun e => e.2.sessionTags.map SessionTag.tag

theorem count_waitingTags_filter_le (unconfirmed : List (UInt32 × UnconfirmedTags))
    (keep : UInt32 × UnconfirmedTags → Bool) (tag : Tag) :
    (waitingTags (unconfirmed.filter keep)).count tag ≤ (waitingTags unconfirmed).count tag :=
  (List.filter_sublist.flatMap _).count_le tag

theorem count_waitingTags_cons (e : UInt32 × UnconfirmedTags)
    (unconfirmed : List (UInt32 × UnconfirmedTags)) (tag : Tag) :
    (waitingTags (e :: unconfirmed)).count tag =
      (e.2.sessionTags.map SessionTag.tag).count tag + (waitingTags unconfirmed).count tag := by
  rw [waitingTags, List.flatMap_cons, List.count_append]
  rfl

/-- What is erased counts no longer. -/
theorem count_waitingTags_erase_le {unconfirmed : List (UInt32 × UnconfirmedTags)} {msgID : UInt32}
    {tags : UnconfirmedTags} (h : AssocMap.find unconfirmed msgID = some tags) (tag : Tag) :
    (waitingTags (AssocMap.erase unconfirmed msgID)).count tag +
      (tags.sessionTags.map SessionTag.tag).count tag ≤ (waitingTags unconfirmed).count tag := by
  induction unconfirmed with
  | nil => cases h
  | cons e unconfirmed ih =>
    rw [count_waitingTags_cons]
    by_cases heq : e.1 = msgID
    · have herase : AssocMap.erase (e :: unconfirmed) msgID = AssocMap.erase unconfirmed msgID := by
        simp [AssocMap.erase, heq]
      have htags : e.2 = tags := by simpa [AssocMap.find, heq] using h
      have hle : (waitingTags (AssocMap.erase unconfirmed msgID)).count tag ≤ _ :=
        count_waitingTags_filter_le unconfirmed _ tag
      rw [herase, htags]
      omega
    · have herase : AssocMap.erase (e :: unconfirmed) msgID =
          e :: AssocMap.erase unconfirmed msgID := by
        simp [AssocMap.erase, heq]
      have hfind : AssocMap.find unconfirmed msgID = some tags := by
        simpa [AssocMap.find, heq] using h
      rw [herase, count_waitingTags_cons]
      have := ih hfind
      omega

theorem count_waitingTags_assign_le (unconfirmed : List (UInt32 × UnconfirmedTags)) (msgID : UInt32)
    (tags : UnconfirmedTags) (tag : Tag) :
    (waitingTags (AssocMap.assign UInt32.toNat unconfirmed msgID tags)).count tag ≤
      (waitingTags unconfirmed).count tag + (tags.sessionTags.map SessionTag.tag).count tag := by
  have hinjective : Function.Injective UInt32.toNat := fun _ _ => UInt32.toNat_inj.mp
  have hperm : (waitingTags (AssocMap.assign UInt32.toNat unconfirmed msgID tags)).Perm
      (waitingTags ((msgID, tags) :: AssocMap.erase unconfirmed msgID)) :=
    (AssocMap.assign_perm hinjective unconfirmed msgID tags).flatMap_right _
  have hle : (waitingTags (AssocMap.erase unconfirmed msgID)).count tag ≤ _ :=
    count_waitingTags_filter_le unconfirmed _ tag
  rw [hperm.count_eq, count_waitingTags_cons]
  dsimp only
  omega

/-- What sending a message changes in the session, apart from the status of the lease set. -/
structure Sends (call : Call) (newTags : Option UnconfirmedTags) (session session' : GarlicRoutingSession)
    (calls : List OwnerCall) : Prop where
  sessionKey : session'.sessionKey = session.sessionKey
  destination : session'.destination = session.destination
  sessionTags : session'.sessionTags = session.sessionTags
  unconfirmed : ∀ e ∈ session'.unconfirmedTagsMsgs, e ∈ session.unconfirmedTagsMsgs ∨
    e.1 = call.draws.msgID ∧ newTags = some e.2
  count : ∀ tag, (waitingTags session'.unconfirmedTagsMsgs).count tag ≤
    (waitingTags session.unconfirmedTagsMsgs).count tag +
      (((newTags.map UnconfirmedTags.sessionTags).getD []).map SessionTag.tag).count tag
  announced : ∀ msgID ∈ World.announced calls, msgID = call.draws.msgID

section Sends

variable {crypto : Crypto} {wrap : Wrap} {call : Call} {session session' : GarlicRoutingSession}
  {calls : List OwnerCall} {newTags : Option UnconfirmedTags}

theorem sends_self (hannounced : World.announced calls = none) :
    Sends call newTags session session calls where
  sessionKey := rfl
  destination := rfl
  sessionTags := rfl
  unconfirmed _ h := .inl h
  count _ := Nat.le_add_right _ _
  announced _ h := by
    rw [hannounced] at h
    cases h

/-- The owner is given a key, if anything. -/
theorem announced_createDeliveryStatusClove {msgID : UInt32} {clove : List UInt8}
    (h : createDeliveryStatusClove crypto wrap call msgID = some (clove, calls)) :
    World.announced calls = none := by
  rw [createDeliveryStatusClove] at h
  split at h
  next =>
    obtain ⟨-, rfl⟩ := Prod.mk.inj (Option.some.inj h)
    rfl
  next =>
    obtain ⟨msg, -, hclove⟩ := Option.bind_eq_some_iff.mp h
    obtain ⟨-, rfl⟩ := Prod.mk.inj (Option.some.inj hclove)
    rfl

theorem sends_attachDeliveryStatus {status : List (List UInt8)}
    (h : session.attachDeliveryStatus crypto wrap call newTags = some (session', status, calls)) :
    Sends call newTags session session' calls := by
  rw [attachDeliveryStatus] at h
  split at h
  next =>
    obtain ⟨⟨clove, calls'⟩, hclove, hresult⟩ := Option.bind_eq_some_iff.mp h
    have hannounced := announced_createDeliveryStatusClove hclove
    dsimp only at hresult
    split at hresult
    next =>
      obtain ⟨rfl, -, rfl⟩ := (Prod.mk.inj (Option.some.inj hresult)).imp_right Prod.mk.inj
      have hid : ∀ msgID ∈ World.announced (calls' ++ [.deliveryStatusSent call.draws.msgID]),
          msgID = call.draws.msgID := by
        intro msgID hmem
        unfold World.announced at hannounced hmem
        rw [List.findSome?_append, hannounced] at hmem
        exact (Option.some.inj hmem).symm
      cases newTags with
      | none => exact ⟨rfl, rfl, rfl, fun _ h => .inl h, fun _ => Nat.le_add_right _ _, hid⟩
      | some tags =>
        refine ⟨rfl, rfl, rfl, fun e he => ?_,
          fun tag => count_waitingTags_assign_le _ _ _ _, hid⟩
        have hinjective : Function.Injective UInt32.toNat := fun _ _ => UInt32.toNat_inj.mp
        obtain rfl | ⟨hmem, -⟩ := (AssocMap.mem_assign_iff hinjective).mp he
        · exact .inr ⟨rfl, rfl⟩
        · exact .inl hmem
    next =>
      obtain ⟨rfl, -, rfl⟩ := (Prod.mk.inj (Option.some.inj hresult)).imp_right Prod.mk.inj
      exact sends_self hannounced
  next =>
    obtain ⟨rfl, -, rfl⟩ := (Prod.mk.inj (Option.some.inj h)).imp_right Prod.mk.inj
    exact sends_self rfl

theorem sends_createGarlicPayload {msg : Option (List UInt8)} {payload : List UInt8}
    (h : session.createGarlicPayload crypto wrap call msg newTags = some (session', payload, calls)) :
    Sends call newTags session session' calls := by
  rw [createGarlicPayload] at h
  split at h
  next =>
    obtain ⟨⟨s₁, status, calls₁⟩, hstatus, h⟩ := Option.bind_eq_some_iff.mp h
    obtain ⟨⟨s₂, leaseSet⟩, hleaseSet, h⟩ := Option.bind_eq_some_iff.mp h
    obtain ⟨rfl, -, rfl⟩ := (Prod.mk.inj (Option.some.inj h)).imp_right Prod.mk.inj
    have hsent := sends_attachDeliveryStatus hstatus
    have hresubmit : ∀ session : GarlicRoutingSession,
        ∃ status, session.resubmitLeaseSet call = { session with leaseSetUpdateStatus := status } :=
      fun session => by
        rw [resubmitLeaseSet]
        split
        · exact ⟨_, rfl⟩
        · exact ⟨session.leaseSetUpdateStatus, rfl⟩
    have hlease : ∃ status id time, s₂ = { s₁ with
        leaseSetUpdateStatus := status
        leaseSetUpdateMsgID := id
        leaseSetSubmissionTime := time } := by
      rw [attachLeaseSet] at hleaseSet
      split at hleaseSet
      next =>
        obtain ⟨ls, -, hresult⟩ := Option.bind_eq_some_iff.mp hleaseSet
        obtain ⟨rfl, -⟩ := Prod.mk.inj (Option.some.inj hresult)
        exact ⟨_, _, _, rfl⟩
      next =>
        obtain ⟨rfl, -⟩ := Prod.mk.inj (Option.some.inj hleaseSet)
        exact ⟨s₁.leaseSetUpdateStatus, s₁.leaseSetUpdateMsgID, s₁.leaseSetSubmissionTime, rfl⟩
    obtain ⟨status, hstatus'⟩ := hresubmit session
    obtain ⟨status', id, time, rfl⟩ := hlease
    rw [hstatus'] at hsent
    exact ⟨hsent.sessionKey, hsent.destination, hsent.sessionTags, hsent.unconfirmed, hsent.count,
      hsent.announced⟩
  next =>
    obtain ⟨rfl, -, rfl⟩ := (Prod.mk.inj (Option.some.inj h)).imp_right Prod.mk.inj
    exact sends_self rfl

/-- The parts of a wrapped message, and what wrapping it changes. -/
theorem sends_wrapSingleMessage {draws : Draws} {msg : Option (List UInt8)} {wrapped : List UInt8}
    (h : session.wrapSingleMessage crypto call draws msg = some (session', wrapped, calls)) :
    Sends call ((session.findTag call).2.newTags call) (session.findTag call).2 session' calls ∧
      ∃ start iv payload,
        session.messageStart crypto call (session.findTag call).1 = some (start, iv) ∧
        wrapped = fillI2NPMessageHeader crypto 11 call.draws.headerID call.milliseconds
          (withLength start (crypto.cbcEncrypt session.sessionKey iv
            (aesPlaintext crypto ((session.findTag call).2.sentTags call) payload))) := by
  obtain ⟨sessionTags, htaken⟩ := findTag_snd session call
  have hkey : (session.findTag call).2.sessionKey = session.sessionKey := by rw [htaken]
  have hstarts (tag : Option Tag) : (session.findTag call).2.messageStart crypto call tag =
      session.messageStart crypto call tag := by
    rw [htaken]
    rfl
  rw [wrapSingleMessage, wrapSingleMessageWith_eq] at h
  obtain ⟨⟨start, iv⟩, hstart, h⟩ := Option.bind_eq_some_iff.mp h
  obtain ⟨⟨s₁, block, calls₁⟩, hblock, h⟩ := Option.bind_eq_some_iff.mp h
  obtain ⟨rfl, rfl, rfl⟩ := (Prod.mk.inj (Option.some.inj h)).imp_right Prod.mk.inj
  obtain ⟨⟨s₂, payload, calls₂⟩, hpayload, hblock⟩ := Option.bind_eq_some_iff.mp hblock
  obtain ⟨rfl, rfl, rfl⟩ := (Prod.mk.inj (Option.some.inj hblock)).imp_right Prod.mk.inj
  have hsends := sends_createGarlicPayload hpayload
  refine ⟨hsends, start, iv, payload, by rwa [hstarts] at hstart, ?_⟩
  rw [hsends.sessionKey, hkey]
  rfl

/-- The tag that is taken has not expired, and is not among those that are left. -/
theorem takeTag_cases (seconds : ℕ) (tags : List SessionTag) :
    (takeTag seconds tags).1 = none ∧ (takeTag seconds tags).2 = [] ∨
      ∃ t ∈ tags, (takeTag seconds tags).1 = some t.tag ∧
        seconds < t.creationTime + outgoingTagsExpirationTimeout ∧
        (t :: (takeTag seconds tags).2).Sublist tags := by
  induction tags with
  | nil => exact .inl ⟨rfl, rfl⟩
  | cons t tags ih =>
    rw [takeTag]
    split
    next hlive => exact .inr ⟨t, List.mem_cons_self, rfl, hlive, List.Sublist.refl _⟩
    next =>
      obtain hnone | ⟨t', hmem, htag, hlive, hsublist⟩ := ih
      · exact .inl hnone
      · exact .inr ⟨t', List.mem_cons_of_mem t hmem, htag, hlive, hsublist.cons t⟩

theorem findTag_cases (session : GarlicRoutingSession) (call : Call) :
    (session.findTag call).1 = none ∧
        (session.findTag call).2.sessionTags.Sublist session.sessionTags ∨
      ∃ t ∈ session.sessionTags, (session.findTag call).1 = some t.tag ∧
        call.seconds < t.creationTime + outgoingTagsExpirationTimeout ∧
        (t :: (session.findTag call).2.sessionTags).Sublist session.sessionTags := by
  rw [findTag]
  split
  · obtain ⟨hnone, hnil⟩ | htaken := takeTag_cases call.seconds session.sessionTags
    · refine .inl ⟨hnone, ?_⟩
      dsimp only
      rw [hnil]
      exact List.nil_sublist _
    · exact .inr htaken
  · exact .inl ⟨rfl, List.Sublist.refl _⟩

end Sends

/-! ## Messages on their way -/

/-- The message was wrapped with this key, for a destination with this public key. -/
def Flight.Encoded (crypto : Crypto) (key : Tag) (publicKey : List UInt8) (f : Flight) : Prop :=
  f.bytes.length ≤ maxMessageSize ∧
    ∃ (msgID : UInt32) (milliseconds : ℕ) (start iv : List UInt8) (tags : List SessionTag)
      (payload : List UInt8),
      f.bytes = fillI2NPMessageHeader crypto 11 msgID milliseconds
        (withLength start (crypto.cbcEncrypt key iv (aesPlaintext crypto tags payload))) ∧
      tags.map SessionTag.tag = f.newTags ∧
      match f.tag with
      | some tag => start = tag.bytes ∧ iv = crypto.iv tag ∧ f.front = tag
      | none => ∃ (random : List UInt8) (preIV : Tag) (padding : Block 158),
        start = crypto.elGamalEncrypt publicKey random
          (key.bytes ++ preIV.bytes ++ padding.bytes) ∧
        iv = crypto.iv preIV ∧ f.front = blockTag start 0

theorem Flight.Encoded.front_eq {crypto : Crypto} {key : Tag} {publicKey : List UInt8} {f : Flight}
    (h : f.Encoded crypto key publicKey) {tag : Tag} (htag : f.tag = some tag) : f.front = tag := by
  obtain ⟨-, _, _, _, _, _, _, -, -, hstart⟩ := h
  rw [htag] at hstart
  exact hstart.2.2

/-- Tags that are within their block are added. -/
theorem newTags_courseBehind (crypto : Crypto) {m : Mem} {buf left : ℕ} (left' : ℕ)
    (h : readBE (slice m buf 2) * 32 ≤ left) :
    (courseBehind crypto m buf left left').newTags = GarlicDestination.newTags m buf := by
  rw [courseBehind, if_neg (by omega), Course.subtracting]
  split <;> rfl

theorem newTags_blockCourse {crypto : Crypto} {tags : List SessionTag} {payload : List UInt8} {m : Mem}
    {buf : ℕ} (htags : tags.length < 65536) (hsize : payload.length < 2 ^ 32)
    (h : StandsAt m buf (aesPlaintext crypto tags payload)) :
    (blockCourse crypto m buf (aesPlaintext crypto tags payload).length).newTags =
      tags.map SessionTag.tag := by
  obtain ⟨-, hge, hle⟩ := length_aesPlaintext crypto tags payload
  generalize (aesPlaintext crypto tags payload).length = len at hge hle ⊢
  rw [aesPlaintext] at h
  obtain ⟨hblock, -⟩ := standsAt_append.mp h
  obtain ⟨hhead, -⟩ := standsAt_append.mp hblock
  obtain ⟨hhead, -⟩ := standsAt_append.mp hhead
  obtain ⟨hhead, -⟩ := standsAt_append.mp hhead
  obtain ⟨hcount, htagBytes⟩ := standsAt_append.mp hhead
  rw [length_writeBE] at htagBytes
  have hcountVal : readBE (slice m buf 2) = tags.length := by
    rw [hcount.readBE_eq]
    exact Nat.mod_eq_of_lt htags
  have hlen : subSize len 2 = len - 2 := subSize_of_le (by omega) (by omega)
  have hroom : readBE (slice m buf 2) * 32 ≤ subSize len 2 := by
    rw [hcountVal, hlen]
    omega
  rw [blockCourse, Course.subtracting]
  dsimp only
  rw [newTags_courseBehind crypto _ hroom, GarlicDestination.newTags, hcountVal]
  exact map_ofMem_eq htagBytes

/-- The block of a message that is decrypted with the right key. -/
theorem newTags_decryptedCourse {crypto : Crypto} (hcrypto : crypto.Inverts) {key : Tag}
    {iv : List UInt8} {tags : List SessionTag} {payload : List UInt8} {m : Mem} {buf start : ℕ}
    (htags : tags.length < 65536) (hsize : payload.length < 2 ^ 32)
    (h : StandsAt m (buf + start) (crypto.cbcEncrypt key iv (aesPlaintext crypto tags payload))) :
    (decryptedCourse crypto key iv m buf start
      (start + (aesPlaintext crypto tags payload).length)).newTags = tags.map SessionTag.tag := by
  obtain ⟨hdvd, -, -⟩ := length_aesPlaintext crypto tags payload
  rw [StandsAt, hcrypto.length_cbcEncrypt _ _ _ hdvd] at h
  rw [decryptedCourse, Course.subtracting]
  dsimp only
  rw [decrypted, Nat.add_sub_cancel_left, h, hcrypto.cbcDecrypt_cbcEncrypt _ _ _ hdvd]
  exact newTags_blockCourse htags hsize (standsAt_store _ _ _)

/-- A message that the destination can decrypt delivers the tags that the session put in. -/
theorem Flight.Encoded.decodes {crypto : Crypto} (hcrypto : crypto.Inverts) {key : Tag}
    {publicKey : List UInt8} {f : Flight} (h : f.Encoded crypto key publicKey)
    {receiver : GarlicDestination} (hpair : crypto.ElGamalPair publicKey receiver.privateKey) {m : Mem}
    (hm : StandsAt m 0 f.bytes) :
    messageTag m = f.front ∧
      ((∃ tag entry, f.tag = some tag ∧ AssocMap.find receiver.tags f.front = some entry ∧
          entry.key = key) ∨ f.tag = none ∧ AssocMap.find receiver.tags f.front = none →
        (receiver.messageCourse crypto m f.bytes.length).newTags = f.newTags ∧
          decryptionKey crypto receiver m = key) := by
  obtain ⟨hfits, msgID, milliseconds, start, iv, tags, payload, hbytes, htags, hstart⟩ := h
  rw [hbytes] at hm hfits ⊢
  have hstands := standsAt_payload hm
  rw [withLength, List.append_assoc] at hstands
  obtain ⟨hlength, hrest⟩ := standsAt_append.mp hstands
  rw [length_writeBE] at hrest
  obtain ⟨hfront, hblock⟩ := standsAt_append.mp hrest
  obtain ⟨hdvd, hge, -⟩ := length_aesPlaintext crypto tags payload
  have hcipher := hcrypto.length_cbcEncrypt key iv _ hdvd
  rw [length_fillI2NPMessageHeader, withLength, List.length_append, List.length_append,
    length_writeBE, hcipher] at hfits ⊢
  rw [hcipher] at hlength
  generalize hplain : (aesPlaintext crypto tags payload).length = plain at hfits hlength hge ⊢
  simp only [maxMessageSize, headerSize] at hfits
  have hlengthVal : encryptedLength m = start.length + plain := by
    rw [encryptedLength, hlength.readBE_eq]
    exact Nat.mod_eq_of_lt (by omega)
  have hle : ¬ headerSize + (4 + start.length + plain) < encryptedLength m := by omega
  have htagsLen : tags.length < 65536 := by omega
  have hpayload : payload.length < 2 ^ 32 := by omega
  have hcourse : receiver.messageCourse crypto m (headerSize + (4 + start.length + plain)) =
      receiver.tagCourse crypto m (headerSize + 4) (start.length + plain) := by
    rw [messageCourse, if_neg hle, hlengthVal]
  rw [hcourse, decryptionKey, tagCourse, messageTag, ← htags, ← hplain]
  cases htag : f.tag with
  | some tag =>
    rw [htag] at hstart
    obtain ⟨rfl, rfl, hf⟩ := hstart
    have hofMem : IdentHash.ofMem m (headerSize + 4) = tag := ofMem_of_standsAt hfront
    rw [hofMem, hf]
    refine ⟨rfl, ?_⟩
    rintro (⟨-, entry, -, hentry, rfl⟩ | ⟨hnone, -⟩)
    · rw [tag.length_eq] at hblock
      rw [hentry, tag.length_eq]
      simp only [Nat.le_add_right, if_true, and_true]
      exact newTags_decryptedCourse hcrypto htagsLen hpayload hblock
    · cases hnone
  | none =>
    rw [htag] at hstart
    obtain ⟨random, preIV, padding, rfl, rfl, hf⟩ := hstart
    have hlen : (key.bytes ++ preIV.bytes ++ padding.bytes).length = 222 := by simp
    have hlenStart := hpair.length_elGamalEncrypt random _ hlen
    have hdecrypt := hpair.elGamalDecrypt_elGamalEncrypt random _ hlen
    obtain ⟨hkey, hpreIV⟩ := blockTag_elGamalBlock key preIV padding
    have hread : slice m (headerSize + 4) 514 = crypto.elGamalEncrypt publicKey random
        (key.bytes ++ preIV.bytes ++ padding.bytes) := by
      rw [StandsAt, hlenStart] at hfront
      exact hfront
    have hofMem : IdentHash.ofMem m (headerSize + 4) = f.front := by
      rw [hf]
      ext1
      rw [bytes_blockTag (by omega)]
      exact hfront.slice_eq (k := 0) (by omega)
    rw [hofMem]
    refine ⟨rfl, ?_⟩
    rintro (⟨tag, -, hsome, -⟩ | ⟨-, hnone⟩)
    · cases hsome
    · rw [hlenStart] at hblock
      rw [hnone, hlenStart]
      simp only [Nat.le_add_right, if_true, hread, hdecrypt, hkey, hpreIV, Option.map_some,
        Option.getD_some, and_true]
      exact newTags_decryptedCourse hcrypto htagsLen hpayload hblock

/-! ## The invariant -/

/-- The destination holds the tag, with the key of the session, and not from before it was generated. -/
def HoldsTag (key : Tag) (receiver : GarlicDestination) (t : SessionTag) : Prop :=
  ∃ time, AssocMap.find receiver.tags t.tag = some ⟨time, key⟩ ∧ t.creationTime ≤ time

/-- The tag has not expired for the session. -/
def SessionTag.Live (t : SessionTag) (clock : ℕ) : Prop :=
  clock < t.creationTime + outgoingTagsExpirationTimeout

/-- What holds of the tags of the session, of what is on the way, and of the destination. -/
structure Invariant (crypto : Crypto) (key : Tag) (destination : RoutingDestination) (w : World) :
    Prop where
  sessionKey : w.session.sessionKey = key
  toDestination : w.session.destination = some destination
  pair : crypto.ElGamalPair destination.publicKey w.receiver.privateKey
  distinct : AssocMap.Distinct w.receiver.tags
  /-- A tag can be used, waits for a status, or has been used, and this once. -/
  apart : ∀ tag, (w.session.sessionTags.map SessionTag.tag).count tag +
    (waitingTags w.session.unconfirmedTagsMsgs).count tag + w.usedTags.count tag ≤ 1
  ownSession : ∀ t ∈ w.session.sessionTags, t.tag ∈ w.ownTags
  ownWaiting : ∀ tag ∈ waitingTags w.session.unconfirmedTagsMsgs, tag ∈ w.ownTags
  ownUsed : ∀ tag ∈ w.usedTags, tag ∈ w.ownTags
  seenHeld : ∀ tag, AssocMap.find w.receiver.tags tag ≠ none → tag ∈ w.seenTags
  seenOwn : ∀ tag ∈ w.ownTags, tag ∈ w.seenTags
  seenFront : ∀ f ∈ w.flying, f.front ∈ w.seenTags
  seenNew : ∀ f ∈ w.flying, ∀ tag ∈ f.newTags, tag ∈ w.seenTags
  seenWaiting : ∀ e ∈ w.session.unconfirmedTagsMsgs, e.1 ∈ w.seenIDs
  seenStatus : ∀ msgID ∈ w.statuses, msgID ∈ w.seenIDs
  seenAsked : ∀ f ∈ w.flying, ∀ msgID ∈ f.statusID, msgID ∈ w.seenIDs
  born : ∀ e ∈ w.session.unconfirmedTagsMsgs, ∀ t ∈ e.2.sessionTags, t.creationTime ≤ w.clock
  /-- The tags that can be used are held. -/
  usable : ∀ t ∈ w.session.sessionTags, t.Live w.clock → HoldsTag key w.receiver t
  /-- The tags whose status is on its way back are held. -/
  answered : ∀ e ∈ w.session.unconfirmedTagsMsgs, e.1 ∈ w.statuses →
    ∀ t ∈ e.2.sessionTags, t.Live w.clock → HoldsTag key w.receiver t
  /-- The tags that wait for the status of a message are those that the message delivers. -/
  carried : ∀ f ∈ w.flying, ∀ msgID ∈ f.statusID, ∀ e ∈ w.session.unconfirmedTagsMsgs,
    e.1 = msgID → e.2.sessionTags.map SessionTag.tag = f.newTags
  undelivered : ∀ f ∈ w.flying, ∀ tag ∈ f.newTags, AssocMap.find w.receiver.tags tag = none
  deliveredOnce : ∀ tag, (w.flying.flatMap Flight.newTags).count tag ≤ 1
  usedFlying : ∀ tag, (w.flying.filterMap Flight.tag).count tag ≤ w.usedTags.count tag
  /-- The tag of a message is held as long as the message can arrive. -/
  awaited : ∀ f ∈ w.flying, w.clock ≤ f.sentAt + 240 → ∀ tag ∈ f.tag,
    ∃ time, AssocMap.find w.receiver.tags tag = some ⟨time, key⟩ ∧
      f.sentAt < time + outgoingTagsExpirationTimeout
  plainHeld : ∀ f ∈ w.flying, f.tag = none → AssocMap.find w.receiver.tags f.front = none
  plainNew : ∀ f ∈ w.flying, f.tag = none → ∀ f' ∈ w.flying, f.front ∉ f'.newTags
  encoded : ∀ f ∈ w.flying, f.Encoded crypto key destination.publicKey

section Steps

variable {crypto : Crypto} {key : Tag} {destination : RoutingDestination} {w : World}

theorem SessionTag.Live.of_le {t : SessionTag} {clock clock' : ℕ} (h : t.Live clock')
    (hle : clock ≤ clock') : t.Live clock :=
  Nat.lt_of_le_of_lt hle h

theorem Invariant.wait (h : Invariant crypto key destination w) (seconds : ℕ) :
    Invariant crypto key destination { w with clock := w.clock + seconds } :=
  { h with
    born := fun e he t ht => (h.born e he t ht).trans (Nat.le_add_right _ _)
    usable := fun t ht hlive => h.usable t ht (hlive.of_le (Nat.le_add_right _ _))
    answered := fun e he hstatus t ht hlive =>
      h.answered e he hstatus t ht (hlive.of_le (Nat.le_add_right _ _))
    awaited := fun f hf harrives => h.awaited f hf ((Nat.le_add_right _ _).trans harrives) }

theorem Invariant.lose (h : Invariant crypto key destination w) {before after : List Flight}
    {f : Flight} (hflying : w.flying = before ++ f :: after) :
    Invariant crypto key destination { w with flying := before ++ after } := by
  have hsublist : (before ++ after).Sublist w.flying := by
    rw [hflying]
    exact (List.sublist_cons_self f after).append_left before
  have hmem : ∀ f' ∈ before ++ after, f' ∈ w.flying := fun _ hf' => hsublist.subset hf'
  exact { h with
    seenFront := fun f' hf' => h.seenFront f' (hmem f' hf')
    seenNew := fun f' hf' => h.seenNew f' (hmem f' hf')
    seenAsked := fun f' hf' => h.seenAsked f' (hmem f' hf')
    carried := fun f' hf' => h.carried f' (hmem f' hf')
    undelivered := fun f' hf' => h.undelivered f' (hmem f' hf')
    deliveredOnce := fun tag => ((hsublist.flatMap _).count_le tag).trans (h.deliveredOnce tag)
    usedFlying := fun tag => ((hsublist.filterMap _).count_le tag).trans (h.usedFlying tag)
    awaited := fun f' hf' => h.awaited f' (hmem f' hf')
    plainHeld := fun f' hf' => h.plainHeld f' (hmem f' hf')
    plainNew := fun f' hf' hnone f'' hf'' => h.plainNew f' (hmem f' hf') hnone f'' (hmem f'' hf'')
    encoded := fun f' hf' => h.encoded f' (hmem f' hf') }

theorem Invariant.loseStatus (h : Invariant crypto key destination w) {before after : List UInt32}
    {msgID : UInt32} (hstatuses : w.statuses = before ++ msgID :: after) :
    Invariant crypto key destination { w with statuses := before ++ after } := by
  have hmem : ∀ id ∈ before ++ after, id ∈ w.statuses := fun id hid => by
    rw [hstatuses]
    exact (List.sublist_cons_self msgID after).append_left before |>.subset hid
  exact { h with
    seenStatus := fun id hid => h.seenStatus id (hmem id hid)
    answered := fun e he hid => h.answered e he (hmem e.1 hid) }

/-- Statuses, times and lease sets do not matter to the tags. -/
theorem Invariant.leaseSetStatus (h : Invariant crypto key destination w)
    (status : LeaseSetUpdateStatus) (createdSessions : List UInt32) :
    Invariant crypto key destination { w with
      session := { w.session with leaseSetUpdateStatus := status }
      createdSessions } :=
  { h with }

theorem Invariant.setLeaseSetUpdated (h : Invariant crypto key destination w) :
    Invariant crypto key destination { w with session := w.session.setLeaseSetUpdated } := by
  rw [GarlicRoutingSession.setLeaseSetUpdated]
  split
  · exact h.leaseSetStatus .updated w.createdSessions
  · exact h

theorem Invariant.cleanup (h : Invariant crypto key destination w) (createdSessions : List UInt32) :
    Invariant crypto key destination { w with
      session := (w.session.cleanupExpiredTags w.clock).1
      createdSessions } := by
  have hsession : ((w.session.cleanupExpiredTags w.clock).1.sessionTags).Sublist
      w.session.sessionTags := List.filter_sublist
  have hwaiting : ((w.session.cleanupExpiredTags w.clock).1.unconfirmedTagsMsgs).Sublist
      w.session.unconfirmedTagsMsgs := List.filter_sublist
  exact { h with
    apart := fun tag => by
      have h₁ := (hsession.map SessionTag.tag).count_le tag
      have h₂ : (waitingTags _).count tag ≤ (waitingTags _).count tag :=
        (hwaiting.flatMap fun e => e.2.sessionTags.map SessionTag.tag).count_le tag
      have := h.apart tag
      dsimp only
      omega
    ownSession := fun t ht => h.ownSession t (hsession.subset ht)
    ownWaiting := fun tag htag => h.ownWaiting tag ((hwaiting.flatMap _).subset htag)
    seenWaiting := fun e he => h.seenWaiting e (hwaiting.subset he)
    born := fun e he => h.born e (hwaiting.subset he)
    usable := fun t ht => h.usable t (hsession.subset ht)
    answered := fun e he => h.answered e (hwaiting.subset he)
    carried := fun f hf id hid e he => h.carried f hf id hid e (hwaiting.subset he) }

/-- The tags whose status has arrived are held. -/
theorem Invariant.tagsConfirmed (h : Invariant crypto key destination w) {msgID : UInt32}
    (hstatus : msgID ∈ w.statuses) :
    Invariant crypto key destination { w with
      session := w.session.tagsConfirmed w.clock msgID } := by
  rw [GarlicRoutingSession.tagsConfirmed]
  split
  next tags hfind =>
    have hmem := AssocMap.mem_of_find hfind
    have hwaiting : (AssocMap.erase w.session.unconfirmedTagsMsgs msgID).Sublist
        w.session.unconfirmedTagsMsgs := List.filter_sublist
    have hin : ∀ t ∈ tags.sessionTags, t.tag ∈ waitingTags w.session.unconfirmedTagsMsgs :=
      fun t ht => List.mem_flatMap.mpr ⟨_, hmem, List.mem_map_of_mem ht⟩
    have hcases : ∀ t ∈ (if w.clock < tags.tagsCreationTime + outgoingTagsExpirationTimeout then
        w.session.sessionTags ++ tags.sessionTags else w.session.sessionTags),
        t ∈ w.session.sessionTags ∨ t ∈ tags.sessionTags := fun t ht => by
      split at ht
      · exact List.mem_append.mp ht
      · exact .inl ht
    exact { h with
      apart := fun tag => by
        have herase := count_waitingTags_erase_le hfind tag
        have hapart := h.apart tag
        dsimp only
        split
        · rw [List.map_append, List.count_append]
          omega
        · omega
      ownSession := fun t ht => (hcases t ht).elim (h.ownSession t) fun ht =>
        h.ownWaiting _ (hin t ht)
      ownWaiting := fun tag htag => h.ownWaiting tag ((hwaiting.flatMap _).subset htag)
      seenWaiting := fun e he => h.seenWaiting e (hwaiting.subset he)
      born := fun e he => h.born e (hwaiting.subset he)
      usable := fun t ht hlive => (hcases t ht).elim (fun ht => h.usable t ht hlive) fun ht =>
        h.answered _ hmem hstatus t ht hlive
      answered := fun e he => h.answered e (hwaiting.subset he)
      carried := fun f hf id hid e he => h.carried f hf id hid e (hwaiting.subset he) }
  next => exact h

theorem Invariant.confirm (h : Invariant crypto key destination w) {before after : List UInt32}
    {msgID : UInt32} (hstatuses : w.statuses = before ++ msgID :: after) :
    Invariant crypto key destination ({ w with statuses := before ++ after }.confirmed msgID) := by
  have hstatus : msgID ∈ w.statuses := by
    rw [hstatuses]
    exact List.mem_append_right _ List.mem_cons_self
  have hconfirmed := (h.tagsConfirmed hstatus).loseStatus hstatuses
  rw [World.confirmed]
  split
  next =>
    rw [messageConfirmed]
    dsimp only
    split
    · exact hconfirmed.leaseSetStatus .upToDate _
    · exact hconfirmed.cleanup _
  next => exact h.loseStatus hstatuses

/-- A tag that is held survives a message that neither starts with it nor delivers it. -/
theorem HoldsTag.received {now : ℕ} {key' front : Tag} {newTags : List Tag}
    {receiver receiver' : GarlicDestination}
    (hreceived : Received now key' newTags front receiver.tags receiver'.tags) {t : SessionTag}
    (h : HoldsTag key receiver t) (hnew : t.tag ∉ newTags) (hfront : t.tag ≠ front)
    (hlive : t.Live now) : HoldsTag key receiver' t := by
  obtain ⟨time, hfind, hle⟩ := h
  refine ⟨time, hreceived.kept _ _ hnew hfront hfind ?_, hle⟩
  simp only [SessionTag.Live, outgoingTagsExpirationTimeout] at hlive
  simp only [incomingTagsExpirationTimeout]
  omega

theorem HoldsTag.ne_none {receiver : GarlicDestination} {t : SessionTag}
    (h : HoldsTag key receiver t) : AssocMap.find receiver.tags t.tag ≠ none := by
  obtain ⟨time, hfind, -⟩ := h
  rw [hfind]
  exact Option.some_ne_none _

/-- The tag of a message on its way has been used. -/
theorem Invariant.mem_usedTags (h : Invariant crypto key destination w) {f : Flight}
    (hf : f ∈ w.flying) {tag : Tag} (htag : f.tag = some tag) : tag ∈ w.usedTags := by
  have hmem : tag ∈ w.flying.filterMap Flight.tag := List.mem_filterMap.mpr ⟨f, hf, htag⟩
  exact List.count_pos_iff.mp ((List.count_pos_iff.mpr hmem).trans_le (h.usedFlying tag))

/-- The tag of a message on its way is held, and will be until the message arrives. -/
theorem Invariant.held_of_awaited (h : Invariant crypto key destination w) {f : Flight}
    (hf : f ∈ w.flying) (harrives : w.clock ≤ f.sentAt + 240) {tag : Tag} (htag : tag ∈ f.tag) :
    ∃ time, AssocMap.find w.receiver.tags tag = some ⟨time, key⟩ ∧
      AssocMap.find w.receiver.tags tag ≠ none ∧
      w.clock ≤ time + incomingTagsExpirationTimeout ∧
      f.sentAt < time + outgoingTagsExpirationTimeout := by
  obtain ⟨time, hfind, hlt⟩ := h.awaited f hf harrives tag htag
  refine ⟨time, hfind, by simp [hfind], ?_, hlt⟩
  -- 240 seconds on the way and 720 before it add up to 960
  simp only [outgoingTagsExpirationTimeout] at hlt
  simp only [incomingTagsExpirationTimeout]
  omega

/-- A message that has nothing to do with the session. -/
theorem Invariant.foreign (h : Invariant crypto key destination w) {key' front : Tag}
    {newTags : List Tag} {receiver' : GarlicDestination} (hfront : front ∉ w.ownTags)
    (hfresh : ∀ tag ∈ newTags, tag ∉ w.seenTags)
    (hleaves : Leaves w.clock key' newTags front w.receiver receiver') :
    Invariant crypto key destination { w with
      receiver := receiver'
      seenTags := w.seenTags ++ newTags } := by
  obtain ⟨hprivateKey, hreceived⟩ := hleaves
  have hheld : ∀ tag, AssocMap.find w.receiver.tags tag ≠ none → tag ∉ newTags := fun tag hne hmem =>
    hfresh tag hmem (h.seenHeld tag hne)
  have hunseen : ∀ tag ∈ w.seenTags, tag ∉ newTags := fun tag hseen hmem => hfresh tag hmem hseen
  have hown : ∀ tag ∈ w.ownTags, tag ≠ front := fun tag htag heq => hfront (heq ▸ htag)
  exact { h with
    pair := by
      rw [hprivateKey]
      exact h.pair
    distinct := hreceived.distinct
    seenHeld := fun tag hne => by
      by_cases hmem : tag ∈ newTags
      · exact List.mem_append_right _ hmem
      · exact List.mem_append_left _ (h.seenHeld tag fun hnone =>
          hne (hreceived.others tag hmem hnone))
    seenOwn := fun tag htag => List.mem_append_left _ (h.seenOwn tag htag)
    seenFront := fun f hf => List.mem_append_left _ (h.seenFront f hf)
    seenNew := fun f hf tag htag => List.mem_append_left _ (h.seenNew f hf tag htag)
    usable := fun t ht hlive =>
      have hholds := h.usable t ht hlive
      hholds.received hreceived (hheld _ hholds.ne_none) (hown _ (h.ownSession t ht)) hlive
    answered := fun e he hstatus t ht hlive =>
      have hholds := h.answered e he hstatus t ht hlive
      have htag := h.ownWaiting t.tag (List.mem_flatMap.mpr ⟨e, he, List.mem_map_of_mem ht⟩)
      hholds.received hreceived (hheld _ hholds.ne_none) (hown _ htag) hlive
    undelivered := fun f hf tag htag =>
      hreceived.others tag (hunseen tag (h.seenNew f hf tag htag)) (h.undelivered f hf tag htag)
    awaited := fun f hf harrives tag htag => by
      obtain ⟨time, hfind, hne, hlive, hlt⟩ := h.held_of_awaited hf harrives htag
      have hused := h.mem_usedTags hf htag
      exact ⟨time, hreceived.kept _ _ (hheld tag hne) (hown tag (h.ownUsed tag hused)) hfind hlive,
        hlt⟩
    plainHeld := fun f hf hnone =>
      hreceived.others _ (hunseen _ (h.seenFront f hf)) (h.plainHeld f hf hnone) }

theorem Invariant.receive (hcrypto : crypto.Inverts) (h : Invariant crypto key destination w)
    {before after : List Flight} {f : Flight} {m : Mem} {hasTunnel : Bool} {throws : ℕ → Bool}
    (hflying : w.flying = before ++ f :: after) (harrives : w.clock ≤ f.sentAt + 240)
    (hm : StandsAt m 0 f.bytes) {handled : Handled}
    (hhandled : (w.receiver.handleGarlicMessageThrowing crypto w.clock hasTunnel throws m
      f.bytes.length).val = handled) :
    Invariant crypto key destination { w with
      receiver := handled.destination
      flying := before ++ after
      statuses := w.statuses ++ World.answers f handled.dispatched } := by
  have hmem : f ∈ w.flying := by
    rw [hflying]
    exact List.mem_append_right _ List.mem_cons_self
  have hsublist : (before ++ after).Sublist w.flying := by
    rw [hflying]
    exact (List.sublist_cons_self f after).append_left before
  have hrest : ∀ f' ∈ before ++ after, f' ∈ w.flying := fun _ hf' => hsublist.subset hf'
  -- the destination can decrypt the message
  obtain ⟨hmessageTag, hdecodes⟩ := (h.encoded f hmem).decodes hcrypto h.pair hm
  have hfrontTag : ∀ tag, f.tag = some tag → f.front = tag := fun tag htag =>
    (h.encoded f hmem).front_eq htag
  obtain ⟨hnewTags, hkey⟩ := hdecodes (by
    cases htag : f.tag with
    | some tag =>
      obtain ⟨time, hfind, -⟩ := h.awaited f hmem harrives tag htag
      exact .inl ⟨tag, ⟨time, key⟩, rfl, by rw [hfrontTag tag htag, hfind], rfl⟩
    | none => exact .inr ⟨rfl, h.plainHeld f hmem htag⟩)
  have hleaves : Leaves w.clock (decryptionKey crypto w.receiver m)
      (w.receiver.messageCourse crypto m f.bytes.length).newTags (messageTag m) w.receiver
      handled.destination :=
    hhandled ▸ leaves_handleGarlicMessageThrowing h.distinct m f.bytes.length
  rw [hnewTags, hkey, hmessageTag] at hleaves
  obtain ⟨hprivateKey, hreceived⟩ := hleaves
  -- what is held is not delivered again, and the message starts with it only if it is its tag
  have hheld : ∀ tag, AssocMap.find w.receiver.tags tag ≠ none → tag ∉ f.newTags :=
    fun tag hne htag => hne (h.undelivered f hmem tag htag)
  have hfront : ∀ tag, AssocMap.find w.receiver.tags tag ≠ none → f.tag ≠ some tag →
      tag ≠ f.front := by
    rintro tag hne htag rfl
    cases hf : f.tag with
    | some tag' => exact htag (by rw [hf, hfrontTag tag' hf])
    | none => exact hne (h.plainHeld f hmem hf)
  have hapart : ∀ tag, f.tag = some tag → (w.session.sessionTags.map SessionTag.tag).count tag +
      (waitingTags w.session.unconfirmedTagsMsgs).count tag = 0 := fun tag htag => by
    have hused := List.count_pos_iff.mpr (h.mem_usedTags hmem htag)
    have := h.apart tag
    omega
  have hanswers : ∀ msgID ∈ World.answers f handled.dispatched, msgID ∈ f.statusID := by
    intro msgID hmsgID
    unfold World.answers at hmsgID
    split at hmsgID
    · exact Option.mem_toList.mp hmsgID
    · cases hmsgID
  have hlost := h.lose hflying
  exact { hlost with
    pair := by
      rw [hprivateKey]
      exact h.pair
    distinct := hreceived.distinct
    seenHeld := fun tag hne => by
      by_cases hnew : tag ∈ f.newTags
      · exact h.seenNew f hmem tag hnew
      · exact h.seenHeld tag fun hnone => hne (hreceived.others tag hnew hnone)
    seenStatus := fun msgID hmsgID => (List.mem_append.mp hmsgID).elim (h.seenStatus msgID)
      fun hanswer => h.seenAsked f hmem msgID (hanswers msgID hanswer)
    usable := fun t ht hlive => by
      have hholds := h.usable t ht hlive
      refine hholds.received hreceived (hheld _ hholds.ne_none)
        (hfront _ hholds.ne_none fun htag => ?_) hlive
      have hpos : 0 < (w.session.sessionTags.map SessionTag.tag).count t.tag :=
        List.count_pos_iff.mpr (List.mem_map_of_mem ht)
      have := hapart _ htag
      omega
    answered := fun e he hstatus t ht hlive => by
      have hwaiting : t.tag ∈ waitingTags w.session.unconfirmedTagsMsgs :=
        List.mem_flatMap.mpr ⟨e, he, List.mem_map_of_mem ht⟩
      have hother : f.tag ≠ some t.tag := fun htag => by
        have hpos := List.count_pos_iff.mpr hwaiting
        have := hapart _ htag
        omega
      obtain hold | hanswer := List.mem_append.mp hstatus
      · have hholds := h.answered e he hold t ht hlive
        exact hholds.received hreceived (hheld _ hholds.ne_none) (hfront _ hholds.ne_none hother)
          hlive
      · -- the status of this message: its tags have just been added
        have hcarried := h.carried f hmem e.1 (hanswers e.1 hanswer) e he rfl
        have hnew : t.tag ∈ f.newTags := hcarried ▸ List.mem_map_of_mem ht
        have hne : t.tag ≠ f.front := by
          intro heq
          cases hf : f.tag with
          | some tag => exact hother (by rw [hf, heq, hfrontTag tag hf])
          | none => exact h.plainNew f hmem hf f hmem (heq ▸ hnew)
        exact ⟨w.clock, hreceived.added _ hnew hne (h.undelivered f hmem _ hnew), h.born e he t ht⟩
    undelivered := fun f' hf' tag htag => by
      refine hreceived.others tag (fun hnew => ?_) (h.undelivered f' (hrest f' hf') tag htag)
      have hcount := h.deliveredOnce tag
      rw [hflying] at hcount
      have hpos := List.count_pos_iff.mpr hnew
      have hpos' : 0 < ((before ++ after).flatMap Flight.newTags).count tag :=
        List.count_pos_iff.mpr (List.mem_flatMap.mpr ⟨f', hf', htag⟩)
      simp only [List.flatMap_append, List.flatMap_cons, List.count_append] at hcount hpos'
      omega
    awaited := fun f' hf' harrives' tag htag => by
      obtain ⟨time, hfind, hne, hlive, hlt⟩ := h.held_of_awaited (hrest f' hf') harrives' htag
      refine ⟨time, hreceived.kept _ _ (hheld tag hne) (hfront tag hne fun heq => ?_) hfind hlive,
        hlt⟩
      have hcount := (h.usedFlying tag).trans ((Nat.le_add_left _ _).trans (h.apart tag))
      have hpos : 0 < ((before ++ after).filterMap Flight.tag).count tag :=
        List.count_pos_iff.mpr (List.mem_filterMap.mpr ⟨f', hf', htag⟩)
      rw [hflying, List.filterMap_append, List.filterMap_cons, heq] at hcount
      simp only [List.filterMap_append, List.count_append, List.count_cons_self] at hcount hpos
      omega
    plainHeld := fun f' hf' hnone =>
      hreceived.others _ (h.plainNew f' (hrest f' hf') hnone f hmem)
        (h.plainHeld f' (hrest f' hf') hnone) }

theorem Invariant.wrap (h : Invariant crypto key destination w) {call : Call} {draws : Draws}
    {msg : Option (List UInt8)} {front : Tag} {session : GarlicRoutingSession}
    {wrapped : List UInt8} {calls : List OwnerCall} (hclock : call.seconds = w.clock)
    (hwrap : w.session.wrapSingleMessage crypto call draws msg = some (session, wrapped, calls))
    (hfits : wrapped.length ≤ maxMessageSize) (hfresh : w.Fresh crypto call)
    (hfront : w.nextFront crypto call = some front) :
    Invariant crypto key destination (w.sent call front session wrapped calls) := by
  obtain ⟨hsends, start, iv, payload, hstart, hbytes⟩ := sends_wrapSingleMessage hwrap
  obtain ⟨sessionTags, htaken⟩ := findTag_snd w.session call
  have hunconfirmed : (w.session.findTag call).2.unconfirmedTagsMsgs =
      w.session.unconfirmedTagsMsgs := by rw [htaken]
  have hwaiting := hsends.unconfirmed
  have hcount := hsends.count
  rw [hunconfirmed] at hwaiting hcount
  -- the tags that are drawn have not been seen
  have hdrawn : ∀ tag ∈ w.seenTags, tag ∉ w.drawnTags call := fun tag hseen htag =>
    hfresh.notSeen tag htag hseen
  have hdrawnOnce : ∀ tag, (w.drawnTags call).count tag ≤ 1 :=
    List.nodup_iff_count_le_one.mp hfresh.nodup
  -- the tag that is taken was usable, and is not among those that are left
  have hleft : session.sessionTags.Sublist w.session.sessionTags := by
    rw [hsends.sessionTags]
    obtain ⟨-, hsublist⟩ | ⟨t, -, -, -, hsublist⟩ := findTag_cases w.session call
    · exact hsublist
    · exact (List.sublist_cons_self t _).trans hsublist
  have htakes : ∀ tag, (session.sessionTags.map SessionTag.tag).count tag +
      (w.session.findTag call).1.toList.count tag ≤
        (w.session.sessionTags.map SessionTag.tag).count tag := fun tag => by
    rw [hsends.sessionTags]
    obtain ⟨hnone, hsublist⟩ | ⟨t, -, hsome, -, hsublist⟩ := findTag_cases w.session call
    · rw [hnone]
      exact (hsublist.map SessionTag.tag).count_le tag
    · have hle := (hsublist.map SessionTag.tag).count_le tag
      rw [hsome, Option.toList_some, List.count_singleton]
      rw [List.map_cons, List.count_cons] at hle
      exact hle
  have husable : ∀ tag ∈ (w.session.findTag call).1, ∃ t ∈ w.session.sessionTags, t.tag = tag ∧
      t.Live w.clock := fun tag htag => by
    obtain ⟨hnone, -⟩ | ⟨t, ht, hsome, hlive, -⟩ := findTag_cases w.session call
    · rw [hnone] at htag
      cases htag
    · rw [hsome] at htag
      exact ⟨t, ht, Option.some.inj htag, hclock ▸ hlive⟩
  have hfrontSeen : (w.session.findTag call).1 = none →
      front ∉ w.seenTags ∧ front ∉ w.drawnTags call := fun hnone => by
    refine hfresh.front hnone front ?_
    rw [World.nextFront, hnone] at hfront
    exact hfront
  have hnewWaiting : ∀ e ∈ session.unconfirmedTagsMsgs, e ∈ w.session.unconfirmedTagsMsgs ∨
      e.1 = call.draws.msgID ∧ e.2.sessionTags.map SessionTag.tag = w.drawnTags call ∧
        ∀ t ∈ e.2.sessionTags, t.creationTime = w.clock := fun e he => by
    refine (hwaiting e he).imp_right fun ⟨hid, hnew⟩ => ⟨hid, ?_, ?_⟩
    · rw [World.drawnTags, sentTags, hnew]
      rfl
    · rw [GarlicRoutingSession.newTags] at hnew
      split at hnew
      · rw [← Option.some.inj hnew]
        intro t ht
        obtain ⟨i, -, rfl⟩ := List.mem_map.mp ht
        exact hclock
      · cases hnew
  have hdrawnCount : ∀ tag, (waitingTags session.unconfirmedTagsMsgs).count tag ≤
      (waitingTags w.session.unconfirmedTagsMsgs).count tag + (w.drawnTags call).count tag := hcount
  -- the new message is the last one on its way
  have hflying : ∀ {P : Flight → Prop}, (∀ f ∈ w.flying, P f) →
      P { sentAt := w.clock, bytes := wrapped, tag := (w.session.findTag call).1, front
          newTags := w.drawnTags call, statusID := World.announced calls } →
      ∀ f ∈ (w.sent call front session wrapped calls).flying, P f := fun hold hnew f hf =>
    (List.mem_append.mp hf).elim (hold f) fun hf => by
      rw [List.mem_singleton] at hf
      exact hf ▸ hnew
  have hencoded : Flight.Encoded crypto key destination.publicKey
      { sentAt := w.clock, bytes := wrapped, tag := (w.session.findTag call).1, front
        newTags := w.drawnTags call, statusID := World.announced calls } := by
    refine ⟨hfits, call.draws.headerID, call.milliseconds, start, iv, _, payload,
      h.sessionKey ▸ hbytes, rfl, ?_⟩
    rw [World.nextFront] at hfront
    dsimp only
    cases htag : (w.session.findTag call).1 with
    | some tag =>
      rw [htag, messageStart] at hstart
      rw [htag] at hfront
      obtain ⟨rfl, rfl⟩ := Prod.mk.inj (Option.some.inj hstart)
      exact ⟨rfl, rfl, (Option.some.inj hfront).symm⟩
    | none =>
      rw [htag] at hstart
      unfold messageStart at hstart
      rw [h.toDestination] at hstart
      rw [htag, Option.none_or, World.elGamalFront, h.toDestination] at hfront
      obtain ⟨rfl, rfl⟩ := Prod.mk.inj (Option.some.inj hstart)
      refine ⟨call.draws.elGamal, call.draws.preIV, call.draws.padding, ?_, rfl,
        (Option.some.inj hfront).symm⟩
      rw [elGamalBlock, h.sessionKey]
  have hnewWaitingTags : ∀ tag ∈ waitingTags session.unconfirmedTagsMsgs,
      tag ∈ waitingTags w.session.unconfirmedTagsMsgs ∨ tag ∈ w.drawnTags call := fun tag htag => by
    have hpos := List.count_pos_iff.mpr htag
    have := hdrawnCount tag
    by_cases hmem : tag ∈ w.drawnTags call
    · exact .inr hmem
    · rw [List.count_eq_zero.mpr hmem] at this
      exact .inl (List.count_pos_iff.mp (by omega))
  have hseen : ∀ tag ∈ w.seenTags, tag ∈ w.seenTags ++ front :: w.drawnTags call := fun tag htag =>
    List.mem_append_left _ htag
  have hold : ∀ {e}, e ∈ session.unconfirmedTagsMsgs → e.1 ∈ w.seenIDs →
      e ∈ w.session.unconfirmedTagsMsgs := fun {e} he hid =>
    (hnewWaiting e he).resolve_right fun hnew => hfresh.msgID (hnew.1 ▸ hid)
  exact {
    sessionKey := by rw [← h.sessionKey, World.sent, hsends.sessionKey, htaken]
    toDestination := by rw [← h.toDestination, World.sent, hsends.destination, htaken]
    pair := h.pair
    distinct := h.distinct
    apart := fun tag => by
      have h₁ := htakes tag
      have h₂ := hdrawnCount tag
      have h₃ := h.apart tag
      have h₄ := hdrawnOnce tag
      simp only [World.sent, List.count_append]
      by_cases hmem : tag ∈ w.drawnTags call
      · -- a tag that is drawn is nowhere else
        have hown : tag ∉ w.ownTags := fun htag => hdrawn tag (h.seenOwn tag htag) hmem
        have h₅ : (w.session.sessionTags.map SessionTag.tag).count tag = 0 :=
          List.count_eq_zero.mpr fun htag => by
            obtain ⟨t, ht, rfl⟩ := List.mem_map.mp htag
            exact hown (h.ownSession t ht)
        have h₆ : (waitingTags w.session.unconfirmedTagsMsgs).count tag = 0 :=
          List.count_eq_zero.mpr fun htag => hown (h.ownWaiting tag htag)
        have h₇ : w.usedTags.count tag = 0 :=
          List.count_eq_zero.mpr fun htag => hown (h.ownUsed tag htag)
        omega
      · have h₅ : (w.drawnTags call).count tag = 0 := List.count_eq_zero.mpr hmem
        omega
    ownSession := fun t ht => List.mem_append_left _ (h.ownSession t (hleft.subset ht))
    ownWaiting := fun tag htag => List.mem_append.mpr
      ((hnewWaitingTags tag htag).imp_left (h.ownWaiting tag))
    ownUsed := fun tag htag => List.mem_append_left _ <|
      (List.mem_append.mp htag).elim (h.ownUsed tag) fun htag => by
        obtain ⟨t, ht, rfl, -⟩ := husable tag (Option.mem_toList.mp htag)
        exact h.ownSession t ht
    seenHeld := fun tag hne => hseen tag (h.seenHeld tag hne)
    seenOwn := fun tag htag => (List.mem_append.mp htag).elim
      (fun htag => hseen tag (h.seenOwn tag htag))
      fun htag => List.mem_append_right _ (List.mem_cons_of_mem _ htag)
    seenFront := hflying (fun f hf => hseen _ (h.seenFront f hf))
      (List.mem_append_right _ List.mem_cons_self)
    seenNew := hflying (fun f hf tag htag => hseen tag (h.seenNew f hf tag htag))
      fun tag htag => List.mem_append_right _ (List.mem_cons_of_mem _ htag)
    seenWaiting := fun e he => (hnewWaiting e he).elim
      (fun he => List.mem_cons_of_mem _ (h.seenWaiting e he))
      fun hnew => hnew.1 ▸ List.mem_cons_self
    seenStatus := fun msgID hmsgID => List.mem_cons_of_mem _ (h.seenStatus msgID hmsgID)
    seenAsked := hflying (fun f hf msgID hmsgID => List.mem_cons_of_mem _ (h.seenAsked f hf msgID hmsgID))
      fun msgID hmsgID => hsends.announced msgID hmsgID ▸ List.mem_cons_self
    born := fun e he t ht => (hnewWaiting e he).elim (fun he => h.born e he t ht)
      fun hnew => (hnew.2.2 t ht).le
    usable := fun t ht hlive => h.usable t (hleft.subset ht) hlive
    answered := fun e he hstatus t ht hlive =>
      h.answered e (hold he (h.seenStatus e.1 hstatus)) hstatus t ht hlive
    carried := hflying
      (fun f hf msgID hmsgID e he heq =>
        h.carried f hf msgID hmsgID e (hold he (heq ▸ h.seenAsked f hf msgID hmsgID)) heq)
      fun msgID hmsgID e he heq => (hnewWaiting e he).elim
        (fun he => absurd (h.seenWaiting e he)
          (heq ▸ hsends.announced msgID hmsgID ▸ hfresh.msgID))
        fun hnew => hnew.2.1
    undelivered := hflying h.undelivered fun tag htag =>
      by_contra fun hne => hdrawn tag (h.seenHeld tag hne) htag
    deliveredOnce := fun tag => by
      have h₁ := h.deliveredOnce tag
      have h₂ := hdrawnOnce tag
      simp only [World.sent, List.flatMap_append, List.flatMap_cons, List.flatMap_nil,
        List.append_nil, List.count_append]
      by_cases hmem : tag ∈ w.drawnTags call
      · have h₃ : (w.flying.flatMap Flight.newTags).count tag = 0 :=
          List.count_eq_zero.mpr fun htag => by
            obtain ⟨f, hf, htag⟩ := List.mem_flatMap.mp htag
            exact hdrawn tag (h.seenNew f hf tag htag) hmem
        omega
      · have h₃ : (w.drawnTags call).count tag = 0 := List.count_eq_zero.mpr hmem
        omega
    usedFlying := fun tag => by
      have h₁ := h.usedFlying tag
      simp only [World.sent, List.filterMap_append, List.count_append]
      cases (w.session.findTag call).1 with
      | none => exact Nat.add_le_add h₁ (Nat.le_refl _)
      | some tag' => exact Nat.add_le_add h₁ (Nat.le_refl _)
    awaited := hflying h.awaited fun _ tag htag => by
      obtain ⟨t, ht, rfl, hlive⟩ := husable tag htag
      obtain ⟨time, hfind, hle⟩ := h.usable t ht hlive
      exact ⟨time, hfind, hlive.trans_le (Nat.add_le_add_right hle _)⟩
    plainHeld := hflying h.plainHeld fun hnone =>
      by_contra fun hne => (hfrontSeen hnone).1 (h.seenHeld front hne)
    plainNew := hflying
      (fun f hf hnone => hflying (h.plainNew f hf hnone) (hdrawn _ (h.seenFront f hf)))
      fun hnone => hflying
        (fun f hf htag => (hfrontSeen hnone).1 (h.seenNew f hf front htag)) (hfrontSeen hnone).2
    encoded := hflying h.encoded hencoded }

theorem Invariant.step (hcrypto : crypto.Inverts) (h : Invariant crypto key destination w) {w' : World}
    (hstep : Step crypto w w') : Invariant crypto key destination w' := by
  cases hstep with
  | wait seconds => exact h.wait seconds
  | wrap hclock hwrap hfits hfresh hfront => exact h.wrap hclock hwrap hfits hfresh hfront
  | lose hflying => exact h.lose hflying
  | receive hflying harrives hm hhandled => exact h.receive hcrypto hflying harrives hm hhandled
  | loseStatus hstatuses => exact h.loseStatus hstatuses
  | confirm hstatuses => exact h.confirm hstatuses
  | cleanup => exact h.cleanup _
  | setLeaseSetUpdated => exact h.setLeaseSetUpdated
  | other hforeign hfresh hhandled =>
    exact h.foreign hforeign hfresh (hhandled ▸ leaves_handleGarlicMessageThrowing h.distinct _ _)
  | @addSessionKey key' tag hfresh =>
    have hown : tag ∉ w.ownTags := fun htag => hfresh (h.seenOwn tag htag)
    refine h.foreign hown (fun tag' htag' => ?_)
      ⟨rfl, received_foldl_addTag w.clock key' tag [tag] h.distinct⟩
    rw [List.mem_singleton] at htag'
    rwa [htag']

end Steps

/-! ## Runs -/

/-- At the start the session has no tags, and nothing is on its way. The destination may hold the tags
of other sessions. -/
structure World.Initial (crypto : Crypto) (w : World) : Prop where
  toDestination : ∃ destination, w.session.destination = some destination ∧
    crypto.ElGamalPair destination.publicKey w.receiver.privateKey
  sessionTags : w.session.sessionTags = []
  unconfirmedTagsMsgs : w.session.unconfirmedTagsMsgs = []
  distinct : AssocMap.Distinct w.receiver.tags
  seenHeld : ∀ tag, AssocMap.find w.receiver.tags tag ≠ none → tag ∈ w.seenTags
  flying : w.flying = []
  statuses : w.statuses = []
  usedTags : w.usedTags = []
  ownTags : w.ownTags = []

/-- The world after any number of steps. -/
abbrev Reaches (crypto : Crypto) : World → World → Prop := Relation.ReflTransGen (Step crypto)

theorem World.Initial.invariant {crypto : Crypto} {w : World} (h : w.Initial crypto) :
    ∃ destination, Invariant crypto w.session.sessionKey destination w := by
  obtain ⟨destination, hdestination, hpair⟩ := h.toDestination
  refine ⟨destination, rfl, hdestination, hpair, h.distinct, ?_, ?_, ?_, ?_, h.seenHeld, ?_, ?_, ?_,
    ?_, ?_, ?_, ?_, ?_, ?_, ?_, ?_, ?_, ?_, ?_, ?_, ?_, ?_⟩ <;>
    simp [h.sessionTags, h.unconfirmedTagsMsgs, h.flying, h.statuses, h.usedTags, h.ownTags,
      waitingTags]

theorem Reaches.invariant {crypto : Crypto} (hcrypto : crypto.Inverts) {w₀ w : World}
    (hinitial : w₀.Initial crypto) (h : Reaches crypto w₀ w) :
    ∃ destination, Invariant crypto w₀.session.sessionKey destination w := by
  obtain ⟨destination, hinvariant⟩ := hinitial.invariant
  refine ⟨destination, ?_⟩
  induction h with
  | refl => exact hinvariant
  | tail _ hstep ih => exact ih.step hcrypto hstep

/-- The tags that the session may use are held by the destination, with the key of the session. A message
that was sent with a tag is decrypted by this tag when it arrives, and no other message was sent
with it. -/
structure World.TagsKnown (w : World) : Prop where
  held : ∀ t ∈ w.session.sessionTags, t.Live w.clock →
    ∃ time, AssocMap.find w.receiver.tags t.tag = some ⟨time, w.session.sessionKey⟩
  decrypted : ∀ f ∈ w.flying, w.clock ≤ f.sentAt + 240 → ∀ tag ∈ f.tag, ∀ m, StandsAt m 0 f.bytes →
    messageTag m = tag ∧
      ∃ time, AssocMap.find w.receiver.tags (messageTag m) = some ⟨time, w.session.sessionKey⟩
  usedOnce : w.usedTags.Nodup

theorem exampleCrypto_elGamalPair (publicKey privateKey : List UInt8) :
    exampleCrypto.ElGamalPair publicKey privateKey where
  length_elGamalEncrypt random block hlen := by
    show (block ++ List.replicate 292 0).length = 514
    rw [List.length_append, hlen, List.length_replicate]
  elGamalDecrypt_elGamalEncrypt random block hlen := by
    show some ((block ++ List.replicate 292 0).take 222) = some block
    rw [← hlen, List.take_left]

/-- A session without tags, for a destination that knows no tags. -/
def exampleWorld : World where
  clock := 1000
  session := { exampleSession with sessionTags := [] }
  createdSessions := []
  receiver := { privateKey := [] }
  flying := []
  statuses := []
  usedTags := []
  ownTags := []
  seenTags := []
  seenIDs := []

theorem exampleWorld_initial : exampleWorld.Initial exampleCrypto where
  toDestination := ⟨_, rfl, exampleCrypto_elGamalPair _ _⟩
  sessionTags := rfl
  unconfirmedTagsMsgs := rfl
  distinct := List.nodup_nil
  seenHeld _ h := absurd rfl h
  flying := rfl
  statuses := rfl
  usedTags := rfl
  ownTags := rfl

/-- The first message of the session. -/
abbrev exampleWrapped : Option (GarlicRoutingSession × List UInt8 × List OwnerCall) :=
  exampleWorld.session.wrapSingleMessage exampleCrypto exampleCall exampleDraws (some exampleMessage)

end Garlic
