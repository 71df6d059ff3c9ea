import Xi2p.Garlic.Containment

/-!
# Single use of session tags

`HandleGarlicMessage` erases the tag of a message when the message has been handled. An exception leaves
it before: one of `check_clove_len`, or one that the handler of a dispatched message throws.

* `GarlicDestination.handleGarlicMessageThrowing`: the handling of a message whose cloves have handlers
  that may throw.
* `GarlicDestination.singleUse_iff`: the messages after which their tag is gone.
-/

namespace Garlic

open Bytes I2NP Traced

/-- What is left behind if the handlers of dispatched messages may throw; `throws i` says whether the one
of the message number `i` does. The cloves that follow are not handled. -/
def Handled.interrupt (throws : ℕ → Bool) (handled : Handled) : Handled :=
  match (List.range handled.dispatched.length).find? throws with
  | some i => { handled with dispatched := handled.dispatched.take (i + 1), threw := true }
  | none => handled

namespace GarlicDestination

variable (crypto : Crypto) (now : ℕ) (hasTunnel : Bool) (throws : ℕ → Bool)
  (destination : GarlicDestination)

/-- `decryptAndHandle`, with handlers that may throw. -/
def decryptAndHandleThrowing (key : Tag) (iv : List UInt8) (m : Mem) (buf start length : ℕ) :
    Traced Handled := do
  let handled ← destination.decryptAndHandle crypto now hasTunnel key iv m buf start length
  return handled.interrupt throws

/-- `handleByTag`, with handlers that may throw. -/
def handleByTagThrowing (m : Mem) (buf length : ℕ) : Traced Handled := do
  let tag := IdentHash.ofMem m buf
  touch buf 32
  match AssocMap.find destination.tags tag with
  | some entry =>
    let handled ←
      if 32 ≤ length then
        destination.decryptAndHandleThrowing crypto now hasTunnel throws entry.key (crypto.iv tag) m
          buf 32 length
      else pure { destination }
    if handled.threw then return handled
    -- tag might be used only once
    else return { handled with
      destination.tags := AssocMap.erase handled.destination.tags tag }
  | none =>
    if 514 ≤ length then
      let encrypted ← Traced.read m buf 514
      match crypto.elGamalDecrypt destination.privateKey encrypted with
      | some block =>
        destination.decryptAndHandleThrowing crypto now hasTunnel throws (blockTag block 0)
          (crypto.iv (blockTag block 1)) m buf 514 length
      | none => return { destination }
    else return { destination }

/-- `HandleGarlicMessage`, with handlers that may throw. -/
def handleGarlicMessageThrowing (m : Mem) (msgLength : ℕ) : Traced Handled := do
  let length ← Traced.read m headerSize 4
  let length := readBE length
  if msgLength < length then return { destination }
  else
    let handled ←
      destination.handleByTagThrowing crypto now hasTunnel throws m (headerSize + 4) length
    if handled.threw then return handled
    else return { handled with destination := handled.destination.cleanupTags now }

variable {crypto now hasTunnel throws destination}

theorem interrupt_of_never (handled : Handled) :
    handled.interrupt (fun _ => false) = handled := by
  have hnone : (List.range handled.dispatched.length).find? (fun _ => false) = none := by simp
  rw [Handled.interrupt, hnone]

theorem decryptAndHandleThrowing_of_never (key : Tag) (iv : List UInt8) (m : Mem)
    (buf start length : ℕ) :
    (destination.decryptAndHandleThrowing crypto now hasTunnel (fun _ => false) key iv m buf start
      length).val =
      (destination.decryptAndHandle crypto now hasTunnel key iv m buf start length).val :=
  interrupt_of_never _

/-- Without exceptions from handlers, the handling is the one of `handleGarlicMessage`. -/
theorem val_handleGarlicMessageThrowing_of_never (m : Mem) (msgLength : ℕ) :
    (destination.handleGarlicMessageThrowing crypto now hasTunnel (fun _ => false) m msgLength).val =
      (destination.handleGarlicMessage crypto now hasTunnel m msgLength).val := by
  have htag : ∀ buf length,
      (destination.handleByTagThrowing crypto now hasTunnel (fun _ => false) m buf length).val =
        (destination.handleByTag crypto now hasTunnel m buf length).val := by
    intro buf length
    unfold handleByTagThrowing handleByTag
    simp only [val_bind]
    cases AssocMap.find destination.tags (IdentHash.ofMem m buf) with
    | some entry =>
      by_cases hshort : 32 ≤ length
      · simp only [hshort, if_true, val_bind, decryptAndHandleThrowing_of_never]
      · simp only [hshort, if_false]
    | none =>
      by_cases hshort : 514 ≤ length
      · simp only [hshort, if_true, val_bind, val_read]
        cases crypto.elGamalDecrypt destination.privateKey (slice m buf 514) with
        | some block => exact decryptAndHandleThrowing_of_never _ _ _ _ _ _
        | none => rfl
      · simp only [hshort, if_false]
  unfold handleGarlicMessageThrowing handleGarlicMessage
  simp only [val_bind, val_read]
  by_cases hexceeds : msgLength < readBE (slice m headerSize 4)
  · simp only [hexceeds, if_true]
  · simp only [hexceeds, if_false, val_bind, htag]

/-! ## What is left of the tag -/

/-- No clove that the loop comes to fails the check, and no handler of a dispatched message throws. -/
def Quiet (hasTunnel : Bool) (throws : ℕ → Bool) (course : Course) : Prop :=
  course.fails = false ∧ ∀ i < (course.dispatched hasTunnel).length, throws i = false

theorem threw_interrupt_outcome_iff (now : ℕ) (hasTunnel : Bool) (throws : ℕ → Bool)
    (destination : GarlicDestination) (key : Tag) (course : Course) :
    ((destination.outcome now hasTunnel key course).interrupt throws).threw = false ↔
      Quiet hasTunnel throws course := by
  unfold Handled.interrupt Quiet
  cases hfind : (List.range (destination.outcome now hasTunnel key course).dispatched.length).find?
    throws with
  | some i =>
    have hmem : i < (course.dispatched hasTunnel).length :=
      List.mem_range.mp (List.mem_of_find?_eq_some hfind)
    have hthrows : throws i = true := List.find?_some hfind
    refine iff_of_false (by simp) fun h => ?_
    rw [h.2 i hmem] at hthrows
    cases hthrows
  | none =>
    have hnone : ∀ i < (course.dispatched hasTunnel).length, throws i = false := fun i hi => by
      simpa using List.find?_eq_none.mp hfind i (List.mem_range.mpr hi)
    exact ⟨fun h => ⟨h, hnone⟩, fun h => h.1⟩

theorem destination_interrupt (handled : Handled) :
    (handled.interrupt throws).destination = handled.destination := by
  unfold Handled.interrupt
  split <;> rfl

/-- A tag that is held is still held when other tags are added. -/
theorem find_withTags_ne_none (now : ℕ) {tag : Tag} (h : AssocMap.find destination.tags tag ≠ none) (key : Tag)
    (newTags : List Tag) : AssocMap.find (destination.withTags now key newTags).tags tag ≠ none := by
  have hadd : ∀ (tags : Tags) (new : Tag), AssocMap.find tags tag ≠ none →
      AssocMap.find (addTag now key tags new) tag ≠ none := by
    intro tags new hheld hnone
    obtain ⟨a, ha⟩ := Option.ne_none_iff_exists'.mp hheld
    have hassigned : ∀ b, ∃ c, (tag, c) ∈ AssocMap.assign tagKey tags new b := fun b => by
      by_cases heq : tag = new
      · exact ⟨b, (AssocMap.mem_assign_iff tagKey_injective).mpr (.inl (by rw [heq]))⟩
      · exact ⟨a, (AssocMap.mem_assign_iff tagKey_injective).mpr
          (.inr ⟨AssocMap.mem_of_find ha, heq⟩)⟩
    unfold addTag at hnone
    split at hnone
    all_goals
      obtain ⟨c, hc⟩ := hassigned _
      exact AssocMap.find_eq_none_iff.mp hnone c hc
  have hfold : ∀ (newTags : List Tag) (tags : Tags), AssocMap.find tags tag ≠ none →
      AssocMap.find (newTags.foldl (addTag now key) tags) tag ≠ none := by
    intro newTags
    induction newTags with
    | nil => exact fun _ h => h
    | cons new newTags ih => exact fun tags h => ih _ (hadd tags new h)
  exact hfold newTags _ h

/-- The cleanup adds no tag. -/
theorem find_cleanupTags_eq_none {tag : Tag} (h : AssocMap.find destination.tags tag = none) :
    AssocMap.find (destination.cleanupTags now).tags tag = none := by
  rw [AssocMap.find_eq_none_iff] at h ⊢
  intro a hmem
  rw [cleanupTags] at hmem
  split at hmem
  · dsimp only at hmem
    split at hmem
    · exact h a (List.mem_of_mem_filter hmem)
    · exact h a hmem
  · exact h a hmem

/-- The first 32 bytes behind the length. -/
def messageTag (m : Mem) : Tag := IdentHash.ofMem m (headerSize + 4)

/-- After the message, its tag is gone, unless the message delivers it again. -/
def SingleUse (crypto : Crypto) (now : ℕ) (hasTunnel : Bool) (throws : ℕ → Bool)
    (destination : GarlicDestination) (m : Mem) (msgLength : ℕ) : Prop :=
  AssocMap.find (destination.handleGarlicMessageThrowing crypto now hasTunnel throws m
    msgLength).val.destination.tags (messageTag m) = none ∨
    messageTag m ∈ (destination.messageCourse crypto m msgLength).newTags

theorem val_decryptAndHandleThrowing (key : Tag) (iv : List UInt8) (m : Mem)
    (buf start length : ℕ) :
    (destination.decryptAndHandleThrowing crypto now hasTunnel throws key iv m buf start length).val =
      (destination.outcome now hasTunnel key
        (decryptedCourse crypto key iv m buf start length)).interrupt throws :=
  congrArg (Handled.interrupt throws) (val_handleAESBlock_course key _ _ _)

/-- The handling throws, and the tag is still held, or it does not throw, and the tag is erased. -/
theorem handleByTagThrowing_cases (crypto : Crypto) (now : ℕ) (hasTunnel : Bool)
    (throws : ℕ → Bool) {m : Mem} {buf : ℕ} (length : ℕ)
    (hheld : AssocMap.find destination.tags (IdentHash.ofMem m buf) ≠ none) :
    let handled := (destination.handleByTagThrowing crypto now hasTunnel throws m buf length).val
    let course := destination.tagCourse crypto m buf length
    handled.threw = true ∧ ¬Quiet hasTunnel throws course ∧
        AssocMap.find handled.destination.tags (IdentHash.ofMem m buf) ≠ none ∨
      handled.threw = false ∧ Quiet hasTunnel throws course ∧
        AssocMap.find handled.destination.tags (IdentHash.ofMem m buf) = none := by
  obtain ⟨entry, hentry⟩ := Option.ne_none_iff_exists'.mp hheld
  have herase : ∀ tags : Tags, AssocMap.find (AssocMap.erase tags (IdentHash.ofMem m buf))
      (IdentHash.ofMem m buf) = none := fun tags => by rw [AssocMap.find_erase, if_pos rfl]
  unfold handleByTagThrowing tagCourse
  simp only [val_bind, hentry]
  by_cases hshort : 32 ≤ length
  · simp only [hshort, if_true, val_bind, val_decryptAndHandleThrowing]
    have hquiet := threw_interrupt_outcome_iff now hasTunnel throws destination entry.key
      (decryptedCourse crypto entry.key (crypto.iv (IdentHash.ofMem m buf)) m buf 32 length)
    rw [← hquiet]
    have hkept := find_withTags_ne_none now hheld entry.key
      (decryptedCourse crypto entry.key (crypto.iv (IdentHash.ofMem m buf)) m buf 32 length).newTags
    cases hthrew : (Handled.interrupt throws (destination.outcome now hasTunnel entry.key
        (decryptedCourse crypto entry.key (crypto.iv (IdentHash.ofMem m buf)) m buf 32
          length))).threw with
    | true =>
      left
      simp only [if_true, val_pure, destination_interrupt, hthrew, not_false_eq_true, true_and,
        reduceCtorEq]
      exact hkept
    | false =>
      right
      simp only [Bool.false_eq_true, if_false, val_pure, true_and]
      exact herase _
  · right
    simp only [hshort, if_false, val_bind, val_pure]
    exact ⟨rfl, ⟨rfl, fun _ h => by cases h⟩, herase _⟩

/-- The messages after which their tag is gone. -/
theorem singleUse_iff (crypto : Crypto) (now : ℕ) (hasTunnel : Bool) (throws : ℕ → Bool)
    (destination : GarlicDestination) (m : Mem) (msgLength : ℕ)
    (hheld : AssocMap.find destination.tags (messageTag m) ≠ none) :
    destination.SingleUse crypto now hasTunnel throws m msgLength ↔
      messageTag m ∈ (destination.messageCourse crypto m msgLength).newTags ∨
        encryptedLength m ≤ msgLength ∧
          Quiet hasTunnel throws (destination.messageCourse crypto m msgLength) := by
  rw [SingleUse, or_comm]
  refine or_congr_right ?_
  unfold handleGarlicMessageThrowing messageCourse encryptedLength
  simp only [val_bind, val_read]
  by_cases hexceeds : msgLength < readBE (slice m headerSize 4)
  · simp only [hexceeds, if_true, val_pure]
    exact iff_of_false hheld fun h => absurd h.1 (Nat.not_le.mpr hexceeds)
  · simp only [hexceeds, if_false, val_bind, Nat.not_lt.mp hexceeds, true_and]
    obtain ⟨hthrew, hloud, hfind⟩ | ⟨hthrew, hquiet, hfind⟩ := 
      handleByTagThrowing_cases crypto now hasTunnel throws (readBE (slice m headerSize 4)) hheld
    · simp only [hthrew, if_true, val_pure]
      exact iff_of_false hfind hloud
    · simp only [hthrew, Bool.false_eq_true, if_false, val_pure]
      exact iff_of_true (find_cleanupTags_eq_none hfind) hquiet

/-- A message for a held tag, with a block that has no tags and this payload. -/
def exampleGarlic (payload : List UInt8) : List UInt8 :=
  List.replicate headerSize 0 ++ writeBE 4 (71 + payload.length) ++ (exampleTag 8).bytes ++
    (writeBE 2 0 ++ writeBE 4 payload.length ++ List.replicate 33 0 ++ payload).map (· ^^^ 0x5a)

/-- A local clove that ends with the payload. -/
def exampleClove : List UInt8 := 1 :: 0 :: List.replicate 31 0

/-- A payload that ends inside its clove. -/
def cutClove : List UInt8 := exampleClove.take 20

/-- The tag of a message that is handled without an exception is gone. -/
theorem singleUse_exampleClove :
    exampleReceiver.SingleUse exampleCrypto 1001 false (fun _ => false)
      (store (fun _ => 0) 0 (exampleGarlic exampleClove)) 124 :=
  (singleUse_iff exampleCrypto 1001 false (fun _ => false) exampleReceiver
    (store (fun _ => 0) 0 (exampleGarlic exampleClove)) 124 (by decide +kernel)).mpr
      (.inr ⟨by decide +kernel, by decide +kernel, fun _ _ => rfl⟩)

/-- The clove fails the check, and the tag stays. -/
theorem not_singleUse_cutClove :
    ¬∀ (crypto : Crypto) (now : ℕ) (hasTunnel : Bool) (throws : ℕ → Bool)
      (destination : GarlicDestination) (m : Mem) (msgLength : ℕ),
      AssocMap.find destination.tags (messageTag m) ≠ none →
        destination.SingleUse crypto now hasTunnel throws m msgLength := by
  intro h
  obtain hgone | hnew := h exampleCrypto 1001 false (fun _ => false) exampleReceiver
    (store (fun _ => 0) 0 (exampleGarlic cutClove)) 111 (by decide +kernel)
  · revert hgone
    decide +kernel
  · revert hnew
    decide +kernel

end GarlicDestination

end Garlic
