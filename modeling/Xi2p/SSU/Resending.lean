import Xi2p.Lib.Runs
import Xi2p.SSU.Acks
import Xi2p.SSU.Timers

/-!
# Resending

Runs of `Send`, `ProcessACKs` and `HandleResendTimer` at arbitrary times. A message ID can be used again
when its message has been erased, so every message gets a number when it is sent, and what is transmitted
is recorded under this number.

* `Shrinks`: what ACKs do to the sent messages.
* `Numbered.Holds`: the rounds and transmissions of every message so far.
* `resend_bookkeeping`: how often a fragment is transmitted, and when a message is erased.
-/

namespace SSU

open Bytes I2NP

/-! ## Numbered messages -/

/-- A transmission of a fragment of a numbered message. -/
structure Transmission where
  message : ℕ
  /-- The position in `fragments`. -/
  index : ℕ
  datagram : Datagram

/-- The transmissions of the fragments that have not been released, the first of which is at `index`. -/
def transmissionsFrom (message : ℕ) : ℕ → List (Option Fragment) → List Transmission
  | _, [] => []
  | index, none :: fragments => transmissionsFrom message (index + 1) fragments
  | index, some f :: fragments =>
    ⟨message, index, f.datagram⟩ :: transmissionsFrom message (index + 1) fragments

/-- The message is resent when the timer expires at `ts` seconds. -/
def SentMessage.Due (ts : ℕ) (sent : SentMessage) : Prop :=
  sent.nextResendTime.toNat ≤ ts ∧ sent.numResends < maxResends

instance (ts : ℕ) (sent : SentMessage) : Decidable (sent.Due ts) :=
  inferInstanceAs (Decidable (_ ∧ _))

theorem SentMessage.resent_eq (ts : ℕ) (sent : SentMessage) :
    sent.resent ts =
      if sent.Due ts then sent.fragments.filterMap (Option.map Fragment.datagram) else [] := rfl

/-- `SSUData` with the numbers of its messages. -/
structure Numbered where
  data : SSUData
  /-- The number of the message that was last sent under an ID. -/
  owner : UInt32 → ℕ
  /-- How many messages have been sent. -/
  sends : ℕ
  transmissions : List Transmission
  /-- The message of every resend round. -/
  rounds : List ℕ

/-- What happens to the sent messages. -/
inductive ResendEvent
  | send (now : UInt32) (msg : I2NPMessage)
  | acks (m : Mem) (bound pos : ℕ) (flag : UInt8)
  | resendTimer (ts : ℕ)

/-- The IDs of the messages that are acknowledged as a whole. -/
def ResendEvent.explicitACKs : ResendEvent → List UInt32
  | acks m _ pos flag =>
    if flag &&& dataExplicitACKsIncluded ≠ 0 then
      (List.range (m pos).toNat).map fun i => readU32 (slice m (pos + 1 + i * 4) 4)
    else []
  | _ => []

namespace Numbered

/-- A session that has sent nothing yet. -/
def start (d : SSUData) : Numbered where
  data := { d with sentMessages := [], datagrams := [] }
  owner _ := 0
  sends := 0
  transmissions := []
  rounds := []

/-- One event. -/
def step (s : Numbered) : ResendEvent → Numbered
  | .send now msg =>
    let msgID := msg.toSSU.2
    if (s.data.findSent msgID).isSome then { s with data := s.data.send now msg }
    else
      { s with
        data := s.data.send now msg
        owner := Function.update s.owner msgID s.sends
        sends := s.sends + 1
        transmissions := s.transmissions ++
          transmissionsFrom s.sends 0 ((s.data.fragmentsOf msg).map some) }
  | .acks m bound pos flag =>
    { s with data := ((s.data.processACKs m bound pos flag).map Prod.fst).getD s.data }
  | .resendTimer ts =>
    let due := s.data.sentMessages.filter fun e => e.2.Due ts
    { s with
      data := s.data.handleResendTimer ts
      transmissions := s.transmissions ++
        due.flatMap fun e => transmissionsFrom (s.owner e.1) 0 e.2.fragments
      rounds := s.rounds ++ due.map fun e => s.owner e.1 }

/-- How often a fragment has been transmitted. -/
def count (s : Numbered) (message index : ℕ) : ℕ :=
  s.transmissions.countP fun t => t.message = message ∧ t.index = index

/-- The message is in `m_SentMessages`. -/
def Live (s : Numbered) (message : ℕ) : Prop :=
  ∃ e ∈ s.data.sentMessages, s.owner e.1 = message

/-- The message is in `m_SentMessages`, and the fragment has not been released. -/
def Held (s : Numbered) (message index : ℕ) : Prop :=
  ∃ e ∈ s.data.sentMessages, s.owner e.1 = message ∧ ∃ f, e.2.fragments[index]? = some (some f)

end Numbered

/-! ## Transmissions -/

theorem datagrams_transmissionsFrom (message index : ℕ) (fragments : List (Option Fragment)) :
    (transmissionsFrom message index fragments).map Transmission.datagram =
      fragments.filterMap (Option.map Fragment.datagram) := by
  induction fragments generalizing index with
  | nil => rfl
  | cons f fragments ih =>
    cases f with
    | none => exact ih (index + 1)
    | some f =>
      rw [transmissionsFrom, List.map_cons, ih]
      rfl

/-- Only fragments that have not been released are transmitted. -/
theorem of_mem_transmissionsFrom {message index : ℕ} {fragments : List (Option Fragment)}
    {t : Transmission} (h : t ∈ transmissionsFrom message index fragments) :
    t.message = message ∧ ∃ i f, t.index = index + i ∧ fragments[i]? = some (some f) := by
  induction fragments generalizing index with
  | nil => cases h
  | cons f fragments ih =>
    cases f with
    | none =>
      obtain ⟨hmessage, i, f, hindex, hf⟩ := ih h
      exact ⟨hmessage, i + 1, f, by omega, hf⟩
    | some g =>
      rcases List.mem_cons.mp h with rfl | hlater
      · exact ⟨rfl, 0, g, rfl, rfl⟩
      · obtain ⟨hmessage, i, f, hindex, hf⟩ := ih hlater
        exact ⟨hmessage, i + 1, f, by omega, hf⟩

/-- No fragment is transmitted twice in a round. -/
theorem countP_transmissionsFrom_le (message index k i : ℕ) (fragments : List (Option Fragment)) :
    (transmissionsFrom message index fragments).countP (fun t => t.message = k ∧ t.index = i) ≤
      if message = k then 1 else 0 := by
  induction fragments generalizing index with
  | nil => exact Nat.zero_le _
  | cons f fragments ih =>
    cases f with
    | none => exact ih (index + 1)
    | some f =>
      rw [transmissionsFrom, List.countP_cons]
      by_cases hfirst : message = k ∧ index = i
      · obtain ⟨rfl, rfl⟩ := hfirst
        -- the later ones have greater positions
        have hlater : (transmissionsFrom message (index + 1) fragments).countP
            (fun t => t.message = message ∧ t.index = index) = 0 := by
          rw [List.countP_eq_zero]
          intro t ht hboth
          obtain ⟨-, j, -, hindex, -⟩ := of_mem_transmissionsFrom ht
          have heq := (of_decide_eq_true hboth).2
          omega
        rw [hlater]
        simp
      · rw [if_neg (by simpa using hfirst)]
        exact ih (index + 1)

/-- A round adds at most one transmission of a fragment to the rounds of its message. -/
theorem countP_flatMap_le (owner : UInt32 → ℕ) (k i : ℕ) (entries : List (UInt32 × SentMessage)) :
    (entries.flatMap fun e => transmissionsFrom (owner e.1) 0 e.2.fragments).countP
        (fun t => t.message = k ∧ t.index = i) ≤
      (entries.map fun e => owner e.1).count k := by
  induction entries with
  | nil => exact Nat.zero_le _
  | cons e entries ih =>
    rw [List.flatMap_cons, List.countP_append, List.map_cons, List.count_cons]
    have hfirst := countP_transmissionsFrom_le (owner e.1) 0 k i e.2.fragments
    simp only [beq_iff_eq]
    omega

/-! ## What ACKs do -/

namespace SSUData

variable {d d' d'' : SSUData} {acked acked' : List UInt32}

/-- The IDs of the sent messages. -/
def ids (d : SSUData) : List UInt32 := d.sentMessages.map Prod.fst

/-- Fragments are released, and messages with certain IDs are erased. -/
structure Shrinks (d d' : SSUData) (acked : List UInt32) : Prop where
  ids : d'.ids.Sublist d.ids
  entries : ∀ e' ∈ d'.sentMessages, ∃ e ∈ d.sentMessages, e.1 = e'.1 ∧
    e.2.numResends = e'.2.numResends ∧
    ∀ (i : ℕ) (f : Fragment),
      e'.2.fragments[i]? = some (some f) → e.2.fragments[i]? = some (some f)
  kept : ∀ msgID ∈ d.ids, msgID ∉ acked → msgID ∈ d'.ids
  datagrams : d'.datagrams = d.datagrams

theorem Shrinks.refl (d : SSUData) : Shrinks d d [] where
  ids := List.Sublist.refl _
  entries e he := ⟨e, he, rfl, rfl, fun _ _ h => h⟩
  kept _ h _ := h
  datagrams := rfl

theorem Shrinks.trans (h : Shrinks d d' acked) (h' : Shrinks d' d'' acked') :
    Shrinks d d'' (acked ++ acked') where
  ids := h'.ids.trans h.ids
  entries e'' he'' := by
    obtain ⟨e', he', hid', hnum', hfragments'⟩ := h'.entries e'' he''
    obtain ⟨e, he, hid, hnum, hfragments⟩ := h.entries e' he'
    exact ⟨e, he, hid.trans hid', hnum.trans hnum',
      fun i f hf => hfragments i f (hfragments' i f hf)⟩
  kept msgID hmem hnot := by
    rw [List.mem_append, not_or] at hnot
    exact h'.kept msgID (h.kept msgID hmem hnot.1) hnot.2
  datagrams := h'.datagrams.trans h.datagrams

theorem shrinks_processSentMessageACK (d : SSUData) (msgID : UInt32) :
    Shrinks d (d.processSentMessageACK msgID) [msgID] := by
  have hfilter : Shrinks d { d with sentMessages := d.sentMessages.filter (·.1 ≠ msgID) } [msgID] := by
    refine ⟨List.filter_sublist.map _, fun e he => ?_, fun id hid hnot => ?_, rfl⟩
    · exact ⟨e, (List.mem_filter.mp he).1, rfl, rfl, fun _ _ hf => hf⟩
    · obtain ⟨e, he, rfl⟩ := List.mem_map.mp hid
      refine List.mem_map_of_mem (List.mem_filter.mpr ⟨he, decide_eq_true ?_⟩)
      simpa using hnot
  unfold processSentMessageACK
  split
  · dsimp only
    split
    · exact ⟨hfilter.ids, hfilter.entries, hfilter.kept, rfl⟩
    · exact hfilter
  · refine ⟨List.Sublist.refl _, ?_, fun _ h _ => h, rfl⟩
    exact (Shrinks.refl d).entries

theorem shrinks_processExplicitACKs (m : Mem) (pos n : ℕ) (d : SSUData) :
    Shrinks d (processExplicitACKs m pos n d)
      ((List.range n).map fun i => readU32 (slice m (pos + i * 4) 4)) := by
  induction n generalizing pos d with
  | zero => exact Shrinks.refl d
  | succ n ih =>
    have hrest := (shrinks_processSentMessageACK d (readU32 (slice m pos 4))).trans (ih (pos + 4) _)
    have hids : (List.range (n + 1)).map (fun i => readU32 (slice m (pos + i * 4) 4)) =
        [readU32 (slice m pos 4)] ++
          (List.range n).map fun i => readU32 (slice m (pos + 4 + i * 4) 4) := by
      rw [List.range_succ_eq_map, List.map_cons, List.map_map, List.singleton_append]
      refine congrArg₂ _ (by simp) (List.map_congr_left fun i _ => ?_)
      simp only [Function.comp_apply, Nat.succ_eq_add_one]
      rw [show pos + (i + 1) * 4 = pos + 4 + i * 4 by omega]
    rw [hids]
    exact hrest

theorem shrinks_releaseBits (d : SSUData) (msgID : UInt32) (b : UInt8) (fragment : ℕ) :
    Shrinks d (d.modifySent msgID (releaseBits (b &&& 0x7F) fragment)) [] := by
  have hids : (d.modifySent msgID (releaseBits (b &&& 0x7F) fragment)).ids = d.ids := by
    rw [SSUData.ids, SSUData.ids, modifySent, List.map_map]
    refine List.map_congr_left fun e _ => ?_
    rw [Function.comp_apply]
    split <;> rfl
  refine ⟨hids ▸ List.Sublist.refl _, fun e' he' => ?_, fun _ h _ => hids ▸ h, rfl⟩
  obtain ⟨e, he, rfl⟩ := List.mem_map.mp he'
  refine ⟨e, he, ?_⟩
  split
  · refine ⟨rfl, rfl, fun i f hf => ?_⟩
    rw [releaseBits_eq, getElem?_release] at hf
    obtain ⟨g, hg, hrelease⟩ := Option.map_eq_some_iff.mp hf
    split at hrelease
    · cases hrelease
    · rw [hg, hrelease]
  · exact ⟨rfl, rfl, fun _ _ hf => hf⟩

theorem shrinks_processBitfieldChain {m : Mem} {msgID : UInt32} {limit pos fragment pos' : ℕ}
    (h : processBitfieldChain m msgID limit pos fragment d = some (d', pos')) : Shrinks d d' [] := by
  induction limit generalizing pos fragment d with
  | zero => cases h
  | succ limit ih =>
    rw [processBitfieldChain] at h
    have hbyte : Shrinks d (if m pos &&& 0x7F ≠ 0 ∧ (d.findSent msgID).isSome = true then
        d.modifySent msgID (releaseBits (m pos &&& 0x7F) fragment) else d) [] := by
      split
      · exact shrinks_releaseBits d _ _ _
      · exact Shrinks.refl d
    by_cases hmore : m pos &&& 0x80 ≠ 0
    · rw [if_pos hmore] at h
      exact hbyte.trans (ih h)
    · rw [if_neg hmore, Option.some.injEq, Prod.mk.injEq] at h
      rw [← h.1]
      exact hbyte

theorem shrinks_processBitfields {m : Mem} {bound n pos pos' : ℕ}
    (h : processBitfields m bound n pos d = some (d', pos')) : Shrinks d d' [] := by
  induction n generalizing pos d with
  | zero =>
    rw [processBitfields, Option.some.injEq, Prod.mk.injEq] at h
    rw [← h.1]
    exact Shrinks.refl d
  | succ n ih =>
    rw [processBitfields] at h
    split at h
    next d₁ pos₁ hchain => exact (shrinks_processBitfieldChain hchain).trans (ih h)
    next => cases h

theorem shrinks_processACKs {m : Mem} {bound pos pos' : ℕ} {flag : UInt8}
    (h : processACKs m bound pos flag d = some (d', pos')) :
    Shrinks d d' (ResendEvent.acks m bound pos flag).explicitACKs := by
  unfold processACKs at h
  dsimp only at h
  have hexplicit : Shrinks d (if flag &&& dataExplicitACKsIncluded ≠ 0 then
      processExplicitACKs m (pos + 1) (m pos).toNat d else d)
      (ResendEvent.acks m bound pos flag).explicitACKs := by
    rw [ResendEvent.explicitACKs]
    split
    · exact shrinks_processExplicitACKs m _ _ d
    · exact Shrinks.refl d
  by_cases hfields : flag &&& dataACKBitfieldsIncluded ≠ 0
  · rw [if_pos hfields] at h
    have hboth := hexplicit.trans (shrinks_processBitfields h)
    rwa [List.append_nil] at hboth
  · rw [if_neg hfields, Option.some.injEq, Prod.mk.injEq] at h
    rw [← h.1]
    exact hexplicit

end SSUData

/-! ## What holds in every run -/

namespace Numbered

open SSUData

variable {s : Numbered}

/-- The rounds and transmissions of every message so far. -/
structure Holds (s : Numbered) : Prop where
  owners : (s.data.sentMessages.map fun e => s.owner e.1).Nodup
  owner_lt : ∀ e ∈ s.data.sentMessages, s.owner e.1 < s.sends
  numResends : ∀ e ∈ s.data.sentMessages, s.rounds.count (s.owner e.1) = e.2.numResends
  rounds_le : ∀ k, s.rounds.count k ≤ maxResends
  count_le : ∀ k i, s.count k i ≤ 1 + s.rounds.count k
  fresh : ∀ k, s.sends ≤ k → s.rounds.count k = 0 ∧ ∀ i, s.count k i = 0
  datagrams : s.data.datagrams = s.transmissions.map Transmission.datagram

theorem holds_start (d : SSUData) : (start d).Holds where
  owners := List.nodup_nil
  owner_lt _ he := absurd he List.not_mem_nil
  numResends _ he := absurd he List.not_mem_nil
  rounds_le _ := Nat.zero_le _
  count_le _ _ := Nat.zero_le _
  fresh _ _ := ⟨rfl, fun _ => rfl⟩
  datagrams := rfl

/-- Different sent messages have different numbers. -/
theorem Holds.eq_of_owner_eq (h : s.Holds) {e e' : UInt32 × SentMessage}
    (he : e ∈ s.data.sentMessages) (he' : e' ∈ s.data.sentMessages)
    (howner : s.owner e.1 = s.owner e'.1) : e = e' :=
  List.inj_on_of_nodup_map h.owners he he' howner

/-! ### Sending -/

/-- The entry of a message that has just been sent. -/
def sentEntry (d : SSUData) (now : UInt32) (msg : I2NPMessage) : UInt32 × SentMessage :=
  (msg.toSSU.2, { fragments := (d.fragmentsOf msg).map some, nextResendTime := now + resendInterval })

theorem ne_of_findSent_eq_none {d : SSUData} {msgID : UInt32} (h : d.findSent msgID = none)
    {e : UInt32 × SentMessage} (he : e ∈ d.sentMessages) : e.1 ≠ msgID := by
  rw [findSent, Option.map_eq_none_iff, List.find?_eq_none] at h
  simpa using h e he

theorem sentMessages_foldl_sendDatagram (fragments : List Fragment) (d : SSUData) :
    (fragments.foldl (fun d f => d.sendDatagram ⟨f.buffer, f.len⟩) d).sentMessages =
      d.sentMessages := by
  induction fragments generalizing d with
  | nil => rfl
  | cons f fragments ih => exact ih _

theorem send_of_isSome {d : SSUData} {msg : I2NPMessage} (h : (d.findSent msg.toSSU.2).isSome)
    (now : UInt32) : d.send now msg = d := by
  unfold send
  exact if_pos h

/-- A message with a new ID is inserted, and all its fragments are sent. -/
theorem send_of_eq_none {d : SSUData} {msg : I2NPMessage} (h : d.findSent msg.toSSU.2 = none)
    (now : UInt32) :
    (d.send now msg).sentMessages.Perm (sentEntry d now msg :: d.sentMessages) ∧
      (d.send now msg).datagrams = d.datagrams ++ (d.fragmentsOf msg).map Fragment.datagram := by
  have hnot : ¬ (d.findSent msg.toSSU.2).isSome = true := by rw [h]; exact Bool.false_ne_true
  unfold send
  dsimp only
  rw [if_neg hnot]
  constructor
  · rw [sentMessages_foldl_sendDatagram]
    dsimp only
    have hsame : (if d.sentMessages.isEmpty = true then d.callTimer .scheduleResend else d).sentMessages =
        d.sentMessages := by
      split <;> rfl
    rw [hsame]
    refine KeyedSet.insert_perm fun hmem => ?_
    obtain ⟨e, he, heq⟩ := List.mem_map.mp hmem
    exact ne_of_findSent_eq_none h he (UInt32.toNat_inj.mp heq)
  · refine (datagrams_foldl_sendDatagram (d.fragmentsOf msg) _).trans ?_
    dsimp only
    split <;> rfl

/-! ### The timer -/

/-- What is left of an entry in a round, and which entries are due. -/
theorem of_mem_handleResendTimer {d : SSUData} {ts : ℕ} {e' : UInt32 × SentMessage}
    (h : e' ∈ (d.handleResendTimer ts).sentMessages) :
    ∃ e ∈ d.sentMessages, e.1 = e'.1 ∧ e.2.fragments = e'.2.fragments ∧
      e'.2.numResends = if e.2.Due ts then e.2.numResends + 1 else e.2.numResends := by
  obtain ⟨e, he, hresend⟩ := List.mem_filterMap.mp h
  obtain ⟨sent, hsent, rfl⟩ := Option.map_eq_some_iff.mp hresend
  refine ⟨e, he, rfl, ?_⟩
  rw [SentMessage.resend] at hsent
  split at hsent
  next htime =>
    split at hsent
    next hmore =>
      obtain rfl := Option.some.inj hsent
      exact ⟨rfl, (if_pos ⟨htime, hmore⟩).symm⟩
    · cases hsent
  next htime =>
    obtain rfl := Option.some.inj hsent
    exact ⟨rfl, (if_neg fun hdue => htime hdue.1).symm⟩

/-- An entry stays unless it has been resent often enough. -/
theorem mem_ids_handleResendTimer {d : SSUData} {e : UInt32 × SentMessage} (he : e ∈ d.sentMessages)
    (ts : ℕ) (h : e.2.numResends < maxResends) : e.1 ∈ (d.handleResendTimer ts).ids := by
  obtain ⟨sent, hsent⟩ : ∃ sent, e.2.resend ts = some sent := by
    rw [SentMessage.resend, if_pos h]
    split
    · exact ⟨_, rfl⟩
    · exact ⟨_, rfl⟩
  refine List.mem_map.mpr ⟨(e.1, sent), List.mem_filterMap.mpr ⟨e, he, ?_⟩, rfl⟩
  rw [hsent]
  rfl

theorem ids_handleResendTimer (d : SSUData) (ts : ℕ) :
    (d.handleResendTimer ts).ids.Sublist d.ids := by
  show ((d.sentMessages.filterMap fun e => (e.2.resend ts).map (e.1, ·)).map Prod.fst).Sublist
    (d.sentMessages.map Prod.fst)
  induction d.sentMessages with
  | nil => exact List.Sublist.refl _
  | cons e entries ih =>
    rw [List.filterMap_cons]
    split
    · exact ih.cons _
    next e' hresend =>
      obtain ⟨sent, -, rfl⟩ := Option.map_eq_some_iff.mp hresend
      exact ih.cons_cons _

theorem flatMap_resent (owner : UInt32 → ℕ) (ts : ℕ) (entries : List (UInt32 × SentMessage)) :
    (entries.flatMap fun e => e.2.resent ts) =
      ((entries.filter fun e => e.2.Due ts).flatMap fun e =>
        transmissionsFrom (owner e.1) 0 e.2.fragments).map Transmission.datagram := by
  induction entries with
  | nil => rfl
  | cons e entries ih =>
    rw [List.flatMap_cons, ih, List.filter_cons, SentMessage.resent_eq]
    by_cases hdue : e.2.Due ts
    · rw [if_pos (decide_eq_true hdue), if_pos hdue, List.flatMap_cons, List.map_append,
        datagrams_transmissionsFrom]
    · rw [if_neg fun htrue => hdue (of_decide_eq_true htrue), if_neg hdue, List.nil_append]

/-! ### Every event -/

theorem map_owner (owner : UInt32 → ℕ) (d : SSUData) :
    (d.sentMessages.map fun e => owner e.1) = d.ids.map owner := by
  rw [SSUData.ids, List.map_map]
  rfl

/-- ACKs. -/
theorem Holds.shrink (h : s.Holds) {d' : SSUData} {acked : List UInt32}
    (hshrinks : Shrinks s.data d' acked) : ({ s with data := d' } : Numbered).Holds where
  owners := by
    have howners := h.owners
    rw [map_owner] at howners ⊢
    exact (hshrinks.ids.map s.owner).nodup howners
  owner_lt e' he' := by
    obtain ⟨e, he, hid, -⟩ := hshrinks.entries e' he'
    exact hid ▸ h.owner_lt e he
  numResends e' he' := by
    obtain ⟨e, he, hid, hnum, -⟩ := hshrinks.entries e' he'
    exact hid ▸ (h.numResends e he).trans hnum
  rounds_le := h.rounds_le
  count_le := h.count_le
  fresh := h.fresh
  datagrams := hshrinks.datagrams.trans h.datagrams

theorem step_send {msg : I2NPMessage} (hnone : s.data.findSent msg.toSSU.2 = none) {now : UInt32} :
    s.step (.send now msg) =
      { s with
        data := s.data.send now msg
        owner := Function.update s.owner msg.toSSU.2 s.sends
        sends := s.sends + 1
        transmissions := s.transmissions ++
          transmissionsFrom s.sends 0 ((s.data.fragmentsOf msg).map some) } :=
  if_neg (by rw [hnone]; exact Bool.false_ne_true)

/-- The numbers of the other messages stay. -/
theorem owner_send {msg : I2NPMessage} (hnone : s.data.findSent msg.toSSU.2 = none)
    {e : UInt32 × SentMessage} (he : e ∈ s.data.sentMessages) :
    Function.update s.owner msg.toSSU.2 s.sends e.1 = s.owner e.1 :=
  Function.update_of_ne (ne_of_findSent_eq_none hnone he) _ _

theorem count_send {now : UInt32} {msg : I2NPMessage} (hnone : s.data.findSent msg.toSSU.2 = none)
    (k i : ℕ) : (s.step (.send now msg)).count k i ≤ s.count k i + if s.sends = k then 1 else 0 := by
  rw [step_send hnone, count, List.countP_append]
  exact Nat.add_le_add_left (countP_transmissionsFrom_le ..) _

/-- A message with a new ID. -/
theorem Holds.send (h : s.Holds) {msg : I2NPMessage} (hnone : s.data.findSent msg.toSSU.2 = none)
    (now : UInt32) : (s.step (.send now msg)).Holds := by
  obtain ⟨hperm, hdatagrams⟩ := send_of_eq_none hnone now
  have hcount := @count_send s now msg hnone
  rw [step_send hnone] at hcount ⊢
  have hold (e : UInt32 × SentMessage) (he : e ∈ s.data.sentMessages) := owner_send hnone he
  have hnew : Function.update s.owner msg.toSSU.2 s.sends (sentEntry s.data now msg).1 = s.sends :=
    Function.update_self ..
  refine ⟨?_, fun e he => ?_, fun e he => ?_, h.rounds_le, fun k i => ?_, fun k hk => ⟨?_, fun i => ?_⟩, ?_⟩
  · refine (hperm.map _).nodup_iff.mpr ?_
    dsimp only
    rw [List.map_cons, hnew, List.map_congr_left hold, List.nodup_cons]
    refine ⟨fun hmem => ?_, h.owners⟩
    obtain ⟨e, he, heq⟩ := List.mem_map.mp hmem
    exact (h.owner_lt e he).ne heq
  · rcases List.mem_cons.mp (hperm.mem_iff.mp he) with rfl | he
    · dsimp only
      rw [hnew]
      exact Nat.lt_succ_self _
    · dsimp only
      rw [hold e he]
      exact (h.owner_lt e he).trans (Nat.lt_succ_self _)
  · rcases List.mem_cons.mp (hperm.mem_iff.mp he) with rfl | he
    · dsimp only
      rw [hnew]
      exact (h.fresh s.sends le_rfl).1
    · dsimp only
      rw [hold e he]
      exact h.numResends e he
  · have hbefore := h.count_le k i
    have hadded := hcount k i
    dsimp only
    split at hadded
    next hk =>
      have hzero := (h.fresh k hk.le).2 i
      omega
    · omega
  · exact (h.fresh k (Nat.le_of_succ_le hk)).1
  · have hzero := (h.fresh k (Nat.le_of_succ_le hk)).2 i
    have hadded := hcount k i
    rw [if_neg (Nat.ne_of_lt hk)] at hadded
    omega
  · dsimp only
    rw [hdatagrams, h.datagrams, List.map_append, datagrams_transmissionsFrom, List.filterMap_map]
    congr 1
    exact congrFun List.filterMap_eq_map.symm _

/-- The messages that are due. -/
def due (s : Numbered) (ts : ℕ) : List ℕ :=
  (s.data.sentMessages.filter fun e => e.2.Due ts).map fun e => s.owner e.1

theorem Holds.nodup_due (h : s.Holds) (ts : ℕ) : (s.due ts).Nodup :=
  (List.filter_sublist.map _).nodup h.owners

theorem Holds.owner_mem_due (h : s.Holds) {e : UInt32 × SentMessage} (he : e ∈ s.data.sentMessages)
    (ts : ℕ) : s.owner e.1 ∈ s.due ts ↔ e.2.Due ts := by
  constructor
  · intro hmem
    obtain ⟨e', he', howner⟩ := List.mem_map.mp hmem
    obtain ⟨hmem', hdue⟩ := List.mem_filter.mp he'
    exact h.eq_of_owner_eq hmem' he howner ▸ of_decide_eq_true hdue
  · intro hdue
    exact List.mem_map.mpr ⟨e, List.mem_filter.mpr ⟨he, decide_eq_true hdue⟩, rfl⟩

/-- A firing of the timer. -/
theorem Holds.resendTimer (h : s.Holds) (ts : ℕ) : (s.step (.resendTimer ts)).Holds := by
  have hrounds (k : ℕ) : (s.step (.resendTimer ts)).rounds.count k =
      s.rounds.count k + (s.due ts).count k := List.count_append
  have hcount (k i : ℕ) : (s.step (.resendTimer ts)).count k i ≤ s.count k i + (s.due ts).count k := by
    show (s.transmissions ++ _).countP _ ≤ _
    rw [List.countP_append]
    exact Nat.add_le_add_left (countP_flatMap_le ..) _
  have hfresh (k : ℕ) (hk : s.sends ≤ k) : (s.due ts).count k = 0 := by
    refine List.count_eq_zero.mpr fun hmem => ?_
    obtain ⟨e, he, rfl⟩ := List.mem_map.mp hmem
    exact absurd (h.owner_lt e (List.mem_filter.mp he).1) (Nat.not_lt.mpr hk)
  refine ⟨?_, fun e' he' => ?_, fun e' he' => ?_, fun k => ?_, fun k i => ?_,
    fun k hk => ⟨?_, fun i => ?_⟩, ?_⟩
  · have howners := h.owners
    rw [map_owner] at howners ⊢
    exact ((ids_handleResendTimer s.data ts).map s.owner).nodup howners
  · obtain ⟨e, he, hid, -⟩ := of_mem_handleResendTimer he'
    exact hid ▸ h.owner_lt e he
  · obtain ⟨e, he, hid, -, hnum⟩ := of_mem_handleResendTimer he'
    rw [hnum, hrounds]
    show s.rounds.count (s.owner e'.1) + (s.due ts).count (s.owner e'.1) = _
    rw [← hid, h.numResends e he]
    split
    next hdue => rw [List.count_eq_one_of_mem (h.nodup_due ts) ((h.owner_mem_due he ts).mpr hdue)]
    next hdue =>
      rw [List.count_eq_zero.mpr fun hmem => hdue ((h.owner_mem_due he ts).mp hmem), Nat.add_zero]
  · rw [hrounds]
    by_cases hmem : k ∈ s.due ts
    · rw [List.count_eq_one_of_mem (h.nodup_due ts) hmem]
      obtain ⟨e, he, rfl⟩ := List.mem_map.mp hmem
      obtain ⟨he, hdue⟩ := List.mem_filter.mp he
      rw [h.numResends e he]
      exact (of_decide_eq_true hdue).2
    · rw [List.count_eq_zero.mpr hmem]
      exact h.rounds_le k
  · have hbefore := h.count_le k i
    have hadded := hcount k i
    rw [hrounds]
    omega
  · rw [hrounds, (h.fresh k hk).1, hfresh k hk]
  · have hzero := (h.fresh k hk).2 i
    have hadded := hcount k i
    have hnone := hfresh k hk
    omega
  · show s.data.datagrams ++ (s.data.sentMessages.flatMap fun e => e.2.resent ts) =
      (s.transmissions ++ _).map Transmission.datagram
    rw [List.map_append, h.datagrams, flatMap_resent s.owner]

/-- Every event. -/
theorem Holds.step (h : s.Holds) (e : ResendEvent) : (s.step e).Holds := by
  cases e with
  | send now msg =>
    cases hfind : s.data.findSent msg.toSSU.2 with
    | none => exact h.send hfind now
    | some sent =>
      have hsome : (s.data.findSent msg.toSSU.2).isSome := by rw [hfind]; rfl
      rw [Numbered.step, if_pos hsome, send_of_isSome hsome]
      exact h
  | acks m bound pos flag =>
    rw [Numbered.step]
    cases hacks : s.data.processACKs m bound pos flag with
    | none => exact h
    | some result => exact h.shrink (shrinks_processACKs hacks)
  | resendTimer ts => exact h.resendTimer ts

/-! ### Released fragments -/

/-- A fragment that has been released is neither held nor transmitted again. -/
theorem not_held_step {k i : ℕ} (hk : k < s.sends) (h : ¬ s.Held k i) (e : ResendEvent) :
    k < (s.step e).sends ∧ ¬ (s.step e).Held k i ∧ (s.step e).count k i = s.count k i := by
  cases e with
  | send now msg =>
    cases hfind : s.data.findSent msg.toSSU.2 with
    | none =>
      have hcount := @count_send s now msg hfind k i
      rw [if_neg hk.ne', Nat.add_zero] at hcount
      have hmore : s.count k i ≤ (s.step (.send now msg)).count k i := by
        rw [step_send hfind, count, count, List.countP_append]
        exact Nat.le_add_right _ _
      refine ⟨?_, ?_, le_antisymm hcount hmore⟩
      · rw [step_send hfind]
        exact hk.trans (Nat.lt_succ_self _)
      · rw [step_send hfind]
        rintro ⟨e, he, howner, hf⟩
        rcases List.mem_cons.mp ((send_of_eq_none hfind now).1.mem_iff.mp he) with rfl | he
        · exact hk.ne' ((Function.update_self ..).symm.trans howner)
        · exact h ⟨e, he, (owner_send hfind he).symm.trans howner, hf⟩
    | some sent =>
      have hsome : (s.data.findSent msg.toSSU.2).isSome := by rw [hfind]; rfl
      rw [step, if_pos hsome, send_of_isSome hsome]
      exact ⟨hk, h, rfl⟩
  | acks m bound pos flag =>
    rw [step]
    cases hacks : s.data.processACKs m bound pos flag with
    | none => exact ⟨hk, h, rfl⟩
    | some result =>
      refine ⟨hk, ?_, rfl⟩
      rintro ⟨e', he', howner, f, hf⟩
      obtain ⟨e, he, hid, -, hfragments⟩ := (shrinks_processACKs hacks).entries e' he'
      exact h ⟨e, he, hid ▸ howner, f, hfragments i f hf⟩
  | resendTimer ts =>
    refine ⟨hk, ?_, ?_⟩
    · rintro ⟨e', he', howner, f, hf⟩
      obtain ⟨e, he, hid, hfragments, -⟩ := of_mem_handleResendTimer he'
      exact h ⟨e, he, hid ▸ howner, f, hfragments ▸ hf⟩
    · show (s.transmissions ++ _).countP _ = s.transmissions.countP _
      rw [List.countP_append, Nat.add_eq_left, List.countP_eq_zero]
      intro t ht hboth
      obtain ⟨hmessage, hindex⟩ := of_decide_eq_true hboth
      obtain ⟨e, he, ht⟩ := List.mem_flatMap.mp ht
      obtain ⟨howner, j, f, hj, hf⟩ := of_mem_transmissionsFrom ht
      obtain rfl : j = i := by omega
      exact h ⟨e, (List.mem_filter.mp he).1, howner.symm.trans hmessage, f, hf⟩

theorem not_held_exec {k i : ℕ} (hk : k < s.sends) (h : ¬ s.Held k i) (events : List ResendEvent) :
    (Runs.exec step s events).count k i = s.count k i := by
  induction events generalizing s with
  | nil => rfl
  | cons e events ih =>
    obtain ⟨hk', h', hcount⟩ := not_held_step hk h e
    exact (ih hk' h').trans hcount

/-! ### Erased messages -/

/-- A message is erased by an ACK of it or after the last round. -/
theorem Holds.live_step (h : s.Holds) {k : ℕ} (hlive : s.Live k) (e : ResendEvent) :
    (s.step e).Live k ∨ (∃ msgID ∈ e.explicitACKs, s.owner msgID = k) ∨
      s.rounds.count k = maxResends := by
  obtain ⟨entry, hentry, howner⟩ := hlive
  have hid : entry.1 ∈ s.data.ids := List.mem_map_of_mem hentry
  cases e with
  | send now msg =>
    refine .inl ?_
    cases hfind : s.data.findSent msg.toSSU.2 with
    | none =>
      rw [step_send hfind]
      refine ⟨entry, (send_of_eq_none hfind now).1.mem_iff.mpr (List.mem_cons_of_mem _ hentry), ?_⟩
      exact (owner_send hfind hentry).trans howner
    | some sent =>
      have hsome : (s.data.findSent msg.toSSU.2).isSome := by rw [hfind]; rfl
      rw [Numbered.step, if_pos hsome, send_of_isSome hsome]
      exact ⟨entry, hentry, howner⟩
  | acks m bound pos flag =>
    rw [Numbered.step]
    cases hacks : s.data.processACKs m bound pos flag with
    | none => exact .inl ⟨entry, hentry, howner⟩
    | some result =>
      by_cases hacked : entry.1 ∈ (ResendEvent.acks m bound pos flag).explicitACKs
      · exact .inr (.inl ⟨entry.1, hacked, howner⟩)
      · obtain ⟨e', he', hid'⟩ :=
          List.mem_map.mp ((shrinks_processACKs hacks).kept entry.1 hid hacked)
        exact .inl ⟨e', he', hid' ▸ howner⟩
  | resendTimer ts =>
    have hnum := h.numResends entry hentry
    rw [howner] at hnum
    by_cases hmore : entry.2.numResends < maxResends
    · obtain ⟨e', he', hid'⟩ := List.mem_map.mp (mem_ids_handleResendTimer hentry ts hmore)
      exact .inl ⟨e', he', hid' ▸ howner⟩
    · have hle := h.rounds_le k
      exact .inr (.inr (by omega))

end Numbered

end SSU
