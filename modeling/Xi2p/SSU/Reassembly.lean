import Xi2p.Lib.Reassembly
import Xi2p.Lib.Runs
import Xi2p.SSU.Fragmentation

/-!
# Reassembly of SSU messages

The fragments of a message reach `ProcessFragments` in any order and any number of times, between
fragments of other messages.

* `Gathers ps S inc`: the incomplete message `inc` has taken exactly the pieces of `ps` with numbers
  in `S`; those below the first gap are attached, the others are saved.
* `processFragment_own`: a fragment of the message adds its number to `S`, and the message is
  complete as soon as no number is missing.
* `handled_once`: the message is handed on once, however its fragments arrive.
-/

namespace SSU

open Bytes I2NP Reassembly

/-! ## The incomplete message -/

/-- The fragment `f` has been saved for a piece of `ps`. -/
structure IsSaved (ps : List (List UInt8)) (f : Fragment) : Prop where
  lt_length : f.fragmentNum < ps.length
  isLast_eq : f.isLast = decide (f.fragmentNum + 1 = ps.length)
  data_eq : slice f.buffer 0 f.len = ps[f.fragmentNum]

/-- Of the pieces with numbers in `T`, the first `n` are attached and the others are saved. -/
structure Partial (ps : List (List UInt8)) (T : Finset ℕ) (n : ℕ) (inc : IncompleteMessage) :
    Prop where
  below : ∀ i < n, i ∈ T
  next_eq : inc.nextFragmentNum = n
  sorted : KeyedSet.Sorted Fragment.fragmentNum inc.savedFragments
  mem_saved : ∀ i, (∃ f ∈ inc.savedFragments, f.fragmentNum = i) ↔ i ∈ T ∧ n ≤ i
  saved : ∀ f ∈ inc.savedFragments, IsSaved ps f
  offset_eq : inc.msg.offset = 2
  offset_le : inc.msg.offset ≤ inc.msg.len
  bytes_eq : ∃ head, head.length = 11 ∧ inc.msg.bytes = head ++ (ps.take n).flatten

/-- The pieces with numbers in `S` have been taken, and all that can be attached are. -/
def Gathers (ps : List (List UInt8)) (S : Finset ℕ) (inc : IncompleteMessage) : Prop :=
  Partial ps S (mex S) inc

theorem gathers_newIncompleteMessage (ps : List (List UInt8)) :
    Gathers ps ∅ newIncompleteMessage := by
  unfold Gathers
  rw [mex_empty]
  refine ⟨by simp, rfl, List.Pairwise.nil, ?_, ?_, rfl, by decide, ?_⟩
  · simp [newIncompleteMessage]
  · simp [newIncompleteMessage]
  · exact ⟨newIncompleteMessage.msg.bytes, by simp; rfl, by simp⟩

/-- What has been attached so far is the message up to the gap. -/
theorem Partial.gathers {ps : List (List UInt8)} {T : Finset ℕ} {n : ℕ} {inc : IncompleteMessage}
    (h : Partial ps T n inc) (hn : n ∉ T) : Gathers ps T inc := by
  have hmex : mex T = n := mex_eq_iff.mpr ⟨h.below, hn⟩
  unfold Gathers
  rwa [hmex]

/-- Attaching the piece that is next. `T'` is `T` with its number. -/
theorem Partial.attach {ps : List (List UInt8)} {T : Finset ℕ} {n : ℕ} {inc : IncompleteMessage}
    (h : Partial ps T n inc) {rest : List Fragment} {src : Mem} {pos size : ℕ}
    (hn : n < ps.length) (hdata : slice src pos size = ps[n])
    (hsub : rest.Sublist inc.savedFragments)
    (hrest : ∀ i, (∃ f ∈ rest, f.fragmentNum = i) ↔ i ∈ T ∧ n + 1 ≤ i) :
    Partial ps (insert n T) (n + 1)
      ({ inc with savedFragments := rest }.attachNextFragment src pos size) := by
  refine ⟨?_, ?_, ?_, ?_, ?_, ?_, ?_, ?_⟩
  · intro i hi
    rcases Nat.lt_succ_iff_lt_or_eq.mp hi with hlt | rfl
    · exact Finset.mem_insert_of_mem (h.below i hlt)
    · exact Finset.mem_insert_self _ _
  · show inc.nextFragmentNum + 1 = n + 1
    rw [h.next_eq]
  · exact h.sorted.sublist hsub
  · intro i
    refine (hrest i).trans ?_
    rw [Finset.mem_insert]
    constructor
    · rintro ⟨hi, hle⟩
      exact ⟨Or.inr hi, hle⟩
    · rintro ⟨rfl | hi, hle⟩
      · omega
      · exact ⟨hi, hle⟩
  · intro f hf
    exact h.saved f (hsub.subset hf)
  · show (inc.msg.reserve size).offset = 2
    unfold I2NPMessage.reserve
    split
    · rfl
    · exact h.offset_eq
  · have hle := I2NPMessage.offset_le_len_reserve h.offset_le size
    show (inc.msg.reserve size).offset ≤ (inc.msg.reserve size).len + size
    omega
  · obtain ⟨head, hhead, hbytes⟩ := h.bytes_eq
    refine ⟨head, hhead, ?_⟩
    show ((inc.msg.reserve size).append src pos size).bytes = _
    rw [I2NPMessage.bytes_append (I2NPMessage.offset_le_len_reserve h.offset_le size),
      I2NPMessage.bytes_reserve, hbytes, hdata, List.take_succ_eq_append_getElem hn,
      List.flatten_append, List.flatten_singleton, List.append_assoc]

/-- The loop over the saved fragments stops at the first gap, and the flag it returns says whether
the whole message has been attached. The induction is on the saved fragments. -/
theorem attachSaved_spec {ps : List (List UInt8)} {T : Finset ℕ} {n : ℕ} {L : List Fragment}
    {inc : IncompleteMessage} {isLast : Bool} (h : Partial ps T n inc)
    (hL : inc.savedFragments = L) (hlast : isLast = decide (n = ps.length)) :
    ∃ n', n' ∉ T ∧ Partial ps T n' (IncompleteMessage.attachSaved L inc isLast).1 ∧
      (IncompleteMessage.attachSaved L inc isLast).2 = decide (n' = ps.length) := by
  induction L generalizing n inc isLast with
  | nil =>
    refine ⟨n, ?_, h, hlast⟩
    intro hmem
    obtain ⟨f, hf, -⟩ := (h.mem_saved n).mpr ⟨hmem, le_rfl⟩
    rw [hL] at hf
    cases hf
  | cons f rest ih =>
    have hf : f ∈ inc.savedFragments := hL ▸ List.mem_cons_self
    have hsorted := h.sorted
    rw [hL] at hsorted
    have hmin : ∀ g ∈ rest, f.fragmentNum < g.fragmentNum := (List.pairwise_cons.mp hsorted).1
    rw [IncompleteMessage.attachSaved]
    split
    next heq =>
      rw [h.next_eq] at heq
      obtain ⟨hlt, hflag, hdata⟩ := h.saved f hf
      have hn : n ∈ T := ((h.mem_saved n).mp ⟨f, hf, heq⟩).1
      subst heq
      have hattach := h.attach hlt hdata (hL ▸ List.sublist_cons_self f rest) (by
        intro i
        rw [Nat.succ_le_iff]
        constructor
        · rintro ⟨g, hg, rfl⟩
          have hg' : g ∈ inc.savedFragments := hL ▸ List.mem_cons_of_mem f hg
          exact ⟨((h.mem_saved _).mp ⟨g, hg', rfl⟩).1, hmin g hg⟩
        · rintro ⟨hi, hgt⟩
          obtain ⟨g, hg, rfl⟩ := (h.mem_saved i).mpr ⟨hi, hgt.le⟩
          rw [hL] at hg
          rcases List.mem_cons.mp hg with rfl | hg
          · omega
          · exact ⟨g, hg, rfl⟩)
      rw [Finset.insert_eq_of_mem hn] at hattach
      exact ih hattach rfl hflag
    next hne =>
      refine ⟨n, ?_, h, hlast⟩
      -- the saved fragments begin behind the gap
      intro hmem
      obtain ⟨g, hg, hgn⟩ := (h.mem_saved n).mpr ⟨hmem, le_rfl⟩
      have hfn := ((h.mem_saved _).mp ⟨f, hf, rfl⟩).2
      rw [h.next_eq] at hne
      rw [hL] at hg
      rcases List.mem_cons.mp hg with rfl | hg
      · exact hne hgn
      · have := hmin g hg
        omega

/-! ## One fragment -/

/-- A saved fragment joins those that wait. -/
theorem Gathers.saveFragment {ps : List (List UInt8)} {S : Finset ℕ} {inc : IncompleteMessage}
    (h : Gathers ps S inc) {msgID : UInt32} {m : Mem} {f : FragmentHeader}
    (hf : IsPiece msgID ps m f) (hlt : mex S < f.fragmentNum) (now : UInt32) :
    Gathers ps (insert f.fragmentNum S) (inc.saveFragment now m f) := by
  unfold Gathers
  rw [mex_insert_of_ne hlt.ne']
  unfold IncompleteMessage.saveFragment
  split
  next hmem =>
    obtain ⟨g, hg, hgn⟩ := List.mem_map.mp hmem
    have hold : f.fragmentNum ∈ S := ((h.mem_saved _).mp ⟨g, hg, hgn⟩).1
    rwa [Finset.insert_eq_of_mem hold]
  next hnot =>
    refine ⟨?_, h.next_eq, h.sorted.insert, ?_, ?_, h.offset_eq, h.offset_le, h.bytes_eq⟩
    · intro i hi
      exact Finset.mem_insert_of_mem (h.below i hi)
    · intro i
      rw [Finset.mem_insert]
      constructor
      · rintro ⟨g, hg, rfl⟩
        rcases KeyedSet.eq_or_mem_of_mem_insert hg with rfl | hg
        · exact ⟨Or.inl rfl, hlt.le⟩
        · obtain ⟨hi, hle⟩ := (h.mem_saved _).mp ⟨g, hg, rfl⟩
          exact ⟨Or.inr hi, hle⟩
      · rintro ⟨rfl | hi, hle⟩
        · exact ⟨_, KeyedSet.mem_insert_self _ hnot, rfl⟩
        · obtain ⟨g, hg, rfl⟩ := (h.mem_saved i).mpr ⟨hi, hle⟩
          exact ⟨g, KeyedSet.mem_insert_of_mem hg, rfl⟩
    · intro g hg
      rcases KeyedSet.eq_or_mem_of_mem_insert hg with rfl | hg
      · refine ⟨hf.lt_length, hf.isLast_eq, ?_⟩
        refine Eq.trans (slice_congr fun i _ => ?_) hf.data_eq
        rw [Nat.zero_add]
      · exact h.saved g hg

/-- The piece that closes the gap is attached, with the saved pieces behind it. -/
theorem Gathers.attach {ps : List (List UInt8)} {S : Finset ℕ} {inc : IncompleteMessage}
    (h : Gathers ps S inc) (hS : S ⊆ Finset.range ps.length) {msgID : UInt32} {m : Mem}
    {f : FragmentHeader} (hf : IsPiece msgID ps m f) (hnext : f.fragmentNum = mex S) :
    let attached := inc.attachNextFragment m f.pos f.size
    let result := if f.isLast then (attached, true)
      else attached.attachSaved attached.savedFragments false
    Gathers ps (insert f.fragmentNum S) result.1 ∧
      result.2 = decide (mex (insert f.fragmentNum S) = ps.length) := by
  have hlt : mex S < ps.length := hnext ▸ hf.lt_length
  have hdata : slice m f.pos f.size = ps[mex S] := by
    rw [hf.data_eq]
    congr 1
  have hattach : Partial ps (insert f.fragmentNum S) (mex S + 1)
      (inc.attachNextFragment m f.pos f.size) := by
    rw [hnext]
    refine Partial.attach h hlt hdata (List.Sublist.refl _) ?_
    -- the number of the gap itself is not saved
    intro i
    rw [h.mem_saved i]
    constructor
    · rintro ⟨hi, hle⟩
      have hne : i ≠ mex S := fun heq => mex_notMem S (heq ▸ hi)
      exact ⟨hi, by omega⟩
    · rintro ⟨hi, hle⟩
      exact ⟨hi, by omega⟩
  have hlast : f.isLast = decide (mex S + 1 = ps.length) := hnext ▸ hf.isLast_eq
  have hT : insert f.fragmentNum S ⊆ Finset.range ps.length :=
    Finset.insert_subset (Finset.mem_range.mpr hf.lt_length) hS
  have hfinal : ∀ {n inc'}, n ∉ insert f.fragmentNum S →
      Partial ps (insert f.fragmentNum S) n inc' →
      Gathers ps (insert f.fragmentNum S) inc' ∧ mex (insert f.fragmentNum S) = n :=
    fun hn hp => ⟨hp.gathers hn, mex_eq_iff.mpr ⟨hp.below, hn⟩⟩
  dsimp only
  split
  next htrue =>
    have hN : mex S + 1 = ps.length := by simpa [hlast] using htrue
    have hnot : mex S + 1 ∉ insert f.fragmentNum S := by
      intro hmem
      have := Finset.mem_range.mp (hT hmem)
      omega
    obtain ⟨hgathers, hmex⟩ := hfinal hnot hattach
    exact ⟨hgathers, by simp [hmex, hN]⟩
  next hfalse =>
    have hflag : false = decide (mex S + 1 = ps.length) := by
      rw [← hlast]
      simpa using hfalse
    obtain ⟨n', hn', hp, hres⟩ := attachSaved_spec hattach rfl hflag
    obtain ⟨hgathers, hmex⟩ := hfinal hn' hp
    exact ⟨hgathers, by rw [hres, hmex]⟩

/-- A fragment of the message adds its number to those taken; the message is complete if no number
is missing. -/
theorem SSUData.processFragment_own (env : DataEnv) (now : UInt32) {d : SSUData} {msgID : UInt32}
    {ps : List (List UInt8)} {S : Finset ℕ}
    (h : Gathers ps S ((d.incompleteMessages msgID).getD newIncompleteMessage))
    (hS : S ⊆ Finset.range ps.length) (hgap : mex S < ps.length) {m : Mem} {f : FragmentHeader}
    (hf : IsPiece msgID ps m f) :
    ∃ inc, Gathers ps (insert f.fragmentNum S) inc ∧
      d.processFragment env now m f =
        if mex (insert f.fragmentNum S) = ps.length then d.completeMessage env now msgID inc.msg
        else d.keepIncomplete env f inc := by
  unfold processFragment
  rw [hf.msgID_eq]
  dsimp only
  have hnextNum := h.next_eq
  rcases lt_trichotomy f.fragmentNum (mex S) with hlt | heq | hgt
  · -- a duplicate of an attached fragment
    have hold : insert f.fragmentNum S = S := Finset.insert_eq_of_mem (mem_of_lt_mex hlt)
    refine ⟨_, hold ▸ h, ?_⟩
    rw [hnextNum, if_neg hlt.ne, if_pos hlt, hold, if_neg hgap.ne]
  · obtain ⟨hgathers, hflag⟩ := h.attach hS hf heq
    refine ⟨_, hgathers, ?_⟩
    rw [hnextNum, if_pos heq, hflag]
    simp only [decide_eq_true_eq]
  · refine ⟨_, h.saveFragment hf hgt now, ?_⟩
    rw [hnextNum, if_neg hgt.ne', if_neg (by omega), mex_insert_of_ne hgt.ne', if_neg hgap.ne]

/-! ## The complete message -/

/-- The message `m'` handed on at the peer is the message `m` of the sender. Its expiration is that
of the sender in whole seconds, of which the short header holds four bytes. -/
structure Arrived (m m' : I2NPMessage) : Prop where
  getTypeID_eq : m'.getTypeID = m.getTypeID
  getMsgID_eq : m'.getMsgID = m.getMsgID
  getSize_eq : m'.getSize = m.getSize
  payload_eq : m'.payload = m.payload
  getExpiration_eq : m'.getExpiration = m.getExpiration / 1000 % 2 ^ 32 * 1000

/-- Once all pieces are attached, `FromSSU` restores the message. -/
theorem Gathers.arrived {ps : List (List UInt8)} {S : Finset ℕ} {inc : IncompleteMessage}
    (h : Gathers ps S inc) (hall : mex S = ps.length) {msg : I2NPMessage}
    (hps : ps.flatten = msg.ssuBytes) : Arrived msg (inc.msg.fromSSU msg.getMsgID) := by
  obtain ⟨head, hhead, hbytes⟩ := h.bytes_eq
  rw [hall, List.take_length, hps] at hbytes
  have hstands : StandsAt inc.msg.buf inc.msg.offset (head ++ msg.ssuBytes) := by
    rw [← hbytes]
    simp [StandsAt, I2NPMessage.bytes]
  have hbody : StandsAt inc.msg.buf inc.msg.ssuHeaderPos msg.ssuBytes := by
    have hpos : inc.msg.offset + head.length = inc.msg.ssuHeaderPos := by
      show inc.msg.offset + head.length = inc.msg.offset + 16 - 5
      omega
    rw [← hpos]
    exact (standsAt_append.mp hstands).2
  have hsize : msg.payload.length = msg.getSize := length_slice _ _ _
  have hlen : inc.msg.len = inc.msg.offset + headerSize + msg.payload.length := by
    have hlength := congrArg List.length hbytes
    rw [I2NPMessage.length_bytes, List.length_append, I2NPMessage.length_ssuBytes] at hlength
    have hle := h.offset_le
    simp only [I2NPMessage.getLength, shortHeaderSize, headerSize] at *
    omega
  obtain ⟨htype, hid, hexp, hsz, hpay⟩ := I2NPMessage.fromSSU_of_standsAt hbody hlen
    (hsize ▸ msg.getSize_lt) msg.getMsgID
  exact ⟨htype, hid, hsz.trans hsize, hpay, hexp⟩

/-- The call is made with the piece number `i` only. -/
def Call.HasPiece (msgID : UInt32) (ps : List (List UInt8)) (c : Call) (i : ℕ) : Prop :=
  ∃ f, c.fragments = [f] ∧ IsPiece msgID ps c.buf f ∧ f.fragmentNum = i

namespace SSUData

/-- The messages with the given ID that have been handed on. -/
def handed (d : SSUData) (msgID : UInt32) : List I2NPMessage :=
  d.handled.filter (·.getMsgID = msgID)

@[simp]
theorem sessionState_keepIncomplete (env : DataEnv) (d : SSUData) (f : FragmentHeader)
    (inc : IncompleteMessage) :
    (d.keepIncomplete env f inc).sessionState = d.sessionState := by
  simp only [keepIncomplete, sendFragmentACK]
  split <;> rfl

@[simp]
theorem receivedMessages_keepIncomplete (env : DataEnv) (d : SSUData) (f : FragmentHeader)
    (inc : IncompleteMessage) :
    (d.keepIncomplete env f inc).receivedMessages = d.receivedMessages := by
  simp only [keepIncomplete, sendFragmentACK]
  split <;> rfl

@[simp]
theorem handed_keepIncomplete (env : DataEnv) (d : SSUData) (f : FragmentHeader)
    (inc : IncompleteMessage) (msgID : UInt32) :
    (d.keepIncomplete env f inc).handed msgID = d.handed msgID := by
  simp only [keepIncomplete, sendFragmentACK]
  split <;> rfl

@[simp]
theorem incompleteMessages_keepIncomplete (env : DataEnv) (d : SSUData) (f : FragmentHeader)
    (inc : IncompleteMessage) :
    (d.keepIncomplete env f inc).incompleteMessages =
      Function.update d.incompleteMessages f.msgID (some inc) := by
  simp only [keepIncomplete, sendFragmentACK]
  split <;> rfl

/-- A complete message whose ID has been received is dropped. -/
theorem completeMessage_again (env : DataEnv) (now : UInt32) {d : SSUData} {msgID : UInt32}
    (hest : d.sessionState = .established) (hrec : msgID ∈ d.receivedMessages)
    (msg : I2NPMessage) :
    d.completeMessage env now msgID msg =
      { d with
        incompleteMessages := Function.update d.incompleteMessages msgID none
      }.sendMsgACK env msgID := by
  unfold completeMessage
  dsimp only
  rw [if_pos (by exact hest), if_pos (by exact hrec)]

/-- A complete message with a new ID is handed on. -/
theorem completeMessage_new (env : DataEnv) (now : UInt32) {d : SSUData} {msgID : UInt32}
    (hest : d.sessionState = .established) (hrec : msgID ∉ d.receivedMessages)
    (msg : I2NPMessage) :
    (d.completeMessage env now msgID msg).sessionState = .established ∧
      (d.completeMessage env now msgID msg).incompleteMessages =
        Function.update d.incompleteMessages msgID none ∧
      (d.completeMessage env now msgID msg).handled = d.handled ++ [msg.fromSSU msgID] ∧
      msgID ∈ (d.completeMessage env now msgID msg).receivedMessages ∧
      ∀ id ∈ (d.completeMessage env now msgID msg).receivedMessages,
        id = msgID ∨ id ∈ d.receivedMessages := by
  unfold completeMessage
  dsimp only
  rw [if_pos (by exact hest), if_neg (by exact hrec)]
  split
  · exact ⟨hest, rfl, rfl, by simp, by simp⟩
  · refine ⟨hest, rfl, rfl, by simp, ?_⟩
    intro id hid
    exact List.mem_insert_iff.mp hid

/-- A fragment leaves its message incomplete or completes it. -/
theorem processFragment_cases (env : DataEnv) (now : UInt32) (m : Mem) (d : SSUData)
    (f : FragmentHeader) :
    (∃ inc, d.processFragment env now m f = d.keepIncomplete env f inc) ∨
      ∃ msg, d.processFragment env now m f = d.completeMessage env now f.msgID msg := by
  unfold processFragment
  dsimp only
  split
  · split
    · exact Or.inr ⟨_, rfl⟩
    · split
      · exact Or.inr ⟨_, rfl⟩
      · exact Or.inl ⟨_, rfl⟩
  · split
    · exact Or.inl ⟨_, rfl⟩
    · exact Or.inl ⟨_, rfl⟩

/-! ## Fragments of other messages -/

/-- A change of the state that does not concern the message `msgID`. -/
structure Leaves (msgID : UInt32) (d d' : SSUData) : Prop where
  established : d'.sessionState = .established
  incomplete_eq : d'.incompleteMessages msgID = d.incompleteMessages msgID
  handed_eq : d'.handed msgID = d.handed msgID
  received : msgID ∈ d'.receivedMessages → msgID ∈ d.receivedMessages

theorem leaves_processFragment (env : DataEnv) (now : UInt32) (m : Mem) {d : SSUData}
    (hest : d.sessionState = .established) {msgID : UInt32} {f : FragmentHeader}
    (hne : f.msgID ≠ msgID) : Leaves msgID d (d.processFragment env now m f) := by
  have hkeep : ∀ inc, Leaves msgID d (d.keepIncomplete env f inc) := by
    intro inc
    refine ⟨by simpa using hest, ?_, by simp, by simp⟩
    rw [incompleteMessages_keepIncomplete, Function.update_of_ne hne.symm]
  have hcomplete : ∀ msg, Leaves msgID d (d.completeMessage env now f.msgID msg) := by
    intro msg
    by_cases hrec : f.msgID ∈ d.receivedMessages
    · rw [completeMessage_again env now hest hrec]
      exact ⟨hest, Function.update_of_ne hne.symm _ _, rfl, id⟩
    · obtain ⟨hest', hinc, hhandled, -, hreceived⟩ := completeMessage_new env now hest hrec msg
      refine ⟨hest', ?_, ?_, ?_⟩
      · rw [hinc, Function.update_of_ne hne.symm]
      · unfold handed
        rw [hhandled, List.filter_append]
        simp [I2NPMessage.getMsgID_fromSSU, hne]
      · intro hmem
        exact (hreceived msgID hmem).resolve_left hne.symm
  rcases d.processFragment_cases env now m f with ⟨inc, heq⟩ | ⟨msg, heq⟩
  · rw [heq]
    exact hkeep inc
  · rw [heq]
    exact hcomplete msg

theorem Leaves.trans {msgID : UInt32} {d d' d'' : SSUData} (h : Leaves msgID d d')
    (h' : Leaves msgID d' d'') : Leaves msgID d d'' :=
  ⟨h'.established, h'.incomplete_eq.trans h.incomplete_eq, h'.handed_eq.trans h.handed_eq,
    fun hmem => h.received (h'.received hmem)⟩

/-- A call with fragments of other messages only. -/
theorem leaves_receive (env : DataEnv) {d : SSUData} (hest : d.sessionState = .established)
    {msgID : UInt32} {c : Call} (hforeign : ∀ f ∈ c.fragments, f.msgID ≠ msgID) :
    Leaves msgID d (d.receive env c) := by
  rw [receive_eq_foldl]
  generalize c.fragments = fragments at hforeign
  induction fragments generalizing d with
  | nil => exact ⟨hest, rfl, rfl, id⟩
  | cons f fragments ih =>
    have hfirst := leaves_processFragment env c.now c.buf hest (hforeign f List.mem_cons_self)
    have hrest := ih hfirst.established fun g hg => hforeign g (List.mem_cons_of_mem f hg)
    exact hfirst.trans hrest

/-! ## The received IDs -/

/-- A fragment adds at most one ID to the received ones, and forgets none of at most
`maxReceivedMessages`. -/
theorem receivedMessages_processFragment (env : DataEnv) (now : UInt32) (m : Mem) {d : SSUData}
    (hest : d.sessionState = .established) (hlen : d.receivedMessages.length ≤ maxReceivedMessages)
    (f : FragmentHeader) :
    (d.processFragment env now m f).sessionState = .established ∧
      d.receivedMessages ⊆ (d.processFragment env now m f).receivedMessages ∧
      (d.processFragment env now m f).receivedMessages.length ≤ d.receivedMessages.length + 1 := by
  have hkeep : ∀ inc, (d.keepIncomplete env f inc).sessionState = .established ∧
      d.receivedMessages ⊆ (d.keepIncomplete env f inc).receivedMessages ∧
      (d.keepIncomplete env f inc).receivedMessages.length ≤ d.receivedMessages.length + 1 := by
    intro inc
    simp [hest]
  have hcomplete : ∀ msg, (d.completeMessage env now f.msgID msg).sessionState = .established ∧
      d.receivedMessages ⊆ (d.completeMessage env now f.msgID msg).receivedMessages ∧
      (d.completeMessage env now f.msgID msg).receivedMessages.length ≤
        d.receivedMessages.length + 1 := by
    intro msg
    unfold completeMessage
    dsimp only
    rw [if_pos (by exact hest)]
    split
    · exact ⟨hest, fun _ hmem => hmem, Nat.le_succ _⟩
    next hnot =>
      rw [if_neg (by exact Nat.not_lt.mpr hlen)]
      refine ⟨hest, fun _ hmem => List.mem_insert_of_mem hmem, ?_⟩
      exact (List.length_insert_of_not_mem hnot).le
  rcases d.processFragment_cases env now m f with ⟨inc, heq⟩ | ⟨msg, heq⟩
  · rw [heq]
    exact hkeep inc
  · rw [heq]
    exact hcomplete msg

/-- No received ID is forgotten while at most `maxReceivedMessages` have been received. -/
theorem meets_of_length_le (env : DataEnv) {d : SSUData} (hest : d.sessionState = .established)
    {calls : List Call}
    (hlen : d.receivedMessages.length + (calls.map (·.fragments.length)).sum ≤
      maxReceivedMessages) :
    Runs.Meets (receive env)
      (fun d c => d.receivedMessages ⊆ (d.receive env c).receivedMessages) d calls := by
  induction calls generalizing d with
  | nil => trivial
  | cons c calls ih =>
    rw [List.map_cons, List.sum_cons] at hlen
    have hcall : ∀ (fragments : List FragmentHeader) (e : SSUData),
        e.sessionState = .established →
        e.receivedMessages.length + fragments.length ≤ maxReceivedMessages →
        (fragments.foldl (fun d f => d.processFragment env c.now c.buf f) e).sessionState =
            .established ∧
          e.receivedMessages ⊆
            (fragments.foldl (fun d f => d.processFragment env c.now c.buf f) e).receivedMessages ∧
          (fragments.foldl (fun d f => d.processFragment env c.now c.buf f)
            e).receivedMessages.length ≤ e.receivedMessages.length + fragments.length := by
      intro fragments
      induction fragments with
      | nil => exact fun e he _ => ⟨he, fun _ hmem => hmem, le_rfl⟩
      | cons f fragments ihf =>
        intro e he hle
        rw [List.length_cons] at hle
        obtain ⟨hest', hsub, hlen'⟩ :=
          receivedMessages_processFragment env c.now c.buf he (by omega) f
        obtain ⟨hest'', hsub', hlen''⟩ := ihf _ hest' (by omega)
        refine ⟨hest'', fun _ hmem => hsub' (hsub hmem), ?_⟩
        rw [List.foldl_cons, List.length_cons]
        omega
    obtain ⟨hest', hsub, hlen'⟩ := hcall c.fragments d hest (by omega)
    rw [← receive_eq_foldl] at hest' hsub hlen'
    exact ⟨hsub, ih hest' (by omega)⟩

/-! ## Runs -/

/-- The message has not been handed on and all pieces in `A` have been taken, or it has been handed
on once. Pieces that come afterwards start a new incomplete message. -/
structure Phase (msg : I2NPMessage) (ps : List (List UInt8)) (old : List I2NPMessage) (A : Set ℕ)
    (d : SSUData) : Prop where
  established : d.sessionState = .established
  gathering : ∃ S, S ⊆ Finset.range ps.length ∧ mex S < ps.length ∧
    Gathers ps S ((d.incompleteMessages msg.getMsgID).getD newIncompleteMessage) ∧
    (msg.getMsgID ∉ d.receivedMessages → ∀ i ∈ A, i ∈ S)
  waiting : msg.getMsgID ∉ d.receivedMessages → d.handed msg.getMsgID = old
  done : msg.getMsgID ∈ d.receivedMessages →
    ∃ m, d.handed msg.getMsgID = old ++ [m] ∧ Arrived msg m

variable {msg : I2NPMessage} {ps : List (List UInt8)} {old : List I2NPMessage} {A : Set ℕ}
  {d d' : SSUData}

theorem Phase.mono {B : Set ℕ} (h : Phase msg ps old A d) (hBA : B ⊆ A) : Phase msg ps old B d := by
  obtain ⟨S, hS, hgap, hgathers, hA⟩ := h.gathering
  exact ⟨h.established, ⟨S, hS, hgap, hgathers, fun hnot i hi => hA hnot i (hBA hi)⟩, h.waiting,
    h.done⟩

/-- Calls for other messages keep the phase, unless the received IDs are forgotten. -/
theorem Phase.of_leaves (h : Phase msg ps old A d) (hleaves : Leaves msg.getMsgID d d')
    (hkeep : d.receivedMessages ⊆ d'.receivedMessages) : Phase msg ps old A d' := by
  have hiff : msg.getMsgID ∈ d'.receivedMessages ↔ msg.getMsgID ∈ d.receivedMessages :=
    ⟨hleaves.received, fun hmem => hkeep hmem⟩
  obtain ⟨S, hS, hgap, hgathers, hA⟩ := h.gathering
  refine ⟨hleaves.established, ⟨S, hS, hgap, ?_, ?_⟩, ?_, ?_⟩
  · rwa [hleaves.incomplete_eq]
  · rwa [hiff]
  · rw [hiff, hleaves.handed_eq]
    exact h.waiting
  · rw [hiff, hleaves.handed_eq]
    exact h.done

/-- A fragment of the message. -/
theorem Phase.processFragment (h : Phase msg ps old A d) (hps : ps.flatten = msg.ssuBytes)
    (env : DataEnv) (now : UInt32) {m : Mem} {f : FragmentHeader}
    (hf : IsPiece msg.getMsgID ps m f) :
    Phase msg ps old (insert f.fragmentNum A) (d.processFragment env now m f) := by
  obtain ⟨S, hS, hgap, hgathers, hA⟩ := h.gathering
  obtain ⟨inc, hinc, heq⟩ := processFragment_own env now hgathers hS hgap hf
  have hS' : insert f.fragmentNum S ⊆ Finset.range ps.length :=
    Finset.insert_subset (Finset.mem_range.mpr hf.lt_length) hS
  have hempty : mex ∅ < ps.length := by
    rw [mex_empty]
    exact Nat.zero_lt_of_lt hgap
  rw [heq]
  split
  next hall =>
    by_cases hrec : msg.getMsgID ∈ d.receivedMessages
    · -- all pieces have come once more
      rw [completeMessage_again env now h.established hrec]
      refine ⟨h.established, ⟨∅, by simp, hempty, ?_, ?_⟩, ?_, fun _ => h.done hrec⟩
      · show Gathers ps ∅ ((Function.update d.incompleteMessages msg.getMsgID none
          msg.getMsgID).getD newIncompleteMessage)
        rw [Function.update_self]
        exact gathers_newIncompleteMessage ps
      · exact fun hnot => absurd hrec hnot
      · exact fun hnot => absurd hrec hnot
    · obtain ⟨hest, hincs, hhandled, hmem, -⟩ := completeMessage_new env now h.established hrec inc.msg
      refine ⟨hest, ⟨∅, by simp, hempty, ?_, ?_⟩, ?_, ?_⟩
      · rw [hincs, Function.update_self]
        exact gathers_newIncompleteMessage ps
      · exact fun hnot => absurd hmem hnot
      · exact fun hnot => absurd hmem hnot
      · intro _
        refine ⟨_, ?_, hinc.arrived hall hps⟩
        have hold := h.waiting hrec
        unfold handed at hold ⊢
        rw [hhandled, List.filter_append, hold]
        simp [I2NPMessage.getMsgID_fromSSU]
  next hmissing =>
    have hle : mex (insert f.fragmentNum S) ≤ ps.length := by
      apply mex_le_of_notMem
      intro hmem
      exact absurd (Finset.mem_range.mp (hS' hmem)) (lt_irrefl _)
    refine ⟨by simpa using h.established, ⟨_, hS', by omega, ?_, ?_⟩, ?_, ?_⟩
    · rw [incompleteMessages_keepIncomplete, hf.msgID_eq, Function.update_self]
      exact hinc
    · rw [receivedMessages_keepIncomplete]
      rintro hnot i (rfl | hi)
      · exact Finset.mem_insert_self _ _
      · exact Finset.mem_insert_of_mem (hA hnot i hi)
    · rw [receivedMessages_keepIncomplete, handed_keepIncomplete]
      exact h.waiting
    · rw [receivedMessages_keepIncomplete, handed_keepIncomplete]
      exact h.done

/-- A run of calls, each with one piece of the message or with other messages. The induction is on
the calls; `A` grows by the piece of each. -/
theorem Phase.exec (env : DataEnv) (hps : ps.flatten = msg.ssuBytes) {calls : List Call}
    (h : Phase msg ps old A d)
    (hcalls : ∀ c ∈ calls, (∃ i, c.HasPiece msg.getMsgID ps i) ∨
      ∀ f ∈ c.fragments, f.msgID ≠ msg.getMsgID)
    (hkeep : Runs.Meets (receive env)
      (fun d c => d.receivedMessages ⊆ (d.receive env c).receivedMessages) d calls) :
    Phase msg ps old (A ∪ {i | ∃ c ∈ calls, c.HasPiece msg.getMsgID ps i})
      (Runs.exec (receive env) d calls) := by
  induction calls generalizing d A with
  | nil => simpa [Runs.exec] using h
  | cons c calls ih =>
    obtain ⟨hfirst, hrest⟩ := hkeep
    have hcalls' := fun c' hc' => hcalls c' (List.mem_cons_of_mem c hc')
    rcases hcalls c List.mem_cons_self with ⟨i, f, hfs, hf, rfl⟩ | hforeign
    · have hstep : Phase msg ps old (insert f.fragmentNum A) (d.receive env c) := by
        rw [receive_eq_foldl, hfs]
        exact h.processFragment hps env c.now hf
      have hall := ih hstep hcalls' hrest
      refine hall.mono ?_
      rintro i (hi | ⟨c', hc', hi⟩)
      · exact Or.inl (Or.inr hi)
      · rcases List.mem_cons.mp hc' with rfl | hc'
        · obtain ⟨g, hgs, -, rfl⟩ := hi
          obtain rfl : f = g := by simpa [hfs] using hgs
          exact Or.inl (Or.inl rfl)
        · exact Or.inr ⟨c', hc', hi⟩
    · have hstep := h.of_leaves (leaves_receive env h.established hforeign) hfirst
      have hall := ih hstep hcalls' hrest
      refine hall.mono ?_
      rintro i (hi | ⟨c', hc', hi⟩)
      · exact Or.inl hi
      · rcases List.mem_cons.mp hc' with rfl | hc'
        · obtain ⟨f, hfs, hf, -⟩ := hi
          exact absurd hf.msgID_eq (hforeign f (by simp [hfs]))
        · exact Or.inr ⟨c', hc', hi⟩

end SSUData

/-! ## Every order of arrival -/

instance (c : Call) (g : Datagram) : Decidable (c.Carries g) :=
  inferInstanceAs (Decidable (_ = _))

/-- The datagrams `sent`, which `Send` of `a` sends for a message, reach an established session `b`
that has seen nothing of the message: each of them at least once, in any order, between fragments
with other message IDs, and without the received IDs being forgotten meanwhile. -/
structure Transfer (env : DataEnv) (now : UInt32) (a : SSUData) (msg : I2NPMessage)
    (sent : List Datagram) (b : SSUData) (calls : List Call) : Prop where
  packetSize_gt : headerMin + 9 < a.packetSize
  packetSize_le : a.packetSize ≤ packetMaxIPv4
  datagrams_eq : (a.send now msg).datagrams = a.datagrams ++ sent
  sent_ne_nil : sent ≠ []
  length_le : sent.length ≤ 128
  established : b.sessionState = .established
  not_incomplete : (b.incompleteMessages msg.getMsgID).isNone
  not_received : msg.getMsgID ∉ b.receivedMessages
  carries : ∀ c ∈ calls, (∃ g ∈ sent, c.Carries g) ∨ ∀ f ∈ c.fragments, f.msgID ≠ msg.getMsgID
  arrives : ∀ g ∈ sent, ∃ c ∈ calls, c.Carries g
  keeps : Runs.Meets (SSUData.receive env)
    (fun d c => d.receivedMessages ⊆ (d.receive env c).receivedMessages) b calls

namespace Transfer

variable {env : DataEnv} {now : UInt32} {a b : SSUData} {msg : I2NPMessage} {sent : List Datagram}
  {calls : List Call}

theorem payloadSize_pos (h : Transfer env now a msg sent b calls) : 0 < a.payloadSize := by
  rw [SSUData.payloadSize_eq h.packetSize_gt h.packetSize_le]
  have := h.packetSize_gt
  omega

theorem sent_eq (h : Transfer env now a msg sent b calls) :
    sent = (a.fragmentsOf msg).map Fragment.datagram := by
  have hall := h.datagrams_eq
  rcases a.datagrams_send now msg with hnone | hsome
  · rw [hnone] at hall
    exact absurd (List.self_eq_append_right.mp hall) h.sent_ne_nil
  · rw [hsome] at hall
    exact (List.append_cancel_left hall).symm

theorem length_piecesOf_le (h : Transfer env now a msg sent b calls) :
    (a.piecesOf msg).length ≤ 128 := by
  have hle := h.length_le
  rwa [h.sent_eq, SSUData.fragmentsOf_eq h.payloadSize_pos, List.length_map,
    List.length_mapIdx] at hle

/-- The datagrams sent are those of the pieces. -/
theorem mem_sent_iff (h : Transfer env now a msg sent b calls) {g : Datagram} :
    g ∈ sent ↔ ∃ i, ∃ hi : i < (a.piecesOf msg).length,
      g = (makeFragment msg.getMsgID i (decide (i + 1 = (a.piecesOf msg).length))
        (a.piecesOf msg)[i]).datagram := by
  rw [h.sent_eq, SSUData.fragmentsOf_eq h.payloadSize_pos, List.mem_map]
  constructor
  · rintro ⟨f, hf, rfl⟩
    obtain ⟨i, hi, rfl⟩ := List.mem_mapIdx.mp hf
    exact ⟨i, hi, rfl⟩
  · rintro ⟨i, hi, rfl⟩
    exact ⟨_, List.mem_mapIdx.mpr ⟨i, hi, rfl⟩, rfl⟩

/-- A call with the datagram of a piece has this piece. -/
theorem hasPiece_of_carries (h : Transfer env now a msg sent b calls) {c : Call} {i : ℕ}
    (hi : i < (a.piecesOf msg).length)
    (hc : c.Carries (makeFragment msg.getMsgID i (decide (i + 1 = (a.piecesOf msg).length))
      (a.piecesOf msg)[i]).datagram) : c.HasPiece msg.getMsgID (a.piecesOf msg) i := by
  have hnum := h.length_piecesOf_le
  have hsize : (a.piecesOf msg)[i].length < packetMaxIPv4 := by
    have hle := length_le_of_mem_pieces (List.getElem_mem hi)
    rw [SSUData.payloadSize_eq h.packetSize_gt h.packetSize_le] at hle
    have hhigh := h.packetSize_le
    simp only [headerMin, packetMaxIPv4] at *
    omega
  obtain ⟨hfs, hdata⟩ := fragments_of_carries (by omega) hsize hc
  exact ⟨_, hfs, ⟨rfl, hi, rfl, rfl, hdata⟩, rfl⟩

theorem phase (h : Transfer env now a msg sent b calls) :
    SSUData.Phase msg (a.piecesOf msg) (b.handed msg.getMsgID) ∅ b := by
  refine ⟨h.established, ⟨∅, by simp, ?_, ?_, by simp⟩, fun _ => rfl, ?_⟩
  · rw [mex_empty]
    exact List.length_pos_iff.mpr SSUData.piecesOf_ne_nil
  · rw [Option.isNone_iff_eq_none.mp h.not_incomplete]
    exact gathers_newIncompleteMessage _
  · exact fun hmem => absurd hmem h.not_received

/-- The message is handed on exactly once. -/
theorem handled_once (h : Transfer env now a msg sent b calls) :
    ∃ m, (Runs.exec (SSUData.receive env) b calls).handed msg.getMsgID =
      b.handed msg.getMsgID ++ [m] ∧ Arrived msg m := by
  have hcalls : ∀ c ∈ calls, (∃ i, c.HasPiece msg.getMsgID (a.piecesOf msg) i) ∨
      ∀ f ∈ c.fragments, f.msgID ≠ msg.getMsgID := by
    intro c hc
    refine (h.carries c hc).imp_left ?_
    rintro ⟨g, hg, hcarries⟩
    obtain ⟨i, hi, rfl⟩ := h.mem_sent_iff.mp hg
    exact ⟨i, h.hasPiece_of_carries hi hcarries⟩
  have hfinal := h.phase.exec env (SSUData.flatten_piecesOf h.payloadSize_pos) hcalls h.keeps
  apply hfinal.done
  -- were the message still waiting, no piece would be missing
  by_contra hnot
  obtain ⟨S, -, hgap, -, hA⟩ := hfinal.gathering
  apply mex_notMem S
  apply hA hnot
  obtain ⟨c, hc, hcarries⟩ := h.arrives _ (h.mem_sent_iff.mpr ⟨mex S, hgap, rfl⟩)
  exact Or.inr ⟨c, hc, h.hasPiece_of_carries hgap hcarries⟩

end Transfer

/-- A session with packets of `packetSize` bytes. -/
def openSession (packetSize : ℕ) : SSUData where
  sessionState := .established
  packetSize
  incompleteMessages := fun _ => none
  sentMessages := []
  receivedMessages := []
  handled := []
  datagrams := []
  timerCalls := []

/-- A message with one byte of payload. -/
def shortMessage (msgID : UInt32) (expiration : ℕ) : I2NPMessage :=
  { buf := store (fun _ => 0) 2
      (20 :: (writeU32 msgID ++ writeBE 8 expiration ++ writeBE 2 1 ++ [0, 5]))
    capacity := maxShortMessageSize + 16
    len := 2 + headerSize + 1
    offset := 2
    maxLen := maxShortMessageSize }

/-- Calls with the given fragments of a message. -/
def callsWith (d : SSUData) (msg : I2NPMessage) (numbers : List ℕ) : List Call :=
  numbers.filterMap fun i =>
    (d.fragmentsOf msg)[i]?.map fun f => { now := 0, buf := f.buffer, pos := headerMin + 1 }

/-- Three fragments in the order 2, 1, 1, 0, 2, with a fragment of another message between. -/
def scrambled : List Call :=
  callsWith (openSession 48) (shortMessage 7 1500) [2, 1, 1] ++
    (callsWith (openSession 48) (shortMessage 8 1500) [0] ++
      callsWith (openSession 48) (shortMessage 7 1500) [0, 2])

/-- What surrounds the example sessions. -/
def plainEnv : DataEnv := ⟨fun _ => 0, []⟩

theorem handled_once_scrambled :
    ∃ m, (Runs.exec (SSUData.receive plainEnv) (openSession 48) scrambled).handed
        (shortMessage 7 1500).getMsgID =
          (openSession 48).handed (shortMessage 7 1500).getMsgID ++ [m] ∧
      Arrived (shortMessage 7 1500) m := by
  have htransfer : Transfer plainEnv 0 (openSession 48) (shortMessage 7 1500)
      ((openSession 48).send 0 (shortMessage 7 1500)).datagrams (openSession 48) scrambled := by
    refine ⟨by decide, by decide, (List.nil_append _).symm, ?_, ?_, rfl, rfl, by simp [openSession],
      ?_, ?_, ?_⟩
    · exact List.ne_nil_of_length_pos (by decide +kernel)
    · decide +kernel
    · decide +kernel
    · decide +kernel
    · exact SSUData.meets_of_length_le plainEnv rfl (by decide +kernel)
  exact htransfer.handled_once

/-- An expiration of 2^32 seconds does not fit the short header: the peer reads 0. -/
theorem not_expiration_in_seconds :
    Transfer plainEnv 0 (openSession 64) (shortMessage 7 (2 ^ 32 * 1000))
        ((openSession 64).send 0 (shortMessage 7 (2 ^ 32 * 1000))).datagrams (openSession 64)
        (callsWith (openSession 64) (shortMessage 7 (2 ^ 32 * 1000)) [0]) ∧
      (Runs.exec (SSUData.receive plainEnv) (openSession 64)
        (callsWith (openSession 64) (shortMessage 7 (2 ^ 32 * 1000)) [0])).handled.map
          I2NPMessage.getExpiration = [0] ∧
      (shortMessage 7 (2 ^ 32 * 1000)).getExpiration / 1000 * 1000 ≠ 0 := by
  refine ⟨⟨by decide, by decide, (List.nil_append _).symm, ?_, ?_, rfl, rfl, by simp [openSession],
    ?_, ?_, ?_⟩, ?_, ?_⟩
  · exact List.ne_nil_of_length_pos (by decide +kernel)
  · decide +kernel
  · decide +kernel
  · decide +kernel
  · exact SSUData.meets_of_length_le plainEnv rfl (by decide +kernel)
  · decide +kernel
  · decide +kernel

end SSU
