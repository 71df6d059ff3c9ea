import Xi2p.Lib.Runs
import Xi2p.SSU.Reassembly

/-!
# Buffers of incomplete SSU messages

`AttachNextFragment` moves a message that outgrows its short buffer to a full-size one, but nothing
limits the number of fragments that are attached.

* `attached`: the message after each `AttachNextFragment` that one fragment causes.
* `Fits`: the fragment, with the saved fragments that follow it, fits a full-size buffer.
* `attachesInside_iff_fits`: every run stays inside its buffers exactly if all its fragments fit.
-/

namespace SSU

open Bytes I2NP

/-! ## One fragment after the other -/

/-- A fragment that `ProcessFragments` takes, with the datagram it stands in. -/
structure Arrival where
  /-- `GetSecondsSinceEpoch()`. -/
  now : UInt32
  /-- The datagram. -/
  buf : Mem
  /-- The header of the fragment. -/
  header : FragmentHeader

/-- The fragments of a call. -/
def Call.arrivals (c : Call) : List Arrival :=
  c.fragments.map fun f => ⟨c.now, c.buf, f⟩

/-- One round of `ProcessFragments`. -/
def SSUData.take (env : DataEnv) (d : SSUData) (a : Arrival) : SSUData :=
  d.processFragment env a.now a.buf a.header

/-- Calls of `ProcessFragments` go through their fragments one by one. -/
theorem SSUData.exec_receive_eq (env : DataEnv) (d : SSUData) (calls : List Call) :
    Runs.exec (SSUData.receive env) d calls =
      Runs.exec (SSUData.take env) d (calls.flatMap Call.arrivals) := by
  induction calls generalizing d with
  | nil => rfl
  | cons c calls ih =>
    have hcall : d.receive env c = Runs.exec (SSUData.take env) d c.arrivals := by
      rw [SSUData.receive_eq_foldl]
      unfold Runs.exec Call.arrivals
      rw [List.foldl_map]
      rfl
    show Runs.exec (SSUData.receive env) (d.receive env c) calls = _
    rw [ih, hcall]
    exact (List.foldl_append ..).symm

/-! ## What is attached -/

/-- The message after each round of the loop over the saved fragments. -/
def IncompleteMessage.attachedSaved : List Fragment → IncompleteMessage → List I2NPMessage
  | [], _ => []
  | f :: rest, inc =>
    if f.fragmentNum = inc.nextFragmentNum then
      let inc := { inc with savedFragments := rest }.attachNextFragment f.buffer 0 f.len
      inc.msg :: attachedSaved rest inc
    else []

/-- The total size of the saved fragments with the numbers `n`, `n + 1` and so on. -/
def followingSize : List Fragment → ℕ → ℕ
  | [], _ => 0
  | f :: rest, n => if f.fragmentNum = n then f.len + followingSize rest (n + 1) else 0

namespace SSUData

/-- The incomplete message that a fragment belongs to. -/
def incompleteOf (d : SSUData) (a : Arrival) : IncompleteMessage :=
  (d.incompleteMessages a.header.msgID).getD newIncompleteMessage

/-- The message after each `AttachNextFragment` that the fragment causes. -/
def attached (d : SSUData) (a : Arrival) : List I2NPMessage :=
  let inc := d.incompleteOf a
  if a.header.fragmentNum = inc.nextFragmentNum then
    let inc := inc.attachNextFragment a.buf a.header.pos a.header.size
    inc.msg :: if a.header.isLast then [] else inc.attachedSaved inc.savedFragments
  else []

/-- Nothing is written behind the end of a buffer. -/
def AttachesInside (d : SSUData) (a : Arrival) : Prop := ∀ m ∈ d.attached a, m.Inside

/-- A fragment that is attached fits a full-size buffer, together with the message so far and the
saved fragments that are attached with it. -/
def Fits (d : SSUData) (a : Arrival) : Prop :=
  let inc := d.incompleteOf a
  a.header.fragmentNum = inc.nextFragmentNum →
    inc.msg.getLength + a.header.size +
      (if a.header.isLast then 0
        else followingSize inc.savedFragments (inc.nextFragmentNum + 1)) ≤ maxMessageSize + 14

/-- Every incomplete message ends inside its buffer. -/
def WithinCapacity (d : SSUData) : Prop :=
  ∀ msgID inc, d.incompleteMessages msgID = some inc → inc.msg.Inside

/-- The buffers of all incomplete messages have the shape that reassembly gives them. -/
def Grown (d : SSUData) : Prop :=
  ∀ msgID inc, d.incompleteMessages msgID = some inc → inc.msg.Growing

end SSUData

theorem growing_newIncompleteMessage : newIncompleteMessage.msg.Growing :=
  ⟨rfl, by decide, by decide, Or.inl ⟨rfl, by decide⟩⟩

/-- The messages in the loop over the saved fragments. -/
theorem attachedSaved_spec {L : List Fragment} {inc : IncompleteMessage}
    (hgrowing : inc.msg.Growing) (hlen : inc.msg.getLength ≤ maxMessageSize + 14) :
    ((∀ m ∈ inc.attachedSaved L, m.Inside) ↔
        inc.msg.getLength + followingSize L inc.nextFragmentNum ≤ maxMessageSize + 14) := by
  induction L generalizing inc with
  | nil => simpa [IncompleteMessage.attachedSaved, followingSize] using hlen
  | cons f rest ih =>
    rw [IncompleteMessage.attachedSaved, followingSize]
    split
    next =>
      have hlength : ({ inc with savedFragments := rest }.attachNextFragment f.buffer 0
          f.len).msg.getLength = inc.msg.getLength + f.len :=
        I2NPMessage.getLength_reserve_append hgrowing.offset_le f.buffer 0 f.len
      have hinside := hgrowing.inside_append_iff f.buffer 0 f.len
      rw [List.forall_mem_cons]
      -- once a fragment does not fit, neither does the sum
      by_cases hfits : inc.msg.getLength + f.len ≤ maxMessageSize + 14
      · have hgrowing' : ({ inc with savedFragments := rest }.attachNextFragment f.buffer 0
            f.len).msg.Growing := hgrowing.append f.buffer 0 f.len
        have hrest := ih hgrowing' (hlength ▸ hfits)
        rw [hlength] at hrest
        refine (and_iff_right (hinside.mpr hfits)).trans (hrest.trans ?_)
        rw [Nat.add_assoc]
        rfl
      · refine iff_of_false (fun h => hfits (hinside.mp h.1)) ?_
        omega
    next => simpa using hlen

/-- The last message of the loop is the one that is kept. -/
theorem attachSaved_inside {L : List Fragment} {inc : IncompleteMessage} {isLast : Bool}
    (hgrowing : inc.msg.Growing) (hinside : inc.msg.Inside)
    (hall : ∀ m ∈ inc.attachedSaved L, m.Inside) :
    (IncompleteMessage.attachSaved L inc isLast).1.msg.Inside := by
  induction L generalizing inc isLast with
  | nil => exact hinside
  | cons f rest ih =>
    rw [IncompleteMessage.attachSaved]
    rw [IncompleteMessage.attachedSaved] at hall
    split
    next heq =>
      rw [if_pos heq, List.forall_mem_cons] at hall
      exact ih (hgrowing.append f.buffer 0 f.len) hall.1 hall.2
    next => exact hinside

theorem growing_attachSaved {L : List Fragment} {inc : IncompleteMessage} {isLast : Bool}
    (hgrowing : inc.msg.Growing) :
    (IncompleteMessage.attachSaved L inc isLast).1.msg.Growing := by
  induction L generalizing inc isLast with
  | nil => exact hgrowing
  | cons f rest ih =>
    rw [IncompleteMessage.attachSaved]
    split
    · exact ih (hgrowing.append f.buffer 0 f.len)
    · exact hgrowing

namespace SSUData

/-! ## One round of `ProcessFragments` -/

theorem incompleteMessages_send (now : UInt32) (d : SSUData) (msg : I2NPMessage) :
    (d.send now msg).incompleteMessages = d.incompleteMessages := by
  have hfold : ∀ (fragments : List Fragment) (e : SSUData),
      (fragments.foldl (fun d f => d.sendDatagram ⟨f.buffer, f.len⟩) e).incompleteMessages =
        e.incompleteMessages := by
    intro fragments
    induction fragments with
    | nil => exact fun _ => rfl
    | cons f fragments ih =>
      intro e
      rw [List.foldl_cons, ih]
      rfl
  unfold send
  dsimp only
  split
  · rfl
  · rw [hfold]
    split <;> rfl

theorem incompleteMessages_sessionEstablished (env : DataEnv) (now : UInt32) (d : SSUData) :
    (d.sessionEstablished env now).incompleteMessages = d.incompleteMessages := by
  have hfold : ∀ (msgs : List I2NPMessage) (e : SSUData),
      (msgs.foldl (fun d msg => d.send now msg) e).incompleteMessages = e.incompleteMessages := by
    intro msgs
    induction msgs with
    | nil => exact fun _ => rfl
    | cons msg msgs ih =>
      intro e
      rw [List.foldl_cons, ih, incompleteMessages_send]
  exact hfold env.greeting _

/-- A complete message is forgotten, in every state of the session. -/
theorem incompleteMessages_completeMessage (env : DataEnv) (now : UInt32) (d : SSUData)
    (msgID : UInt32) (msg : I2NPMessage) :
    (d.completeMessage env now msgID msg).incompleteMessages =
      Function.update d.incompleteMessages msgID none := by
  unfold completeMessage
  dsimp only
  split
  · split
    · rfl
    · split <;> rfl
  · split
    · exact incompleteMessages_sessionEstablished env now _
    · split <;> rfl

variable {d : SSUData}

/-- The fragment `a` that is next, attached to its message with the saved fragments behind it. -/
def attachAll (d : SSUData) (a : Arrival) : IncompleteMessage × Bool :=
  let inc := (d.incompleteOf a).attachNextFragment a.buf a.header.pos a.header.size
  inc.attachSaved inc.savedFragments false

/-- What a fragment can do. -/
theorem take_cases (env : DataEnv) (d : SSUData) (a : Arrival) :
    (∃ msg, d.take env a = d.completeMessage env a.now a.header.msgID msg) ∨
      (a.header.fragmentNum = (d.incompleteOf a).nextFragmentNum ∧ a.header.isLast = false ∧
        d.take env a = d.keepIncomplete env a.header (d.attachAll a).1) ∨
      (a.header.fragmentNum < (d.incompleteOf a).nextFragmentNum ∧
        d.take env a = d.keepIncomplete env a.header (d.incompleteOf a)) ∨
      ((d.incompleteOf a).nextFragmentNum < a.header.fragmentNum ∧
        d.take env a = d.keepIncomplete env a.header
          ((d.incompleteOf a).saveFragment a.now a.buf a.header)) := by
  unfold take processFragment attachAll incompleteOf
  dsimp only
  generalize (d.incompleteMessages a.header.msgID).getD newIncompleteMessage = inc
  rcases lt_trichotomy a.header.fragmentNum inc.nextFragmentNum with hlt | heq | hgt
  · rw [if_neg hlt.ne, if_pos hlt]
    exact Or.inr (Or.inr (Or.inl ⟨hlt, rfl⟩))
  · rw [if_pos heq]
    cases hlast : a.header.isLast with
    | true => exact Or.inl ⟨_, rfl⟩
    | false =>
      simp only [Bool.false_eq_true, if_false]
      split
      · exact Or.inl ⟨_, rfl⟩
      · exact Or.inr (Or.inl ⟨heq, trivial, rfl⟩)
  · rw [if_neg hgt.ne', if_neg (by omega)]
    exact Or.inr (Or.inr (Or.inr ⟨hgt, rfl⟩))

theorem growing_incompleteOf (h : d.Grown) (a : Arrival) : (d.incompleteOf a).msg.Growing := by
  unfold incompleteOf
  cases hentry : d.incompleteMessages a.header.msgID with
  | none => exact growing_newIncompleteMessage
  | some inc => exact h _ inc hentry

theorem inside_incompleteOf (h : d.WithinCapacity) (a : Arrival) : (d.incompleteOf a).msg.Inside := by
  unfold incompleteOf
  cases hentry : d.incompleteMessages a.header.msgID with
  | none => decide
  | some inc => exact h _ inc hentry

theorem msg_saveFragment (now : UInt32) (inc : IncompleteMessage) (m : Mem) (f : FragmentHeader) :
    (inc.saveFragment now m f).msg = inc.msg := by
  unfold IncompleteMessage.saveFragment
  split <;> rfl

/-- What a fragment does to the incomplete messages: its own is removed, or replaced by one whose
message is as it was or has been attached to. -/
theorem incompleteMessages_take (env : DataEnv) (hgrown : d.Grown) (a : Arrival) :
    (d.take env a).incompleteMessages =
        Function.update d.incompleteMessages a.header.msgID none ∨
      ∃ inc, (d.take env a).incompleteMessages =
          Function.update d.incompleteMessages a.header.msgID (some inc) ∧ inc.msg.Growing ∧
        ((d.incompleteOf a).msg.Inside → d.AttachesInside a → inc.msg.Inside) := by
  have hstart := growing_incompleteOf hgrown a
  have hattach := hstart.append a.buf a.header.pos a.header.size
  rcases take_cases env d a with ⟨msg, htake⟩ | ⟨hnext, hlast, htake⟩ | ⟨-, htake⟩ | ⟨-, htake⟩
  · left
    rw [htake, incompleteMessages_completeMessage]
  · right
    rw [htake]
    refine ⟨_, incompleteMessages_keepIncomplete env d a.header _, growing_attachSaved hattach, ?_⟩
    intro _ hall
    unfold AttachesInside attached at hall
    rw [if_pos hnext] at hall
    simp only [hlast, Bool.false_eq_true, if_false, List.forall_mem_cons] at hall
    exact attachSaved_inside hattach hall.1 hall.2
  · right
    rw [htake]
    exact ⟨_, incompleteMessages_keepIncomplete env d a.header _, hstart, fun hin _ => hin⟩
  · right
    rw [htake]
    refine ⟨_, incompleteMessages_keepIncomplete env d a.header _, ?_, ?_⟩
    · rwa [msg_saveFragment]
    · intro hin _
      rwa [msg_saveFragment]

theorem Grown.take (h : d.Grown) (env : DataEnv) (a : Arrival) : (d.take env a).Grown := by
  intro msgID inc hinc
  by_cases hid : msgID = a.header.msgID
  · subst hid
    rcases incompleteMessages_take env h a with hnone | ⟨inc', hsome, hgrowing, -⟩
    · rw [hnone, Function.update_self] at hinc
      cases hinc
    · rw [hsome, Function.update_self, Option.some.injEq] at hinc
      rw [← hinc]
      exact hgrowing
  · rcases incompleteMessages_take env h a with hnone | ⟨inc', hsome, -, -⟩
    · rw [hnone, Function.update_of_ne hid] at hinc
      exact h msgID inc hinc
    · rw [hsome, Function.update_of_ne hid] at hinc
      exact h msgID inc hinc

theorem WithinCapacity.take (h : d.WithinCapacity) (hgrown : d.Grown) (env : DataEnv) {a : Arrival}
    (hattach : d.AttachesInside a) : (d.take env a).WithinCapacity := by
  intro msgID inc hinc
  by_cases hid : msgID = a.header.msgID
  · subst hid
    rcases incompleteMessages_take env hgrown a with hnone | ⟨inc', hsome, -, hinside⟩
    · rw [hnone, Function.update_self] at hinc
      cases hinc
    · rw [hsome, Function.update_self, Option.some.injEq] at hinc
      rw [← hinc]
      exact hinside (inside_incompleteOf h a) hattach
  · rcases incompleteMessages_take env hgrown a with hnone | ⟨inc', hsome, -, -⟩
    · rw [hnone, Function.update_of_ne hid] at hinc
      exact h msgID inc hinc
    · rw [hsome, Function.update_of_ne hid] at hinc
      exact h msgID inc hinc

/-- One fragment: all writes stay inside exactly if it fits. -/
theorem attachesInside_iff (hgrown : d.Grown) (a : Arrival) : d.AttachesInside a ↔ d.Fits a := by
  have hstart := growing_incompleteOf hgrown a
  unfold AttachesInside Fits attached
  dsimp only
  generalize d.incompleteOf a = inc at hstart
  by_cases hnext : a.header.fragmentNum = inc.nextFragmentNum
  · rw [if_pos hnext, List.forall_mem_cons]
    simp only [hnext, forall_const]
    have hinside := hstart.inside_append_iff a.buf a.header.pos a.header.size
    have hlength : (inc.attachNextFragment a.buf a.header.pos a.header.size).msg.getLength =
        inc.msg.getLength + a.header.size :=
      I2NPMessage.getLength_reserve_append hstart.offset_le a.buf a.header.pos a.header.size
    by_cases hfits : inc.msg.getLength + a.header.size ≤ maxMessageSize + 14
    · refine (and_iff_right (hinside.mpr hfits)).trans ?_
      split
      · simpa using hfits
      · have hattach : (inc.attachNextFragment a.buf a.header.pos a.header.size).msg.Growing :=
          hstart.append a.buf a.header.pos a.header.size
        have hsaved := attachedSaved_spec (L := inc.savedFragments) hattach (hlength ▸ hfits)
        rw [hlength] at hsaved
        exact hsaved
    · refine iff_of_false (fun h => hfits (hinside.mp h.1)) ?_
      omega
  · rw [if_neg hnext]
    exact iff_of_true (by simp) fun h => absurd h hnext

/-! ## Runs -/

theorem grown_of_forall_eq_none (hnew : ∀ msgID, d.incompleteMessages msgID = none) : d.Grown := by
  intro msgID inc hinc
  rw [hnew] at hinc
  cases hinc

theorem withinCapacity_of_forall_eq_none (hnew : ∀ msgID, d.incompleteMessages msgID = none) :
    d.WithinCapacity := by
  intro msgID inc hinc
  rw [hnew] at hinc
  cases hinc

/-- In every run of `ProcessFragments` from a session without incomplete messages, all writes and
all states reached stay inside the buffers if and only if every fragment fits. -/
theorem attachesInside_iff_fits (env : DataEnv) (hnew : ∀ msgID, d.incompleteMessages msgID = none)
    (calls : List Call) :
    (Runs.Meets (SSUData.take env) AttachesInside d (calls.flatMap Call.arrivals) ∧
        ∀ pre, pre <+: calls.flatMap Call.arrivals →
          (Runs.exec (SSUData.take env) d pre).WithinCapacity) ↔
      Runs.Meets (SSUData.take env) Fits d (calls.flatMap Call.arrivals) := by
  have hgrown := grown_of_forall_eq_none hnew
  have hstep : ∀ (e : SSUData), ∀ a ∈ calls.flatMap Call.arrivals,
      e.Grown → (e.take env a).Grown := fun _ a _ he => he.take env a
  have hiff := Runs.meets_iff_of_invariant hstep (fun _ a _ he => attachesInside_iff he a) hgrown
  refine ⟨fun h => hiff.mp h.1, fun h => ⟨hiff.mpr h, ?_⟩⟩
  rintro pre ⟨post, hpre⟩
  have hmeets : Runs.Meets (SSUData.take env) AttachesInside d pre :=
    Runs.Meets.of_append (hpre ▸ hiff.mpr h)
  -- the shape of the buffers is carried along, since it decides what an append does
  have hboth := Runs.invariant_of_meets (I := fun s => s.Grown ∧ s.WithinCapacity)
    (fun s i hs hi => ⟨hs.1.take env i, hs.2.take hs.1 env hi⟩)
    ⟨hgrown, withinCapacity_of_forall_eq_none hnew⟩ hmeets
  exact hboth.2

end SSUData

/-- Calls with the fragments `0`, `1`, … of one message, each of `size` bytes and none the last. -/
def endlessCalls (size count : ℕ) : List Call :=
  (List.range count).map fun i =>
    { now := 0
      buf := (makeFragment 7 i false (List.replicate size 0)).buffer
      pos := headerMin + 1 }

instance (d : SSUData) (a : Arrival) : Decidable (d.Fits a) :=
  inferInstanceAs (Decidable (_ → _))

theorem attachesInside_one_fragment :
    Runs.Meets (SSUData.take plainEnv) SSUData.AttachesInside (openSession 48)
        ((endlessCalls 3 1).flatMap Call.arrivals) ∧
      ∀ pre, pre <+: (endlessCalls 3 1).flatMap Call.arrivals →
        (Runs.exec (SSUData.take plainEnv) (openSession 48) pre).WithinCapacity :=
  (SSUData.attachesInside_iff_fits plainEnv (fun _ => rfl) (endlessCalls 3 1)).mpr
    (by decide +kernel)

/-- The message grows by one fragment after the other. The induction is on their number. -/
theorem incompleteOf_endlessCalls {size count : ℕ} (hsize : size < packetMaxIPv4)
    (hcount : count ≤ 128) :
    ∃ inc, ((Runs.exec (SSUData.receive plainEnv) (openSession 48)
        (endlessCalls size count)).incompleteMessages 7).getD newIncompleteMessage = inc ∧
      inc.nextFragmentNum = count ∧ inc.savedFragments = [] ∧ inc.msg.Growing ∧
      inc.msg.getLength = 11 + count * size := by
  induction count with
  | zero => exact ⟨newIncompleteMessage, rfl, rfl, rfl, growing_newIncompleteMessage, by simp; rfl⟩
  | succ count ih =>
    obtain ⟨inc, hinc, hnext, hsaved, hgrowing, hlen⟩ := ih (by omega)
    set d := Runs.exec (SSUData.receive plainEnv) (openSession 48) (endlessCalls size count) with hd
    set c : Call :=
      { now := 0
        buf := (makeFragment 7 count false (List.replicate size 0)).buffer
        pos := headerMin + 1 } with hc
    have hrun : Runs.exec (SSUData.receive plainEnv) (openSession 48)
        (endlessCalls size (count + 1)) = d.receive plainEnv c := by
      simp [hd, hc, endlessCalls, Runs.exec, List.range_succ]
    have hfragments : c.fragments = [⟨7, size, false, count, c.pos + 8⟩] := by
      have hcarries : c.Carries (makeFragment 7 count false (List.replicate size 0)).datagram := rfl
      have hread := (fragments_of_carries (by omega) (by simpa using hsize) hcarries).1
      rwa [List.length_replicate] at hread
    refine ⟨inc.attachNextFragment c.buf (c.pos + 8) size, ?_, ?_, hsaved, ?_, ?_⟩
    · have hstep : d.receive plainEnv c =
          d.keepIncomplete plainEnv ⟨7, size, false, count, c.pos + 8⟩
            (inc.attachNextFragment c.buf (c.pos + 8) size) := by
        rw [SSUData.receive_eq_foldl, hfragments]
        show d.processFragment plainEnv c.now c.buf _ = _
        unfold SSUData.processFragment
        dsimp only
        rw [hinc, if_pos hnext.symm]
        have hnone : (inc.attachNextFragment c.buf (c.pos + 8) size).savedFragments = [] := hsaved
        rw [hnone]
        rfl
      rw [hrun, hstep, SSUData.incompleteMessages_keepIncomplete, Function.update_self,
        Option.getD_some]
    · exact congrArg (· + 1) hnext
    · exact hgrowing.append c.buf (c.pos + 8) size
    · have hgrow := I2NPMessage.getLength_reserve_append hgrowing.offset_le c.buf (c.pos + 8) size
      refine hgrow.trans ?_
      rw [hlen, Nat.succ_mul, Nat.add_assoc]

/-- Twenty-four fragments of the largest size end behind the full-size buffer. -/
theorem not_withinCapacity_endlessCalls :
    ¬ (Runs.exec (SSUData.receive plainEnv) (openSession 48)
      (endlessCalls 1455 24)).WithinCapacity := by
  intro h
  have hsize : 1455 < packetMaxIPv4 := by decide
  have hcount : 24 ≤ 128 := by decide
  obtain ⟨inc, hinc, -, -, hgrowing, hlen⟩ := incompleteOf_endlessCalls hsize hcount
  have hinside : inc.msg.Inside := by
    rw [← hinc]
    cases hentry : (Runs.exec (SSUData.receive plainEnv) (openSession 48)
        (endlessCalls 1455 24)).incompleteMessages 7 with
    | none => decide
    | some inc' => exact h 7 inc' hentry
  obtain ⟨-, -, -, hbuffer⟩ := hgrowing
  simp only [I2NPMessage.Inside, I2NPMessage.getLength, maxShortMessageSize, maxMessageSize] at *
  omega

end SSU
