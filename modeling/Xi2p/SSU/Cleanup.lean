import Xi2p.Lib.Runs
import Xi2p.SSU.Capacity
import Xi2p.SSU.Fragmentation
import Xi2p.SSU.Timers

/-!
# When incomplete messages are deleted

Fragments arrive and `HandleIncompleteMessagesCleanupTimer` fires, in any order and at any times. What is
observed of an incomplete message is when its last fragment was accepted, and when its last fragment was saved
because it came too early. Only the second time is recorded by the code.

* `invariant_step`: the time that is recorded.
* `livesLongEnough_iff`: in which runs no message is deleted too early.
-/

namespace SSU.Cleanup

open Bytes I2NP

/-! ## What is observed -/

/-- The times of an incomplete message. -/
structure Times where
  /-- When the last fragment was accepted. -/
  accepted : ℕ := 0
  /-- When the last fragment was saved, or zero. -/
  saved : ℕ := 0
  deriving DecidableEq

/-- `SSUData`, and the times of its messages. -/
structure Observed where
  data : SSUData
  times : UInt32 → Times := fun _ => {}

/-- The times after a fragment. It is accepted if it is the next one, or if it comes too early and its number
is not saved. -/
def Observed.arrive (s : Observed) (time : ℕ) (f : FragmentHeader) : UInt32 → Times :=
  let old := if (s.data.incompleteMessages f.msgID).isSome then s.times f.msgID else {}
  let inc := (s.data.incompleteMessages f.msgID).getD newIncompleteMessage
  if f.fragmentNum = inc.nextFragmentNum then
    Function.update s.times f.msgID { old with accepted := time }
  else if f.fragmentNum < inc.nextFragmentNum ∨
      f.fragmentNum ∈ inc.savedFragments.map Fragment.fragmentNum then s.times
  else Function.update s.times f.msgID { accepted := time, saved := time }

/-- One round of `ProcessFragments`, at a time of the clock. -/
def Observed.processFragment (env : DataEnv) (time : ℕ) (m : Mem) (s : Observed) (f : FragmentHeader) :
    Observed where
  data := s.data.processFragment env (UInt32.ofNat time) m f
  times := s.arrive time f

/-- What happens, and when. -/
inductive Event
  /-- `ProcessFragments`, on the bytes at a position. -/
  | processFragments (time : ℕ) (m : Mem) (pos : ℕ)
  /-- `HandleIncompleteMessagesCleanupTimer`. -/
  | handleIncompleteMessagesCleanupTimer (ts : ℕ)

def step (env : DataEnv) (s : Observed) : Event → Observed
  | .processFragments time m pos =>
    (acceptedFragments m (m pos).toNat (pos + 1)).foldl (·.processFragment env time m ·) s
  | .handleIncompleteMessagesCleanupTimer ts =>
    { s with data := s.data.handleIncompleteMessagesCleanupTimer ts }

/-- No message is deleted until the timeout has passed since its last fragment was accepted. -/
def LivesLongEnough (s : Observed) : Event → Prop
  | .processFragments _ _ _ => True
  | .handleIncompleteMessagesCleanupTimer ts =>
    ∀ msgID, (s.data.incompleteMessages msgID).isSome →
      (s.data.handleIncompleteMessagesCleanupTimer ts).incompleteMessages msgID = none →
        ts > (s.times msgID).accepted + incompleteMessagesCleanupTimeout

/-- Of every message with a fragment that has been accepted within the timeout, a fragment has been saved within
the timeout, as far as the sum fits into 32 bits. -/
def SavedInTime (s : Observed) : Event → Prop
  | .processFragments _ _ _ => True
  | .handleIncompleteMessagesCleanupTimer ts =>
    ∀ msgID, (s.data.incompleteMessages msgID).isSome →
      ts ≤ (s.times msgID).accepted + incompleteMessagesCleanupTimeout →
        ts ≤ ((s.times msgID).saved % 2 ^ 32 + incompleteMessagesCleanupTimeout) % 2 ^ 32

/-! ## The recorded time -/

/-- The time that is recorded is that of the last fragment that was saved. -/
def Invariant (s : Observed) : Prop :=
  ∀ msgID, ∀ inc ∈ s.data.incompleteMessages msgID,
    inc.lastFragmentInsertTime = UInt32.ofNat (s.times msgID).saved

variable {env : DataEnv} {s : Observed}

/-- Appending leaves the time. -/
theorem lastFragmentInsertTime_attachSaved (saved : List Fragment) (inc : IncompleteMessage) (isLast : Bool) :
    (inc.attachSaved saved isLast).1.lastFragmentInsertTime = inc.lastFragmentInsertTime := by
  induction saved generalizing inc isLast with
  | nil => rfl
  | cons f rest ih =>
    rw [IncompleteMessage.attachSaved]
    split
    · exact ih _ _
    · rfl

/-- An update of a message and its times keeps the invariant, if the new time is recorded. -/
theorem Invariant.update (hs : Invariant s) {msgID : UInt32} {data : SSUData} {inc : Option IncompleteMessage}
    {times : Times}
    (hdata : data.incompleteMessages = Function.update s.data.incompleteMessages msgID inc)
    (htime : ∀ i ∈ inc, i.lastFragmentInsertTime = UInt32.ofNat times.saved) :
    Invariant { data, times := Function.update s.times msgID times } := by
  intro id i hi
  rw [hdata] at hi
  by_cases hid : id = msgID
  · subst hid
    rw [Function.update_self] at hi
    change i.lastFragmentInsertTime = UInt32.ofNat (Function.update s.times id times id).saved
    rw [Function.update_self]
    exact htime i hi
  · rw [Function.update_of_ne hid] at hi
    change i.lastFragmentInsertTime = UInt32.ofNat (Function.update s.times msgID times id).saved
    rw [Function.update_of_ne hid]
    exact hs id i hi

/-- A message that stays as it is keeps its times. -/
theorem Invariant.keep (hs : Invariant s) {msgID : UInt32} {data : SSUData} {inc : IncompleteMessage}
    (hdata : data.incompleteMessages = Function.update s.data.incompleteMessages msgID (some inc))
    (hinc : s.data.incompleteMessages msgID = some inc) : Invariant { s with data } := by
  intro id i hi
  rw [hdata, ← hinc, Function.update_eq_self] at hi
  exact hs id i hi

/-- The next fragment leaves the time that is recorded. -/
theorem processFragment_next {d : SSUData} {f : FragmentHeader} (env : DataEnv) (now : UInt32) (m : Mem)
    (hnext : f.fragmentNum = ((d.incompleteMessages f.msgID).getD newIncompleteMessage).nextFragmentNum) :
    ∃ inc, (d.processFragment env now m f).incompleteMessages =
        Function.update d.incompleteMessages f.msgID inc ∧
      ∀ i ∈ inc, i.lastFragmentInsertTime =
        ((d.incompleteMessages f.msgID).getD newIncompleteMessage).lastFragmentInsertTime := by
  rw [SSUData.processFragment]
  dsimp only
  rw [if_pos hnext]
  cases hlast : f.isLast with
  | true => exact ⟨none, SSUData.incompleteMessages_completeMessage _ _ _ _ _, nofun⟩
  | false =>
    simp only [Bool.false_eq_true, if_false]
    split_ifs with hcomplete
    · exact ⟨none, SSUData.incompleteMessages_completeMessage _ _ _ _ _, nofun⟩
    · refine ⟨_, SSUData.incompleteMessages_keepIncomplete _ _ _ _, fun i hi => ?_⟩
      obtain rfl := Option.some.inj hi
      exact lastFragmentInsertTime_attachSaved _ _ _

/-- A fragment that is not accepted changes nothing. -/
theorem processFragment_duplicate {d : SSUData} {f : FragmentHeader} (env : DataEnv) (now : UInt32) (m : Mem)
    (hnext : f.fragmentNum ≠ ((d.incompleteMessages f.msgID).getD newIncompleteMessage).nextFragmentNum)
    (hdup : f.fragmentNum < ((d.incompleteMessages f.msgID).getD newIncompleteMessage).nextFragmentNum ∨
      f.fragmentNum ∈ ((d.incompleteMessages f.msgID).getD
        newIncompleteMessage).savedFragments.map Fragment.fragmentNum) :
    ∃ inc, d.incompleteMessages f.msgID = some inc ∧
      (d.processFragment env now m f).incompleteMessages =
        Function.update d.incompleteMessages f.msgID (some inc) := by
  -- a message that has just been created has no fragment
  rcases hinc : d.incompleteMessages f.msgID with _ | inc
  · rw [hinc] at hdup
    exact absurd hdup (by simp [newIncompleteMessage])
  refine ⟨inc, rfl, ?_⟩
  rw [hinc, Option.getD_some] at hnext hdup
  rw [SSUData.processFragment]
  dsimp only
  rw [hinc, Option.getD_some, if_neg hnext]
  split_ifs with hlt
  · exact SSUData.incompleteMessages_keepIncomplete _ _ _ _
  · rw [IncompleteMessage.saveFragment, if_pos (hdup.resolve_left hlt)]
    exact SSUData.incompleteMessages_keepIncomplete _ _ _ _

/-- A fragment that comes too early is saved, and the time with it. -/
theorem processFragment_saved {d : SSUData} {f : FragmentHeader} (env : DataEnv) (now : UInt32) (m : Mem)
    (hnext : f.fragmentNum ≠ ((d.incompleteMessages f.msgID).getD newIncompleteMessage).nextFragmentNum)
    (hdup : ¬ (f.fragmentNum < ((d.incompleteMessages f.msgID).getD newIncompleteMessage).nextFragmentNum ∨
      f.fragmentNum ∈ ((d.incompleteMessages f.msgID).getD
        newIncompleteMessage).savedFragments.map Fragment.fragmentNum)) :
    ∃ inc, (d.processFragment env now m f).incompleteMessages =
        Function.update d.incompleteMessages f.msgID (some inc) ∧
      inc.lastFragmentInsertTime = now := by
  obtain ⟨hlt, hsaved⟩ := not_or.mp hdup
  rw [SSUData.processFragment]
  dsimp only
  rw [if_neg hnext, if_neg hlt]
  refine ⟨_, SSUData.incompleteMessages_keepIncomplete _ _ _ _, ?_⟩
  rw [IncompleteMessage.saveFragment, if_neg hsaved]

theorem invariant_processFragment (hs : Invariant s) (time : ℕ) (m : Mem) (f : FragmentHeader) :
    Invariant (s.processFragment env time m f) := by
  rw [Observed.processFragment, Observed.arrive]
  by_cases hnext :
      f.fragmentNum = ((s.data.incompleteMessages f.msgID).getD newIncompleteMessage).nextFragmentNum
  · rw [if_pos hnext]
    obtain ⟨inc, hdata, htime⟩ := processFragment_next env (UInt32.ofNat time) m hnext
    refine hs.update hdata fun i hi => (htime i hi).trans ?_
    rcases hinc : s.data.incompleteMessages f.msgID with _ | inc
    · rfl
    · exact hs f.msgID inc hinc
  · rw [if_neg hnext]
    split_ifs with hdup
    · obtain ⟨inc, hinc, hdata⟩ := processFragment_duplicate env (UInt32.ofNat time) m hnext hdup
      exact hs.keep hdata hinc
    · obtain ⟨inc, hdata, htime⟩ := processFragment_saved env (UInt32.ofNat time) m hnext hdup
      refine hs.update hdata fun i hi => ?_
      obtain rfl := Option.some.inj hi
      exact htime

/-- A round of `ProcessFragments` is a run over its fragments. -/
theorem data_step_processFragments (s : Observed) (time : ℕ) (m : Mem) (pos : ℕ) :
    (step env s (.processFragments time m pos)).data =
      s.data.processFragments env (UInt32.ofNat time) m pos := by
  rw [SSUData.processFragments, processFragmentsFrom_eq_foldl, step]
  generalize acceptedFragments m (m pos).toNat (pos + 1) = fs
  induction fs generalizing s with
  | nil => rfl
  | cons f fs ih => exact ih _

/-- The time that is recorded is that of the last fragment that was saved, after every step. -/
theorem invariant_step (hs : Invariant s) (e : Event) : Invariant (step env s e) := by
  cases e with
  | processFragments time m pos =>
    rw [step]
    generalize acceptedFragments m (m pos).toNat (pos + 1) = fs
    induction fs generalizing s with
    | nil => exact hs
    | cons f fs ih => exact ih (invariant_processFragment hs time m f)
  | handleIncompleteMessagesCleanupTimer ts =>
    intro msgID inc hinc
    exact hs msgID inc (Option.mem_filter_iff.mp hinc).1

/-! ## The run -/

/-- The timer deletes a message if the sum of the recorded time and the timeout is over. -/
theorem deleted_iff (hs : Invariant s) {msgID : UInt32} (hinc : (s.data.incompleteMessages msgID).isSome)
    (ts : ℕ) :
    (s.data.handleIncompleteMessagesCleanupTimer ts).incompleteMessages msgID = none ↔
      ts > ((s.times msgID).saved % 2 ^ 32 + incompleteMessagesCleanupTimeout) % 2 ^ 32 := by
  obtain ⟨inc, hinc⟩ := Option.isSome_iff_exists.mp hinc
  have htime := hs msgID inc hinc
  change (s.data.incompleteMessages msgID).filter _ = none ↔ _
  rw [hinc, Option.filter_eq_none_iff]
  simp only [Option.some.injEq, forall_eq', decide_eq_true_eq, not_le, htime, UInt32.toNat_add]
  rfl

/-- No step deletes a message too early if and only if fragments are saved in time. -/
theorem livesLongEnough_iff_savedInTime (hs : Invariant s) (e : Event) :
    LivesLongEnough s e ↔ SavedInTime s e := by
  cases e with
  | processFragments time m pos => exact Iff.rfl
  | handleIncompleteMessagesCleanupTimer ts =>
    refine forall₂_congr fun msgID hinc => ?_
    rw [deleted_iff hs hinc ts]
    constructor
    · intro h hle
      by_contra hgt
      exact absurd (h (not_le.mp hgt)) (not_lt.mpr hle)
    · intro h hgt
      by_contra hle
      exact absurd (h (not_lt.mp hle)) (not_le.mpr hgt)

/-- From a state without incomplete messages, none is deleted too early in a run if and only if, whenever the
timer fires, a fragment of every message that is still active has been saved in time. -/
theorem livesLongEnough_iff (env : DataEnv) (d : SSUData) (hnew : ∀ msgID, d.incompleteMessages msgID = none)
    (events : List Event) :
    Runs.Meets (step env) LivesLongEnough { data := d } events ↔
      Runs.Meets (step env) SavedInTime { data := d } events := by
  refine Runs.meets_iff_of_invariant (I := Invariant) (fun s e _ hs => invariant_step hs e)
    (fun s e _ hs => livesLongEnough_iff_savedInTime hs e) ?_
  intro msgID inc hinc
  cases (hnew msgID).symm.trans hinc

/-- A fragment with one byte of message 7 arrives. -/
def arrival (time fragmentNum : ℕ) : Event :=
  .processFragments time (makeFragment 7 fragmentNum false [0]).buffer (headerMin + 1)

theorem step_arrival_one (time : ℕ) :
    step plainEnv { data := openSession 48 } (arrival time 1) =
      Observed.processFragment plainEnv time (makeFragment 7 1 false [0]).buffer
        { data := openSession 48 } ⟨7, 1, false, 1, headerMin + 1 + 8⟩ := by
  have hread := (fragments_of_carries (c := ⟨0, (makeFragment 7 1 false [0]).buffer, headerMin + 1⟩)
    (by decide) (by decide) rfl).1
  rw [Call.fragments] at hread
  rw [arrival, step, hread]
  rfl

/-- The second fragment is saved, and the timer fires a second later. -/
theorem livesLongEnough_savedFragment :
    Runs.Meets (step plainEnv) LivesLongEnough { data := openSession 48 }
      [arrival 1000 1, .handleIncompleteMessagesCleanupTimer 1001] := by
  refine (livesLongEnough_iff plainEnv (openSession 48) (fun _ => rfl) _).mpr ⟨trivial, ?_, trivial⟩
  rw [step_arrival_one]
  intro msgID hinc _
  by_cases hid : msgID = 7
  · subst hid
    decide +kernel
  · -- only message 7 is incomplete
    obtain ⟨inc, hdata, -⟩ := processFragment_saved (d := openSession 48)
      (f := ⟨7, 1, false, 1, headerMin + 1 + 8⟩) plainEnv (UInt32.ofNat 1000)
      (makeFragment 7 1 false [0]).buffer (by decide) (by decide)
    rw [Observed.processFragment, hdata, Function.update_of_ne hid] at hinc
    cases hinc

/-- The first fragment is accepted, and the timer deletes the message a second later. -/
theorem firstFragment_deleted :
    ¬ Runs.Meets (step plainEnv) LivesLongEnough { data := openSession 48 }
      [arrival 1000 0, .handleIncompleteMessagesCleanupTimer 1001] := by
  rintro ⟨-, hlives, -⟩
  have hlate : 1001 > 1000 + incompleteMessagesCleanupTimeout :=
    hlives 7 (by decide +kernel) (by decide +kernel)
  exact absurd hlate (by decide)

end SSU.Cleanup
