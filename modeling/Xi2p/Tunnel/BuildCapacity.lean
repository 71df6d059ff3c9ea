import Xi2p.Tunnel.Onion

/-!
# The size of build messages

The message that `Tunnel::Build` makes has a short buffer, and a record for every hop. The number of hops is
configured: `ClientDestination` takes every positive number for it.

* `recordAt_build_of_notMem`: only the records of `accessedRecords` are written.
* `recordsFit_iff`: they lie inside the buffer if and only if there are at most seven hops.
-/

namespace Tunnel

open Bytes CBC I2NP I2NPMessage

/-! ## The records that are accessed -/

/-- The records that `decryptFollowing` decrypts. -/
def decryptedRecords : List IndexedHop → List ℕ
  | [] => []
  | _ :: following => decryptedRecords following ++ following.map (·.recordIndex)

/-- The records that `Build` writes for hops, fills with random bytes, and decrypts. -/
def accessedRecords (hops : List (TunnelHopConfig × RecordEnv)) (recordIndicies : List ℕ) : List ℕ :=
  (indexHops hops recordIndicies).map (·.1.recordIndex) ++ recordIndicies.drop hops.length ++
    decryptedRecords ((indexHops hops recordIndicies).map Prod.fst)

/-- The message of `Build`, before its header is filled. -/
def buildMsg (crypto : BuildCrypto) (replyMsgID : UInt32) (hops : List (TunnelHopConfig × RecordEnv))
    (recordIndicies : List ℕ) (random : ℕ → Block tunnelBuildRecordSize) : I2NPMessage :=
  let msg := newI2NPShortMessage
  { msg with
    buf := build crypto replyMsgID hops recordIndicies random msg.buf msg.payloadPos
    len := msg.len + (numRecords hops.length * tunnelBuildRecordSize + 1) }

/-- Every record that is accessed lies inside the buffer, and so does the message. -/
def Fits (crypto : BuildCrypto) (replyMsgID : UInt32) (hops : List (TunnelHopConfig × RecordEnv))
    (recordIndicies : List ℕ) (random : ℕ → Block tunnelBuildRecordSize) : Prop :=
  let msg := buildMsg crypto replyMsgID hops recordIndicies random
  (∀ i ∈ accessedRecords hops recordIndicies,
    recordPos (msg.payloadPos + 1) i + tunnelBuildRecordSize ≤ msg.capacity) ∧ msg.len ≤ msg.capacity

theorem map_recordIndex_indexHops (hops : List (TunnelHopConfig × RecordEnv)) (recordIndicies : List ℕ) :
    (indexHops hops recordIndicies).map (·.1.recordIndex) = recordIndicies.take hops.length := by
  rw [indexHops, List.map_zipWith]
  induction hops generalizing recordIndicies with
  | nil => rfl
  | cons hop hops ih =>
    rcases recordIndicies with _ | ⟨i, recordIndicies⟩
    · rfl
    · exact congrArg (i :: ·) (ih recordIndicies)

/-- Only records of hops are decrypted. -/
theorem decryptedRecords_subset (hops : List IndexedHop) :
    decryptedRecords hops ⊆ hops.map (·.recordIndex) := by
  induction hops with
  | nil => exact List.Subset.refl _
  | cons hop following ih =>
    intro i hi
    rcases List.mem_append.mp hi with hi | hi
    · exact List.mem_cons_of_mem _ (ih hi)
    · exact List.mem_cons_of_mem _ hi

/-- The records that `Build` comes to are those of the shuffle. -/
theorem mem_accessedRecords (hops : List (TunnelHopConfig × RecordEnv)) (recordIndicies : List ℕ) (i : ℕ) :
    i ∈ accessedRecords hops recordIndicies ↔ i ∈ recordIndicies := by
  have hdecrypted : ∀ i ∈ decryptedRecords ((indexHops hops recordIndicies).map Prod.fst),
      i ∈ recordIndicies.take hops.length := by
    intro i hi
    have hmem := decryptedRecords_subset _ hi
    rw [List.map_map] at hmem
    exact map_recordIndex_indexHops hops recordIndicies ▸ hmem
  rw [accessedRecords, map_recordIndex_indexHops, List.take_append_drop, List.mem_append]
  exact or_iff_left_of_imp fun hi => List.mem_of_mem_take (hdecrypted i hi)

variable {crypto : BuildCrypto} {replyMsgID : UInt32} {hops : List (TunnelHopConfig × RecordEnv)}
  {recordIndicies : List ℕ} {random : ℕ → Block tunnelBuildRecordSize}

/-- `Build` changes no other record. -/
theorem recordAt_build_of_notMem (m : Mem) (payload : ℕ) {i : ℕ}
    (h : i ∉ accessedRecords hops recordIndicies) :
    recordAt (build crypto replyMsgID hops recordIndicies random m payload) (payload + 1) i =
      recordAt m (payload + 1) i := by
  rw [accessedRecords, List.mem_append, List.mem_append, not_or, not_or] at h
  obtain ⟨⟨hcreated, hfilled⟩, -⟩ := h
  have hhops : i ∉ ((indexHops hops recordIndicies).map Prod.fst).map (·.recordIndex) := by
    rwa [List.map_map]
  rw [build, recordAt_decryptFollowing_of_notMem _ hhops, recordAt_fillRecords_of_notMem _ _ hfilled,
    recordAt_createRecords_of_notMem _ _ hcreated]
  refine recordAt_congr fun a hlo _ => store_of_le _ _ ?_
  exact le_trans (Nat.le_add_right _ _) hlo

/-- `Build` changes nothing in front of the message. -/
theorem build_of_lt (m : Mem) {payload a : ℕ} (h : a < payload) :
    build crypto replyMsgID hops recordIndicies random m payload a = m a := by
  have hrecords : a < payload + 1 := Nat.lt_succ_of_lt h
  rw [build, decryptFollowing_of_lt _ _ hrecords, fillRecords_of_lt _ _ _ hrecords,
    createRecords_of_lt _ _ _ hrecords, store_of_lt _ _ h]

theorem numRecords_le_iff {n k : ℕ} (hk : standardNumRecords ≤ k) : numRecords n ≤ k ↔ n ≤ k := by
  rw [numRecords]
  split_ifs with h
  · exact iff_of_true hk (le_trans h hk)
  · rfl

/-- A build message fits if and only if it is for at most seven hops. -/
theorem recordsFit_iff (crypto : BuildCrypto) (replyMsgID : UInt32) (hops : List (TunnelHopConfig × RecordEnv))
    (recordIndicies : List ℕ) (random : ℕ → Block tunnelBuildRecordSize)
    (hshuffle : recordIndicies.Perm (List.range (numRecords hops.length))) :
    Fits crypto replyMsgID hops recordIndicies random ↔ hops.length ≤ 7 := by
  have hmem (i : ℕ) : i ∈ accessedRecords hops recordIndicies ↔ i < numRecords hops.length := by
    rw [mem_accessedRecords, hshuffle.mem_iff, List.mem_range]
  have hlen : (buildMsg crypto replyMsgID hops recordIndicies random).len ≤
      (buildMsg crypto replyMsgID hops recordIndicies random).capacity ↔ numRecords hops.length ≤ 7 := by
    change 18 + (numRecords hops.length * 528 + 1) ≤ 4096 + 16 ↔ _
    omega
  rw [← numRecords_le_iff (by decide), ← hlen]
  refine ⟨fun hfits => hfits.2, fun hle => ⟨fun i hi => ?_, hle⟩⟩
  have hlt := (hmem i).mp hi
  have hnum := hlen.mp hle
  change 2 + 16 + 1 + i * 528 + 528 ≤ 4096 + 16
  omega

/-- The records of seven hops fit. -/
theorem fits_sevenHops :
    Fits exampleCrypto 0 (List.replicate 7 (exampleVisit.hop, exampleVisit.env)) (List.range 7)
      zeroRecords :=
  (recordsFit_iff exampleCrypto 0 _ (List.range 7) zeroRecords (.refl _)).mpr (by decide)

/-- The records of eight hops do not. -/
theorem eightHops :
    ¬ Fits exampleCrypto 0 (List.replicate 8 (exampleVisit.hop, exampleVisit.env)) (List.range 8)
      zeroRecords := by
  intro hfits
  have hlen : 18 + (8 * 528 + 1) ≤ 4096 + 16 := hfits.2
  omega

end Tunnel
