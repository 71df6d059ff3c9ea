import Xi2p.SSU.Data

/-!
# ACK bit fields

A chain of bit field bytes acknowledges the fragments of a message, seven to a byte: bit `j` of
byte `i` stands for fragment `7 * i + j`.

* `processACKs_of_standsAt`: what `ProcessACKs` does with a chain. Its running fragment number moves
  on only in bytes in which a bit is set.
* `releasesExactly_iff`: a chain is read as it was meant iff no byte without a bit stands in front
  of a byte with one. The fragment ACK for a number `n` puts `n / 7` such bytes in front, so it is
  read as it was meant only for `n < 7`.
-/

namespace SSU

open Bytes I2NP

/-! ## Chains -/

/-- A chain of bit fields: every byte but the last has the high bit set. -/
def IsChain (bs : List UInt8) : Prop :=
  ∃ init last, bs = init ++ [last] ∧ (∀ b ∈ init, b &&& 0x80 ≠ 0) ∧ last &&& 0x80 = 0

/-- Bit `n % 7` of byte `n / 7` of the chain is set. -/
def acked (bs : List UInt8) (n : ℕ) : Bool := (bs.getD (n / 7) 0).toNat.testBit (n % 7)

/-- None of the seven bits is set. -/
def IsBlank (b : UInt8) : Prop := b &&& 0x7F = 0

instance (b : UInt8) : Decidable (IsBlank b) := inferInstanceAs (Decidable (b &&& 0x7F = 0))

/-- Behind a blank byte come only blank ones. -/
def NoGap : List UInt8 → Prop
  | [] => True
  | b :: bs => (IsBlank b → ∀ c ∈ bs, IsBlank c) ∧ NoGap bs

/-- The fragments that `ProcessACKs` releases for a chain, from the running number `fragment`. -/
def released : List UInt8 → ℕ → ℕ → Bool
  | [], _, _ => false
  | b :: bs, fragment, n =>
    if IsBlank b then released bs fragment n
    else
      (decide (fragment ≤ n) && decide (n < fragment + 7) && b.toNat.testBit (n - fragment)) ||
        released bs (fragment + 7) n

/-- The fragments in `s` become null. -/
def release (s : ℕ → Bool) (fragments : List (Option Fragment)) : List (Option Fragment) :=
  fragments.mapIdx fun n f => if s n then none else f

theorem getElem?_release (s : ℕ → Bool) (fs : List (Option Fragment)) (n : ℕ) :
    (release s fs)[n]? = fs[n]?.map fun f => if s n then none else f := by
  simp [release]

theorem release_release (s t : ℕ → Bool) (fs : List (Option Fragment)) :
    release t (release s fs) = release (fun n => s n || t n) fs := by
  apply List.ext_getElem?
  intro n
  rw [getElem?_release, getElem?_release, getElem?_release, Option.map_map]
  congr 1
  funext f
  cases s n <;> cases t n <;> rfl

theorem testBit_and_0x7F (b : UInt8) {j : ℕ} (hj : j < 7) :
    (b &&& 0x7F).toNat.testBit j = b.toNat.testBit j := by
  rw [UInt8.toNat_and, Nat.testBit_and]
  have hmask : (0x7F : UInt8).toNat.testBit j = true := by
    interval_cases j <;> rfl
  rw [hmask, Bool.and_true]

/-- A byte that is not blank has one of the seven bits set. -/
theorem exists_testBit_of_not_isBlank {b : UInt8} (h : ¬ IsBlank b) :
    ∃ j < 7, b.toNat.testBit j := by
  by_contra hnone
  apply h
  apply UInt8.toNat_inj.mp
  apply Nat.eq_of_testBit_eq
  intro j
  by_cases hj : j < 7
  · rw [testBit_and_0x7F b hj]
    have : ¬ b.toNat.testBit j := fun hbit => hnone ⟨j, hj, hbit⟩
    simpa using this
  · have hlt : (b &&& 0x7F).toNat < 2 ^ j := by
      have hle : (b &&& 0x7F).toNat ≤ 0x7F := by
        rw [UInt8.toNat_and]
        exact Nat.and_le_right
      have hpow : 2 ^ 7 ≤ 2 ^ j := Nat.pow_le_pow_right (by decide) (by omega)
      omega
    rw [Nat.testBit_lt_two_pow hlt]
    simp

theorem testBit_of_isBlank {b : UInt8} (h : IsBlank b) {j : ℕ} (hj : j < 7) :
    b.toNat.testBit j = false := by
  rw [← testBit_and_0x7F b hj]
  unfold IsBlank at h
  rw [h]
  simp

/-! ## What is released -/

theorem foldl_set_eq_release (p : ℕ → Bool) (fragment : ℕ) (js : List ℕ)
    (fs : List (Option Fragment)) :
    js.foldl (fun fs j => if p j then fs.set (fragment + j) none else fs) fs =
      release (fun n => js.any fun j => p j && decide (n = fragment + j)) fs := by
  induction js generalizing fs with
  | nil =>
    apply List.ext_getElem?
    intro n
    rw [getElem?_release]
    simp
  | cons j js ih =>
    rw [List.foldl_cons, ih]
    apply List.ext_getElem?
    intro n
    rw [getElem?_release, getElem?_release, List.any_cons]
    by_cases hp : p j
    · rw [if_pos hp, List.getElem?_set]
      by_cases hn : fragment + j = n
      · subst hn
        by_cases hlt : fragment + j < fs.length
        · simp [hp, hlt]
        · simp [hlt]
      · have hn' : ¬ n = fragment + j := fun h => hn h.symm
        simp [hn, hn']
    · simp [hp]

/-- One byte of a chain releases the fragments whose bits are set. -/
theorem releaseBits_eq (b : UInt8) (fragment : ℕ) (fs : List (Option Fragment)) :
    SSUData.releaseBits (b &&& 0x7F) fragment fs =
      release (fun n => decide (fragment ≤ n) && decide (n < fragment + 7) &&
        b.toNat.testBit (n - fragment)) fs := by
  unfold SSUData.releaseBits
  rw [foldl_set_eq_release]
  congr 1
  funext n
  rw [Bool.eq_iff_iff]
  simp only [List.any_eq_true, List.mem_range, Bool.and_eq_true, decide_eq_true_eq]
  constructor
  · rintro ⟨j, hj, hbit, rfl⟩
    rw [testBit_and_0x7F b hj] at hbit
    exact ⟨⟨by omega, by omega⟩, by rwa [Nat.add_sub_cancel_left]⟩
  · rintro ⟨⟨hle, hlt⟩, hbit⟩
    have hj : n - fragment < 7 := by omega
    exact ⟨n - fragment, hj, by rwa [testBit_and_0x7F b hj], by omega⟩

namespace SSUData

variable {d : SSUData} {msgID : UInt32}

theorem modifySent_modifySent (f g : List (Option Fragment) → List (Option Fragment)) :
    (d.modifySent msgID f).modifySent msgID g = d.modifySent msgID (g ∘ f) := by
  unfold modifySent
  simp only [List.map_map, SSUData.mk.injEq, true_and, and_true]
  apply List.map_congr_left
  intro e _
  by_cases h : e.1 = msgID <;> simp [h]

theorem modifySent_of_findSent_eq_none (h : d.findSent msgID = none)
    (f : List (Option Fragment) → List (Option Fragment)) : d.modifySent msgID f = d := by
  unfold findSent at h
  rw [Option.map_eq_none_iff, List.find?_eq_none] at h
  have hmap : d.sentMessages.map (fun e =>
      if e.1 = msgID then (e.1, { e.2 with fragments := f e.2.fragments }) else e) =
      d.sentMessages := by
    conv_rhs => rw [← List.map_id d.sentMessages]
    apply List.map_congr_left
    intro e he
    rw [if_neg (by simpa using h e he)]
    rfl
  unfold modifySent
  rw [hmap]

theorem findSent_modifySent (f : List (Option Fragment) → List (Option Fragment)) :
    (d.modifySent msgID f).findSent msgID =
      (d.findSent msgID).map fun s => { s with fragments := f s.fragments } := by
  unfold findSent modifySent
  dsimp only
  induction d.sentMessages with
  | nil => rfl
  | cons e es ih =>
    rw [List.map_cons, List.find?_cons, List.find?_cons]
    by_cases h : e.1 = msgID
    · simp [h]
    · simpa [h] using ih

/-- One byte of a chain, for a message that has been sent. -/
theorem modifySent_byte (b : UInt8) (bs : List UInt8) (fragment : ℕ) :
    (if IsBlank b then d.modifySent msgID (release (released bs fragment))
      else (d.modifySent msgID (releaseBits (b &&& 0x7F) fragment)).modifySent msgID
        (release (released bs (fragment + 7)))) =
      d.modifySent msgID (release (released (b :: bs) fragment)) := by
  split
  next hblank =>
    have hreleased : released (b :: bs) fragment = released bs fragment := by
      funext n
      rw [released, if_pos hblank]
    rw [hreleased]
  next hset =>
    rw [modifySent_modifySent]
    congr 1
    funext fs
    rw [Function.comp_apply, releaseBits_eq, release_release]
    congr 1
    funext n
    rw [released, if_neg hset]

theorem modifySent_release_nil (fragment : ℕ) :
    d.modifySent msgID (release (released [] fragment)) = d := by
  have hid : release (released [] fragment) = id := by
    funext fs
    apply List.ext_getElem?
    intro n
    rw [getElem?_release]
    simp [released]
  unfold modifySent
  simp [hid]

/-- The loop over a chain of bit fields. -/
theorem processBitfieldChain_of_standsAt {m : Mem} {bs : List UInt8} (hchain : IsChain bs)
    {limit pos : ℕ} (hstands : StandsAt m pos bs) (hlimit : bs.length ≤ limit) (fragment : ℕ) :
    processBitfieldChain m msgID limit pos fragment d =
      some (d.modifySent msgID (release (released bs fragment)), pos + bs.length) := by
  obtain ⟨init, last, rfl, hinit, hlast⟩ := hchain
  induction init generalizing d limit pos fragment with
  | nil =>
    obtain ⟨limit, rfl⟩ : ∃ l, limit = l + 1 := ⟨limit - 1, by simp at hlimit; omega⟩
    have hbyte : m pos = last := (standsAt_cons.mp hstands).1
    rw [processBitfieldChain, hbyte]
    simp only [hlast, ne_eq, not_true_eq_false, if_false, List.nil_append, List.length_singleton]
    congr 2
    rw [← modifySent_byte, modifySent_release_nil, modifySent_release_nil]
    cases hfound : d.findSent msgID with
    | none => simp [modifySent_of_findSent_eq_none hfound]
    | some s =>
      by_cases hblank : IsBlank last
      · simp [hblank, show last &&& 0x7F = 0 from hblank]
      · simp [hblank, show ¬ last &&& 0x7F = 0 from hblank]
  | cons b init ih =>
    obtain ⟨limit, rfl⟩ : ∃ l, limit = l + 1 := ⟨limit - 1, by simp at hlimit; omega⟩
    rw [List.cons_append, standsAt_cons] at hstands
    obtain ⟨hbyte, hrest⟩ := hstands
    have hb : b &&& 0x80 ≠ 0 := hinit b List.mem_cons_self
    have hinit' : ∀ c ∈ init, c &&& 0x80 ≠ 0 := fun c hc => hinit c (List.mem_cons_of_mem _ hc)
    have hlimit' : (init ++ [last]).length ≤ limit := by
      rw [List.cons_append, List.length_cons] at hlimit
      omega
    rw [processBitfieldChain, hbyte]
    simp only [hb, ne_eq, not_false_eq_true, if_true]
    rw [ih _ hrest hlimit' hinit', List.cons_append, ← modifySent_byte, List.length_cons]
    rw [show pos + 1 + (init ++ [last]).length = pos + ((init ++ [last]).length + 1) by omega]
    congr 2
    cases hfound : d.findSent msgID with
    | none => simp [modifySent_of_findSent_eq_none hfound]
    | some s =>
      by_cases hblank : IsBlank b
      · simp [hblank, show b &&& 0x7F = 0 from hblank]
      · simp [hblank, show ¬ b &&& 0x7F = 0 from hblank]

/-- What `ProcessACKs` does with the chain of one message. -/
theorem processACKs_of_standsAt {m : Mem} {bs : List UInt8} (hchain : IsChain bs)
    {bound pos : ℕ} {flag : UInt8} (hbitfields : flag &&& dataACKBitfieldsIncluded ≠ 0)
    (hexplicit : flag &&& dataExplicitACKsIncluded = 0)
    (hstands : StandsAt m pos (1 :: (writeU32 msgID ++ bs)))
    (hbound : pos + 5 + bs.length ≤ bound) :
    processACKs m bound pos flag d =
      some (d.modifySent msgID (release (released bs 0)), pos + 5 + bs.length) := by
  rw [standsAt_cons, standsAt_append, length_writeU32] at hstands
  obtain ⟨hcount, hid, hbytes⟩ := hstands
  have hread : readU32 (slice m (pos + 1) 4) = msgID := hid.readU32_eq
  have hprocess : processBitfieldChain m msgID (bound - (pos + 1 + 4)) (pos + 1 + 4) 0 d =
      some (d.modifySent msgID (release (released bs 0)), pos + 1 + 4 + bs.length) :=
    processBitfieldChain_of_standsAt hchain hbytes (by omega) 0
  unfold processACKs
  simp only [hexplicit, ne_eq, not_true_eq_false, if_false, hbitfields, not_false_eq_true, if_true,
    hcount]
  show processBitfields m bound 1 (pos + 1) d = _
  rw [processBitfields, hread, hprocess]
  show some (_, pos + 1 + 4 + bs.length) = _
  rfl

end SSUData

/-! ## When a chain is read as it was meant -/

theorem acked_of_lt {bs : List UInt8} {b : UInt8} {n : ℕ} (h : n < 7) :
    acked (b :: bs) n = b.toNat.testBit n := by
  unfold acked
  rw [Nat.div_eq_of_lt h, Nat.mod_eq_of_lt h]
  rfl

theorem acked_add_seven (b : UInt8) (bs : List UInt8) (n : ℕ) :
    acked (b :: bs) (n + 7) = acked bs n := by
  unfold acked
  rw [Nat.add_div_right n (by decide), Nat.add_mod_right]
  rfl

theorem acked_eq_false_of_forall_isBlank {bs : List UInt8} (h : ∀ b ∈ bs, IsBlank b) (n : ℕ) :
    acked bs n = false := by
  unfold acked
  by_cases hn : n / 7 < bs.length
  · have hget : bs.getD (n / 7) 0 = bs[n / 7] := by
      simp [hn]
    rw [hget]
    exact testBit_of_isBlank (h _ (List.getElem_mem hn)) (Nat.mod_lt _ (by decide))
  · have hnone : bs.getD (n / 7) 0 = 0 := by
      simp [List.getElem?_eq_none (Nat.le_of_not_lt hn)]
    rw [hnone]
    simp

theorem released_eq_false_of_forall_isBlank {bs : List UInt8} (h : ∀ b ∈ bs, IsBlank b)
    (fragment n : ℕ) : released bs fragment n = false := by
  induction bs with
  | nil => rfl
  | cons b bs ih =>
    rw [released, if_pos (h b List.mem_cons_self)]
    exact ih fun c hc => h c (List.mem_cons_of_mem _ hc)

/-- Nothing in front of the running fragment number is released. -/
theorem released_eq_false_of_lt {bs : List UInt8} {fragment n : ℕ} (h : n < fragment) :
    released bs fragment n = false := by
  induction bs generalizing fragment with
  | nil => rfl
  | cons b bs ih =>
    rw [released]
    split
    · exact ih h
    · rw [ih (by omega)]
      simp [Nat.not_le.mpr h]

/-- Without a gap, the running fragment number counts all bytes. -/
theorem released_eq_acked_of_noGap {bs : List UInt8} (h : NoGap bs) (fragment n : ℕ) :
    released bs fragment (fragment + n) = acked bs n := by
  induction bs generalizing fragment n with
  | nil => simp [released, acked]
  | cons b bs ih =>
    obtain ⟨hblank, hrest⟩ := h
    rw [released]
    split
    next hb =>
      -- a blank byte: nothing is set in it nor behind it
      rw [released_eq_false_of_forall_isBlank (hblank hb), acked_eq_false_of_forall_isBlank]
      intro c hc
      rcases List.mem_cons.mp hc with rfl | hc
      · exact hb
      · exact hblank hb c hc
    next =>
      by_cases hn : n < 7
      · rw [released_eq_false_of_lt (by omega), acked_of_lt hn, Nat.add_sub_cancel_left]
        simp [hn]
      · obtain ⟨k, rfl⟩ : ∃ k, n = k + 7 := ⟨n - 7, by omega⟩
        rw [acked_add_seven, ← ih hrest (fragment + 7) k,
          show fragment + 7 + k = fragment + (k + 7) by omega]
        simp

theorem exists_released_of_not_forall_isBlank {bs : List UInt8} (h : ¬ ∀ b ∈ bs, IsBlank b)
    (fragment : ℕ) : ∃ j < 7, released bs fragment (fragment + j) := by
  induction bs with
  | nil => simp at h
  | cons b bs ih =>
    by_cases hb : IsBlank b
    · have hrest : ¬ ∀ c ∈ bs, IsBlank c := by
        intro hall
        apply h
        intro c hc
        rcases List.mem_cons.mp hc with rfl | hc
        · exact hb
        · exact hall c hc
      obtain ⟨j, hj, hrel⟩ := ih hrest
      exact ⟨j, hj, by rwa [released, if_pos hb]⟩
    · obtain ⟨j, hj, hbit⟩ := exists_testBit_of_not_isBlank hb
      refine ⟨j, hj, ?_⟩
      rw [released, if_neg hb, Nat.add_sub_cancel_left]
      simp [hj, hbit]

/-- With a gap, a fragment is released whose bit is not set. -/
theorem exists_released_of_not_noGap {bs : List UInt8} (h : ¬ NoGap bs) (fragment : ℕ) :
    ∃ n, n < 7 * bs.length ∧ released bs fragment (fragment + n) ∧ acked bs n = false := by
  induction bs generalizing fragment with
  | nil => exact absurd trivial h
  | cons b bs ih =>
    by_cases hb : IsBlank b
    · by_cases hall : ∀ c ∈ bs, IsBlank c
      · -- then the gap lies further behind, but there is no bit left
        obtain ⟨n, -, hrel, -⟩ := ih (fun hno => h ⟨fun _ => hall, hno⟩) fragment
        rw [released_eq_false_of_forall_isBlank hall] at hrel
        cases hrel
      · obtain ⟨j, hj, hrel⟩ := exists_released_of_not_forall_isBlank hall fragment
        refine ⟨j, by rw [List.length_cons]; omega, by rwa [released, if_pos hb], ?_⟩
        rw [acked_of_lt hj, testBit_of_isBlank hb hj]
    · obtain ⟨n, hlt, hrel, hack⟩ := ih (fun hno => h ⟨fun hblank => absurd hblank hb, hno⟩)
        (fragment + 7)
      refine ⟨n + 7, by rw [List.length_cons]; omega, ?_, by rwa [acked_add_seven]⟩
      rw [released, if_neg hb, show fragment + (n + 7) = fragment + 7 + n by omega, hrel,
        Bool.or_true]

/-! ## The codec -/

/-- `ProcessACKs` releases exactly the fragments whose bits are set in the chain `bs`, whatever has
been sent, and stops right behind the chain. -/
def ReleasesExactly (bs : List UInt8) : Prop :=
  ∀ (d : SSUData) (m : Mem) (bound pos : ℕ) (flag : UInt8) (msgID : UInt32),
    flag &&& dataACKBitfieldsIncluded ≠ 0 → flag &&& dataExplicitACKsIncluded = 0 →
    StandsAt m pos (1 :: (writeU32 msgID ++ bs)) → pos + 5 + bs.length ≤ bound →
    SSUData.processACKs m bound pos flag d =
      some (d.modifySent msgID (release (acked bs)), pos + 5 + bs.length)

/-- `ProcessACKs` on the fragment ACK for the number `n` releases exactly the fragment `n`, whatever
has been sent. -/
def ReleasesFragment (n : ℕ) : Prop :=
  ∀ (env : DataEnv) (d : SSUData) (msgID : UInt32),
    SSUData.processACKs (SSUData.fragmentACKDatagram env msgID n).buf
        (SSUData.fragmentACKDatagram env msgID n).len (headerMin + 1)
        ((SSUData.fragmentACKDatagram env msgID n).buf headerMin) d =
      some (d.modifySent msgID fun fs => fs.set n none,
        headerMin + 1 + 5 + (SSUData.fragmentACKChain n).length)

/-- Some fragment. -/
def someFragment : Fragment := { fragmentNum := 0, len := 0, buffer := fun _ => 0 }

/-- A session that has sent one message of `count` fragments. -/
def sentOne (msgID : UInt32) (count : ℕ) : SSUData where
  sessionState := .established
  packetSize := packetMaxIPv4
  incompleteMessages := fun _ => none
  sentMessages :=
    [(msgID, { fragments := List.replicate count (some someFragment), nextResendTime := 0 })]
  receivedMessages := []
  handled := []
  datagrams := []
  timerCalls := []

/-- A gap shows on a message that is long enough. -/
theorem modifySent_sentOne_ne {s t : ℕ → Bool} {n count : ℕ} (hn : n < count) (hs : s n = true)
    (ht : t n = false) (msgID : UInt32) :
    (sentOne msgID count).modifySent msgID (release s) ≠
      (sentOne msgID count).modifySent msgID (release t) := by
  intro heq
  have hfind := congrArg (fun d => (d.findSent msgID).map SentMessage.fragments) heq
  simp only [SSUData.findSent_modifySent, Option.map_map] at hfind
  have hsent : (sentOne msgID count).findSent msgID =
      some { fragments := List.replicate count (some someFragment), nextResendTime := 0 } := by
    simp [SSUData.findSent, sentOne]
  rw [hsent] at hfind
  simp only [Option.map_some, Function.comp_apply, Option.some.injEq] at hfind
  have hget := congrArg (fun fs => fs[n]?) hfind
  simp [getElem?_release, hn, hs, ht] at hget

theorem releasesExactly_iff_noGap {bs : List UInt8} (hchain : IsChain bs) :
    ReleasesExactly bs ↔ NoGap bs := by
  constructor
  · intro h
    by_contra hgap
    obtain ⟨n, hn, hrel, hack⟩ := exists_released_of_not_noGap hgap 0
    rw [Nat.zero_add] at hrel
    -- one message that has a fragment for every bit of the chain
    have hstands := standsAt_store (fun _ => 0) 0 (1 :: (writeU32 0 ++ bs))
    have hmeant := h (sentOne 0 (7 * bs.length)) _ (0 + 5 + bs.length) 0 dataACKBitfieldsIncluded 0
      (by decide) (by decide) hstands le_rfl
    have hdone : SSUData.processACKs _ (0 + 5 + bs.length) 0 dataACKBitfieldsIncluded
        (sentOne 0 (7 * bs.length)) = _ :=
      SSUData.processACKs_of_standsAt hchain (by decide) (by decide) hstands le_rfl
    rw [hdone] at hmeant
    simp only [Option.some.injEq, Prod.mk.injEq, and_true] at hmeant
    exact modifySent_sentOne_ne hn hrel hack 0 hmeant
  · intro hno d m bound pos flag msgID hbitfields hexplicit hstands hbound
    rw [SSUData.processACKs_of_standsAt hchain hbitfields hexplicit hstands hbound]
    have hset : released bs 0 = acked bs := by
      funext n
      simpa using released_eq_acked_of_noGap hno 0 n
    rw [hset]

/-! ## Fragment ACKs -/

theorem isChain_fragmentACKChain (n : ℕ) : IsChain (SSUData.fragmentACKChain n) := by
  refine ⟨_, _, rfl, ?_, ?_⟩
  · intro b hb
    rw [List.eq_of_mem_replicate hb]
    decide
  · have hmod : n % 7 < 7 := Nat.mod_lt _ (by decide)
    interval_cases n % 7 <;> decide

theorem testBit_one_shiftLeft_mod (r : ℕ) (hr : r < 7) {j : ℕ} (hj : j < 7) :
    (UInt8.ofNat (1 <<< r)).toNat.testBit j = decide (j = r) := by
  interval_cases r <;> interval_cases j <;> decide

/-- The bit of fragment `n` is the only one in its fragment ACK. -/
theorem acked_fragmentACKChain (n k : ℕ) :
    acked (SSUData.fragmentACKChain n) k = decide (k = n) := by
  have hk : k % 7 < 7 := Nat.mod_lt _ (by decide)
  have hn : n % 7 < 7 := Nat.mod_lt _ (by decide)
  unfold acked SSUData.fragmentACKChain
  rcases lt_trichotomy (k / 7) (n / 7) with hlt | heq | hgt
  · have hne : k ≠ n := by
      rintro rfl
      omega
    have hbyte : (List.replicate (n / 7) (0x80 : UInt8) ++
        [UInt8.ofNat (1 <<< (n % 7))]).getD (k / 7) 0 = 0x80 := by
      simp [List.getElem?_append, hlt]
    rw [hbyte, decide_eq_false hne]
    exact testBit_of_isBlank (by decide) hk
  · have hbyte : (List.replicate (n / 7) (0x80 : UInt8) ++
        [UInt8.ofNat (1 <<< (n % 7))]).getD (k / 7) 0 = UInt8.ofNat (1 <<< (n % 7)) := by
      simp [heq]
    rw [hbyte, testBit_one_shiftLeft_mod _ hn hk, decide_eq_decide]
    omega
  · have hne : k ≠ n := by
      rintro rfl
      omega
    have hbyte : (List.replicate (n / 7) (0x80 : UInt8) ++
        [UInt8.ofNat (1 <<< (n % 7))]).getD (k / 7) 0 = 0 := by
      have hlen : (List.replicate (n / 7) (0x80 : UInt8) ++
          [UInt8.ofNat (1 <<< (n % 7))]).length ≤ k / 7 := by
        simp
        omega
      simp only [List.getD_eq_getElem?_getD, List.getElem?_eq_none hlen, Option.getD_none]
    rw [hbyte, decide_eq_false hne]
    simp

theorem release_eq_set (n : ℕ) (fs : List (Option Fragment)) :
    release (acked (SSUData.fragmentACKChain n)) fs = fs.set n none := by
  apply List.ext_getElem?
  intro k
  rw [getElem?_release, acked_fragmentACKChain, List.getElem?_set]
  by_cases hk : n = k
  · subst hk
    by_cases hlt : n < fs.length
    · simp [hlt]
    · simp [hlt]
  · have hk' : ¬ k = n := fun h => hk h.symm
    simp [hk, hk']

theorem noGap_fragmentACKChain_iff (n : ℕ) : NoGap (SSUData.fragmentACKChain n) ↔ n < 7 := by
  have hmod : n % 7 < 7 := Nat.mod_lt _ (by decide)
  have hbit : ¬ IsBlank (UInt8.ofNat (1 <<< (n % 7))) := by
    interval_cases n % 7 <;> decide
  unfold SSUData.fragmentACKChain
  constructor
  · intro h
    by_contra hn
    obtain ⟨q, hq⟩ : ∃ q, n / 7 = q + 1 := ⟨n / 7 - 1, by omega⟩
    rw [hq, List.replicate_succ, List.cons_append] at h
    -- the first continuation byte is blank, the last byte is not
    exact hbit (h.1 (by decide) _ (by simp))
  · intro hn
    rw [Nat.div_eq_of_lt hn]
    simp [NoGap]

/-- What `ProcessACKs` does with a fragment ACK. -/
theorem processACKs_fragmentACKDatagram (env : DataEnv) (d : SSUData) (msgID : UInt32) {n : ℕ}
    (hn : n ≤ 64) :
    SSUData.processACKs (SSUData.fragmentACKDatagram env msgID n).buf
        (SSUData.fragmentACKDatagram env msgID n).len (headerMin + 1)
        ((SSUData.fragmentACKDatagram env msgID n).buf headerMin) d =
      some (d.modifySent msgID (release (released (SSUData.fragmentACKChain n) 0)),
        headerMin + 1 + 5 + (SSUData.fragmentACKChain n).length) := by
  have hstands : StandsAt (SSUData.fragmentACKDatagram env msgID n).buf headerMin
      (dataACKBitfieldsIncluded :: 1 :: (writeU32 msgID ++ (SSUData.fragmentACKChain n ++ [0]))) :=
    standsAt_store _ _ _
  rw [standsAt_cons] at hstands
  obtain ⟨hflag, hrest⟩ := hstands
  rw [← List.append_assoc, ← List.cons_append, standsAt_append] at hrest
  have hlength : (SSUData.fragmentACKChain n).length = n / 7 + 1 := by
    simp [SSUData.fragmentACKChain]
  apply SSUData.processACKs_of_standsAt (isChain_fragmentACKChain n)
  · rw [hflag]
    decide
  · rw [hflag]
    decide
  · exact hrest.1
  · rw [hlength]
    show 37 + 1 + 5 + (n / 7 + 1) ≤ if n / 7 < 4 then 48 else 64
    split <;> omega

theorem releasesFragment_iff {n : ℕ} (hn : n ≤ 64) : ReleasesFragment n ↔ n < 7 := by
  have hset : ∀ d : SSUData, ∀ msgID, d.modifySent msgID (fun fs => fs.set n none) =
      d.modifySent msgID (release (acked (SSUData.fragmentACKChain n))) := by
    intro d msgID
    congr 1
    funext fs
    rw [release_eq_set]
  rw [← noGap_fragmentACKChain_iff]
  constructor
  · intro h
    by_contra hgap
    obtain ⟨k, hk, hrel, hack⟩ := exists_released_of_not_noGap hgap 0
    rw [Nat.zero_add] at hrel
    have hmeant := h ⟨fun _ => 0, []⟩ (sentOne 0 (7 * (SSUData.fragmentACKChain n).length)) 0
    rw [processACKs_fragmentACKDatagram _ _ _ hn, hset] at hmeant
    simp only [Option.some.injEq, Prod.mk.injEq, and_true] at hmeant
    exact modifySent_sentOne_ne hk hrel hack 0 hmeant
  · intro hno env d msgID
    rw [processACKs_fragmentACKDatagram _ _ _ hn, hset]
    have hsame : released (SSUData.fragmentACKChain n) 0 = acked (SSUData.fragmentACKChain n) := by
      funext k
      simpa using released_eq_acked_of_noGap hno 0 k
    rw [hsame]

/-- A chain of bit fields is read as it was meant iff no blank byte stands in front of one with a
bit; the fragment ACK that is sent for a number up to `64` is read as it was meant iff the number
is less than `7`. -/
theorem releasesExactly_iff (bs : List UInt8) (hchain : IsChain bs) :
    (ReleasesExactly bs ↔ NoGap bs) ∧ ∀ n ≤ 64, (ReleasesFragment n ↔ n < 7) :=
  ⟨releasesExactly_iff_noGap hchain, fun _ hn => releasesFragment_iff hn⟩

/-- Two bytes with bits, and the fragment ACK for fragment `6`. -/
theorem releasesExactly_pair : ReleasesExactly [0x81, 0x05] ∧ ReleasesFragment 6 := by
  have hiff := releasesExactly_iff [0x81, 0x05] ⟨[0x81], 0x05, rfl, by decide +kernel, by decide +kernel⟩
  refine ⟨hiff.1.mpr ?_, (hiff.2 6 (by decide)).mpr (by decide)⟩
  exact ⟨fun h => absurd h (by decide), by simp [NoGap]⟩

/-- The fragment ACK for fragment `7` of a message of 14 fragments releases fragment `0` instead. -/
theorem not_releasesFragment_seven :
    (SSUData.processACKs (SSUData.fragmentACKDatagram ⟨fun _ => 0, []⟩ 1 7).buf
        (SSUData.fragmentACKDatagram ⟨fun _ => 0, []⟩ 1 7).len (headerMin + 1)
        ((SSUData.fragmentACKDatagram ⟨fun _ => 0, []⟩ 1 7).buf headerMin) (sentOne 1 14)).map
      (fun r => (r.1.findSent 1).map fun s => s.fragments.map Option.isNone) =
        some (some (true :: List.replicate 13 false)) ∧
      ¬ ReleasesFragment 7 ∧ IsChain [0x80, 1] ∧ ¬ ReleasesExactly [0x80, 1] := by
  have hchain : IsChain [0x80, 1] := isChain_fragmentACKChain 7
  refine ⟨by decide, ?_, hchain, ?_⟩
  · rw [releasesFragment_iff (by decide)]
    decide
  · rw [releasesExactly_iff_noGap hchain]
    exact fun h => absurd (h.1 (by decide) 1 (by decide)) (by decide)

end SSU
