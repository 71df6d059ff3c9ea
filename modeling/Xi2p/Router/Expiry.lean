import Xi2p.Router.NetDb

/-!
# Expiry of routers

`SaveUpdated` counts the routers that it has not found unreachable in `total`, and judges the routers that follow by
this count. At the end it removes unreachable routers from the map.

* `accounts_iff`: when the count is right all the time, and when the routers found unreachable are removed.
-/

namespace Router

open I2NP

namespace NetDb

/-! ## The loop -/

/-- The variables at the start of the loop. -/
def startSave (db : NetDb) : SaveState := { db, total := UInt64.ofNat db.routerInfos.length }

/-- Whether the loop finds a router unreachable. -/
def findsUnreachable (env : SaveEnv) (st : SaveState) (r : ℕ) : Bool :=
  let info := st.db.routers r
  !info.isUpdated && ((expires env st.total info).1 || info.isUnreachable)

/-- The routers that the loop finds unreachable. -/
def foundUnreachable (env : SaveEnv) : SaveState → List ℕ → List ℕ
  | _, [] => []
  | st, r :: rest =>
    let found := if findsUnreachable env st r then [r] else []
    match saveRouter env st r with
    | (_, false) => found
    | (st, true) => found ++ foundUnreachable env st rest

/-- The count is that of the routers less those found unreachable whenever a router has been looked at, and these are not
in the map at the end. -/
structure Accounts (env : SaveEnv) (db : NetDb) : Prop where
  total_eq : ∀ seen, seen <+: db.routerInfos.map Prod.snd →
    (saveRouters env db.startSave seen).1.total.toNat + (foundUnreachable env db.startSave seen).length =
      db.routerInfos.length
  gone : ∀ r ∈ foundUnreachable env db.startSave (db.routerInfos.map Prod.snd),
    r ∉ (db.saveUpdated env).1.routerInfos.map Prod.snd

/-! ## What the loop does by design -/

/-- A router that is not saved and is unreachable, or uses an introducer and is too old. -/
def isLost (env : SaveEnv) (info : RouterInfo) : Bool :=
  !info.isUpdated &&
    (info.isUnreachable || info.contents.usesIntroducer && env.ts > info.contents.timestamp + routerExpiration)

/-- The file of a router is removed. -/
def hasFile (env : SaveEnv) (info : RouterInfo) : Bool :=
  match env.disk info.getIdentHash with
  | .ok existed => existed
  | .throws => false

/-- A router whose file cannot be written or removed ends the loop. -/
def stops (env : SaveEnv) (info : RouterInfo) : Bool :=
  let fails := match env.disk info.getIdentHash with
    | .ok _ => false
    | .throws => true
  if info.isUpdated then fails || info.buffer.isNone else isLost env info && fails

/-- The routers that have been looked at when the loop comes to a router. -/
structure Reaches (env : SaveEnv) (db : NetDb) (seen : List ℕ) (r : ℕ) : Prop where
  isPrefix : seen ++ [r] <+: db.routerInfos.map Prod.snd
  goes_on : ∀ r' ∈ seen, stops env (db.routers r') = false

/-- The number of routers that are left after some have been looked at. -/
def left (env : SaveEnv) (db : NetDb) (seen : List ℕ) : ℕ :=
  db.routerInfos.length - seen.countP fun r => isLost env (db.routers r)

/-! ## One round -/

/-- A router for which `total` is decreased before the check is found unreachable. -/
theorem expires_fst_of_counted {env : SaveEnv} {total : UInt64} {info : RouterInfo} {old : Bool}
    (h : expires env total info = (old, true)) : old = true := by
  unfold expires at h
  split_ifs at h with hintroducer
  · exact absurd (Prod.mk.inj h).2 Bool.false_ne_true
  · split at h
    · exact (Prod.mk.inj h).1.symm.trans (Prod.mk.inj h).2
    · exact absurd (Prod.mk.inj h).2 Bool.false_ne_true

/-- Otherwise only introducers matter. -/
theorem expires_fst_of_uncounted {env : SaveEnv} {total : UInt64} {info : RouterInfo} {old : Bool}
    (h : expires env total info = (old, false)) :
    old = (info.contents.usesIntroducer && decide (env.ts > info.contents.timestamp + routerExpiration)) := by
  unfold expires at h
  split_ifs at h with hintroducer
  · simpa [hintroducer] using (Prod.mk.inj h).1.symm
  · have hno : (info.contents.usesIntroducer &&
        decide (env.ts > info.contents.timestamp + routerExpiration)) = false := by
      simpa using hintroducer
    rw [hno]
    split at h
    · exact (Prod.mk.inj h).1.symm.trans (Prod.mk.inj h).2
    · exact (Prod.mk.inj h).1.symm

/-- The round for a router that is not saved. -/
theorem saveRouter_of_not_updated {env : SaveEnv} {st : SaveState} {r : ℕ} {info : RouterInfo} {old counted : Bool}
    (hinfo : st.db.routers r = info) (hupdated : info.isUpdated = false)
    (hexpires : expires env st.total info = (old, counted)) :
    saveRouter env st r =
      let db := st.db.setRouter r (if old then info.setUnreachable true else info)
      let total := if counted then st.total - 1 else st.total
      if old || info.isUnreachable then
        match env.disk info.getIdentHash with
        | .throws => ({ st with db, total := total - 1 }, false)
        | .ok existed =>
          ({ st with
              db := db.removeFloodfill r
              total := total - 1
              deletedCount := if existed then st.deletedCount + 1 else st.deletedCount }, true)
      else ({ st with db, total }, true) := by
  unfold saveRouter
  rw [hinfo]
  dsimp only
  rw [hupdated, hexpires]
  cases old <;> rfl

theorem routers_removeFloodfill (db : NetDb) (r : ℕ) : (db.removeFloodfill r).routers = db.routers := by
  unfold removeFloodfill
  split <;> rfl

/-- The other router infos are left alone. -/
theorem saveRouter_routers_of_ne (env : SaveEnv) (st : SaveState) {r r' : ℕ} (h : r' ≠ r) :
    (saveRouter env st r).1.db.routers r' = st.db.routers r' := by
  cases hupdated : (st.db.routers r).isUpdated with
  | true =>
    unfold saveRouter
    dsimp only
    rw [hupdated, if_pos rfl]
    split
    · exact Function.update_of_ne h _ _
    · rfl
  | false =>
    obtain ⟨old, counted, hexpires⟩ :
        ∃ old counted, expires env st.total (st.db.routers r) = (old, counted) := ⟨_, _, rfl⟩
    rw [saveRouter_of_not_updated rfl hupdated hexpires]
    dsimp only
    split
    · split
      · exact Function.update_of_ne h _ _
      · rw [routers_removeFloodfill]
        exact Function.update_of_ne h _ _
    · exact Function.update_of_ne h _ _

/-- A router for which `total` is decreased before the check: it is decreased once more. -/
theorem saveRouter_counted {env : SaveEnv} {st : SaveState} {r : ℕ}
    (hupdated : (st.db.routers r).isUpdated = false)
    (hcounted : (expires env st.total (st.db.routers r)).2 = true) :
    findsUnreachable env st r = true ∧ (saveRouter env st r).1.total = st.total - 1 - 1 := by
  obtain ⟨old, counted, hexpires⟩ :
      ∃ old counted, expires env st.total (st.db.routers r) = (old, counted) := ⟨_, _, rfl⟩
  obtain rfl : counted = true := by rwa [hexpires] at hcounted
  obtain rfl := expires_fst_of_counted hexpires
  constructor
  · simp [findsUnreachable, hupdated, hexpires]
  · rw [saveRouter_of_not_updated rfl hupdated hexpires]
    dsimp only
    rw [Bool.true_or, if_pos rfl]
    split <;> rfl

/-- A router for which `total` is not decreased before the check. -/
theorem saveRouter_uncounted {env : SaveEnv} {st : SaveState} {r : ℕ} {info : RouterInfo}
    (hinfo : st.db.routers r = info)
    (huncounted : info.isUpdated = false → (expires env st.total info).2 = false) :
    findsUnreachable env st r = isLost env info ∧
      (saveRouter env st r).2 = !stops env info ∧
      (saveRouter env st r).1.total = (if isLost env info then st.total - 1 else st.total) ∧
      (isLost env info = true → ((saveRouter env st r).1.db.routers r).isUnreachable = true) ∧
      (stops env info = false → (saveRouter env st r).1.deletedCount =
        if isLost env info && hasFile env info then st.deletedCount + 1 else st.deletedCount) := by
  cases hupdated : info.isUpdated with
  | true =>
    have hlost : isLost env info = false := by simp [isLost, hupdated]
    have hfinds : findsUnreachable env st r = false := by simp [findsUnreachable, hinfo, hupdated]
    unfold saveRouter
    rw [hinfo]
    dsimp only
    rw [hupdated, if_pos rfl]
    cases hdisk : env.disk info.getIdentHash <;> cases hbuffer : info.buffer <;>
      simp [hlost, hfinds, stops, hupdated, hdisk, hbuffer]
  | false =>
    obtain ⟨old, counted, hexpires⟩ :
        ∃ old counted, expires env st.total info = (old, counted) := ⟨_, _, rfl⟩
    obtain rfl : counted = false := by simpa [hexpires] using huncounted hupdated
    have hold := expires_fst_of_uncounted hexpires
    have hlost : isLost env info = (old || info.isUnreachable) := by
      rw [isLost, hupdated, hold, Bool.not_false, Bool.true_and, Bool.or_comm]
    have hfinds : findsUnreachable env st r = isLost env info := by
      simp [findsUnreachable, hinfo, hupdated, hexpires, hlost]
    rw [saveRouter_of_not_updated hinfo hupdated hexpires, ← hlost]
    dsimp only
    refine ⟨hfinds, ?_⟩
    cases hcase : isLost env info with
    | false => simp [stops, hupdated, hcase]
    | true =>
      have hunreachable : ∀ db : NetDb, ((db.setRouter r
          (if old = true then info.setUnreachable true else info)).routers r).isUnreachable = true := by
        intro db
        show ((Function.update db.routers r _) r).isUnreachable = true
        rw [Function.update_self]
        cases old with
        | true => rfl
        | false => simpa [hlost] using hcase
      cases hdisk : env.disk info.getIdentHash <;>
        simp [stops, hasFile, hupdated, hcase, hdisk, hunreachable, routers_removeFloodfill]

/-! ## The run -/

theorem saveRouters_concat (env : SaveEnv) (st : SaveState) (seen : List ℕ) (r : ℕ) :
    saveRouters env st (seen ++ [r]) =
      if (saveRouters env st seen).2 then saveRouter env (saveRouters env st seen).1 r
      else saveRouters env st seen := by
  induction seen generalizing st with
  | nil =>
    show saveRouters env st [r] = saveRouter env st r
    rw [saveRouters]
    cases hround : saveRouter env st r with
    | mk st' goes => cases goes <;> rfl
  | cons r' seen ih =>
    rw [List.cons_append, saveRouters, saveRouters]
    cases hround : saveRouter env st r' with
    | mk st' goes =>
      cases goes with
      | false => rfl
      | true => exact ih st'

theorem foundUnreachable_concat (env : SaveEnv) (st : SaveState) (seen : List ℕ) (r : ℕ) :
    foundUnreachable env st (seen ++ [r]) = foundUnreachable env st seen ++
      if (saveRouters env st seen).2 && findsUnreachable env (saveRouters env st seen).1 r then [r] else [] := by
  induction seen generalizing st with
  | nil =>
    show foundUnreachable env st [r] = if true && findsUnreachable env st r then [r] else []
    rw [foundUnreachable]
    cases hround : saveRouter env st r with
    | mk st' goes => cases goes <;> simp [foundUnreachable]
  | cons r' seen ih =>
    rw [List.cons_append, foundUnreachable, foundUnreachable, saveRouters]
    cases hround : saveRouter env st r' with
    | mk st' goes =>
      cases goes with
      | false => simp
      | true =>
        dsimp only
        rw [ih st', List.append_assoc]

/-- What holds after some routers, none of which has ended the loop, if the count has been right. -/
structure Tracked (env : SaveEnv) (db : NetDb) (seen : List ℕ) : Prop where
  goes_on : (saveRouters env db.startSave seen).2 = true
  others : ∀ r ∉ seen, (saveRouters env db.startSave seen).1.db.routers r = db.routers r
  total : (saveRouters env db.startSave seen).1.total = UInt64.ofNat (db.left env seen)
  found : foundUnreachable env db.startSave seen = seen.filter fun r => isLost env (db.routers r)
  lost : ∀ r ∈ seen, isLost env (db.routers r) = true →
    ((saveRouters env db.startSave seen).1.db.routers r).isUnreachable = true
  deleted : (saveRouters env db.startSave seen).1.deletedCount ≠ 0 ↔
    ∃ r ∈ seen, isLost env (db.routers r) = true ∧ hasFile env (db.routers r) = true

/-- The count is not decreased before the check of a router, if it has been right so far. -/
def Uncounted (env : SaveEnv) (db : NetDb) (seen : List ℕ) (r : ℕ) : Prop :=
  (db.routers r).isUpdated = false → (expires env (UInt64.ofNat (db.left env seen)) (db.routers r)).2 = false

variable {env : SaveEnv} {db : NetDb} {seen : List ℕ} {r : ℕ}

theorem tracked_nil : Tracked env db [] where
  goes_on := rfl
  others _ _ := rfl
  total := rfl
  found := rfl
  lost _ h := absurd h List.not_mem_nil
  deleted := by simp [saveRouters, startSave]

theorem Reaches.notMem (h : Reaches env db seen r) (hnodup : (db.routerInfos.map Prod.snd).Nodup) : r ∉ seen := by
  have hseen := h.isPrefix.sublist.nodup hnodup
  intro hmem
  exact (List.nodup_append.mp hseen).2.2 r hmem r List.mem_cons_self rfl

theorem Reaches.length_lt (h : Reaches env db seen r) : seen.length < db.routerInfos.length := by
  have hle := h.isPrefix.length_le
  rw [List.length_append, List.length_map] at hle
  exact hle

theorem left_concat (env : SaveEnv) (db : NetDb) (seen : List ℕ) (r : ℕ) :
    db.left env (seen ++ [r]) = if isLost env (db.routers r) then db.left env seen - 1 else db.left env seen := by
  cases hlost : isLost env (db.routers r) <;> simp [left, List.countP_append, hlost, Nat.sub_sub]

theorem Reaches.left_pos (h : Reaches env db seen r) : 0 < db.left env seen := by
  have hcount : (seen.countP fun r => isLost env (db.routers r)) ≤ seen.length := List.countP_le_length
  have hlt := h.length_lt
  unfold left
  omega

theorem ofNat_sub_one {n : ℕ} (h : 0 < n) : UInt64.ofNat n - 1 = UInt64.ofNat (n - 1) := by
  obtain ⟨m, rfl⟩ := Nat.exists_eq_add_one.mpr h
  rw [Nat.add_sub_cancel, UInt64.ofNat_add]
  exact UInt64.add_sub_cancel _ _

/-- A round of the loop, as long as the count is right. -/
theorem Tracked.round (h : Tracked env db seen) (hreaches : Reaches env db seen r)
    (hnodup : (db.routerInfos.map Prod.snd).Nodup) (huncounted : Uncounted env db seen r) :
    (saveRouters env db.startSave (seen ++ [r])).2 = !stops env (db.routers r) ∧
      (saveRouters env db.startSave (seen ++ [r])).1.total = UInt64.ofNat (db.left env (seen ++ [r])) ∧
      foundUnreachable env db.startSave (seen ++ [r]) =
        (seen ++ [r]).filter (fun r => isLost env (db.routers r)) := by
  have hinfo := h.others r (hreaches.notMem hnodup)
  have hround := saveRouter_uncounted hinfo (fun hupdated => h.total ▸ huncounted hupdated)
  obtain ⟨hfinds, hgoes, htotal, -, -⟩ := hround
  rw [saveRouters_concat, if_pos h.goes_on]
  refine ⟨hgoes, ?_, ?_⟩
  · rw [htotal, h.total, left_concat, ofNat_sub_one hreaches.left_pos, apply_ite UInt64.ofNat]
  · rw [foundUnreachable_concat, h.goes_on, h.found, hfinds, Bool.true_and, List.filter_append]
    cases hlost : isLost env (db.routers r) <;> simp [hlost]

theorem Tracked.concat (h : Tracked env db seen) (hreaches : Reaches env db seen r)
    (hnodup : (db.routerInfos.map Prod.snd).Nodup) (huncounted : Uncounted env db seen r)
    (hgoes : stops env (db.routers r) = false) : Tracked env db (seen ++ [r]) := by
  have hinfo := h.others r (hreaches.notMem hnodup)
  obtain ⟨-, -, -, hunreachable, hdeleted⟩ :=
    saveRouter_uncounted hinfo (fun hupdated => h.total ▸ huncounted hupdated)
  obtain ⟨hend, htotal, hfound⟩ := h.round hreaches hnodup huncounted
  have hstate : saveRouters env db.startSave (seen ++ [r]) =
      saveRouter env (saveRouters env db.startSave seen).1 r := by
    rw [saveRouters_concat, if_pos h.goes_on]
  refine ⟨by rw [hend, hgoes]; rfl, ?_, htotal, hfound, ?_, ?_⟩
  · intro r' hr'
    rw [List.mem_append, List.mem_singleton, not_or] at hr'
    rw [hstate, saveRouter_routers_of_ne env _ hr'.2]
    exact h.others r' hr'.1
  · intro r' hr' hlost
    rw [hstate]
    by_cases heq : r' = r
    · subst heq
      exact hunreachable hlost
    · have hseen : r' ∈ seen := by simpa [heq] using hr'
      rw [saveRouter_routers_of_ne env _ heq]
      exact h.lost r' hseen hlost
  · rw [hstate, hdeleted hgoes]
    simp only [List.mem_append, List.mem_singleton, or_and_right, exists_or, exists_eq_left]
    rw [← h.deleted]
    cases isLost env (db.routers r) <;> cases hasFile env (db.routers r) <;> simp

/-- The count is right as long as it is not decreased before a check. -/
theorem tracked_of (hnodup : (db.routerInfos.map Prod.snd).Nodup)
    (huncounted : ∀ seen r, Reaches env db seen r → Tracked env db seen → Uncounted env db seen r) :
    ∀ seen, seen <+: db.routerInfos.map Prod.snd → (∀ r ∈ seen, stops env (db.routers r) = false) →
      Tracked env db seen := by
  intro seen
  induction seen using List.reverseRecOn with
  | nil => exact fun _ _ => tracked_nil
  | append_singleton seen r ih =>
    intro hpart hgoes
    have hseen : ∀ r ∈ seen, stops env (db.routers r) = false := fun r hr => hgoes r (List.mem_append_left _ hr)
    have htracked := ih ((List.prefix_append seen [r]).trans hpart) hseen
    have hreaches : Reaches env db seen r := ⟨hpart, hseen⟩
    exact htracked.concat hreaches hnodup (huncounted seen r hreaches htracked) (hgoes r (by simp))

/-- The equation of the count after some routers. -/
def Balanced (env : SaveEnv) (db : NetDb) (seen : List ℕ) : Prop :=
  (saveRouters env db.startSave seen).1.total.toNat + (foundUnreachable env db.startSave seen).length =
    db.routerInfos.length

theorem balanced_of (hlen : db.routerInfos.length < 2 ^ 64) (hle : seen.length ≤ db.routerInfos.length)
    (htotal : (saveRouters env db.startSave seen).1.total = UInt64.ofNat (db.left env seen))
    (hfound : foundUnreachable env db.startSave seen = seen.filter fun r => isLost env (db.routers r)) :
    Balanced env db seen := by
  have hcount : (seen.countP fun r => isLost env (db.routers r)) ≤ seen.length := List.countP_le_length
  rw [Balanced, htotal, hfound, ← List.countP_eq_length_filter, UInt64.toNat_ofNat_of_lt' ?_]
  · unfold left
    omega
  · exact (Nat.sub_le _ _).trans_lt hlen

/-- Where the count is decreased before a check, it is wrong after the round. -/
theorem Tracked.uncounted_of_balanced (h : Tracked env db seen) (hreaches : Reaches env db seen r)
    (hnodup : (db.routerInfos.map Prod.snd).Nodup) (hlen : db.routerInfos.length < 2 ^ 64)
    (hbalanced : Balanced env db (seen ++ [r])) : Uncounted env db seen r := by
  intro hupdated
  by_contra hcounted
  have hinfo := h.others r (hreaches.notMem hnodup)
  have hpos := hreaches.left_pos
  have hround : findsUnreachable env (saveRouters env db.startSave seen).1 r = true ∧ _ :=
    saveRouter_counted (hinfo.symm ▸ hupdated) (by rw [hinfo, h.total]; simpa using hcounted)
  obtain ⟨hfinds, htotal⟩ := hround
  rw [Balanced, saveRouters_concat, if_pos h.goes_on, htotal, foundUnreachable_concat, h.goes_on, hfinds, h.found,
    h.total, ofNat_sub_one hpos, List.length_append, ← List.countP_eq_length_filter] at hbalanced
  have hleft : db.left env seen = db.routerInfos.length - seen.countP fun r => isLost env (db.routers r) := rfl
  have hone : (if (true && true) = true then [r] else []).length = 1 := rfl
  rw [hone] at hbalanced
  -- the second subtraction takes one too many, or wraps
  rcases Nat.eq_or_lt_of_le hpos with hlast | hmany
  · rw [← hlast] at hbalanced
    have hwrapped : (UInt64.ofNat (Nat.succ 0 - 1) - 1).toNat = 2 ^ 64 - 1 := rfl
    rw [hwrapped] at hbalanced
    omega
  · rw [ofNat_sub_one (by omega), UInt64.toNat_ofNat_of_lt' ?_] at hbalanced
    · omega
    · show _ < 2 ^ 64
      omega

/-- What is found unreachable stays found. -/
theorem foundUnreachable_subset {seen seen' : List ℕ} (h : seen <+: seen') (st : SaveState) :
    foundUnreachable env st seen ⊆ foundUnreachable env st seen' := by
  obtain ⟨rest, rfl⟩ := h
  induction rest using List.reverseRecOn with
  | nil =>
    rw [List.append_nil]
    exact List.Subset.refl _
  | append_singleton rest r ih =>
    rw [← List.append_assoc, foundUnreachable_concat]
    exact List.subset_append_of_subset_left _ ih

/-- The routers after one that ends the loop change nothing. -/
theorem saveRouters_append_of_stopped {seen : List ℕ} (st : SaveState) (h : (saveRouters env st seen).2 = false)
    (rest : List ℕ) :
    saveRouters env st (seen ++ rest) = saveRouters env st seen ∧
      foundUnreachable env st (seen ++ rest) = foundUnreachable env st seen := by
  induction rest using List.reverseRecOn with
  | nil => rw [List.append_nil]; exact ⟨rfl, rfl⟩
  | append_singleton rest r ih =>
    obtain ⟨hstate, hfound⟩ := ih
    rw [← List.append_assoc, saveRouters_concat, foundUnreachable_concat, hstate, hfound, h]
    exact ⟨rfl, List.append_nil _⟩

/-- The routers before the first one that ends the loop. -/
theorem exists_stop {seen : List ℕ} (hpart : seen <+: db.routerInfos.map Prod.snd)
    (hstops : ¬ ∀ r ∈ seen, stops env (db.routers r) = false) :
    ∃ before r rest, seen = before ++ [r] ++ rest ∧ Reaches env db before r ∧ stops env (db.routers r) = true := by
  induction seen using List.reverseRecOn with
  | nil => exact absurd (fun r hr => absurd hr List.not_mem_nil) hstops
  | append_singleton seen r ih =>
    by_cases hgoes : ∀ r ∈ seen, stops env (db.routers r) = false
    · refine ⟨seen, r, [], (List.append_nil _).symm, ⟨hpart, hgoes⟩, ?_⟩
      by_contra hr
      refine hstops fun r' hr' => ?_
      rcases List.mem_append.mp hr' with hr' | hr'
      · exact hgoes r' hr'
      · rw [List.mem_singleton.mp hr']
        simpa using hr
    · obtain ⟨before, r', rest, hseen, hreaches, hr'⟩ := ih ((List.prefix_append seen [r]).trans hpart) hgoes
      exact ⟨before, r', rest ++ [r], by rw [hseen, List.append_assoc], hreaches, hr'⟩

/-- The loop comes to every router in front of the first one that ends it. -/
theorem exists_reaches (hpart : seen <+: db.routerInfos.map Prod.snd)
    (hgoes : ∀ r ∈ seen, stops env (db.routers r) = false) (hr : r ∈ seen) : ∃ before, Reaches env db before r := by
  obtain ⟨before, rest, rfl⟩ := List.append_of_mem hr
  refine ⟨before, ?_, fun r' hr' => hgoes r' (List.mem_append_left _ hr')⟩
  rw [List.append_cons] at hpart
  exact (List.prefix_append _ rest).trans hpart

/-- The count is never decreased before a check. -/
def CountsOnce (env : SaveEnv) (db : NetDb) : Prop :=
  ∀ seen r, Reaches env db seen r → Uncounted env db seen r

/-- No router is lost, or the loop ends and a lost router has a file. -/
def Purges (env : SaveEnv) (db : NetDb) : Prop :=
  (∀ seen r, Reaches env db seen r → isLost env (db.routers r) = false) ∨
    (∀ r ∈ db.routerInfos.map Prod.snd, stops env (db.routers r) = false) ∧
      ∃ r ∈ db.routerInfos.map Prod.snd, isLost env (db.routers r) = true ∧ hasFile env (db.routers r) = true

theorem CountsOnce.tracked (h : CountsOnce env db) (hnodup : (db.routerInfos.map Prod.snd).Nodup) {seen : List ℕ}
    (hpart : seen <+: db.routerInfos.map Prod.snd) (hgoes : ∀ r ∈ seen, stops env (db.routers r) = false) :
    Tracked env db seen :=
  tracked_of hnodup (fun seen r hreaches _ => h seen r hreaches) seen hpart hgoes

theorem Reaches.tracked (hreaches : Reaches env db seen r) (h : CountsOnce env db)
    (hnodup : (db.routerInfos.map Prod.snd).Nodup) : Tracked env db seen :=
  h.tracked hnodup ((List.prefix_append seen [r]).trans hreaches.isPrefix) hreaches.goes_on

/-- The loop ends like one over the routers that it has come to. -/
theorem CountsOnce.visited (h : CountsOnce env db) (hnodup : (db.routerInfos.map Prod.snd).Nodup) {seen : List ℕ}
    (hpart : seen <+: db.routerInfos.map Prod.snd) :
    ∃ visited, visited.length ≤ seen.length ∧
      (∀ r ∈ visited, ∃ before, Reaches env db before r) ∧
      saveRouters env db.startSave seen = saveRouters env db.startSave visited ∧
      (saveRouters env db.startSave visited).1.total = UInt64.ofNat (db.left env visited) ∧
      foundUnreachable env db.startSave seen = foundUnreachable env db.startSave visited ∧
      foundUnreachable env db.startSave visited = visited.filter fun r => isLost env (db.routers r) := by
  by_cases hgoes : ∀ r ∈ seen, stops env (db.routers r) = false
  · have htracked := h.tracked hnodup hpart hgoes
    exact ⟨seen, le_rfl, fun r hr => exists_reaches hpart hgoes hr, rfl, htracked.total, rfl, htracked.found⟩
  · obtain ⟨before, r, rest, rfl, hreaches, hstops⟩ := exists_stop hpart hgoes
    obtain ⟨hend, htotal, hfound⟩ := (hreaches.tracked h hnodup).round hreaches hnodup (h before r hreaches)
    rw [hstops] at hend
    obtain ⟨hstate, hsame⟩ := saveRouters_append_of_stopped db.startSave hend rest
    refine ⟨before ++ [r], by simp, ?_, hstate, htotal, hsame, hfound⟩
    intro r' hr'
    rcases List.mem_append.mp hr' with hr' | hr'
    · exact exists_reaches ((List.prefix_append before [r]).trans hreaches.isPrefix) hreaches.goes_on hr'
    · rw [List.mem_singleton.mp hr']
      exact ⟨before, hreaches⟩

theorem CountsOnce.balanced (h : CountsOnce env db) (hnodup : (db.routerInfos.map Prod.snd).Nodup)
    (hlen : db.routerInfos.length < 2 ^ 64) {seen : List ℕ} (hpart : seen <+: db.routerInfos.map Prod.snd) :
    Balanced env db seen := by
  obtain ⟨visited, hle, -, hstate, htotal, hsame, hfound⟩ := h.visited hnodup hpart
  have hlength := hpart.length_le
  rw [List.length_map] at hlength
  rw [Balanced, hstate, hsame]
  exact balanced_of hlen (hle.trans hlength) htotal hfound

theorem CountsOnce.mem_found_iff (h : CountsOnce env db) (hnodup : (db.routerInfos.map Prod.snd).Nodup)
    {r : ℕ} :
    r ∈ foundUnreachable env db.startSave (db.routerInfos.map Prod.snd) ↔
      (∃ seen, Reaches env db seen r) ∧ isLost env (db.routers r) = true := by
  constructor
  · intro hr
    obtain ⟨visited, -, hreaches, -, -, hsame, hfound⟩ := h.visited hnodup (List.prefix_refl _)
    rw [hsame, hfound, List.mem_filter] at hr
    exact ⟨hreaches r hr.1, hr.2⟩
  · rintro ⟨⟨seen, hreaches⟩, hlost⟩
    obtain ⟨-, -, hfound⟩ := (hreaches.tracked h hnodup).round hreaches hnodup (h seen r hreaches)
    refine foundUnreachable_subset hreaches.isPrefix _ ?_
    rw [hfound, List.mem_filter]
    exact ⟨by simp, hlost⟩

theorem routerInfos_saveUpdated (env : SaveEnv) (db : NetDb) :
    (db.saveUpdated env).1.routerInfos =
      if (saveRouters env db.startSave (db.routerInfos.map Prod.snd)).2 ∧
          (saveRouters env db.startSave (db.routerInfos.map Prod.snd)).1.deletedCount ≠ 0 then
        db.routerInfos.filter fun e =>
          !((saveRouters env db.startSave (db.routerInfos.map Prod.snd)).1.db.routers e.2).isUnreachable
      else db.routerInfos := by
  have hkeeps := (keeps_saveRouters env db.startSave (db.routerInfos.map Prod.snd)).routerInfos
  unfold saveUpdated
  show (if _ then _ else _ : NetDb × List ℕ).1.routerInfos = _
  rw [apply_ite Prod.fst, apply_ite NetDb.routerInfos]
  dsimp only
  rw [← startSave, hkeeps]
  rfl

/-- When the routers found unreachable are gone, if the count is right. -/
theorem CountsOnce.gone_iff (h : CountsOnce env db) (hnodup : (db.routerInfos.map Prod.snd).Nodup) :
    (∀ r ∈ foundUnreachable env db.startSave (db.routerInfos.map Prod.snd),
      r ∉ (db.saveUpdated env).1.routerInfos.map Prod.snd) ↔ Purges env db := by
  rw [routerInfos_saveUpdated]
  constructor
  · intro hgone
    by_cases hnone : ∀ seen r, Reaches env db seen r → isLost env (db.routers r) = false
    · exact .inl hnone
    · push Not at hnone
      obtain ⟨seen, r, hreaches, hlost⟩ := hnone
      have hmem : r ∈ db.routerInfos.map Prod.snd := hreaches.isPrefix.subset (by simp)
      have hnot := hgone r ((h.mem_found_iff hnodup).mpr ⟨⟨seen, hreaches⟩, by simpa using hlost⟩)
      split_ifs at hnot with hpurged
      · have hgoes : ∀ r ∈ db.routerInfos.map Prod.snd, stops env (db.routers r) = false := by
          by_contra hstops
          obtain ⟨before, r', rest, hall, hreaches', hstop⟩ := exists_stop (List.prefix_refl _) hstops
          obtain ⟨hend, -, -⟩ :=
            (hreaches'.tracked h hnodup).round hreaches' hnodup (h before r' hreaches')
          rw [hstop] at hend
          have hstopped := (saveRouters_append_of_stopped db.startSave hend rest).1
          rw [← hall] at hstopped
          rw [hstopped, hend] at hpurged
          exact Bool.false_ne_true hpurged.1
        have htracked := h.tracked hnodup (List.prefix_refl _) hgoes
        exact .inr ⟨hgoes, htracked.deleted.mp hpurged.2⟩
      · exact absurd hmem hnot
  · rintro (hnone | ⟨hgoes, hfile⟩) r hr
    · obtain ⟨⟨seen, hreaches⟩, hlost⟩ := (h.mem_found_iff hnodup).mp hr
      rw [hnone seen r hreaches] at hlost
      exact absurd hlost Bool.false_ne_true
    · have htracked := h.tracked hnodup (List.prefix_refl _) hgoes
      rw [if_pos ⟨htracked.goes_on, htracked.deleted.mpr hfile⟩]
      rw [htracked.found, List.mem_filter] at hr
      have hunreachable := htracked.lost r hr.1 hr.2
      intro hkept
      obtain ⟨e, he, rfl⟩ := List.mem_map.mp hkept
      rw [List.mem_filter, hunreachable] at he
      exact absurd he.2 Bool.false_ne_true

/-- The count is right, and the routers found unreachable are gone, exactly if the count is never decreased before a check,
and no router is lost or the loop ends and a lost router has a file. -/
theorem accounts_iff (hnodup : (db.routerInfos.map Prod.snd).Nodup) (hlen : db.routerInfos.length < 2 ^ 64) :
    Accounts env db ↔ CountsOnce env db ∧ Purges env db := by
  constructor
  · rintro ⟨htotal, hgone⟩
    have htracked := tracked_of hnodup fun seen r hreaches h =>
      h.uncounted_of_balanced hreaches hnodup hlen (htotal _ hreaches.isPrefix)
    have hcounts : CountsOnce env db := by
      intro seen r hreaches
      have h := htracked seen ((List.prefix_append seen [r]).trans hreaches.isPrefix) hreaches.goes_on
      exact h.uncounted_of_balanced hreaches hnodup hlen (htotal _ hreaches.isPrefix)
    exact ⟨hcounts, (hcounts.gone_iff hnodup).mp hgone⟩
  · rintro ⟨hcounts, hpurges⟩
    exact ⟨fun seen hpart => hcounts.balanced hnodup hlen hpart, (hcounts.gone_iff hnodup).mpr hpurges⟩

/-- A floodfill that has run for long, with files that can be written and removed. -/
def exampleSave : SaveEnv where
  ts := 1577836800000
  startupTime := 1577750400
  isFloodfill := true
  disk _ := .ok true

/-- A database with one router, which is unreachable. -/
def oneUnreachable : NetDb where
  routers _ := { contents := { isUnreachable := true } }
  routerInfos := [(IdentHash.zero, 0)]

theorem accounts_oneUnreachable : Accounts exampleSave oneUnreachable := by
  refine (accounts_iff (by decide) (by decide)).mpr ⟨?_, ?_⟩
  · intro seen r hreaches _
    obtain rfl : seen = [] := List.eq_nil_of_length_eq_zero (Nat.lt_one_iff.mp hreaches.length_lt)
    show (expires exampleSave (UInt64.ofNat (left exampleSave oneUnreachable []))
      { contents := { isUnreachable := true } }).2 = false
    decide +kernel
  · refine .inr ⟨?_, 0, ?_, ?_⟩ <;> decide +kernel

/-- A database with 76 routers that have not been updated since 1970. -/
def manyExpired : NetDb where
  routers r := { identity := { identHash := exampleIdent (UInt8.ofNat r) } }
  routerInfos := (List.range 76).map fun r => (exampleIdent (UInt8.ofNat r), r)

/-- After the first one `total` is 74, and the other 75 are kept. -/
theorem not_accounts_manyExpired : ∃ (env : SaveEnv) (db : NetDb),
    (db.routerInfos.map Prod.snd).Nodup ∧ db.routerInfos.length < 2 ^ 64 ∧
      (saveRouters env db.startSave [0]).1.total = 74 ∧ foundUnreachable env db.startSave [0] = [0] ∧
      (db.saveUpdated env).1.routerInfos.length = 75 ∧ ¬ Accounts env db := by
  refine ⟨exampleSave, manyExpired, by decide +kernel, by decide +kernel, by decide +kernel, by decide +kernel,
    by decide +kernel, ?_⟩
  intro h
  have hseen := h.total_eq [0] (by decide +kernel)
  revert hseen
  decide +kernel

end NetDb

end Router
