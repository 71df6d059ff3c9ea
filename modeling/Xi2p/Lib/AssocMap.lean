import Xi2p.Lib.KeyedSet

/-!
# Ordered maps

A `std::map`: a list of keys and values in increasing order of the keys, which are compared through a
number that determines them.
-/

namespace AssocMap

variable {κ α : Type} [DecidableEq κ]

/-- `find`. -/
def find (m : List (κ × α)) (k : κ) : Option α := (m.find? (·.1 = k)).map Prod.snd

/-- `erase`. -/
def erase (m : List (κ × α)) (k : κ) : List (κ × α) := m.filter (·.1 ≠ k)

/-- `m[k] = a`. -/
def assign (key : κ → ℕ) (m : List (κ × α)) (k : κ) (a : α) : List (κ × α) :=
  KeyedSet.insert (fun e => key e.1) (k, a) (erase m k)

/-- `insert`: a key that is present keeps its value. -/
def insert (key : κ → ℕ) (m : List (κ × α)) (k : κ) (a : α) : List (κ × α) :=
  if (find m k).isSome then m else assign key m k a

/-- No key occurs twice. -/
def Distinct (m : List (κ × α)) : Prop := (m.map Prod.fst).Nodup

variable {key : κ → ℕ} {m : List (κ × α)} {k : κ} {a : α}

theorem mem_of_find (h : find m k = some a) : (k, a) ∈ m := by
  obtain ⟨e, he, rfl⟩ := Option.map_eq_some_iff.mp h
  have hk : e.1 = k := by simpa using List.find?_some he
  exact hk ▸ List.mem_of_find?_eq_some he

theorem find_eq_none_iff : find m k = none ↔ ∀ a, (k, a) ∉ m := by
  unfold find
  rw [Option.map_eq_none_iff, List.find?_eq_none]
  constructor
  · intro h a hmem
    exact h _ hmem (decide_eq_true rfl)
  · rintro h ⟨k', a⟩ hmem hk
    obtain rfl : k' = k := of_decide_eq_true hk
    exact h a hmem

theorem mem_erase_iff {e : κ × α} : e ∈ erase m k ↔ e ∈ m ∧ e.1 ≠ k := by
  simp [erase]

theorem assign_perm (hkey : Function.Injective key) (m : List (κ × α)) (k : κ) (a : α) :
    (assign key m k a).Perm ((k, a) :: erase m k) := by
  refine KeyedSet.insert_perm fun hmem => ?_
  obtain ⟨e, he, heq⟩ := List.mem_map.mp hmem
  exact (mem_erase_iff.mp he).2 (hkey heq)

theorem mem_assign_iff (hkey : Function.Injective key) {e : κ × α} :
    e ∈ assign key m k a ↔ e = (k, a) ∨ e ∈ m ∧ e.1 ≠ k := by
  rw [(assign_perm hkey m k a).mem_iff, List.mem_cons, mem_erase_iff]

theorem mem_insert (hkey : Function.Injective key) {e : κ × α} (h : e ∈ insert key m k a) :
    e = (k, a) ∨ e ∈ m := by
  unfold insert at h
  split at h
  · exact .inr h
  · exact ((mem_assign_iff hkey).mp h).imp_right And.left

/-- An entry of a map is found under its key. -/
theorem Distinct.find_eq_some (h : Distinct m) (hmem : (k, a) ∈ m) : find m k = some a := by
  cases hfind : find m k with
  | none => exact absurd hmem (find_eq_none_iff.mp hfind a)
  | some b =>
    have heq := List.inj_on_of_nodup_map h (mem_of_find hfind) hmem rfl
    exact congrArg some (Prod.mk.inj heq).2

/-- An entry and what is left when it is erased. -/
theorem Distinct.perm_cons_erase (h : Distinct m) (hfind : find m k = some a) :
    m.Perm ((k, a) :: erase m k) := by
  induction m with
  | nil => cases hfind
  | cons e m ih =>
    obtain ⟨hnotMem, hdistinct⟩ := List.nodup_cons.mp h
    by_cases hk : e.1 = k
    · have ha : e.2 = a := by simpa [find, hk] using hfind
      have hrest : erase m k = m := List.filter_eq_self.mpr fun e' he' => by
        refine decide_eq_true fun hk' => hnotMem ?_
        exact List.mem_map.mpr ⟨e', he', hk'.trans hk.symm⟩
      have herase : erase (e :: m) k = m := by
        rw [← hrest]
        simp [erase, hk]
      rw [herase, ← hk, ← ha]
    · have hfind' : find m k = some a := by simpa [find, hk] using hfind
      have herase : erase (e :: m) k = e :: erase m k := by simp [erase, hk]
      rw [herase]
      exact ((ih hdistinct hfind').cons e).trans (List.Perm.swap _ _ _)

omit [DecidableEq κ] in
theorem Distinct.filter (h : Distinct m) (keep : κ × α → Bool) : Distinct (m.filter keep) :=
  h.sublist (List.filter_sublist.map Prod.fst)

theorem Distinct.assign (hkey : Function.Injective key) (h : Distinct m) (k : κ) (a : α) :
    Distinct (assign key m k a) := by
  refine ((assign_perm hkey m k a).map Prod.fst).nodup_iff.mpr (List.nodup_cons.mpr ⟨?_, h.filter _⟩)
  intro hmem
  obtain ⟨e, he, heq⟩ := List.mem_map.mp hmem
  exact (mem_erase_iff.mp he).2 heq

theorem Distinct.insert (hkey : Function.Injective key) (h : Distinct m) (k : κ) (a : α) :
    Distinct (insert key m k a) := by
  unfold AssocMap.insert
  split
  · exact h
  · exact h.assign hkey k a

/-- The values are those of other keys and the new one. -/
theorem nodup_snd_assign (hkey : Function.Injective key) (h : (m.map Prod.snd).Nodup)
    (ha : ∀ e ∈ m, e.2 ≠ a) : ((assign key m k a).map Prod.snd).Nodup := by
  refine ((assign_perm hkey m k a).map Prod.snd).nodup_iff.mpr (List.nodup_cons.mpr ⟨?_, ?_⟩)
  · intro hmem
    obtain ⟨e, he, heq⟩ := List.mem_map.mp hmem
    exact ha e (mem_erase_iff.mp he).1 heq
  · exact h.sublist (List.filter_sublist.map Prod.snd)

/-- After `m[k] = a`, `a` is found under `k` and other keys have what they had. -/
theorem find_assign (hkey : Function.Injective key) (h : Distinct m) (k : κ) (a : α) (k' : κ) :
    find (AssocMap.assign key m k a) k' = if k' = k then some a else find m k' := by
  have hdistinct := h.assign hkey k a
  split
  next heq =>
    subst heq
    exact hdistinct.find_eq_some ((mem_assign_iff hkey).mpr (.inl rfl))
  next hne =>
    cases hfind : find m k' with
    | some b =>
      exact hdistinct.find_eq_some ((mem_assign_iff hkey).mpr (.inr ⟨mem_of_find hfind, hne⟩))
    | none =>
      refine find_eq_none_iff.mpr fun b hmem => ?_
      obtain heq | ⟨hold, -⟩ := (mem_assign_iff hkey).mp hmem
      · exact hne (Prod.mk.inj heq).1
      · exact find_eq_none_iff.mp hfind b hold

/-- After `erase`, nothing is found under `k` and other keys have what they had. -/
theorem find_erase (m : List (κ × α)) (k k' : κ) :
    find (erase m k) k' = if k' = k then none else find m k' := by
  split
  next heq =>
    subst heq
    exact find_eq_none_iff.mpr fun a hmem => (mem_erase_iff.mp hmem).2 rfl
  next hne =>
    unfold find erase
    rw [List.find?_filter]
    refine congrArg (Option.map Prod.snd) (congrArg (List.find? · m) (funext fun e => ?_))
    by_cases he : e.1 = k'
    · simp [he, hne]
    · simp [he]

end AssocMap
