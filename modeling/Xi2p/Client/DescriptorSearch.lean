import Xi2p.Client.Archive

/-!
# The search for a data descriptor

`ZIP::FindDataDescriptor` compares byte by byte and starts again behind a byte that does not match. A
byte that ends a partial match is not looked at again, so that the first byte of the signature is missed
there.

* `partialMatches`: how many partial matches stand back to back at the end of some bytes.
* `scanFrom_eq_zero_iff`: the search is in the middle of a match if their number is odd.
* `findsFirst_iff`: when the first signature is found.
-/

namespace Client

open Bytes InputStream

/-- The signature stands in front of the byte with the number, and not before. -/
def IsFirstDescriptor (bs : List UInt8) (i : ℕ) : Prop :=
  descriptorSignature <+: bs.drop i ∧ ∀ j < i, ¬ descriptorSignature <+: bs.drop j

/-- The partial matches that stand back to back at the end; the bytes are given from the end on. -/
def partialMatchesFromEnd : List UInt8 → ℕ
  | [] => 0
  | b :: bs =>
    if b = 0x50 then partialMatchesFromEnd bs + 1
    else
      match bs with
      | [] => 0
      | c :: bs =>
        if b = 0x4b ∧ c = 0x50 then partialMatchesFromEnd bs + 1
        else
          match bs with
          | [] => 0
          | d :: bs =>
            if b = 0x07 ∧ c = 0x4b ∧ d = 0x50 then partialMatchesFromEnd bs + 1 else 0

/-- The number of partial matches that stand back to back at the end. -/
def partialMatches (bs : List UInt8) : ℕ := partialMatchesFromEnd bs.reverse

/-! ## Partial matches -/

theorem partialMatchesFromEnd_cons (b : UInt8) (bs : List UInt8) :
    partialMatchesFromEnd (b :: bs) =
      if b = 0x50 then partialMatchesFromEnd bs + 1
      else
        match bs with
        | [] => 0
        | c :: bs =>
          if b = 0x4b ∧ c = 0x50 then partialMatchesFromEnd bs + 1
          else
            match bs with
            | [] => 0
            | d :: bs =>
              if b = 0x07 ∧ c = 0x4b ∧ d = 0x50 then partialMatchesFromEnd bs + 1 else 0 := by
  rw [partialMatchesFromEnd.eq_def]

/-- A part of the signature that is not all of it. -/
def IsPart (part : List UInt8) : Prop :=
  part = [0x50] ∨ part = [0x50, 0x4b] ∨ part = [0x50, 0x4b, 0x07]

theorem partialMatches_append {part : List UInt8} (h : IsPart part) (bs : List UInt8) :
    partialMatches (bs ++ part) = partialMatches bs + 1 := by
  rw [partialMatches, partialMatches, List.reverse_append]
  rcases h with rfl | rfl | rfl
  · show partialMatchesFromEnd (0x50 :: bs.reverse) = _
    rw [partialMatchesFromEnd_cons, if_pos rfl]
  · show partialMatchesFromEnd (0x4b :: 0x50 :: bs.reverse) = _
    rw [partialMatchesFromEnd_cons, if_neg (by decide)]
    exact if_pos ⟨rfl, rfl⟩
  · show partialMatchesFromEnd (0x07 :: 0x4b :: 0x50 :: bs.reverse) = _
    rw [partialMatchesFromEnd_cons, if_neg (by decide)]
    exact (if_neg (by decide)).trans (if_pos ⟨rfl, rfl, rfl⟩)

/-- Bytes that no partial match ends. -/
theorem partialMatches_eq_zero {bs : List UInt8} (h : ∀ part, IsPart part → ¬ part <:+ bs) :
    partialMatches bs = 0 := by
  rw [partialMatches]
  have hend {part : List UInt8} (hpart : IsPart part) : ¬ part.reverse <+: bs.reverse :=
    fun hprefix => h part hpart (List.reverse_prefix.mp hprefix)
  have hone := hend (.inl rfl)
  have htwo := hend (.inr (.inl rfl))
  have hthree := hend (.inr (.inr rfl))
  clear h hend
  revert hone htwo hthree
  rcases bs.reverse with _ | ⟨b, _ | ⟨c, _ | ⟨d, rest⟩⟩⟩ <;> intro hone htwo hthree
  · rfl
  · have hb : b ≠ 0x50 := by simpa [eq_comm] using hone
    rw [partialMatchesFromEnd_cons, if_neg hb]
  · have hb : b ≠ 0x50 := by simpa [eq_comm] using hone
    have hc : ¬ (b = 0x4b ∧ c = 0x50) := by simpa [eq_comm] using htwo
    rw [partialMatchesFromEnd_cons, if_neg hb]
    exact if_neg hc
  · have hb : b ≠ 0x50 := by simpa [eq_comm] using hone
    have hc : ¬ (b = 0x4b ∧ c = 0x50) := by simpa [eq_comm] using htwo
    have hd : ¬ (b = 0x07 ∧ c = 0x4b ∧ d = 0x50) := by simpa [eq_comm] using hthree
    rw [partialMatchesFromEnd_cons, if_neg hb]
    exact (if_neg hc).trans (if_neg hd)

/-! ## What the search remembers -/

/-- One byte of the search. -/
theorem scanFrom_singleton (nextInd : ℕ) (b : UInt8) :
    scanFrom nextInd [b] = if b = descriptorSignature.getD nextInd 0 then
      if 4 ≤ nextInd + 1 then none else some (nextInd + 1) else some 0 := rfl

/-- The bytes are scanned one part after the other. -/
theorem scanFrom_append_eq_bind (nextInd : ℕ) (xs ys : List UInt8) :
    scanFrom nextInd (xs ++ ys) = (scanFrom nextInd xs).bind fun nextInd' => scanFrom nextInd' ys := by
  cases h : scanFrom nextInd xs with
  | some nextInd' => exact scanFrom_append h ys
  | none =>
    induction xs generalizing nextInd with
    | nil => cases h
    | cons x xs ih =>
      rw [scanFrom] at h
      rw [List.cons_append, scanFrom]
      split
      next hmatch =>
        rw [if_pos hmatch] at h
        split
        · rfl
        next hmore =>
          rw [if_neg hmore] at h
          exact ih _ h
      next hmiss =>
        rw [if_neg hmiss] at h
        exact ih _ h

/-- What is remembered is the part of the signature that stands at the end. -/
theorem exists_part_of_scanFrom {bs : List UInt8} {nextInd : ℕ}
    (h : scanFrom 0 bs = some (nextInd + 1)) :
    nextInd < 3 ∧ ∃ front, bs = front ++ descriptorSignature.take (nextInd + 1) ∧
      scanFrom 0 front = some 0 := by
  induction bs using List.reverseRecOn generalizing nextInd with
  | nil => cases h
  | append_singleton bs b ih =>
    rw [scanFrom_append_eq_bind, Option.bind_eq_some_iff] at h
    obtain ⟨before, hbefore, hlast⟩ := h
    rw [scanFrom_singleton] at hlast
    split at hlast
    next hmatch =>
      split at hlast
      · cases hlast
      next hmore =>
        obtain rfl : before = nextInd := Nat.succ.inj (Option.some.inj hlast)
        refine ⟨by omega, ?_⟩
        rcases Nat.eq_zero_or_pos before with rfl | hpos
        · exact ⟨bs, by rw [hmatch]; rfl, hbefore⟩
        · obtain ⟨n, rfl⟩ := Nat.exists_eq_add_of_lt hpos
          rw [Nat.zero_add] at hbefore hmatch hmore ⊢
          obtain ⟨hlt, front, hbs, hfront⟩ := ih hbefore
          refine ⟨front, ?_, hfront⟩
          rw [hbs, hmatch, List.append_assoc]
          congr 1
          rcases n with _ | _ | _ | n
          · rfl
          · rfl
          · rfl
          · omega
    · cases hlast

/-- What is remembered is a part of the signature. -/
theorem isPart_take {nextInd : ℕ} (h : nextInd < 3) :
    IsPart (descriptorSignature.take (nextInd + 1)) := by
  rcases nextInd with _ | _ | _ | n
  · exact .inl rfl
  · exact .inr (.inl rfl)
  · exact .inr (.inr rfl)
  · omega

/-- If nothing is remembered, a part is remembered afterwards. -/
theorem scanFrom_part {part : List UInt8} (h : IsPart part) : scanFrom 0 part = some part.length := by
  rcases h with rfl | rfl | rfl <;> decide

/-- If something is remembered, a part is missed. -/
theorem scanFrom_part_of_lt {part : List UInt8} (h : IsPart part) {nextInd : ℕ} (hlt : nextInd < 3) :
    scanFrom (nextInd + 1) part = some 0 := by
  rcases nextInd with _ | _ | _ | n
  · rcases h with rfl | rfl | rfl <;> decide
  · rcases h with rfl | rfl | rfl <;> decide
  · rcases h with rfl | rfl | rfl <;> decide
  · omega

/-- Nothing is remembered behind an even number of partial matches. -/
theorem scanFrom_eq_zero_iff {bs : List UInt8} {nextInd : ℕ} (h : scanFrom 0 bs = some nextInd) :
    nextInd = 0 ↔ Even (partialMatches bs) := by
  -- induction on the number of bytes: a part is taken off the end
  induction hlen : bs.length using Nat.strong_induction_on generalizing bs nextInd with
  | _ n ih =>
    by_cases hends : ∃ part, IsPart part ∧ part <:+ bs
    · obtain ⟨part, hpart, front, rfl⟩ := hends
      have hpos : 0 < part.length := by rcases hpart with rfl | rfl | rfl <;> decide
      rw [scanFrom_append_eq_bind, Option.bind_eq_some_iff] at h
      obtain ⟨before, hbefore, hlast⟩ := h
      rw [List.length_append] at hlen
      have hiff := ih front.length (by omega) hbefore rfl
      rw [partialMatches_append hpart, Nat.even_add_one, ← hiff]
      rcases before with _ | before
      · rw [scanFrom_part hpart] at hlast
        rw [← Option.some.inj hlast]
        exact iff_of_false hpos.ne' fun hne => hne rfl
      · rw [scanFrom_part_of_lt hpart (exists_part_of_scanFrom hbefore).1] at hlast
        exact iff_of_true (Option.some.inj hlast).symm (Nat.succ_ne_zero before)
    · rw [partialMatches_eq_zero fun part hpart hsuffix => hends ⟨part, hpart, hsuffix⟩]
      refine iff_of_true ?_ Even.zero
      rcases nextInd with _ | nextInd
      · rfl
      · obtain ⟨hlt, front, hbs, -⟩ := exists_part_of_scanFrom h
        exact absurd ⟨_, isPart_take hlt, front, hbs.symm⟩ hends

/-- The signature stands where it is found. -/
theorem exists_prefix_of_scanFrom {bs : List UInt8} (h : scanFrom 0 bs = none) :
    ∃ i, descriptorSignature <+: bs.drop i := by
  induction bs using List.reverseRecOn with
  | nil => cases h
  | append_singleton bs b ih =>
    rw [scanFrom_append_eq_bind] at h
    cases hbefore : scanFrom 0 bs with
    | none =>
      obtain ⟨i, hi⟩ := ih hbefore
      exact ⟨i, hi.trans ((List.prefix_append bs [b]).drop i)⟩
    | some nextInd =>
      rw [hbefore, Option.bind_some, scanFrom_singleton] at h
      split at h
      next hmatch =>
        split at h
        next hlast =>
          obtain ⟨before, rfl⟩ := Nat.exists_eq_add_of_le' (show 1 ≤ nextInd by omega)
          obtain ⟨hlt, front, rfl, -⟩ := exists_part_of_scanFrom hbefore
          obtain rfl : before = 2 := by omega
          refine ⟨front.length, ?_⟩
          rw [hmatch, List.append_assoc, List.drop_left]
          exact List.prefix_rfl
        · cases h
      · cases h

/-! ## The first signature -/

theorem IsFirstDescriptor.unique {bs : List UInt8} {i j : ℕ} (hi : IsFirstDescriptor bs i)
    (hj : IsFirstDescriptor bs j) : i = j :=
  Nat.le_antisymm (Nat.not_lt.mp fun hlt => hi.2 j hlt hj.1)
    (Nat.not_lt.mp fun hlt => hj.2 i hlt hi.1)

theorem exists_isFirstDescriptor {bs : List UInt8} (h : ∃ i, descriptorSignature <+: bs.drop i) :
    ∃ i, IsFirstDescriptor bs i :=
  ⟨Nat.find h, Nat.find_spec h, fun _ => Nat.find_min h⟩

/-- The bytes in front of the first signature are scanned to their end. -/
theorem IsFirstDescriptor.exists_scanFrom {bs : List UInt8} {i : ℕ} (h : IsFirstDescriptor bs i) :
    ∃ nextInd, scanFrom 0 (bs.take i) = some nextInd := by
  cases hscan : scanFrom 0 (bs.take i) with
  | some nextInd => exact ⟨nextInd, rfl⟩
  | none =>
    obtain ⟨j, hj⟩ := exists_prefix_of_scanFrom hscan
    have hlen := hj.length_le
    rw [List.length_drop, List.length_take] at hlen
    have hfour : descriptorSignature.length = 4 := rfl
    refine absurd (hj.trans ?_) (h.2 j (by omega))
    exact (List.take_prefix i bs).drop j

namespace ZIP

variable {env : ZIPEnv}

/-- One round of the search. -/
theorem findDataDescriptor_succ (fuel nextInd : ℕ) (s : InputStream) :
    findDataDescriptor env (fuel + 1) nextInd s =
      if s.eof then some (false, s)
      else if (InputStream.read 1 s).1.headD env.nextByte = descriptorSignature.getD nextInd 0 then
        if 4 ≤ nextInd + 1 then some (true, (InputStream.read 1 s).2)
        else findDataDescriptor env fuel (nextInd + 1) (InputStream.read 1 s).2
      else findDataDescriptor env fuel 0 (InputStream.read 1 s).2 := rfl

/-- A search that has ended is not changed by more fuel. -/
theorem findDataDescriptor_mono {fuel nextInd : ℕ} {s : InputStream} {result : Bool × InputStream}
    (h : findDataDescriptor env fuel nextInd s = some result) (more : ℕ) :
    findDataDescriptor env (fuel + more) nextInd s = some result := by
  induction fuel generalizing nextInd s with
  | zero => cases h
  | succ fuel ih =>
    rw [Nat.add_right_comm, findDataDescriptor_succ]
    rw [findDataDescriptor_succ] at h
    split
    next heof => rwa [if_pos heof] at h
    next heof =>
      rw [if_neg heof] at h
      split
      next hmatch =>
        rw [if_pos hmatch] at h
        split
        next hlast => rwa [if_pos hlast] at h
        next hmore =>
          rw [if_neg hmore] at h
          exact ih h
      next hmiss =>
        rw [if_neg hmiss] at h
        exact ih h

/-- Reading a byte moves on, or it fails. -/
theorem read_one (s : InputStream) :
    s.pos ≤ (InputStream.read 1 s).2.pos ∧
      (s.pos < (InputStream.read 1 s).2.pos ∨ (InputStream.read 1 s).2.fail = true) := by
  unfold InputStream.read
  split
  · dsimp only
    refine ⟨Nat.le_add_right .., ?_⟩
    by_cases hshort : (s.rest.take 1).length < 1
    · exact .inr (decide_eq_true hshort)
    · exact .inl (by omega)
  · exact ⟨le_rfl, .inr rfl⟩

/-- The signature is found further on, unless the stream has failed. -/
theorem lt_pos_of_findDataDescriptor {fuel nextInd : ℕ} {s s' : InputStream}
    (h : findDataDescriptor env fuel nextInd s = some (true, s')) : s.pos < s'.pos ∨ s'.fail = true := by
  induction fuel generalizing nextInd s with
  | zero => cases h
  | succ fuel ih =>
    obtain ⟨hle, hprogress⟩ := read_one s
    rw [findDataDescriptor_succ] at h
    split at h
    · cases h
    · split at h
      · split at h
        · obtain ⟨-, rfl⟩ := Prod.mk.inj (Option.some.inj h)
          exact hprogress
        · exact (ih h).imp_left hle.trans_lt
      · exact (ih h).imp_left hle.trans_lt

/-- At the end of the stream, the byte that is not read is compared. -/
theorem findDataDescriptor_at_end (env : ZIPEnv) {s : InputStream} (h : s.Holds []) (fuel : ℕ) {nextInd : ℕ}
    (hlt : nextInd ≤ 3) :
    ∃ s', findDataDescriptor env (fuel + 2) nextInd s =
      some (decide (nextInd = 3 ∧ env.nextByte = 0x08), s') := by
  have hread : InputStream.read 1 s = ([], { s with eof := true, fail := true }) := by
    unfold InputStream.read
    rw [if_pos h.good, h.rest]
    rfl
  refine ⟨{ s with eof := true, fail := true }, ?_⟩
  rw [findDataDescriptor_succ, h.eof, if_neg Bool.false_ne_true, hread]
  dsimp only
  rw [List.headD_nil]
  have hstop (n : ℕ) : findDataDescriptor env (fuel + 1) n { s with eof := true, fail := true } =
      some (false, { s with eof := true, fail := true }) := by
    rw [findDataDescriptor_succ]
    exact if_pos rfl
  rw [hstop, hstop]
  by_cases hlast : nextInd = 3
  · subst hlast
    rw [if_pos (show 4 ≤ 3 + 1 by decide)]
    show (if env.nextByte = 0x08 then _ else _) = _
    split
    next hbyte => rw [decide_eq_true ⟨rfl, hbyte⟩]
    next hbyte => rw [decide_eq_false fun hand => hbyte hand.2]
  · rw [if_neg (show ¬ 4 ≤ nextInd + 1 by omega), ite_self,
      decide_eq_false fun hand => hlast hand.1]

/-! ## When it is right -/

variable (env)

/-- `FindDataDescriptor` says whether there is a signature, and leaves the stream behind the first one. -/
def FindsFirst (s : InputStream) : Prop :=
  ∃ fuel found s', findDataDescriptor env fuel 0 s = some (found, s') ∧
    (found = true ↔ ∃ i, descriptorSignature <+: s.rest.drop i) ∧
      ∀ i, IsFirstDescriptor s.rest i → s' = s.skip (i + 4)

variable {env}

/-- There is a signature. -/
theorem findsFirst_of_isFirst {s : InputStream} (h : s.Holds s.rest) {i : ℕ}
    (hfirst : IsFirstDescriptor s.rest i) :
    FindsFirst env s ↔ Even (partialMatches (s.rest.take i)) := by
  obtain ⟨nextInd, hscan⟩ := hfirst.exists_scanFrom
  obtain ⟨behind, hbehind⟩ := hfirst.1
  have hlen : (s.rest.take i).length = i := by
    have hle := hfirst.1.length_le
    rw [List.length_drop] at hle
    have hfour : descriptorSignature.length = 4 := rfl
    rw [List.length_take]
    omega
  have hholds : s.Holds (s.rest.take i ++ descriptorSignature ++ behind) := by
    rw [List.append_assoc, hbehind, List.take_append_drop]
    exact h
  rw [← scanFrom_eq_zero_iff hscan]
  constructor
  · rintro ⟨fuel, found, s', hfind, hfound, hskip⟩
    obtain rfl := hskip i hfirst
    rw [hfound.mpr ⟨i, hfirst.1⟩] at hfind
    by_contra hne
    obtain ⟨before, rfl⟩ := Nat.exists_eq_succ_of_ne_zero hne
    have hlt := (exists_part_of_scanFrom hscan).1
    -- the search starts again behind the signature
    have hmiss : scanFrom (before + 1) descriptorSignature = some 0 := by
      rcases before with _ | _ | _ | n
      · decide
      · decide
      · decide
      · omega
    have hall : scanFrom 0 (s.rest.take i ++ descriptorSignature) = some 0 :=
      (scanFrom_append hscan _).trans hmiss
    have hrun := findDataDescriptor_of_scanFrom env fuel hall hholds
    rw [findDataDescriptor_mono hfind, List.length_append, hlen] at hrun
    have hpast := lt_pos_of_findDataDescriptor hrun.symm
    rcases hpast with hpos | hfail
    · exact absurd hpos (lt_irrefl _)
    · exact absurd (h.fail.symm.trans hfail) Bool.false_ne_true
  · rintro rfl
    have hfind := findDataDescriptor_spec env 0 hscan hholds
    rw [hlen] at hfind
    refine ⟨0 + (i + 4), true, s.skip (i + 4), hfind, iff_of_true rfl ⟨i, hfirst.1⟩, fun j hj => ?_⟩
    rw [hj.unique hfirst]

/-- There is no signature. -/
theorem findsFirst_of_forall_not {s : InputStream} (h : s.Holds s.rest)
    (hnone : ∀ i, ¬ descriptorSignature <+: s.rest.drop i) :
    FindsFirst env s ↔ ([0x50, 0x4b, 0x07] <:+ s.rest → env.nextByte = 0x08 →
      Even (partialMatches s.rest)) := by
  obtain ⟨nextInd, hscan⟩ : ∃ nextInd, scanFrom 0 s.rest = some nextInd := by
    cases hscan : scanFrom 0 s.rest with
    | some nextInd => exact ⟨nextInd, rfl⟩
    | none =>
      obtain ⟨i, hi⟩ := exists_prefix_of_scanFrom hscan
      exact absurd hi (hnone i)
  have hle : nextInd ≤ 3 := by
    rcases nextInd with _ | before
    · omega
    · have hlt := (exists_part_of_scanFrom hscan).1
      omega
  have hthree : nextInd = 3 ↔ [0x50, 0x4b, 0x07] <:+ s.rest ∧ ¬ Even (partialMatches s.rest) := by
    rw [← scanFrom_eq_zero_iff hscan]
    constructor
    · rintro rfl
      obtain ⟨-, front, hrest, -⟩ := exists_part_of_scanFrom hscan
      exact ⟨⟨front, hrest.symm⟩, by decide⟩
    · rintro ⟨⟨front, hrest⟩, hne⟩
      have hpart : IsPart [0x50, 0x4b, 0x07] := .inr (.inr rfl)
      rw [← hrest, scanFrom_append_eq_bind, Option.bind_eq_some_iff] at hscan
      obtain ⟨before, hbefore, hlast⟩ := hscan
      rcases before with _ | before
      · rw [scanFrom_part hpart] at hlast
        exact (Option.some.inj hlast).symm
      · rw [scanFrom_part_of_lt hpart (exists_part_of_scanFrom hbefore).1] at hlast
        exact absurd (Option.some.inj hlast).symm hne
  have hholds : s.Holds (s.rest ++ []) := by rwa [List.append_nil]
  obtain ⟨t, hend⟩ := findDataDescriptor_at_end env hholds.skip 0 hle
  have hrun := findDataDescriptor_of_scanFrom env (0 + 2) hscan hholds
  rw [hend] at hrun
  have hnot : ¬ ∃ i, descriptorSignature <+: s.rest.drop i := not_exists.mpr hnone
  have hiff : FindsFirst env s ↔ ¬ (nextInd = 3 ∧ env.nextByte = 0x08) := by
    constructor
    · rintro ⟨fuel, found, s', hfind, hfound, -⟩ hboth
      have hmore := findDataDescriptor_mono hfind (0 + 2 + s.rest.length)
      rw [Nat.add_comm, findDataDescriptor_mono hrun] at hmore
      have hsame := (Prod.mk.inj (Option.some.inj hmore)).1
      rw [decide_eq_true hboth] at hsame
      exact hnot (hfound.mp hsame.symm)
    · intro hneither
      refine ⟨0 + 2 + s.rest.length, false, t, ?_, iff_of_false Bool.false_ne_true hnot,
        fun i hi => absurd hi.1 (hnone i)⟩
      rw [hrun, decide_eq_false hneither]
  rw [hiff, hthree]
  tauto

/-- `FindDataDescriptor` is right if and only if an even number of partial matches stands in front of the
first signature, and, where there is none, what is left in memory does not complete a part of it. -/
theorem findsFirst_iff (bytes : List UInt8) {pos : ℕ} (hpos : pos ≤ bytes.length) :
    FindsFirst env { bytes, pos } ↔
      (∀ i, IsFirstDescriptor (bytes.drop pos) i →
        Even (partialMatches ((bytes.drop pos).take i))) ∧
      ((∀ i, ¬ descriptorSignature <+: (bytes.drop pos).drop i) →
        [0x50, 0x4b, 0x07] <:+ bytes.drop pos → env.nextByte = 0x08 →
          Even (partialMatches (bytes.drop pos))) := by
  have h : InputStream.Holds { bytes, pos } (bytes.drop pos) := ⟨rfl, hpos, rfl⟩
  by_cases hsome : ∃ i, descriptorSignature <+: (bytes.drop pos).drop i
  · obtain ⟨i, hi⟩ := exists_isFirstDescriptor hsome
    rw [findsFirst_of_isFirst h hi]
    constructor
    · intro heven
      refine ⟨fun j hj => ?_, fun hnone => absurd hi.1 (hnone i)⟩
      rw [hj.unique hi]
      exact heven
    · intro hboth
      exact hboth.1 i hi
  · rw [not_exists] at hsome
    rw [findsFirst_of_forall_not h hsome]
    exact ⟨fun hend => ⟨fun i hi => absurd hi.1 (hsome i), fun _ => hend⟩, fun hboth => hboth.2 hsome⟩

/-- A byte, a signature and a byte. -/
theorem findsFirst_plain :
    FindsFirst Archive.exampleZIPEnv { bytes := [1, 0x50, 0x4b, 0x07, 0x08, 2], pos := 0 } := by
  have hfirst : IsFirstDescriptor [1, 0x50, 0x4b, 0x07, 0x08, 2] 1 :=
    ⟨by decide, fun j hj => by
      obtain rfl : j = 0 := by omega
      decide⟩
  refine (findsFirst_iff _ (Nat.zero_le _)).mpr ⟨fun i hi => ?_, fun hnone => ?_⟩
  · rw [show (i : ℕ) = 1 from hi.unique hfirst]
    decide
  · exact absurd hfirst.1 (hnone 1)

/-- A signature directly behind its own first byte is missed. -/
theorem not_findsFirst_partialMatch :
    ¬ FindsFirst Archive.exampleZIPEnv { bytes := [0x50, 0x50, 0x4b, 0x07, 0x08], pos := 0 } := by
  rintro ⟨fuel, found, s', hfind, hfound, -⟩
  have hrun : findDataDescriptor Archive.exampleZIPEnv 7 0 { bytes := [0x50, 0x50, 0x4b, 0x07, 0x08], pos := 0 } =
      some (false, { bytes := [0x50, 0x50, 0x4b, 0x07, 0x08], pos := 5, eof := true, fail := true }) := by
    decide
  have hmore := findDataDescriptor_mono hfind 7
  rw [Nat.add_comm, findDataDescriptor_mono hrun] at hmore
  have hsame := (Prod.mk.inj (Option.some.inj hmore)).1
  rw [← hsame] at hfound
  exact Bool.false_ne_true (hfound.mpr ⟨1, by decide⟩)

end ZIP

end Client
