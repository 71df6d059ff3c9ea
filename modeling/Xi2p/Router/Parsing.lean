import Xi2p.Router.RouterInfo

/-!
# Parsing router infos

`ParseRouterInfo` is a program that reads from a stream and writes to members. What holds of its
steps and is kept by sequencing holds of it: `ParseRules` says so for the parts without loops, and the
two loops over key pairs are treated for each property.

* `parseRouterInfo_fst`: the members do not decide how parsing ends.
* `terminates`: parsing ends if no block size is above `65022`.
-/

namespace Router

open Bytes I2NP Identity

namespace ParseM

variable {α β : Type}

/-- A step, and the rest with its result unless it throws. -/
theorem bind_apply (x : ParseM α) (f : α → ParseM β) (p : StringStream × Contents) :
    (x >>= f) p =
      match x p with
      | (.ok a, p') => f a p'
      | (.error e, p') => (.error e, p') := by
  show ExceptT.bindCont f (x p).1 (x p).2 = _
  cases hp : x p with
  | mk r p' => cases r <;> rfl

end ParseM

open ParseM

/-! ## Parts without loops -/

/-- A property of parsers that sequencing keeps. -/
structure ParseRules (P : ∀ {α : Type}, ParseM α → Prop) : Prop where
  pure : ∀ {α : Type} (a : α), P (pure a : ParseM α)
  bind : ∀ {α β : Type} {x : ParseM α} {f : α → ParseM β}, P x → (∀ a, P (f a)) → P (x >>= f)
  throw : ∀ {α : Type} {e : Failure}, e ≠ .hangs → P (throw e : ParseM α)
  write : ∀ f, P (write f)
  uninitialised : ∀ n, P (stream (StringStream.uninitialised n))

namespace ParseRules

variable {P : ∀ {α : Type}, ParseM α → Prop} (h : ParseRules @P)

include h

theorem orThrow {α : Type} {e : Failure} (he : e ≠ .hangs) (a : Option α) : P (orThrow e a) := by
  cases a with
  | none => exact h.throw he
  | some a => exact h.pure a

theorem copyKey (decoded : List UInt8) : P (copyKey decoded) :=
  h.bind (h.uninitialised _) fun _ => h.pure _

theorem parseHost (env : ParseEnv) (st : AddressState) (value : List UInt8) :
    P (parseHost env st value) := by
  unfold Router.parseHost
  dsimp only
  split
  · exact h.bind (h.write _) fun _ => h.pure _
  · split
    · exact h.bind (h.write _) fun _ => h.pure _
    · exact h.pure _

theorem parseIntroducer (env : ParseEnv) (st : AddressState) (key value : List UInt8) :
    P (parseIntroducer env st key value) := by
  have hcast : Failure.badLexicalCast ≠ .hangs := by decide
  have hbase64 : Failure.badBase64 ≠ .hangs := by decide
  unfold Router.parseIntroducer
  dsimp only
  -- host, port, tag and key
  split
  · split
    · exact h.pure _
    · exact h.pure _
  split
  · exact h.bind (h.orThrow hcast _) fun _ => h.pure _
  split
  · exact h.bind (h.orThrow hcast _) fun _ => h.pure _
  split
  · exact h.bind (h.orThrow hbase64 _) fun _ => h.bind (h.copyKey _) fun _ => h.pure _
  · exact h.pure _

theorem parseAddressOption (env : ParseEnv) (st : AddressState) (key value : List UInt8) :
    P (parseAddressOption env st key value) := by
  have hcast : Failure.badLexicalCast ≠ .hangs := by decide
  unfold Router.parseAddressOption
  -- host, port, mtu, key, capabilities and introducers
  split
  · exact h.parseHost env st value
  split
  · exact h.bind (h.orThrow hcast _) fun _ => h.pure _
  split
  · exact h.bind (h.orThrow hcast _) fun _ => h.pure _
  split
  · exact h.bind (h.copyKey _) fun _ => h.pure _
  split
  · exact h.bind (h.write _) fun _ => h.pure _
  split
  · exact h.parseIntroducer env st key value
  · exact h.pure _

end ParseRules

/-! ## Members -/

/-- What a computation returns, and what it leaves to be read, does not depend on the members. -/
def ParseM.Blind {α : Type} (x : ParseM α) : Prop :=
  ∀ s c c', (x (s, c)).1 = (x (s, c')).1 ∧ (x (s, c)).2.1 = (x (s, c')).2.1

namespace ParseM

variable {α β : Type}

theorem blind_throw (e : Failure) : Blind (throw e : ParseM α) := fun _ _ _ => ⟨rfl, rfl⟩

theorem blind_stream (read : StateM StringStream α) : Blind (stream read) := fun _ _ _ => ⟨rfl, rfl⟩

theorem Blind.bind {x : ParseM α} {f : α → ParseM β} (hx : Blind x) (hf : ∀ a, Blind (f a)) :
    Blind (x >>= f) := by
  intro s c c'
  obtain ⟨hresult, hstream⟩ := hx s c c'
  rw [bind_apply, bind_apply]
  cases hp : x (s, c) with
  | mk r p =>
    cases hp' : x (s, c') with
    | mk r' p' =>
      rw [hp, hp'] at hresult hstream
      dsimp only at hresult hstream
      subst hresult
      cases r with
      | error e => exact ⟨rfl, hstream⟩
      | ok a =>
        obtain ⟨s₁, c₁⟩ := p
        obtain ⟨s₂, c₂⟩ := p'
        dsimp only at hstream
        subst hstream
        exact hf a s₁ c₁ c₂

theorem parseRules_blind : ParseRules @Blind where
  pure _ _ _ _ := ⟨rfl, rfl⟩
  bind := Blind.bind
  throw _ _ _ _ := ⟨rfl, rfl⟩
  write _ _ _ _ := ⟨rfl, rfl⟩
  uninitialised _ := blind_stream _

end ParseM

theorem blind_parseAddressOptions (env : ParseEnv) (givenSize : UInt16) (fuel : ℕ)
    (remainingSize : UInt16) (st : AddressState) :
    Blind (parseAddressOptions env givenSize fuel remainingSize st) := by
  induction fuel generalizing remainingSize st with
  | zero => exact blind_throw _
  | succ fuel ih =>
    unfold parseAddressOptions
    split
    · exact (blind_stream _).bind fun _ =>
        (parseRules_blind.parseAddressOption _ _ _ _).bind fun _ => ih _ _
    · exact parseRules_blind.pure _

theorem blind_parseAddresses (env : ParseEnv) (fuel n : ℕ) (givenSize : UInt16)
    (hasIntroducers : Bool) : Blind (parseAddresses env fuel n givenSize hasIntroducers) := by
  induction n generalizing givenSize hasIntroducers with
  | zero => exact parseRules_blind.pure _
  | succ n ih =>
    unfold parseAddresses
    refine (blind_stream _).bind fun _ => (blind_stream _).bind fun _ => (blind_stream _).bind
      fun _ => (blind_stream _).bind fun _ => (blind_parseAddressOptions _ _ _ _ _).bind fun _ => ?_
    split
    · exact (parseRules_blind.write _).bind fun _ => ih _ _
    · exact ih _ _

theorem blind_parseOptions (givenSize : UInt16) (fuel : ℕ) (remainingSize : UInt16) :
    Blind (parseOptions givenSize fuel remainingSize) := by
  induction fuel generalizing remainingSize with
  | zero => exact blind_throw _
  | succ fuel ih =>
    unfold parseOptions
    split
    · refine (blind_stream _).bind fun _ => (parseRules_blind.write _).bind fun _ => ?_
      split
      · exact (parseRules_blind.write _).bind fun _ => ih _
      · exact ih _
    · exact parseRules_blind.pure _

theorem blind_parseMembers (env : ParseEnv) (fuel : ℕ) : Blind (parseMembers env fuel) := by
  unfold parseMembers
  exact (blind_stream _).bind fun _ => (blind_stream _).bind fun _ =>
    (blind_parseAddresses _ _ _ _ _).bind fun _ => (blind_stream _).bind fun _ =>
    (blind_stream _).bind fun _ => (blind_stream _).bind fun _ => (blind_stream _).bind fun _ =>
    (blind_parseOptions _ _ _).bind fun _ => parseRules_blind.write _

theorem readOver_snd {old old' : List UInt8} (h : old.length = old'.length) (s : StringStream) :
    (StringStream.readOver old s).2 = (StringStream.readOver old' s).2 := by
  unfold StringStream.readOver
  rw [h]
  split <;> rfl

/-- Only the timestamp is read before it is written, and it does not decide how the parsing ends. -/
theorem parseRouterInfo_fst (env : ParseEnv) (fuel : ℕ) (s : StringStream) (c c' : Contents) :
    (parseRouterInfo env fuel (s, c)).1 = (parseRouterInfo env fuel (s, c')).1 := by
  have hsplit (c : Contents) : parseRouterInfo env fuel (s, c) =
      parseMembers env fuel ((StringStream.readBig64 c.timestamp s).2,
        { c with timestamp := (StringStream.readBig64 c.timestamp s).1 }) := rfl
  have hread : (StringStream.readBig64 c.timestamp s).2 =
      (StringStream.readBig64 c'.timestamp s).2 :=
    readOver_snd (by simp) s
  rw [hsplit, hsplit, hread]
  exact (blind_parseMembers env fuel _ _ _).1

/-! ## Termination -/

/-- The largest block size that the sum of the sizes of key pairs cannot jump over: a pair has at most
`514` bytes, and the sum has 16 bits. -/
abbrev maxBlockSize : ℕ := 65022

namespace StringStream

variable {α β : Type}

/-- A read of something else than a block size. -/
def Quiet (read : StateM StringStream α) : Prop := ∀ s, (read s).2.blockSizes = s.blockSizes

theorem Quiet.bind {x : StateM StringStream α} {f : α → StateM StringStream β} (hx : Quiet x)
    (hf : ∀ a, Quiet (f a)) : Quiet (x >>= f) := fun s => (hf _ _).trans (hx s)

theorem quiet_pure (a : α) : Quiet (pure a) := fun _ => rfl

theorem quiet_readOver (old : List UInt8) : Quiet (readOver old) := by
  intro s
  unfold readOver
  split <;> rfl

theorem quiet_uninitialised (n : ℕ) : Quiet (uninitialised n) := fun _ => rfl

theorem quiet_seekg (n : ℕ) : Quiet (seekg n) := by
  intro s
  unfold seekg
  split
  · rfl
  · split <;> rfl

theorem quiet_readU8 (old : UInt8) : Quiet (readU8 old) :=
  (quiet_readOver _).bind fun _ => quiet_pure _

theorem quiet_readNative64 (old : UInt64) : Quiet (readNative64 old) :=
  (quiet_readOver _).bind fun _ => quiet_pure _

theorem quiet_readStringFromByte : Quiet readStringFromByte :=
  (quiet_uninitialised _).bind fun _ => (quiet_readU8 _).bind fun _ =>
    (quiet_uninitialised _).bind fun _ => quiet_readOver _

theorem quiet_readKeyPair : Quiet readKeyPair :=
  quiet_readStringFromByte.bind fun _ => (quiet_seekg _).bind fun _ =>
    quiet_readStringFromByte.bind fun _ => (quiet_seekg _).bind fun _ => quiet_pure _

theorem length_readOver (old : List UInt8) (s : StringStream) :
    (readOver old s).1.length = old.length := by
  unfold readOver
  split
  · rfl
  · simp

theorem length_readStringFromByte_le (s : StringStream) :
    (readStringFromByte s).1.length ≤ 255 := by
  have hlength (len : UInt8) (s : StringStream) :
      ((uninitialised len.toNat >>= fun buf => readOver buf) s).1.length = len.toNat := by
    show (readOver _ _).1.length = _
    rw [length_readOver]
    simp
  refine (hlength _ _).trans_le ?_
  exact Nat.le_of_lt_succ (UInt8.toNat_lt _)

/-- The sizes of key pairs. -/
theorem readSize_readKeyPair (s : StringStream) :
    4 ≤ (readKeyPair s).1.2.2.toNat ∧ (readKeyPair s).1.2.2.toNat ≤ 514 := by
  have hsize (key value : List UInt8) (hkey : key.length ≤ 255) (hvalue : value.length ≤ 255) :
      4 ≤ (UInt16.ofNat (key.length + 2 + value.length + 2)).toNat ∧
        (UInt16.ofNat (key.length + 2 + value.length + 2)).toNat ≤ 514 := by
    rw [UInt16.toNat_ofNat']
    omega
  exact hsize _ _ (length_readStringFromByte_le _) (length_readStringFromByte_le _)

end StringStream

open StringStream

/-- No block size is forgotten, and under the condition `p` the computation ends, if all block sizes
are small. -/
def ParseM.Tame (p : Prop) {α : Type} (x : ParseM α) : Prop :=
  ∀ s c, s.blockSizes ⊆ (x (s, c)).2.1.blockSizes ∧
    (p → (∀ g ∈ (x (s, c)).2.1.blockSizes, g.toNat ≤ maxBlockSize) →
      (x (s, c)).1 ≠ .error .hangs)

namespace ParseM

variable {α β : Type} {p q : Prop}

theorem Tame.mono {x : ParseM α} (h : Tame p x) (hqp : q → p) : Tame q x :=
  fun s c => ⟨(h s c).1, fun hq => (h s c).2 (hqp hq)⟩

/-- The rest needs to be tame only for results that can occur. -/
theorem Tame.bind_of {x : ParseM α} {f : α → ParseM β} {R : α → Prop} (hx : Tame p x)
    (hR : ∀ s c a p', x (s, c) = (.ok a, p') → R a) (hf : ∀ a, R a → Tame p (f a)) :
    Tame p (x >>= f) := by
  intro s c
  obtain ⟨hgrows, hends⟩ := hx s c
  rw [bind_apply]
  cases hp : x (s, c) with
  | mk r st =>
    rw [hp] at hgrows hends
    cases r with
    | error e =>
      refine ⟨hgrows, fun hp hsmall h => hends hp hsmall ?_⟩
      exact congrArg Except.error (Except.error.inj h)
    | ok a =>
      obtain ⟨s₁, c₁⟩ := st
      obtain ⟨hgrows₁, hends₁⟩ := hf a (hR s c a _ hp) s₁ c₁
      exact ⟨List.Subset.trans hgrows hgrows₁, hends₁⟩

theorem Tame.bind {x : ParseM α} {f : α → ParseM β} (hx : Tame p x) (hf : ∀ a, Tame p (f a)) :
    Tame p (x >>= f) :=
  hx.bind_of (fun _ _ _ _ _ => trivial) fun a _ => hf a

theorem tame_stream {read : StateM StringStream α} (h : Quiet read) : Tame p (stream read) :=
  fun s _ => ⟨fun _ hg => (h s).symm ▸ hg, fun _ _ => fun h => by cases h⟩

theorem parseRules_tame (p : Prop) : ParseRules (@Tame p) where
  pure _ _ _ := ⟨fun _ h => h, fun _ _ => fun h => by cases h⟩
  bind := Tame.bind
  throw he _ _ := ⟨fun _ h => h, fun _ _ => fun h => he (Except.error.inj h)⟩
  write _ _ _ := ⟨fun _ h => h, fun _ _ => fun h => by cases h⟩
  uninitialised n := tame_stream (quiet_uninitialised n)

/-- Running out of fuel. -/
theorem tame_hangs (hp : ¬ p) : Tame p (throw .hangs : ParseM α) :=
  fun _ _ => ⟨fun _ h => h, fun h => absurd h hp⟩

theorem tame_readKeyPair_bind {f : List UInt8 × List UInt8 × UInt16 → ParseM β}
    (hf : ∀ pair, 4 ≤ pair.2.2.toNat ∧ pair.2.2.toNat ≤ 514 → Tame p (f pair)) :
    Tame p (stream readKeyPair >>= f) := by
  refine (tame_stream quiet_readKeyPair).bind_of (fun s c pair st h => ?_) hf
  have hpair : (readKeyPair s).1 = pair := Except.ok.inj (congrArg Prod.fst h)
  exact hpair ▸ readSize_readKeyPair s

/-- What follows a block size may depend on its being small. -/
theorem tame_readBlockSize_bind {old : UInt16} {f : UInt16 → ParseM β}
    (hf : ∀ g : UInt16, Tame (g.toNat ≤ maxBlockSize) (f g)) :
    Tame True (stream (readBlockSize old) >>= f) := by
  intro s c
  rw [bind_apply]
  generalize hread : readBlockSize old s = read
  obtain ⟨g, s₁⟩ := read
  have hsizes : s₁.blockSizes = s.blockSizes ++ [g] := by
    have hquiet := quiet_readOver (writeU16 old).reverse s
    have hg : g = (readBlockSize old s).1 := by rw [hread]
    have hs₁ : s₁ = (readBlockSize old s).2 := by rw [hread]
    rw [hs₁, hg]
    exact congrArg (· ++ [_]) hquiet
  obtain ⟨hgrows, hends⟩ := hf g s₁ c
  rw [hsizes] at hgrows
  simp only [stream, hread]
  refine ⟨List.Subset.trans (List.subset_append_left _ _) hgrows, fun _ hsmall => hends ?_ hsmall⟩
  exact hsmall g (hgrows (List.mem_append_right _ (List.mem_singleton_self g)))

end ParseM

/-- Each key pair brings the sum closer to the size of the block, since it does not wrap. -/
def RoundsLeft (givenSize remainingSize : UInt16) (fuel : ℕ) : Prop :=
  givenSize.toNat ≤ maxBlockSize ∧ 0 < fuel ∧
    givenSize.toNat + 4 ≤ remainingSize.toNat + 4 * fuel

theorem RoundsLeft.next {givenSize remainingSize readSize : UInt16} {fuel : ℕ}
    (h : RoundsLeft givenSize remainingSize (fuel + 1)) (hlt : remainingSize < givenSize)
    (hsize : 4 ≤ readSize.toNat ∧ readSize.toNat ≤ 514) :
    RoundsLeft givenSize (remainingSize + readSize) fuel := by
  obtain ⟨hmax, -, hrounds⟩ := h
  have hlt := UInt16.lt_iff_toNat_lt.mp hlt
  simp only [maxBlockSize] at hmax
  unfold RoundsLeft
  rw [UInt16.toNat_add]
  simp only [maxBlockSize]
  omega

theorem tame_parseAddressOptions (env : ParseEnv) (givenSize : UInt16) (fuel : ℕ)
    (remainingSize : UInt16) (st : AddressState) :
    Tame (RoundsLeft givenSize remainingSize fuel)
      (parseAddressOptions env givenSize fuel remainingSize st) := by
  induction fuel generalizing remainingSize st with
  | zero => exact tame_hangs fun h => absurd h.2.1 (Nat.lt_irrefl 0)
  | succ fuel ih =>
    unfold parseAddressOptions
    split
    next hlt =>
      refine tame_readKeyPair_bind fun pair hsize => ?_
      refine Tame.bind ((parseRules_tame _).parseAddressOption _ _ _ _) fun _ => ?_
      exact (ih _ _).mono fun h : RoundsLeft _ _ (fuel + 1) => h.next hlt hsize
    · exact (parseRules_tame _).pure _

theorem tame_parseOptions (givenSize : UInt16) (fuel : ℕ) (remainingSize : UInt16) :
    Tame (RoundsLeft givenSize remainingSize fuel) (parseOptions givenSize fuel remainingSize) := by
  induction fuel generalizing remainingSize with
  | zero => exact tame_hangs fun h => absurd h.2.1 (Nat.lt_irrefl 0)
  | succ fuel ih =>
    unfold parseOptions
    split
    next hlt =>
      refine tame_readKeyPair_bind fun pair hsize => ?_
      have hnext : Tame (RoundsLeft givenSize remainingSize (fuel + 1))
          (parseOptions givenSize fuel (remainingSize + pair.2.2)) :=
        (ih _).mono fun h => h.next hlt hsize
      refine Tame.bind ((parseRules_tame _).write _) fun _ => ?_
      split
      · exact Tame.bind ((parseRules_tame _).write _) fun _ => hnext
      · exact hnext
    · exact (parseRules_tame _).pure _

/-- Enough rounds for a block whose size cannot be jumped over. -/
abbrev maxRounds : ℕ := 16257

theorem roundsLeft_zero {givenSize : UInt16} (h : givenSize.toNat ≤ maxBlockSize) :
    RoundsLeft givenSize 0 maxRounds := by
  have hzero : (0 : UInt16).toNat = 0 := rfl
  unfold RoundsLeft
  rw [hzero]
  simp only [maxBlockSize, maxRounds] at h ⊢
  omega

theorem tame_parseAddresses (env : ParseEnv) (n : ℕ) (givenSize : UInt16) (hasIntroducers : Bool) :
    Tame True (parseAddresses env maxRounds n givenSize hasIntroducers) := by
  induction n generalizing givenSize hasIntroducers with
  | zero => exact (parseRules_tame _).pure _
  | succ n ih =>
    unfold parseAddresses
    refine (tame_stream (quiet_readU8 _)).bind fun _ => (tame_stream (quiet_readNative64 _)).bind
      fun _ => (tame_stream quiet_readStringFromByte).bind fun _ => ?_
    refine tame_readBlockSize_bind fun g => ?_
    refine Tame.bind ((tame_parseAddressOptions _ _ _ _ _).mono roundsLeft_zero) fun _ => ?_
    split
    · exact Tame.bind ((parseRules_tame _).write _) fun _ => (ih _ _).mono fun _ => trivial
    · exact (ih _ _).mono fun _ => trivial

theorem tame_parseMembers (env : ParseEnv) : Tame True (parseMembers env maxRounds) := by
  unfold parseMembers
  refine (tame_stream (quiet_uninitialised _)).bind fun _ => (tame_stream (quiet_readU8 _)).bind
    fun _ => (tame_parseAddresses _ _ _ _).bind fun _ => (tame_stream (quiet_uninitialised _)).bind
    fun _ => (tame_stream (quiet_readU8 _)).bind fun _ => (tame_stream (quiet_seekg _)).bind
    fun _ => ?_
  refine tame_readBlockSize_bind fun g => ?_
  exact ((tame_parseOptions _ _ _).mono roundsLeft_zero).bind fun _ => (parseRules_tame _).write _

/-- Parsing ends, whatever the memory holds. -/
def Terminates (env : ParseEnv) (bytes : List UInt8) : Prop :=
  ∀ junk contents, ∃ fuel,
    (parseRouterInfo env fuel ({ rest := bytes, junk }, contents)).1 ≠ .error .hangs

/-- All block sizes that are read are small, whatever the memory holds. -/
def BlockSizesFit (env : ParseEnv) (bytes : List UInt8) : Prop :=
  ∀ junk contents fuel,
    ∀ g ∈ (parseRouterInfo env fuel ({ rest := bytes, junk }, contents)).2.1.blockSizes,
      g.toNat ≤ maxBlockSize

theorem parseRouterInfo_eq (env : ParseEnv) (fuel : ℕ) (s : StringStream) (c : Contents) :
    parseRouterInfo env fuel (s, c) =
      parseMembers env fuel ((readBig64 c.timestamp s).2,
        { c with timestamp := (readBig64 c.timestamp s).1 }) := rfl

theorem terminates_of_blockSizesFit {env : ParseEnv} {bytes : List UInt8}
    (h : BlockSizesFit env bytes) : Terminates env bytes := by
  intro junk contents
  refine ⟨maxRounds, ?_⟩
  have hsmall := h junk contents maxRounds
  rw [parseRouterInfo_eq] at hsmall ⊢
  exact (tame_parseMembers env _ _).2 trivial hsmall

/-! ## Larger block sizes -/

/-- A router info without addresses and peers that announces options and ends there. -/
def announcedOptions (givenSize : UInt16) : List UInt8 :=
  List.replicate 8 0 ++ [0, 0] ++ writeU16 givenSize

/-- Memory in which the lengths of key pairs are `254` and `0` once and then `255` and `255` for `127`
times, so that their sizes add up to `65536`. -/
def wrappingJunk (i : ℕ) : UInt8 :=
  if i % 65280 = 0 then 254 else if i % 65280 = 255 then 0 else 255

/-- Where the lengths of a key pair stand, and the sum of the sizes before it. -/
def pairStart : ℕ → ℕ × ℕ
  | 0 => (0, 0)
  | j + 1 => (256 + 512 * j, 258 + 514 * j)

theorem ParseM.stream_bind {α β : Type} (read : StateM StringStream α) (f : α → ParseM β)
    (s : StringStream) (c : Contents) :
    (stream read >>= f) (s, c) = f (read s).1 ((read s).2, c) := rfl

namespace StringStream

/-- Bytes that are there are read. -/
theorem readOver_append {s : StringStream} {old bytes rest : List UInt8} (hfailed : s.failed = false)
    (hrest : s.rest = bytes ++ rest) (hlen : bytes.length = old.length) :
    readOver old s = (bytes, { s with rest }) := by
  have hdrop : old.drop bytes.length = [] := List.drop_eq_nil_of_le hlen.ge
  unfold readOver
  rw [hfailed, hrest, ← hlen]
  simp [hdrop]

theorem readOver_of_rest {s : StringStream} (h : s.rest = []) (old : List UInt8) :
    (readOver old s).1 = old ∧ (readOver old s).2.rest = [] ∧ (readOver old s).2.junk = s.junk := by
  unfold readOver
  split
  · exact ⟨rfl, h, rfl⟩
  · rw [h]
    simp

theorem seekg_of_rest {s : StringStream} (h : s.rest = []) (n : ℕ) :
    (seekg n s).2.rest = [] ∧ (seekg n s).2.junk = s.junk := by
  unfold seekg
  split
  · exact ⟨h, rfl⟩
  · split
    · exact ⟨by rw [h]; exact List.drop_nil, rfl⟩
    · exact ⟨h, rfl⟩

/-- At the end of the stream the length of a string is what the memory holds. -/
theorem readStringFromByte_of_rest {s : StringStream} (h : s.rest = []) :
    (readStringFromByte s).1.length = (s.junk 0).toNat ∧ (readStringFromByte s).2.rest = [] ∧
      (readStringFromByte s).2.junk = fun i => s.junk (i + ((s.junk 0).toNat + 1)) := by
  let s₁ : StringStream := { s with junk := fun i => s.junk (i + 1) }
  have heq : readStringFromByte s =
      let (bytes, s₂) := readOver [s.junk 0] s₁
      readOver ((List.range (bytes.headD 0).toNat).map s₂.junk)
        { s₂ with junk := fun i => s₂.junk (i + (bytes.headD 0).toNat) } := rfl
  obtain ⟨hbytes, hrest, hjunk⟩ := readOver_of_rest (s := s₁) h [s.junk 0]
  generalize readOver [s.junk 0] s₁ = read at heq hbytes hrest hjunk
  obtain ⟨bytes, s₂⟩ := read
  dsimp only at heq hbytes hrest hjunk
  subst hbytes
  generalize hs₃ : ({ s₂ with junk := fun i => s₂.junk (i + (s.junk 0).toNat) } : StringStream) = s₃
  have hrest₃ : s₃.rest = [] := by
    rw [← hs₃]
    exact hrest
  obtain ⟨hstring, hrest', hjunk'⟩ :=
    readOver_of_rest hrest₃ ((List.range (s.junk 0).toNat).map s₂.junk)
  have heq : readStringFromByte s = readOver ((List.range (s.junk 0).toNat).map s₂.junk) s₃ := by
    rw [heq, ← hs₃]
    rfl
  rw [heq, hstring, hrest', hjunk']
  refine ⟨by simp, rfl, ?_⟩
  rw [← hs₃]
  dsimp only
  rw [hjunk]
  rfl

/-- At the end of the stream the size of a key pair is what the memory holds. -/
theorem readKeyPair_of_rest {s : StringStream} {k v : ℕ} (h : s.rest = [])
    (hk : (s.junk 0).toNat = k) (hv : (s.junk (k + 1)).toNat = v) :
    (readKeyPair s).1.2.2 = UInt16.ofNat (k + v + 4) ∧ (readKeyPair s).2.rest = [] ∧
      (readKeyPair s).2.junk = fun i => s.junk (i + (k + v + 2)) := by
  obtain ⟨hkey, hrest₁, hjunk₁⟩ := readStringFromByte_of_rest h
  obtain ⟨hrest₂, hjunk₂⟩ := seekg_of_rest hrest₁ 1
  obtain ⟨hvalue, hrest₃, hjunk₃⟩ := readStringFromByte_of_rest hrest₂
  obtain ⟨hrest₄, hjunk₄⟩ := seekg_of_rest hrest₃ 1
  have hfirst : ((seekg 1 (readStringFromByte s).2).2.junk 0).toNat = v := by
    rw [hjunk₂, hjunk₁, hk]
    dsimp only
    rw [Nat.zero_add]
    exact hv
  rw [hfirst] at hvalue hjunk₃
  refine ⟨?_, hrest₄, ?_⟩
  · show UInt16.ofNat ((readStringFromByte s).1.length + 2 +
      (readStringFromByte (seekg 1 (readStringFromByte s).2).2).1.length + 2) = _
    rw [hkey, hvalue, hk]
    exact congrArg UInt16.ofNat (by omega)
  · refine hjunk₄.trans (hjunk₃.trans ?_)
    funext i
    rw [hjunk₂, hjunk₁, hk]
    exact congrArg s.junk (by omega)

end StringStream

/-- The next key pair of `127` and one. -/
theorem wrappingJunk_pair {j : ℕ} (hj : j ≤ 127) :
    ∃ k v, (wrappingJunk (pairStart j).1).toNat = k ∧
      (wrappingJunk (k + 1 + (pairStart j).1)).toNat = v ∧
      (pairStart (j + 1)).1 = (pairStart j).1 + (k + v + 2) ∧
      (pairStart (j + 1)).2 = (pairStart j).2 + (k + v + 4) := by
  cases j with
  | zero => exact ⟨254, 0, by decide, by decide, rfl, rfl⟩
  | succ j =>
    have hjunk {i : ℕ} (hlo : 255 < i) (hhi : i < 65280) : wrappingJunk i = 255 := by
      unfold wrappingJunk
      rw [Nat.mod_eq_of_lt hhi, if_neg (by omega), if_neg (by omega)]
    have hstart : (pairStart (j + 1)).1 = 256 + 512 * j := rfl
    refine ⟨255, 255, ?_, ?_, ?_, ?_⟩
    · rw [hstart, hjunk (by omega) (by omega)]
      rfl
    · rw [hstart, hjunk (by omega) (by omega)]
      rfl
    · simp only [pairStart]
      omega
    · simp only [pairStart]
      omega

/-- One round of the loop over options. -/
theorem parseOptions_succ {givenSize remainingSize : UInt16} (hlt : remainingSize < givenSize)
    (fuel : ℕ) (s : StringStream) (c : Contents) :
    ∃ c', parseOptions givenSize (fuel + 1) remainingSize (s, c) =
      parseOptions givenSize fuel (remainingSize + (readKeyPair s).1.2.2)
        ((readKeyPair s).2, c') := by
  rw [parseOptions, if_pos hlt]
  by_cases hcaps : (readKeyPair s).1.1 = trait "caps"
  · refine ⟨((c.setOption (readKeyPair s).1.1 (readKeyPair s).1.2.1).setCaps
      (readKeyPair s).1.2.1), ?_⟩
    simp only [bind_apply, stream, write, if_pos hcaps]
  · refine ⟨c.setOption (readKeyPair s).1.1 (readKeyPair s).1.2.1, ?_⟩
    simp only [bind_apply, stream, write, if_neg hcaps]

theorem pairStart_snd_le {j : ℕ} (hj : j ≤ 127) : (pairStart j).2 ≤ maxBlockSize := by
  cases j with
  | zero => exact Nat.zero_le _
  | succ j =>
    simp only [pairStart, maxBlockSize]
    omega

theorem wrappingJunk_add (i : ℕ) : wrappingJunk (i + 65280) = wrappingJunk i := by
  unfold wrappingJunk
  rw [Nat.add_mod_right]

/-- The sum of the sizes is never in the range from the block size up to `65535`. -/
theorem parseOptions_hangs {givenSize : UInt16} (hsize : maxBlockSize < givenSize.toNat) (fuel : ℕ)
    {j : ℕ} (hj : j ≤ 127) {s : StringStream} (c : Contents) (hrest : s.rest = [])
    (hjunk : s.junk = fun i => wrappingJunk (i + (pairStart j).1)) :
    (parseOptions givenSize fuel (UInt16.ofNat (pairStart j).2) (s, c)).1 = .error .hangs := by
  induction fuel generalizing j s c with
  | zero => rfl
  | succ fuel ih =>
    obtain ⟨k, v, hk, hv, hstart, hsum⟩ := wrappingJunk_pair hj
    have hle := pairStart_snd_le hj
    have hlt : UInt16.ofNat (pairStart j).2 < givenSize := by
      rw [UInt16.lt_iff_toNat_lt, UInt16.toNat_ofNat']
      exact (Nat.mod_le _ _).trans_lt (hle.trans_lt hsize)
    have hpair : (readKeyPair s).1.2.2 = UInt16.ofNat (k + v + 4) ∧ (readKeyPair s).2.rest = [] ∧
        (readKeyPair s).2.junk = fun i => s.junk (i + (k + v + 2)) := by
      refine readKeyPair_of_rest hrest ?_ ?_
      · rw [hjunk]
        dsimp only
        rw [Nat.zero_add]
        exact hk
      · rw [hjunk]
        exact hv
    obtain ⟨hread, hrest', hjunk'⟩ := hpair
    obtain ⟨c', heq⟩ := parseOptions_succ hlt fuel s c
    have hnext : (readKeyPair s).2.junk = fun i => wrappingJunk (i + (pairStart (j + 1)).1) := by
      rw [hjunk', hjunk, hstart]
      funext i
      exact congrArg wrappingJunk (by omega)
    rw [heq, hread, ← UInt16.ofNat_add, ← hsum]
    by_cases hlast : j = 127
    · -- the sum is back at zero
      subst hlast
      have hzero : UInt16.ofNat (pairStart 128).2 = UInt16.ofNat (pairStart 0).2 := by decide
      rw [hzero]
      refine ih (Nat.zero_le _) c' hrest' ?_
      rw [hnext]
      funext i
      exact wrappingJunk_add i
    · exact ih (by omega) c' hrest' hnext

theorem bind_of_error {α β : Type} {x : ParseM α} {f : α → ParseM β} {e : Failure}
    {p : StringStream × Contents} (h : (x p).1 = .error e) : ((x >>= f) p).1 = .error e := by
  rw [bind_apply]
  generalize x p = result at h
  obtain ⟨result, p'⟩ := result
  dsimp only at h
  subst h
  rfl

/-- The stream when the loop over options starts. -/
def announcedEnd (junk : ℕ → UInt8) (givenSize : UInt16) : StringStream where
  rest := []
  junk i := junk (i + 1 + 1)
  blockSizes := [givenSize]

/-- Only the loop over options remains, at the end of the stream. -/
theorem parseRouterInfo_announcedOptions (env : ParseEnv) (fuel : ℕ) (junk : ℕ → UInt8)
    (givenSize : UInt16) (c : Contents) :
    ∃ f c', parseRouterInfo env fuel ({ rest := announcedOptions givenSize, junk }, c) =
      (parseOptions givenSize fuel 0 >>= fun _ => write f) (announcedEnd junk givenSize, c') := by
  let s (rest : List UInt8) (junk : ℕ → UInt8) : StringStream := { rest, junk }
  let junk₂ i := junk (i + 1 + 1)
  have htime : (readBig64 c.timestamp (s (announcedOptions givenSize) junk)).2 =
      s (0 :: 0 :: writeU16 givenSize) junk := by
    have hread : readOver (writeBE 8 c.timestamp.toNat).reverse
        (s (announcedOptions givenSize) junk) =
          (List.replicate 8 0, s (0 :: 0 :: writeU16 givenSize) junk) :=
      readOver_append rfl (List.append_assoc _ _ _) (by simp)
    exact congrArg Prod.snd hread
  have hjunk (rest : List UInt8) (junk : ℕ → UInt8) :
      uninitialised 1 (s rest junk) = ([junk 0], s rest fun i => junk (i + 1)) := rfl
  have hbyte (old : UInt8) (rest : List UInt8) (junk : ℕ → UInt8) :
      readU8 old (s (0 :: rest) junk) = (0, s rest junk) := rfl
  have hnone : parseAddresses env fuel (UInt8.toNat 0) 0 false = pure (0, false) := rfl
  have hseek (junk : ℕ → UInt8) : seekg (UInt8.toNat 0 * 32) (s (writeU16 givenSize) junk) =
    ((), s (writeU16 givenSize) junk) := rfl
  have hsize : readBlockSize 0 (s (writeU16 givenSize) junk₂) =
      (givenSize, announcedEnd junk givenSize) := by
    have hread : readOver (writeU16 0).reverse (s (writeU16 givenSize) junk₂) =
        (writeU16 givenSize, s [] junk₂) :=
      readOver_append rfl (List.append_nil _).symm (by simp)
    have hblock : readBlockSize 0 (s (writeU16 givenSize) junk₂) =
        let (bytes, s) := readOver (writeU16 0).reverse (s (writeU16 givenSize) junk₂)
        (readU16 bytes, { s with blockSizes := s.blockSizes ++ [readU16 bytes] }) := rfl
    rw [hblock, hread]
    dsimp only
    rw [readU16_writeU16]
    rfl
  rw [parseRouterInfo_eq, htime]
  unfold parseMembers
  rw [stream_bind, stream_bind, hjunk, hbyte, hnone, pure_bind]
  dsimp only
  rw [stream_bind, stream_bind, hjunk, hbyte, stream_bind, stream_bind, hseek, hsize]
  exact ⟨_, _, rfl⟩

/-- The options are never read to their end. -/
theorem hangs_announcedOptions (env : ParseEnv) {givenSize : UInt16}
    (hsize : maxBlockSize < givenSize.toNat) : ¬ Terminates env (announcedOptions givenSize) := by
  intro h
  obtain ⟨fuel, hends⟩ := h (fun i => wrappingJunk (i - 2)) {}
  obtain ⟨f, c, heq⟩ := parseRouterInfo_announcedOptions env fuel (fun i => wrappingJunk (i - 2))
    givenSize {}
  refine hends ?_
  rw [heq]
  exact bind_of_error (parseOptions_hangs hsize fuel (Nat.zero_le _) c rfl rfl)

/-- Functions for which no text is a host, a number or a key. -/
def noTextEnv : ParseEnv where
  fromString _ := .error true
  lexicalCast16 _ := none
  lexicalCast32 _ := none
  base64Decode _ := none

end Router
