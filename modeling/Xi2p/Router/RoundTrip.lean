import Xi2p.Router.Writing

/-!
# Reading back router infos

What `ParseRouterInfo` makes of the bytes that `CreateRouterInfo` wrote behind the identity. Reading is
followed along the bytes: `Reads` for the stream, `Parses` for the parts that also write to members,
and `Steps` for the loop over the options of an address.

* `parseContents_written`: the members that are read back.
* `readsBack_iff`: they are those that were written if no address has an introducer.
-/

namespace Router

open Bytes I2NP Identity

/-! ## Reading along bytes -/

namespace StringStream

variable {α β : Type}

/-- The stream has not failed and holds the bytes. -/
structure Holds (s : StringStream) (bytes : List UInt8) : Prop where
  failed : s.failed = false
  rest : s.rest = bytes

/-- Reading takes the bytes and gives the value. -/
def Reads (read : StateM StringStream α) (bytes : List UInt8) (a : α) : Prop :=
  ∀ (s : StringStream) (rest : List UInt8), s.Holds (bytes ++ rest) →
    (read s).1 = a ∧ (read s).2.Holds rest

theorem reads_pure (a : α) : Reads (pure a) [] a := fun _ _ h => ⟨rfl, h⟩

theorem Reads.bind {x : StateM StringStream α} {f : α → StateM StringStream β}
    {bytes bytes' : List UInt8} {a : α} {b : β} (hx : Reads x bytes a) (hf : Reads (f a) bytes' b) :
    Reads (x >>= f) (bytes ++ bytes') b := by
  intro s rest h
  rw [List.append_assoc] at h
  obtain ⟨hvalue, hrest⟩ := hx s _ h
  show (f (x s).1 (x s).2).1 = b ∧ (f (x s).1 (x s).2).2.Holds rest
  rw [hvalue]
  exact hf _ _ hrest

/-- What stands in a variable before it is read does not matter. -/
theorem reads_uninitialised_bind {n : ℕ} {f : List UInt8 → StateM StringStream β}
    {bytes : List UInt8} {b : β} (hf : ∀ old : List UInt8, old.length = n → Reads (f old) bytes b) :
    Reads (uninitialised n >>= f) bytes b := by
  intro s rest h
  exact hf ((List.range n).map s.junk) (by simp) _ rest ⟨h.failed, h.rest⟩

theorem reads_readOver {old bytes : List UInt8} (hlen : bytes.length = old.length) :
    Reads (readOver old) bytes bytes := by
  intro s rest h
  rw [readOver_append h.failed h.rest hlen]
  exact ⟨rfl, h.failed, rfl⟩

theorem reads_seekg (bytes : List UInt8) : Reads (seekg bytes.length) bytes () := by
  intro s rest h
  have hlen : bytes.length ≤ s.rest.length := by simp [h.rest]
  have hseekg : seekg bytes.length s = ((), { s with rest := s.rest.drop bytes.length }) := by
    rw [seekg, h.failed, if_pos hlen]
    rfl
  rw [hseekg]
  exact ⟨rfl, h.failed, by simp [h.rest]⟩

theorem reads_readU8 (old b : UInt8) : Reads (readU8 old) [b] b := by
  have hread : Reads (readOver [old]) [b] [b] := reads_readOver rfl
  exact hread.bind (f := fun bs => pure (bs.headD 0)) (reads_pure b)

theorem ofNat_readBE_writeBE (v : UInt64) : UInt64.ofNat (readBE (writeBE 8 v.toNat)) = v := by
  have hlt : v.toNat < 256 ^ 8 := v.toNat_lt
  rw [readBE_writeBE, Nat.mod_eq_of_lt hlt, UInt64.ofNat_toNat]

theorem reads_readBig64 (old v : UInt64) : Reads (readBig64 old) (writeBE 8 v.toNat) v := by
  have hlen : (writeBE 8 v.toNat).length = (writeBE 8 old.toNat).reverse.length := by simp
  have h := Reads.bind (f := fun bs => pure (UInt64.ofNat (readBE bs))) (reads_readOver hlen)
    (reads_pure _)
  rwa [List.append_nil, ofNat_readBE_writeBE] at h

theorem reads_readNative64 (old v : UInt64) :
    Reads (readNative64 old) (writeBE 8 v.toNat).reverse v := by
  have hlen : (writeBE 8 v.toNat).reverse.length = (writeBE 8 old.toNat).reverse.length := by simp
  have h := Reads.bind (f := fun bs => pure (UInt64.ofNat (readBE bs.reverse)))
    (reads_readOver hlen) (reads_pure _)
  rwa [List.append_nil, List.reverse_reverse, ofNat_readBE_writeBE] at h

theorem reads_readBlockSize (old size : UInt16) :
    Reads (readBlockSize old) (writeU16 size) size := by
  intro s rest h
  have hlen : (writeU16 size).length = (writeU16 old).reverse.length := by simp
  obtain ⟨hvalue, hfailed, hrest⟩ := reads_readOver hlen s rest h
  refine ⟨?_, hfailed, hrest⟩
  show readU16 (readOver (writeU16 old).reverse s).1 = size
  rw [hvalue, readU16_writeU16]

theorem reads_readStringFromByte {string : List UInt8} (h : string.length ≤ 255) :
    Reads readStringFromByte (UInt8.ofNat string.length :: string) string := by
  refine reads_uninitialised_bind fun old _ => ?_
  have hlen : ∀ old, Reads (readU8 old) [UInt8.ofNat string.length] (UInt8.ofNat string.length) :=
    fun old => reads_readU8 old _
  refine (hlen _).bind ?_
  refine reads_uninitialised_bind fun old hold => reads_readOver ?_
  rw [hold, UInt8.toNat_ofNat', Nat.mod_eq_of_lt (by omega)]

/-- A key pair, with the number of its bytes. -/
theorem reads_readKeyPair {pair : KeyPair} (hkey : pair.1.length ≤ 255)
    (hvalue : pair.2.length ≤ 255) :
    Reads readKeyPair (keyPairBytes pair)
      (pair.1, pair.2, UInt16.ofNat (keyPairBytes pair).length) := by
  have hlen : (keyPairBytes pair).length = pair.1.length + 2 + pair.2.length + 2 := by
    simp [keyPairBytes]
    omega
  have hbytes : keyPairBytes pair = (UInt8.ofNat pair.1.length :: pair.1) ++
      ([61] ++ ((UInt8.ofNat pair.2.length :: pair.2) ++ ([59] ++ []))) := by
    simp [keyPairBytes]
  rw [hlen, hbytes]
  exact (reads_readStringFromByte hkey).bind ((reads_seekg [61]).bind
    ((reads_readStringFromByte hvalue).bind ((reads_seekg [59]).bind (reads_pure _))))

end StringStream

open StringStream ParseM

namespace ParseM

variable {α β : Type}

/-- Parsing takes the bytes, turns the members `c` into `c'` and gives the value. -/
def Parses (x : ParseM α) (c : Contents) (bytes : List UInt8) (a : α) (c' : Contents) : Prop :=
  ∀ (s : StringStream) (rest : List UInt8), s.Holds (bytes ++ rest) →
    ∃ s' : StringStream, x (s, c) = (.ok a, (s', c')) ∧ s'.Holds rest

theorem parses_pure (a : α) (c : Contents) : Parses (pure a) c [] a c := fun s _ h => ⟨s, rfl, h⟩

theorem parses_write (f : Contents → Contents) (c : Contents) : Parses (write f) c [] () (f c) :=
  fun s _ h => ⟨s, rfl, h⟩

theorem parses_stream {read : StateM StringStream α} {bytes : List UInt8} {a : α}
    (h : Reads read bytes a) (c : Contents) : Parses (stream read) c bytes a c := by
  intro s rest hs
  obtain ⟨hvalue, hrest⟩ := h s rest hs
  exact ⟨(read s).2, by rw [← hvalue]; rfl, hrest⟩

theorem Parses.bind {x : ParseM α} {f : α → ParseM β} {c c' c'' : Contents}
    {bytes bytes' : List UInt8} {a : α} {b : β} (hx : Parses x c bytes a c')
    (hf : Parses (f a) c' bytes' b c'') : Parses (x >>= f) c (bytes ++ bytes') b c'' := by
  intro s rest h
  rw [List.append_assoc] at h
  obtain ⟨s', hs', hrest⟩ := hx s _ h
  obtain ⟨s'', hs'', hrest'⟩ := hf s' _ hrest
  exact ⟨s'', by rw [bind_apply, hs']; exact hs'', hrest'⟩

/-- A step that reads nothing. -/
theorem Parses.then {x : ParseM α} {f : α → ParseM β} {c c' c'' : Contents}
    {bytes : List UInt8} {a : α} {b : β} (hx : Parses x c [] a c')
    (hf : Parses (f a) c' bytes b c'') : Parses (x >>= f) c bytes b c'' :=
  hx.bind hf

theorem parses_uninitialised_bind {n : ℕ} {f : List UInt8 → ParseM β} {c c' : Contents}
    {bytes : List UInt8} {b : β}
    (hf : ∀ old : List UInt8, old.length = n → Parses (f old) c bytes b c') :
    Parses (stream (uninitialised n) >>= f) c bytes b c' := by
  intro s rest h
  exact hf ((List.range n).map s.junk) (by simp) _ rest ⟨h.failed, h.rest⟩

theorem parses_orThrow (e : Failure) (a : α) (c : Contents) :
    Parses (orThrow e (some a)) c [] a c :=
  parses_pure a c

/-- A key of 32 bytes is copied as a whole. -/
theorem parses_copyKey {key : List UInt8} (h : key.length = 32) (c : Contents) :
    Parses (copyKey key) c [] key c := by
  refine parses_uninitialised_bind fun outside hlen => ?_
  have houtside : outside = [] := List.eq_nil_of_length_eq_zero (by omega)
  have hkey : key.take 32 ++ outside = key := by
    rw [houtside, List.append_nil, List.take_of_length_le h.le]
  rw [hkey]
  exact parses_pure key c

end ParseM

/-! ## Options of addresses -/

/-- `boost::lexical_cast` reads decimal numbers. -/
structure ParseEnv.ReadsNumbers (env : ParseEnv) : Prop where
  lexicalCast16 : ∀ n : UInt16, env.lexicalCast16 (decimal n.toNat) = some n
  lexicalCast32 : ∀ n : UInt32, env.lexicalCast32 (decimal n.toNat) = some n

/-- The text of the host is that of an IP address, and is read as this address. -/
def ParseEnv.ReadsHost (env : ParseEnv) (w : WriteEnv) (host : SSU.IPAddress) : Prop :=
  env.fromString (w.toString host) = .ok host

/-- The key has 32 bytes, and its text is read as this key. -/
def ParseEnv.ReadsKey (env : ParseEnv) (w : WriteEnv) (key : List UInt8) : Prop :=
  key.length = 32 ∧ env.base64Decode (w.base64Encode key) = some key

/-- The loop over the options of an address, on key pairs. -/
inductive Steps (env : ParseEnv) :
    AddressState × Contents → List KeyPair → AddressState × Contents → Prop
  | nil (p : AddressState × Contents) : Steps env p [] p
  | cons {st st' : AddressState} {c c' : Contents} {key value : List UInt8} {pairs : List KeyPair}
      {p : AddressState × Contents}
      (head : Parses (parseAddressOption env st key value) c [] st' c')
      (tail : Steps env (st', c') pairs p) : Steps env (st, c) ((key, value) :: pairs) p

theorem Steps.append {env : ParseEnv} {p p' p'' : AddressState × Contents} {ps qs : List KeyPair}
    (h : Steps env p ps p') (h' : Steps env p' qs p'') : Steps env p (ps ++ qs) p'' := by
  induction h with
  | nil => exact h'
  | cons head _ ih => exact .cons head (ih h')

theorem Steps.single {env : ParseEnv} {st st' : AddressState} {c c' : Contents}
    {key value : List UInt8} (h : Parses (parseAddressOption env st key value) c [] st' c') :
    Steps env (st, c) [(key, value)] (st', c') :=
  .cons h (.nil _)

theorem length_keyPairBytes (pair : KeyPair) :
    (keyPairBytes pair).length = pair.1.length + pair.2.length + 4 := by
  simp [keyPairBytes]
  omega

/-- The sizes that are counted are those of the key pairs, so the loop ends behind them. -/
theorem parses_parseAddressOptions {env : ParseEnv} {p p' : AddressState × Contents}
    {pairs : List KeyPair} (h : Steps env p pairs p') (hfit : PairsFit pairs)
    {givenSize remainingSize : UInt16}
    (hsize : remainingSize.toNat + (keyPairsBytes pairs).length = givenSize.toNat)
    {fuel : ℕ} (hfuel : pairs.length < fuel) :
    Parses (parseAddressOptions env givenSize fuel remainingSize p.1) p.2 (keyPairsBytes pairs)
      p'.1 p'.2 := by
  induction h generalizing fuel remainingSize with
  | nil p =>
    obtain ⟨fuel, rfl⟩ := Nat.exists_eq_succ_of_ne_zero (Nat.ne_zero_of_lt hfuel)
    have hend : ¬ remainingSize < givenSize := by
      rw [UInt16.lt_iff_toNat_lt]
      simp [keyPairsBytes] at hsize
      omega
    rw [parseAddressOptions, if_neg hend]
    exact parses_pure _ _
  | @cons st st' c c' key value pairs p head tail ih =>
    obtain ⟨fuel, rfl⟩ := Nat.exists_eq_succ_of_ne_zero (Nat.ne_zero_of_lt hfuel)
    obtain ⟨⟨hkey, hvalue⟩, hrest⟩ := pairsFit_cons.mp hfit
    have hlen := length_keyPairBytes (key, value)
    have hbytes : keyPairsBytes ((key, value) :: pairs) =
        keyPairBytes (key, value) ++ keyPairsBytes pairs := List.flatMap_cons
    have hgiven := givenSize.toNat_lt
    rw [hbytes, List.length_append] at hsize
    have hlt : remainingSize < givenSize := by
      rw [UInt16.lt_iff_toNat_lt]
      omega
    rw [parseAddressOptions, if_pos hlt, hbytes]
    refine (parses_stream (reads_readKeyPair hkey hvalue) _).bind (head.then (ih hrest ?_ ?_))
    · -- the counter has 16 bits, and the block size is not exceeded
      rw [UInt16.toNat_add, UInt16.toNat_ofNat', Nat.mod_eq_of_lt (a := (keyPairBytes _).length)
        (by omega), Nat.mod_eq_of_lt (by omega)]
      omega
    · simp at hfuel
      omega

/-! ## One option -/

section Options

variable {env : ParseEnv} {w : WriteEnv}

theorem parses_host {host : SSU.IPAddress} (hhost : env.ReadsHost w host) (st : AddressState)
    (c : Contents) :
    Parses (parseAddressOption env st (trait "host") (w.toString host)) c []
      { st with address.host := host }
      { c with supportedTransports :=
          c.supportedTransports ||| supportedTransport (st.address.transport = .ntcp) host.isV4 } := by
  rw [parseAddressOption, if_pos rfl, parseHost, hhost]
  exact (parses_write _ c).then (parses_pure _ _)

theorem parses_port (hnumbers : env.ReadsNumbers) (port : UInt16) (st : AddressState)
    (c : Contents) :
    Parses (parseAddressOption env st (trait "port") (decimal port.toNat)) c []
      { st with address.port := port } c := by
  rw [parseAddressOption, if_neg (by decide +kernel), if_pos rfl, hnumbers.lexicalCast16]
  exact (parses_orThrow _ port c).then (parses_pure _ _)

theorem parses_mtu (hnumbers : env.ReadsNumbers) (mtu : UInt16) (st : AddressState)
    (c : Contents) :
    Parses (parseAddressOption env st (trait "mtu") (decimal mtu.toNat)) c []
      { st with address.mtu := mtu } c := by
  rw [parseAddressOption, if_neg (by decide +kernel), if_neg (by decide +kernel), if_pos rfl,
    hnumbers.lexicalCast16]
  exact (parses_orThrow _ mtu c).then (parses_pure _ _)

theorem parses_key {key : List UInt8} (hkey : env.ReadsKey w key) (st : AddressState)
    (c : Contents) :
    Parses (parseAddressOption env st (trait "key") (w.base64Encode key)) c []
      { st with address.key := key } c := by
  have hst : ({ st with isValid := st.isValid && (some key).isSome, address.key := key } :
      AddressState) = { st with address.key := key } := by
    simp
  rw [parseAddressOption, if_neg (by decide +kernel), if_neg (by decide +kernel),
    if_neg (by decide +kernel), if_pos rfl, hkey.2]
  refine (parses_copyKey hkey.1 c).then ?_
  rw [hst]
  exact parses_pure _ _

theorem parses_caps (caps : List UInt8) (st : AddressState) (c : Contents) :
    Parses (parseAddressOption env st (trait "caps") caps) c [] st (c.setCaps caps) := by
  rw [parseAddressOption, if_neg (by decide +kernel), if_neg (by decide +kernel),
    if_neg (by decide +kernel), if_neg (by decide +kernel), if_pos rfl]
  exact (parses_write _ c).then (parses_pure _ _)

/-! ## Introducers -/

/-- A key that starts with an `i` is that of an introducer. -/
theorem parseAddressOption_introducer {key : List UInt8} (h : key.headD 0 = 105) (st : AddressState)
    (value : List UInt8) :
    parseAddressOption env st key value = parseIntroducer env st key value := by
  have hne (name : String) (hname : (trait name).headD 0 ≠ 105) : key ≠ trait name := by
    rintro rfl
    exact hname h
  rw [parseAddressOption, if_neg (hne "host" (by decide +kernel)),
    if_neg (hne "port" (by decide +kernel)), if_neg (hne "mtu" (by decide +kernel)),
    if_neg (hne "key" (by decide +kernel)), if_neg (hne "caps" (by decide +kernel)), if_pos h]

/-- The key of an introducer option starts with an `i` and ends with the number. -/
theorem numbered_key (name : List UInt8) (h : name.headD 0 = 105) (count : UInt8) :
    (name ++ [count]).headD 0 = 105 ∧ (name ++ [count]).getLastD 0 = count ∧
      (name ++ [count]).dropLast = name := by
  refine ⟨?_, by simp, by simp⟩
  cases name with
  | nil => exact absurd h (by decide)
  | cons b name => exact h

/-- `resize(index + 1)`, unless there are as many. -/
def resized (introducers : List Introducer) (index : ℕ) : List Introducer :=
  introducers ++ List.replicate (index + 1 - introducers.length) ({} : Introducer)

/-- The introducers of the address, resized for the number `count`, end with the introducer of this
number. -/
structure Slot (st : AddressState) (count : UInt8) (others : List Introducer)
    (introducer : Introducer) : Prop where
  length : (count - 48).toNat = others.length
  resized : resized st.address.introducers (count - 48).toNat = others ++ [introducer]

/-- The state with these introducers. -/
def AddressState.withIntroducers (st : AddressState) (introducers : List Introducer) : AddressState :=
  { st with hasIntroducers := true, address.introducers := introducers }

theorem slot_withIntroducers {count : UInt8} {others : List Introducer}
    (h : (count - 48).toNat = others.length) (st : AddressState) (introducer : Introducer) :
    Slot (st.withIntroducers (others ++ [introducer])) count others introducer where
  length := h
  resized := by simp [AddressState.withIntroducers, h, resized]

namespace Slot

variable {st : AddressState} {count : UInt8} {others : List Introducer} {introducer : Introducer}
  (h : Slot st count others introducer) (c : Contents)

include h

/-- Setting the introducer of the number. -/
theorem set_eq (introducer' : Introducer) :
    (Router.resized st.address.introducers (count - 48).toNat).set (count - 48).toNat introducer' =
      others ++ [introducer'] := by
  rw [h.resized, h.length]
  simp

theorem getD_eq :
    (Router.resized st.address.introducers (count - 48).toNat).getD (count - 48).toNat {} =
      introducer := by
  rw [h.resized, h.length]
  simp

theorem parses_ihost {host : SSU.IPAddress} (hhost : env.ReadsHost w host) :
    Parses (parseAddressOption env st (trait "ihost" ++ [count]) (w.toString host)) c []
      (st.withIntroducers (others ++ [{ introducer with host }])) c := by
  obtain ⟨hhead, hlast, hkey⟩ := numbered_key (trait "ihost") (by decide +kernel) count
  rw [parseAddressOption_introducer hhead, parseIntroducer, hlast, hkey, if_pos rfl, hhost]
  show Parses (pure _) c [] _ c
  rw [AddressState.withIntroducers, ← h.set_eq, ← h.getD_eq]
  exact parses_pure _ c

theorem parses_ikey {key : List UInt8} (hkey : env.ReadsKey w key) :
    Parses (parseAddressOption env st (trait "ikey" ++ [count]) (w.base64Encode key)) c []
      (st.withIntroducers (others ++ [{ introducer with key }])) c := by
  obtain ⟨hhead, hlast, hname⟩ := numbered_key (trait "ikey") (by decide +kernel) count
  rw [parseAddressOption_introducer hhead, parseIntroducer, hlast, hname,
    if_neg (by decide +kernel), if_neg (by decide +kernel), if_neg (by decide +kernel), if_pos rfl,
    hkey.2]
  refine (parses_orThrow _ key c).then ((parses_copyKey hkey.1 c).then ?_)
  rw [AddressState.withIntroducers, ← h.set_eq, ← h.getD_eq]
  exact parses_pure _ c

theorem parses_iport (hnumbers : env.ReadsNumbers) (port : UInt16) :
    Parses (parseAddressOption env st (trait "iport" ++ [count]) (decimal port.toNat)) c []
      (st.withIntroducers (others ++ [{ introducer with port }])) c := by
  obtain ⟨hhead, hlast, hname⟩ := numbered_key (trait "iport") (by decide +kernel) count
  rw [parseAddressOption_introducer hhead, parseIntroducer, hlast, hname,
    if_neg (by decide +kernel), if_pos rfl, hnumbers.lexicalCast16]
  refine (parses_orThrow _ port c).then ?_
  rw [AddressState.withIntroducers, ← h.set_eq, ← h.getD_eq]
  exact parses_pure _ c

theorem parses_itag (hnumbers : env.ReadsNumbers) (tag : UInt32) :
    Parses (parseAddressOption env st (trait "itag" ++ [count]) (decimal tag.toNat)) c []
      (st.withIntroducers (others ++ [{ introducer with tag }])) c := by
  obtain ⟨hhead, hlast, hname⟩ := numbered_key (trait "itag") (by decide +kernel) count
  rw [parseAddressOption_introducer hhead, parseIntroducer, hlast, hname,
    if_neg (by decide +kernel), if_neg (by decide +kernel), if_pos rfl, hnumbers.lexicalCast32]
  refine (parses_orThrow _ tag c).then ?_
  rw [AddressState.withIntroducers, ← h.set_eq, ← h.getD_eq]
  exact parses_pure _ c

end Slot

/-- One introducer is read into the slot of its number. -/
theorem steps_introducerPairs (hnumbers : env.ReadsNumbers) {introducer : Introducer}
    (hhost : env.ReadsHost w introducer.host) (hkey : env.ReadsKey w introducer.key)
    {st : AddressState} {count : UInt8} {others : List Introducer} (h : Slot st count others {})
    (c : Contents) :
    Steps env (st, c) (introducerPairs w count introducer)
      (st.withIntroducers (others ++ [introducer]), c) := by
  have hslot := slot_withIntroducers h.length st
  refine .cons (h.parses_ihost c hhost) (.cons ((hslot _).parses_ikey c hkey) ?_)
  exact .cons ((hslot _).parses_iport c hnumbers introducer.port)
    (.single ((hslot _).parses_itag c hnumbers introducer.tag))

/-- The introducers with numbers below `208`, which is what the character with code `0` is taken
for. -/
def padding (n : ℕ) : List Introducer := List.replicate n {}

theorem length_padding (n : ℕ) : (padding n).length = n := List.length_replicate

/-- What the introducers are read as. -/
def shifted (introducers : List Introducer) : List Introducer :=
  if introducers.isEmpty then [] else padding 208 ++ introducers

/-- The slot of the next introducer lies behind those that have been read. -/
theorem slot_shifted {st : AddressState} {read : List Introducer} (hlen : read.length < 48)
    (hst : st.address.introducers = shifted read) :
    Slot st (UInt8.ofNat read.length) (padding 208 ++ read) {} := by
  have hindex : (UInt8.ofNat read.length - 48).toNat = 208 + read.length := by
    rw [UInt8.toNat_sub, UInt8.toNat_ofNat']
    simp
    omega
  refine ⟨by rw [hindex, List.length_append, length_padding], ?_⟩
  rw [hindex, hst, shifted, resized]
  split
  next hempty =>
    rw [List.isEmpty_iff.mp hempty, List.append_nil]
    exact List.replicate_succ'
  · simp [length_padding]

theorem steps_introducersPairs (hnumbers : env.ReadsNumbers) {introducers : List Introducer}
    (hreads : ∀ introducer ∈ introducers,
      env.ReadsHost w introducer.host ∧ env.ReadsKey w introducer.key)
    (st : AddressState) (read : List Introducer) (hlen : read.length + introducers.length ≤ 48)
    (hst : st.address.introducers = shifted read) (c : Contents) :
    Steps env (st, c) (introducersPairs w (UInt8.ofNat read.length) introducers)
      ({ st with
          hasIntroducers := st.hasIntroducers || !introducers.isEmpty
          address.introducers := shifted (read ++ introducers) }, c) := by
  induction introducers generalizing st read with
  | nil =>
    have hsame : ({ st with
        hasIntroducers := st.hasIntroducers || !([] : List Introducer).isEmpty
        address.introducers := shifted (read ++ []) } : AddressState) = st := by
      simp [← hst]
    rw [hsame]
    exact .nil _
  | cons introducer introducers ih =>
    obtain ⟨hhost, hkey⟩ := hreads introducer List.mem_cons_self
    have hcount : UInt8.ofNat read.length + 1 = UInt8.ofNat (read ++ [introducer]).length := by
      simp [UInt8.ofNat_add]
    have hread : padding 208 ++ read ++ [introducer] = shifted (read ++ [introducer]) := by
      simp [shifted]
    have hslot := slot_shifted (by simp at hlen; omega) hst
    have hone := steps_introducerPairs hnumbers hhost hkey hslot c
    have hothers := ih (fun i hi => hreads i (List.mem_cons_of_mem _ hi))
      (st.withIntroducers (padding 208 ++ read ++ [introducer])) (read ++ [introducer])
      (by simp at hlen ⊢; omega) hread
    rw [← hcount] at hothers
    have hsteps := hone.append hothers
    rw [List.append_assoc] at hsteps
    simpa [AddressState.withIntroducers, introducersPairs] using hsteps

/-! ## Addresses -/

/-- The texts of an address can be read. -/
structure ParseEnv.ReadsAddress (env : ParseEnv) (w : WriteEnv) (address : Address) : Prop where
  host : env.ReadsHost w address.host
  key : env.ReadsKey w address.key
  introducer : ∀ introducer ∈ address.introducers,
    env.ReadsHost w introducer.host ∧ env.ReadsKey w introducer.key

/-- What an address is read as. -/
def Address.readBack (a : Address) : Address :=
  if a.transport = .ssu then { a with address := [], introducers := shifted a.introducers }
  else
    { transport := a.transport, host := a.host, port := a.port, date := a.date, cost := a.cost }

/-- The address has introducers that are written. -/
def Address.writesIntroducers (a : Address) : Bool := a.transport = .ssu && !a.introducers.isEmpty

/-- The members behind the options of an address. -/
def afterOptions (caps : List UInt8) (a : Address) (c : Contents) : Contents :=
  let c := if a.transport = .ssu then c.setCaps caps else c
  { c with supportedTransports :=
      c.supportedTransports ||| supportedTransport (a.transport = .ntcp) a.host.isV4 }

theorem steps_ssuPairs (hnumbers : env.ReadsNumbers) {a : Address} (hreads : env.ReadsAddress w a)
    (hlen : a.introducers.length ≤ 48) {st : AddressState}
    (hintroducers : st.address.introducers = []) (hmtu : st.address.mtu = 0) (c : Contents) :
    Steps env (st, c) (ssuPairs w a)
      ({ st with
          hasIntroducers := st.hasIntroducers || !a.introducers.isEmpty
          address.introducers := shifted a.introducers
          address.key := a.key
          address.mtu := a.mtu }, c) := by
  have hread : Steps env (st, c) (introducersPairs w 0 a.introducers)
      ({ st with
          hasIntroducers := st.hasIntroducers || !a.introducers.isEmpty
          address.introducers := shifted a.introducers }, c) :=
    steps_introducersPairs hnumbers hreads.introducer st [] (by simpa using hlen)
      hintroducers c
  refine hread.append (.cons (parses_key hreads.key _ c) ?_)
  split
  · exact .single (parses_mtu hnumbers a.mtu _ c)
  next hzero =>
    -- an MTU of zero is not written, and is what an address starts with
    rw [not_not] at hzero
    rw [hzero, ← hmtu]
    exact .nil _

theorem steps_addressPairs (hnumbers : env.ReadsNumbers) {a : Address}
    (hreads : env.ReadsAddress w a) (hlen : a.transport = .ssu → a.introducers.length ≤ 48)
    (caps : List UInt8) (hasIntroducers : Bool) (c : Contents) :
    Steps env
      ({ address := { transport := a.transport, cost := a.cost, date := a.date }, hasIntroducers }, c)
      (addressPairs w caps a)
      ({ address := a.readBack, hasIntroducers := hasIntroducers || a.writesIntroducers },
        afterOptions caps a c) := by
  by_cases hssu : a.transport = .ssu
  · have hpairs : addressPairs w caps a = (trait "caps", caps) ::
        (trait "host", w.toString a.host) :: (ssuPairs w a ++ [(trait "port", decimal a.port.toNat)]) := by
      simp [addressPairs, hssu]
    rw [hpairs]
    have hhost := parses_host hreads.host
      { address := { transport := a.transport, cost := a.cost, date := a.date }, hasIntroducers }
      (c.setCaps caps)
    refine .cons (parses_caps caps _ c) (.cons hhost ?_)
    refine (steps_ssuPairs hnumbers hreads (hlen hssu) rfl rfl _).append ?_
    have hport := Steps.single (parses_port hnumbers a.port
      { address := { a with port := 0, address := [], introducers := shifted a.introducers },
        hasIntroducers := hasIntroducers || !a.introducers.isEmpty } (afterOptions caps a c))
    simpa [Address.readBack, Address.writesIntroducers, afterOptions, hssu] using hport
  · have hpairs : addressPairs w caps a =
        [(trait "host", w.toString a.host), (trait "port", decimal a.port.toNat)] := by
      simp [addressPairs, hssu]
    rw [hpairs]
    have hhost := parses_host hreads.host
      { address := { transport := a.transport, cost := a.cost, date := a.date }, hasIntroducers } c
    have hport := parses_port hnumbers a.port
      { address := { transport := a.transport, cost := a.cost, date := a.date, host := a.host },
        hasIntroducers } (afterOptions caps a c)
    refine .cons hhost ?_
    simpa [Address.readBack, Address.writesIntroducers, afterOptions, hssu] using Steps.single hport

/-- The members behind an address. -/
def afterAddress (caps : List UInt8) (c : Contents) (a : Address) : Contents :=
  let c := afterOptions caps a c
  { c with addresses := c.addresses ++ [a.readBack] }

/-- A key pair has at least four bytes. -/
theorem four_mul_length_le (pairs : List KeyPair) :
    4 * pairs.length ≤ (keyPairsBytes pairs).length := by
  induction pairs with
  | nil => exact Nat.le_refl 0
  | cons pair pairs ih =>
    rw [keyPairsBytes, List.flatMap_cons, List.length_append, List.length_cons, length_keyPairBytes]
    rw [keyPairsBytes] at ih
    omega

theorem toNat_blockSize {pairs : List KeyPair} (h : (keyPairsBytes pairs).length ≤ maxBuffer) :
    (UInt16.ofNat (keyPairsBytes pairs).length).toNat = (keyPairsBytes pairs).length := by
  simp only [maxBuffer] at h
  rw [UInt16.toNat_ofNat', Nat.mod_eq_of_lt (by omega)]

/-- The transport is read from its name. -/
theorem Transport.eq_of_name (transport : Transport) :
    (if transport.name = trait "NTCP" then Transport.ntcp
      else if transport.name = trait "SSU" then .ssu else .unknown) = transport := by
  cases transport <;> decide +kernel

variable (hnumbers : env.ReadsNumbers) {caps : List UInt8} {fuel : ℕ} (hfuel : maxBuffer ≤ fuel)

include hnumbers hfuel

/-- One round of the loop over the addresses. -/
theorem parses_address {a : Address} (hreads : env.ReadsAddress w a)
    (hfits : PairsFit (addressPairs w caps a))
    (hlen : a.transport = .ssu → a.introducers.length ≤ 48)
    (hsize : (keyPairsBytes (addressPairs w caps a)).length ≤ maxBuffer)
    {n : ℕ} {givenSize : UInt16} {hasIntroducers : Bool} {c c' : Contents} {bytes : List UInt8}
    {r : UInt16 × Bool}
    (hrest : Parses (parseAddresses env fuel n
        (UInt16.ofNat (keyPairsBytes (addressPairs w caps a)).length)
        (hasIntroducers || a.writesIntroducers)) (afterAddress caps c a) bytes r c') :
    Parses (parseAddresses env fuel (n + 1) givenSize hasIntroducers) c
      (addressBytes w caps a ++ bytes) r c' := by
  have hbytes : addressBytes w caps a ++ bytes =
      [a.cost] ++ ((writeBE 8 a.date.toNat).reverse ++
        ((UInt8.ofNat a.transport.name.length :: a.transport.name) ++
          (writeU16 (UInt16.ofNat (keyPairsBytes (addressPairs w caps a)).length) ++
            (keyPairsBytes (addressPairs w caps a) ++ bytes)))) := by
    simp [addressBytes, optionsBytes]
  have hpairs := four_mul_length_le (addressPairs w caps a)
  have hcount : (0 : UInt16).toNat + (keyPairsBytes (addressPairs w caps a)).length =
      (UInt16.ofNat (keyPairsBytes (addressPairs w caps a)).length).toNat := by
    rw [toNat_blockSize hsize]
    exact Nat.zero_add _
  have hrounds : (addressPairs w caps a).length < fuel := by
    simp only [maxBuffer] at hsize hfuel
    omega
  have hoptions := parses_parseAddressOptions
    (steps_addressPairs hnumbers hreads hlen caps hasIntroducers c)
    hfits hcount hrounds
  rw [parseAddresses, hbytes]
  refine (parses_stream (reads_readU8 0 a.cost) c).bind ?_
  refine (parses_stream (reads_readNative64 0 a.date) c).bind ?_
  refine (parses_stream (reads_readStringFromByte a.transport.length_name_le) c).bind ?_
  refine (parses_stream (reads_readBlockSize givenSize _) c).bind ?_
  rw [a.transport.eq_of_name]
  exact hoptions.bind ((parses_write _ _).then hrest)

theorem parses_addresses {addresses : List Address}
    (hreads : ∀ a ∈ addresses, env.ReadsAddress w a)
    (hfits : ∀ a ∈ addresses, PairsFit (addressPairs w caps a))
    (hlen : ∀ a ∈ addresses, a.transport = .ssu → a.introducers.length ≤ 48)
    (hsize : ∀ a ∈ addresses, (keyPairsBytes (addressPairs w caps a)).length ≤ maxBuffer)
    (givenSize : UInt16) (hasIntroducers : Bool) (c : Contents) :
    ∃ r, Parses (parseAddresses env fuel addresses.length givenSize hasIntroducers) c
      (addresses.flatMap (addressBytes w caps)) r (addresses.foldl (afterAddress caps) c) := by
  induction addresses generalizing givenSize hasIntroducers c with
  | nil => exact ⟨_, parses_pure _ c⟩
  | cons a addresses ih =>
    rw [List.forall_mem_cons] at hreads hfits hlen hsize
    obtain ⟨r, hr⟩ := ih hreads.2 hfits.2 hlen.2 hsize.2
      (UInt16.ofNat (keyPairsBytes (addressPairs w caps a)).length)
      (hasIntroducers || a.writesIntroducers) (afterAddress caps c a)
    exact ⟨r, parses_address hnumbers hfuel hreads.1 hfits.1 hlen.1 hsize.1 hr⟩

end Options

/-! ## Options of router infos -/

/-- The members behind an option. -/
def afterOption (c : Contents) (pair : KeyPair) : Contents :=
  let c := c.setOption pair.1 pair.2
  if pair.1 = trait "caps" then c.setCaps pair.2 else c

theorem parses_parseOptions {pairs : List KeyPair} (hfit : PairsFit pairs)
    {givenSize remainingSize : UInt16}
    (hsize : remainingSize.toNat + (keyPairsBytes pairs).length = givenSize.toNat)
    {fuel : ℕ} (hfuel : pairs.length < fuel) (c : Contents) :
    Parses (parseOptions givenSize fuel remainingSize) c (keyPairsBytes pairs) ()
      (pairs.foldl afterOption c) := by
  induction pairs generalizing fuel remainingSize c with
  | nil =>
    obtain ⟨fuel, rfl⟩ := Nat.exists_eq_succ_of_ne_zero (Nat.ne_zero_of_lt hfuel)
    have hend : ¬ remainingSize < givenSize := by
      rw [UInt16.lt_iff_toNat_lt]
      simp [keyPairsBytes] at hsize
      omega
    rw [parseOptions, if_neg hend]
    exact parses_pure _ _
  | cons pair pairs ih =>
    obtain ⟨fuel, rfl⟩ := Nat.exists_eq_succ_of_ne_zero (Nat.ne_zero_of_lt hfuel)
    obtain ⟨⟨hkey, hvalue⟩, hrest⟩ := pairsFit_cons.mp hfit
    have hlen := length_keyPairBytes pair
    have hbytes : keyPairsBytes (pair :: pairs) = keyPairBytes pair ++ keyPairsBytes pairs :=
      List.flatMap_cons
    have hgiven := givenSize.toNat_lt
    rw [hbytes, List.length_append] at hsize
    have hlt : remainingSize < givenSize := by
      rw [UInt16.lt_iff_toNat_lt]
      omega
    have hcount : (remainingSize + UInt16.ofNat (keyPairBytes pair).length).toNat +
        (keyPairsBytes pairs).length = givenSize.toNat := by
      rw [UInt16.toNat_add, UInt16.toNat_ofNat', Nat.mod_eq_of_lt (a := (keyPairBytes _).length)
        (by omega), Nat.mod_eq_of_lt (by omega)]
      omega
    have hothers := ih hrest hcount (by simp at hfuel; omega) (afterOption c pair)
    rw [parseOptions, if_pos hlt, hbytes, List.foldl_cons]
    refine (parses_stream (reads_readKeyPair hkey hvalue) c).bind ?_
    refine (parses_write (fun c => c.setOption pair.1 pair.2) c).then ?_
    by_cases hcaps : pair.1 = trait "caps"
    · have hafter : afterOption c pair = (c.setOption pair.1 pair.2).setCaps pair.2 := if_pos hcaps
      rw [hafter] at hothers ⊢
      rw [if_pos hcaps]
      exact (parses_write (fun c => c.setCaps pair.2) _).then hothers
    · have hafter : afterOption c pair = c.setOption pair.1 pair.2 := if_neg hcaps
      rw [hafter] at hothers ⊢
      rw [if_neg hcaps]
      exact hothers

/-- The order of `m_Options`. -/
abbrev optionKey (option : KeyPair) : List ℕ := option.1.map UInt8.toNat

/-- An option behind all others is added at the end. -/
theorem options_afterOption {c : Contents} {pair : KeyPair}
    (h : ∀ option ∈ c.options, optionKey option < optionKey pair) :
    (afterOption c pair).options = c.options ++ [pair] := by
  have hothers : c.options.filter (·.1 ≠ pair.1) = c.options := by
    refine List.filter_eq_self.mpr fun option hoption => ?_
    rw [decide_eq_true_eq]
    intro heq
    have hlt := h option hoption
    rw [optionKey, heq] at hlt
    exact lt_irrefl _ hlt
  have hoptions : (c.setOption pair.1 pair.2).options = c.options ++ [pair] := by
    rw [Contents.setOption, hothers]
    exact KeyedSet.insert_eq_append h
  rw [afterOption]
  split
  · exact hoptions
  · exact hoptions

/-- Options that are read in their order are those that were written. -/
theorem options_foldl_afterOption {pairs : List KeyPair} {c : Contents}
    (h : KeyedSet.Sorted optionKey (c.options ++ pairs)) :
    (pairs.foldl afterOption c).options = c.options ++ pairs := by
  induction pairs generalizing c with
  | nil => exact (List.append_nil _).symm
  | cons pair pairs ih =>
    obtain ⟨_, _, hbefore⟩ := List.pairwise_append.mp h
    have hone : (afterOption c pair).options = c.options ++ [pair] :=
      options_afterOption fun option hoption => hbefore option hoption pair List.mem_cons_self
    have hassoc : c.options ++ pair :: pairs = (afterOption c pair).options ++ pairs := by
      rw [hone, List.append_assoc]
      rfl
    rw [List.foldl_cons, hassoc]
    exact ih (by rwa [← hassoc])

theorem addresses_foldl_afterOption (pairs : List KeyPair) (c : Contents) :
    (pairs.foldl afterOption c).addresses = c.addresses ∧
      (pairs.foldl afterOption c).timestamp = c.timestamp := by
  induction pairs generalizing c with
  | nil => exact ⟨rfl, rfl⟩
  | cons pair pairs ih =>
    obtain ⟨haddresses, htimestamp⟩ := ih (afterOption c pair)
    rw [List.foldl_cons, haddresses, htimestamp, afterOption]
    split
    · exact ⟨rfl, rfl⟩
    · exact ⟨rfl, rfl⟩

theorem addresses_foldl_afterAddress (caps : List UInt8) (addresses : List Address) (c : Contents) :
    (addresses.foldl (afterAddress caps) c).addresses = c.addresses ++ addresses.map Address.readBack ∧
      (addresses.foldl (afterAddress caps) c).options = c.options ∧
      (addresses.foldl (afterAddress caps) c).timestamp = c.timestamp := by
  induction addresses generalizing c with
  | nil => exact ⟨by simp, rfl, rfl⟩
  | cons a addresses ih =>
    obtain ⟨haddresses, hoptions, htimestamp⟩ := ih (afterAddress caps c a)
    rw [List.foldl_cons, haddresses, hoptions, htimestamp]
    simp only [afterAddress, afterOptions]
    split
    · exact ⟨by simp [Contents.setCaps], rfl, rfl⟩
    · exact ⟨by simp, rfl, rfl⟩

/-! ## Router infos -/

/-- Members whose texts can be written and read. The options are in the order of their map, and an
address has at most ten introducers. -/
structure Contents.Writable (env : ParseEnv) (w : WriteEnv) (c : Contents) : Prop where
  reads_address : ∀ a ∈ c.addresses, env.ReadsAddress w a
  address_fits : ∀ a ∈ c.addresses, w.AddressFits a
  introducers_le : ∀ a ∈ c.addresses, a.introducers.length ≤ 10
  options_sorted : KeyedSet.Sorted optionKey c.options
  options_fit : PairsFit c.options

/-- What writing such members, and reading them back, depends on. -/
structure Contents.Encodable (env : ParseEnv) (w : WriteEnv) (c : Contents) : Prop where
  reads_address : ∀ a ∈ c.addresses, env.ReadsAddress w a
  address_fits : ∀ a ∈ c.addresses, PairsFit (addressPairs w (ssuCapsFlags c) a)
  introducers_le : ∀ a ∈ c.addresses, a.transport = .ssu → a.introducers.length ≤ 48
  options_sorted : KeyedSet.Sorted optionKey c.options
  options_fit : PairsFit c.options

theorem Contents.Writable.encodable {env : ParseEnv} {w : WriteEnv} {c : Contents}
    (h : c.Writable env w) : c.Encodable env w where
  reads_address := h.reads_address
  address_fits a ha := pairsFit_addressPairs (length_ssuCapsFlags_le c) (h.address_fits a ha)
  introducers_le a ha _ := (h.introducers_le a ha).trans (by omega)
  options_sorted := h.options_sorted
  options_fit := h.options_fit

theorem length_optionsBytes (pairs : List KeyPair) :
    (optionsBytes pairs).length = 2 + (keyPairsBytes pairs).length := by
  simp [optionsBytes]

theorem length_addressBytes (w : WriteEnv) (caps : List UInt8) (a : Address) :
    12 + (keyPairsBytes (addressPairs w caps a)).length ≤ (addressBytes w caps a).length := by
  simp [addressBytes, optionsBytes]
  omega

/-- Each address takes some of the bytes. -/
theorem length_flatMap_addressBytes (w : WriteEnv) (caps : List UInt8) (addresses : List Address) :
    12 * addresses.length ≤ (addresses.flatMap (addressBytes w caps)).length ∧
      ∀ a ∈ addresses, (keyPairsBytes (addressPairs w caps a)).length ≤
        (addresses.flatMap (addressBytes w caps)).length := by
  induction addresses with
  | nil => exact ⟨Nat.le_refl 0, fun _ h => nomatch h⟩
  | cons a addresses ih =>
    have ha := length_addressBytes w caps a
    rw [List.flatMap_cons, List.length_append, List.length_cons, List.forall_mem_cons]
    refine ⟨by omega, by omega, fun a' ha' => ?_⟩
    have := ih.2 a' ha'
    omega

section RoundTrip

variable {env : ParseEnv} {w : WriteEnv} {c : Contents}

/-- The members that are read behind the timestamp. -/
theorem parses_membersBytes (hnumbers : env.ReadsNumbers) (h : c.Encodable env w)
    (hsize : (membersBytes w c).length ≤ maxBuffer) {fuel : ℕ} (hfuel : maxBuffer ≤ fuel)
    (timestamp : UInt64) :
    ∃ c', Parses (parseMembers env fuel) { timestamp } (membersBytes w c) () c' ∧
      c'.timestamp = timestamp ∧ c'.addresses = c.addresses.map Address.readBack ∧
      c'.options = c.options := by
  set caps := ssuCapsFlags c with hcaps
  obtain ⟨hcount, hblocks⟩ := length_flatMap_addressBytes w caps c.addresses
  have hlen : (membersBytes w c).length = (c.addresses.flatMap (addressBytes w caps)).length +
      (keyPairsBytes c.options).length + 4 := by
    simp only [membersBytes, List.length_append, List.length_cons, length_optionsBytes, ← hcaps]
    omega
  have hnum : (UInt8.ofNat c.addresses.length).toNat = c.addresses.length := by
    simp only [maxBuffer] at hsize
    rw [UInt8.toNat_ofNat', Nat.mod_eq_of_lt (by omega)]
  have hpairs := four_mul_length_le c.options
  have hroom : (keyPairsBytes c.options).length ≤ maxBuffer := by omega
  -- the addresses, and then the options
  obtain ⟨r, haddresses⟩ := parses_addresses hnumbers hfuel h.reads_address h.address_fits
    h.introducers_le (fun a ha => (hblocks a ha).trans (by omega)) 0 false { timestamp }
  set c₁ := c.addresses.foldl (afterAddress caps) { timestamp }
  obtain ⟨haddresses₁, hoptions₁, htimestamp₁⟩ :=
    addresses_foldl_afterAddress caps c.addresses { timestamp }
  have hcounted : (0 : UInt16).toNat + (keyPairsBytes c.options).length =
      (UInt16.ofNat (keyPairsBytes c.options).length).toNat := by
    rw [toNat_blockSize hroom]
    exact Nat.zero_add _
  have hrounds : c.options.length < fuel := by
    simp only [maxBuffer] at hroom hfuel
    omega
  have hoptions := parses_parseOptions h.options_fit hcounted hrounds c₁
  obtain ⟨haddresses₂, htimestamp₂⟩ := addresses_foldl_afterOption c.options c₁
  have hoptions₂ : (c.options.foldl afterOption c₁).options = c₁.options ++ c.options :=
    options_foldl_afterOption (by rw [hoptions₁]; exact h.options_sorted)
  have hbytes : membersBytes w c = [UInt8.ofNat c.addresses.length] ++
      (c.addresses.flatMap (addressBytes w caps) ++ ([0] ++
        (([] : List UInt8) ++ (writeU16 (UInt16.ofNat (keyPairsBytes c.options).length) ++
          (keyPairsBytes c.options ++ []))))) := by
    simp [membersBytes, optionsBytes, ← hcaps]
  have hparse : ∃ b, Parses (parseMembers env fuel) { timestamp } (membersBytes w c) ()
      { c.options.foldl afterOption c₁ with isUnreachable := b } := by
    rw [hbytes]
    apply Exists.intro
    refine parses_uninitialised_bind fun junk _ => ?_
    refine (parses_stream (reads_readU8 _ _) _).bind ?_
    rw [hnum]
    refine haddresses.bind ?_
    refine parses_uninitialised_bind fun junk _ => ?_
    refine (parses_stream (reads_readU8 _ 0) _).bind ?_
    refine (parses_stream (reads_seekg []) _).bind ?_
    refine (parses_stream (reads_readBlockSize _ _) _).bind ?_
    exact hoptions.bind (parses_write _ _)
  obtain ⟨b, hparse⟩ := hparse
  refine ⟨_, hparse, htimestamp₂.trans htimestamp₁, haddresses₂.trans haddresses₁, ?_⟩
  exact hoptions₂.trans (by rw [hoptions₁]; rfl)

end RoundTrip

/-- What is read from the bytes that were written behind the identity, and from those behind them, by
a router info that is new or has been cleared. -/
theorem parseContents_written {env : Env} {w : WriteEnv} {c : Contents}
    (hnumbers : env.parse.ReadsNumbers) (h : c.Encodable env.parse w)
    (hsize : (membersBytes w c).length ≤ maxBuffer) {ambient : Ambient}
    (hfuel : maxBuffer ≤ ambient.fuel) (old now : UInt64) (signature : List UInt8) :
    ∃ c', RouterInfo.parseContents env ambient { timestamp := old }
        (writeBE 8 now.toNat ++ membersBytes w c ++ signature) = (.ok (), c') ∧
      c'.timestamp = now ∧ c'.addresses = c.addresses.map Address.readBack ∧
      c'.options = c.options := by
  obtain ⟨c', hmembers, hread⟩ := parses_membersBytes hnumbers h hsize hfuel now
  let s : StringStream :=
    { rest := writeBE 8 now.toNat ++ (membersBytes w c ++ signature), junk := ambient.junk }
  obtain ⟨hnow, hs⟩ := reads_readBig64 old now s (membersBytes w c ++ signature) ⟨rfl, rfl⟩
  obtain ⟨s', hparse, -⟩ := hmembers _ signature hs
  refine ⟨c', ?_, hread⟩
  rw [List.append_assoc, RouterInfo.parseContents, parseRouterInfo_eq]
  simp only [s] at hnow hparse
  simp only [hnow, hparse]

/-- Nothing of the address is lost: it has no introducers and no host that is still to be resolved, and
only an SSU address has an MTU and a key. -/
structure Address.Plain (a : Address) : Prop where
  introducers : a.introducers = []
  address : a.address = []
  ssu : a.transport ≠ .ssu → a.mtu = 0 ∧ a.key = List.replicate 32 0

theorem shifted_eq_self_iff (introducers : List Introducer) :
    shifted introducers = introducers ↔ introducers = [] := by
  rw [shifted]
  split
  next hempty => simp [List.isEmpty_iff.mp hempty]
  next hempty =>
    refine ⟨fun heq => ?_, fun heq => absurd (by rw [heq]; rfl) hempty⟩
    have hlen := congrArg List.length heq
    rw [List.length_append, length_padding] at hlen
    omega

theorem Address.readBack_eq_self_iff (a : Address) : a.readBack = a ↔ a.Plain := by
  obtain ⟨transport, host, address, port, mtu, date, cost, key, introducers⟩ := a
  rw [Address.readBack]
  split
  next hssu =>
    simp only at hssu
    simp only [Address.mk.injEq, true_and, shifted_eq_self_iff]
    exact ⟨fun ⟨h, h'⟩ => ⟨h', h.symm, fun hne => absurd hssu hne⟩, fun h => ⟨h.address.symm, h.introducers⟩⟩
  next hssu =>
    simp only at hssu
    simp only [Address.mk.injEq, true_and]
    constructor
    · rintro ⟨haddress, hmtu, hkey, hintroducers⟩
      exact ⟨hintroducers.symm, haddress.symm, fun _ => ⟨hmtu.symm, hkey.symm⟩⟩
    · intro h
      exact ⟨h.address.symm, (h.ssu hssu).1.symm, (h.ssu hssu).2.symm, h.introducers.symm⟩

theorem map_eq_self_iff {α : Type} {f : α → α} {xs : List α} :
    xs.map f = xs ↔ ∀ x ∈ xs, f x = x := by
  induction xs with
  | nil => simp
  | cons x xs ih => simp [ih]

/-- An identity that does not fit its buffer is not written. -/
theorem identity_le_of_createRouterInfo {w : WriteEnv} {identity : IdentityEx} {now : UInt64}
    {c created : Contents} {bytes : List UInt8}
    (h : createRouterInfo w identity now c = .ok (created, bytes)) :
    identity.toBuffer.length ≤ 1024 := by
  by_contra hlong
  have hident : writeIdentity identity =
      .error (.lengthError "IdentityEx: supplied buffer is too small") := if_pos (Nat.not_le.mp hlong)
  rw [createRouterInfo, hident] at h
  cases h

/-- The members are read back from the bytes, by a router info whose last timestamp was `old`. -/
def ReadsBack (env : Env) (ambient : Ambient) (old : UInt64) (c : Contents) (bytes : List UInt8) :
    Prop :=
  let r := RouterInfo.parseContents env ambient { timestamp := old } bytes
  r.1 = .ok () ∧ r.2.timestamp = c.timestamp ∧ r.2.addresses = c.addresses ∧ r.2.options = c.options

/-- Router infos that fit the buffer are written, and are read back if no address has an introducer. -/
theorem readsBack_iff {env : Env} {w : WriteEnv} {c : Contents} (hnumbers : env.parse.ReadsNumbers)
    (h : c.Writable env.parse w) (identity : IdentityEx) (now : UInt64) :
    (identity.toBuffer.length ≤ 1024 → (createRouterInfo w identity now c).isOk) ∧
      ∀ created bytes, createRouterInfo w identity now c = .ok (created, bytes) →
        bytes.length ≤ maxBuffer → ∀ ambient old signature, maxBuffer ≤ ambient.fuel →
          (ReadsBack env ambient old created (bytes.drop identity.toBuffer.length ++ signature) ↔
            ∀ a ∈ c.addresses, a.Plain) := by
  refine ⟨fun hidentity => ?_, fun created bytes hcreate hfit ambient old signature hfuel => ?_⟩
  · rw [createRouterInfo_ok now hidentity h.address_fits h.options_fit]
    rfl
  · have hidentity := identity_le_of_createRouterInfo hcreate
    rw [createRouterInfo_ok now hidentity h.address_fits h.options_fit] at hcreate
    obtain ⟨rfl, rfl⟩ := Prod.mk.inj (Except.ok.inj hcreate)
    have hsize : (membersBytes w c).length ≤ maxBuffer := by
      rw [List.length_append] at hfit
      omega
    obtain ⟨c', hparse, htimestamp, haddresses, hoptions⟩ :=
      parseContents_written hnumbers h.encodable hsize hfuel old now signature
    rw [List.append_assoc, List.drop_left, ReadsBack, hparse]
    simp only [htimestamp, haddresses, hoptions, true_and, and_true, map_eq_self_iff,
      Address.readBack_eq_self_iff]

/-! ### Examples -/

/-- Texts of IPv4 addresses, and of a key of zeros. -/
def exampleWriteEnv : WriteEnv where
  toString host := [46].intercalate (host.bytes.map fun b => decimal b.toNat)
  base64Encode _ := List.replicate 43 65 ++ [61]

/-- The number with these digits. -/
def readDecimal (text : List UInt8) : ℕ :=
  Nat.ofDigitChars 10 (text.map fun b => Char.ofNat b.toNat) 0

def exampleHost : SSU.IPAddress := .v4 ⟨[192, 0, 2, 1], rfl⟩

/-- The texts of `exampleWriteEnv`, read. -/
def exampleReadEnv : Env where
  crypto := { sha256 := fun _ => IdentHash.zero, verify := fun _ _ _ _ => true }
  parse :=
    { fromString := fun text => if text = trait "192.0.2.1" then .ok exampleHost else .error true
      lexicalCast16 := fun text => some (UInt16.ofNat (readDecimal text))
      lexicalCast32 := fun text => some (UInt32.ofNat (readDecimal text))
      base64Decode := fun text =>
        if text = List.replicate 43 65 ++ [61] then some (List.replicate 32 0) else none }

def exampleRun : Ambient where
  junk _ := 0
  outside _ := 0
  fuel := maxBuffer

theorem readDecimal_decimal (n : ℕ) : readDecimal (decimal n) = n := by
  have hdigits : (decimal n).map (fun b => Char.ofNat b.toNat) = Nat.toDigits 10 n := by
    rw [decimal, List.map_map]
    refine (List.map_congr_left fun c hc => ?_).trans (List.map_id _)
    have hdigit : c.isDigit := Nat.isDigit_of_mem_toDigits (by omega) (by omega) hc
    have hle : c.toNat ≤ 57 := by
      simp only [Char.isDigit, Bool.and_eq_true, decide_eq_true_eq] at hdigit
      exact hdigit.2
    show Char.ofNat (UInt8.ofNat c.toNat).toNat = c
    rw [UInt8.toNat_ofNat', Nat.mod_eq_of_lt (by omega), Char.ofNat_toNat]
  rw [readDecimal, hdigits, Nat.ofDigitChars_ten_toDigits]

theorem exampleReadEnv_readsNumbers : exampleReadEnv.parse.ReadsNumbers where
  lexicalCast16 n := by
    show some (UInt16.ofNat (readDecimal (decimal n.toNat))) = some n
    rw [readDecimal_decimal, UInt16.ofNat_toNat]
  lexicalCast32 n := by
    show some (UInt32.ofNat (readDecimal (decimal n.toNat))) = some n
    rw [readDecimal_decimal, UInt32.ofNat_toNat]

/-- An NTCP and an SSU address. -/
def plainInfo : Contents where
  addresses :=
    [{ transport := .ntcp, host := exampleHost, port := 9111, cost := 10 },
      { transport := .ssu, host := exampleHost, port := 9111, mtu := 1484, cost := 5 }]
  options := [(trait "netId", trait "1"), (trait "router.version", trait "0.9.28")]

/-- An SSU address with an introducer. -/
def introducedInfo : Contents where
  addresses :=
    [{ transport := .ssu, host := exampleHost, port := 9111, cost := 5
       introducers := [{ host := exampleHost, port := 9222, tag := 7 }] }]
  options := [(trait "netId", trait "1")]

theorem exampleHost_reads : exampleReadEnv.parse.ReadsHost exampleWriteEnv exampleHost :=
  if_pos (by decide +kernel)

theorem exampleKey_reads : exampleReadEnv.parse.ReadsKey exampleWriteEnv (List.replicate 32 0) := by
  rw [ParseEnv.ReadsKey]
  decide +kernel

theorem exampleHost_fits : exampleWriteEnv.HostFits exampleHost := by
  rw [WriteEnv.HostFits]
  decide +kernel

theorem exampleKey_fits (key : List UInt8) : exampleWriteEnv.KeyFits key := by
  show (List.replicate 43 (65 : UInt8) ++ [61]).length ≤ 255
  decide +kernel

theorem plainInfo_writable : plainInfo.Writable exampleReadEnv.parse exampleWriteEnv where
  reads_address := by
    simp only [plainInfo, List.forall_mem_cons]
    exact ⟨⟨exampleHost_reads, exampleKey_reads, List.forall_mem_nil _⟩,
      ⟨exampleHost_reads, exampleKey_reads, List.forall_mem_nil _⟩, List.forall_mem_nil _⟩
  address_fits := by
    simp only [plainInfo, List.forall_mem_cons]
    exact ⟨⟨exampleHost_fits, exampleKey_fits _, List.forall_mem_nil _⟩,
      ⟨exampleHost_fits, exampleKey_fits _, List.forall_mem_nil _⟩, List.forall_mem_nil _⟩
  introducers_le := by decide +kernel
  options_sorted := by
    rw [KeyedSet.Sorted]
    decide +kernel
  options_fit := by
    rw [PairsFit]
    decide +kernel

theorem readsBack_plainInfo :
    ∃ created bytes, createRouterInfo exampleWriteEnv {} 1 plainInfo = .ok (created, bytes) ∧
      bytes.length ≤ maxBuffer ∧ ReadsBack exampleReadEnv exampleRun 0 created (bytes.drop 387) := by
  have hident : (IdentityEx.toBuffer {}).length = 387 := by decide +kernel
  have hcreate := createRouterInfo_ok 1 (hident.trans_le (by omega))
    plainInfo_writable.address_fits plainInfo_writable.options_fit
  have hfit : (IdentityEx.toBuffer {} ++ writeBE 8 (1 : UInt64).toNat ++
      membersBytes exampleWriteEnv plainInfo).length ≤ maxBuffer := by decide +kernel
  have hreads := (readsBack_iff exampleReadEnv_readsNumbers plainInfo_writable {} 1).2 _ _ hcreate hfit
    exampleRun 0 [] (Nat.le_refl _)
  rw [List.append_nil, hident] at hreads
  refine ⟨_, _, hcreate, hfit, hreads.mpr ?_⟩
  simp only [plainInfo, List.forall_mem_cons]
  exact ⟨⟨rfl, rfl, fun _ => ⟨rfl, rfl⟩⟩, ⟨rfl, rfl, fun hne => absurd rfl hne⟩, List.forall_mem_nil _⟩

/-- One introducer is read back as `209`. -/
theorem not_readsBack_introducer :
    ∃ created bytes, createRouterInfo exampleWriteEnv {} 1 introducedInfo = .ok (created, bytes) ∧
      bytes.length ≤ maxBuffer ∧ ¬ ReadsBack exampleReadEnv exampleRun 0 created (bytes.drop 387) := by
  have hident : (IdentityEx.toBuffer {}).length ≤ 1024 := by decide +kernel
  have hfits : ∀ a ∈ introducedInfo.addresses, exampleWriteEnv.AddressFits a := by
    simp only [introducedInfo, List.forall_mem_cons]
    refine ⟨⟨exampleHost_fits, exampleKey_fits _, ?_⟩, List.forall_mem_nil _⟩
    simp only [List.forall_mem_cons]
    exact ⟨⟨exampleHost_fits, exampleKey_fits _⟩, List.forall_mem_nil _⟩
  have hoptions : PairsFit introducedInfo.options := by
    rw [PairsFit]
    decide +kernel
  have hcreate := createRouterInfo_ok 1 hident hfits hoptions
  refine ⟨_, _, hcreate, by decide +kernel, fun h => ?_⟩
  have hlengths := congrArg (List.map fun a => a.introducers.length) h.2.2.1
  revert hlengths
  decide +kernel

end Router
