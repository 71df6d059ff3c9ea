import Xi2p.Router.Parsing
import Xi2p.Router.WellFormed

/-!
# Stores over existing entries

A router info that is in the database is updated in place: its members are cleared, the new data are
read into it, and the signature is verified last. A lease set is updated in place too, and erased if
the data turn out to be invalid.

* `NetDb.atomic_iff`: the stores that change existing entries only to what they should.
-/

namespace Router

open Bytes I2NP Identity

/-! ## How reading ends -/

/-- Why a router info cannot be read from the data, if it cannot. -/
def readError (env : Env) (ambient : Ambient) (data : List UInt8) : Option Failure :=
  let identLen := IdentityEx.lenIn (store (fun _ => 0) 0 data) 0 data.length
  if identLen = 0 then some (.lengthError "null ident length")
  else
    match (RouterInfo.parseContents env ambient {} (data.drop identLen)).1 with
    | .error e => some e
    | .ok _ => none

namespace RouterInfo

variable {env : Env} {ambient : Ambient} {data : List UInt8}

theorem parseContents_fst (contents contents' : Contents) (bytes : List UInt8) :
    (parseContents env ambient contents bytes).1 = (parseContents env ambient contents' bytes).1 :=
  parseRouterInfo_fst env.parse ambient.fuel _ contents contents'

/-- The bytes behind the identity. -/
theorem slice_store_drop (m : Mem) {identLen : ℕ} (h : identLen ≤ data.length) :
    slice (store m 0 data) identLen (data.length - identLen) = data.drop identLen := by
  have hsub : slice (store m 0 data) (0 + identLen) (data.length - identLen) =
      (data.drop identLen).take (data.length - identLen) := slice_store_sub m (by omega)
  rw [Nat.zero_add] at hsub
  rw [hsub]
  exact List.take_of_length_le (by simp)

/-- The members after reading the data in the buffer `m` over some members. -/
def membersRead (env : Env) (ambient : Ambient) (identity : IdentityEx) (m : Mem)
    (contents : Contents) (data : List UInt8) : Contents :=
  let identLen := IdentityEx.lenIn (store (fun _ => 0) 0 data) 0 data.length
  if identLen = 0 then contents
  else
    match parseContents env ambient contents (data.drop identLen) with
    | (.error _, contents) => contents
    | (.ok _, contents) =>
      if verify env.crypto identity m data.length then contents
      else { contents with isUnreachable := true }

/-- An identity that has been read has no verifier. -/
theorem verifier_fromBuffer (c : Crypto) (id : IdentityEx) (m : Mem) (pos len : ℕ)
    (h : (id.fromBuffer c m pos len).2 ≠ 0) : (id.fromBuffer c m pos len).1.verifier = none := by
  unfold IdentityEx.fromBuffer at h ⊢
  dsimp only at h ⊢
  split at h
  · exact absurd rfl h
  next hlen =>
    rw [if_neg hlen]
    split at h
    next hzero => rw [if_pos hzero]
    next hzero =>
      rw [if_neg hzero]
      split at h
      next hroom => rw [if_pos hroom]
      · exact absurd rfl h

/-- How the reading of a buffer that starts with the data ends, and what it leaves. -/
theorem readFromBuffer_store {r : RouterInfo} (m : Mem) (hlen : r.bufferLen = data.length) :
    let identity := (r.identity.fromBuffer env.crypto (store m 0 data) 0 data.length).1
    r.readFromBuffer env ambient true (store m 0 data) =
      (match readError env ambient data with
        | some e => .error e
        | none => .ok (some (verify env.crypto identity (store m 0 data) data.length)),
      { r with
        identity
        contents := membersRead env ambient identity (store m 0 data) r.contents data }) := by
  have hsnd := IdentityEx.fromBuffer_snd env.crypto r.identity (store m 0 data) 0 data.length
  have hverifier := verifier_fromBuffer env.crypto r.identity (store m 0 data) 0 data.length
  unfold readFromBuffer readError membersRead
  rw [hlen]
  dsimp only
  generalize r.identity.fromBuffer env.crypto (store m 0 data) 0 data.length = read at *
  obtain ⟨identity, identLen⟩ := read
  rw [lenIn_store] at hsnd
  dsimp only at hsnd hverifier ⊢
  rw [← hsnd]
  split
  · rfl
  next hpos =>
    have hle : identLen ≤ data.length := hsnd ▸ lenIn_le _ 0 data.length
    have hidentity : { identity with verifier := none } = identity := by rw [← hverifier hpos]
    rw [slice_store_drop m hle, parseContents_fst {} r.contents]
    generalize parseContents env ambient r.contents _ = parsed
    obtain ⟨result, contents⟩ := parsed
    cases result with
    | error e => rfl
    | ok _ =>
      simp only [if_true]
      rw [hidentity]

/-- A length that is not accepted. -/
def BadLength (data : List UInt8) : Prop := data.length < minBuffer ∨ maxBuffer < data.length

theorem ofBuffer_error_iff (hlen : ¬ BadLength data) (e : Failure) :
    ofBuffer env ambient data = .error e ↔ readError env ambient data = some e := by
  have hlen : ¬ (data.length < minBuffer ∨ maxBuffer < data.length) := hlen
  unfold ofBuffer
  rw [if_neg hlen]
  dsimp only
  rw [readFromBuffer_store _ rfl]
  cases readError env ambient data with
  | none => simp
  | some e' => simp

/-- How an update with data of an accepted length ends, and what it leaves. -/
theorem update_of_length (hlen : ¬ BadLength data) (r : RouterInfo) :
    let m := store (r.buffer.getD (ambient.newBuffer maxBuffer)) 0 data
    let identity := (r.identity.fromBuffer env.crypto m 0 data.length).1
    r.update env ambient data =
      (match readError env ambient data with
        | some e => .error e
        | none => .ok (some (verify env.crypto identity m data.length)),
      { identity
        buffer := some m
        bufferLen := data.length
        isUpdated := true
        contents :=
          membersRead env ambient identity m { timestamp := r.contents.timestamp } data }) := by
  intro m identity
  have hlen : ¬ (data.length < minBuffer ∨ maxBuffer < data.length) := hlen
  unfold update
  rw [if_neg hlen]
  exact readFromBuffer_store _ rfl

/-- The router info is what is left when the data are read into it: the same data were read before. -/
structure Holds (env : Env) (ambient : Ambient) (r : RouterInfo) (data : List UInt8) (m : Mem) :
    Prop where
  isUpdated : r.isUpdated = true
  buffer : r.buffer = some m
  bufferLen : r.bufferLen = data.length
  data_eq : slice m 0 data.length = data
  identity : (r.identity.fromBuffer env.crypto m 0 data.length).1 = r.identity
  contents : membersRead env ambient r.identity m { timestamp := r.contents.timestamp } data =
    r.contents

theorem store_eq_self_iff {m : Mem} : store m 0 data = m ↔ slice m 0 data.length = data := by
  constructor
  · intro h
    rw [← h]
    exact slice_store_self m 0 data
  · intro h
    funext i
    by_cases hi : i < data.length
    · have hget : (slice m 0 data.length)[i]? = some (m (0 + i)) := getElem?_slice m hi
      rw [h, Nat.zero_add] at hget
      simp [store, hget]
    · have hle : 0 + data.length ≤ i := by omega
      exact store_of_le m data hle

theorem update_eq_self_iff (hlen : ¬ BadLength data) (r : RouterInfo) :
    (r.update env ambient data).2 = r ↔ ∃ m, r.Holds env ambient data m := by
  rw [update_of_length hlen]
  constructor
  · intro h
    generalize hm : store (r.buffer.getD (ambient.newBuffer maxBuffer)) 0 data = m at h
    dsimp only at h
    have hbuffer : r.buffer = some m := (congrArg buffer h).symm
    have hidentity := congrArg RouterInfo.identity h
    dsimp only at hidentity
    rw [hidentity] at h
    refine ⟨m, (congrArg isUpdated h).symm, hbuffer, (congrArg bufferLen h).symm, ?_, hidentity,
      congrArg RouterInfo.contents h⟩
    rw [hbuffer] at hm
    exact store_eq_self_iff.mp hm
  · rintro ⟨m, h⟩
    have hstore := store_eq_self_iff.mpr h.data_eq
    dsimp only
    rw [h.buffer, Option.getD_some, hstore, h.identity, h.contents, ← h.bufferLen, ← h.isUpdated,
      ← h.buffer]

end RouterInfo

/-! ## Stores -/

namespace NetDb

/-- The data are a router info of the same identity with a valid signature that is not older. -/
def Accepts (env : Env) (ambient : Ambient) (old : RouterInfo) (data : List UInt8) : Prop :=
  ∃ info, RouterInfo.ofBuffer env ambient data = .ok (true, info) ∧
    info.getIdentHash = old.getIdentHash ∧ old.contents.timestamp ≤ info.contents.timestamp

/-- The call ends, and existing entries are still there, as they were or replaced by what is
accepted. -/
def Atomic (env : Env) (ambient : Ambient) (db : NetDb) (stored : Stored) : Result → Prop
  | .returns db' _ =>
    (∀ h r, db.findRouter h = some r → ∃ r', db'.findRouter h = some r' ∧
      (r' = r ∧ db'.routers r = db.routers r ∨
        ∃ ident data, stored = .routerInfo ident data ∧ Accepts env ambient (db.routers r) data)) ∧
    ∀ h l, db.findLeaseSet h = some l → l.isValid → ∃ l', db'.findLeaseSet h = some l' ∧
      (l' = l ∨ l'.isValid ∧ l'.getIdentHash = l.getIdentHash)
  | .hangs => False

/-- The store of a router info is rejected for its length, or reading it ends and it replaces only
what it should. -/
def RouterInfoReplaces (env : Env) (ambient : Ambient) (db : NetDb) (ident : IdentHash)
    (data : List UInt8) : Prop :=
  RouterInfo.BadLength data ∨ readError env ambient data ≠ some .hangs ∧
    match db.findRouter ident with
    -- the router info that is updated
    | some r => Accepts env ambient (db.routers r) data ∨
      ∃ m, (db.routers r).Holds env ambient data m
    -- the router info whose slot the new one takes
    | none => readError env ambient data = none →
      ∀ r, (dataIdent env.crypto data).bind db.findRouter = some r →
        Accepts env ambient (db.routers r) data

/-- The lease set in the database is updated with a lease set of the same destination with a valid
signature. -/
def LeaseSetReplaces (crypto : Crypto) (ambient : Ambient) (db : NetDb) (ident : IdentHash)
    (data : List UInt8) : Prop :=
  ∀ l, db.findLeaseSet ident = some l → l.isValid →
    LeaseSet.isSigned crypto l.identity (l.updateBuffer ambient data) data.length ∧
      ∀ h, dataIdent crypto data = some h → h = l.getIdentHash

/-- What is stored replaces only what it should. -/
def Replaces (env : Env) (ambient : Ambient) (db : NetDb) (hasTunnel : Bool) : Stored → Prop
  | .nothing => True
  | .routerInfo ident data => RouterInfoReplaces env ambient db ident data
  | .leaseSet ident data => hasTunnel = false → LeaseSetReplaces env.crypto ambient db ident data

variable {env : Env} {ambient : Ambient} {db : NetDb} {ident : IdentHash} {data : List UInt8}

theorem exists_requestComplete (db : NetDb) (ident : IdentHash) (r : ℕ) :
    ∃ requested completed,
      db.requestComplete ident r = .returns { db with requested } completed := by
  unfold requestComplete
  split
  · exact ⟨_, _, rfl⟩
  · exact ⟨_, _, rfl⟩

/-- A router info under the key is updated. -/
theorem addRouterInfo_of_found {r : ℕ} (hfind : db.findRouter ident = some r)
    (hends : ((db.routers r).update env ambient data).1 ≠ .error .hangs) :
    ∃ requested completed, db.addRouterInfo env ambient ident data =
      .returns { db.setRouter r ((db.routers r).update env ambient data).2 with requested }
        completed := by
  unfold addRouterInfo
  rw [hfind]
  dsimp only
  generalize (db.routers r).update env ambient data = result at hends
  obtain ⟨result, info⟩ := result
  cases result with
  | error e =>
    have he : e ≠ .hangs := fun he => hends (congrArg _ he)
    exact ⟨_, _, if_neg he⟩
  | ok _ => exact exists_requestComplete _ _ _

/-- A new router info takes the slot of its hash. -/
theorem addRouterInfo_of_new {verified : Bool} {info : RouterInfo}
    (hfind : db.findRouter ident = none)
    (hnew : RouterInfo.ofBuffer env ambient data = .ok (verified, info)) :
    ∃ requested completed, db.addRouterInfo env ambient ident data =
      .returns { db.addNewRouter info with requested } completed := by
  unfold addRouterInfo
  rw [hfind, hnew]
  exact exists_requestComplete _ _ _

/-- Nothing that is found changes. -/
theorem atomic_of_eq {db' : NetDb} {stored : Stored} (hrouters : db'.routers = db.routers)
    (hrouterInfos : db'.routerInfos = db.routerInfos) (hleaseSets : db'.leaseSets = db.leaseSets)
    (completed : List (IdentHash × ℕ)) : Atomic env ambient db stored (.returns db' completed) := by
  refine ⟨fun h r hr => ⟨r, ?_, .inl ⟨rfl, by rw [hrouters]⟩⟩, fun h l hl _ => ⟨l, ?_, .inl rfl⟩⟩
  · rw [findRouter, hrouterInfos]
    exact hr
  · rw [findLeaseSet, hleaseSets]
    exact hl

theorem atomic_result_iff {stored : Stored} (e : Failure) :
    Atomic env ambient db stored (e.result db) ↔ e ≠ .hangs := by
  unfold Failure.result
  split
  next he => exact iff_of_false id (fun h => h he)
  next he => exact iff_of_true (atomic_of_eq rfl rfl rfl []) he

/-- An update leaves the entries of the other router infos alone. -/
theorem atomic_setRouter_iff {r : ℕ} {info : RouterInfo} {requested : List IdentHash}
    {completed : List (IdentHash × ℕ)} (hfind : db.findRouter ident = some r) :
    Atomic env ambient db (.routerInfo ident data)
        (.returns { db.setRouter r info with requested } completed) ↔
      Accepts env ambient (db.routers r) data ∨ info = db.routers r := by
  constructor
  · intro h
    obtain ⟨r', hr', ⟨-, hsame⟩ | ⟨_, _, hstored, haccepts⟩⟩ := h.1 ident r hfind
    · exact .inr (by simpa [setRouter] using hsame)
    · cases hstored
      exact .inl haccepts
  · intro h
    refine ⟨fun k r' hr' => ⟨r', hr', ?_⟩, fun k l hl _ => ⟨l, hl, .inl rfl⟩⟩
    by_cases heq : r' = r
    · subst heq
      refine h.symm.imp (fun hsame => ⟨rfl, ?_⟩) fun haccepts => ⟨ident, data, rfl, haccepts⟩
      simpa [setRouter] using hsame
    · exact .inl ⟨rfl, by simp [setRouter, heq]⟩

/-- A new router info leaves the entries of other hashes alone. -/
theorem atomic_addNewRouter_iff (hdb : db.WellFormed) {info : RouterInfo}
    {requested : List IdentHash} {completed : List (IdentHash × ℕ)} :
    Atomic env ambient db (.routerInfo ident data)
        (.returns { db.addNewRouter info with requested } completed) ↔
      ∀ r, db.findRouter info.getIdentHash = some r → Accepts env ambient (db.routers r) data := by
  have hfind (h : IdentHash) :
      findRouter { db.addNewRouter info with requested } h =
        if h = info.getIdentHash then some db.next else db.findRouter h :=
    AssocMap.find_assign hashKey_injective hdb.routerInfos _ _ _
  have hlt {h : IdentHash} {r : ℕ} (hr : db.findRouter h = some r) : r ≠ db.next :=
    hdb.ne_next _ (AssocMap.mem_of_find hr)
  constructor
  · intro h r hr
    obtain ⟨r', hr', ⟨rfl, -⟩ | ⟨_, _, hstored, haccepts⟩⟩ := h.1 _ r hr
    · -- the slot has the number of the new router info
      rw [hfind, if_pos rfl] at hr'
      exact absurd (Option.some.inj hr').symm (hlt hr)
    · cases hstored
      exact haccepts
  · intro h
    refine ⟨fun k r hr => ?_, fun k l hl _ => ⟨l, hl, .inl rfl⟩⟩
    rw [hfind]
    split
    next heq => exact ⟨db.next, rfl, .inr ⟨ident, data, rfl, h r (heq ▸ hr)⟩⟩
    · exact ⟨r, hr, .inl ⟨rfl, by simp [addNewRouter, hlt hr]⟩⟩

/-- Data of another length are rejected before anything changes. -/
theorem addRouterInfo_of_badLength (hlen : RouterInfo.BadLength data) :
    db.addRouterInfo env ambient ident data = .returns db [] := by
  have hlen : data.length < minBuffer ∨ maxBuffer < data.length := hlen
  unfold addRouterInfo RouterInfo.update RouterInfo.ofBuffer
  simp only [if_pos hlen]
  split
  next r _ =>
    show Result.returns (db.setRouter r (db.routers r)) [] = _
    rw [setRouter, Function.update_eq_self]
  · rfl

theorem addRouterInfo_of_hangs (hlen : ¬ RouterInfo.BadLength data)
    (hhangs : readError env ambient data = some .hangs) :
    db.addRouterInfo env ambient ident data = .hangs := by
  unfold addRouterInfo
  split
  next r _ =>
    rw [RouterInfo.update_of_length hlen, hhangs]
    rfl
  · rw [(RouterInfo.ofBuffer_error_iff hlen .hangs).mpr hhangs]
    rfl

theorem atomic_addRouterInfo_iff (hdb : db.WellFormed) :
    Atomic env ambient db (.routerInfo ident data) (db.addRouterInfo env ambient ident data) ↔
      RouterInfoReplaces env ambient db ident data := by
  by_cases hlen : RouterInfo.BadLength data
  · rw [addRouterInfo_of_badLength hlen]
    exact iff_of_true (atomic_of_eq rfl rfl rfl []) (.inl hlen)
  by_cases hhangs : readError env ambient data = some .hangs
  · rw [addRouterInfo_of_hangs hlen hhangs]
    exact iff_of_false id fun h => h.elim hlen fun h => h.1 hhangs
  have hreplaces : RouterInfoReplaces env ambient db ident data ↔ _ :=
    (or_iff_right hlen).trans (and_iff_right hhangs)
  rw [hreplaces]
  cases hfind : db.findRouter ident with
  | some r =>
    have hends : ((db.routers r).update env ambient data).1 ≠ .error .hangs := by
      rw [RouterInfo.update_of_length hlen]
      dsimp only
      split
      next e he => exact fun h => hhangs (he.trans (congrArg some (Except.error.inj h)))
      · exact fun h => by cases h
    obtain ⟨requested, completed, heq⟩ := addRouterInfo_of_found hfind hends
    rw [heq, atomic_setRouter_iff hfind, RouterInfo.update_eq_self_iff hlen]
  | none =>
    dsimp only
    cases hread : readError env ambient data with
    | some e =>
      have herror := (RouterInfo.ofBuffer_error_iff hlen e).mpr hread
      unfold addRouterInfo
      rw [hfind, herror]
      dsimp only
      rw [atomic_result_iff]
      refine iff_of_true (fun he => hhangs (hread.trans (congrArg some he))) fun h => by cases h
    | none =>
      cases hnew : RouterInfo.ofBuffer env ambient data with
      | error e =>
        rw [RouterInfo.ofBuffer_error_iff hlen, hread] at hnew
        cases hnew
      | ok new =>
        obtain ⟨verified, info⟩ := new
        obtain ⟨requested, completed, heq⟩ := addRouterInfo_of_new hfind hnew
        rw [heq, atomic_addNewRouter_iff hdb, RouterInfo.ofBuffer_identHash hnew]
        exact ⟨fun h _ => h, fun h => h rfl⟩

/-- The store of a lease set changes only the lease sets and the requests. -/
theorem exists_addLeaseSet {crypto : Crypto} (canAsk : IdentHash → Bool) (hasTunnel : Bool) :
    ∃ leaseSets requested, db.addLeaseSet crypto ambient canAsk ident data hasTunnel =
      { db with leaseSets, requested } := by
  have hgateways := db.exists_requestGateways canAsk
  unfold addLeaseSet
  split
  · exact ⟨_, _, rfl⟩
  · split
    · dsimp only
      obtain ⟨requested, heq⟩ := hgateways (LeaseSet.update crypto ambient ‹LeaseSet› data).leases
      rw [heq]
      split
      · exact ⟨_, _, rfl⟩
      · exact ⟨_, _, rfl⟩
    · dsimp only
      obtain ⟨requested, heq⟩ := hgateways (LeaseSet.ofBuffer crypto ambient data).leases
      rw [heq]
      split
      · exact ⟨_, _, rfl⟩
      · exact ⟨_, _, rfl⟩

/-- The lease set that `AddLeaseSet` reads: over the one under the key, or a new one. -/
def leaseSetRead (crypto : Crypto) (ambient : Ambient) (db : NetDb) (ident : IdentHash)
    (data : List UInt8) : LeaseSet :=
  match db.findLeaseSet ident with
  | some l => l.update crypto ambient data
  | none => LeaseSet.ofBuffer crypto ambient data

/-- What is found after the store of a lease set that was received directly. -/
theorem findLeaseSet_addLeaseSet {crypto : Crypto} (hdb : db.WellFormed) (canAsk : IdentHash → Bool)
    (h : IdentHash) :
    (db.addLeaseSet crypto ambient canAsk ident data false).findLeaseSet h =
      if h = ident then
        if (leaseSetRead crypto ambient db ident data).isValid then
          some (leaseSetRead crypto ambient db ident data)
        else none
      else db.findLeaseSet h := by
  have hgateways := db.exists_requestGateways canAsk
  unfold addLeaseSet leaseSetRead
  rw [if_neg (by simp)]
  cases hfind : db.findLeaseSet ident with
  | some l =>
    dsimp only
    obtain ⟨requested, heq⟩ := hgateways (l.update crypto ambient data).leases
    rw [heq]
    split
    · exact AssocMap.find_assign hashKey_injective hdb.leaseSets _ _ _
    · exact AssocMap.find_erase _ _ _
  | none =>
    dsimp only
    obtain ⟨requested, heq⟩ := hgateways (LeaseSet.ofBuffer crypto ambient data).leases
    rw [heq]
    split
    · exact AssocMap.find_assign hashKey_injective hdb.leaseSets _ _ _
    · split
      next heq =>
        rw [heq]
        exact hfind
      · rfl

theorem atomic_addLeaseSet_iff (hdb : db.WellFormed) (canAsk : IdentHash → Bool)
    (hasTunnel : Bool) :
    Atomic env ambient db (.leaseSet ident data)
        (.returns (db.addLeaseSet env.crypto ambient canAsk ident data hasTunnel) []) ↔
      (hasTunnel = false → LeaseSetReplaces env.crypto ambient db ident data) := by
  cases hasTunnel with
  | true => exact iff_of_true (atomic_of_eq rfl rfl rfl []) fun h => by cases h
  | false =>
    have hfound (h : IdentHash) :
        (db.addLeaseSet env.crypto ambient canAsk ident data false).findLeaseSet h = _ :=
      findLeaseSet_addLeaseSet hdb canAsk h
    have hread {l : LeaseSet} (hl : db.findLeaseSet ident = some l) :
        leaseSetRead env.crypto ambient db ident data = l.update env.crypto ambient data := by
      rw [leaseSetRead, hl]
    constructor
    · intro h _ l hl hvalid
      obtain ⟨l', hl', hsame⟩ := h.2 ident l hl hvalid
      rw [hfound, if_pos rfl, hread hl] at hl'
      split at hl'
      next hupdate =>
        have hl' : l.update env.crypto ambient data = l' := Option.some.inj hl'
        have hhash : l'.getIdentHash = l.getIdentHash := hsame.elim (congrArg _) And.right
        rw [← hl', LeaseSet.update_identHash] at hhash
        rw [LeaseSet.isValid_update, Bool.and_eq_true] at hupdate
        refine ⟨hupdate.2, fun k hk => ?_⟩
        rw [hk] at hhash
        exact hhash
      · cases hl'
    · intro h
      obtain ⟨leaseSets, requested, heq⟩ : ∃ leaseSets requested,
          db.addLeaseSet env.crypto ambient canAsk ident data false =
            { db with leaseSets, requested } := exists_addLeaseSet canAsk false
      refine ⟨fun k r hr => ⟨r, ?_, .inl ⟨rfl, ?_⟩⟩, fun k l hl hvalid => ?_⟩
      · rw [heq]
        exact hr
      · rw [heq]
      · rw [hfound]
        split
        next hk =>
          subst hk
          obtain ⟨hsigned, hdata⟩ := h rfl l hl hvalid
          have hupdate : (l.update env.crypto ambient data).isValid := by
            rw [LeaseSet.isValid_update, hvalid, hsigned]
            rfl
          rw [hread hl, if_pos hupdate]
          refine ⟨_, rfl, .inr ⟨hupdate, ?_⟩⟩
          rw [LeaseSet.update_identHash]
          cases hident : dataIdent env.crypto data with
          | none => rfl
          | some k' => exact hdata k' hident
        · exact ⟨l, hl, .inl rfl⟩

/-- A `DatabaseStore` message changes existing entries only to what it should, if and only if what it
stores replaces only what it should. -/
theorem atomic_iff (env : Env) (gunzip : List UInt8 → Option (List UInt8)) (ambient : Ambient)
    (canAsk : IdentHash → Bool) (db : NetDb) (hdb : db.WellFormed) (msg : StoreMsg) :
    Atomic env ambient db (msg.stored gunzip)
        (db.handleDatabaseStoreMsg env gunzip ambient canAsk msg) ↔
      Replaces env ambient db msg.hasTunnel (msg.stored gunzip) := by
  unfold handleDatabaseStoreMsg
  cases msg.stored gunzip with
  | nothing => exact iff_of_true (atomic_of_eq rfl rfl rfl []) trivial
  | routerInfo ident data => exact atomic_addRouterInfo_iff hdb
  | leaseSet ident data => exact atomic_addLeaseSet_iff hdb canAsk msg.hasTunnel

/-- The database after the lease set of destination `1` has been stored. -/
def exampleLeaseSetDb : NetDb :=
  ({} : NetDb).addLeaseSet exampleEnv.crypto exampleAmbient (fun _ => false) (exampleIdent 1)
    (exampleLeaseSet 1 1) false

/-- The same lease set is stored again. -/
theorem atomic_sameLeaseSet :
    Atomic exampleEnv exampleAmbient exampleLeaseSetDb
      ((exampleLeaseSetStore (exampleIdent 1) (exampleLeaseSet 1 1)).stored some)
      (exampleLeaseSetDb.handleDatabaseStoreMsg exampleEnv some exampleAmbient (fun _ => false)
        (exampleLeaseSetStore (exampleIdent 1) (exampleLeaseSet 1 1))) := by
  have hdb : exampleLeaseSetDb.WellFormed := wellFormed_empty.addLeaseSet _ _
  rw [atomic_iff _ _ _ _ _ hdb, stored_exampleLeaseSetStore some
    (show exampleIdent 1 ≠ IdentHash.zero by decide)
    (show (exampleLeaseSet 1 1).length < 65536 by decide +kernel)]
  intro _ l hl _
  have hsigned : (exampleLeaseSetDb.findLeaseSet (exampleIdent 1)).all fun l =>
      LeaseSet.isSigned exampleEnv.crypto l.identity
          (l.updateBuffer exampleAmbient (exampleLeaseSet 1 1)) (exampleLeaseSet 1 1).length &&
        decide (dataIdent exampleEnv.crypto (exampleLeaseSet 1 1) = some l.getIdentHash) := by
    decide +kernel
  rw [hl, Option.all_some, Bool.and_eq_true, decide_eq_true_eq] at hsigned
  refine ⟨hsigned.1, fun k hk => ?_⟩
  exact Option.some.inj (hk.symm.trans hsigned.2)

/-- A badly signed lease set erases the one in the database. -/
theorem not_atomic_badSignature :
    ¬ Atomic exampleEnv exampleAmbient exampleLeaseSetDb
      ((exampleLeaseSetStore (exampleIdent 1) (exampleLeaseSet 1 0)).stored some)
      (exampleLeaseSetDb.handleDatabaseStoreMsg exampleEnv some exampleAmbient (fun _ => false)
        (exampleLeaseSetStore (exampleIdent 1) (exampleLeaseSet 1 0))) := by
  have hstored := stored_exampleLeaseSetStore some
    (show exampleIdent 1 ≠ IdentHash.zero by decide)
    (show (exampleLeaseSet 1 0).length < 65536 by decide +kernel)
  rw [handleDatabaseStoreMsg, hstored]
  intro h
  have hpresent : ∃ l, exampleLeaseSetDb.findLeaseSet (exampleIdent 1) = some l ∧ l.isValid := by
    have hvalid : (exampleLeaseSetDb.findLeaseSet (exampleIdent 1)).any LeaseSet.isValid := by
      decide +kernel
    exact (Option.any_eq_true _ _).mp hvalid
  have herased : ((exampleLeaseSetDb.addLeaseSet exampleEnv.crypto exampleAmbient (fun _ => false)
      (exampleIdent 1) (exampleLeaseSet 1 0) false).findLeaseSet (exampleIdent 1)).isNone := by
    decide +kernel
  obtain ⟨l, hl, hvalid⟩ := hpresent
  obtain ⟨l', hl', -⟩ := h.2 _ l hl hvalid
  cases hl'.symm.trans (Option.isNone_iff_eq_none.mp herased)

end NetDb

end Router
