import Xi2p.Lib.AssocMap
import Xi2p.Lib.Runs
import Xi2p.Client.ServerTunnel

/-!
# The registry of client tunnels

`m_ClientTunnels` of `ClientContext`: the tunnels by their ports. A tunnel listens from its construction on;
it does not when its acceptor is closed. What throws leaves the registry as it is where nothing has been
changed before.

* `addClientTunnel`, `updateClientTunnel`, `removeClientTunnels`.
* `Registered`: port, attributes and listener of all tunnels go together.
* `registered_iff`: in which runs they do.
-/

namespace Client

namespace ClientTunnels

open I2NP

open ServerTunnels (Endpoint)

/-! ## Tunnels -/

/-- `I2PClientTunnel`. -/
structure ClientTunnel (A : Type) where
  attributes : TunnelAttributes
  /-- The local endpoint of `m_Acceptor`, or none if it is closed. -/
  listener : Option (Endpoint A)
  /-- The identity of `m_LocalDestination`. -/
  destination : IdentHash

/-- What a call finds outside. -/
structure Outside (A : Type) where
  /-- The identity of the destination that `LoadLocalDestination` gives, or none if it throws. -/
  loadLocalDestination : Option IdentHash
  /-- The identity of the destination that `CreateNewLocalDestination` gives, or none if it throws. -/
  createLocalDestination : Option IdentHash
  /-- An acceptor can be bound. -/
  binds : Endpoint A → Bool
  /-- The port of an acceptor that is bound to port zero. -/
  ephemeral : UInt16
  ephemeral_ne : ephemeral ≠ 0

variable {A : Type}

/-- The endpoint of a new acceptor, or none if it cannot be bound. -/
def Outside.bind (outside : Outside A) (endpoint : Endpoint A) : Option (Endpoint A) :=
  if outside.binds endpoint then
    some { endpoint with port := if endpoint.port = 0 then outside.ephemeral else endpoint.port }
  else none

/-- The listener of a new acceptor for an address and a port, or none if its construction throws. -/
def Outside.acceptor (outside : Outside A) (fromString : List UInt8 → Option A) (address : List UInt8)
    (port : UInt16) : Option (Endpoint A) :=
  match fromString address with
  | none => none
  | some address => outside.bind { address, port }

/-- `m_ClientTunnels`. -/
abbrev Registry (A : Type) := List (UInt16 × ClientTunnel A)

namespace Registry

/-- `GetClientTunnel`, for a port. -/
def getByPort (r : Registry A) (port : UInt16) : Option (ClientTunnel A) := AssocMap.find r port

/-- The first entry with a name. -/
def entryOf (r : Registry A) (name : List UInt8) : Option (UInt16 × ClientTunnel A) :=
  r.find? (·.2.attributes.name = name)

/-- `GetClientTunnel`, for a name. -/
def getByName (r : Registry A) (name : List UInt8) : Option (ClientTunnel A) :=
  (r.entryOf name).map Prod.snd

/-! ## Operations -/

/-- The local destination of a new tunnel, or none if there is an exception. -/
def newDestination (outside : Outside A) (tunnel : TunnelAttributes) : Option IdentHash :=
  if tunnel.keys ≠ [] then outside.loadLocalDestination else outside.createLocalDestination

/-- The constructor, or none if it throws. -/
def create (fromString : List UInt8 → Option A) (outside : Outside A) (tunnel : TunnelAttributes) :
    Option (ClientTunnel A) := do
  let destination ← newDestination outside tunnel
  let endpoint ← outside.acceptor fromString tunnel.address tunnel.port
  return { attributes := tunnel, listener := some endpoint, destination }

/-- `AddClientTunnel`. A tunnel whose port is taken is deleted again. -/
def addClientTunnel (fromString : List UInt8 → Option A) (r : Registry A) (outside : Outside A)
    (tunnel : TunnelAttributes) : Registry A :=
  match create fromString outside tunnel with
  | none => r
  | some t => AssocMap.insert UInt16.toNat r tunnel.port t

/-- Whether the address and the port have changed, or none if the acceptor is closed. -/
def endpointChanged [DecidableEq A] (fromString : List UInt8 → Option A) (t : ClientTunnel A)
    (tunnel : TunnelAttributes) : Option Bool :=
  match fromString tunnel.address with
  | none => some (tunnel.address ≠ t.attributes.address)
  | some address => t.listener.map (· ≠ { address, port := tunnel.port })

/-- The new local destination, and whether it is another one; none if there is an exception. -/
def nextDestination (outside : Outside A) (t : ClientTunnel A) (tunnel : TunnelAttributes) :
    Option (IdentHash × Bool) :=
  if tunnel.keys ≠ [] then
    outside.loadLocalDestination.map fun ident => (ident, ident ≠ t.destination)
  else some (t.destination, false)

/-- `Rebind`; the old acceptor is closed first. -/
def rebind (fromString : List UInt8 → Option A) (outside : Outside A) (t : ClientTunnel A)
    (address : List UInt8) (port : UInt16) : ClientTunnel A :=
  if t.listener = none then t else { t with listener := outside.acceptor fromString address port }

/-- The new local destination, and whether a tunnel is bound again; none if there is an exception. -/
def prepare [DecidableEq A] (fromString : List UInt8 → Option A) (outside : Outside A) (t : ClientTunnel A)
    (tunnel : TunnelAttributes) : Option (IdentHash × Bool) := do
  let changed ← endpointChanged fromString t tunnel
  let changed := changed || (t.attributes.dest ≠ tunnel.dest) || (t.attributes.destPort ≠ tunnel.destPort)
  let (destination, other) ← nextDestination outside t tunnel
  return (destination, changed || other)

/-- What `UpdateClientTunnel` makes of a tunnel, or none if there is an exception. -/
def update [DecidableEq A] (fromString : List UInt8 → Option A) (outside : Outside A)
    (t : ClientTunnel A) (tunnel : TunnelAttributes) : Option (ClientTunnel A) := do
  let (destination, again) ← prepare fromString outside t tunnel
  let t := { t with destination, attributes := tunnel }
  return if again then rebind fromString outside t tunnel.address tunnel.port else t

/-- `UpdateClientTunnel`. -/
def updateClientTunnel [DecidableEq A] (fromString : List UInt8 → Option A) (r : Registry A)
    (outside : Outside A) (tunnel : TunnelAttributes) : Registry A :=
  match r.entryOf tunnel.name with
  | none => addClientTunnel fromString r outside tunnel
  | some (port, t) =>
    match update fromString outside t tunnel with
    | none => r
    | some t => AssocMap.assign UInt16.toNat r port t

/-- `RemoveClientTunnels`. -/
def removeClientTunnels (r : Registry A) (predicate : ClientTunnel A → Bool) : Registry A :=
  r.filter fun e => !predicate e.2

/-! ## Runs -/

end Registry

/-- A call of `ClientContext`. -/
inductive Event (A : Type)
  | addClientTunnel (outside : Outside A) (tunnel : TunnelAttributes)
  | updateClientTunnel (outside : Outside A) (tunnel : TunnelAttributes)
  | removeClientTunnels (predicate : ClientTunnel A → Bool)

namespace Registry

/-- The registry after a call. -/
def step [DecidableEq A] (fromString : List UInt8 → Option A) (r : Registry A) : Event A → Registry A
  | .addClientTunnel outside tunnel => addClientTunnel fromString r outside tunnel
  | .updateClientTunnel outside tunnel => updateClientTunnel fromString r outside tunnel
  | .removeClientTunnels predicate => removeClientTunnels r predicate

/-- A tunnel listens on the address and the port of its attributes. -/
def Listens (fromString : List UInt8 → Option A) (t : ClientTunnel A) : Prop :=
  ∃ address, fromString t.attributes.address = some address ∧
    t.listener = some { address, port := t.attributes.port }

/-- All tunnels are found under the ports of their attributes and listen, and names and ports lead to the same
tunnels. -/
structure Registered (fromString : List UInt8 → Option A) (r : Registry A) : Prop where
  port : ∀ e ∈ r, e.2.attributes.port = e.1
  listens : ∀ e ∈ r, Listens fromString e.2
  agree : ∀ name t, r.getByName name = some t → r.getByPort t.attributes.port = some t

/-- When `Rebind` is called and fails, the tunnel has the attributes and the listener that it had. -/
def KeepsOnFailure [DecidableEq A] (fromString : List UInt8 → Option A) (r : Registry A) (e : Event A) : Prop :=
  ∀ outside tunnel port t destination, e = .updateClientTunnel outside tunnel →
    r.entryOf tunnel.name = some (port, t) →
    prepare fromString outside t tunnel = some (destination, true) →
    outside.acceptor fromString tunnel.address tunnel.port = none →
    ∃ t', (step fromString r e).getByPort port = some t' ∧ t'.attributes = t.attributes ∧
      t'.listener = t.listener

/-- In every state of a run the tunnels are registered, and nothing is lost when `Rebind` fails. -/
def Kept [DecidableEq A] (fromString : List UInt8 → Option A) (events : List (Event A)) : Prop :=
  Runs.Always (step fromString) (Registered fromString) [] events ∧
    Runs.Meets (step fromString) (KeepsOnFailure fromString) [] events

/-- A new tunnel has a port. -/
def CanAdd (fromString : List UInt8 → Option A) (outside : Outside A) (tunnel : TunnelAttributes) : Prop :=
  (create fromString outside tunnel).isSome → tunnel.port ≠ 0

/-- A new tunnel has a port; one that is updated keeps its port, and where it is bound again, it can be. -/
def CanUpdate [DecidableEq A] (fromString : List UInt8 → Option A) (r : Registry A) (outside : Outside A)
    (tunnel : TunnelAttributes) : Prop :=
  match r.entryOf tunnel.name with
  | none => CanAdd fromString outside tunnel
  | some (port, t) =>
    ∀ destination again, prepare fromString outside t tunnel = some (destination, again) →
      tunnel.port = port ∧ (again → (outside.acceptor fromString tunnel.address tunnel.port).isSome)

/-- What keeps the tunnels registered. -/
def Allowed [DecidableEq A] (fromString : List UInt8 → Option A) (r : Registry A) : Event A → Prop
  | .addClientTunnel outside tunnel => CanAdd fromString outside tunnel
  | .updateClientTunnel outside tunnel => CanUpdate fromString r outside tunnel
  | .removeClientTunnels _ => True

/-! ## Listeners -/

variable {fromString : List UInt8 → Option A} {outside : Outside A} {r : Registry A} {t t' : ClientTunnel A}
  {tunnel : TunnelAttributes} {address : List UInt8} {port : UInt16}

/-- A new acceptor with a port of its own. -/
theorem acceptor_eq_some (hport : port ≠ 0) {endpoint : Endpoint A}
    (h : outside.acceptor fromString address port = some endpoint) :
    ∃ a, fromString address = some a ∧ endpoint = { address := a, port } := by
  unfold Outside.acceptor at h
  split at h
  · cases h
  next a ha =>
    unfold Outside.bind at h
    split_ifs at h
    exact ⟨a, ha, (Option.some.inj h).symm⟩

/-- A new acceptor without a port is bound to another one. -/
theorem acceptor_zero {endpoint : Endpoint A}
    (h : outside.acceptor fromString address 0 = some endpoint) : endpoint.port ≠ 0 := by
  unfold Outside.acceptor at h
  split at h
  · cases h
  · unfold Outside.bind at h
    split_ifs at h with hbinds hzero
    · rw [← Option.some.inj h]
      exact outside.ephemeral_ne
    · exact absurd rfl hzero

/-- A new tunnel. -/
theorem create_eq_some (h : create fromString outside tunnel = some t) :
    t.attributes = tunnel ∧ ∃ endpoint, outside.acceptor fromString tunnel.address tunnel.port = some endpoint ∧
      t.listener = some endpoint := by
  unfold create at h
  cases hdestination : newDestination outside tunnel with
  | none => simp [hdestination] at h
  | some destination =>
    cases hacceptor : outside.acceptor fromString tunnel.address tunnel.port with
    | none => simp [hdestination, hacceptor] at h
    | some endpoint =>
      simp only [hdestination, hacceptor, Option.bind_eq_bind, Option.bind_some, Option.pure_def,
        Option.some.injEq] at h
      subst h
      exact ⟨rfl, endpoint, rfl, rfl⟩

/-! ## Registered tunnels -/

/-- What the allowed calls keep. -/
structure Sound (fromString : List UInt8 → Option A) (r : Registry A) : Prop where
  distinct : AssocMap.Distinct r
  port : ∀ e ∈ r, e.2.attributes.port = e.1
  listens : ∀ e ∈ r, Listens fromString e.2
  port_ne : ∀ e ∈ r, e.1 ≠ 0

/-- No tunnels. -/
theorem sound_nil : Sound fromString ([] : Registry A) where
  distinct := by simp [AssocMap.Distinct]
  port := List.forall_mem_nil _
  listens := List.forall_mem_nil _
  port_ne := List.forall_mem_nil _

theorem Sound.registered (h : Sound fromString r) : Registered fromString r := by
  refine ⟨h.port, h.listens, fun name t ht => ?_⟩
  obtain ⟨⟨p, t'⟩, hentry, rfl⟩ := Option.map_eq_some_iff.mp ht
  have hmem := List.mem_of_find?_eq_some hentry
  rw [h.port _ hmem]
  exact h.distinct.find_eq_some hmem

theorem toNat_injective : Function.Injective UInt16.toNat := fun _ _ h => UInt16.toNat_inj.mp h

/-- A tunnel in its place. -/
theorem Sound.assign (h : Sound fromString r) (hport : t.attributes.port = port) (ht : Listens fromString t)
    (hne : port ≠ 0) : Sound fromString (AssocMap.assign UInt16.toNat r port t) := by
  have hmem (e : UInt16 × ClientTunnel A) (he : e ∈ AssocMap.assign UInt16.toNat r port t) :
      e = (port, t) ∨ e ∈ r :=
    ((AssocMap.mem_assign_iff toNat_injective).mp he).imp_right And.left
  refine ⟨h.distinct.assign toNat_injective port t, fun e he => ?_, fun e he => ?_, fun e he => ?_⟩
  · rcases hmem e he with rfl | he
    · exact hport
    · exact h.port e he
  · rcases hmem e he with rfl | he
    · exact ht
    · exact h.listens e he
  · rcases hmem e he with rfl | he
    · exact hne
    · exact h.port_ne e he

theorem Sound.addClientTunnel (h : Sound fromString r) (hallowed : CanAdd fromString outside tunnel) :
    Sound fromString (addClientTunnel fromString r outside tunnel) := by
  unfold Registry.addClientTunnel
  cases hcreate : create fromString outside tunnel with
  | none => exact h
  | some t =>
    have hne : tunnel.port ≠ 0 := hallowed (by rw [hcreate]; rfl)
    obtain ⟨rfl, endpoint, hendpoint, hlistener⟩ := create_eq_some hcreate
    obtain ⟨a, ha, rfl⟩ := acceptor_eq_some hne hendpoint
    dsimp only
    unfold AssocMap.insert
    split_ifs
    · exact h
    · exact h.assign rfl ⟨a, ha, hlistener⟩ hne

/-- A new tunnel without a port does not listen on the port of its attributes. -/
theorem Sound.not_registered_addClientTunnel (h : Sound fromString r)
    (hnot : ¬ CanAdd fromString outside tunnel) :
    ¬ Registered fromString (Registry.addClientTunnel fromString r outside tunnel) := by
  obtain ⟨hsome, hzero⟩ : (create fromString outside tunnel).isSome ∧ tunnel.port = 0 := by
    simpa [CanAdd] using hnot
  obtain ⟨t, hcreate⟩ := Option.isSome_iff_exists.mp hsome
  obtain ⟨hattributes, endpoint, hendpoint, hlistener⟩ := create_eq_some hcreate
  rw [hzero] at hendpoint
  have hfree : AssocMap.find r tunnel.port = none := by
    rw [hzero, AssocMap.find_eq_none_iff]
    exact fun t' hmem => h.port_ne _ hmem rfl
  have hmem : (tunnel.port, t) ∈ Registry.addClientTunnel fromString r outside tunnel := by
    rw [Registry.addClientTunnel, hcreate]
    dsimp only
    rw [AssocMap.insert, hfree]
    exact (AssocMap.mem_assign_iff toNat_injective).mpr (.inl rfl)
  intro hregistered
  obtain ⟨a, -, hlistens⟩ := hregistered.listens _ hmem
  rw [hlistener, hattributes, hzero] at hlistens
  exact acceptor_zero hendpoint (by rw [Option.some.inj hlistens])

/-! ## Updates -/

variable [DecidableEq A]

/-- A tunnel that is not bound again listens on the address and the port of the new attributes. -/
theorem listens_of_not_again {destination : IdentHash} (ht : Listens fromString t)
    (h : prepare fromString outside t tunnel = some (destination, false)) :
    ∃ address, fromString tunnel.address = some address ∧
      t.listener = some { address, port := tunnel.port } := by
  obtain ⟨old, hold, hlistener⟩ := ht
  unfold prepare at h
  cases hchanged : endpointChanged fromString t tunnel with
  | none => simp [hchanged] at h
  | some changed =>
    obtain rfl : changed = false := by
      cases hnext : nextDestination outside t tunnel with
      | none => simp [hchanged, hnext] at h
      | some next =>
        simp [hchanged, hnext] at h
        tauto
    unfold endpointChanged at hchanged
    split at hchanged
    next hnone =>
      have heq : tunnel.address = t.attributes.address := by simpa using hchanged
      rw [heq, hold] at hnone
      cases hnone
    next a ha =>
      refine ⟨a, ha, ?_⟩
      rw [hlistener] at hchanged ⊢
      simpa using hchanged

/-- What an update makes of a tunnel. -/
theorem update_cases (h : update fromString outside t tunnel = some t') :
    ∃ destination again, prepare fromString outside t tunnel = some (destination, again) ∧
      t' = if again then rebind fromString outside { t with destination, attributes := tunnel }
          tunnel.address tunnel.port
        else { t with destination, attributes := tunnel } := by
  unfold update at h
  cases hprepare : prepare fromString outside t tunnel with
  | none => simp [hprepare] at h
  | some prepared =>
    obtain ⟨destination, again⟩ := prepared
    simp only [hprepare, Option.bind_eq_bind, Option.bind_some, Option.pure_def, Option.some.injEq] at h
    exact ⟨destination, again, rfl, h.symm⟩

theorem update_attributes (h : update fromString outside t tunnel = some t') : t'.attributes = tunnel := by
  obtain ⟨destination, again, -, rfl⟩ := update_cases h
  unfold rebind
  split_ifs <;> rfl

/-- An acceptor that can be bound again, or need not be. -/
theorem listens_update (ht : Listens fromString t) (hport : tunnel.port ≠ 0)
    (hbinds : ∀ destination, prepare fromString outside t tunnel = some (destination, true) →
      (outside.acceptor fromString tunnel.address tunnel.port).isSome)
    (h : update fromString outside t tunnel = some t') : Listens fromString t' := by
  obtain ⟨destination, again, hprepare, rfl⟩ := update_cases h
  cases again with
  | false =>
    have hlistens := listens_of_not_again ht hprepare
    exact hlistens
  | true =>
    obtain ⟨old, -, hlistener⟩ := ht
    obtain ⟨endpoint, hendpoint⟩ := Option.isSome_iff_exists.mp (hbinds destination hprepare)
    obtain ⟨a, ha, rfl⟩ := acceptor_eq_some hport hendpoint
    refine ⟨a, ?_, ?_⟩
    · simpa [rebind, hlistener] using ha
    · simp [rebind, hlistener, hendpoint]

/-- An acceptor that cannot be bound again is closed. -/
theorem not_listens_update {destination : IdentHash}
    (hprepare : prepare fromString outside t tunnel = some (destination, true))
    (hfails : outside.acceptor fromString tunnel.address tunnel.port = none)
    (h : update fromString outside t tunnel = some t') : t'.listener = none := by
  obtain ⟨destination', again, hprepare', rfl⟩ := update_cases h
  obtain ⟨rfl, rfl⟩ := Prod.mk.inj (Option.some.inj (hprepare.symm.trans hprepare'))
  rw [if_pos rfl, rebind]
  split_ifs with hnone
  · exact hnone
  · exact hfails

/-! ## Steps -/

theorem Sound.step (h : Sound fromString r) {e : Event A} (hallowed : Allowed fromString r e) :
    Sound fromString (step fromString r e) := by
  cases e with
  | addClientTunnel outside tunnel => exact h.addClientTunnel hallowed
  | removeClientTunnels predicate =>
    have hmem (e : UInt16 × ClientTunnel A) (he : e ∈ removeClientTunnels r predicate) : e ∈ r :=
      List.mem_of_mem_filter he
    exact ⟨h.distinct.filter _, fun e he => h.port e (hmem e he), fun e he => h.listens e (hmem e he),
      fun e he => h.port_ne e (hmem e he)⟩
  | updateClientTunnel outside tunnel =>
    change Sound fromString (updateClientTunnel fromString r outside tunnel)
    change CanUpdate fromString r outside tunnel at hallowed
    unfold CanUpdate at hallowed
    unfold updateClientTunnel
    cases hentry : r.entryOf tunnel.name with
    | none =>
      rw [hentry] at hallowed
      exact h.addClientTunnel hallowed
    | some entry =>
      obtain ⟨port, t⟩ := entry
      rw [hentry] at hallowed
      have hmem := List.mem_of_find?_eq_some hentry
      dsimp only
      cases hupdate : update fromString outside t tunnel with
      | none => exact h
      | some t' =>
        obtain ⟨destination, again, hprepare, -⟩ := update_cases hupdate
        have hport := (hallowed destination again hprepare).1
        have hne : port ≠ 0 := h.port_ne _ hmem
        refine h.assign (by rw [update_attributes hupdate, hport]) ?_ hne
        refine listens_update (h.listens _ hmem) (by rwa [hport]) (fun destination hprepare => ?_) hupdate
        exact (hallowed destination true hprepare).2 rfl

/-- A call that is not allowed leaves a tunnel that is not registered. -/
theorem Sound.not_registered_step (h : Sound fromString r) {e : Event A}
    (hnot : ¬ Allowed fromString r e) : ¬ Registered fromString (Registry.step fromString r e) := by
  cases e with
  | addClientTunnel outside tunnel => exact h.not_registered_addClientTunnel hnot
  | removeClientTunnels predicate => exact absurd trivial hnot
  | updateClientTunnel outside tunnel =>
    change ¬ Registered fromString (updateClientTunnel fromString r outside tunnel)
    change ¬ CanUpdate fromString r outside tunnel at hnot
    unfold CanUpdate at hnot
    unfold updateClientTunnel
    cases hentry : r.entryOf tunnel.name with
    | none =>
      rw [hentry] at hnot
      exact h.not_registered_addClientTunnel hnot
    | some entry =>
      obtain ⟨port, t⟩ := entry
      rw [hentry] at hnot
      push Not at hnot
      obtain ⟨destination, again, hprepare, hnot⟩ := hnot
      obtain ⟨t', hupdate⟩ : ∃ t', update fromString outside t tunnel = some t' :=
        ⟨_, by simp [update, hprepare]; rfl⟩
      dsimp only
      rw [hupdate]
      dsimp only
      intro hregistered
      have hmem : (port, t') ∈ AssocMap.assign UInt16.toNat r port t' :=
        (AssocMap.mem_assign_iff toNat_injective).mpr (.inl rfl)
      have hport := hregistered.port _ hmem
      rw [update_attributes hupdate] at hport
      obtain ⟨rfl, hfails⟩ := hnot hport
      obtain ⟨a, -, hlistens⟩ := hregistered.listens _ hmem
      rw [not_listens_update hprepare (by simpa using hfails) hupdate] at hlistens
      cases hlistens

/-- A run keeps the tunnels registered if and only if its calls are allowed. -/
theorem always_registered_iff (fromString : List UInt8 → Option A) (events : List (Event A)) :
    Runs.Always (Registry.step fromString) (Registered fromString) [] events ↔
      Runs.Meets (Registry.step fromString) (Allowed fromString) [] events :=
  Runs.always_iff_meets (I := Sound fromString) (fun _ _ h hallowed => h.step hallowed)
    (fun _ h => h.registered) (fun _ _ h hnot => h.not_registered_step hnot) sound_nil events

/-- In a call that is allowed, `Rebind` does not fail. -/
theorem keepsOnFailure_of_allowed {e : Event A} (h : Allowed fromString r e) :
    KeepsOnFailure fromString r e := by
  rintro outside tunnel port t destination rfl hentry hprepare hfails
  change CanUpdate fromString r outside tunnel at h
  unfold CanUpdate at h
  rw [hentry] at h
  have hbinds := (h destination true hprepare).2 rfl
  rw [hfails] at hbinds
  cases hbinds

/-- In every state of a run the registry, the attributes and the listeners go together, and nothing is lost
when `Rebind` fails, if and only if new tunnels have ports, and those that are updated keep their ports and can
be bound again. -/
theorem kept_iff (fromString : List UInt8 → Option A) (events : List (Event A)) :
    Kept fromString events ↔ Runs.Meets (Registry.step fromString) (Allowed fromString) [] events := by
  constructor
  · exact fun h => (always_registered_iff fromString events).mp h.1
  · intro h
    refine ⟨(always_registered_iff fromString events).mpr h, ?_⟩
    exact h.of_invariant (I := fun _ => True) (fun _ _ _ _ => trivial)
      (fun _ _ _ hallowed => keepsOnFailure_of_allowed hallowed) trivial

/-! ## A port that is changed -/

theorem exampleCall_ephemeral_ne : (49152 : UInt16) ≠ 0 := by decide

/-- A call in which everything can be bound. -/
def exampleCall : Outside UInt32 where
  loadLocalDestination := none
  createLocalDestination := some IdentHash.zero
  binds _ := true
  ephemeral := 49152
  ephemeral_ne := exampleCall_ephemeral_ne

/-- A tunnel on 127.0.0.1. -/
def exampleTunnel (port : UInt16) : TunnelAttributes where
  name := [105, 114, 99]
  address := [49, 50, 55, 46, 48, 46, 48, 46, 49]
  port

/-- A tunnel that is updated with another port stays under the old one. -/
theorem changedPort : ¬ Kept ServerTunnels.exampleOutside.fromString
    [.addClientTunnel exampleCall (exampleTunnel 6668),
      .updateClientTunnel exampleCall (exampleTunnel 6669)] := by
  intro h
  have hmeets := (always_registered_iff _ _).mp h.1
  have hallowed := hmeets.2.1
  exact absurd (hallowed IdentHash.zero true rfl).1 (by decide)

end Registry

end ClientTunnels

end Client
