import Mathlib.Data.List.Basic
import Mathlib.Tactic

/-!
# Batches of tunnel messages

The inner loop of `Tunnels::Run` of `core/router/tunnel/impl.cc`. It takes messages from a queue until
the queue is empty, gives tunnel data and gateway messages to their tunnels, and flushes the tunnel of
the previous message when the tunnel ID changes and at the end. A message of another kind leaves no
tunnel behind, so the tunnel in front of it is not flushed.

Tunnels are objects: inbound tunnels in `I`, transit tunnels in `R`. What a build message does to the
tables of tunnels comes with the message.

* `resolves_run_iff`: messages are given to the tunnels of their own ID and type.
* `flushes_run_iff`: every tunnel is flushed after its last message.
* `soundBatch_iff_unmixed_and_uncut`: both, for a whole batch.
-/

namespace Tunnel

/-! ## The loop -/

/-- `I2NPTunnelData` or `I2NPTunnelGateway`. -/
inductive TunnelMsgKind
  | tunnelData
  | tunnelGateway
  deriving DecidableEq

/-- `m_InboundTunnels` and `m_TransitTunnels`. -/
structure TunnelTables (I R : Type) where
  /-- `GetInboundTunnel`. -/
  inbound : UInt32 → Option I
  /-- `GetTransitTunnel`. -/
  transit : UInt32 → Option R

/-- A message in the queue. -/
inductive QueuedMsg (I R M : Type)
  /-- A tunnel data or tunnel gateway message for a tunnel ID. -/
  | tunnel (kind : TunnelMsgKind) (tunnelID : UInt32) (msg : M)
  /-- A tunnel build message, with what it does to the tables. -/
  | build (effect : TunnelTables I R → TunnelTables I R)
  /-- A message of an unexpected type. -/
  | unexpected

/-- What happens in a batch. -/
inductive BatchEvent (I R M : Type)
  /-- A message is given to a tunnel, or dropped if there is none. -/
  | dispatched (tables : TunnelTables I R) (kind : TunnelMsgKind) (tunnelID : UInt32) (msg : M)
    (tunnel : Option (I ⊕ R))
  /-- `FlushTunnelDataMsgs`. -/
  | flushed (tunnel : I ⊕ R)

/-- The variables of the loop. At the start of a round, `prev_tunnel_ID` and `tunnel_ID` are equal,
and `tunnel` is `prev_tunnel`. -/
structure BatchState (I R : Type) where
  /-- The tables. -/
  tables : TunnelTables I R
  /-- `prev_tunnel_ID`. -/
  tunnelID : UInt32
  /-- `prev_tunnel`. -/
  tunnel : Option (I ⊕ R)

variable {I R M : Type}

/-- The tunnel that a message is for. -/
def TunnelTables.resolve (tables : TunnelTables I R) (kind : TunnelMsgKind) (tunnelID : UInt32) :
    Option (I ⊕ R) :=
  match kind with
  | .tunnelData => (tables.inbound tunnelID).map .inl <|> (tables.transit tunnelID).map .inr
  | .tunnelGateway => (tables.transit tunnelID).map .inr

namespace BatchState

/-- The tunnel that the loop takes for a message: the previous one if the ID is the same. -/
def select (s : BatchState I R) (kind : TunnelMsgKind) (tunnelID : UInt32) : Option (I ⊕ R) :=
  let tunnel := if tunnelID = s.tunnelID then s.tunnel else none
  let tunnel := if kind = .tunnelData then tunnel <|> (s.tables.inbound tunnelID).map .inl
    else tunnel
  tunnel <|> (s.tables.transit tunnelID).map .inr

/-- One round. -/
def step (s : BatchState I R) : QueuedMsg I R M → List (BatchEvent I R M) × BatchState I R
  | .tunnel kind tunnelID msg =>
    ((if tunnelID = s.tunnelID then [] else s.tunnel.toList.map .flushed) ++
        [.dispatched s.tables kind tunnelID msg (s.select kind tunnelID)],
      { s with tunnelID, tunnel := s.select kind tunnelID })
  -- these do not set `tunnel`
  | .build effect => ([], { s with tables := effect s.tables, tunnel := none })
  | .unexpected => ([], { s with tunnel := none })

/-- The rounds for the messages in the queue. The last tunnel is flushed at the end. -/
def run : BatchState I R → List (QueuedMsg I R M) → List (BatchEvent I R M)
  | s, [] => s.tunnel.toList.map .flushed
  | s, msg :: rest => (s.step msg).1 ++ run (s.step msg).2 rest

/-- The variables at the start of a batch. -/
def start (tables : TunnelTables I R) : BatchState I R where
  tables := tables
  tunnelID := 0
  tunnel := none

theorem select_eq (s : BatchState I R) (kind : TunnelMsgKind) (tunnelID : UInt32) :
    s.select kind tunnelID =
      ((if tunnelID = s.tunnelID then s.tunnel else none) <|> s.tables.resolve kind tunnelID) := by
  unfold select TunnelTables.resolve
  cases kind <;> simp [Option.or_assoc]

end BatchState

/-! ## Dispatch -/

/-- Every message is given to the tunnel that it is for. -/
def Resolves (events : List (BatchEvent I R M)) : Prop :=
  ∀ tables kind tunnelID msg tunnel, .dispatched tables kind tunnelID msg tunnel ∈ events →
    tunnel = tables.resolve kind tunnelID

/-- No two messages in a row have the same tunnel ID and different types, when this ID has an inbound
tunnel and the first of them has a tunnel. -/
def Unmixed : TunnelTables I R → List (QueuedMsg I R M) → Prop
  | _, [] => True
  | tables, .tunnel kind tunnelID _ :: rest =>
    (∀ kind' msg', rest.head? = some (.tunnel kind' tunnelID msg') → kind' ≠ kind →
      tables.inbound tunnelID = none ∨
        kind = .tunnelGateway ∧ tables.transit tunnelID = none) ∧
    Unmixed tables rest
  | tables, .build effect :: rest => Unmixed (effect tables) rest
  | tables, .unexpected :: rest => Unmixed tables rest

/-- The tunnel of a message does for the next one with the same ID, unless the types differ. -/
theorem resolve_orElse_resolve_iff (tables : TunnelTables I R) (kind kind' : TunnelMsgKind)
    (tunnelID : UInt32) :
    (tables.resolve kind tunnelID <|> tables.resolve kind' tunnelID) =
        tables.resolve kind' tunnelID ↔
      (kind' ≠ kind → tables.inbound tunnelID = none ∨
        kind = .tunnelGateway ∧ tables.transit tunnelID = none) := by
  cases kind <;> cases kind' <;> cases hinbound : tables.inbound tunnelID <;>
    cases htransit : tables.transit tunnelID <;> simp [TunnelTables.resolve, hinbound, htransit]

theorem resolves_append {as bs : List (BatchEvent I R M)} :
    Resolves (as ++ bs) ↔ Resolves as ∧ Resolves bs := by
  unfold Resolves
  simp only [List.mem_append]
  constructor
  · intro h
    exact ⟨fun _ _ _ _ _ hmem => h _ _ _ _ _ (.inl hmem),
      fun _ _ _ _ _ hmem => h _ _ _ _ _ (.inr hmem)⟩
  · rintro ⟨has, hbs⟩ _ _ _ _ _ (hmem | hmem)
    · exact has _ _ _ _ _ hmem
    · exact hbs _ _ _ _ _ hmem

theorem resolves_map_flushed (tunnels : List (I ⊕ R)) :
    Resolves (tunnels.map .flushed : List (BatchEvent I R M)) := by
  intro tables kind tunnelID msg tunnel hmem
  simp at hmem

theorem resolves_dispatched_iff {tables : TunnelTables I R} {kind : TunnelMsgKind}
    {tunnelID : UInt32} {msg : M} {tunnel : Option (I ⊕ R)} :
    Resolves [.dispatched tables kind tunnelID msg tunnel] ↔
      tunnel = tables.resolve kind tunnelID := by
  constructor
  · intro h
    exact h _ _ _ _ _ List.mem_cons_self
  · rintro h _ _ _ _ _ hmem
    cases List.mem_singleton.mp hmem
    exact h

/-- The messages of a batch are given to their tunnels exactly when the first one is, and later ones
are not mixed. -/
theorem resolves_run_iff (s : BatchState I R) (msgs : List (QueuedMsg I R M)) :
    Resolves (s.run msgs) ↔
      (∀ kind tunnelID msg, msgs.head? = some (.tunnel kind tunnelID msg) →
        s.select kind tunnelID = s.tables.resolve kind tunnelID) ∧ Unmixed s.tables msgs := by
  induction msgs generalizing s with
  | nil => simp [BatchState.run, Unmixed, resolves_map_flushed]
  | cons queued rest ih =>
    rw [BatchState.run, resolves_append, ih]
    cases queued with
    | tunnel kind tunnelID msg =>
      have hflushed : Resolves (if tunnelID = s.tunnelID then []
          else s.tunnel.toList.map .flushed : List (BatchEvent I R M)) := by
        split
        · exact resolves_map_flushed []
        · exact resolves_map_flushed _
      simp only [BatchState.step, resolves_append, hflushed, true_and, resolves_dispatched_iff,
        Unmixed, List.head?_cons, Option.some.injEq, QueuedMsg.tunnel.injEq]
      constructor
      · rintro ⟨hfirst, hnext, hrest⟩
        refine ⟨?_, fun kind' msg' hhead => ?_, hrest⟩
        · rintro _ _ _ ⟨rfl, rfl, rfl⟩
          exact hfirst
        · have hselect := hnext kind' tunnelID msg' hhead
          rw [BatchState.select_eq, if_pos rfl] at hselect
          rw [hfirst] at hselect
          exact (resolve_orElse_resolve_iff _ _ _ _).mp hselect
      · rintro ⟨hfirst, hnext, hrest⟩
        have hselect := hfirst kind tunnelID msg ⟨rfl, rfl, rfl⟩
        refine ⟨hselect, fun kind' tunnelID' msg' hhead => ?_, hrest⟩
        rw [BatchState.select_eq]
        split
        · rename_i heq
          subst heq
          rw [hselect]
          exact (resolve_orElse_resolve_iff _ _ _ _).mpr (hnext kind' msg' hhead)
        · exact Option.none_or
    | build effect => simp [BatchState.step, BatchState.select_eq, Unmixed, Resolves]
    | unexpected => simp [BatchState.step, BatchState.select_eq, Unmixed, Resolves]

/-! ## Flushing -/

/-- Every tunnel that is given a message is flushed afterwards. -/
def Flushes : List (BatchEvent I R M) → Prop
  | [] => True
  | .dispatched _ _ _ _ tunnel :: rest => (∀ t ∈ tunnel, .flushed t ∈ rest) ∧ Flushes rest
  | .flushed _ :: rest => Flushes rest

/-- The tunnels that the messages are for; `none` for messages of other types. -/
def targets : TunnelTables I R → List (QueuedMsg I R M) → List (Option (Option (I ⊕ R)))
  | _, [] => []
  | tables, .tunnel kind tunnelID _ :: rest =>
    some (tables.resolve kind tunnelID) :: targets tables rest
  | tables, .build effect :: rest => none :: targets (effect tables) rest
  | tables, .unexpected :: rest => none :: targets tables rest

/-- The last message for a tunnel is not followed directly by a message of another type: if a message
for a tunnel is, then there is another one for the same tunnel later. -/
def Uncut : List (Option (Option (I ⊕ R))) → Prop
  | [] => True
  | target :: rest =>
    (∀ t, target = some (some t) → rest.head? = some none → some (some t) ∈ rest) ∧ Uncut rest

theorem flushes_map_flushed_append (tunnels : List (I ⊕ R)) (events : List (BatchEvent I R M)) :
    Flushes (tunnels.map .flushed ++ events) ↔ Flushes events := by
  induction tunnels with
  | nil => rfl
  | cons t tunnels ih => exact ih

theorem flushes_step_append (s : BatchState I R) (kind : TunnelMsgKind) (tunnelID : UInt32) (msg : M)
    (events : List (BatchEvent I R M)) :
    Flushes ((s.step (.tunnel kind tunnelID msg)).1 ++ events) ↔
      (∀ t ∈ s.select kind tunnelID, .flushed t ∈ events) ∧ Flushes events := by
  unfold BatchState.step
  dsimp only
  split
  · rfl
  · rw [List.append_assoc, flushes_map_flushed_append]
    rfl

/-- The loop selects the tunnel that a message is for, and goes on. -/
theorem resolves_run_tunnel {s : BatchState I R} {kind : TunnelMsgKind} {tunnelID : UInt32} {msg : M}
    {rest : List (QueuedMsg I R M)} (h : Resolves (s.run (.tunnel kind tunnelID msg :: rest))) :
    s.select kind tunnelID = s.tables.resolve kind tunnelID ∧
      Resolves ((s.step (.tunnel kind tunnelID msg)).2.run rest) := by
  rw [BatchState.run, resolves_append] at h
  refine ⟨h.1 s.tables kind tunnelID msg _ ?_, h.2⟩
  simp [BatchState.step]

/-- A message of another type in front changes nothing for the tunnels that still get a message. -/
theorem of_uncut_none {P : Prop} {t : I ⊕ R} {rest : List (Option (Option (I ⊕ R)))}
    (h : some (some t) ∈ rest → Uncut rest → P) :
    (Uncut (some (some t) :: none :: rest) → P) ∧
      (some (some t) ∈ none :: rest → Uncut (none :: rest) → P) := by
  have hmem_rest (hmem : some (some t) ∈ none :: rest) : some (some t) ∈ rest :=
    List.mem_of_ne_of_mem (Option.some_ne_none _) hmem
  constructor
  · intro huncut
    exact h (hmem_rest (huncut.1 t rfl rfl)) huncut.2.2
  · intro hmem huncut
    exact h (hmem_rest hmem) huncut.2

/-- A tunnel that has to be flushed is flushed: the tunnel of the previous message, and every tunnel
that still gets a message. The induction is on the messages. -/
theorem flushed_mem_run {s : BatchState I R} {msgs : List (QueuedMsg I R M)}
    (hresolves : Resolves (s.run msgs)) (t : I ⊕ R) :
    (s.tunnel = some t → Uncut (some (some t) :: targets s.tables msgs) →
      .flushed t ∈ s.run msgs) ∧
    (some (some t) ∈ targets s.tables msgs → Uncut (targets s.tables msgs) →
      .flushed t ∈ s.run msgs) := by
  induction msgs generalizing s with
  | nil =>
    refine ⟨fun htunnel _ => ?_, fun hmem => by simp [targets] at hmem⟩
    simp [BatchState.run, htunnel]
  | cons queued rest ih =>
    cases queued with
    | tunnel kind tunnelID msg =>
      obtain ⟨hselect, hrest⟩ := resolves_run_tunnel hresolves
      obtain ⟨hcurrent, hlater⟩ := ih hrest
      rw [BatchState.run, targets]
      constructor
      · intro htunnel huncut
        rw [List.mem_append]
        by_cases hid : tunnelID = s.tunnelID
        · -- the same tunnel again
          right
          have hsame : s.select kind tunnelID = some t := by
            rw [BatchState.select_eq, if_pos hid, htunnel]
            rfl
          refine hcurrent hsame ?_
          rw [hselect] at hsame
          rw [hsame] at huncut
          exact huncut.2
        · left
          simp [BatchState.step, hid, htunnel]
      · intro hmem huncut
        refine List.mem_append_right _ ?_
        rcases List.mem_cons.mp hmem with heq | hmem
        · have htarget := (Option.some.inj heq).symm
          rw [htarget] at huncut
          exact hcurrent (hselect.trans htarget) huncut
        · exact hlater hmem huncut.2
    | build effect =>
      have hlater := (ih (s := (s.step (.build effect : QueuedMsg I R M)).2) hresolves).2
      exact ⟨fun _ => (of_uncut_none hlater).1, (of_uncut_none hlater).2⟩
    | unexpected =>
      have hlater := (ih (s := (s.step (.unexpected : QueuedMsg I R M)).2) hresolves).2
      exact ⟨fun _ => (of_uncut_none hlater).1, (of_uncut_none hlater).2⟩

/-- Only these are flushed. -/
theorem eq_or_mem_of_flushed_mem_run {s : BatchState I R} {msgs : List (QueuedMsg I R M)}
    (hresolves : Resolves (s.run msgs)) {t : I ⊕ R} (h : .flushed t ∈ s.run msgs) :
    s.tunnel = some t ∨ some (some t) ∈ targets s.tables msgs := by
  induction msgs generalizing s with
  | nil =>
    left
    simpa [BatchState.run] using h
  | cons queued rest ih =>
    rw [BatchState.run, List.mem_append] at h
    cases queued with
    | tunnel kind tunnelID msg =>
      obtain ⟨hselect, hrest⟩ := resolves_run_tunnel hresolves
      rcases h with h | h
      · left
        simp only [BatchState.step, List.mem_append, List.mem_singleton, reduceCtorEq, or_false] at h
        split at h
        · cases h
        · simpa using h
      · right
        rcases ih hrest h with heq | hmem
        · exact List.mem_cons.mpr (.inl (congrArg some (heq.symm.trans hselect)))
        · exact List.mem_cons_of_mem _ hmem
    | build effect =>
      right
      obtain heq | hmem := ih hresolves (h.resolve_left (by simp [BatchState.step]))
      · cases heq
      · exact List.mem_cons_of_mem _ hmem
    | unexpected =>
      right
      obtain heq | hmem := ih hresolves (h.resolve_left (by simp [BatchState.step]))
      · cases heq
      · exact List.mem_cons_of_mem _ hmem

/-- When a message of another type comes first, only the tunnels that still get a message are
flushed. -/
theorem mem_targets_of_head?_eq_none {s : BatchState I R} {msgs : List (QueuedMsg I R M)}
    (hresolves : Resolves (s.run msgs)) (hhead : (targets s.tables msgs).head? = some none)
    {t : I ⊕ R} (h : .flushed t ∈ s.run msgs) : some (some t) ∈ targets s.tables msgs := by
  cases msgs with
  | nil => cases hhead
  | cons queued rest =>
    -- the round for the first message leaves no tunnel behind
    have hother (hstep : (s.step queued).1 = []) (hnone : (s.step queued).2.tunnel = none) :
        some (some t) ∈ targets (s.step queued).2.tables rest := by
      rw [BatchState.run, hstep, List.nil_append] at h hresolves
      refine (eq_or_mem_of_flushed_mem_run hresolves h).resolve_left ?_
      simp [hnone]
    cases queued with
    | tunnel kind tunnelID msg => cases hhead
    | build effect => exact List.mem_cons_of_mem _ (hother rfl rfl)
    | unexpected => exact List.mem_cons_of_mem _ (hother rfl rfl)

/-- Every tunnel is flushed after its last message exactly when none of these is cut off. -/
theorem flushes_run_iff {s : BatchState I R} {msgs : List (QueuedMsg I R M)}
    (hresolves : Resolves (s.run msgs)) :
    Flushes (s.run msgs) ↔ Uncut (targets s.tables msgs) := by
  induction msgs generalizing s with
  | nil =>
    have hend := (flushes_map_flushed_append s.tunnel.toList ([] : List (BatchEvent I R M))).mpr
      trivial
    simpa [targets, Uncut, BatchState.run] using hend
  | cons queued rest ih =>
    cases queued with
    | tunnel kind tunnelID msg =>
      obtain ⟨hselect, hrest⟩ := resolves_run_tunnel hresolves
      rw [BatchState.run, flushes_step_append, ih hrest, targets, Uncut]
      refine and_congr_left fun huncut => ?_
      constructor
      · intro hflushed t htarget hcut
        exact mem_targets_of_head?_eq_none hrest hcut
          (hflushed t (hselect.trans (Option.some.inj htarget)))
      · intro hcut t ht
        have htarget : s.tables.resolve kind tunnelID = some t := hselect.symm.trans ht
        rw [htarget] at hcut
        exact (flushed_mem_run hrest t).1 ht ⟨fun t' ht' => hcut t' ht', huncut⟩
    | build effect =>
      have h := ih (s := (s.step (.build effect : QueuedMsg I R M)).2) hresolves
      simpa [targets, Uncut, BatchState.run, BatchState.step] using h
    | unexpected =>
      have h := ih (s := (s.step (.unexpected : QueuedMsg I R M)).2) hresolves
      simpa [targets, Uncut, BatchState.run, BatchState.step] using h

/-! ## Participants -/

/-- The messages of a `TransitTunnelParticipant`. -/
structure TransitTunnelParticipant (M : Type) where
  /-- `m_TunnelDataMsgs`. -/
  tunnelDataMsgs : List M
  /-- What `SendMessages` was called with. -/
  sent : List M

variable [DecidableEq I] [DecidableEq R]

/-- What an event does to the participant `t`. -/
def TransitTunnelParticipant.handle (t : R) (p : TransitTunnelParticipant M) :
    BatchEvent I R M → TransitTunnelParticipant M
  | .dispatched _ .tunnelData _ msg tunnel =>
    if tunnel = some (.inr t) then { p with tunnelDataMsgs := p.tunnelDataMsgs ++ [msg] } else p
  -- `SendTunnelDataMsg`: not a gateway
  | .dispatched _ .tunnelGateway _ _ _ => p
  | .flushed tunnel =>
    if tunnel = .inr t then { tunnelDataMsgs := [], sent := p.sent ++ p.tunnelDataMsgs } else p

/-- The message that the participant `t` gets in an event. -/
def received (t : R) : BatchEvent I R M → Option M
  | .dispatched _ .tunnelData _ msg tunnel => if tunnel = some (.inr t) then some msg else none
  | _ => none

/-- Every participant forwards the messages it receives, and no message is left. -/
def Forwards (events : List (BatchEvent I R M)) : Prop :=
  ∀ t, events.foldl (TransitTunnelParticipant.handle t) ⟨[], []⟩ =
    ⟨[], events.filterMap (received t)⟩

/-- The messages of a participant and those it receives are sent, if it is flushed. The induction is
on the events, with what the participant has at each point. -/
theorem foldl_handle_eq {events : List (BatchEvent I R M)} (hflushes : Flushes events) (t : R)
    {p : TransitTunnelParticipant M} (hp : p.tunnelDataMsgs = [] ∨ .flushed (.inr t) ∈ events) :
    events.foldl (TransitTunnelParticipant.handle t) p =
      ⟨[], p.sent ++ p.tunnelDataMsgs ++ events.filterMap (received t)⟩ := by
  induction events generalizing p with
  | nil =>
    obtain hempty | hmem := hp
    · obtain ⟨msgs, sent⟩ := p
      simp_all
    · cases hmem
  | cons event rest ih =>
    rw [List.foldl_cons, List.filterMap_cons]
    match event with
    | .dispatched _ .tunnelData _ msg tunnel =>
      obtain ⟨hflushed, hrest⟩ := hflushes
      by_cases htunnel : tunnel = some (.inr t)
      · rw [ih hrest (.inr (hflushed _ htunnel))]
        simp [TransitTunnelParticipant.handle, received, htunnel]
      · rw [ih hrest (by simpa [TransitTunnelParticipant.handle, htunnel] using hp)]
        simp [TransitTunnelParticipant.handle, received, htunnel]
    | .dispatched _ .tunnelGateway _ _ _ =>
      rw [ih hflushes.2 (by simpa [TransitTunnelParticipant.handle] using hp)]
      simp [TransitTunnelParticipant.handle, received]
    | .flushed tunnel =>
      by_cases htunnel : tunnel = .inr t
      · rw [ih hflushes (.inl (by simp [TransitTunnelParticipant.handle, htunnel]))]
        simp [TransitTunnelParticipant.handle, received, htunnel]
      · have hne : .inr t ≠ tunnel := fun h => htunnel h.symm
        rw [ih hflushes (by simpa [TransitTunnelParticipant.handle, htunnel, hne] using hp)]
        simp [TransitTunnelParticipant.handle, received, htunnel]

theorem forwards_of_flushes {events : List (BatchEvent I R M)} (h : Flushes events) :
    Forwards events := by
  intro t
  exact foldl_handle_eq h t (.inl rfl)

/-! ## A whole batch -/

/-- Messages are given to their own tunnels, tunnels are flushed after their last messages, and
participants forward what they get. -/
structure SoundBatch (events : List (BatchEvent I R M)) : Prop where
  resolves : Resolves events
  flushes : Flushes events
  forwards : Forwards events

/-- A batch is handled as it should be exactly when no two messages in a row for a tunnel ID with an
inbound tunnel differ in type, and no tunnel's last message comes right before a message of another
type. -/
theorem soundBatch_iff_unmixed_and_uncut (tables : TunnelTables I R)
    (msgs : List (QueuedMsg I R M)) :
    SoundBatch ((BatchState.start tables).run msgs) ↔
      Unmixed tables msgs ∧ Uncut (targets tables msgs) := by
  have hresolves : Resolves ((BatchState.start tables).run msgs) ↔ Unmixed tables msgs := by
    rw [resolves_run_iff]
    refine and_iff_right fun kind tunnelID _ _ => ?_
    simp [BatchState.select_eq, BatchState.start]
  constructor
  · rintro ⟨hres, hflushes, -⟩
    exact ⟨hresolves.mp hres, (flushes_run_iff hres).mp hflushes⟩
  · rintro ⟨hunmixed, huncut⟩
    have hres := hresolves.mpr hunmixed
    have hflushes := (flushes_run_iff hres).mpr huncut
    exact ⟨hres, hflushes, forwards_of_flushes hflushes⟩

/-- A tunnel data message for a participant, and then a build message: the participant keeps the
first message. -/
def buildAfterData : List (QueuedMsg Unit Unit Unit) :=
  [.tunnel .tunnelData 5 (), .build id]

theorem not_soundBatch_buildAfterData :
    ¬ SoundBatch ((BatchState.start ⟨fun _ => none, fun id => if id = 5 then some () else none⟩).run
      buildAfterData) := by
  intro h
  have hflushed := h.flushes.1 (.inr ()) rfl
  cases hflushed

end Tunnel
