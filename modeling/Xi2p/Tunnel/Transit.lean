import Xi2p.Lib.AssocMap
import Xi2p.Lib.Runs
import Mathlib.Tactic

/-!
# The time until the transit tunnels expire

`m_TransitTunnels` of `Tunnels`, in `core/router/tunnel/impl.cc`: the tunnels with their creation times, which
are added when a build request is accepted, and removed by `ManageTransitTunnels` every 15 seconds.

* `getTransitTunnelsExpirationTimeout`: what a graceful shutdown waits for.
* `answers_iff`: it is the longest time that is left, unless a tunnel has expired and is still there.
-/

namespace Tunnel.Transit

/-! ## Transit tunnels -/

/-- `TUNNEL_EXPIRATION_TIMEOUT`. -/
abbrev tunnelExpirationTimeout : UInt64 := 660

/-- `m_TransitTunnels`: the creation times, by tunnel ID. -/
abbrev TransitTunnels := List (UInt32 × UInt64)

/-- What happens to the transit tunnels, at times of the clock. -/
inductive Op
  /-- `AddTransitTunnel`, of a tunnel that has just been created. -/
  | addTransitTunnel (tunnelID : UInt32) (ts : UInt64)
  | manageTransitTunnels (ts : UInt64)
  /-- `Stop` deletes all of them. -/
  | stop

/-- One step. A tunnel whose ID exists is not inserted. -/
def step (tunnels : TransitTunnels) : Op → TransitTunnels
  | .addTransitTunnel tunnelID ts => AssocMap.insert UInt32.toNat tunnels tunnelID ts
  | .manageTransitTunnels ts => tunnels.filter fun tunnel => ¬ ts > tunnel.2 + tunnelExpirationTimeout
  | .stop => []

/-- The tunnels that are there after a run. -/
def run (ops : List Op) : TransitTunnels := Runs.exec step [] ops

/-- `time` in the loop of `GetTransitTunnelsExpirationTimeout`. -/
def timeLeft (timestamp : UInt64) (tunnel : UInt32 × UInt64) : UInt64 :=
  tunnel.2 + tunnelExpirationTimeout - timestamp

/-- `GetTransitTunnelsExpirationTimeout`. -/
def getTransitTunnelsExpirationTimeout (tunnels : TransitTunnels) (timestamp : UInt64) : UInt64 :=
  tunnels.foldl (fun timeout tunnel =>
    if timeLeft timestamp tunnel > timeout then timeLeft timestamp tunnel else timeout) 0

/-! ## What is asked for -/

/-- The seconds until a tunnel expires, or zero. -/
def secondsLeft (timestamp : UInt64) (tunnel : UInt32 × UInt64) : ℕ :=
  tunnel.2.toNat + tunnelExpirationTimeout.toNat - timestamp.toNat

/-- The longest of the times that are left. -/
def longest (tunnels : TransitTunnels) (timestamp : UInt64) : ℕ :=
  tunnels.foldl (fun timeout tunnel => max timeout (secondsLeft timestamp tunnel)) 0

/-- The answer is the longest time that is left, and not more than a tunnel lives. -/
def Answers (tunnels : TransitTunnels) (timestamp : UInt64) : Prop :=
  (getTransitTunnelsExpirationTimeout tunnels timestamp).toNat = longest tunnels timestamp ∧
    getTransitTunnelsExpirationTimeout tunnels timestamp ≤ tunnelExpirationTimeout

/-- The tunnel has been created, and has not expired. -/
def Alive (timestamp : UInt64) (tunnel : UInt32 × UInt64) : Prop :=
  tunnel.2 ≤ timestamp ∧ timestamp.toNat ≤ tunnel.2.toNat + tunnelExpirationTimeout.toNat

/-! ## The answer -/

variable {tunnels : TransitTunnels} {timestamp : UInt64} {tunnel : UInt32 × UInt64}

theorem foldl_max_le_iff {α : Type} (f : α → ℕ) (l : List α) (acc b : ℕ) :
    l.foldl (fun m a => max m (f a)) acc ≤ b ↔ acc ≤ b ∧ ∀ a ∈ l, f a ≤ b := by
  induction l generalizing acc with
  | nil => simp
  | cons a l ih =>
    rw [List.foldl_cons, ih, max_le_iff, List.forall_mem_cons, and_assoc]

/-- The loop takes the maximum. -/
theorem toNat_getTransitTunnelsExpirationTimeout (tunnels : TransitTunnels) (timestamp : UInt64) :
    (getTransitTunnelsExpirationTimeout tunnels timestamp).toNat =
      tunnels.foldl (fun m tunnel => max m (timeLeft timestamp tunnel).toNat) 0 := by
  suffices h : ∀ timeout : UInt64,
      (tunnels.foldl (fun timeout tunnel =>
        if timeLeft timestamp tunnel > timeout then timeLeft timestamp tunnel else timeout)
          timeout).toNat =
        tunnels.foldl (fun m tunnel => max m (timeLeft timestamp tunnel).toNat) timeout.toNat from h 0
  induction tunnels with
  | nil => exact fun _ => rfl
  | cons tunnel tunnels ih =>
    intro timeout
    have hmax : (if timeLeft timestamp tunnel > timeout then timeLeft timestamp tunnel else timeout).toNat =
        max timeout.toNat (timeLeft timestamp tunnel).toNat := by
      split_ifs with hlt
      · exact (max_eq_right (UInt64.lt_iff_toNat_lt.mp hlt).le).symm
      · exact (max_eq_left (UInt64.le_iff_toNat_le.mp (UInt64.not_lt.mp hlt))).symm
    rw [List.foldl_cons, List.foldl_cons, ih, hmax]

theorem toNat_timeLeft (timestamp : UInt64) (tunnel : UInt32 × UInt64) :
    (timeLeft timestamp tunnel).toNat =
      (tunnel.2.toNat + 660 + (UInt64.size - timestamp.toNat)) % UInt64.size := by
  rw [timeLeft, UInt64.toNat_sub, UInt64.toNat_add]
  change (UInt64.size - timestamp.toNat + (tunnel.2.toNat + 660) % UInt64.size) % UInt64.size = _
  rw [Nat.add_mod_mod, Nat.add_comm]

/-- The difference does not wrap for a tunnel that is alive. -/
theorem timeLeft_of_alive (halive : Alive timestamp tunnel) :
    (timeLeft timestamp tunnel).toNat = secondsLeft timestamp tunnel := by
  have hle := UInt64.le_iff_toNat_le.mp halive.1
  have hage : timestamp.toNat ≤ tunnel.2.toNat + 660 := halive.2
  have hlt : timestamp.toNat < UInt64.size := timestamp.toNat_lt
  have hsize : 660 < UInt64.size := by decide
  rw [toNat_timeLeft, secondsLeft]
  change _ = tunnel.2.toNat + 660 - timestamp.toNat
  rw [show tunnel.2.toNat + 660 + (UInt64.size - timestamp.toNat) =
    tunnel.2.toNat + 660 - timestamp.toNat + UInt64.size by omega, Nat.add_mod_right]
  exact Nat.mod_eq_of_lt (by omega)

/-- A tunnel is alive if the difference is small, and no smaller than the time that is left. -/
theorem alive_of_timeLeft_le {timeout : UInt64}
    (hle : (timeLeft timestamp tunnel).toNat ≤ tunnelExpirationTimeout.toNat)
    (hsize : secondsLeft timestamp tunnel ≤ timeout.toNat) : Alive timestamp tunnel := by
  have hcreated : tunnel.2.toNat < UInt64.size := tunnel.2.toNat_lt
  have hnow : timestamp.toNat < UInt64.size := timestamp.toNat_lt
  have htimeout : timeout.toNat < UInt64.size := timeout.toNat_lt
  have hconst : 660 < UInt64.size := by decide
  rw [toNat_timeLeft] at hle
  change _ ≤ 660 at hle
  change tunnel.2.toNat + 660 - timestamp.toNat ≤ timeout.toNat at hsize
  rcases Nat.lt_or_ge (tunnel.2.toNat + 660) timestamp.toNat with hexpired | hage
  · -- the difference is a negative number, and wraps
    rw [Nat.mod_eq_of_lt (by omega)] at hle
    omega
  · rw [show tunnel.2.toNat + 660 + (UInt64.size - timestamp.toNat) =
      tunnel.2.toNat + 660 - timestamp.toNat + UInt64.size by omega, Nat.add_mod_right,
      Nat.mod_eq_of_lt (by omega)] at hle
    exact ⟨UInt64.le_iff_toNat_le.mpr (by omega), hage⟩

theorem secondsLeft_le (halive : Alive timestamp tunnel) :
    secondsLeft timestamp tunnel ≤ tunnelExpirationTimeout.toNat := by
  have hle := UInt64.le_iff_toNat_le.mp halive.1
  rw [secondsLeft]
  omega

/-- In every state of a run and at every time, the answer is right if and only if all tunnels that are there
are alive. -/
theorem answers_iff (ops : List Op) (timestamp : UInt64) :
    Answers (run ops) timestamp ↔ ∀ tunnel ∈ run ops, Alive timestamp tunnel := by
  constructor
  · rintro ⟨hlongest, hle⟩ tunnel hmem
    have hle' := UInt64.le_iff_toNat_le.mp hle
    have htime := toNat_getTransitTunnelsExpirationTimeout (run ops) timestamp
    have hsize : secondsLeft timestamp tunnel ≤ longest (run ops) timestamp :=
      ((foldl_max_le_iff _ _ _ _).mp (le_refl _)).2 tunnel hmem
    rw [htime] at hle'
    exact alive_of_timeLeft_le (((foldl_max_le_iff _ _ _ _).mp hle').2 tunnel hmem) (hlongest ▸ hsize)
  · intro halive
    have heq : (getTransitTunnelsExpirationTimeout (run ops) timestamp).toNat =
        longest (run ops) timestamp := by
      rw [toNat_getTransitTunnelsExpirationTimeout, longest]
      exact List.foldl_ext _ _ _ fun m tunnel hmem => by rw [timeLeft_of_alive (halive tunnel hmem)]
    refine ⟨heq, UInt64.le_iff_toNat_le.mpr ?_⟩
    rw [heq]
    exact (foldl_max_le_iff _ _ _ _).mpr
      ⟨Nat.zero_le _, fun tunnel hmem => secondsLeft_le (halive tunnel hmem)⟩

/-- A tunnel that has expired one second ago, and has not been removed yet. -/
theorem expiredTransitTunnel : ¬ Answers (run [.addTransitTunnel 1 1000]) 1661 :=
  fun h => absurd h.2 (by decide +kernel)

end Tunnel.Transit
