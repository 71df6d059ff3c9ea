import Xi2p.Lib.ErasingLoop
import Xi2p.Router.RouterInfo

/-!
# IPv6 in router infos

`EnableV6` and `DisableV6` of `core/router/info.cc`. `DisableV6` erases addresses from the vector that
it walks through, and returns early if no IPv6 transport is supported, whatever the addresses are.

* `disablesV6_iff`: when no IPv6 address is left.
-/

namespace Router

open ErasingLoop

/-- `host.is_v6()`. -/
def Address.isV6 (a : Address) : Bool := !a.host.isV4

/-- `SupportedTransport::NTCPv6 | SupportedTransport::SSUv6`. -/
abbrev transportsV6 : UInt8 := supportedTransport true false ||| supportedTransport false false

namespace Contents

/-- `HasV6`. -/
def hasV6 (c : Contents) : Bool := c.supportedTransports &&& transportsV6 ≠ 0

/-- `EnableV6`. -/
def enableV6 (c : Contents) : Contents :=
  if !c.hasV6 then { c with supportedTransports := c.supportedTransports ||| transportsV6 } else c

/-- `DisableV6`. -/
def disableV6 (c : Contents) : Contents :=
  if !c.hasV6 then c
  else
    { c with
      supportedTransports := c.supportedTransports &&& ~~~(supportedTransport true false) &&&
        ~~~(supportedTransport false false)
      addresses := eraseLoop Address.isV6 c.addresses 0 }

/-- What disabling IPv6 is to achieve. -/
structure DisablesV6 (c : Contents) : Prop where
  no_v6 : ∀ a ∈ c.disableV6.addresses, a.isV6 = false
  /-- The other addresses are those that there were, in their order. -/
  others : c.disableV6.addresses.filter (!·.isV6) = c.addresses.filter (!·.isV6)
  ntcp : c.disableV6.supportedTransports &&& supportedTransport true false = 0
  ssu : c.disableV6.supportedTransports &&& supportedTransport false false = 0
  idempotent : c.disableV6.disableV6 = c.disableV6

theorem and_transportsV6 (bits : UInt8) :
    bits &&& transportsV6 = 0 ↔
      bits &&& supportedTransport true false = 0 ∧ bits &&& supportedTransport false false = 0 := by
  have hall : ∀ bits : Fin 256, UInt8.ofNat bits &&& transportsV6 = 0 ↔
      UInt8.ofNat bits &&& supportedTransport true false = 0 ∧
        UInt8.ofNat bits &&& supportedTransport false false = 0 := by decide +kernel
  simpa using hall ⟨bits.toNat, bits.toNat_lt⟩

theorem hasV6_enableV6 (c : Contents) : c.enableV6.hasV6 = true := by
  have hall : ∀ bits : Fin 256, (UInt8.ofNat bits ||| transportsV6) &&& transportsV6 ≠ 0 := by
    decide +kernel
  rw [enableV6]
  split
  · exact decide_eq_true (by simpa using hall ⟨c.supportedTransports.toNat, UInt8.toNat_lt _⟩)
  next h => simpa using h

/-- No IPv6 transport is left. -/
theorem hasV6_disableV6 (c : Contents) : c.disableV6.hasV6 = false := by
  have hall : ∀ bits : Fin 256, UInt8.ofNat bits &&& ~~~(supportedTransport true false) &&&
      ~~~(supportedTransport false false) &&& transportsV6 = 0 := by decide +kernel
  rw [disableV6]
  split
  next h => simpa using h
  next =>
    rw [hasV6]
    simpa using hall ⟨c.supportedTransports.toNat, UInt8.toNat_lt _⟩

theorem addresses_disableV6 (c : Contents) :
    c.disableV6.addresses = if c.hasV6 then survivors Address.isV6 c.addresses else c.addresses := by
  rw [disableV6]
  cases c.hasV6 with
  | true => exact eraseLoop_zero _ _
  | false => rfl

/-- `DisableV6` does what it should if no two IPv6 addresses stand next to each other and, where no
IPv6 transport is supported, there is no such address at all. -/
theorem disablesV6_iff (c : Contents) :
    c.DisablesV6 ↔ if c.hasV6 then Scattered Address.isV6 c.addresses
      else ∀ a ∈ c.addresses, a.isV6 = false := by
  have hbits : c.disableV6.supportedTransports &&& transportsV6 = 0 := by
    have h := c.hasV6_disableV6
    simpa [hasV6] using h
  obtain ⟨hntcp, hssu⟩ := (and_transportsV6 _).mp hbits
  -- the transports are no longer supported, so a second call returns at once
  have hagain : c.disableV6.disableV6 = c.disableV6 := by
    rw [disableV6, hasV6_disableV6]
    rfl
  have hothers : c.disableV6.addresses.filter (!·.isV6) = c.addresses.filter (!·.isV6) := by
    rw [addresses_disableV6]
    split
    · exact filter_survivors _ _
    · rfl
  have hno : (∀ a ∈ c.disableV6.addresses, a.isV6 = false) ↔ if c.hasV6 then
      Scattered Address.isV6 c.addresses else ∀ a ∈ c.addresses, a.isV6 = false := by
    rw [addresses_disableV6]
    cases c.hasV6 with
    | true => exact forall_survivors_iff _ _
    | false => rfl
  rw [← hno]
  exact ⟨fun h => h.no_v6, fun h => ⟨h, hothers, hntcp, hssu, hagain⟩⟩

/-- An NTCP and an SSU address with the same IPv6 host. -/
def doubleV6Info : Contents where
  addresses := [{ transport := .ntcp, host := .v6 (.const 1) }, { transport := .ssu, host := .v6 (.const 1) }]
  supportedTransports := transportsV6

/-- The second one is left. -/
theorem not_disablesV6_doubleV6Info : ¬ doubleV6Info.DisablesV6 := by
  intro h
  have haddresses : doubleV6Info.disableV6.addresses = [{ transport := .ssu, host := .v6 (.const 1) }] := by
    rw [addresses_disableV6]
    rfl
  have hnone := h.no_v6
  rw [haddresses] at hnone
  exact absurd (hnone _ List.mem_cons_self) (by decide)

end Contents

end Router
