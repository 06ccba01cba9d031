import NorFlash.Register

/-!
# Register fields

What a writer stores in a field of a register is what its reader finds there.
-/

namespace NorFlash

/-- A property of bytes holds of every byte if it holds of the 256 of them. -/
theorem forall_byte {p : UInt8 → Prop} (h : ∀ number : Fin 256, p (UInt8.ofFin number))
    (value : UInt8) : p value :=
  h value.toFin

/-- The high four bits of a byte, with any low ones. -/
theorem shiftRight_field {high : UInt8} (low : UInt8) (h : high.toNat < 16) :
    (low &&& (0x0F : UInt8) ||| high <<< (4 : UInt8)) >>> 4 = high := by
  apply UInt8.toNat_inj.mp
  have hlow : (low.toNat &&& 15) >>> 4 = 0 := by
    rw [Nat.shiftRight_eq_div_pow]
    exact Nat.div_eq_of_lt (Nat.lt_succ_of_le Nat.and_le_right)
  have hhigh : high.toNat <<< 4 % 256 = high.toNat <<< 4 := by
    rw [Nat.shiftLeft_eq]
    omega
  simp [hhigh, Nat.shiftRight_or_distrib, hlow]

/-- Quad enable is as it was set. -/
theorem Status2.quadEnabled_withQuadEnable (register : Status2) (enabled : Bool) :
    (register.withQuadEnable enabled).quadEnabled = enabled := by
  have hall : ∀ value : UInt8, ∀ enabled : Bool,
      (withQuadEnable ⟨value⟩ enabled).quadEnabled = enabled :=
    forall_byte (by decide +kernel)
  exact hall register.value enabled

/-- The protocol is as it was set. -/
theorem EnhancedConfig.quadProtocol_withQuadProtocol (register : EnhancedConfig) (quad : Bool) :
    (register.withQuadProtocol quad).quadProtocol = quad := by
  have hall : ∀ value : UInt8, ∀ quad : Bool,
      (withQuadProtocol ⟨value⟩ quad).quadProtocol = quad :=
    forall_byte (by decide +kernel)
  exact hall register.value quad

/-- A volatile configuration for so many dummy cycles has so many. -/
theorem VolatileConfig.dummyCycles_of_withDummyCycles? {register changed : VolatileConfig}
    {cycles : UInt8} (h : register.withDummyCycles? cycles = some changed) :
    changed.dummyCycles = cycles := by
  unfold withDummyCycles? at h
  split at h
  · rename_i hcycles
    obtain rfl := Option.some.inj h
    have hbound := UInt8.le_iff_toNat_le.mp hcycles.2
    exact shiftRight_field register.value (Nat.lt_of_le_of_lt hbound (by decide))
  · simp at h

end NorFlash
