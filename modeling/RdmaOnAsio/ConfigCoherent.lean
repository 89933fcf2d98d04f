import RdmaOnAsio.Ibv.Config
import RdmaOnAsio.Nd.Config

/-!
# Derivation and validation of a configuration agree

Each backend derives the fields that are left open and checks the fields that are set, in two
functions written field by field; nd filters its devices in a third. `ConfigCoherent` is what they owe
each other for one configuration, and both backends get it from the laws of their fields.
-/

namespace RdmaOnAsio

/-- Deriving `c` and checking it agree, on a device with the capabilities `cap`. A field that is left open
gets the smaller of its capability and the library's default, whatever the other fields are. -/
structure ConfigCoherent (cap : ConfigField → Option UInt32) (compatible : RdmaConfig → Bool)
    (derive : RdmaConfig → RdmaConfig) (c : RdmaConfig) : Prop where
  compatible_derive : compatible (derive c) = compatible c
  derive_derive : derive (derive c) = derive c
  preserved : ∀ f, c.get f ≠ 0 → (derive c).get f = c.get f
  operating : c.SameOperating (derive c)
  opened : ∀ f m, cap f = some m → c.get f = 0 → (derive c).get f = f.limited m
  opened_alike : ∀ f, c.get f = 0 → (derive c).get f = (derive {}).get f
  derived_le_cap : ∀ f m, cap f = some m → c.get f = 0 → (derive c).get f ≤ m
  derived_le_default : ∀ f d, f.defaultLimit = some d → c.get f = 0 → (derive c).get f ≤ d
  within : compatible c = true → AutoFields.Within cap (derive c).get

namespace ConfigCoherent

variable {cap : ConfigField → Option UInt32} {policy : ConfigField → UInt32}
  {compatible : RdmaConfig → Bool} {derive : RdmaConfig → RdmaConfig}

/-- A derivation and a check that obey the laws of the fields are coherent. The fields with a default
of the library must all have a capability, or the derivation would not apply the default. -/
theorem of_laws (hcap : ∀ f d, f.defaultLimit = some d → ∃ m, cap f = some m)
    (hget : ∀ c, (derive c).get = AutoFields.derive 0 (ConfigField.choice policy cap) c.get)
    (hop : ∀ c : RdmaConfig, c.SameOperating (derive c))
    (hcompat : ∀ c, compatible c = true ↔ AutoFields.Compatible 0 cap c.get) (c : RdmaConfig) :
    ConfigCoherent cap compatible derive c where
  compatible_derive := by
    rw [Bool.eq_iff_iff, hcompat, hcompat, hget]
    exact AutoFields.compatible_derive_iff (ConfigField.within_choice policy cap)
  derive_derive := by
    apply RdmaConfig.ext_get
    · rw [hget (derive c), hget c, AutoFields.derive_derive]
    · exact hop (derive c)
  preserved := by
    intro f hf
    rw [hget, AutoFields.derive_of_set hf]
  operating := hop c
  opened := by
    intro f m hm hf
    rw [hget, AutoFields.derive_of_unset hf, ConfigField.choice_of_cap hm]
  opened_alike := by
    intro f hf
    have hnone : (({} : RdmaConfig).get f) = 0 := by cases f <;> rfl
    rw [hget, hget, AutoFields.derive_of_unset hf, AutoFields.derive_of_unset hnone]
  derived_le_cap := by
    intro f m hm hf
    rw [hget, AutoFields.derive_of_unset hf]
    exact ConfigField.within_choice policy cap f m hm
  derived_le_default := by
    intro f d hd hf
    obtain ⟨m, hm⟩ := hcap f d hd
    rw [hget, AutoFields.derive_of_unset hf, ConfigField.choice_of_cap hm]
    exact ConfigField.limited_le_default hd
  within := by
    intro h
    rw [hget]
    exact AutoFields.within_derive (ConfigField.within_choice policy cap) ((hcompat c).1 h)

end ConfigCoherent

namespace Nd

/-- The filter and the check judge an adapter alike: a zero field is within any capability. -/
theorem isValidAdapter_some (adapter : NdAdapter) (c : RdmaConfig) :
    isValidAdapter (some adapter) c = isConfigCompatible c adapter.info := by
  rw [Bool.eq_iff_iff, isValidAdapter_some_iff, isConfigCompatible_iff]
  constructor
  · exact AutoFields.Within.compatible
  · intro h
    exact h.within fun m => UInt32.zero_le

end Nd

/-- Derivation is coherent with validation on both backends, whatever the device reports; the nd
filter agrees with the nd check, so a selected device stays compatible. -/
theorem config_coherent (c : RdmaConfig) :
    (∀ caps : Ibv.NativeDeviceAttr, ConfigCoherent caps.cap (Ibv.isConfigCompatible · caps)
      (Ibv.deriveEffectiveConfig · caps) c) ∧
    (∀ caps : Nd.NativeContextConfig, ConfigCoherent caps.cap (Nd.isConfigCompatible · caps)
      (Nd.deriveEffectiveConfig · caps) c) ∧
    (∀ adapter : Nd.NdAdapter,
      Nd.isValidAdapter (some adapter) c = Nd.isConfigCompatible c adapter.info) ∧
    ∀ (providers : List (List (Option Nd.NdAdapter))) (device : Nd.NdAdapter),
      Nd.getFirstAvailableDevice providers c = some device →
        Nd.isConfigCompatible c device.info = true := by
  refine ⟨fun caps => ?_, fun caps => ?_, fun adapter => Nd.isValidAdapter_some adapter c, ?_⟩
  · exact ConfigCoherent.of_laws (ConfigField.exists_cap rfl rfl rfl rfl rfl)
      (fun c => Ibv.get_deriveEffectiveConfig c caps)
      (fun c => Ibv.sameOperating_deriveEffectiveConfig c caps)
      (fun c => Ibv.isConfigCompatible_iff c caps) c
  · exact ConfigCoherent.of_laws (ConfigField.exists_cap rfl rfl rfl rfl rfl)
      (fun c => Nd.get_deriveEffectiveConfig c caps)
      (fun c => Nd.sameOperating_deriveEffectiveConfig c caps)
      (fun c => Nd.isConfigCompatible_iff c caps) c
  · intro providers device h
    rw [← Nd.isValidAdapter_some]
    exact Nd.isValidAdapter_of_getFirstAvailableDevice h

end RdmaOnAsio
