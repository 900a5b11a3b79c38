import PoolWatch.Settings.Json

/-!
# Settings through JSON

All settings can be given as JSON: laid over the defaults, what is written of them is read back.
-/

namespace PoolWatch.Settings

/-! ## Numbers -/

theorem readWhole_word {kind : SettingKind} {limit : Nat} (n : UInt64) (h : n.toNat ≤ limit) :
    readWhole kind limit (.number (.ofUInt64 n)) = .ok n.toNat := by
  simp [readWhole, Number.ofUInt64, h]

theorem read64_word (kind : SettingKind) (n : UInt64) :
    read64 kind (.number (.ofUInt64 n)) = .ok n := by
  have hlimit : n.toNat ≤ 1 <<< 64 - 1 := by
    have hlt := n.toNat_lt
    omega
  unfold read64
  rw [readWhole_word n hlimit]
  simp

theorem readPort_word (n : UInt16) : readPort (.number (.ofUInt64 n.toUInt64)) = .ok n := by
  have hlimit : n.toUInt64.toNat ≤ 65535 := by
    have hlt := n.toNat_lt
    rw [UInt16.toNat_toUInt64]
    omega
  simp [readPort, readWhole_word _ hlimit]

/-! ## Sections -/

-- Each name stands once and in its place, so every member of the defaults gives way to the new one.
theorem overlay_default (s : Settings) : overlay default.toJson s.toJson = s.toJson := by
  cases hrelay : s.gateway.relayUrl <;>
    simp only [toJson, overlay, overlayMembers, Json.insertMember, List.lookup_cons, hrelay,
      default, Option.toList_none, Option.toList_some, List.map_nil, List.map_cons,
      List.nil_append, List.cons_append, String.reduceLT, String.reduceEq, String.reduceBEq,
      if_true, if_false, Option.getD_some]

/-- What is written of settings is read back. The address of a relay that is not written is
unset. -/
theorem ofJson_toJson (s : Settings) : ofJson s.toJson = .ok s := by
  have hunset : default.gateway.relayUrl = none := rfl
  obtain ⟨monitor, ⟨relayUrl, userAgent⟩, relay⟩ := s
  rw [ofJson, overlay_default]
  cases relayUrl <;>
    simp [toJson, readSection, fields, field, readMembers, monitorFields, gatewayFields,
      relayFields, readText, readOptionalText, List.lookup_cons, read64_word, readPort_word, hunset]

end PoolWatch.Settings
