import VideoGateway.Vendor.Basic

/-!
# Coherent capabilities

The defaults of a coherent descriptor are values that it supports itself, and
its caps leave a duration at every resolution. All descriptors of the vendors'
tables are coherent, those that stand for unlisted models among them.
-/
namespace VideoGateway

namespace Descriptor

/-- What stands in for an unsupported value is supported. -/
structure Coherent (d : Descriptor) : Prop where
  duration : d.defaultDuration ∈ d.durations
  resolution : d.defaultResolution ∈ d.resolutions
  ratio : ∀ ratio ∈ d.defaultRatio, ratio ∈ d.ratios
  caps : ∀ entry ∈ d.durationCaps, ∃ duration ∈ d.durations, duration ≤ entry.2

theorem coherent_iff {d : Descriptor} :
    d.Coherent ↔ d.defaultDuration ∈ d.durations ∧ d.defaultResolution ∈ d.resolutions ∧
      (∀ ratio ∈ d.defaultRatio, ratio ∈ d.ratios) ∧
      ∀ entry ∈ d.durationCaps, ∃ duration ∈ d.durations, duration ≤ entry.2 :=
  ⟨fun h => ⟨h.duration, h.resolution, h.ratio, h.caps⟩,
    fun ⟨hduration, hresolution, hratio, hcaps⟩ => ⟨hduration, hresolution, hratio, hcaps⟩⟩

instance (d : Descriptor) : Decidable d.Coherent :=
  decidable_of_iff' _ coherent_iff

variable {d : Descriptor}

theorem Coherent.exists_le_cap (hd : d.Coherent) {resolution : String} {cap : Nat}
    (h : d.durationCap? resolution = some cap) : ∃ duration ∈ d.durations, duration ≤ cap := by
  obtain ⟨entry, hfind, rfl⟩ := Option.map_eq_some_iff.mp h
  exact hd.caps entry (List.mem_of_find?_eq_some hfind)

theorem Coherent.capDuration_mem (hd : d.Coherent) (resolution : String) {duration : Nat}
    (h : duration ∈ d.durations) :
    d.capDuration resolution duration ∈ d.durations ∧
      ∀ cap, d.durationCap? resolution = some cap → d.capDuration resolution duration ≤ cap := by
  unfold capDuration
  cases hcap : d.durationCap? resolution with
  | none => exact ⟨h, nofun⟩
  | some cap =>
    dsimp only
    split
    · next hle => exact ⟨h, by rintro _ ⟨⟩; exact hle⟩
    · obtain ⟨shorter, hmem, hle⟩ := hd.exists_le_cap hcap
      have hfit : shorter ∈ d.durations.filter (· ≤ cap) := by simp [hmem, hle]
      obtain ⟨longest, hlongest⟩ := Option.isSome_iff_exists.mp (List.isSome_max?_of_mem hfit)
      obtain ⟨hsupported, hwithin⟩ := List.mem_filter.mp (List.max?_mem hlongest)
      rw [hlongest, Option.getD_some]
      exact ⟨hsupported, by rintro _ ⟨⟩; simpa using hwithin⟩

end Descriptor

def CapabilityTable.Coherent (t : CapabilityTable) : Prop :=
  (∀ d ∈ t.models, d.Coherent) ∧ t.fallback.Coherent

theorem CapabilityTable.Coherent.descriptor {t : CapabilityTable} (ht : t.Coherent)
    (model : String) : (t.descriptor model).Coherent := by
  unfold CapabilityTable.descriptor
  cases hfind : t.models.find? (·.name == model) with
  | none => exact ht.2
  | some d => exact ht.1 d (List.mem_of_find?_eq_some hfind)

theorem Vendor.capabilities_coherent (v : Vendor) : v.capabilities.Coherent := by
  unfold CapabilityTable.Coherent
  cases v <;> decide

end VideoGateway
