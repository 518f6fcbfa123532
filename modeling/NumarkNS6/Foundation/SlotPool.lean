import Mathlib.Data.List.Nodup
import Mathlib.Data.List.Perm.Subperm

namespace NumarkNS6.Foundation.SlotPool

variable {flags : List Bool} {held : List ℕ} {i k : ℕ}

/-- The flags that are set are those of the slots held, each of them held once. -/
structure Tracks (flags : List Bool) (held : List ℕ) : Prop where
  nodup : held.Nodup
  mem : ∀ i, i ∈ held ↔ flags[i]? = some true

namespace Tracks

theorem lt (h : Tracks flags held) (hi : i ∈ held) : i < flags.length :=
  (List.getElem?_eq_some_iff.mp ((h.mem i).mp hi)).1

theorem length_le (h : Tracks flags held) : held.length ≤ flags.length := by
  have hsub : held ⊆ List.range flags.length := fun _ hi ↦ List.mem_range.mpr (h.lt hi)
  simpa only [List.length_range] using (List.subperm_of_subset h.nodup hsub).length_le

theorem exists_free (h : Tracks flags held) (hlt : held.length < flags.length) :
    ∃ i : ℕ, flags[i]? = some false := by
  by_contra hnone
  have hsub : List.range flags.length ⊆ held := by
    intro i hi
    obtain ⟨b, hb⟩ : ∃ b, flags[i]? = some b :=
      ⟨_, List.getElem?_eq_getElem (List.mem_range.mp hi)⟩
    cases b with
    | true => exact (h.mem i).mpr hb
    | false => exact absurd ⟨i, hb⟩ hnone
  have hle := (List.subperm_of_subset List.nodup_range hsub).length_le
  rw [List.length_range] at hle
  omega

theorem none_held (n : ℕ) : Tracks (List.replicate n false) [] := by
  refine ⟨List.nodup_nil, fun i ↦ ?_⟩
  rw [List.getElem?_replicate]
  split <;> simp

theorem perm {held' : List ℕ} (h : Tracks flags held) (hp : held'.Perm held) : Tracks flags held' :=
  ⟨hp.nodup_iff.mpr h.nodup, fun i ↦ hp.mem_iff.trans (h.mem i)⟩

theorem acquire (h : Tracks flags held) (hi : flags[i]? = some false) :
    Tracks (flags.set i true) (held ++ [i]) := by
  have hfree : i ∉ held := by
    intro hmem
    simp [(h.mem i).mp hmem] at hi
  have hlt : i < flags.length := (List.getElem?_eq_some_iff.mp hi).1
  constructor
  · rw [List.nodup_append]
    refine ⟨h.nodup, List.nodup_singleton i, ?_⟩
    intro a ha b hb hab
    exact hfree (List.mem_singleton.mp hb ▸ hab ▸ ha)
  · intro j
    rw [List.mem_append, List.mem_singleton, List.getElem?_set, h.mem j]
    by_cases hij : i = j
    · simp [hij, hij ▸ hlt]
    · simp [hij, Ne.symm hij]

theorem release (h : Tracks flags held) (hk : held[k]? = some i) :
    Tracks (flags.set i false) (held.eraseIdx k) := by
  have hlt : i < flags.length := h.lt (List.mem_of_getElem? hk)
  have herase : held.eraseIdx k = held.erase i := by
    obtain ⟨hlen, rfl⟩ := List.getElem?_eq_some_iff.mp hk
    exact (h.nodup.erase_getElem k hlen).symm
  refine ⟨herase ▸ h.nodup.erase i, fun j ↦ ?_⟩
  rw [herase, h.nodup.mem_erase_iff, List.getElem?_set, h.mem j]
  by_cases hij : i = j
  · simp [hij, hij ▸ hlt]
  · simp [hij, Ne.symm hij]

end Tracks

end NumarkNS6.Foundation.SlotPool
