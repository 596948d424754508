import Mathlib.Data.List.Basic
import RemoteScreen.Routes

namespace RemoteScreen.Routes

variable {r : Routes} {identity : Identity} {address : Address}

-- All slots of the ring are there, and one of them is next.
structure WellFormed (r : Routes) : Prop where
  slots : r.slots.length = routeSlots
  next  : r.next < routeSlots

theorem wellFormed_empty : WellFormed {} :=
  ⟨List.length_replicate, by decide⟩

theorem WellFormed.learn (h : r.WellFormed) (identity : Identity) (address : Address) :
    (r.learn identity address).WellFormed := by
  rw [Routes.learn]
  split
  case h_1 => exact ⟨List.length_set.trans h.slots, h.next⟩
  case h_2 => exact ⟨List.length_set.trans h.slots, Nat.mod_lt _ (by decide)⟩

-- An entry is found if no slot before it has the same station.
theorem lookup?_set {i : Nat} (hi : i < r.slots.length)
    (h : ∀ (j : Nat) (hj : j < i), ¬ r.slots[j].any (·.identity = identity)) (next : Nat) :
    lookup? ⟨r.slots.set i (some ⟨identity, address⟩), next⟩ identity = some address := by
  have hf : (r.slots.set i (some ⟨identity, address⟩)).find? (·.any (·.identity = identity))
      = some (some ⟨identity, address⟩) := by
    rw [List.find?_eq_some_iff_getElem]
    refine ⟨by simp, i, by simpa using hi, by simp, fun j hj => ?_⟩
    have hb := h j hj
    rw [List.getElem_set_ne (Nat.ne_of_gt hj)]
    simpa using hb
  rw [lookup?, known, List.find?_filterMap]
  simp only [id_eq]
  rw [hf]
  rfl

-- What was learned last is known, whatever was there before and however full the ring is.
theorem WellFormed.lookup?_learn (h : r.WellFormed) (identity : Identity) (address : Address) :
    (r.learn identity address).lookup? identity = some address := by
  rw [Routes.learn]
  split
  case h_1 hs =>
    have ⟨hi, _, hb⟩ := List.findIdx?_eq_some_iff_getElem.mp hs
    exact lookup?_set hi hb r.next
  case h_2 hs =>
    have hn := List.findIdx?_eq_none_iff.mp hs
    refine lookup?_set (h.slots ▸ h.next) (fun j hj => ?_) _
    simp [hn _ (List.getElem_mem _)]

end RemoteScreen.Routes
