import RemoteScreen.Session

namespace RemoteScreen

theorem Session.isNamed_iff {s : Session} {identity : Identity} {nonce : UInt32} :
    s.isNamed identity nonce ↔ s.identity = identity ∧ s.nonce = nonce := by
  simp [isNamed]

namespace SessionTable

variable {t t' : SessionTable} {s : Session} {identity : Identity} {nonce : UInt32} {now : UInt64}
  {started : Started}

theorem mem_active : s ∈ t.active ↔ ∃ i : Nat, t.slots[i]? = some (some s) := by
  rw [active, List.mem_filterMap]
  simp only [id_eq, exists_eq_right]
  exact List.mem_iff_getElem?

-- No two slots hold sessions of the same name.
def Distinct (t : SessionTable) : Prop :=
  ∀ (i j : Nat) (s s' : Session), t.slots[i]? = some (some s) → t.slots[j]? = some (some s') →
    s'.isNamed s.identity s.nonce → i = j

theorem Distinct.pairwise (h : t.Distinct) :
    t.active.Pairwise fun s s' => ¬ s'.isNamed s.identity s.nonce := by
  rw [active, List.pairwise_filterMap, List.pairwise_iff_getElem]
  intro i j hi hj hl s hs s' hs' hn
  have hi : t.slots[i]? = some (some s) := by
    rw [List.getElem?_eq_getElem hi, ← hs, id]
  have hj : t.slots[j]? = some (some s') := by
    rw [List.getElem?_eq_getElem hj, ← hs', id]
  exact Nat.ne_of_lt hl <| h i j s s' hi hj hn

-- A name is answered to by one session at most.
theorem Distinct.length_named (h : t.Distinct) (identity : Identity) (nonce : UInt32) :
    (t.active.filter (·.isNamed identity nonce)).length ≤ 1 := by
  have hp := h.pairwise.filter (·.isNamed identity nonce)
  have named {s : Session} (hs : s ∈ t.active.filter (·.isNamed identity nonce)) :
      s.identity = identity ∧ s.nonce = nonce :=
    Session.isNamed_iff.mp (List.mem_filter.mp hs).right
  generalize t.active.filter (·.isNamed identity nonce) = left at hp named
  match left with
  | [] | [_] => simp
  | s :: s' :: _ =>
    have hs := named (.head _)
    have hs' := named (.tail _ (.head _))
    have hn := (List.pairwise_cons.mp hp).left s' (.head _)
    rw [hs.left, hs.right, Session.isNamed_iff] at hn
    exact absurd hs' hn

theorem distinct_of_active_eq_nil (h : t.active = []) : t.Distinct := by
  intro i _ s _ hi
  have hm := mem_active.mpr ⟨i, hi⟩
  rw [h] at hm
  contradiction

theorem mem_of_find? (h : t.find? identity nonce = some s) :
    s ∈ t.active ∧ s.isNamed identity nonce := by
  have hn := List.find?_some h
  exact ⟨List.mem_of_find?_eq_some h, hn⟩

-- What is started goes to the one slot that has its name, or to an empty one if none has.
theorem start_eq_ok (hd : t.Distinct) (h : t.start identity nonce now = .ok (started, t')) :
    ∃ i, t'.slots = t.slots.set i (some ⟨identity, nonce, now⟩) ∧
      ∀ (j : Nat) (s : Session),
        t.slots[j]? = some (some s) → s.isNamed identity nonce → i = j := by
  rw [start] at h
  split at h
  case h_1 i hi =>
    injection h with h
    injection h with _ h
    refine ⟨i, h ▸ rfl, fun j s hj hn => ?_⟩
    have ⟨hl, hs, _⟩ := List.findIdx?_eq_some_iff_getElem.mp hi
    have ⟨s', hs', hn'⟩ := (Option.any_eq_true _ _).mp hs
    have ⟨ha, hb⟩ := Session.isNamed_iff.mp hn'
    refine hd i j s' s ?_ hj (ha ▸ hb ▸ hn)
    rw [List.getElem?_eq_getElem hl, hs']
  case h_2 hi =>
    split at h
    case h_2 => contradiction
    case h_1 i _ =>
      injection h with h
      injection h with _ h
      refine ⟨i, h ▸ rfl, fun j s hj hn => ?_⟩
      have hf := List.findIdx?_eq_none_iff.mp hi (some s) (List.mem_of_getElem? hj)
      simp [hn] at hf

theorem mem_active_start (hd : t.Distinct) (h : t.start identity nonce now = .ok (started, t'))
    (hs : s ∈ t'.active) :
    s = ⟨identity, nonce, now⟩ ∨ s ∈ t.active ∧ ¬ s.isNamed identity nonce := by
  have ⟨i, ht, ho⟩ := start_eq_ok hd h
  have ⟨j, hj⟩ := mem_active.mp hs
  rw [ht, List.getElem?_set] at hj
  split at hj
  case isTrue =>
    split at hj
    case isTrue  => exact .inl (Option.some.inj (Option.some.inj hj)).symm
    case isFalse => contradiction
  case isFalse hij => exact .inr ⟨mem_active.mpr ⟨j, hj⟩, fun hn => hij (ho j s hj hn)⟩

theorem Distinct.start (hd : t.Distinct) (h : t.start identity nonce now = .ok (started, t')) :
    t'.Distinct := by
  have ⟨i, ht, ho⟩ := start_eq_ok hd h
  have old {j : Nat} {s : Session} (hj : t'.slots[j]? = some (some s)) (hij : i ≠ j) :
      t.slots[j]? = some (some s) := by
    rw [ht, List.getElem?_set_ne hij] at hj
    exact hj
  have new {s : Session} (hi : t'.slots[i]? = some (some s)) : s = ⟨identity, nonce, now⟩ := by
    rw [ht, List.getElem?_set_self'] at hi
    have ⟨_, _, hs⟩ := Option.map_eq_some_iff.mp hi
    exact (Option.some.inj hs).symm
  intro j k s s' hj hk hn
  by_cases hij : i = j
  case pos =>
    subst hij
    by_cases hik : i = k
    case pos => exact hik
    case neg =>
      rw [new hj] at hn
      exact absurd (ho k s' (old hk hik) hn) hik
  case neg =>
    have hj := old hj hij
    by_cases hik : i = k
    case neg => exact hd j k s s' hj (old hk hik) hn
    case pos =>
      subst hik
      rw [new hk] at hn
      have ⟨ha, hb⟩ := Session.isNamed_iff.mp hn
      exact absurd (ho j s hj <| Session.isNamed_iff.mpr ⟨ha.symm, hb.symm⟩) hij

variable {lifetime : UInt64}

theorem getElem?_reap {i : Nat} :
    (t.reap now lifetime).2.slots[i]? = some (some s) ↔
      t.slots[i]? = some (some s) ∧ ¬ s.isExpired now lifetime := by
  rw [reap, List.getElem?_map]
  cases ht : t.slots[i]?
  case none => simp
  case some slot =>
    cases slot
    case none => simp [isStale]
    case some s' =>
      by_cases hx : s'.isExpired now lifetime
      case pos =>
        have hs : s' = s → s.isExpired now lifetime := fun he => he ▸ hx
        simpa [isStale, hx] using hs
      case neg =>
        have hs : s' = s → ¬ s.isExpired now lifetime := fun he => he ▸ hx
        simpa [isStale, hx] using hs

theorem mem_active_reap :
    s ∈ (t.reap now lifetime).2.active ↔ s ∈ t.active ∧ ¬ s.isExpired now lifetime := by
  simp only [mem_active, getElem?_reap, exists_and_right]

theorem Distinct.reap (hd : t.Distinct) : (t.reap now lifetime).2.Distinct :=
  fun i j s s' hi hj => hd i j s s' (getElem?_reap.mp hi).left (getElem?_reap.mp hj).left

end SessionTable

end RemoteScreen
