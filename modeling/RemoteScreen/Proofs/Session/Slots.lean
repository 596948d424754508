import RemoteScreen.Proofs.Engine.Sessions

namespace RemoteScreen.SessionTable

variable {t : SessionTable} {s : Session} {identity : Identity} {nonce : UInt32}
  {now lifetime : UInt64} {i j : Nat}

-- The slot has a session of this name.
def Holds (t : SessionTable) (i : Nat) (identity : Identity) (nonce : UInt32) : Prop :=
  ∃ s, t.slots[i]? = some (some s) ∧ s.isNamed identity nonce

-- No slot has a session of this name.
def Lacks (t : SessionTable) (identity : Identity) (nonce : UInt32) : Prop :=
  ∀ i, ¬ t.Holds i identity nonce

-- No slot is empty.
def Full (t : SessionTable) : Prop :=
  ∀ i : Nat, t.slots[i]? ≠ some none

-- The slot is the first of those that are empty.
structure Vacancy (t : SessionTable) (i : Nat) : Prop where
  empty : t.slots[i]? = some none
  first : ∀ j < i, t.slots[j]? ≠ some none

theorem Vacancy.unique (h : t.Vacancy i) (h' : t.Vacancy j) : i = j := by
  apply Nat.le_antisymm
  · exact Nat.le_of_not_lt fun hl => h.first j hl h'.empty
  · exact Nat.le_of_not_lt fun hl => h'.first i hl h.empty

theorem holds_of_slotOf? (h : t.slotOf? identity nonce = some i) : t.Holds i identity nonce := by
  have ⟨hl, hs, _⟩ := List.findIdx?_eq_some_iff_getElem.mp h
  have ⟨s, hs, hn⟩ := (Option.any_eq_true _ _).mp hs
  exact ⟨s, by simp [hl, hs], hn⟩

theorem lacks_of_slotOf? (h : t.slotOf? identity nonce = none) : t.Lacks identity nonce := by
  intro i ⟨s, hs, hn⟩
  have := List.findIdx?_eq_none_iff.mp h (some s) (List.mem_of_getElem? hs)
  simp [hn] at this

theorem vacancy_of_vacancy? (h : t.vacancy? = some i) : t.Vacancy i := by
  have ⟨hl, hs, hj⟩ := List.findIdx?_eq_some_iff_getElem.mp h
  refine ⟨?empty, fun j hij hn => ?first⟩
  case empty => simpa [hl] using hs
  case first =>
    have ⟨_, hn⟩ := List.getElem?_eq_some_iff.mp hn
    simpa [hn] using hj j hij

theorem full_of_vacancy? (h : t.vacancy? = none) : t.Full := by
  intro i hs
  have := List.findIdx?_eq_none_iff.mp h none (List.mem_of_getElem? hs)
  contradiction

theorem find?_eq_none_iff : t.find? identity nonce = none ↔ t.Lacks identity nonce := by
  simp only [find?, List.find?_eq_none, Lacks, Holds, mem_active]
  exact ⟨fun h i ⟨s, hs, hn⟩ => h s ⟨i, hs⟩ hn, fun h s ⟨i, hs⟩ hn => h i ⟨s, hs, hn⟩⟩

-- What a request for a session can come to. These are all there is.
theorem start_cases (t : SessionTable) (identity : Identity) (nonce : UInt32) (now : UInt64) :
    (∃ i, t.Holds i identity nonce ∧
      t.start identity nonce now
        = .ok (.refreshed, ⟨t.slots.set i (some ⟨identity, nonce, now⟩)⟩)) ∨
    (∃ i, t.Lacks identity nonce ∧ t.Vacancy i ∧
      t.start identity nonce now
        = .ok (.created, ⟨t.slots.set i (some ⟨identity, nonce, now⟩)⟩)) ∨
    (t.Lacks identity nonce ∧ t.Full ∧
      t.start identity nonce now = .error (.tableFull t.capacity)) := by
  cases hs : t.slotOf? identity nonce
  case some i => exact .inl ⟨i, holds_of_slotOf? hs, by simp [start, hs]⟩
  case none =>
    have lacks := lacks_of_slotOf? hs
    cases hv : t.vacancy?
    case some i =>
      exact .inr <| .inl ⟨i, lacks, vacancy_of_vacancy? hv, by simp [start, hs, hv]⟩
    case none =>
      exact .inr <| .inr ⟨lacks, full_of_vacancy? hv, by simp [start, hs, hv]⟩

theorem mem_active_of_start {started : Started} {t' : SessionTable}
    (h : t.start identity nonce now = .ok (started, t')) : ⟨identity, nonce, now⟩ ∈ t'.active := by
  have written {i : Nat} {s : Session} {slot : Option Session} (hi : t.slots[i]? = some slot) :
      s ∈ active ⟨t.slots.set i (some s)⟩ := by
    have ⟨hl, _⟩ := List.getElem?_eq_some_iff.mp hi
    exact mem_active.mpr ⟨i, by simp [hl]⟩
  obtain ⟨i, ⟨s, hs, _⟩, ht⟩ | ⟨i, _, vacancy, ht⟩ | ⟨_, _, ht⟩ := t.start_cases identity nonce now
    <;> rw [ht] at h <;> cases h
  case inl     => exact written hs
  case inr.inl => exact written vacancy.empty

-- No session goes from the table for one of another name.
theorem mem_active_of_start_ne {started : Started} {t' : SessionTable}
    (h : t.start identity nonce now = .ok (started, t')) (hs : s ∈ t.active)
    (hn : ¬ s.isNamed identity nonce) : s ∈ t'.active := by
  have ⟨j, hj⟩ := mem_active.mp hs
  have spared {i : Nat} {s' : Session} (hi : t.slots[i]? ≠ some (some s)) :
      s ∈ active ⟨t.slots.set i (some s')⟩ := by
    have hij : i ≠ j := fun he => hi (he ▸ hj)
    exact mem_active.mpr ⟨j, by simp [hij, hj]⟩
  obtain ⟨i, ⟨s', hs', hn'⟩, ht⟩ | ⟨i, _, vacancy, ht⟩ | ⟨_, _, ht⟩ :=
    t.start_cases identity nonce now <;> rw [ht] at h <;> cases h
  case inl     => exact spared fun hi => hn <| by simp_all
  case inr.inl => exact spared fun hi => by simp [vacancy.empty] at hi

theorem Distinct.holds_unique (hd : t.Distinct) (h : t.Holds i identity nonce)
    (h' : t.Holds j identity nonce) : i = j := by
  have ⟨s, hs, hn⟩ := h
  have ⟨s', hs', hn'⟩ := h'
  have ⟨hi, hn⟩ := Session.isNamed_iff.mp hn
  exact hd i j s s' hs hs' (hi ▸ hn ▸ hn')

-- What a request for a session comes to, by what is in the table.
structure Answers (t : SessionTable) (identity : Identity) (nonce : UInt32) (now : UInt64) :
    Prop where
  refreshed : ∀ (i : Nat) (s : Session), t.slots[i]? = some (some s) → s.isNamed identity nonce →
    t.start identity nonce now
      = .ok (.refreshed, ⟨t.slots.set i (some { s with lastActivity := now })⟩)
  created   : ∀ i, t.Lacks identity nonce → t.Vacancy i →
    t.start identity nonce now
      = .ok (.created, ⟨t.slots.set i (some ⟨identity, nonce, now⟩)⟩)
  refused   : t.Lacks identity nonce → t.Full →
    t.start identity nonce now = .error (.tableFull t.capacity)

theorem Distinct.answers (hd : t.Distinct) (identity : Identity) (nonce : UInt32)
    (now : UInt64) : t.Answers identity nonce now := by
  obtain ⟨i, holds, hs⟩ | ⟨i, lacks, vacancy, hs⟩ | ⟨lacks, full, hs⟩ :=
    t.start_cases identity nonce now
  case inl =>
    refine ⟨fun j s hj hn => ?_, fun _ lacks => absurd holds (lacks i),
      fun lacks => absurd holds (lacks i)⟩
    have hi : i = j := hd.holds_unique holds ⟨s, hj, hn⟩
    have ⟨ha, hb⟩ := Session.isNamed_iff.mp hn
    rw [hs, hi, ha, hb]
  case inr.inl =>
    refine ⟨fun j s hj hn => absurd ⟨s, hj, hn⟩ (lacks j), fun j _ vacancy' => ?_,
      fun _ full => absurd vacancy.empty (full i)⟩
    rw [hs, vacancy.unique vacancy']
  case inr.inr =>
    exact ⟨fun j s hj hn => absurd ⟨s, hj, hn⟩ (lacks j),
      fun j _ vacancy => absurd vacancy.empty (full j), fun _ _ => hs⟩

-- What reaping leaves, and what it says that it cleared.
structure Reaps (t : SessionTable) (now lifetime : UInt64) (count : Nat) (t' : SessionTable) :
    Prop where
  clears : ∀ (i : Nat) (s : Session), t.slots[i]? = some (some s) →
    lifetime < now - s.lastActivity → t'.slots[i]? = some none
  spares : ∀ i : Nat,
    (∀ s : Session, t.slots[i]? = some (some s) → ¬ lifetime < now - s.lastActivity) →
    t'.slots[i]? = t.slots[i]?
  counts : count + t'.activeCount = t.activeCount
  again  : t'.reap now lifetime = (0, t')

theorem countP_stale_add (slots : List (Option Session)) :
    slots.countP (isStale now lifetime) +
      ((slots.map fun slot => if isStale now lifetime slot then none else slot).filterMap id).length
      = (slots.filterMap id).length := by
  induction slots
  case nil => rfl
  case cons slot rest hi =>
    cases slot
    case none => simpa [isStale] using hi
    case some s =>
      by_cases hx : s.isExpired now lifetime
      case pos => simp [isStale, hx] at hi ⊢; omega
      case neg => simp [isStale, hx] at hi ⊢; omega

theorem stale_of_reaped {slot : Option Session} (h : slot ∈ (t.reap now lifetime).2.slots) :
    isStale now lifetime slot = false := by
  have ⟨slot', _, hs⟩ := List.mem_map.mp h
  rw [← hs]
  split
  · rfl
  · rename_i h
    exact Bool.eq_false_iff.mpr h

theorem reaps_reap (t : SessionTable) (now lifetime : UInt64) :
    t.Reaps now lifetime (t.reap now lifetime).1 (t.reap now lifetime).2 where
  clears i s hs hx := by
    have hx : s.isExpired now lifetime := by simpa [Session.isExpired] using hx
    simp [reap, hs, isStale, hx]
  spares i h := by
    cases hs : t.slots[i]?
    case none => simp [reap, hs]
    case some slot =>
      cases slot
      case none => simp [reap, hs]
      case some s =>
        have hx := h s hs
        simp [reap, hs, isStale, Session.isExpired, hx]
  counts := countP_stale_add t.slots
  again := by
    have hf : ∀ slot ∈ (t.reap now lifetime).2.slots, isStale now lifetime slot = false :=
      fun _ => stale_of_reaped
    have hc : (t.reap now lifetime).2.slots.countP (isStale now lifetime) = 0 :=
      List.countP_eq_zero.mpr fun slot h => by simp [hf slot h]
    have hm : (t.reap now lifetime).2.slots.map
        (fun slot => if isStale now lifetime slot then none else slot)
          = (t.reap now lifetime).2.slots :=
      (List.map_congr_left fun slot h => by simp [hf slot h]).trans <| List.map_id _
    rw [reap, hc, hm]

inductive Event
  | start (identity : Identity) (nonce : UInt32) (now : UInt64)
  | reap (now lifetime : UInt64)

def step (t : SessionTable) : Event → SessionTable
  | .start identity nonce now =>
    match t.start identity nonce now with
    | .ok (_, t) => t
    | .error _ => t
  | .reap now lifetime => (t.reap now lifetime).2

def run (t : SessionTable) (events : List Event) : SessionTable :=
  events.foldl step t

theorem capacity_step (t : SessionTable) (event : Event) :
    (t.step event).capacity = t.capacity := by
  cases event
  case start identity nonce now =>
    obtain ⟨i, _, hs⟩ | ⟨i, _, _, hs⟩ | ⟨_, _, hs⟩ := t.start_cases identity nonce now <;>
      simp [step, hs, capacity]
  case reap => simp [step, reap, capacity]

theorem Distinct.step (hd : t.Distinct) (event : Event) : (t.step event).Distinct := by
  cases event
  case start identity nonce now =>
    rw [SessionTable.step]
    split
    · rename_i hs
      exact hd.start hs
    · exact hd
  case reap => exact hd.reap

-- No reaping among the events finds the session in the slot idle for too long.
def Outlives (t : SessionTable) (i : Nat) : List Event → Prop
  | [] => True
  | .start identity nonce now :: rest => (t.step (.start identity nonce now)).Outlives i rest
  | .reap now lifetime :: rest =>
    (∀ s, t.slots[i]? = some (some s) → ¬ lifetime < now - s.lastActivity) ∧
      (t.step (.reap now lifetime)).Outlives i rest

-- A slot that is taken is written to only for the session that is in it.
theorem Holds.start (h : t.Holds i identity nonce) (identity' : Identity) (nonce' : UInt32)
    (now : UInt64) : (t.step (.start identity' nonce' now)).Holds i identity nonce := by
  have ⟨s, hs, hn⟩ := h
  obtain ⟨j, holds, ht⟩ | ⟨j, _, vacancy, ht⟩ | ⟨_, _, ht⟩ :=
    t.start_cases identity' nonce' now <;> rw [step, ht]
  case inl =>
    by_cases hij : j = i
    case neg => exact ⟨s, by simp [hij, hs], hn⟩
    case pos =>
      have ⟨s', hs', hn'⟩ := holds
      have hl := (List.getElem?_eq_some_iff.mp hs).choose
      have he : s' = s := by simpa [hij, hs, eq_comm] using hs'
      have ⟨ha, hb⟩ := Session.isNamed_iff.mp hn
      have ⟨ha', hb'⟩ := Session.isNamed_iff.mp hn'
      refine ⟨⟨identity', nonce', now⟩, by simp [hij, hl], Session.isNamed_iff.mpr ⟨?_, ?_⟩⟩
      · rw [← ha, ← ha', he]
      · rw [← hb, ← hb', he]
  case inr.inl =>
    have hij : j ≠ i := by
      intro he
      have := he ▸ vacancy.empty
      simp [hs] at this
    exact ⟨s, by simp [hij, hs], hn⟩
  case inr.inr => exact h

theorem Holds.reap (h : t.Holds i identity nonce)
    (hx : ∀ s, t.slots[i]? = some (some s) → ¬ lifetime < now - s.lastActivity) :
    (t.step (.reap now lifetime)).Holds i identity nonce := by
  have ⟨s, hs, hn⟩ := h
  exact ⟨s, ((t.reaps_reap now lifetime).spares i hx).trans hs, hn⟩

theorem Holds.run {events : List Event} (h : t.Holds i identity nonce)
    (outlives : t.Outlives i events) : (t.run events).Holds i identity nonce := by
  induction events generalizing t
  case nil => exact h
  case cons event rest hi =>
    cases event
    case start => exact hi (h.start ..) outlives
    case reap  => exact hi (h.reap outlives.left) outlives.right

-- What can be relied on whatever was asked of the table before.
structure Stable (t : SessionTable) (capacity : Nat) : Prop where
  capacity : t.capacity = capacity
  distinct : t.Distinct
  answers  : ∀ identity nonce now, t.Answers identity nonce now
  reaps    : ∀ now lifetime,
    t.Reaps now lifetime (t.reap now lifetime).1 (t.reap now lifetime).2
  keeps    : ∀ i identity nonce later, t.Holds i identity nonce → t.Outlives i later →
    (t.run later).Holds i identity nonce

theorem stable_run (hd : t.Distinct) (events : List Event) :
    (t.run events).Stable t.capacity := by
  induction events generalizing t
  case nil =>
    exact ⟨rfl, hd, hd.answers, t.reaps_reap, fun _ _ _ _ holds outlives => holds.run outlives⟩
  case cons event _ hi =>
    rw [← t.capacity_step event]
    exact hi (hd.step event)

theorem slots_stable {capacity : Nat} (h : 0 < capacity) :
    ∃ t, make capacity = .ok t ∧ ∀ events, (t.run events).Stable capacity := by
  have hn : capacity ≠ 0 := Nat.ne_of_gt h
  refine ⟨⟨List.replicate capacity none⟩, by simp [make, hn], fun events => ?_⟩
  have hd : Distinct ⟨List.replicate capacity none⟩ :=
    distinct_of_active_eq_nil <| by simp [active]
  simpa [SessionTable.capacity] using stable_run hd events

-- The first session is reaped, and the second is refreshed where it is, behind the empty slot.
theorem slots_stable_two :
    0 < 2 ∧ ∃ t, make 2 = .ok t ∧
      let t' := t.run [.start .broadcast 1 0, .start .broadcast 2 7, .reap 10 9]
      t'.slots = [none, some ⟨.broadcast, 2, 7⟩] ∧
      t'.start .broadcast 2 20 = .ok (.refreshed, ⟨[none, some ⟨.broadcast, 2, 20⟩]⟩) := by
  refine ⟨by decide, ?_⟩
  have ⟨t, ht, stable⟩ := slots_stable (by decide : 0 < 2)
  have he : t = ⟨[none, none]⟩ := (Except.ok.inj ht).symm
  subst he
  have := stable [.start .broadcast 1 0, .start .broadcast 2 7, .reap 10 9]
  exact ⟨_, ht, by decide, (this.answers .broadcast 2 20).refreshed 1 _ rfl (by decide)⟩

end RemoteScreen.SessionTable
