import Mathlib.Data.List.Nodup
import RemoteScreen.Proofs.Pool.Circulation

namespace RemoteScreen

-- What was given to the producer under one lease. Leases are numbered in the order in which they
-- are given.
structure Parcel where
  serial   : Nat
  index    : Nat
  contents : Octets

namespace Parcel

-- All that a holder can tell of a parcel.
def view (x : Parcel) : Nat × Octets :=
  (x.index, x.contents)

def fill (x : Parcel) (octets : Octets) : Parcel :=
  { x with contents := octets.take x.contents.length ++ x.contents.drop octets.length }

def truncate (x : Parcel) (length : Nat) : Parcel :=
  { x with contents := x.contents.take length }

end Parcel

-- A stack of free slots, a stack of published parcels, and the parcels that are held. What became
-- of the parcels is written down beside them, the latest first.
structure Stacks where
  slotCapacity : Nat
  free         : List Nat
  ready        : List Parcel := []
  pending      : List Parcel := []
  inUse        : List Parcel := []
  -- Leases given so far.
  leases       : Nat := 0
  published    : List Parcel := []
  taken        : List Parcel := []
  abandoned    : List Parcel := []

namespace Stacks

def fresh (count slotCapacity : Nat) : Stacks where
  slotCapacity := slotCapacity
  free         := List.range count

def held (s : Stacks) : Holder → List Parcel
  | .producer => s.pending
  | .consumer => s.inUse

def setHeld (s : Stacks) (parcels : List Parcel) : Holder → Stacks
  | .producer => { s with pending := parcels }
  | .consumer => { s with inUse := parcels }

-- The slot on top is leased, with zeros in it.
def lease (s : Stacks) (size : Nat) : Except Fault (Parcel × Stacks) :=
  if s.slotCapacity < size then .error (.frameTooLarge size s.slotCapacity)
  else
    match s.free with
    | [] => .error .poolExhausted
    | index :: free =>
      .ok (⟨s.leases, index, Octets.zeros size⟩, { s with free, leases := s.leases + 1 })

def publish (s : Stacks) (x : Parcel) : Stacks :=
  { s with ready := x :: s.ready, published := x :: s.published }

def giveBack (s : Stacks) (x : Parcel) : Stacks :=
  { s with free := x.index :: s.free }

def abandon (s : Stacks) (x : Parcel) : Stacks :=
  { s.giveBack x with abandoned := x :: s.abandoned }

def take? (s : Stacks) : Option (Parcel × Stacks) :=
  match s.ready with
  | [] => none
  | x :: ready => some (x, { s with ready, taken := x :: s.taken })

-- Ends the holding of the parcel at a place, if there is one.
def finish (s : Stacks) (holder : Holder) (place : Nat) (f : Stacks → Parcel → Stacks) : Stacks :=
  match (s.held holder)[place]? with
  | none => s
  | some x => f (s.setHeld ((s.held holder).eraseIdx place) holder) x

def step (s : Stacks) : Circulation.Event → Stacks
  | .acquire size =>
    match s.lease size with
    | .error _ => s
    | .ok (x, s) => { s with pending := x :: s.pending }
  | .fill place octets => { s with pending := s.pending.modify place (·.fill octets) }
  | .truncate place length => { s with pending := s.pending.modify place (·.truncate length) }
  | .markReady place => s.finish .producer place publish
  | .dropPending place => s.finish .producer place abandon
  | .receive frame =>
    match s.lease frame.length with
    | .error _ => s
    | .ok (x, s) => s.publish { x with contents := frame }
  | .takeReady =>
    match s.take? with
    | none => s
    | some (x, s) => { s with inUse := x :: s.inUse }
  | .release place => s.finish .consumer place giveBack
  | .dropReady place => s.finish .consumer place giveBack

def run (s : Stacks) (events : List Circulation.Event) : Stacks :=
  events.foldl step s

-- What whoever does a thing is told: whether it failed, and the slot and octets it has got.
def answer (s : Stacks) : Circulation.Event → Except Fault (Option (Nat × Octets))
  | .acquire size => (s.lease size).map fun x => some x.1.view
  | .receive frame => (s.lease frame.length).map fun _ => none
  | .takeReady => .ok (s.take?.map (·.1.view))
  | _ => .ok none

variable {s s' : Stacks} {x : Parcel}

theorem lease_eq_ok {size : Nat} (h : s.lease size = .ok (x, s')) :
    ∃ index free, size ≤ s.slotCapacity ∧ s.free = index :: free ∧
      x = ⟨s.leases, index, Octets.zeros size⟩ ∧ s' = { s with free, leases := s.leases + 1 } := by
  rw [lease] at h
  split at h
  case isTrue => contradiction
  case isFalse hs =>
    split at h
    case h_1 => contradiction
    case h_2 index free hf =>
      injection h with h
      injection h with hx hs'
      exact ⟨index, free, Nat.le_of_not_lt hs, hf, hx.symm, hs'.symm⟩

theorem take?_eq_some (h : s.take? = some (x, s')) :
    ∃ ready, s.ready = x :: ready ∧ s' = { s with ready, taken := x :: s.taken } := by
  rw [take?] at h
  split at h
  case h_1 => contradiction
  case h_2 y ready hr =>
    injection h with h
    injection h with hx hs
    subst hx
    exact ⟨ready, hr, hs.symm⟩

-- The books are right: what was published has been taken or is ready, the latest first, and every
-- lease there was is of a parcel that is still pending, was published or was abandoned.
structure Balanced (s : Stacks) : Prop where
  delivered : s.published.Perm (s.taken ++ s.ready)
  order     : s.ready.Sublist s.published
  serials   : ((s.pending ++ s.published ++ s.abandoned).map Parcel.serial).Perm
    (List.range s.leases)

theorem Balanced.nodup (h : s.Balanced) :
    ((s.pending ++ s.published ++ s.abandoned).map Parcel.serial).Nodup :=
  h.serials.symm.nodup List.nodup_range

-- No parcel is published twice, so none is taken twice.
theorem Balanced.nodup_published (h : s.Balanced) : (s.published.map Parcel.serial).Nodup := by
  have hs : s.published.Sublist (s.pending ++ s.published ++ s.abandoned) :=
    (List.sublist_append_right ..).trans <| List.sublist_append_left ..
  exact (hs.map _).nodup h.nodup

theorem Balanced.not_taken (h : s.Balanced) (hx : x ∈ s.abandoned) :
    ∀ y ∈ s.taken, y.serial ≠ x.serial := by
  intro y hy
  have hp : y ∈ s.pending ++ s.published := by
    apply List.mem_append_right
    exact h.delivered.mem_iff.mpr <| List.mem_append_left _ hy
  have hn := h.nodup
  rw [List.map_append, List.nodup_append] at hn
  exact hn.right.right _ (List.mem_map_of_mem hp) _ (List.mem_map_of_mem hx)

theorem take?_eq_none_iff : s.take? = none ↔ s.ready = [] := by
  rw [take?]
  cases s.ready <;> simp

theorem Balanced.take?_eq_none_iff (h : s.Balanced) :
    s.take? = none ↔ ∀ x ∈ s.published, x ∈ s.taken := by
  have hn : (s.taken ++ s.ready).Nodup := h.delivered.nodup (h.nodup_published.of_map _)
  rw [Stacks.take?_eq_none_iff]
  constructor
  case mp =>
    intro hr x hx
    have hx := h.delivered.mem_iff.mp hx
    rwa [hr, List.append_nil] at hx
  case mpr =>
    intro ht
    rw [List.eq_nil_iff_forall_not_mem]
    intro x hx
    have hp := ht x <| h.delivered.mem_iff.mpr <| List.mem_append_right _ hx
    exact List.disjoint_of_nodup_append hn hp hx

-- A parcel that has not been taken, although all that were published after it have been.
def Latest (s : Stacks) (x : Parcel) : Prop :=
  x ∉ s.taken ∧ ∃ later earlier, s.published = later ++ x :: earlier ∧ ∀ y ∈ later, y ∈ s.taken

theorem Balanced.latest (h : s.Balanced) (ht : s.take? = some (x, s')) : s.Latest x := by
  have ⟨ready, hr, _⟩ := take?_eq_some ht
  have hp := h.nodup_published.of_map _
  have hn : (s.taken ++ s.ready).Nodup := h.delivered.nodup hp
  have ho := h.order
  rw [hr, List.cons_sublist_iff] at ho
  have ⟨front, earlier, he, hx, hs⟩ := ho
  have ⟨later, between, hf⟩ := List.append_of_mem hx
  rw [hf, List.append_assoc, List.cons_append] at he
  refine ⟨fun hx => ?_, later, between ++ earlier, he, fun y hy => ?_⟩
  case refine_1 => exact List.disjoint_of_nodup_append hn hx (hr ▸ List.mem_cons_self)
  case refine_2 =>
    have hd := List.disjoint_of_nodup_append (he ▸ hp) hy
    have hm := h.delivered.mem_iff.mp (he ▸ List.mem_append_left _ hy)
    cases List.mem_append.mp hm
    case inl hm => exact hm
    case inr hm =>
      rw [hr] at hm
      cases hm
      case head => exact absurd (.head _) hd
      case tail hm => exact absurd (.tail _ <| List.mem_append_right _ <| hs.subset hm) hd

theorem balanced_fresh (count slotCapacity : Nat) : (fresh count slotCapacity).Balanced :=
  ⟨.refl _, .refl _, .refl _⟩

@[simp]
theorem slotCapacity_setHeld (s : Stacks) (parcels : List Parcel) (holder : Holder) :
    (s.setHeld parcels holder).slotCapacity = s.slotCapacity := by
  cases holder <;> rfl

theorem slotCapacity_finish (g : Stacks → Parcel → Stacks)
    (hg : ∀ s x, (g s x).slotCapacity = s.slotCapacity) (s : Stacks) (holder : Holder) (i : Nat) :
    (s.finish holder i g).slotCapacity = s.slotCapacity := by
  rw [finish]
  split
  case h_1 => rfl
  case h_2 => rw [hg, slotCapacity_setHeld]

theorem slotCapacity_lease {size : Nat} (h : s.lease size = .ok (x, s')) :
    s'.slotCapacity = s.slotCapacity := by
  have ⟨_, _, _, _, _, hs⟩ := lease_eq_ok h
  rw [hs]

theorem slotCapacity_step (s : Stacks) (event : Circulation.Event) :
    (s.step event).slotCapacity = s.slotCapacity := by
  cases event
  case acquire size =>
    rw [step]
    split
    case h_1 => rfl
    case h_2 hl =>
      have hc := slotCapacity_lease hl
      exact hc
  case receive frame =>
    rw [step]
    split
    case h_1 => rfl
    case h_2 hl =>
      have hc := slotCapacity_lease hl
      exact hc
  case takeReady =>
    rw [step]
    split
    case h_1 => rfl
    case h_2 ht =>
      have ⟨_, _, hs⟩ := take?_eq_some ht
      rw [hs]
  case markReady i   => exact slotCapacity_finish publish (fun _ _ => rfl) s _ i
  case dropPending i => exact slotCapacity_finish abandon (fun _ _ => rfl) s _ i
  case release i     => exact slotCapacity_finish giveBack (fun _ _ => rfl) s _ i
  case dropReady i   => exact slotCapacity_finish giveBack (fun _ _ => rfl) s _ i
  all_goals rfl

theorem slotCapacity_run (s : Stacks) (events : List Circulation.Event) :
    (s.run events).slotCapacity = s.slotCapacity := by
  induction events generalizing s
  case nil => rfl
  case cons event _ hi => exact (hi _).trans (s.slotCapacity_step event)

theorem perm_range_succ {serials : List Nat} {n : Nat} (h : serials.Perm (List.range n)) :
    (n :: serials).Perm (List.range (n + 1)) := by
  rw [List.range_succ]
  exact (h.cons n).trans (List.perm_append_singleton ..).symm

-- A parcel that the producer held is written down elsewhere.
theorem perm_eraseIdx {i : Nat} (hx : s.pending[i]? = some x) (front back : List Parcel) :
    (s.pending.eraseIdx i ++ (front ++ x :: back)).Perm (s.pending ++ (front ++ back)) := by
  have ⟨hi, hg⟩ := List.getElem?_eq_some_iff.mp hx
  have hp := List.getElem_cons_eraseIdx_perm hi
  rw [hg] at hp
  rw [← List.append_assoc, ← List.append_assoc s.pending]
  refine List.perm_middle.trans ?_
  rw [← List.cons_append, ← List.cons_append]
  exact (hp.append_right front).append_right back

theorem Balanced.acquire (h : s.Balanced) (size : Nat) : (s.step (.acquire size)).Balanced := by
  rw [step]
  split
  case h_1 => exact h
  case h_2 hl =>
    have ⟨_, _, _, _, hx, hs⟩ := lease_eq_ok hl
    subst hx hs
    exact ⟨h.delivered, h.order, perm_range_succ h.serials⟩

theorem Balanced.receive (h : s.Balanced) (frame : Octets) :
    (s.step (.receive frame)).Balanced := by
  rw [step]
  split
  case h_1 => exact h
  case h_2 hl =>
    have ⟨_, _, _, _, hx, hs⟩ := lease_eq_ok hl
    subst hx hs
    refine ⟨(h.delivered.cons _).trans List.perm_middle.symm, h.order.cons_cons _, ?_⟩
    refine .trans ?_ (perm_range_succ h.serials)
    simp only [publish, List.append_assoc, List.map_append, List.map_cons]
    exact List.perm_middle

theorem Balanced.modify (h : s.Balanced) {f : Parcel → Parcel}
    (hf : ∀ x, (f x).serial = x.serial) (i : Nat) :
    Balanced { s with pending := s.pending.modify i f } := by
  refine ⟨h.delivered, h.order, ?_⟩
  rw [List.map_append, List.map_append, map_modify hf, ← List.map_append, ← List.map_append]
  exact h.serials

theorem Balanced.markReady (h : s.Balanced) (i : Nat) : (s.step (.markReady i)).Balanced := by
  rw [step, finish]
  split
  case h_1 => exact h
  case h_2 hx =>
    refine ⟨(h.delivered.cons _).trans List.perm_middle.symm, h.order.cons_cons _, ?_⟩
    refine .trans (.map _ ?_) h.serials
    rw [List.append_assoc, List.append_assoc]
    exact perm_eraseIdx hx [] _

theorem Balanced.dropPending (h : s.Balanced) (i : Nat) : (s.step (.dropPending i)).Balanced := by
  rw [step, finish]
  split
  case h_1 => exact h
  case h_2 hx =>
    refine ⟨h.delivered, h.order, .trans (.map _ ?_) h.serials⟩
    rw [List.append_assoc, List.append_assoc]
    exact perm_eraseIdx hx _ _

theorem Balanced.takeReady (h : s.Balanced) : (s.step .takeReady).Balanced := by
  rw [step]
  split
  case h_1 => exact h
  case h_2 ht =>
    have ⟨_, hr, hs⟩ := take?_eq_some ht
    subst hs
    refine ⟨h.delivered.trans ?_, (hr ▸ List.sublist_cons_self ..).trans h.order, h.serials⟩
    rw [hr]
    exact List.perm_middle

theorem Balanced.giveBack (h : s.Balanced) (i : Nat) :
    (s.finish .consumer i Stacks.giveBack).Balanced := by
  rw [finish]
  split
  case h_1 => exact h
  case h_2 => exact ⟨h.delivered, h.order, h.serials⟩

theorem Balanced.step (h : s.Balanced) (event : Circulation.Event) : (s.step event).Balanced := by
  cases event
  case acquire size  => exact h.acquire size
  case fill          => exact h.modify (f := (·.fill _)) (fun _ => rfl) _
  case truncate      => exact h.modify (f := (·.truncate _)) (fun _ => rfl) _
  case markReady i   => exact h.markReady i
  case dropPending i => exact h.dropPending i
  case receive frame => exact h.receive frame
  case takeReady     => exact h.takeReady
  case release i     => exact h.giveBack i
  case dropReady i   => exact h.giveBack i

theorem Balanced.run (h : s.Balanced) (events : List Circulation.Event) :
    (s.run events).Balanced := by
  induction events generalizing s
  case nil             => exact h
  case cons event _ hi => exact hi (h.step event)

end Stacks

end RemoteScreen
